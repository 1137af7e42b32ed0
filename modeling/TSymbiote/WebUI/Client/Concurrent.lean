import TSymbiote.WebUI.PeerMap

/-! # Concurrent updates of the host map

`SetKnownHost` and `DeleteAdapter` are sequences of map operations, each atomic
by itself. Even when every adapter has one host and every host one adapter, the
calls for one adapter can interleave so that a removal takes the adapter's entry
and leaves the host's, or the other way round. What is needed is that no adapter
is set and removed at the same time.
-/

namespace TSymbiote.WebUI

open Transition FanOut

namespace Client

/-- The map operations of a call. -/
def Call.body : Call → Go Client PeerMapResult
  | .setKnownHost host adapter => setKnownHostThen host adapter .ret
  | .deleteAdapter adapter => deleteAdapterThen adapter .ret

/-- Calls that are made together on maps that are inverse. `bound` is the host of
each adapter, in the maps as well as in the calls. -/
structure Updates where
  bound : String ≃. String
  client : Client
  calls : List Call
  inverse : client.Inverse
  known : ∀ a h, client.getHost a = some h → bound a = some h
  fits : ∀ h a, .setKnownHost h a ∈ calls → bound a = some h

namespace Updates

def tasks (u : Updates) : List (Go Client PeerMapResult) := u.calls.map Call.body

/-- All calls have returned. -/
def Returned (s : State Client PeerMapResult) : Prop :=
  s.unstarted = [] ∧ ∀ w ∈ s.workers, w = .ret

/-- However the operations interleave, the maps are inverse in the end. -/
def EndsInverse (u : Updates) : Prop :=
  ∀ s, Reaches step (start u.tasks u.client) s → Returned s → s.shared.Inverse

def Sets (u : Updates) (a : String) : Prop := ∃ h, .setKnownHost h a ∈ u.calls

def Deletes (u : Updates) (a : String) : Prop := .deleteAdapter a ∈ u.calls

theorem bound_inj (u : Updates) {a b h : String} (ha : u.bound a = some h)
    (hb : u.bound b = some h) : a = b := u.bound.inj ha hb

/-! ## Every interleaving of separate updates -/

/-- The maps between two operations: nothing but the bindings is in them, what no
call removes is kept, and what no call sets does not appear. -/
structure Agrees (u : Updates) (c : Client) : Prop where
  host : ∀ a h, c.getHost a = some h → u.bound a = some h
  adapter : ∀ a h, c.getAdapter h = some a → u.bound a = some h
  kept : ∀ a h, ¬ u.Deletes a → u.client.getHost a = some h →
    c.getHost a = some h ∧ c.getAdapter h = some a
  fresh : ∀ a h, ¬ u.Sets a → u.bound a = some h → u.client.getHost a = none →
    c.getHost a = none ∧ c.getAdapter h = none

/-- What the other calls have done stays done. -/
structure Keeps (u : Updates) (c c' : Client) : Prop where
  removed : ∀ a, u.Deletes a → c.getHost a = none → c'.getHost a = none
  stored : ∀ a h, u.Sets a → c.getHost a = some h → c'.getHost a = some h
  listed : ∀ a h, u.Sets a → u.bound a = some h → c.getAdapter h = some a →
    c'.getAdapter h = some a

/-- Where a call stands when the client is `c`. -/
inductive Stage (u : Updates) (c : Client) : Call → Go Client PeerMapResult → Prop where
  | deleting (a : String) : Stage u c (.deleteAdapter a) (deleteAdapterThen a .ret)
  | found (a h : String) (hb : u.bound a = some h) :
      Stage u c (.deleteAdapter a) (.store (·.eraseAdapter a) (.store (·.eraseHost h) .ret))
  | erased (a h : String) (hb : u.bound a = some h) (hgone : c.getHost a = none) :
      Stage u c (.deleteAdapter a) (.store (·.eraseHost h) .ret)
  | deleted (a : String) (hgone : c.getHost a = none) : Stage u c (.deleteAdapter a) .ret
  | setting (h a : String) : Stage u c (.setKnownHost h a) (setKnownHostThen h a .ret)
  | stored (h a : String) (hh : c.getHost a = some h) :
      Stage u c (.setKnownHost h a) (.store (·.storeHost h a) .ret)
  | set (h a : String) (hh : c.getHost a = some h) (ha : c.getAdapter h = some a) :
      Stage u c (.setKnownHost h a) .ret

/-- A call that has yet to remove the host of its adapter. -/
def Erasing (u : Updates) (tasks : List (Go Client PeerMapResult)) (a : String) : Prop :=
  ∃ (i : Nat) (f : Client → Client), u.calls[i]? = some (.deleteAdapter a) ∧
    tasks[i]? = some (.store f .ret)

structure Between (u : Updates) (c : Client) (tasks : List (Go Client PeerMapResult)) : Prop where
  stages : ∀ (i : Nat) (w : Go Client PeerMapResult) (call : Call), tasks[i]? = some w →
    u.calls[i]? = some call → Stage u c call w
  agrees : Agrees u c
  pending : ∀ a h, u.Deletes a → u.bound a = some h → c.getHost a = none →
    c.getAdapter h = none ∨ Erasing u tasks a

section Separate

variable {u : Updates} {c c' : Client} {a h : String}

theorem Keeps.refl : Keeps u c c := ⟨fun _ _ h => h, fun _ _ _ h => h, fun _ _ _ _ h => h⟩

theorem Stage.keep {call : Call} {w : Go Client PeerMapResult} (hk : Keeps u c c')
    (hcall : call ∈ u.calls) (hs : Stage u c call w) : Stage u c' call w := by
  cases hs with
  | deleting a => exact .deleting a
  | found a h hb => exact .found a h hb
  | erased a h hb hgone => exact .erased a h hb (hk.removed a hcall hgone)
  | deleted a hgone => exact .deleted a (hk.removed a hcall hgone)
  | setting h a => exact .setting h a
  | stored h a hh => exact .stored h a (hk.stored a h ⟨h, hcall⟩ hh)
  | set h a hh ha =>
      exact .set h a (hk.stored a h ⟨h, hcall⟩ hh) (hk.listed a h ⟨h, hcall⟩ (u.fits h a hcall) ha)

/-! What each operation does to the maps, for calls on one binding. -/

theorem agrees_storeAdapter (hc : Agrees u c) (hset : .setKnownHost h a ∈ u.calls) :
    Agrees u (c.storeAdapter a h) where
  host b k hb := by
    rw [getHost_storeAdapter] at hb
    split at hb
    · next hba =>
        subst hba
        cases hb
        exact u.fits _ _ hset
    · exact hc.host b k hb
  adapter := hc.adapter
  kept b k hdel hb := by
    rw [getHost_storeAdapter]
    refine ⟨?_, (hc.kept b k hdel hb).2⟩
    split
    · next hba =>
        subst hba
        rw [← u.fits _ _ hset]
        exact u.known b k hb
    · exact (hc.kept b k hdel hb).1
  fresh b k hnot hb hn := by
    have hba : b ≠ a := fun heq => hnot ⟨h, heq ▸ hset⟩
    rw [getHost_storeAdapter, if_neg hba]
    exact hc.fresh b k hnot hb hn

theorem agrees_storeHost (hc : Agrees u c) (hset : .setKnownHost h a ∈ u.calls) :
    Agrees u (c.storeHost h a) where
  host := hc.host
  adapter b k hb := by
    rw [getAdapter_storeHost] at hb
    split at hb
    · next hkh =>
        subst hkh
        cases hb
        exact u.fits _ _ hset
    · exact hc.adapter b k hb
  kept b k hdel hb := by
    rw [getAdapter_storeHost]
    refine ⟨(hc.kept b k hdel hb).1, ?_⟩
    split
    · next hkh =>
        subst hkh
        rw [u.bound_inj (u.known b k hb) (u.fits _ _ hset)]
    · exact (hc.kept b k hdel hb).2
  fresh b k hnot hb hn := by
    have hkh : k ≠ h := by
      rintro rfl
      exact hnot ⟨k, u.bound_inj hb (u.fits _ _ hset) ▸ hset⟩
    rw [getAdapter_storeHost, if_neg hkh]
    exact hc.fresh b k hnot hb hn

theorem agrees_eraseAdapter (hc : Agrees u c) (hdel : u.Deletes a) :
    Agrees u (c.eraseAdapter a) where
  host b k hb := by
    rw [getHost_eraseAdapter] at hb
    split at hb
    · contradiction
    · exact hc.host b k hb
  adapter := hc.adapter
  kept b k hnot hb := by
    have hba : b ≠ a := fun heq => hnot (heq ▸ hdel)
    rw [getHost_eraseAdapter, if_neg hba]
    exact hc.kept b k hnot hb
  fresh b k hnot hb hn := by
    refine ⟨?_, (hc.fresh b k hnot hb hn).2⟩
    rw [getHost_eraseAdapter]
    split
    · rfl
    · exact (hc.fresh b k hnot hb hn).1

theorem agrees_eraseHost (hc : Agrees u c) (hdel : u.Deletes a) (hbound : u.bound a = some h) :
    Agrees u (c.eraseHost h) where
  host := hc.host
  adapter b k hb := by
    rw [getAdapter_eraseHost] at hb
    split at hb
    · contradiction
    · exact hc.adapter b k hb
  kept b k hnot hb := by
    have hkh : k ≠ h := by
      rintro rfl
      exact hnot (u.bound_inj (u.known b k hb) hbound ▸ hdel)
    rw [getAdapter_eraseHost, if_neg hkh]
    exact hc.kept b k hnot hb
  fresh b k hnot hb hn := by
    refine ⟨(hc.fresh b k hnot hb hn).1, ?_⟩
    rw [getAdapter_eraseHost]
    split
    · rfl
    · exact (hc.fresh b k hnot hb hn).2

/-! What it leaves of the others' work, when no adapter is both set and removed. -/

theorem keeps_storeAdapter (hnot : ¬ u.Deletes a) (hset : .setKnownHost h a ∈ u.calls)
    (hc : Agrees u c) : Keeps u c (c.storeAdapter a h) where
  removed b hdel hn := by
    have hba : b ≠ a := fun heq => hnot (heq ▸ hdel)
    rw [getHost_storeAdapter, if_neg hba]
    exact hn
  stored b k _ hb := by
    rw [getHost_storeAdapter]
    split
    · next hba =>
        subst hba
        rw [← u.fits _ _ hset]
        exact hc.host b k hb
    · exact hb
  listed _ _ _ _ hk := hk

theorem keeps_storeHost (hset : .setKnownHost h a ∈ u.calls) : Keeps u c (c.storeHost h a) where
  removed _ _ hn := hn
  stored _ _ _ hb := hb
  listed b k _ hb hk := by
    rw [getAdapter_storeHost]
    split
    · next hkh =>
        subst hkh
        rw [u.bound_inj hb (u.fits _ _ hset)]
    · exact hk

theorem keeps_eraseAdapter (hnot : ¬ u.Sets a) : Keeps u c (c.eraseAdapter a) where
  removed b _ hn := by
    rw [getHost_eraseAdapter]
    split
    · rfl
    · exact hn
  stored b k hset hb := by
    have hba : b ≠ a := fun heq => hnot (heq ▸ hset)
    rw [getHost_eraseAdapter, if_neg hba]
    exact hb
  listed _ _ _ _ hk := hk

theorem keeps_eraseHost (hnot : ¬ u.Sets a) (hbound : u.bound a = some h) :
    Keeps u c (c.eraseHost h) where
  removed _ _ hn := hn
  stored _ _ _ hb := hb
  listed b k hset hb hk := by
    have hkh : k ≠ h := by
      rintro rfl
      exact hnot (u.bound_inj hb hbound ▸ hset)
    rw [getAdapter_eraseHost, if_neg hkh]
    exact hk

variable {tasks : List (Go Client PeerMapResult)} {i : Nat} {call : Call}

theorem stages_set {w' : Go Client PeerMapResult} (hb : Between u c tasks)
    (hcall : u.calls[i]? = some call) (hk : Keeps u c c') (hstage : Stage u c' call w') :
    Staged (Stage u) u.calls c' (tasks.set i w') :=
  Staged.set hb.stages hcall (fun _ hother _ h => h.keep hk hother) hstage

/-- A pending removal stays pending while another goroutine, or its own at an
earlier operation, moves on. -/
theorem erasing_set {w : Go Client PeerMapResult} (hw : tasks[i]? = some w)
    (hcall : u.calls[i]? = some call) {b : String}
    (helse : call ≠ .deleteAdapter b ∨ ∀ f, w ≠ .store f .ret) (w' : Go Client PeerMapResult)
    (he : Erasing u tasks b) : Erasing u (tasks.set i w') b := by
  rcases he with ⟨j, f, hj, hf⟩
  have hij : i ≠ j := by
    rintro rfl
    rw [hcall] at hj
    rw [hw] at hf
    rcases helse with hne | hne
    · exact hne (Option.some.inj hj)
    · exact hne f (Option.some.inj hf)
  exact ⟨j, f, hj, by rw [List.getElem?_set_ne hij, hf]⟩

/-- A removal looks its adapter up. -/
theorem between_deleting (hb : Between u c tasks)
    (hw : tasks[i]? = some (deleteAdapterThen a .ret))
    (hcall : u.calls[i]? = some (.deleteAdapter a)) {w' : Go Client PeerMapResult} {x : Client}
    (hint : Go.Internal c (deleteAdapterThen a .ret) x w') : Between u x (tasks.set i w') := by
  cases hint
  constructor
  · apply stages_set hb hcall .refl
    dsimp only
    cases hget : c.getHost a with
    | none => exact .deleted a hget
    | some h => exact .found a h (hb.agrees.host a h hget)
  · exact hb.agrees
  · intro b k hdel hbound hn
    exact (hb.pending b k hdel hbound hn).imp_right (erasing_set hw hcall (.inr fun f => nofun) _)

theorem between_eraseAdapter (hnot : ¬ u.Sets a) (hb : Between u c tasks)
    (hw : tasks[i]? = some (.store (·.eraseAdapter a) (.store (·.eraseHost h) .ret)))
    (hcall : u.calls[i]? = some (.deleteAdapter a)) (hbound : u.bound a = some h) :
    Between u (c.eraseAdapter a) (tasks.set i (.store (·.eraseHost h) .ret)) where
  stages := by
    apply stages_set hb hcall (keeps_eraseAdapter hnot)
    exact .erased a h hbound (by rw [getHost_eraseAdapter, if_pos rfl])
  agrees := agrees_eraseAdapter hb.agrees (List.mem_of_getElem? hcall)
  pending b k hdel hbk hn := by
    by_cases hba : b = a
    · subst hba
      have hi := (List.getElem?_eq_some_iff.mp hw).1
      exact .inr ⟨i, (·.eraseHost h), hcall, by simp [hi]⟩
    · rw [getHost_eraseAdapter, if_neg hba] at hn
      exact (hb.pending b k hdel hbk hn).imp_right (erasing_set hw hcall (.inr fun f => nofun) _)

theorem between_eraseHost (hnot : ¬ u.Sets a) (hb : Between u c tasks)
    (hw : tasks[i]? = some (.store (·.eraseHost h) .ret))
    (hcall : u.calls[i]? = some (.deleteAdapter a)) (hbound : u.bound a = some h)
    (hgone : c.getHost a = none) : Between u (c.eraseHost h) (tasks.set i .ret) where
  stages := stages_set hb hcall (keeps_eraseHost hnot hbound) (.deleted a hgone)
  agrees := agrees_eraseHost hb.agrees (List.mem_of_getElem? hcall) hbound
  pending b k hdel hbk hn := by
    rw [getAdapter_eraseHost]
    by_cases hkh : k = h
    · exact .inl (if_pos hkh)
    · rw [if_neg hkh]
      refine (hb.pending b k hdel hbk hn).imp_right (erasing_set hw hcall (.inl ?_) _)
      rintro heq
      cases heq
      rw [hbound] at hbk
      exact hkh (Option.some.inj hbk).symm

theorem between_storeAdapter (hnot : ¬ u.Deletes a) (hb : Between u c tasks)
    (hw : tasks[i]? = some (setKnownHostThen h a .ret))
    (hcall : u.calls[i]? = some (.setKnownHost h a)) :
    Between u (c.storeAdapter a h) (tasks.set i (.store (·.storeHost h a) .ret)) where
  stages := by
    apply stages_set hb hcall (keeps_storeAdapter hnot (List.mem_of_getElem? hcall) hb.agrees)
    exact .stored h a (by rw [getHost_storeAdapter, if_pos rfl])
  agrees := agrees_storeAdapter hb.agrees (List.mem_of_getElem? hcall)
  pending b k hdel hbk hn := by
    have hba : b ≠ a := fun heq => hnot (heq ▸ hdel)
    rw [getHost_storeAdapter, if_neg hba] at hn
    exact (hb.pending b k hdel hbk hn).imp_right (erasing_set hw hcall (.inl nofun) _)

theorem between_storeHost (hnot : ¬ u.Deletes a) (hb : Between u c tasks)
    (hw : tasks[i]? = some (.store (·.storeHost h a) .ret))
    (hcall : u.calls[i]? = some (.setKnownHost h a)) (hh : c.getHost a = some h) :
    Between u (c.storeHost h a) (tasks.set i .ret) where
  stages := by
    apply stages_set hb hcall (keeps_storeHost (List.mem_of_getElem? hcall))
    exact .set h a hh (by rw [getAdapter_storeHost, if_pos rfl])
  agrees := agrees_storeHost hb.agrees (List.mem_of_getElem? hcall)
  pending b k hdel hbk hn := by
    have hkh : k ≠ h := by
      rintro rfl
      exact hnot (u.bound_inj hbk (u.fits _ _ (List.mem_of_getElem? hcall)) ▸ hdel)
    rw [getAdapter_storeHost, if_neg hkh]
    exact (hb.pending b k hdel hbk hn).imp_right (erasing_set hw hcall (.inl nofun) _)

/-- No adapter is both set and removed. -/
def Separate (u : Updates) : Prop := ∀ a, ¬ (u.Sets a ∧ u.Deletes a)

theorem between_internal (hsep : u.Separate) {w w' : Go Client PeerMapResult} {x : Client}
    (hb : Between u c tasks) (hw : tasks[i]? = some w) (hcall : u.calls[i]? = some call)
    (hint : Go.Internal c w x w') : Between u x (tasks.set i w') := by
  have hmem := List.mem_of_getElem? hcall
  cases hb.stages i w call hw hcall with
  | deleting a => exact between_deleting hb hw hcall hint
  | found a h hbound =>
      cases hint
      exact between_eraseAdapter (fun hset => hsep a ⟨hset, hmem⟩) hb hw hcall hbound
  | erased a h hbound hgone =>
      cases hint
      exact between_eraseHost (fun hset => hsep a ⟨hset, hmem⟩) hb hw hcall hbound hgone
  | deleted a hgone => cases hint
  | setting h a =>
      cases hint
      exact between_storeAdapter (fun hdel => hsep a ⟨⟨h, hmem⟩, hdel⟩) hb hw hcall
  | stored h a hh =>
      cases hint
      exact between_storeHost (fun hdel => hsep a ⟨⟨h, hmem⟩, hdel⟩) hb hw hcall hh
  | set h a hh ha => cases hint

theorem between_start (u : Updates) : Between u u.client u.tasks where
  stages := by
    intro j w call hw hcall
    unfold tasks at hw
    rw [List.getElem?_map, hcall] at hw
    cases hw
    cases call with
    | setKnownHost h a => exact .setting h a
    | deleteAdapter a => exact .deleting a
  agrees :=
    { host := u.known
      adapter := fun a h ha => u.known a h ((u.inverse a h).mpr ha)
      kept := fun a h _ hh => ⟨hh, (u.inverse a h).mp hh⟩
      fresh := by
        intro a h _ hbound hn
        refine ⟨hn, ?_⟩
        rw [Option.eq_none_iff_forall_ne_some]
        intro b hb
        have hhost := (u.inverse b h).mpr hb
        rw [u.bound_inj (u.known b h hhost) hbound, hn] at hhost
        cases hhost }
  pending := by
    intro a h _ hbound hn
    left
    rw [Option.eq_none_iff_forall_ne_some]
    intro b hb
    have hhost := (u.inverse b h).mpr hb
    rw [u.bound_inj (u.known b h hhost) hbound, hn] at hhost
    cases hhost

theorem reaches_between (hsep : u.Separate) {s : State Client PeerMapResult}
    (h : Reaches step (start u.tasks u.client) s) :
    Between u s.shared s.tasks ∧ s.tasks.length = u.calls.length := by
  refine reaches_tasks (P := fun c ts => Between u c ts ∧ ts.length = u.calls.length) ?_ ?_ h
    ⟨between_start u, List.length_map _⟩
  · rintro c ts i w x w' ⟨hb, hlen⟩ hw hint
    have hi : i < u.calls.length := hlen ▸ (List.getElem?_eq_some_iff.mp hw).1
    exact ⟨between_internal hsep hb hw (List.getElem?_eq_getElem hi) hint,
      List.length_set.trans hlen⟩
  · rintro c ts i v next ⟨hb, hlen⟩ hw
    have hi : i < u.calls.length := hlen ▸ (List.getElem?_eq_some_iff.mp hw).1
    have hcall : ∃ call, u.calls[i]? = some call := ⟨_, List.getElem?_eq_getElem hi⟩
    rcases hcall with ⟨call, hcall⟩
    cases hb.stages i _ call hw hcall

theorem returned_tasks {s : State Client PeerMapResult} (hr : Returned s) :
    ∀ w ∈ s.tasks, w = .ret := by
  intro w hw
  unfold State.tasks at hw
  rw [hr.1, List.append_nil] at hw
  exact hr.2 w hw

/-- The stage of a call that has returned. -/
theorem returned_stage {s : State Client PeerMapResult} (hb : Between u s.shared s.tasks)
    (hlen : s.tasks.length = u.calls.length) (hr : Returned s) {call : Call}
    (hcall : call ∈ u.calls) : Stage u s.shared call .ret := by
  rcases List.mem_iff_getElem?.mp hcall with ⟨i, hi⟩
  have hlt : i < s.tasks.length := hlen ▸ (List.getElem?_eq_some_iff.mp hi).1
  have hw := List.getElem?_eq_getElem hlt
  have hret := returned_tasks hr _ (List.getElem_mem hlt)
  rw [hret] at hw
  exact hb.stages i _ _ hw hi

theorem not_erasing {s : State Client PeerMapResult} (hr : Returned s) : ¬ Erasing u s.tasks a := by
  rintro ⟨i, f, _, hf⟩
  cases returned_tasks hr _ (List.mem_of_getElem? hf)

/-- For each binding, both maps have it or neither does. -/
theorem settled {s : State Client PeerMapResult} (hsep : u.Separate)
    (h : Reaches step (start u.tasks u.client) s) (hr : Returned s) {a k : String}
    (hbound : u.bound a = some k) :
    (s.shared.getHost a = some k ∧ s.shared.getAdapter k = some a) ∨
      (s.shared.getHost a = none ∧ s.shared.getAdapter k = none) := by
  rcases reaches_between hsep h with ⟨hb, hlen⟩
  by_cases hset : u.Sets a
  · left
    rcases hset with ⟨k', hcall⟩
    have hk := u.fits k' a hcall
    rw [hbound] at hk
    cases hk
    cases returned_stage hb hlen hr hcall with
    | set _ _ hh ha => exact ⟨hh, ha⟩
  · by_cases hdel : u.Deletes a
    · right
      cases returned_stage hb hlen hr hdel with
      | deleted _ hgone =>
          refine ⟨hgone, ?_⟩
          rcases hb.pending a k hdel hbound hgone with hn | he
          · exact hn
          · exact absurd he (not_erasing hr)
    · cases hknown : u.client.getHost a with
      | none => exact .inr (hb.agrees.fresh a k hset hbound hknown)
      | some k' =>
          have hk := u.known a k' hknown
          rw [hbound] at hk
          cases hk
          exact .inl (hb.agrees.kept a k hdel hknown)

theorem endsInverse_of_separate (hsep : u.Separate) : u.EndsInverse := by
  intro s h hr a k
  have hagrees := (reaches_between hsep h).1.agrees
  constructor
  · intro hh
    rcases settled hsep h hr (hagrees.host a k hh) with ⟨_, ha⟩ | ⟨hn, _⟩
    · exact ha
    · rw [hn] at hh
      cases hh
  · intro ha
    rcases settled hsep h hr (hagrees.adapter a k ha) with ⟨hh, _⟩ | ⟨_, hn⟩
    · exact hh
    · rw [hn] at ha
      cases ha

end Separate

/-! ## The interleaving that goes wrong -/

theorem body_finishes (call : Call) : call.body.Finishes := by
  intro c
  cases call with
  | setKnownHost h a => rfl
  | deleteAdapter a =>
      unfold Call.body deleteAdapterThen
      dsimp only [Go.settle]
      cases c.getHost a <;> rfl

/-- Alone, a removal takes the adapter's entry and the host it finds there. -/
theorem settle_deleteAdapter {c : Client} {a h : String} (hh : c.getHost a = some h) :
    (Call.deleteAdapter a).body.settle c = (.ret, (c.eraseAdapter a).eraseHost h) := by
  unfold Call.body deleteAdapterThen
  dsimp only [Go.settle]
  rw [hh]
  rfl

/-- The removal runs between the two stores of the call that sets the host. -/
theorem reaches_between_stores {t : State Client PeerMapResult} {i j : Nat} {a h : String}
    (hc : t.crashed = false) (hij : i ≠ j)
    (hi : t.workers[i]? = some (Call.setKnownHost h a).body)
    (hj : t.workers[j]? = some (Call.deleteAdapter a).body) :
    ∃ c, Reaches step t { t with shared := c, workers := ((t.workers.set i .ret).set j .ret) } ∧
      c.getHost a = none ∧ c.getAdapter h = some a := by
  let storeHost : Go Client PeerMapResult := .store (·.storeHost h a) .ret
  let half : State Client PeerMapResult :=
    { t with shared := t.shared.storeAdapter a h, workers := t.workers.set i storeHost }
  have hhalf : step t (.work i) = some half := by
    simp [step, hc, hi, Call.body, setKnownHostThen, half, storeHost]
  have hhost : half.shared.getHost a = some h := by
    rw [getHost_storeAdapter, if_pos rfl]
  have hdelete := reaches_settle (s := half) hc ((List.getElem?_set_ne hij).trans hj)
  rw [settle_deleteAdapter hhost] at hdelete
  have hlt : i < t.workers.length := (List.getElem?_eq_some_iff.mp hi).1
  have hlast := reaches_settle (i := i) (w := storeHost)
    (s := { half with
      shared := (half.shared.eraseAdapter a).eraseHost h, workers := half.workers.set j .ret }) hc
    ((List.getElem?_set_ne hij.symm).trans (List.getElem?_set_self hlt))
  have hworkers : ((t.workers.set i storeHost).set j .ret).set i .ret =
      (t.workers.set i .ret).set j .ret := by
    rw [List.set_comm _ _ hij.symm, List.set_set]
  refine ⟨((half.shared.eraseAdapter a).eraseHost h).storeHost h a, ?_, ?_, ?_⟩
  · rw [← hworkers]
    exact .head hhalf (hdelete.trans hlast)
  · rw [getHost_storeHost, getHost_eraseHost, getHost_eraseAdapter, if_pos rfl]
  · rw [getAdapter_storeHost, if_pos rfl]

/-- All other calls return first, whatever they are. -/
theorem reaches_torn {u : Updates} {i j : Nat} {a h : String}
    (hi : u.calls[i]? = some (.setKnownHost h a)) (hj : u.calls[j]? = some (.deleteAdapter a)) :
    ∃ s, Reaches step (start u.tasks u.client) s ∧ Returned s ∧ s.shared.getHost a = none ∧
      s.shared.getAdapter h = some a := by
  have hij : i ≠ j := by
    rintro rfl
    rw [hi] at hj
    cases hj
  have hfinishes : ∀ w ∈ u.tasks, w.Finishes := by
    intro w hw
    rcases List.mem_map.mp hw with ⟨call, _, heq⟩
    subst heq
    exact body_finishes call
  let spawned : State Client PeerMapResult :=
    { shared := u.client, unstarted := [], workers := u.tasks, results := [], closed := 0,
      crashed := false }
  have hspawned : Reaches step (start u.tasks u.client) spawned :=
    reaches_spawned [] u.tasks u.client
  rcases reaches_finished_except (fun k => k = i ∨ k = j) (s := spawned) rfl hfinishes
    u.tasks.length with ⟨t, ht, hct, hut, hsame, hret⟩
  have hti : t.workers[i]? = some (Call.setKnownHost h a).body := by
    rw [hsame i (.inl (.inl rfl))]
    simp [spawned, tasks, hi]
  have htj : t.workers[j]? = some (Call.deleteAdapter a).body := by
    rw [hsame j (.inl (.inr rfl))]
    simp [spawned, tasks, hj]
  rcases reaches_between_stores hct hij hti htj with ⟨c, htorn, hgone, hlisted⟩
  refine ⟨_, hspawned.trans (ht.trans htorn), ⟨hut, ?_⟩, hgone, hlisted⟩
  intro w hw
  rcases List.mem_iff_getElem?.mp hw with ⟨k, hk⟩
  rcases getElem?_set_cases hk with ⟨_, hv⟩ | ⟨hjk, hk⟩
  · exact hv
  · rcases getElem?_set_cases hk with ⟨_, hv⟩ | ⟨hik, hk⟩
    · exact hv
    · by_cases hlen : k < u.tasks.length
      · refine hret k hlen ?_ w hk
        rintro (heq | heq)
        · exact hik heq.symm
        · exact hjk heq.symm
      · rw [hsame k (.inr (Nat.le_of_not_lt hlen))] at hk
        exact absurd (List.getElem?_eq_some_iff.mp hk).1 hlen

/-- Concurrent calls leave the maps inverse in every interleaving exactly when no
adapter is both set and removed by them. -/
theorem endsInverse_iff (u : Updates) :
    u.EndsInverse ↔ ∀ a, ¬ (u.Sets a ∧ u.Deletes a) := by
  constructor
  · rintro hend a ⟨⟨h, hset⟩, hdel⟩
    rcases List.mem_iff_getElem?.mp hset with ⟨i, hi⟩
    rcases List.mem_iff_getElem?.mp hdel with ⟨j, hj⟩
    rcases reaches_torn hi hj with ⟨s, hs, hr, hgone, hlisted⟩
    have hh := (hend s hs hr a h).mpr hlisted
    rw [hgone] at hh
    cases hh
  · exact endsInverse_of_separate

/-- `PeerMap` registers a host while another request removes its adapter. -/
def overlapping : Updates where
  bound := PEquiv.single "ts-a" "node"
  client := newClient
  calls := [.setKnownHost "node" "ts-a", .deleteAdapter "ts-a"]
  inverse := inverse_newClient
  known a h hh := by cases hh
  fits h a hset := by
    simp only [List.mem_cons, reduceCtorEq, List.not_mem_nil, or_false, Call.setKnownHost.injEq] at hset
    rw [hset.1, hset.2]
    exact PEquiv.single_apply _ _

/-- The host stays listed, and removing its adapter only gives an error. -/
theorem overlapping_not_inverse :
    ¬ overlapping.EndsInverse ∧ ∃ s, Reaches step (start overlapping.tasks overlapping.client) s ∧
      Returned s ∧ s.shared.getAdapter "node" = some "ts-a" ∧
        s.shared.deleteAdapter "ts-a" = (s.shared, some "could not find host to delete") := by
  rcases reaches_torn (u := overlapping) (i := 0) (j := 1) rfl rfl with ⟨s, hs, hr, hgone, hlisted⟩
  constructor
  · intro hend
    have hh := (hend s hs hr "ts-a" "node").mpr hlisted
    rw [hgone] at hh
    cases hh
  · refine ⟨s, hs, hr, hlisted, ?_⟩
    unfold deleteAdapter
    rw [hgone]

end Updates

end Client

end TSymbiote.WebUI
