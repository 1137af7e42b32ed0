import TSymbiote.WebUI.PeerMap.Graph

/-! # Abandoned peer map requests

The calls of the adapters have a context that derives from the requester's. A
requester who disconnects cuts off the calls in flight: one without an answer
yet fails like a call of a dead adapter, and the adapter is removed from the map
that all requests share; one whose body is being read fails to decode.
-/

namespace TSymbiote.WebUI

open Transition FanOut

/-- What the disconnection, if it comes in time, does to a call. -/
inductive Fate where
  | answered
  | cut (err : String)
  | cutBody (err : String)

/-- The call of one device; `own` has what the adapter itself would come to. -/
structure Attempt where
  own : AdapterCall
  fate : Fate

def Attempt.call (attempt : Attempt) : AdapterCall :=
  match attempt.fate, attempt.own.answer with
  | .cut err, _ => { attempt.own with answer := .error err }
  | .cutBody err, .ok _ => { attempt.own with answer := .ok (.malformed err) }
  | _, _ => attempt.own

theorem call_knownAdapter (attempt : Attempt) :
    attempt.call.knownAdapter = attempt.own.knownAdapter := by
  unfold Attempt.call
  split <;> rfl

theorem call_wellFormed {attempt : Attempt} (h : attempt.own.WellFormed) :
    attempt.call.WellFormed := by
  unfold Attempt.call
  split
  · intro status hstatus
    cases hstatus
  · intro status hstatus
    cases hstatus
  · exact h

/-- A request whose requester disconnects at some moment, or never. -/
structure Abandoned where
  devices : List Device
  attempts : List Attempt
  found : attempts.map (·.own.knownAdapter) = getDevicesWithTag devices "tag:tsymbiote-adapter"
  wellFormed : ∀ attempt ∈ attempts, attempt.own.WellFormed

namespace Abandoned

/-- What the goroutines see of it. -/
def request (r : Abandoned) : Request where
  devices := r.devices
  calls := r.attempts.map (·.call)
  found := by
    rw [← r.found, List.map_map]
    exact List.map_congr_left fun attempt _ => call_knownAdapter attempt
  wellFormed := by
    intro call hcall
    rcases List.mem_map.mp hcall with ⟨attempt, hattempt, heq⟩
    subst heq
    exact call_wellFormed (r.wellFormed attempt hattempt)

def FailedItself (r : Abandoned) (a : String) : Prop :=
  ∃ attempt ∈ r.attempts, attempt.own.Failed ∧ attempt.own.adapter = a

/-- The adapter of the host has neither failed nor answered with another name. -/
structure Entitled (r : Abandoned) (c : Client) (h a : String) : Prop where
  mapped : c.getAdapter h = some a
  sound : ¬ r.FailedItself a
  named : ∀ k, r.request.Answered k a → k = h

/-- The hosts keep their adapters, and no goroutine calls `DeleteAdapter` for an
adapter that has not failed. -/
structure ChangesNothing (r : Abandoned) (c c' : Client) : Prop where
  kept : ∀ h a, r.Entitled c h a → c'.getAdapter h = some a
  deletes : ∀ attempt ∈ r.attempts, ∀ next,
    peerMapWorker attempt.call = deleteAdapterThen attempt.call.adapter next → attempt.own.Failed

/-- No call that fails, for whatever reason, has the name of an adapter that is
recorded for such a host or answers for it, and no other adapter answers for it. -/
def Undisturbed (r : Abandoned) (c : Client) (h a : String) : Prop :=
  (∀ b, r.request.Failed b → c.getHost b ≠ some h ∧ ¬ r.request.Answered h b) ∧
    ∀ b, r.request.Answered h b → b = a

/-- A call is cut off before its answer only when its adapter fails anyway. -/
structure Harmless (r : Abandoned) (c : Client) : Prop where
  hosts : ∀ h a, r.Entitled c h a → r.Undisturbed c h a
  calls : ∀ attempt ∈ r.attempts, ∀ err, attempt.fate = .cut err → attempt.own.Failed

end Abandoned

/-! ## Operations that spare a host -/

/-- What is left of a goroutine does nothing to the adapter `a` of the host `h`,
as long as no failing adapter is recorded for it. -/
inductive Spares (req : Request) (h a : String) : Go Client PeerMapResult → Prop where
  | deleting (b : String) (r : PeerMapResult) (hb : req.Failed b) :
      Spares req h a (deleteAdapterThen b (.send r .ret))
  | eraseAdapter (b k : String) (r : PeerMapResult) (hk : k ≠ h) :
      Spares req h a (.store (·.eraseAdapter b) (.store (·.eraseHost k) (.send r .ret)))
  | eraseHost (k : String) (r : PeerMapResult) (hk : k ≠ h) :
      Spares req h a (.store (·.eraseHost k) (.send r .ret))
  | setting (k b : String) (r : PeerMapResult) (hans : req.Answered k b) :
      Spares req h a (setKnownHostThen k b (.send r .ret))
  | storeHost (k b : String) (r : PeerMapResult) (hans : req.Answered k b) :
      Spares req h a (.store (·.storeHost k b) (.send r .ret))
  | sending (r : PeerMapResult) : Spares req h a (.send r .ret)
  | returned : Spares req h a .ret

/-- The host has its adapter, and no failing adapter is recorded for it. -/
structure Guarded (req : Request) (h a : String) (c : Client) : Prop where
  mapped : c.getAdapter h = some a
  unrecorded : ∀ b, req.Failed b → c.getHost b ≠ some h

section Guarded

variable {req : Request} {h a : String} {c x : Client} {w w' : Go Client PeerMapResult}

theorem worker_spares {call : AdapterCall} (hcall : call ∈ req.calls) :
    Spares req h a (peerMapWorker call) := by
  obtain ⟨r, _, ⟨hf, hworker⟩ | ⟨_, _, hworker⟩ | ⟨host, hself, hworker⟩⟩ :=
    peerMapWorker_shape (req.wellFormed call hcall)
  · rw [hworker]
    exact .deleting call.adapter r ⟨call, hcall, hf, rfl⟩
  · rw [hworker]
    exact .sending r
  · rw [hworker]
    exact .setting host call.adapter r ⟨call, hcall, hself, rfl⟩

theorem Guarded.eraseAdapter (hc : Guarded req h a c) (b : String) :
    Guarded req h a (c.eraseAdapter b) where
  mapped := hc.mapped
  unrecorded b' hb' := by
    rw [Client.getHost_eraseAdapter]
    split
    · exact nofun
    · exact hc.unrecorded b' hb'

theorem Guarded.eraseHost (hc : Guarded req h a c) {k : String} (hk : k ≠ h) :
    Guarded req h a (c.eraseHost k) where
  mapped := by
    rw [Client.getAdapter_eraseHost, if_neg hk.symm]
    exact hc.mapped
  unrecorded := hc.unrecorded

theorem Guarded.storeAdapter (hc : Guarded req h a c) {k b : String}
    (hsafe : req.Failed b → k ≠ h) : Guarded req h a (c.storeAdapter b k) where
  mapped := hc.mapped
  unrecorded b' hb' := by
    rw [Client.getHost_storeAdapter]
    split
    · next hsame =>
        subst hsame
        intro heq
        exact hsafe hb' (Option.some.inj heq)
    · exact hc.unrecorded b' hb'

theorem Guarded.storeHost (hc : Guarded req h a c) {k b : String} (hsame : k = h → b = a) :
    Guarded req h a (c.storeHost k b) where
  mapped := by
    rw [Client.getAdapter_storeHost]
    split
    · next heq => rw [hsame heq.symm]
    · exact hc.mapped
  unrecorded := hc.unrecorded

/-- One operation of one goroutine. -/
theorem spares_internal (hfailed : ∀ b, req.Failed b → ¬ req.Answered h b)
    (hone : ∀ b, req.Answered h b → b = a) (hc : Guarded req h a c) (hw : Spares req h a w)
    (hint : Go.Internal c w x w') : Guarded req h a x ∧ Spares req h a w' := by
  cases hw with
  | deleting b r hb =>
      cases hint
      refine ⟨hc, ?_⟩
      dsimp only
      split
      · exact .sending r
      · next k hk =>
          refine .eraseAdapter b k r ?_
          intro heq
          exact hc.unrecorded b hb (heq ▸ hk)
  | eraseAdapter b k r hk =>
      cases hint
      exact ⟨hc.eraseAdapter b, .eraseHost k r hk⟩
  | eraseHost k r hk =>
      cases hint
      exact ⟨hc.eraseHost hk, .sending r⟩
  | setting k b r hans =>
      cases hint
      have hsafe : req.Failed b → k ≠ h := fun hb heq => hfailed b hb (heq ▸ hans)
      exact ⟨hc.storeAdapter hsafe, .storeHost k b r hans⟩
  | storeHost k b r hans =>
      cases hint
      have hsame : k = h → b = a := fun heq => hone b (heq ▸ hans)
      exact ⟨hc.storeHost hsame, .sending r⟩
  | sending r => cases hint
  | returned => cases hint

/-- In every interleaving the host keeps its adapter. -/
theorem serves_guarded (hfailed : ∀ b, req.Failed b → ¬ req.Answered h b)
    (hone : ∀ b, req.Answered h b → b = a) (hc : Guarded req h a c) {c' : Client} {graph : NodeGraph}
    (hserves : req.Serves c c' graph) : c'.getAdapter h = some a := by
  rcases hserves with ⟨s, hs, _, hshared, _⟩
  rw [hshared]
  have hinv : Guarded req h a s.shared ∧ ∀ w ∈ s.tasks, Spares req h a w := by
    apply reaches_tasks (P := fun x ts => Guarded req h a x ∧ ∀ w ∈ ts, Spares req h a w) _ _ hs
    · refine ⟨hc, fun w hw => ?_⟩
      rcases List.mem_map.mp hw with ⟨call, hcall, heq⟩
      exact heq ▸ worker_spares hcall
    · intro y ts i w z w' hts hw hint
      obtain ⟨hy, hspares⟩ := spares_internal hfailed hone hts.1
        (hts.2 w (List.mem_of_getElem? hw)) hint
      refine ⟨hy, fun v hv => ?_⟩
      rcases List.mem_or_eq_of_mem_set hv with hold | heq
      · exact hts.2 v hold
      · exact heq ▸ hspares
    · intro y ts i v next hts hw
      refine ⟨hts.1, fun u hu => ?_⟩
      rcases List.mem_or_eq_of_mem_set hu with hold | heq
      · exact hts.2 u hold
      · subst heq
        cases hts.2 _ (List.mem_of_getElem? hw) with
        | sending r => exact .returned
  exact hinv.1.mapped

end Guarded

/-! ## Orders that disturb one -/

section Orders

variable {req : Request} {h : String} {c : Client}

theorem getAdapter_update_none {call : AdapterCall} (hself : call.selfHost ≠ some h)
    (hnone : c.getAdapter h = none) : (call.update c).getAdapter h = none := by
  cases hk : call.selfHost with
  | none =>
      rcases update_removing hk c with heq | ⟨_, heq⟩
      · rw [heq, hnone]
      · rw [heq, Client.getAdapter_deleteAdapter, hnone, ite_self]
  | some k =>
      have hne : h ≠ k := fun heq => hself (heq ▸ hk)
      rw [update_answered hk, Client.getAdapter_setKnownHost, if_neg hne, hnone]

theorem getAdapter_updateAll_none {calls : List AdapterCall}
    (hself : ∀ call ∈ calls, call.selfHost ≠ some h) (hnone : c.getAdapter h = none) :
    (updateAll calls c).getAdapter h = none := by
  induction calls generalizing c with
  | nil => exact hnone
  | cons call calls ih =>
      rw [updateAll_cons]
      exact ih (fun o ho => hself o (List.mem_cons_of_mem _ ho))
        (getAdapter_update_none (hself call List.mem_cons_self) hnone)

/-- The answers for a host, then a failing call recorded for it, then the rest. -/
theorem failed_removes {call : AdapterCall} (hcall : call ∈ req.calls) (hf : call.Failed)
    (hrecorded : c.getHost call.adapter = some h ∨ req.Answered h call.adapter) :
    ∃ c' graph, req.Serves c c' graph ∧ c'.getAdapter h = none := by
  let answers := req.calls.filter fun o => o.selfHost = some h
  let others := req.calls.filter fun o => !decide (o.selfHost = some h)
  have hanswers : ∀ o ∈ answers, o.selfHost = some h := fun o ho => by
    simpa using (List.mem_filter.mp ho).2
  have hothers : ∀ o ∈ others, o.selfHost ≠ some h := fun o ho => by
    simpa using (List.mem_filter.mp ho).2
  have hmem : call ∈ others := by
    simp [others, hcall, selfHost_failed hf]
  rcases List.append_of_mem hmem with ⟨before, after, hsplit⟩
  have hperm : (answers ++ call :: (before ++ after)).Perm req.calls := by
    refine List.Perm.trans (List.Perm.append_left answers ?_) (List.filter_append_perm _ _)
    change (call :: (before ++ after)).Perm others
    rw [hsplit]
    exact List.perm_middle.symm
  obtain ⟨graph, hserves, _⟩ := req.serves_in_order c hperm
  refine ⟨_, graph, hserves, ?_⟩
  have hhost : (updateAll answers c).getHost call.adapter = some h := by
    have hsome : ∀ o ∈ answers, o.selfHost.isSome := fun o ho => by rw [hanswers o ho]; rfl
    rcases getHost_registered hsome c call.adapter with ⟨hkept, hnot⟩ | ⟨o, ho, _, hhost⟩
    · rcases hrecorded with hrecorded | ⟨o, ho, hself, hadapter⟩
      · rw [hkept, hrecorded]
      · exact absurd hadapter (hnot o (by simp [answers, ho, hself]))
    · rw [hhost, hanswers o ho]
  rw [updateAll_append, updateAll_cons, update_failed hf]
  apply getAdapter_updateAll_none
  · intro o ho
    apply hothers o
    rw [hsplit]
    rcases List.mem_append.mp ho with ho | ho
    · exact List.mem_append_left _ ho
    · exact List.mem_append_right _ (List.mem_cons_of_mem _ ho)
  · rw [Client.getAdapter_deleteAdapter, if_pos hhost]

end Orders

/-! ## The exact condition -/

/-- The goroutine of a call that failed, and no other, begins with `DeleteAdapter`. -/
theorem worker_deletes {call : AdapterCall} (hwell : call.WellFormed) :
    (∃ next, peerMapWorker call = deleteAdapterThen call.adapter next) ↔ call.Failed := by
  obtain ⟨r, _, ⟨hf, hworker⟩ | ⟨hok, _, hworker⟩ | ⟨host, hself, hworker⟩⟩ :=
    peerMapWorker_shape hwell
  · exact ⟨fun _ => hf, fun _ => ⟨_, hworker⟩⟩
  · constructor
    · intro hdeletes
      rcases hdeletes with ⟨next, hnext⟩
      rw [hworker] at hnext
      cases hnext
    · intro hf
      exact absurd hf hok
  · constructor
    · intro hdeletes
      rcases hdeletes with ⟨next, hnext⟩
      rw [hworker] at hnext
      cases hnext
    · intro hf
      rw [selfHost_failed hf] at hself
      cases hself

theorem call_failed {attempt : Attempt} :
    attempt.call.Failed ↔ attempt.own.Failed ∨ ∃ err, attempt.fate = .cut err := by
  unfold Attempt.call AdapterCall.Failed
  cases hfate : attempt.fate with
  | answered => simp
  | cut err => simp
  | cutBody err =>
      cases hown : attempt.own.answer with
      | error e => simp [hown]
      | ok body => simp

section Exact

variable {r : Abandoned} {c : Client} {h a : String}

theorem undisturbed_of_kept (hmapped : ∀ c' graph, r.request.Serves c c' graph →
    c'.getAdapter h = some a) : r.Undisturbed c h a := by
  constructor
  · intro b hfailed
    rcases hfailed with ⟨call, hcall, hf, heq⟩
    subst heq
    have hnot : ¬ (c.getHost call.adapter = some h ∨ r.request.Answered h call.adapter) := by
      intro hrecorded
      obtain ⟨c', graph, hserves, hnone⟩ := failed_removes hcall hf hrecorded
      rw [hmapped c' graph hserves] at hnone
      cases hnone
    exact not_or.mp hnot
  · intro b hans
    obtain ⟨c', graph, hserves, hlast⟩ := answered_last hans c
    rw [hmapped c' graph hserves] at hlast
    exact (Option.some.inj hlast).symm

theorem kept_of_undisturbed (hmapped : c.getAdapter h = some a) (hr : r.Undisturbed c h a)
    {c' : Client} {graph : NodeGraph} (hserves : r.request.Serves c c' graph) :
    c'.getAdapter h = some a := by
  refine serves_guarded (fun b hb => (hr.1 b hb).2) hr.2 ⟨hmapped, ?_⟩ hserves
  exact fun b hb => (hr.1 b hb).1

/-- A request changes nothing, in any order of its goroutines and cut off at any
moment, exactly when it is harmless for the client it finds. -/
theorem changesNothing_iff (r : Abandoned) (c : Client) :
    (∀ c' graph, r.request.Serves c c' graph → r.ChangesNothing c c') ↔ r.Harmless c := by
  constructor
  · intro hall
    constructor
    · intro h a hentitled
      exact undisturbed_of_kept fun c' graph hserves => (hall c' graph hserves).kept h a hentitled
    · intro attempt hattempt err hcut
      obtain ⟨graph, hserves, _⟩ := r.request.serves_in_order c (List.Perm.refl _)
      have hfailed := call_failed.mpr (.inr ⟨err, hcut⟩)
      have hwell := call_wellFormed (r.wellFormed attempt hattempt)
      obtain ⟨next, hnext⟩ := (worker_deletes hwell).mpr hfailed
      exact (hall _ graph hserves).deletes attempt hattempt next hnext
  · intro hr c' graph hserves
    constructor
    · intro h a hentitled
      exact kept_of_undisturbed hentitled.mapped (hr.hosts h a hentitled) hserves
    · intro attempt hattempt next hnext
      have hwell := call_wellFormed (r.wellFormed attempt hattempt)
      rcases call_failed.mp ((worker_deletes hwell).mp ⟨next, hnext⟩) with hown | ⟨err, hcut⟩
      · exact hown
      · exact hr.calls attempt hattempt err hcut

end Exact

/-- The adapter of `node` would have answered. -/
def impatient : Abandoned where
  devices := [adapterDevice "ts-a"]
  attempts := [{ own := nodeAnswers "ts-a", fate := .cut "context canceled" }]
  found := rfl
  wellFormed := by simp [nodeAnswers_wellFormed]

/-- The requester closes the page, and the host is gone for everyone. -/
theorem impatient_forgets : ∃ c' graph,
    impatient.request.Serves (newClient.setKnownHost "node" "ts-a") c' graph ∧
      impatient.Entitled (newClient.setKnownHost "node" "ts-a") "node" "ts-a" ∧
      c'.getAdapter "node" = none ∧
      ¬ impatient.ChangesNothing (newClient.setKnownHost "node" "ts-a") c' := by
  have hrun : ∃ s, execute step
      (start impatient.request.workers (newClient.setKnownHost "node" "ts-a"))
      [.spawn, .work 0, .work 0, .work 0, .deliver, .close] = some s ∧ Replied s ∧
        s.shared.getAdapter "node" = none := ⟨_, rfl, ⟨rfl, rfl, rfl⟩, rfl⟩
  rcases hrun with ⟨s, hs, hreplied, hgone⟩
  have hentitled : impatient.Entitled (newClient.setKnownHost "node" "ts-a") "node" "ts-a" := by
    constructor
    · rfl
    · intro hfailed
      rcases hfailed with ⟨attempt, hattempt, ⟨err, herr⟩, _⟩
      cases List.mem_singleton.mp hattempt
      cases herr
    · intro k hans
      rcases hans with ⟨call, hcall, hself, _⟩
      cases List.mem_singleton.mp hcall
      cases hself
  refine ⟨_, _, ⟨s, execute_reaches hs, hreplied, rfl, rfl⟩, hentitled, hgone, ?_⟩
  intro hnothing
  have hkept := hnothing.kept "node" "ts-a" hentitled
  rw [hgone] at hkept
  cases hkept

end TSymbiote.WebUI
