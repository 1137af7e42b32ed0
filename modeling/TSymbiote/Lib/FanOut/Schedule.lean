import TSymbiote.Lib.FanOut

/-! # Runs of a fan-out in a chosen order

A goroutine left alone works up to its next send. Running the goroutines of a
fan-out one after the other, in any order, and collecting afterwards is one of
its runs; the shared state it ends in is the one the bodies produce in that
order.
-/

namespace TSymbiote.FanOut

open Transition

variable {σ V : Type}

/-- Run a body up to its next send, return or panic. -/
def Go.settle : Go σ V → σ → Go σ V × σ
  | .load next, x => (next x).settle x
  | .store update next, x => next.settle (update x)
  | w, x => (w, x)

/-- Run the bodies at the given indices, one after the other. -/
def settleIn : List Nat → List (Go σ V) → σ → List (Go σ V) × σ
  | [], ws, x => (ws, x)
  | i :: is, ws, x =>
      match ws[i]? with
      | none => settleIn is ws x
      | some w => settleIn is (ws.set i (w.settle x).1) (w.settle x).2

theorem reaches_settle {s : State σ V} {i : Nat} {w : Go σ V} (hc : s.crashed = false)
    (hw : s.workers[i]? = some w) :
    Reaches step s
      { s with shared := (w.settle s.shared).2, workers := s.workers.set i (w.settle s.shared).1 } := by
  have hself : ∀ {s : State σ V} {w : Go σ V}, s.workers[i]? = some w →
      ({ s with shared := s.shared, workers := s.workers.set i w } : State σ V) = s := by
    intro s w hw
    obtain ⟨hi, rfl⟩ := List.getElem?_eq_some_iff.mp hw
    rw [List.set_getElem_self hi]
  induction w generalizing s with
  | ret => simp only [Go.settle, hself hw]; exact Reaches.refl s
  | panic => simp only [Go.settle, hself hw]; exact Reaches.refl s
  | send v next _ => simp only [Go.settle, hself hw]; exact Reaches.refl s
  | load next ih =>
      have hi := (List.getElem?_eq_some_iff.mp hw).1
      have hstep : step s (.work i) =
          some { s with workers := s.workers.set i (next s.shared) } := by
        simp [step, hc, hw]
      have hrest := ih s.shared
        (s := { s with workers := s.workers.set i (next s.shared) }) hc (by simp [hi])
      simp only [List.set_set] at hrest
      exact Reaches.head hstep hrest
  | store update next ih =>
      have hi := (List.getElem?_eq_some_iff.mp hw).1
      have hstep : step s (.work i) =
          some { s with shared := update s.shared, workers := s.workers.set i next } := by
        simp [step, hc, hw]
      have hrest := ih (s := { s with shared := update s.shared, workers := s.workers.set i next })
        hc (by simp [hi])
      simp only [List.set_set] at hrest
      exact Reaches.head hstep hrest

theorem reaches_settleIn (order : List Nat) {s : State σ V} (hc : s.crashed = false) :
    Reaches step s
      { s with shared := (settleIn order s.workers s.shared).2
               workers := (settleIn order s.workers s.shared).1 } := by
  induction order generalizing s with
  | nil => exact Reaches.refl s
  | cons i is ih =>
      cases hw : s.workers[i]? with
      | none =>
          simp only [settleIn, hw]
          exact ih hc
      | some w =>
          simp only [settleIn, hw]
          exact (reaches_settle hc hw).trans (ih (s := { s with
            shared := (w.settle s.shared).2, workers := s.workers.set i (w.settle s.shared).1 }) hc)

/-- It neither sends nor panics. -/
def Go.Finishes (w : Go σ V) : Prop := ∀ x, (w.settle x).1 = .ret

/-- All goroutines but those of `P` can be run to their end first. -/
theorem reaches_finished_except (P : Nat → Prop) {s : State σ V} (hc : s.crashed = false)
    (hfinishes : ∀ w ∈ s.workers, w.Finishes) (n : Nat) :
    ∃ t, Reaches step s t ∧ t.crashed = false ∧ t.unstarted = s.unstarted ∧
      (∀ k, P k ∨ n ≤ k → t.workers[k]? = s.workers[k]?) ∧
      ∀ k < n, ¬ P k → ∀ w, t.workers[k]? = some w → w = .ret := by
  induction n with
  | zero => exact ⟨s, Reaches.refl s, hc, rfl, fun _ _ => rfl, fun k hk => absurd hk (Nat.not_lt_zero k)⟩
  | succ n ih =>
      rcases ih with ⟨t, ht, hct, hut, hsame, hret⟩
      by_cases hP : P n
      · refine ⟨t, ht, hct, hut, fun k hk => hsame k (hk.imp_right Nat.le_of_succ_le), ?_⟩
        intro k hk hnot
        rcases Nat.lt_succ_iff_lt_or_eq.mp hk with hlt | heq
        · exact hret k hlt hnot
        · exact absurd (heq ▸ hP) hnot
      · cases hw : t.workers[n]? with
        | none =>
            refine ⟨t, ht, hct, hut, fun k hk => hsame k (hk.imp_right Nat.le_of_succ_le), ?_⟩
            intro k hk hnot w hkw
            rcases Nat.lt_succ_iff_lt_or_eq.mp hk with hlt | heq
            · exact hret k hlt hnot w hkw
            · rw [heq, hw] at hkw
              cases hkw
        | some w =>
            have hmem : w ∈ s.workers := by
              rw [hsame n (.inr (Nat.le_refl n))] at hw
              exact List.mem_of_getElem? hw
            refine ⟨_, ht.trans (reaches_settle hct hw), hct, hut, ?_, ?_⟩
            · intro k hk
              have hne : n ≠ k := by
                rintro rfl
                exact hk.elim hP (Nat.not_succ_le_self n)
              rw [List.getElem?_set_ne hne]
              exact hsame k (hk.imp_right Nat.le_of_succ_le)
            · intro k hk hnot v hkv
              rcases getElem?_set_cases hkv with ⟨_, hv⟩ | ⟨hne, hkv⟩
              · rw [hv]
                exact hfinishes w hmem _
              · refine hret k ?_ hnot v hkv
                omega

theorem reaches_spawned (ws ts : List (Go σ V)) (x : σ) :
    Reaches step
      { shared := x, unstarted := ts, workers := ws, results := [], closed := 0, crashed := false }
      { shared := x, unstarted := [], workers := ws ++ ts, results := [], closed := 0,
        crashed := false } := by
  induction ts generalizing ws with
  | nil => rw [List.append_nil]; exact Reaches.refl _
  | cons t ts ih =>
      have hrest := ih (ws ++ [t])
      rw [List.append_assoc, List.singleton_append] at hrest
      exact Reaches.head (l := .spawn) rfl hrest

/-- With every goroutine at its last send, the collector empties all channels. -/
theorem reaches_collected (vs us : List V) (x : σ) :
    Reaches step
      { shared := x, unstarted := []
        workers := List.replicate us.length .ret ++ vs.map fun v => .send v .ret
        results := us, closed := us.length, crashed := false }
      { shared := x, unstarted := [], workers := List.replicate (us ++ vs).length .ret
        results := us ++ vs, closed := (us ++ vs).length, crashed := false } := by
  induction vs generalizing us with
  | nil => simp only [List.map_nil, List.append_nil]; exact Reaches.refl _
  | cons v vs ih =>
      let served : State σ V :=
        { shared := x, unstarted := []
          workers := List.replicate (us ++ [v]).length .ret ++ vs.map fun v => .send v .ret
          results := us ++ [v], closed := us.length, crashed := false }
      have hdeliver : step
          { shared := x, unstarted := []
            workers := List.replicate us.length .ret ++ (v :: vs).map fun v => .send v .ret
            results := us, closed := us.length, crashed := false } .deliver = some served := by
        simp [step, served, List.set_append_right, List.replicate_succ']
      have hclose : step served .close = some { served with closed := (us ++ [v]).length } := by
        simp [step, served]
      have hrest := ih (us ++ [v])
      rw [List.append_assoc, List.singleton_append] at hrest
      exact Reaches.head hdeliver (Reaches.head hclose hrest)

/-! ## One goroutine after the other -/

/-- Whatever it reads, the body comes to its only send with `v` to send. -/
def Go.Settles (w : Go σ V) (v : V) : Prop := ∀ x, (w.settle x).1 = .send v .ret

theorem settles_send (v : V) : (Go.send v .ret : Go σ V).Settles v := fun _ => rfl

theorem settleIn_getElem? {vs : List V} (order : List Nat) {ws : List (Go σ V)} (x : σ)
    (h : List.Forall₂ Go.Settles ws vs) (j : Nat) :
    (settleIn order ws x).1[j]? =
      if j ∈ order then (vs[j]?).map (fun v => .send v .ret) else ws[j]? := by
  induction order generalizing ws x with
  | nil => simp [settleIn]
  | cons i is ih =>
      cases hw : ws[i]? with
      | none =>
          simp only [settleIn, hw]
          rw [ih x h]
          by_cases hj : j = i
          · have hv : vs[i]? = none := by
              rw [List.getElem?_eq_none_iff, ← h.length_eq]
              exact List.getElem?_eq_none_iff.mp hw
            subst hj
            simp [hw, hv]
          · simp [hj]
      | some w =>
          obtain ⟨hi, rfl⟩ := List.getElem?_eq_some_iff.mp hw
          have hiv : i < vs.length := h.length_eq ▸ hi
          have hset : (ws[i].settle x).1 = .send vs[i] .ret := List.Forall₂.get h hi hiv x
          have h' : List.Forall₂ Go.Settles (ws.set i (.send vs[i] .ret)) vs := by
            rw [List.forall₂_iff_get] at h ⊢
            refine ⟨by simpa using h.1, fun k hk hkv => ?_⟩
            simp only [List.get_eq_getElem, List.getElem_set]
            split
            · next hik =>
                subst hik
                exact settles_send _
            · exact h.2 k (by simpa using hk) hkv
          simp only [settleIn, hw, hset]
          rw [ih _ h']
          by_cases hj : j = i
          · subst hj
            simp [hi, hiv]
          · have hij : i ≠ j := fun heq => hj heq.symm
            simp [hj, hij]

theorem settleIn_shared {order : List Nat} (hnodup : order.Nodup) (ws : List (Go σ V)) (x : σ) :
    (settleIn order ws x).2 =
      order.foldl (fun y i => (ws[i]?).elim y fun w => (w.settle y).2) x := by
  induction order generalizing ws x with
  | nil => rfl
  | cons i is ih =>
      obtain ⟨hi, hnodup⟩ := List.nodup_cons.mp hnodup
      cases hw : ws[i]? with
      | none => simp only [settleIn, hw, List.foldl_cons, Option.elim_none, ih hnodup]
      | some w =>
          simp only [settleIn, hw, List.foldl_cons, Option.elim_some, ih hnodup]
          refine List.foldl_ext _ _ _ fun y j hj => ?_
          have hij : i ≠ j := fun heq => hi (heq ▸ hj)
          rw [List.getElem?_set_ne hij]

/-- The reply is ready: every channel was served and closed. -/
structure Replied (s : State σ V) : Prop where
  alive : s.crashed = false
  started : s.unstarted = []
  closed : s.closed = s.workers.length

/-- A rearranged list visits its own entries in some order of the indices. -/
theorem exists_order {α : Type} {l l' : List α} (h : l'.Perm l) :
    ∃ order, order.Perm (List.range l.length) ∧ List.Forall₂ (fun i a => l[i]? = some a) order l' := by
  have hindexed : List.Forall₂ (fun i a => l[i]? = some a) (List.range l.length) l := by
    rw [List.forall₂_iff_get]
    exact ⟨List.length_range, fun i hi hl => by simp [hl]⟩
  obtain ⟨order, hrel, hperm⟩ := List.perm_comp_forall₂ h hindexed.flip
  exact ⟨order, hperm, hrel.flip⟩

theorem foldl_order {α β : Type} (f : β → α → β) {l order : List α} {indices : List Nat}
    (h : List.Forall₂ (fun i a => l[i]? = some a) indices order) (y : β) :
    indices.foldl (fun y i => (l[i]?).elim y (f y)) y = order.foldl f y := by
  induction h generalizing y with
  | nil => rfl
  | cons hi _ ih =>
      simp only [List.foldl_cons, hi, Option.elim_some]
      exact ih _

/-- Each order of the goroutines is the order of some run to a reply. -/
theorem reaches_in_order {tasks order : List (Go σ V)} {vs : List V} (x : σ)
    (h : List.Forall₂ Go.Settles tasks vs) (horder : order.Perm tasks) :
    ∃ s, Reaches step (start tasks x) s ∧ Replied s ∧ s.results = vs ∧
      s.shared = order.foldl (fun y w => (w.settle y).2) x := by
  obtain ⟨indices, hperm, hrel⟩ := exists_order horder
  have hsettled : (settleIn indices tasks x).1 = vs.map fun v => .send v .ret := by
    apply List.ext_getElem?
    intro j
    rw [settleIn_getElem? indices x h, List.getElem?_map]
    by_cases hj : j < tasks.length
    · rw [if_pos (hperm.mem_iff.mpr (List.mem_range.mpr hj))]
    · rw [if_neg fun hm => hj (List.mem_range.mp (hperm.mem_iff.mp hm)),
        List.getElem?_eq_none_iff.mpr (Nat.le_of_not_lt hj), List.getElem?_eq_none_iff.mpr]
      · rfl
      · rw [← h.length_eq]
        omega
  have hspawned := reaches_spawned [] tasks x
  have hworked := reaches_settleIn indices
    (s := { shared := x, unstarted := [], workers := tasks, results := [], closed := 0,
            crashed := false }) rfl
  rw [hsettled] at hworked
  have hcollected := reaches_collected vs [] (settleIn indices tasks x).2
  refine ⟨_, (hspawned.trans hworked).trans hcollected, ⟨rfl, rfl, by simp⟩, rfl, ?_⟩
  rw [← foldl_order (fun y w => (w.settle y).2) hrel]
  exact settleIn_shared (hperm.nodup_iff.mpr List.nodup_range) tasks x

/-- Once the reply is ready, a goroutine with one send has nothing left to send. -/
theorem replied_does {vs : List V} {s : State σ V}
    (hs : Invariant (vs.map fun v => some [v]) s) (hr : Replied s) :
    s.results = vs ∧ ∀ w ∈ s.workers, w.Does (some []) := by
  have hlen : s.workers.length = vs.length := by
    have := hs.length
    simpa [State.tasks, hr.started] using this
  have hres : s.results.length = vs.length := by
    have h₁ := hs.received_le
    have h₂ := hs.closed
    have h₃ := hr.closed
    simp only [List.length_map] at h₁
    omega
  constructor
  · apply List.ext_getElem hres
    intro i h₁ h₂
    obtain ⟨us, hus⟩ := hs.received (List.getElem?_eq_getElem h₁)
    simp only [List.getElem?_map, List.getElem?_eq_getElem h₂, Option.map_some, Option.some.injEq,
      List.cons.injEq] at hus
    exact hus.1.symm
  · intro w hw
    obtain ⟨i, hi⟩ := List.getElem?_of_mem hw
    have hiw := (List.getElem?_eq_some_iff.mp hi).1
    have hiv : i < vs.length := hlen ▸ hiw
    have hdoes := hs.does (tasks_getElem? hi)
      (by rw [List.getElem?_map, List.getElem?_eq_getElem hiv, Option.map_some])
    have hlt : i < s.results.length := hres ▸ hiv
    simpa [owed, hlt] using hdoes

end TSymbiote.FanOut
