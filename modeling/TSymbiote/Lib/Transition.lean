import Mathlib.Logic.Relation
import Mathlib.Order.WellFounded

/-! # Labelled transition functions

A system is a partial function from a state and a label to the next state. Runs
are the reflexive transitive closure of its steps, optionally restricted to the
steps that a predicate on the pre-state and the label admits. Invariants are
proved once per step and carried along runs here. A well-founded system reaches
a state without successors from everywhere; one in which some run lowers a
measure until a property holds reaches a state with that property. The last two
sections say when a condition on steps is the exact one.
-/

namespace TSymbiote.Transition

universe u v

variable {S : Type u} {L : Type v}

/-- One step of `step` that `ok` admits at its pre-state. -/
def NextWhen (step : S → L → Option S) (ok : S → L → Prop) (s t : S) : Prop :=
  ∃ l, ok s l ∧ step s l = some t

/-- Runs all of whose steps `ok` admits. -/
def ReachesWhen (step : S → L → Option S) (ok : S → L → Prop) : S → S → Prop :=
  Relation.ReflTransGen (NextWhen step ok)

/-- Runs of the unrestricted system. -/
def Reaches (step : S → L → Option S) : S → S → Prop :=
  ReachesWhen step fun _ _ => True

/-- No label is enabled. -/
def Stuck (step : S → L → Option S) (s : S) : Prop := ∀ l, step s l = none

/-- The state after a list of labels, when each is enabled in turn. -/
def execute (step : S → L → Option S) : S → List L → Option S
  | s, [] => some s
  | s, l :: ls => (step s l).bind fun t => execute step t ls

section Runs

variable {step : S → L → Option S} {ok : S → L → Prop} {r s t : S}

theorem ReachesWhen.refl (s : S) : ReachesWhen step ok s s := Relation.ReflTransGen.refl

theorem ReachesWhen.trans (h₁ : ReachesWhen step ok r s) (h₂ : ReachesWhen step ok s t) :
    ReachesWhen step ok r t := Relation.ReflTransGen.trans h₁ h₂

theorem ReachesWhen.tail {l : L} (h : ReachesWhen step ok r s) (hok : ok s l)
    (hl : step s l = some t) : ReachesWhen step ok r t :=
  Relation.ReflTransGen.tail h ⟨l, hok, hl⟩

theorem ReachesWhen.head {l : L} (hok : ok r l) (hl : step r l = some s)
    (h : ReachesWhen step ok s t) : ReachesWhen step ok r t :=
  Relation.ReflTransGen.head ⟨l, hok, hl⟩ h

theorem Reaches.refl (s : S) : Reaches step s s := ReachesWhen.refl s

theorem Reaches.trans (h₁ : Reaches step r s) (h₂ : Reaches step s t) : Reaches step r t :=
  ReachesWhen.trans h₁ h₂

theorem Reaches.tail {l : L} (h : Reaches step r s) (hl : step s l = some t) :
    Reaches step r t := ReachesWhen.tail h trivial hl

theorem Reaches.head {l : L} (hl : step r l = some s) (h : Reaches step s t) :
    Reaches step r t := ReachesWhen.head trivial hl h

theorem Reaches.single {l : L} (hl : step s l = some t) : Reaches step s t :=
  (Reaches.refl s).tail hl

/-- A property kept by every admitted step is kept by every admitted run. -/
theorem ReachesWhen.invariant {P : S → Prop}
    (hstep : ∀ {s l t}, P s → ok s l → step s l = some t → P t)
    (h : ReachesWhen step ok s t) (hs : P s) : P t := by
  induction h with
  | refl => exact hs
  | tail _ hnext ih =>
      rcases hnext with ⟨l, hok, hl⟩
      exact hstep ih hok hl

theorem Reaches.invariant {P : S → Prop}
    (hstep : ∀ {s l t}, P s → step s l = some t → P t)
    (h : Reaches step s t) (hs : P s) : P t :=
  ReachesWhen.invariant (fun hi _ hl => hstep hi hl) h hs

theorem execute_reaches {ls : List L} (h : execute step s ls = some t) : Reaches step s t := by
  induction ls generalizing s with
  | nil =>
      cases h
      exact Reaches.refl _
  | cons l ls ih =>
      obtain ⟨m, hm, hrest⟩ := Option.bind_eq_some_iff.mp h
      exact Reaches.head hm (ih hrest)

theorem Reaches.exists_execute (h : Reaches step s t) : ∃ ls, execute step s ls = some t := by
  induction h using Relation.ReflTransGen.head_induction_on with
  | refl => exact ⟨[], rfl⟩
  | head hnext _ ih =>
      rcases hnext with ⟨l, _, hl⟩
      rcases ih with ⟨ls, hls⟩
      refine ⟨l :: ls, ?_⟩
      unfold execute
      rw [hl]
      exact hls

theorem execute_append (ls ls' : List L) :
    execute step s (ls ++ ls') = (execute step s ls).bind fun t => execute step t ls' := by
  induction ls generalizing s with
  | nil => rfl
  | cons l ls ih =>
      simp only [List.cons_append, execute, ih, Option.bind_assoc]

/-- A property of the labels so far and the state, kept by every step. -/
theorem execute_invariant {P : List L → S → Prop}
    (hstep : ∀ {past s l t}, P past s → step s l = some t → P (past ++ [l]) t) {past ls : List L}
    (hs : P past s) (h : execute step s ls = some t) : P (past ++ ls) t := by
  induction ls generalizing past s with
  | nil =>
      cases h
      rwa [List.append_nil]
  | cons l ls ih =>
      obtain ⟨m, hm, hrest⟩ := Option.bind_eq_some_iff.mp h
      have hpast := ih (hstep hs hm) hrest
      rwa [List.append_assoc, List.singleton_append] at hpast

/-- The same for runs over labels of one kind. -/
theorem execute_invariant_on {ok : L → Prop} {P : List L → S → Prop}
    (hstep : ∀ {past s l t}, P past s → ok l → step s l = some t → P (past ++ [l]) t)
    {past ls : List L} (hok : ∀ l ∈ ls, ok l) (hs : P past s) (h : execute step s ls = some t) :
    P (past ++ ls) t := by
  induction ls generalizing past s with
  | nil =>
      cases h
      rwa [List.append_nil]
  | cons l ls ih =>
      obtain ⟨m, hm, hrest⟩ := Option.bind_eq_some_iff.mp h
      obtain ⟨hl, hls⟩ := List.forall_mem_cons.mp hok
      have hpast := ih hls (hstep hs hl hm) hrest
      rwa [List.append_assoc, List.singleton_append] at hpast

/-- What the steps over the labels give off, in order, until a label is not enabled. -/
def emitted {E : Type} (step : S → L → Option S) (out : S → L → List E) : S → List L → List E
  | _, [] => []
  | s, l :: ls =>
      match step s l with
      | some t => out s l ++ emitted step out t ls
      | none => []

/-- A property of what was given off so far and the state, kept by every step. -/
theorem emitted_invariant {E : Type} {out : S → L → List E} {P : List E → S → Prop}
    (hstep : ∀ {past s l t}, P past s → step s l = some t → P (past ++ out s l) t) {past : List E}
    {ls : List L} (hs : P past s) (h : execute step s ls = some t) :
    P (past ++ emitted step out s ls) t := by
  induction ls generalizing past s with
  | nil =>
      cases h
      unfold emitted
      rwa [List.append_nil]
  | cons l ls ih =>
      obtain ⟨m, hm, hrest⟩ := Option.bind_eq_some_iff.mp h
      have hpast := ih (hstep hs hm) hrest
      unfold emitted
      rwa [hm, ← List.append_assoc]

/-- Labels that lower a measure no label raises: a run has no more of them than the
measure falls by. -/
theorem execute_countP_le (own : L → Bool) (measure : S → Nat)
    (hkeep : ∀ {s l t}, step s l = some t → measure t ≤ measure s)
    (hfall : ∀ {s l t}, own l = true → step s l = some t → measure t < measure s) {ls : List L}
    (h : execute step s ls = some t) : ls.countP own + measure t ≤ measure s := by
  induction ls generalizing s with
  | nil =>
      cases h
      rw [List.countP_nil, Nat.zero_add]
  | cons l ls ih =>
      obtain ⟨m, hm, hrest⟩ := Option.bind_eq_some_iff.mp h
      have hle := ih hrest
      rw [List.countP_cons]
      split
      · next hown =>
          have hlt := hfall hown hm
          omega
      · have hnext := hkeep hm
        omega

/-- In a system without infinite runs every state reaches one without successors. -/
theorem exists_stuck (wf : WellFounded fun t s => ∃ l, step s l = some t) (s : S) :
    ∃ t, Reaches step s t ∧ Stuck step t := by
  induction s using wf.induction with
  | _ s ih =>
      by_cases h : Stuck step s
      · exact ⟨s, Reaches.refl s, h⟩
      · obtain ⟨l, hl⟩ := not_forall.mp h
        obtain ⟨m, hm⟩ := Option.ne_none_iff_exists'.mp hl
        obtain ⟨t, ht, hst⟩ := ih m ⟨l, hm⟩
        exact ⟨t, Reaches.head hm ht, hst⟩

/-- A state with `Q` is reached by runs that keep `P` and decrease a measure as
long as `Q` fails. -/
theorem reaches_of_decreasing {P Q : S → Prop} (measure : S → Nat)
    (hrun : ∀ {s}, P s → ¬ Q s → ∃ t, Reaches step s t ∧ P t ∧ measure t < measure s) {s : S}
    (hs : P s) : ∃ t, Reaches step s t ∧ P t ∧ Q t := by
  induction hk : measure s using Nat.strongRecOn generalizing s with
  | _ k ih =>
      by_cases hq : Q s
      · exact ⟨s, Reaches.refl s, hs, hq⟩
      · obtain ⟨m, hm, hpm, hlt⟩ := hrun hs hq
        obtain ⟨t, ht, hpt, hqt⟩ := ih (measure m) (hk ▸ hlt) hpm rfl
        exact ⟨t, hm.trans ht, hpt, hqt⟩

end Runs

/-! ## The exact condition on steps -/

/-- Runs within `ok` stay clear of `Bad`, and every step outside it can be
continued to `Bad`. -/
structure Guards (step : S → L → Option S) (ok : S → L → Prop) (Bad : S → Prop) (s₀ : S) : Prop where
  safe : ∀ {s}, ReachesWhen step ok s₀ s → ¬ Bad s
  tight : ∀ {s l t}, ReachesWhen step ok s₀ s → step s l = some t → ¬ ok s l →
    ∃ u, Reaches step t u ∧ Bad u

section Guards

variable {step : S → L → Option S} {ok : S → L → Prop} {Bad : S → Prop} {s₀ : S}

/-- An invariant of the admitted steps that excludes `Bad`, and that every other
step leaves on the way to `Bad`. -/
theorem Guards.of_invariant {P : S → Prop} (h₀ : P s₀)
    (hstep : ∀ {s l t}, P s → ok s l → step s l = some t → P t) (hclear : ∀ {s}, P s → ¬ Bad s)
    (htight : ∀ {s l t}, P s → step s l = some t → ¬ ok s l → ∃ u, Reaches step t u ∧ Bad u) :
    Guards step ok Bad s₀ where
  safe hs := hclear (hs.invariant hstep h₀)
  tight hs := htight (hs.invariant hstep h₀)

end Guards

/-! ## Runs over given labels -/

/-- `Good` holds in every state from the first one until a label is not enabled. -/
def Throughout (step : S → L → Option S) (Good : S → Prop) : S → List L → Prop
  | s, [] => Good s
  | s, l :: ls => Good s ∧ ∀ t, step s l = some t → Throughout step Good t ls

/-- `ok` admits every step of the run over the labels. -/
def Along (step : S → L → Option S) (ok : S → L → Prop) : S → List L → Prop
  | _, [] => True
  | s, l :: ls => ∀ t, step s l = some t → ok s l ∧ Along step ok t ls

section Along

variable {step : S → L → Option S} {ok : S → L → Prop} {Good : S → Prop}

theorem Throughout.head {s : S} {ls : List L} (h : Throughout step Good s ls) : Good s := by
  cases ls with
  | nil => exact h
  | cons l ls => exact h.1

/-- An invariant holds throughout. -/
theorem Throughout.of_invariant {P : S → Prop} (hgood : ∀ {s}, P s → Good s)
    (hkeep : ∀ {s l t}, P s → step s l = some t → P t) {s : S} (hs : P s) (ls : List L) :
    Throughout step Good s ls := by
  induction ls generalizing s with
  | nil => exact hgood hs
  | cons l ls ih => exact ⟨hgood hs, fun t ht => ih (hkeep hs ht)⟩

/-- Where just the admitted steps keep a property, a run keeps it when all of its
steps are admitted, and only then. -/
theorem throughout_iff_along {P : S → Prop} (hgood : ∀ {s}, P s → Good s)
    (hkeep : ∀ {s l t}, P s → ok s l → step s l = some t → P t)
    (hbreak : ∀ {s l t}, P s → step s l = some t → Good t → ok s l) {s : S} (hs : P s)
    (ls : List L) : Throughout step Good s ls ↔ Along step ok s ls := by
  induction ls generalizing s with
  | nil => exact ⟨fun _ => trivial, fun _ => hgood hs⟩
  | cons l ls ih =>
      constructor
      · intro h t ht
        have hok := hbreak hs ht (h.2 t ht).head
        exact ⟨hok, (ih (hkeep hs hok ht)).mp (h.2 t ht)⟩
      · intro h
        refine ⟨hgood hs, fun t ht => ?_⟩
        rcases h t ht with ⟨hok, hrest⟩
        exact (ih (hkeep hs hok ht)).mpr hrest

end Along

end TSymbiote.Transition
