import TSymbiote.Lib.FanOut

/-! # Goroutines that come at any time

A server starts goroutines for its requests while those of earlier requests are
still running. What each of them guarantees by itself, a condition on the shared
state that it keeps and a relation its updates stay within, holds of every run.
-/

namespace TSymbiote

open Transition FanOut

variable {σ V ι : Type}

/-- The body keeps `I`, and each of its updates is within `G`, whatever it reads of
a state with `I`. -/
def FanOut.Go.Guarantees (I : σ → Prop) (G : σ → σ → Prop) : Go σ V → Prop
  | .ret => True
  | .panic => True
  | .send _ next => next.Guarantees I G
  | .load next => ∀ s, I s → (next s).Guarantees I G
  | .store update next => (∀ s, I s → I (update s) ∧ G s (update s)) ∧ next.Guarantees I G

/-- Before it returns, the body makes `P` true, whatever it reads of a state with `I`. -/
def FanOut.Go.Brings (I P : σ → Prop) : Go σ V → Prop
  | .ret => False
  | .panic => True
  | .send _ next => next.Brings I P
  | .load next => ∀ s, I s → (next s).Brings I P
  | .store update next => (∀ s, I s → P (update s)) ∨ next.Brings I P

namespace Pool

structure State (σ V : Type) where
  shared : σ
  tasks : List (Go σ V)
  crashed : Bool

def start (shared : σ) : State σ V := ⟨shared, [], false⟩

inductive Label (ι : Type) where
  | launch (item : ι)
  | work (i : Nat)

/-- A value that is sent is received at some time. A panic ends the process. -/
def step (body : ι → Go σ V) (s : State σ V) : Label ι → Option (State σ V)
  | .launch item =>
      if s.crashed = true then none else some { s with tasks := s.tasks ++ [body item] }
  | .work i =>
      match s.crashed, s.tasks[i]? with
      | false, some (.load next) => some { s with tasks := s.tasks.set i (next s.shared) }
      | false, some (.store update next) =>
          some { s with shared := update s.shared, tasks := s.tasks.set i next }
      | false, some (.send _ next) => some { s with tasks := s.tasks.set i next }
      | false, some .panic => some { s with crashed := true }
      | _, _ => none

def Label.item : Label ι → Option ι
  | .launch item => some item
  | .work _ => none

/-- What was started, in order. -/
def launched (ls : List (Label ι)) : List ι := ls.filterMap Label.item

theorem mem_launched {ls : List (Label ι)} {item : ι} : item ∈ launched ls ↔ .launch item ∈ ls := by
  unfold launched
  rw [List.mem_filterMap]
  constructor
  · rintro ⟨l, hl, hitem⟩
    cases l with
    | launch item' =>
        cases hitem
        exact hl
    | work i => cases hitem
  · intro hl
    exact ⟨.launch item, hl, rfl⟩

/-! ## One step -/

variable {body : ι → Go σ V} {s t : State σ V} {I : σ → Prop} {G : σ → σ → Prop}

theorem step_launch {item : ι} (h : step body s (.launch item) = some t) :
    t = { s with tasks := s.tasks ++ [body item] } := by
  simp only [step] at h
  split at h
  · contradiction
  · exact (Option.some.inj h).symm

/-- A goroutine moves on without its channel, or past it, or brings the process down. -/
theorem step_work {i : Nat} (h : step body s (.work i) = some t) :
    (∃ w w' x, s.tasks[i]? = some w ∧ Go.Internal s.shared w x w' ∧
        t = { s with shared := x, tasks := s.tasks.set i w' }) ∨
      (∃ v next, s.tasks[i]? = some (.send v next) ∧ t = { s with tasks := s.tasks.set i next }) ∨
      t = { s with crashed := true } := by
  simp only [step] at h
  split at h
  · next next hc hw => exact .inl ⟨_, _, _, hw, .load _ _, (Option.some.inj h).symm⟩
  · next update next hc hw => exact .inl ⟨_, _, _, hw, .store _ _ _, (Option.some.inj h).symm⟩
  · next v next hc hw => exact .inr (.inl ⟨v, next, hw, (Option.some.inj h).symm⟩)
  · exact .inr (.inr (Option.some.inj h).symm)
  · contradiction

/-- The goroutines of a state with `I` guarantee it. -/
def Guaranteed (I : σ → Prop) (G : σ → σ → Prop) (s : State σ V) : Prop :=
  I s.shared ∧ ∀ w ∈ s.tasks, w.Guarantees I G

theorem guaranteed_set {w' : Go σ V} {i : Nat} {x : σ} (hs : Guaranteed I G s) (hx : I x)
    (hw' : w'.Guarantees I G) :
    Guaranteed I G { s with shared := x, tasks := s.tasks.set i w' } := by
  refine ⟨hx, fun w hw => ?_⟩
  rcases List.mem_or_eq_of_mem_set hw with hold | rfl
  · exact hs.2 w hold
  · exact hw'

theorem internal_guarantees {w w' : Go σ V} {x : σ} (hw : w.Guarantees I G) (hs : I s.shared)
    (h : Go.Internal s.shared w x w') :
    I x ∧ w'.Guarantees I G ∧ (x = s.shared ∨ G s.shared x) := by
  cases h with
  | load next => exact ⟨hs, hw _ hs, .inl rfl⟩
  | store update next =>
      obtain ⟨hkeeps, hnext⟩ := hw
      obtain ⟨hx, hG⟩ := hkeeps _ hs
      exact ⟨hx, hnext, .inr hG⟩

theorem step_guaranteed {l : Label ι} (hs : Guaranteed I G s)
    (hl : ∀ item, l = .launch item → (body item).Guarantees I G) (h : step body s l = some t) :
    Guaranteed I G t ∧ (t.shared = s.shared ∨ G s.shared t.shared) := by
  cases l with
  | launch item =>
      rw [step_launch h]
      refine ⟨⟨hs.1, fun w hw => ?_⟩, .inl rfl⟩
      rcases List.mem_append.mp hw with hold | hnew
      · exact hs.2 w hold
      · rw [List.mem_singleton.mp hnew]
        exact hl item rfl
  | work i =>
      rcases step_work h with ⟨w, w', x, hw, hint, rfl⟩ | ⟨v, next, hw, rfl⟩ | rfl
      · obtain ⟨hx, hw', hG⟩ := internal_guarantees (hs.2 w (List.mem_of_getElem? hw)) hs.1 hint
        exact ⟨guaranteed_set hs hx hw', hG⟩
      · have hsend := hs.2 _ (List.mem_of_getElem? hw)
        exact ⟨guaranteed_set hs hs.1 hsend, .inl rfl⟩
      · exact ⟨hs, .inl rfl⟩

/-! ## Every run -/

/-- What every goroutine guarantees by itself, all of them do together. -/
theorem execute_guaranteed {ls : List (Label ι)}
    (hbody : ∀ item ∈ launched ls, (body item).Guarantees I G) (hs : Guaranteed I G s)
    (h : execute (step body) s ls = some t) :
    Guaranteed I G t ∧ Relation.ReflTransGen G s.shared t.shared := by
  have hlabels : ∀ l ∈ ls, ∀ item, l = .launch item → (body item).Guarantees I G := by
    rintro l hl item rfl
    exact hbody item (mem_launched.mpr hl)
  refine @execute_invariant_on _ _ _ _ _ (fun l => ∀ item, l = .launch item →
    (body item).Guarantees I G) (fun _ u => Guaranteed I G u ∧
      Relation.ReflTransGen G s.shared u.shared) ?_ [] ls hlabels ⟨hs, .refl⟩ h
  rintro _ u l v ⟨hu, hreach⟩ hl hstep
  obtain ⟨hv, hsame | hG⟩ := step_guaranteed hu hl hstep
  · exact ⟨hv, hsame ▸ hreach⟩
  · exact ⟨hv, hreach.tail hG⟩

/-- From any moment of a run on, the state only moves as the goroutines guarantee. -/
theorem execute_since {ls₁ ls₂ : List (Label ι)} {s₁ : State σ V}
    (hbody : ∀ item ∈ launched (ls₁ ++ ls₂), (body item).Guarantees I G) (hs : Guaranteed I G s)
    (hbefore : execute (step body) s ls₁ = some s₁)
    (hrun : execute (step body) s (ls₁ ++ ls₂) = some t) :
    Relation.ReflTransGen G s₁.shared t.shared := by
  have hlaunched : launched (ls₁ ++ ls₂) = launched ls₁ ++ launched ls₂ := List.filterMap_append
  rw [hlaunched] at hbody
  rw [execute_append, hbefore] at hrun
  have hfirst := execute_guaranteed (fun item hitem => hbody item (List.mem_append_left _ hitem)) hs
    hbefore
  have hsecond := execute_guaranteed (fun item hitem => hbody item (List.mem_append_right _ hitem))
    hfirst.1 hrun
  exact hsecond.2

theorem start_guaranteed {x : σ} (hx : I x) : Guaranteed I G (start x : State σ V) :=
  ⟨hx, fun _ hw => absurd hw List.not_mem_nil⟩

/-- A property that every update keeps is kept by the run. -/
theorem kept_of_reflTransGen {P : σ → Prop} (hkeep : ∀ x y, G x y → P x → P y) {x y : σ} (hx : P x)
    (h : Relation.ReflTransGen G x y) : P y := by
  induction h with
  | refl => exact hx
  | tail _ hG ih => exact hkeep _ _ hG ih

/-! ## What is true once all have returned -/

/-- The property holds, or some goroutine has yet to make it hold. -/
def Owed (I P : σ → Prop) (s : State σ V) : Prop := P s.shared ∨ ∃ w ∈ s.tasks, w.Brings I P

def Returned (s : State σ V) : Prop := ∀ w ∈ s.tasks, w = .ret

theorem Owed.returned {P : σ → Prop} (hs : Owed I P s) (hr : Returned s) : P s.shared := by
  rcases hs with hP | ⟨w, hw, hbrings⟩
  · exact hP
  · rw [hr w hw] at hbrings
    contradiction

/-- Another goroutine than the one that moves keeps its debt. -/
theorem owed_set {P : σ → Prop} {w w' u : Go σ V} {i : Nat} {x : σ} (hw : s.tasks[i]? = some w)
    (hu : u ∈ s.tasks) (hbrings : u.Brings I P) (hsame : w.Brings I P → P x ∨ w'.Brings I P) :
    Owed I P { s with shared := x, tasks := s.tasks.set i w' } := by
  obtain ⟨j, hj⟩ := List.mem_iff_getElem?.mp hu
  by_cases hij : i = j
  · subst hij
    rw [hw] at hj
    cases hj
    have hlt := (List.getElem?_eq_some_iff.mp hw).1
    exact (hsame hbrings).imp_right fun hw' => ⟨w', List.mem_set hlt w', hw'⟩
  · refine .inr ⟨u, ?_, hbrings⟩
    rw [← List.getElem?_set_ne hij (a := w')] at hj
    exact List.mem_of_getElem? hj

theorem internal_brings {P : σ → Prop} {w w' : Go σ V} {x : σ} (hw : w.Brings I P)
    (hs : I s.shared) (h : Go.Internal s.shared w x w') : P x ∨ w'.Brings I P := by
  cases h with
  | load next => exact .inr (hw _ hs)
  | store update next => exact hw.imp_left fun hP => hP _ hs

theorem step_owed {P : σ → Prop} {l : Label ι} (hkeep : ∀ x y, G x y → P x → P y)
    (hs : Guaranteed I G s) (howed : Owed I P s)
    (hl : ∀ item, l = .launch item → (body item).Guarantees I G) (h : step body s l = some t) :
    Owed I P t := by
  rcases howed with hP | ⟨u, hu, hbrings⟩
  · left
    rcases (step_guaranteed hs hl h).2 with hsame | hG
    · rw [hsame]
      exact hP
    · exact hkeep _ _ hG hP
  · cases l with
    | launch item =>
        rw [step_launch h]
        exact .inr ⟨u, List.mem_append_left _ hu, hbrings⟩
    | work i =>
        rcases step_work h with ⟨w, w', x, hw, hint, rfl⟩ | ⟨v, next, hw, rfl⟩ | rfl
        · exact owed_set hw hu hbrings fun hdebt => internal_brings hdebt hs.1 hint
        · exact owed_set hw hu hbrings fun hdebt => .inr hdebt
        · exact .inr ⟨u, hu, hbrings⟩

/-- What one goroutine brings, and all of them keep, holds when they have returned. -/
theorem execute_brings {P : σ → Prop} {ls : List (Label ι)} {item : ι}
    (hkeep : ∀ x y, G x y → P x → P y)
    (hbody : ∀ item ∈ launched ls, (body item).Guarantees I G) (hs : Guaranteed I G s)
    (hitem : item ∈ launched ls) (hbrings : (body item).Brings I P)
    (h : execute (step body) s ls = some t) (hr : Returned t) : P t.shared := by
  have hlabels : ∀ l ∈ ls, ∀ item, l = .launch item → (body item).Guarantees I G := by
    rintro l hl item rfl
    exact hbody item (mem_launched.mpr hl)
  have hrun := @execute_invariant_on _ _ _ _ _ (fun l => ∀ item, l = .launch item →
    (body item).Guarantees I G) (fun past u => Guaranteed I G u ∧
      (item ∈ launched past → Owed I P u)) ?_ [] ls hlabels ⟨hs, fun hin => by contradiction⟩ h
  · exact (hrun.2 hitem).returned hr
  · rintro past u l v ⟨hu, howed⟩ hl hstep
    refine ⟨(step_guaranteed hu hl hstep).1, fun hin => ?_⟩
    rcases List.mem_append.mp (mem_launched.mp hin) with hpast | hnow
    · exact step_owed hkeep hu (howed (mem_launched.mpr hpast)) hl hstep
    · rw [← List.mem_singleton.mp hnow] at hstep
      rw [step_launch hstep]
      exact .inr ⟨_, List.mem_append_right _ (List.mem_singleton.mpr rfl), hbrings⟩

end Pool

end TSymbiote
