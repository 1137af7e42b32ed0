import Mathlib.Data.List.Basic
import TSymbiote.Lib.Transition

/-! # Status conditions of a TSymbiote

Each `Reconcile` writes the conditions it knows something about and leaves the
others as they are. Over runs in which any call may fail, `Consistent` is the
condition on the status a run starts from under which the object is never
reported both available and degraded.
-/

namespace TSymbiote.Operator.Status

open Transition

inductive ConditionStatus where
  | true
  | false
  | unknown
  deriving DecidableEq, Repr

structure Condition where
  type : String
  status : ConditionStatus
  reason : String
  message : String
  deriving DecidableEq, Repr

def tsymbioteReady : String := "Available"

def tsymbioteProgressing : String := "Progressing"

def tsymbioteDegraded : String := "Degraded"

/-- Replaces the condition of the given type, or adds it. -/
def setStatusCondition : List Condition → Condition → List Condition
  | [], new => [new]
  | c :: cs, new => if c.type = new.type then new :: cs else c :: setStatusCondition cs new

def IsTrue (conditions : List Condition) (type : String) : Prop :=
  ∃ c, conditions.find? (fun c => c.type = type) = some c ∧ c.status = .true

/-- The calls of `Reconcile` to the API server, and the owner reference. -/
inductive Call where
  | get
  | initialStatus
  | refetch
  | ownerRef
  | apply
  | errorStatus
  | finalStatus
  deriving DecidableEq, Repr

/-- The calls that fail, with their errors. -/
abbrev Faults := Call → Option String

/-- The stored conditions afterwards; an error of the update is only logged. -/
def updateStatusError (conditions : List Condition) (faults : Faults) (reason reconcileErr : String) :
    List Condition :=
  match faults .errorStatus with
  | some _ => conditions
  | none => setStatusCondition conditions ⟨tsymbioteDegraded, .true, reason, reconcileErr⟩

def applyWithOwnerRef (conditions : List Condition) (faults : Faults) :
    List Condition × Except String Unit :=
  match faults .ownerRef, faults .apply with
  | some err, _ => (updateStatusError conditions faults "FailedSetControllerRef" err, .error err)
  | none, some err => (updateStatusError conditions faults "FailedSSA" err, .error err)
  | none, none => (conditions, .ok ())

/-- The end of `Reconcile`, from the conditions as they were fetched. -/
def applyAndReport (conditions : List Condition) (faults : Faults) :
    List Condition × Except String Unit :=
  match applyWithOwnerRef conditions faults, faults .finalStatus with
  | (stored, .error err), _ => (stored, .error err)
  | (stored, .ok ()), some err => (stored, .error err)
  | (stored, .ok ()), none =>
      (setStatusCondition stored ⟨tsymbioteReady, .true, "Ready", "Reconciliation completed"⟩, .ok ())

def reconcileFound (conditions : List Condition) (faults : Faults) :
    List Condition × Except String Unit :=
  if conditions.isEmpty then
    match faults .initialStatus, faults .refetch with
    | some err, _ => (conditions, .error err)
    | none, refetched =>
        let stored := setStatusCondition conditions
          ⟨tsymbioteProgressing, .unknown, "Reconciling", "Starting reconciliation"⟩
        match refetched with
        | some err => (updateStatusError stored faults "FailedTSymbioteGet" err, .error err)
        | none => applyAndReport stored faults
  else applyAndReport conditions faults

/-- The conditions of the object, if it exists, and what the last run returned. -/
structure State where
  stored : Option (List Condition)
  returned : Option (Except String Unit)

def created : State := ⟨some [], none⟩

inductive Event where
  | reconcile (faults : Faults)
  | delete

def step (s : State) : Event → Option State
  | .reconcile faults =>
      match faults .get, s.stored with
      | some err, stored => some ⟨stored, some (.error err)⟩
      -- an object that does not exist is no error
      | none, none => some ⟨none, some (.ok ())⟩
      | none, some conditions =>
          let (stored, result) := reconcileFound conditions faults
          some ⟨some stored, some result⟩
  | .delete => some ⟨none, none⟩

/-- The object is both available and degraded, or is degraded although the run
just made went well. -/
def Misleading (s : State) : Prop :=
  ∃ conditions, s.stored = some conditions ∧ IsTrue conditions tsymbioteDegraded ∧
    (IsTrue conditions tsymbioteReady ∨ s.returned = some (.ok ()))

/-- No call of a run that starts with the conditions fails. -/
structure Completes (conditions : List Condition) (faults : Faults) : Prop where
  get : faults .get = none
  initialized : conditions = [] → faults .initialStatus = none ∧ faults .refetch = none
  ownerRef : faults .ownerRef = none
  apply : faults .apply = none
  finalStatus : faults .finalStatus = none

/-- A call fails whose failure is reported, and the report goes through. -/
structure Reports (conditions : List Condition) (faults : Faults) : Prop where
  get : faults .get = none
  initialStatus : conditions = [] → faults .initialStatus = none
  failed : (conditions = [] ∧ faults .refetch ≠ none) ∨ faults .ownerRef ≠ none ∨ faults .apply ≠ none
  errorStatus : faults .errorStatus = none

/-- What a run reports does not contradict a condition that it leaves alone. -/
def Consistent (s : State) : Event → Prop
  | .reconcile faults => ∀ conditions, s.stored = some conditions →
      (Completes conditions faults → ¬ IsTrue conditions tsymbioteDegraded) ∧
        (Reports conditions faults → ¬ IsTrue conditions tsymbioteReady)
  | .delete => True

/-! ## The conditions of a list -/

variable {conditions stored : List Condition} {faults : Faults}

theorem find_setStatusCondition (conditions : List Condition) (new : Condition) (type : String) :
    (setStatusCondition conditions new).find? (fun c => c.type = type) =
      if new.type = type then some new else conditions.find? fun c => c.type = type := by
  induction conditions with
  | nil =>
      unfold setStatusCondition
      rw [List.find?_cons]
      by_cases hnew : new.type = type <;> simp [hnew]
  | cons c cs ih =>
      unfold setStatusCondition
      by_cases hreplace : c.type = new.type
      · rw [if_pos hreplace, List.find?_cons, List.find?_cons, hreplace]
        by_cases hnew : new.type = type <;> simp [hnew]
      · rw [if_neg hreplace, List.find?_cons, List.find?_cons, ih]
        by_cases hnew : new.type = type
        · subst hnew
          simp [hreplace]
        · simp [hnew]

theorem isTrue_setStatusCondition (conditions : List Condition) (new : Condition) (type : String) :
    IsTrue (setStatusCondition conditions new) type ↔
      if new.type = type then new.status = .true else IsTrue conditions type := by
  unfold IsTrue
  rw [find_setStatusCondition]
  split
  · simp
  · rfl

theorem not_isTrue_nil (type : String) : ¬ IsTrue [] type := by
  intro h
  rcases h with ⟨c, hc, _⟩
  cases hc

/-! ## What one run can do -/

/-- The conditions that are stored once there are any. -/
inductive Started (conditions : List Condition) : List Condition → Prop where
  | present : Started conditions conditions
  | progressing (h : conditions = []) : Started conditions (setStatusCondition conditions
      ⟨tsymbioteProgressing, .unknown, "Reconciling", "Starting reconciliation"⟩)

inductive Next (conditions : List Condition) (faults : Faults) :
    List Condition × Except String Unit → Prop where
  | silent (stored : List Condition) (err : String) (hstarted : Started conditions stored)
      (hfailed : ¬ Completes conditions faults) (hunreported : ¬ Reports conditions faults) :
      Next conditions faults (stored, .error err)
  | reported (stored : List Condition) (reason err : String) (hstarted : Started conditions stored)
      (hreports : Reports conditions faults) :
      Next conditions faults
        (setStatusCondition stored ⟨tsymbioteDegraded, .true, reason, err⟩, .error err)
  | completed (stored : List Condition) (hstarted : Started conditions stored)
      (hcompletes : Completes conditions faults) :
      Next conditions faults
        (setStatusCondition stored ⟨tsymbioteReady, .true, "Ready", "Reconciliation completed"⟩,
          .ok ())

theorem Started.isTrue_iff (h : Started conditions stored) (type : String) :
    IsTrue stored type ↔ IsTrue conditions type := by
  cases h with
  | present => rfl
  | progressing hempty =>
      subst hempty
      rw [isTrue_setStatusCondition]
      split
      · simp [not_isTrue_nil]
      · rfl

theorem not_failed (hrefetch : conditions = [] → faults .refetch = none)
    (howner : faults .ownerRef = none) (happly : faults .apply = none) :
    ¬ ((conditions = [] ∧ faults .refetch ≠ none) ∨ faults .ownerRef ≠ none ∨
      faults .apply ≠ none) := by
  intro hfailed
  rcases hfailed with ⟨hempty, hfailed⟩ | hfailed | hfailed
  · exact hfailed (hrefetch hempty)
  · exact hfailed howner
  · exact hfailed happly

theorem Completes.not_failed (h : Completes conditions faults) :
    ¬ ((conditions = [] ∧ faults .refetch ≠ none) ∨ faults .ownerRef ≠ none ∨
      faults .apply ≠ none) :=
  Status.not_failed (fun hempty => (h.initialized hempty).2) h.ownerRef h.apply

theorem Completes.not_reports (h : Completes conditions faults) : ¬ Reports conditions faults :=
  fun hreports => h.not_failed hreports.failed

/-- After a call that fails, it depends on the update what is stored. -/
theorem updateStatusError_next (hstarted : Started conditions stored) (reason err : String)
    (hget : faults .get = none) (hinitial : conditions = [] → faults .initialStatus = none)
    (hfailed : (conditions = [] ∧ faults .refetch ≠ none) ∨ faults .ownerRef ≠ none ∨
      faults .apply ≠ none) :
    Next conditions faults (updateStatusError stored faults reason err, .error err) := by
  unfold updateStatusError
  cases hupdate : faults .errorStatus with
  | none => exact .reported stored reason err hstarted ⟨hget, hinitial, hfailed, hupdate⟩
  | some _ =>
      apply Next.silent stored err hstarted
      · intro hcompletes
        exact hcompletes.not_failed hfailed
      · intro hreports
        have hnone := hreports.errorStatus
        rw [hupdate] at hnone
        cases hnone

theorem applyAndReport_next (hstarted : Started conditions stored) (hget : faults .get = none)
    (hinitialized : conditions = [] → faults .initialStatus = none ∧ faults .refetch = none) :
    Next conditions faults (applyAndReport stored faults) := by
  have hinitial : conditions = [] → faults .initialStatus = none := fun h => (hinitialized h).1
  unfold applyAndReport applyWithOwnerRef
  cases howner : faults .ownerRef with
  | some err =>
      exact updateStatusError_next hstarted _ err hget hinitial (.inr (.inl (by simp [howner])))
  | none =>
      cases happly : faults .apply with
      | some err =>
          exact updateStatusError_next hstarted _ err hget hinitial (.inr (.inr (by simp [happly])))
      | none =>
          cases hfinal : faults .finalStatus with
          | none => exact .completed stored hstarted ⟨hget, hinitialized, howner, happly, hfinal⟩
          | some err =>
              apply Next.silent stored err hstarted
              · intro hcompletes
                have hnone := hcompletes.finalStatus
                rw [hfinal] at hnone
                cases hnone
              · intro hreports
                exact not_failed (fun h => (hinitialized h).2) howner happly hreports.failed

theorem reconcileFound_next (conditions : List Condition) (hget : faults .get = none) :
    Next conditions faults (reconcileFound conditions faults) := by
  unfold reconcileFound
  split
  · next hempty =>
      have hnil := List.isEmpty_iff.mp hempty
      cases hinitial : faults .initialStatus with
      | some err =>
          apply Next.silent conditions err .present
          · intro hcompletes
            rw [(hcompletes.initialized hnil).1] at hinitial
            cases hinitial
          · intro hreports
            rw [hreports.initialStatus hnil] at hinitial
            cases hinitial
      | none =>
          have hstarted := Started.progressing hnil
          cases hrefetch : faults .refetch with
          | some err =>
              exact updateStatusError_next hstarted _ err hget (fun _ => hinitial)
                (.inl ⟨hnil, by simp [hrefetch]⟩)
          | none => exact applyAndReport_next hstarted hget fun _ => ⟨hinitial, hrefetch⟩
  · next hpresent =>
      apply applyAndReport_next .present hget
      intro hnil
      rw [hnil] at hpresent
      exact absurd rfl hpresent

/-! ## Runs of the controller -/

theorem ready_ne_degraded : tsymbioteReady ≠ tsymbioteDegraded := by decide

theorem isTrue_of_completed (h : Started conditions stored) (reason message : String) :
    let after := setStatusCondition stored ⟨tsymbioteReady, .true, reason, message⟩
    IsTrue after tsymbioteReady ∧
      (IsTrue after tsymbioteDegraded ↔ IsTrue conditions tsymbioteDegraded) := by
  dsimp only
  rw [isTrue_setStatusCondition, isTrue_setStatusCondition, if_pos rfl, if_neg ready_ne_degraded]
  exact ⟨rfl, h.isTrue_iff _⟩

theorem isTrue_of_reported (h : Started conditions stored) (reason message : String) :
    let after := setStatusCondition stored ⟨tsymbioteDegraded, .true, reason, message⟩
    IsTrue after tsymbioteDegraded ∧
      (IsTrue after tsymbioteReady ↔ IsTrue conditions tsymbioteReady) := by
  dsimp only
  rw [isTrue_setStatusCondition, isTrue_setStatusCondition, if_pos rfl, if_neg ready_ne_degraded.symm]
  exact ⟨rfl, h.isTrue_iff _⟩

theorem misleading_some (conditions : List Condition) (returned : Option (Except String Unit)) :
    Misleading ⟨some conditions, returned⟩ ↔ IsTrue conditions tsymbioteDegraded ∧
      (IsTrue conditions tsymbioteReady ∨ returned = some (.ok ())) := by
  simp [Misleading]

theorem consistent_some (conditions : List Condition) (returned : Option (Except String Unit)) :
    Consistent ⟨some conditions, returned⟩ (.reconcile faults) ↔
      (Completes conditions faults → ¬ IsTrue conditions tsymbioteDegraded) ∧
        (Reports conditions faults → ¬ IsTrue conditions tsymbioteReady) := by
  simp [Consistent]

/-- A run that found the object leads to a misleading status just when it is not
consistent with the conditions it started from. -/
theorem Next.misleading_iff {result : List Condition × Except String Unit}
    {returned : Option (Except String Unit)} (h : Next conditions faults result)
    (hclear : ¬ Misleading ⟨some conditions, returned⟩) :
    Misleading ⟨some result.1, some result.2⟩ ↔
      ¬ Consistent ⟨some conditions, returned⟩ (.reconcile faults) := by
  rw [misleading_some] at hclear ⊢
  rw [consistent_some]
  cases h with
  | silent stored err hstarted hfailed hunreported =>
      rw [hstarted.isTrue_iff, hstarted.isTrue_iff]
      simp only [hfailed, hunreported, false_implies, and_self, not_true_eq_false, iff_false]
      intro hboth
      rcases hboth with ⟨hdegraded, hready | herror⟩
      · exact hclear ⟨hdegraded, .inl hready⟩
      · cases herror
  | reported stored reason err hstarted hreports =>
      obtain ⟨hdegraded, hready⟩ := isTrue_of_reported hstarted reason err
      have hfailed : ¬ Completes conditions faults := fun h => h.not_reports hreports
      simp [hdegraded, hready, hreports, hfailed]
  | completed stored hstarted hcompletes =>
      obtain ⟨hready, hdegraded⟩ := isTrue_of_completed hstarted "Ready" "Reconciliation completed"
      simp [hready, hdegraded, hcompletes, hcompletes.not_reports]

/-- The same for any step. -/
theorem step_misleading_iff {s t : State} {event : Event} (hclear : ¬ Misleading s)
    (h : step s event = some t) : Misleading t ↔ ¬ Consistent s event := by
  cases event with
  | delete =>
      cases h
      simp [Misleading, Consistent]
  | reconcile faults =>
      rcases s with ⟨found, returned⟩
      unfold step at h
      cases hget : faults .get with
      | some err =>
          simp only [hget, Option.some.injEq] at h
          subst h
          have hfailed : ∀ conditions, ¬ Completes conditions faults := by
            intro conditions hcompletes
            rw [hcompletes.get] at hget
            cases hget
          have hunreported : ∀ conditions, ¬ Reports conditions faults := by
            intro conditions hreports
            rw [hreports.get] at hget
            cases hget
          simp only [Consistent, hfailed, hunreported, false_implies, and_self, implies_true,
            not_true_eq_false, iff_false]
          intro hmisleading
          rcases hmisleading with ⟨conditions, hfound, hdegraded, hready | herror⟩
          · exact hclear ⟨conditions, hfound, hdegraded, .inl hready⟩
          · cases herror
      | none =>
          cases found with
          | none =>
              simp only [hget, Option.some.injEq] at h
              subst h
              simp [Misleading, Consistent]
          | some conditions =>
              simp only [hget, Option.some.injEq] at h
              subst h
              exact (reconcileFound_next conditions hget).misleading_iff hclear

/-- Over any events the status stays truthful just when no run reports what the
status it starts from contradicts. -/
theorem truthful_iff (events : List Event) :
    Throughout step (fun s => ¬ Misleading s) created events ↔ Along step Consistent created events := by
  apply throughout_iff_along (P := fun s => ¬ Misleading s) id
  · intro s event t hclear hok h hmisleading
    exact (step_misleading_iff hclear h).mp hmisleading hok
  · intro s event t hclear h hgood
    by_contra hok
    exact hgood ((step_misleading_iff hclear h).mpr hok)
  · rw [created, misleading_some]
    exact fun h => not_isTrue_nil _ h.1

def applyFails : Faults
  | .apply => some "conflict"
  | _ => none

/-- An apply fails, and the next run goes through. -/
theorem recovered_stays_degraded :
    ∃ s, execute step created [.reconcile applyFails, .reconcile fun _ => none] = some s ∧
      s.returned = some (.ok ()) ∧ Misleading s := by
  refine ⟨_, rfl, rfl, ?_⟩
  exact ⟨_, rfl, ⟨_, rfl, rfl⟩, .inr rfl⟩

end TSymbiote.Operator.Status
