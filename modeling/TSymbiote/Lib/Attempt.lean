import Mathlib.Data.List.Basic

/-! # Loops that may throw

A loop whose body throws ends there, with what it has done so far. When it does
not depend on the state which elements make it throw, the loop has gone through
the elements before the first of these.
-/

namespace TSymbiote

variable {σ α ε : Type}

def attempt (f : σ → α → Except ε σ) : σ → List α → σ × Option ε
  | s, [] => (s, none)
  | s, a :: as =>
      match f s a with
      | .ok s' => attempt f s' as
      | .error e => (s, some e)

/-- What every run of the body keeps, the loop keeps as far as it gets. -/
theorem attempt_invariant {P : σ → Prop} {f : σ → α → Except ε σ} {as : List α} {s : σ}
    (hstep : ∀ {s a s'}, P s → f s a = .ok s' → P s') (hs : P s) : P (attempt f s as).1 := by
  induction as generalizing s with
  | nil => exact hs
  | cons a as ih =>
      unfold attempt
      cases hf : f s a with
      | ok s' => exact ih (hstep hs hf)
      | error e => exact hs

/-- Over the states with `P`, the body does what `g` does, and throws `e` where
`throws` says so. -/
structure Runs (P : σ → Prop) (as : List α) (throws : α → Bool) (e : ε) (f : σ → α → Except ε σ)
    (g : σ → α → σ) : Prop where
  ok : ∀ s, P s → ∀ a ∈ as, throws a = false → f s a = .ok (g s a)
  error : ∀ s, P s → ∀ a ∈ as, throws a = true → f s a = .error e
  keeps : ∀ s, P s → ∀ a ∈ as, throws a = false → P (g s a)

/-- The elements before the first one that throws. -/
def heeded (throws : α → Bool) (as : List α) : List α := as.takeWhile fun a => !throws a

theorem heeded_cons_false {throws : α → Bool} {a : α} (h : throws a = false) (as : List α) :
    heeded throws (a :: as) = a :: heeded throws as := by
  unfold heeded
  rw [List.takeWhile_cons_of_pos (by simp [h])]

theorem heeded_cons_true {throws : α → Bool} {a : α} (h : throws a = true) (as : List α) :
    heeded throws (a :: as) = [] := by
  unfold heeded
  rw [List.takeWhile_cons_of_neg (by simp [h])]

theorem heeded_of_not_any {throws : α → Bool} {as : List α} (h : as.any throws = false) :
    heeded throws as = as := by
  induction as with
  | nil => rfl
  | cons a as ih =>
      rw [List.any_cons, Bool.or_eq_false_iff] at h
      rw [heeded_cons_false h.1, ih h.2]

theorem any_eq_false {throws : α → Bool} {as : List α} (h : ∀ a ∈ as, throws a = false) :
    as.any throws = false :=
  List.any_eq_false.mpr fun a ha => Bool.not_eq_true _ ▸ h a ha

variable {P : σ → Prop} {as : List α} {throws : α → Bool} {e : ε} {f : σ → α → Except ε σ}
  {g : σ → α → σ} {s : σ}

theorem Runs.mono {bs : List α} (h : Runs P bs throws e f g) (hsub : ∀ a ∈ as, a ∈ bs) :
    Runs P as throws e f g where
  ok s hs a ha := h.ok s hs a (hsub a ha)
  error s hs a ha := h.error s hs a (hsub a ha)
  keeps s hs a ha := h.keeps s hs a (hsub a ha)

/-- The loop goes through the elements before the first that throws. -/
theorem Runs.attempt (h : Runs P as throws e f g) (hs : P s) :
    attempt f s as = ((heeded throws as).foldl g s, if as.any throws then some e else none) ∧
      P ((heeded throws as).foldl g s) := by
  induction as generalizing s with
  | nil => exact ⟨rfl, hs⟩
  | cons a as ih =>
      unfold TSymbiote.attempt
      rw [List.any_cons]
      cases ha : throws a with
      | false =>
          have hrest := h.mono fun b hb => List.mem_cons_of_mem a hb
          rw [h.ok s hs a List.mem_cons_self ha, heeded_cons_false ha, Bool.false_or,
            List.foldl_cons]
          exact ih hrest (h.keeps s hs a List.mem_cons_self ha)
      | true =>
          rw [h.error s hs a List.mem_cons_self ha, heeded_cons_true ha, Bool.true_or, if_pos rfl]
          exact ⟨rfl, hs⟩

end TSymbiote
