import Mathlib.Tactic.ByContra

/-! # Hooks

Memos and effects of a component. Dependencies are compared with those of the
last render: a reference by its identity, a flag by its value. A memo keeps its
value as long as they are the same, and an effect runs when they are not. Effects
run in their order, each over what the ones before it have left.
-/

namespace TSymbiote.Hooks

/-- A value that is told from others by its identity. -/
structure Ref (α : Type) where
  id : Nat
  val : α

inductive Dep where
  | ref (id : Nat)
  | bool (b : Bool)
  deriving DecidableEq, Repr

section Memo

variable {α : Type}

structure Memo (α : Type) where
  deps : List Dep
  value : Ref α

/-- The memo after a render in which it would get this value. -/
def Memo.render (m : Memo α) (deps : List Dep) (value : Ref α) : Memo α :=
  if m.deps = deps then m else ⟨deps, value⟩

variable {m : Memo α} {deps : List Dep} {value : Ref α}

theorem Memo.render_of_eq (h : m.deps = deps) : m.render deps value = m := if_pos h

theorem Memo.render_of_ne (h : m.deps ≠ deps) : m.render deps value = ⟨deps, value⟩ := if_neg h

@[simp] theorem Memo.render_deps (m : Memo α) (deps : List Dep) (value : Ref α) :
    (m.render deps value).deps = deps := by
  unfold Memo.render
  split
  · next h => exact h
  · rfl

/-- `r'` is `r`, or has an identity that was not given before. -/
def Ref.Renews (bound : Nat) (r r' : Ref α) : Prop := r' = r ∨ bound ≤ r'.id

theorem Ref.Renews.eq_of_id {bound : Nat} {r r' : Ref α} (h : r.Renews bound r')
    (hr : r.id < bound) (hid : r'.id = r.id) : r' = r := by
  rcases h with heq | hle
  · exact heq
  · omega

/-- A memo whose new value has a new identity. -/
theorem Memo.render_renews {bound : Nat} (m : Memo α) (deps : List Dep) (h : bound ≤ value.id) :
    m.value.Renews bound (m.render deps value).value := by
  unfold Memo.render
  split
  · exact .inl rfl
  · exact .inr h

/-- An old identity is that of a value that was kept. -/
theorem Memo.deps_of_lt {bound : Nat} (h : bound ≤ value.id)
    (hid : (m.render deps value).value.id < bound) : m.deps = deps := by
  by_contra hne
  rw [Memo.render_of_ne hne] at hid
  exact absurd hid (Nat.not_lt.mpr h)

theorem Memo.render_lt {bound : Nat} (hm : m.value.id < bound) (h : value.id < bound) :
    (m.render deps value).value.id < bound := by
  unfold Memo.render
  split
  · exact hm
  · exact h

/-- What is kept has to be what would be computed again. -/
theorem Memo.render_val (h : m.deps = deps → m.value.val = value.val) :
    (m.render deps value).value.val = value.val := by
  unfold Memo.render
  split
  · next heq => exact h heq
  · rfl

end Memo

section Effects

variable {σ : Type}

structure Effect (σ : Type) where
  deps : List Dep
  run : σ → σ

/-- The effects of a render, against the dependencies of the one before it. -/
def runEffects : List (Effect σ) → List (List Dep) → σ → σ
  | e :: es, last :: lasts, s => runEffects es lasts (if e.deps = last then s else e.run s)
  | _, _, s => s

theorem runEffects_unchanged (es : List (Effect σ)) (s : σ) :
    runEffects es (es.map Effect.deps) s = s := by
  induction es with
  | nil => rfl
  | cons e es ih =>
      rw [List.map_cons, runEffects, if_pos rfl]
      exact ih

end Effects

end TSymbiote.Hooks
