import Mathlib.Data.List.Infix

/-! # String functions of the source language's standard library -/

namespace TSymbiote.Strings

/-- `strings.Contains(s, substr)` -/
def contains (s substr : String) : Bool := decide (substr.toList <:+: s.toList)

theorem contains_iff {s substr : String} :
    contains s substr = true ↔ substr.toList <:+: s.toList := decide_eq_true_iff

theorem contains_append_left (pre s : String) : contains (pre ++ s) pre = true := by
  rw [contains_iff, String.toList_append]
  exact (List.prefix_append _ _).isInfix

/-- `strings.Split(s, sep)`, for a separator of one character. -/
def split (s : String) (sep : Char) : List String := (s.toList.splitOn sep).map String.ofList

theorem split_ne_nil (s : String) (sep : Char) : split s sep ≠ [] := by
  unfold split
  intro h
  exact List.splitOn_ne_nil sep s.toList (List.map_eq_nil_iff.mp h)

/-! ## The parts of a split -/

section Split

variable {α : Type} {p : α → Bool} {xs ys part : List α}

theorem splitOnP_append (hxs : ∀ x ∈ xs, p x = false) (ys : List α) :
    (xs ++ ys).splitOnP p = (ys.splitOnP p).modifyHead (xs ++ ·) := by
  induction xs with
  | nil =>
      rw [List.nil_append]
      cases ys.splitOnP p with
      | nil => rfl
      | cons first rest => rfl
  | cons x xs ih =>
      rw [List.forall_mem_cons] at hxs
      rw [List.cons_append, List.splitOnP_cons_eq_if_modifyHead, hxs.1, if_neg Bool.false_ne_true,
        ih hxs.2]
      cases ys.splitOnP p with
      | nil => rfl
      | cons first rest => rfl

theorem not_of_mem_splitOnP (h : part ∈ xs.splitOnP p) : ∀ x ∈ part, p x = false := by
  induction xs generalizing part with
  | nil =>
      rw [List.splitOnP_nil, List.mem_singleton] at h
      rw [h]
      exact List.forall_mem_nil _
  | cons x xs ih =>
      rw [List.splitOnP_cons_eq_if_modifyHead] at h
      split at h
      · rcases List.mem_cons.mp h with rfl | hmem
        · exact List.forall_mem_nil _
        · exact ih hmem
      · next hx =>
          cases hsplit : xs.splitOnP p with
          | nil => exact absurd hsplit (List.splitOnP_ne_nil p xs)
          | cons first rest =>
              rw [hsplit] at ih h
              rcases List.mem_cons.mp h with rfl | hmem
              · exact List.forall_mem_cons.mpr ⟨Bool.eq_false_iff.mpr hx, ih List.mem_cons_self⟩
              · exact ih (List.mem_cons_of_mem first hmem)

theorem not_mem_of_mem_splitOn [DecidableEq α] {sep : α} (h : part ∈ xs.splitOn sep) :
    sep ∉ part := by
  intro hmem
  rw [List.splitOn_eq_splitOnP] at h
  have hsep := not_of_mem_splitOnP h sep hmem
  simp at hsep

/-- A part is the whole, or shorter. -/
theorem mem_splitOnP_or (h : part ∈ xs.splitOnP p) : part = xs ∨ part.length < xs.length := by
  induction xs generalizing part with
  | nil =>
      rw [List.splitOnP_nil, List.mem_singleton] at h
      exact .inl h
  | cons x xs ih =>
      have hle : ∀ part ∈ xs.splitOnP p, part.length ≤ xs.length := by
        intro part hpart
        rcases ih hpart with rfl | hlt
        · exact Nat.le_refl _
        · exact Nat.le_of_lt hlt
      rw [List.splitOnP_cons_eq_if_modifyHead] at h
      split at h
      · right
        rw [List.length_cons]
        rcases List.mem_cons.mp h with rfl | hmem
        · exact Nat.succ_pos _
        · exact Nat.lt_succ_of_le (hle part hmem)
      · cases hsplit : xs.splitOnP p with
        | nil => exact absurd hsplit (List.splitOnP_ne_nil p xs)
        | cons first rest =>
            rw [hsplit] at h hle
            rcases List.mem_cons.mp h with rfl | hmem
            · rcases ih (hsplit ▸ List.mem_cons_self) with rfl | hlt
              · exact .inl rfl
              · exact .inr (Nat.succ_lt_succ hlt)
            · exact .inr (Nat.lt_succ_of_le (hle part (List.mem_cons_of_mem first hmem)))

end Split

/-! ## Quantifiers over the letters of a text

They are decided along the text, also where the type of letters is finite.
-/

section Quantifiers

variable {α : Type*} {l : List α} {p : α → Prop} [DecidablePred p]

scoped instance (priority := high) decidableForallMem : Decidable (∀ a ∈ l, p a) := List.decidableBAll p l

scoped instance (priority := high) decidableExistsMem : Decidable (∃ a ∈ l, p a) := List.decidableBEx p l

end Quantifiers

end TSymbiote.Strings
