import Mathlib.Data.List.Infix

/-! # Replacement of a sublist

`replaceAll` replaces the occurrences of one list in another from the left, as
far as they do not overlap. Up to the first occurrence nothing changes; without
replacement for them, occurrences make the list shorter. `substitute` replaces
those of several lists. The last section is about lists whose elements are
divided by a separator.
-/

namespace TSymbiote

section Replace

variable {α : Type} [DecidableEq α]

/-- The scan, with the number of elements to skip that belong to a match. -/
def replaceFrom (old new : List α) : Nat → List α → List α
  | _, [] => []
  | skip + 1, _ :: s => replaceFrom old new skip s
  | 0, c :: s =>
      if old <+: c :: s then new ++ replaceFrom old new (old.length - 1) s
      else c :: replaceFrom old new 0 s

/-- `strings.ReplaceAll(s, old, new)`, for an `old` that is not empty. -/
def replaceAll (s old new : List α) : List α := replaceFrom old new 0 s

variable {s t old new : List α}

theorem replaceFrom_skip (old new s t : List α) :
    replaceFrom old new s.length (s ++ t) = replaceFrom old new 0 t := by
  induction s with
  | nil => rfl
  | cons c s ih =>
      rw [List.length_cons, List.cons_append, replaceFrom]
      exact ih

/-- A match is replaced, and the scan goes on behind it. -/
theorem replaceAll_append (hold : old ≠ []) :
    replaceAll (old ++ s) old new = new ++ replaceAll s old new := by
  cases old with
  | nil => exact absurd rfl hold
  | cons c old =>
      have hstart : c :: old <+: c :: (old ++ s) := List.prefix_append (c :: old) s
      unfold replaceAll
      rw [List.cons_append, replaceFrom, if_pos hstart, List.length_cons, Nat.add_sub_cancel,
        replaceFrom_skip]

theorem replaceAll_cons {c : α} (h : ¬ old <+: c :: s) :
    replaceAll (c :: s) old new = c :: replaceAll s old new := by
  unfold replaceAll
  rw [replaceFrom, if_neg h]

theorem replaceAll_of_not_infix (h : ¬ old <:+: s) : replaceAll s old new = s := by
  induction s with
  | nil => rfl
  | cons c s ih =>
      rw [replaceAll_cons fun hstart => h hstart.isInfix,
        ih fun hinner => h (hinner.trans (List.suffix_cons c s).isInfix)]

theorem replaceFrom_length_le (old : List α) (skip : Nat) (s : List α) :
    (replaceFrom old [] skip s).length ≤ s.length := by
  induction s generalizing skip with
  | nil => exact Nat.le_refl _
  | cons c s ih =>
      cases skip with
      | succ skip =>
          rw [replaceFrom]
          exact Nat.le_succ_of_le (ih skip)
      | zero =>
          rw [replaceFrom]
          split
          · exact Nat.le_succ_of_le (ih _)
          · exact Nat.succ_le_succ (ih 0)

/-- Where nothing is put in their place, occurrences are missed. -/
theorem replaceAll_eq_self (hold : old ≠ []) : replaceAll s old [] = s ↔ ¬ old <:+: s := by
  constructor
  · intro heq hinner
    induction s with
    | nil => exact hold (List.infix_nil.mp hinner)
    | cons c s ih =>
        by_cases hstart : old <+: c :: s
        · unfold replaceAll at heq
          rw [replaceFrom, if_pos hstart, List.nil_append] at heq
          have hle := replaceFrom_length_le old (old.length - 1) s
          rw [heq, List.length_cons] at hle
          exact Nat.not_succ_le_self _ hle
        · rw [replaceAll_cons hstart] at heq
          rcases List.infix_cons_iff.mp hinner with hmatch | hrest
          · exact hstart hmatch
          · exact ih (List.cons.inj heq).2 hrest
  · exact replaceAll_of_not_infix

/-- The first list is kept up to an occurrence that begins in it, if one does. -/
theorem prefix_replaceAll (old new s t : List α) :
    ∃ p w, s = p ++ w ∧ p <+: replaceAll (s ++ t) old new ∧ (w = [] ∨ old <+: w ++ t) := by
  induction s with
  | nil => exact ⟨[], [], rfl, List.nil_prefix, .inl rfl⟩
  | cons c s ih =>
      by_cases hstart : old <+: c :: (s ++ t)
      · exact ⟨[], c :: s, rfl, List.nil_prefix, .inr hstart⟩
      · rcases ih with ⟨p, w, hs, hp, hw⟩
        refine ⟨c :: p, w, by rw [hs, List.cons_append], ?_, hw⟩
        rw [List.cons_append, replaceAll_cons hstart]
        exact List.cons_prefix_cons.mpr ⟨rfl, hp⟩

theorem replaceAll_singleton (a : α) (s new : List α) :
    replaceAll s [a] new = s.flatMap fun c => if c = a then new else [c] := by
  induction s with
  | nil => rfl
  | cons c s ih =>
      rw [List.flatMap_cons, ← ih]
      by_cases hc : c = a
      · rw [if_pos hc, hc]
        exact replaceAll_append (List.cons_ne_nil a [])
      · have hstart : ¬ [a] <+: c :: s := fun h => hc (List.cons_prefix_cons.mp h).1.symm
        rw [if_neg hc, replaceAll_cons hstart, List.singleton_append]

end Replace

section Substitute

variable {α : Type} [DecidableEq α]

/-- The scan for the lists of a table, each with what replaces it. -/
def substituteFrom (table : List (List α × List α)) : Nat → List α → List α
  | _, [] => []
  | skip + 1, _ :: s => substituteFrom table skip s
  | 0, c :: s =>
      match table.find? fun entry => entry.1 <+: c :: s with
      | some entry => entry.2 ++ substituteFrom table (entry.1.length - 1) s
      | none => c :: substituteFrom table 0 s

def substitute (table : List (List α × List α)) (s : List α) : List α := substituteFrom table 0 s

/-- No list of the table is empty or begins with another. -/
def PrefixFree (table : List (List α × List α)) : Prop :=
  ∀ entry ∈ table, entry.1 ≠ [] ∧ ∀ other ∈ table, other.1 <+: entry.1 → other = entry

instance (table : List (List α × List α)) : Decidable (PrefixFree table) :=
  inferInstanceAs (Decidable (∀ entry ∈ table, _))

variable {table : List (List α × List α)} {entry : List α × List α}

theorem substituteFrom_skip (table : List (List α × List α)) (s t : List α) :
    substituteFrom table s.length (s ++ t) = substituteFrom table 0 t := by
  induction s with
  | nil => rfl
  | cons c s ih =>
      rw [List.length_cons, List.cons_append, substituteFrom]
      exact ih

theorem substitute_append (hfree : PrefixFree table) (hentry : entry ∈ table) (s : List α) :
    substitute table (entry.1 ++ s) = entry.2 ++ substitute table s := by
  obtain ⟨hne, hunique⟩ := hfree entry hentry
  have hfound : table.find? (fun other => decide (other.1 <+: entry.1 ++ s)) = some entry := by
    cases h : table.find? fun other => decide (other.1 <+: entry.1 ++ s) with
    | none =>
        have hnot := List.find?_eq_none.mp h entry hentry
        exact absurd (decide_eq_true (List.prefix_append entry.1 s)) hnot
    | some other =>
        have hmem := List.mem_of_find?_eq_some h
        have hdecided := List.find?_some h
        have hstart : other.1 <+: entry.1 ++ s := of_decide_eq_true hdecided
        rcases List.prefix_or_prefix_of_prefix hstart (List.prefix_append entry.1 s) with hp | hp
        · rw [hunique other hmem hp]
        · rw [(hfree other hmem).2 entry hentry hp]
  unfold substitute
  cases hkey : entry.1 with
  | nil => contradiction
  | cons c key =>
      rw [hkey, List.cons_append] at hfound
      rw [List.cons_append, substituteFrom, hfound]
      dsimp only
      rw [hkey, List.length_cons, Nat.add_sub_cancel, substituteFrom_skip]

theorem substitute_cons {c : α} {s : List α} (h : ∀ entry ∈ table, ¬ entry.1 <+: c :: s) :
    substitute table (c :: s) = c :: substitute table s := by
  have hnone : table.find? (fun entry => decide (entry.1 <+: c :: s)) = none :=
    List.find?_eq_none.mpr fun entry hentry hstart => h entry hentry (of_decide_eq_true hstart)
  unfold substitute
  rw [substituteFrom, hnone]

/-- What the lists begin with shows where none of them is. -/
theorem substitute_cons_of_head {a c : α} (hhead : ∀ entry ∈ table, entry.1.head? = some a)
    (hc : c ≠ a) (s : List α) : substitute table (c :: s) = c :: substitute table s := by
  apply substitute_cons
  intro entry hentry hstart
  have ha := hhead entry hentry
  cases hkey : entry.1 with
  | nil =>
      rw [hkey] at ha
      contradiction
  | cons x key =>
      rw [hkey, List.cons_prefix_cons] at hstart
      rw [hkey, List.head?_cons, Option.some.injEq] at ha
      exact hc (hstart.1.symm.trans ha)

theorem substitute_self {a : α} (hhead : ∀ entry ∈ table, entry.1.head? = some a) {s : List α}
    (hs : a ∉ s) (t : List α) : substitute table (s ++ t) = s ++ substitute table t := by
  induction s with
  | nil => rfl
  | cons c s ih =>
      rw [List.mem_cons, not_or] at hs
      rw [List.cons_append, substitute_cons_of_head hhead (Ne.symm hs.1), ih hs.2]
      rfl

end Substitute

section Separator

variable {α : Type} {s t a b : List α} {x : α}

/-- A list without the separator does not get past it. -/
theorem prefix_of_not_mem (hx : x ∉ s) (h : s <+: a ++ x :: b) : s <+: a := by
  rcases List.prefix_or_prefix_of_prefix h (List.prefix_append a (x :: b)) with hs | ha
  · exact hs
  · rcases ha with ⟨z, rfl⟩
    rw [List.prefix_append_right_inj] at h
    cases z with
    | nil => exact (List.append_nil a).symm ▸ List.prefix_rfl
    | cons y z =>
        have hy := (List.cons_prefix_cons.mp h).1
        exact absurd (List.mem_append_right a (hy ▸ List.mem_cons_self)) hx

theorem mem_of_prefix_append (h : s ++ [x] <+: t ++ b) (hlt : s.length < t.length) : x ∈ t := by
  have hle : (s ++ [x]).length ≤ t.length := by
    rw [List.length_append, List.length_singleton]
    exact hlt
  have hstart := List.prefix_of_prefix_length_le h (List.prefix_append t b) hle
  exact hstart.subset (List.mem_append_right s (List.mem_singleton_self x))

end Separator

end TSymbiote
