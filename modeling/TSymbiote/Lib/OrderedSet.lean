import Mathlib.Data.List.Nodup
import Mathlib.Data.List.Perm.Subperm

/-! # Collections in the order of insertion

Sets that are traversed in the order their elements came in, and the grouping of
a list of pairs by their first components, with the groups in the order in which
they were opened.
-/

namespace TSymbiote

/-- A set, with its elements in the order of insertion. -/
@[ext] structure OrderedSet (α : Type) where
  toList : List α
  nodup : toList.Nodup

namespace OrderedSet

variable {α : Type} {s t : OrderedSet α} {a b : α}

def empty : OrderedSet α := ⟨[], List.nodup_nil⟩

instance : Membership α (OrderedSet α) := ⟨fun s a => a ∈ s.toList⟩

theorem mem_toList : a ∈ s.toList ↔ a ∈ s := Iff.rfl

@[simp] theorem notMem_empty : ¬ a ∈ (empty : OrderedSet α) := List.not_mem_nil

def size (s : OrderedSet α) : Nat := s.toList.length

def filter (p : α → Bool) (s : OrderedSet α) : OrderedSet α := ⟨s.toList.filter p, s.nodup.filter p⟩

@[simp] theorem mem_filter {p : α → Bool} : a ∈ s.filter p ↔ a ∈ s ∧ p a = true := List.mem_filter

/-- A filter that keeps the size keeps every element. -/
theorem filter_eq_self_of_size {p : α → Bool} (h : (s.filter p).size = s.size) : s.filter p = s := by
  ext1
  exact List.filter_sublist.eq_of_length h

/-- Against a list that has every element and none twice, the size tells whether
it has others. -/
theorem size_eq_length_iff {l : List α} (hl : l.Nodup) (hsub : ∀ a ∈ s, a ∈ l) :
    s.size = l.length ↔ ∀ a, a ∈ s ↔ a ∈ l := by
  have hperm : s.toList.Subperm l := s.nodup.subperm fun a ha => hsub a ha
  constructor
  · intro hsize a
    exact (hperm.perm_of_length_le (Nat.le_of_eq hsize.symm)).mem_iff
  · intro hmem
    exact ((List.perm_ext_iff_of_nodup s.nodup hl).mpr hmem).length_eq

section DecidableEq

variable [DecidableEq α]

instance : Decidable (a ∈ s) := inferInstanceAs (Decidable (a ∈ s.toList))

def add (s : OrderedSet α) (a : α) : OrderedSet α :=
  if h : a ∈ s.toList then s
  else ⟨s.toList ++ [a], List.nodup_append.mpr ⟨s.nodup, List.nodup_singleton a, by
    intro b hb c hc heq
    rw [List.mem_singleton] at hc
    exact h (hc ▸ heq ▸ hb)⟩⟩

@[simp] theorem mem_add : b ∈ s.add a ↔ b ∈ s ∨ b = a := by
  unfold add
  split
  · next h =>
      constructor
      · exact Or.inl
      · rintro (hb | rfl)
        · exact hb
        · exact h
  · rw [← mem_toList, List.mem_append, List.mem_singleton, mem_toList]

/-- The elements of a list, added one after the other. -/
def ofList (l : List α) : OrderedSet α := l.foldl add empty

theorem mem_foldl_add (l : List α) : b ∈ l.foldl add s ↔ b ∈ s ∨ b ∈ l := by
  induction l generalizing s with
  | nil => simp
  | cons a l ih =>
      rw [List.foldl_cons, ih, mem_add, List.mem_cons]
      tauto

@[simp] theorem mem_ofList {l : List α} : b ∈ ofList l ↔ b ∈ l := by
  unfold ofList
  rw [mem_foldl_add]
  simp

def delete (s : OrderedSet α) (a : α) : OrderedSet α := s.filter fun b => decide (b ≠ a)

@[simp] theorem mem_delete : b ∈ s.delete a ↔ b ∈ s ∧ b ≠ a := by
  unfold delete
  rw [mem_filter, decide_eq_true_iff]

/-- Out if it is in, and in if it is out. -/
def toggle (s : OrderedSet α) (a : α) : OrderedSet α := if a ∈ s then s.delete a else s.add a

theorem mem_of_toggle (h : b ∈ s.toggle a) : b ∈ s ∨ b = a := by
  unfold toggle at h
  split at h
  · exact .inl (mem_delete.mp h).1
  · exact mem_add.mp h

end DecidableEq

end OrderedSet

/-! ## Grouping -/

section Group

variable {α β : Type} [DecidableEq α]

/-- The value goes to the end of its key's group, or into a new one. -/
def pushAt : List (α × List β) → α → β → List (α × List β)
  | [], k, v => [(k, [v])]
  | (k', vs) :: groups, k, v =>
      if k' = k then (k', vs ++ [v]) :: groups else (k', vs) :: pushAt groups k v

def grouped (l : List (α × β)) : List (α × List β) := l.foldl (fun groups e => pushAt groups e.1 e.2) []

def ungroup (groups : List (α × List β)) : List (α × β) :=
  groups.flatMap fun g => g.2.map fun v => (g.1, v)

theorem ungroup_pushAt (groups : List (α × List β)) (k : α) (v : β) :
    (ungroup (pushAt groups k v)).Perm (ungroup groups ++ [(k, v)]) := by
  induction groups with
  | nil => exact List.Perm.refl _
  | cons g groups ih =>
      rcases g with ⟨k', vs⟩
      unfold pushAt
      split
      · next heq =>
          subst heq
          unfold ungroup
          simp only [List.flatMap_cons, List.map_append, List.append_assoc]
          exact List.perm_append_comm.append_left _
      · unfold ungroup at ih ⊢
        simp only [List.flatMap_cons, List.append_assoc]
        exact ih.append_left _

/-- Nothing is lost in groups, and nothing added. -/
theorem ungroup_grouped (l : List (α × β)) : (ungroup (grouped l)).Perm l := by
  have hfold : ∀ groups : List (α × List β),
      (ungroup (l.foldl (fun groups e => pushAt groups e.1 e.2) groups)).Perm (ungroup groups ++ l) := by
    induction l with
    | nil => intro groups; simp
    | cons e l ih =>
        intro groups
        rw [List.foldl_cons, List.append_cons]
        exact (ih _).trans ((ungroup_pushAt groups e.1 e.2).append_right l)
  exact hfold []

end Group

end TSymbiote
