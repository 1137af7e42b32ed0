import Mathlib.Data.List.AList
import Mathlib.Data.List.Induction

/-! # Maps

Lookups after an insertion or a removal, in the form of one equation each, and
what a lookup that finds something then says.
-/

namespace TSymbiote

/-- A map with string keys. Its iteration order is not specified. -/
abbrev GoMap (V : Type) := AList fun _ : String => V

section Lookup

variable {α β : Type} [DecidableEq α]

theorem lookup_insert_ite (m : AList fun _ : α => β) (a b : α) (v : β) :
    (m.insert a v).lookup b = if b = a then some v else m.lookup b := by
  by_cases hb : b = a
  · subst hb
    rw [if_pos rfl]
    exact AList.lookup_insert m
  · rw [if_neg hb]
    exact AList.lookup_insert_ne hb

theorem lookup_erase_ite (m : AList fun _ : α => β) (a b : α) :
    (m.erase a).lookup b = if b = a then none else m.lookup b := by
  by_cases hb : b = a
  · subst hb
    rw [if_pos rfl]
    exact AList.lookup_erase b m
  · rw [if_neg hb]
    exact AList.lookup_erase_ne hb

theorem lookup_insert_cases {m : AList fun _ : α => β} {a b : α} {v w : β}
    (h : (m.insert a v).lookup b = some w) : (b = a ∧ v = w) ∨ (b ≠ a ∧ m.lookup b = some w) := by
  rw [lookup_insert_ite] at h
  split at h
  · next hb => exact .inl ⟨hb, Option.some.inj h⟩
  · next hb => exact .inr ⟨hb, h⟩

theorem lookup_of_erase {m : AList fun _ : α => β} {a b : α} {w : β}
    (h : (m.erase a).lookup b = some w) : m.lookup b = some w := by
  rw [lookup_erase_ite] at h
  split at h
  · contradiction
  · exact h

theorem isEmpty_iff (m : AList fun _ : α => β) :
    m.entries.isEmpty = true ↔ ∀ a, m.lookup a = none := by
  constructor
  · intro h a
    have hentries := List.isEmpty_iff.mp h
    rw [AList.lookup_eq_none, AList.mem_keys, AList.keys, hentries]
    exact List.not_mem_nil
  · intro h
    rw [List.isEmpty_iff, List.eq_nil_iff_forall_not_mem]
    intro e he
    have hmem : e.1 ∈ m := List.mem_map_of_mem he
    exact AList.lookup_eq_none.mp (h e.1) hmem

/-! ## A list of insertions -/

def insertAll (m : AList fun _ : α => β) (l : List (α × β)) : AList fun _ : α => β :=
  l.foldl (fun m e => m.insert e.1 e.2) m

theorem lookup_insertAll {m : AList fun _ : α => β} {l : List (α × β)} {a : α} {b : β}
    (h : (insertAll m l).lookup a = some b) : (a, b) ∈ l ∨ m.lookup a = some b := by
  induction l generalizing m with
  | nil => exact .inr h
  | cons e l ih =>
      rcases ih h with hl | hm
      · exact .inl (List.mem_cons_of_mem e hl)
      · rcases lookup_insert_cases hm with ⟨ha, hb⟩ | ⟨_, hm⟩
        · left
          rw [ha, ← hb]
          exact List.mem_cons_self
        · exact .inr hm

theorem mem_insertAll (m : AList fun _ : α => β) (l : List (α × β)) (a : α) :
    a ∈ insertAll m l ↔ a ∈ m ∨ a ∈ l.map Prod.fst := by
  induction l generalizing m with
  | nil => simp [insertAll]
  | cons e l ih =>
      unfold insertAll at ih ⊢
      rw [List.foldl_cons, ih, AList.mem_insert, List.map_cons, List.mem_cons]
      tauto

theorem lookup_insertAll_of_notMem {m : AList fun _ : α => β} {l : List (α × β)} {a : α}
    (h : a ∉ l.map Prod.fst) : (insertAll m l).lookup a = m.lookup a := by
  induction l generalizing m with
  | nil => rfl
  | cons e l ih =>
      rw [List.map_cons, List.mem_cons, not_or] at h
      refine (ih h.2).trans ?_
      rw [lookup_insert_ite, if_neg h.1]

/-- Insertions under different keys are all there in the end. -/
theorem lookup_insertAll_of_nodup {m : AList fun _ : α => β} {l : List (α × β)} {a : α} {b : β}
    (hl : (l.map Prod.fst).Nodup) (h : (a, b) ∈ l) : (insertAll m l).lookup a = some b := by
  induction l generalizing m with
  | nil => cases h
  | cons e l ih =>
      rw [List.map_cons, List.nodup_cons] at hl
      rcases List.mem_cons.mp h with heq | h
      · subst heq
        refine (lookup_insertAll_of_notMem hl.1).trans ?_
        rw [lookup_insert_ite, if_pos rfl]
      · exact ih hl.2 h

/-! ## A list of maps, each copied over the ones before it -/

def copyAll (m : AList fun _ : α => β) (ms : List (AList fun _ : α => β)) : AList fun _ : α => β :=
  ms.foldl (fun merged n => n ∪ merged) m

theorem copyAll_concat (m : AList fun _ : α => β) (ms : List (AList fun _ : α => β))
    (n : AList fun _ : α => β) : copyAll m (ms ++ [n]) = n ∪ copyAll m ms := by
  unfold copyAll
  rw [List.foldl_concat]

/-- The last map with the key decides. -/
theorem lookup_copyAll {m : AList fun _ : α => β} {ms : List (AList fun _ : α => β)} {a : α} {b : β}
    (h : (copyAll m ms).lookup a = some b) :
    (∃ before n after, ms = before ++ n :: after ∧ n.lookup a = some b ∧ ∀ o ∈ after, a ∉ o) ∨
      ((∀ n ∈ ms, a ∉ n) ∧ m.lookup a = some b) := by
  induction ms using List.reverseRecOn with
  | nil => exact .inr ⟨List.forall_mem_nil _, h⟩
  | append_singleton ms n ih =>
      rw [copyAll_concat] at h
      rcases AList.lookup_union_eq_some.mp h with hn | ⟨hnot, hrest⟩
      · exact .inl ⟨ms, n, [], rfl, hn, List.forall_mem_nil _⟩
      · have hlast : ∀ o ∈ [n], a ∉ o := by
          intro o ho
          rw [List.mem_singleton.mp ho]
          exact hnot
        rcases ih hrest with ⟨before, n', after, hms, hn', hafter⟩ | ⟨hall, hm⟩
        · left
          refine ⟨before, n', after ++ [n], ?_, hn', List.forall_mem_append.mpr ⟨hafter, hlast⟩⟩
          rw [hms, List.append_assoc, List.cons_append]
        · exact .inr ⟨List.forall_mem_append.mpr ⟨hall, hlast⟩, hm⟩

end Lookup

end TSymbiote
