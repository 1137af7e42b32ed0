import Mathlib.Data.List.Rotate
import TSymbiote.Lib.Transition

/-! # Around a list

Steps from an element of a list to the next one or the previous one, where the
first follows the last. How far a walk gets depends only on how many of its steps
go which way, and as many steps as there are elements visit each of them.
-/

namespace TSymbiote.Cycle

open Transition

/-- The position after a step. The remainder takes the sign of the dividend. -/
def turn (n : Nat) (back : Bool) (i : Int) : Int :=
  if back = true then (i - 1 + n).tmod n else (i + 1).tmod n

/-- The position of an element, or the one before the first. -/
def seek {α : Type} [DecidableEq α] (l : List α) (a : α) : Int :=
  match l.idxOf? a with
  | none => -1
  | some i => i

/-- The element at a position. -/
def item {α : Type} (l : List α) (i : Int) : Option α := if i < 0 then none else l[i.toNat]?

def move {α : Type} [DecidableEq α] (l : List α) (back : Bool) (a : α) : Option α :=
  item l (turn l.length back (seek l a))

def sign (back : Bool) : Int := if back = true then -1 else 1

/-- Steps forward less steps back. -/
def distance : List Bool → Int
  | [] => 0
  | back :: steps => sign back + distance steps

theorem distance_append (steps steps' : List Bool) :
    distance (steps ++ steps') = distance steps + distance steps' := by
  induction steps with
  | nil => simp [distance]
  | cons back steps ih =>
      simp only [List.cons_append, distance, ih]
      omega

theorem turn_eq {n : Nat} (hn : 0 < n) (back : Bool) {i : Int} (hi : 0 ≤ i) :
    turn n back i = (i + sign back) % n := by
  unfold turn sign
  cases back with
  | false => exact Int.tmod_eq_emod_of_nonneg (by omega)
  | true =>
      simp only [if_true]
      rw [Int.tmod_eq_emod_of_nonneg (by omega), Int.add_emod_right]
      rfl

theorem turn_bounds {n : Nat} (hn : 0 < n) (back : Bool) {i : Int} (hi : -1 ≤ i) :
    0 ≤ turn n back i ∧ turn n back i < n := by
  have hbounds : ∀ j : Int, 0 ≤ j → 0 ≤ j.tmod n ∧ j.tmod n < n := by
    intro j hj
    rw [Int.tmod_eq_emod_of_nonneg hj]
    exact ⟨Int.emod_nonneg _ (by omega), Int.emod_lt_of_pos _ (by omega)⟩
  unfold turn
  cases back with
  | false => exact hbounds _ (by omega)
  | true =>
      by_cases hone : n = 1
      · subst hone
        simp [Int.tmod_one]
      · exact hbounds _ (by omega)

variable {α : Type} {l : List α} {a : α} {i : Int}

theorem item_some : item l i = some a ↔ ∃ k : Nat, i = k ∧ l[k]? = some a := by
  unfold item
  constructor
  · intro h
    split at h
    · contradiction
    · exact ⟨i.toNat, by omega, h⟩
  · rintro ⟨k, rfl, hk⟩
    rw [if_neg (by omega)]
    exact hk

/-- A position taken modulo the length has an element. -/
theorem exists_item (hl : l ≠ []) (i : Int) : ∃ a, item l (i % l.length) = some a := by
  have hlen : 0 < l.length := List.length_pos_iff.mpr hl
  have hlow : 0 ≤ i % l.length := Int.emod_nonneg _ (by omega)
  have hhigh : i % l.length < l.length := Int.emod_lt_of_pos _ (by omega)
  have hk : (i % l.length).toNat < l.length := by omega
  exact ⟨_, item_some.mpr ⟨(i % l.length).toNat, by omega, List.getElem?_eq_getElem hk⟩⟩

section DecidableEq

variable [DecidableEq α]

theorem seek_item (hl : l.Nodup) (h : item l i = some a) : seek l a = i := by
  obtain ⟨k, rfl, hk⟩ := item_some.mp h
  obtain ⟨hlt, rfl⟩ := List.getElem?_eq_some_iff.mp hk
  have hidx : l.idxOf? l[k] = some k := by
    rw [List.idxOf?_eq_some_iff]
    refine ⟨hlt, by simp, ?_⟩
    intro j hj heq
    exact absurd ((List.Nodup.getElem_inj_iff hl).mp heq) (by omega)
  unfold seek
  rw [hidx]

/-- A step goes to the neighbour. -/
theorem move_item (hl : l.Nodup) (h : item l i = some a) (back : Bool) :
    move l back a = item l ((i + sign back) % l.length) := by
  obtain ⟨k, rfl, hk⟩ := item_some.mp h
  have hlt : k < l.length := (List.getElem?_eq_some_iff.mp hk).1
  unfold move
  rw [seek_item hl h, turn_eq (by omega) back (by omega)]

/-- A step from outside goes to an element too. -/
theorem exists_move (hne : l ≠ []) (back : Bool) (a : α) :
    ∃ b, b ∈ l ∧ move l back a = some b := by
  have hlen : 0 < l.length := List.length_pos_iff.mpr hne
  have hseek : -1 ≤ seek l a := by
    unfold seek
    split <;> omega
  obtain ⟨hlow, hhigh⟩ := turn_bounds hlen back hseek
  have hlt : (turn l.length back (seek l a)).toNat < l.length := by omega
  refine ⟨l[(turn l.length back (seek l a)).toNat], List.getElem_mem hlt, ?_⟩
  exact item_some.mpr ⟨_, by omega, List.getElem?_eq_getElem hlt⟩

/-- A step from where a walk has got to. -/
theorem move_emod (hl : l.Nodup) (h : item l (i % l.length) = some a) (back : Bool) :
    move l back a = item l ((i + sign back) % l.length) := by
  rw [move_item hl h, Int.emod_add_emod]

/-- A system that moves around a list on some labels and stays on the others is, after
a run, as far around it as these moves go. -/
theorem execute_item {S L : Type} {step : S → L → Option S} (ok : L → Prop) (good : S → Prop)
    (current : S → Option α) {press : L → Option Bool} (hl : l.Nodup)
    (hstep : ∀ {s e t a}, good s → ok e → step s e = some t → current s = some a → good t ∧
      current t = (press e).elim (some a) fun back => move l back a) {s t : S} {ls : List L}
    (hok : ∀ e ∈ ls, ok e) (hs : good s) (ha : current s = item l (i % l.length)) (hne : l ≠ [])
    (h : execute step s ls = some t) :
    good t ∧ current t = item l ((i + distance (ls.filterMap press)) % l.length) := by
  have hstart : good s ∧
      current s = item l ((i + distance (([] : List L).filterMap press)) % l.length) :=
    ⟨hs, by simpa [distance] using ha⟩
  refine execute_invariant_on (P := fun past s => good s ∧
    current s = item l ((i + distance (past.filterMap press)) % l.length)) ?_ hok hstart h
  rintro past s e t ⟨hgood, hcurrent⟩ he ht
  obtain ⟨a, hitem⟩ := exists_item hne (i + distance (past.filterMap press))
  obtain ⟨hgood', hcurrent'⟩ := hstep hgood he ht (hcurrent.trans hitem)
  refine ⟨hgood', ?_⟩
  rw [hcurrent', List.filterMap_append, distance_append]
  cases hpress : press e with
  | none => simpa [hpress, distance] using hitem.symm
  | some back =>
      rw [Option.elim_some, move_emod hl hitem]
      simp [hpress, distance, Int.add_assoc]

end DecidableEq

/-- The positions of a lap have the elements of the list, each once. -/
theorem lap_perm (l : List α) (i : Nat) :
    ((List.range l.length).map fun k : Nat => item l ((i + k : Int) % l.length)).Perm (l.map some) := by
  have hrotate : ((List.range l.length).map fun k : Nat => item l ((i + k : Int) % l.length)) =
      (l.rotate i).map some := by
    apply List.ext_getElem (by simp)
    intro k hk _
    have hlt : k < l.length := by simpa using hk
    have hmod : (k + i) % l.length < l.length := Nat.mod_lt _ (by omega)
    have hcast : ((i + k : Int) % l.length) = ((k + i) % l.length : Nat) := by
      push_cast
      rw [Int.add_comm]
    rw [List.getElem_map, List.getElem_range, List.getElem_map, List.getElem_rotate, hcast]
    exact item_some.mpr ⟨_, rfl, List.getElem?_eq_getElem hmod⟩
  rw [hrotate]
  exact (l.rotate_perm i).map some

end TSymbiote.Cycle
