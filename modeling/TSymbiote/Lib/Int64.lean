import Mathlib.Algebra.Ring.Int.Defs
import Mathlib.Algebra.Ring.Nat

/-! # Sums of products in 64 bits

`a * b + c` wraps. It is exact just when the integer it stands for fits.
-/

namespace TSymbiote

/-- The integers of 64 bits. -/
def Fits (n : Int) : Prop := -2 ^ 63 ≤ n ∧ n < 2 ^ 63

theorem toInt_fits (a : Int64) : Fits a.toInt := ⟨a.le_toInt, a.toInt_lt⟩

theorem mul_add_toInt (a b c : Int64) :
    (a * b + c).toInt = (a.toInt * b.toInt + c.toInt).bmod (2 ^ 64) := by
  rw [Int64.toInt_add, Int64.toInt_mul, Int.bmod_add_bmod]

theorem bmod_of_fits {n : Int} (h : Fits n) : n.bmod (2 ^ 64) = n := by
  rcases h with ⟨hlow, hhigh⟩
  apply Int.bmod_eq_of_le
  · omega
  · omega

theorem mul_add_exact_iff (a b c : Int64) :
    (a * b + c).toInt = a.toInt * b.toInt + c.toInt ↔ Fits (a.toInt * b.toInt + c.toInt) := by
  constructor
  · intro hexact
    rw [← hexact]
    exact toInt_fits _
  · intro hfits
    rw [mul_add_toInt, bmod_of_fits hfits]

end TSymbiote
