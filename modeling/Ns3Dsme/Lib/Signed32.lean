/-
# Signed words of 32 bits as numbers

What `int32_t` leaves of a number, and that it is the number itself where that is in range.
-/
import Mathlib.Data.Int.Notation
import Mathlib.Algebra.Group.Nat.Defs
import Mathlib.Algebra.Ring.Int.Defs
import Mathlib.Order.Lattice

namespace Signed32

/-- The value that is left in 32 bits. -/
def wrap (x : ℤ) : ℤ := x.bmod (2 ^ 32)

/-- The numbers that `int32_t` has. -/
def InRange (x : ℤ) : Prop := -2 ^ 31 ≤ x ∧ x < 2 ^ 31

instance (x : ℤ) : Decidable (InRange x) := inferInstanceAs (Decidable (_ ∧ _))

theorem wrap_eq {x : ℤ} (h : InRange x) : wrap x = x := by
  obtain ⟨hlow, hhigh⟩ := h
  exact Int.bmod_eq_of_le (by omega) (by omega)

/-- A number that went through an unsigned word is back when it is added to. -/
theorem wrap_toNat_add (x y : ℤ) : wrap ((BitVec.ofInt 32 x).toNat + y) = wrap (x + y) := by
  unfold wrap
  rw [BitVec.toNat_ofInt]
  have hnat : (((x % ((2 ^ 32 : ℕ) : ℤ)).toNat : ℕ) : ℤ) = x % ((2 ^ 32 : ℕ) : ℤ) :=
    Int.toNat_of_nonneg (Int.emod_nonneg _ (by decide))
  rw [hnat, Int.emod_add_bmod]

end Signed32
