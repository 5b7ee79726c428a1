/-
# Binary rounding

A floating-point operation rounds its exact result to a number of binary digits.  The result is a
quotient of natural numbers here, counted in units so small that the last digit that is kept is
never below one of them.  It is rounded to the nearest, with ties to even, and larger results stay
at least as large.
-/
import Mathlib.Algebra.Order.Ring.Nat
import Mathlib.Tactic.Ring

namespace Rounding

variable {bits num num' den n : ℕ}

/-- The number nearest to the quotient, and the even one if there are two. -/
def nearest (num den : ℕ) : ℕ :=
  if den < 2 * (num % den) ∨ 2 * (num % den) = den ∧ num / den % 2 = 1 then num / den + 1
  else num / den

/-- How many digits the quotient has too many. -/
def excess (bits num den : ℕ) : ℕ := (num / den).log2 + 1 - bits

/-- The quotient rounded to a number of digits. -/
def toBits (bits num den : ℕ) : ℕ :=
  nearest num (den * 2 ^ excess bits num den) * 2 ^ excess bits num den

theorem le_nearest (h : n ≤ num / den) : n ≤ nearest num den := by
  unfold nearest
  split
  · omega
  · exact h

theorem nearest_le (h : num / den < n) : nearest num den ≤ n := by
  unfold nearest
  split
  · exact h
  · exact Nat.le_of_lt h

/-- **The nearest number is monotone.** -/
theorem nearest_mono (h : num ≤ num') : nearest num den ≤ nearest num' den := by
  rcases Nat.lt_or_eq_of_le (Nat.div_le_div_right (c := den) h) with hlt | heq
  · exact (nearest_le hlt).trans (le_nearest (Nat.le_refl _))
  · -- with equal quotients the remainders decide
    have hrem : num % den ≤ num' % den := by
      have hnum := Nat.div_add_mod num den
      have hnum' := Nat.div_add_mod num' den
      rw [heq] at hnum
      omega
    unfold nearest
    rw [heq]
    split
    · split
      · exact Nat.le_refl _
      · omega
    · split
      · omega
      · exact Nat.le_refl _

theorem log2_mono {a b : ℕ} (h : a ≤ b) : a.log2 ≤ b.log2 := by
  rcases Nat.eq_zero_or_pos a with rfl | hpos
  · rw [Nat.log2_zero]
    exact Nat.zero_le _
  · exact (Nat.le_log2 (by omega)).mpr ((Nat.log2_self_le (by omega)).trans h)

/-- The digits that are kept. -/
theorem div_lt_two_pow : num / (den * 2 ^ excess bits num den) < 2 ^ bits := by
  rw [← Nat.div_div_eq_div_mul, Nat.div_lt_iff_lt_mul (Nat.two_pow_pos _), ← Nat.pow_add]
  refine Nat.lt_of_lt_of_le Nat.lt_log2_self (Nat.pow_le_pow_right Nat.two_pos ?_)
  unfold excess
  omega

/-- Where digits are dropped, the first that is kept is not 0. -/
theorem two_pow_le_div (hbits : 0 < bits) (hexcess : 0 < excess bits num den) :
    2 ^ (bits - 1) ≤ num / (den * 2 ^ excess bits num den) := by
  have hlog : (num / den).log2 = bits - 1 + excess bits num den := by
    unfold excess at *
    omega
  have hne : num / den ≠ 0 := by
    intro hzero
    rw [hzero, Nat.log2_zero] at hlog
    omega
  rw [← Nat.div_div_eq_div_mul, Nat.le_div_iff_mul_le (Nat.two_pow_pos _), ← Nat.pow_add, ← hlog]
  exact Nat.log2_self_le hne

/-- **Rounding is monotone.** -/
theorem toBits_mono (hbits : 0 < bits) (h : num ≤ num') :
    toBits bits num den ≤ toBits bits num' den := by
  have hexcess : excess bits num den ≤ excess bits num' den := by
    have hlog := log2_mono (Nat.div_le_div_right (c := den) h)
    unfold excess
    omega
  unfold toBits
  rcases Nat.lt_or_eq_of_le hexcess with hlt | heq
  · -- the larger result has more digits, and a power of two is between them
    calc nearest num (den * 2 ^ excess bits num den) * 2 ^ excess bits num den
        ≤ 2 ^ bits * 2 ^ excess bits num den :=
          Nat.mul_le_mul_right _ (nearest_le div_lt_two_pow)
      _ = 2 ^ (bits + excess bits num den) := (Nat.pow_add _ _ _).symm
      _ ≤ 2 ^ (bits - 1 + excess bits num' den) := Nat.pow_le_pow_right Nat.two_pos (by omega)
      _ = 2 ^ (bits - 1) * 2 ^ excess bits num' den := Nat.pow_add _ _ _
      _ ≤ nearest num' (den * 2 ^ excess bits num' den) * 2 ^ excess bits num' den :=
          Nat.mul_le_mul_right _ (le_nearest (two_pow_le_div hbits (by omega)))
  · rw [heq]
    exact Nat.mul_le_mul_right _ (nearest_mono h)

end Rounding
