/-
# The next point of a grid

Points of a grid are the multiples of a period.  A moment is cut down to a whole number, and the
next point after this number is taken; it comes after the moment and at most a period later.
-/
import Mathlib.Algebra.Order.Floor.Semiring
import Mathlib.Tactic.Linarith

namespace Grid

variable {K : Type*} [Field K] [LinearOrder K] [FloorSemiring K]

/-- The next point of the grid after the whole part of a moment. -/
def next (period : ℕ) (x : K) : ℕ := ⌊x⌋₊ + (period - ⌊x⌋₊ % period)

theorem dvd_next (period : ℕ) (x : K) (h : 0 < period) : period ∣ next period x := by
  unfold next
  have hlt := Nat.mod_lt ⌊x⌋₊ h
  have hdiv := Nat.div_add_mod ⌊x⌋₊ period
  refine ⟨⌊x⌋₊ / period + 1, ?_⟩
  rw [Nat.mul_add]
  omega

variable [IsStrictOrderedRing K]

/-- The next point comes after the moment. -/
theorem lt_next {period : ℕ} (x : K) (h : 0 < period) : x < next period x := by
  have hlt := Nat.mod_lt ⌊x⌋₊ h
  have hone : ⌊x⌋₊ + 1 ≤ next period x := by
    unfold next
    omega
  calc x < (⌊x⌋₊ : K) + 1 := Nat.lt_floor_add_one x
    _ = ((⌊x⌋₊ + 1 : ℕ) : K) := by rw [Nat.cast_add, Nat.cast_one]
    _ ≤ next period x := Nat.cast_le.mpr hone

/-- It comes at most a period later. -/
theorem next_le {period : ℕ} {x : K} (hx : 0 ≤ x) : (next period x : K) ≤ x + period := by
  have hle : next period x ≤ ⌊x⌋₊ + period := by
    unfold next
    omega
  calc (next period x : K) ≤ ((⌊x⌋₊ + period : ℕ) : K) := Nat.cast_le.mpr hle
    _ = (⌊x⌋₊ : K) + period := Nat.cast_add _ _
    _ ≤ x + period := by
      have hfloor := Nat.floor_le hx
      linarith

end Grid
