/-
# Long division in binary digits

A quotient with a given number of binary digits behind the point is the floor of a shifted dividend.
Digits come from shifting the remainder to the left or the divisor to the right, in any order and
any number at a time.
-/
import Mathlib.Algebra.Order.Ring.Nat
import Mathlib.Tactic.Ring

namespace LongDivision

variable {a b k q r d z : ℕ}

/-- With `k` digits of `a / b`, the quotient is `q`; the remainder is `r` for what is left of the
divisor when `2 ^ z` is taken out. -/
structure Remains (a b k q r d z : ℕ) : Prop where
  divisor : b = d * 2 ^ z
  dividend : a * 2 ^ k = q * b + r * 2 ^ z

theorem remains_start (a b : ℕ) : Remains a b 0 (a / b) (a % b) b 0 := by
  constructor
  · rw [pow_zero, mul_one]
  · rw [pow_zero, mul_one, mul_one]
    exact (Nat.div_add_mod' a b).symm

namespace Remains

/-- A digit from the remainder. -/
theorem shiftRemainder (h : Remains a b k q r d z) : Remains a b (k + 1) (2 * q) (2 * r) d z := by
  constructor
  · exact h.divisor
  · calc a * 2 ^ (k + 1) = 2 * (a * 2 ^ k) := by ring
      _ = 2 * (q * b + r * 2 ^ z) := by rw [h.dividend]
      _ = 2 * q * b + 2 * r * 2 ^ z := by ring

/-- A digit from an even divisor. -/
theorem shiftDivisor (h : Remains a b k q r (2 * d) z) : Remains a b (k + 1) (2 * q) r d (z + 1) := by
  constructor
  · rw [h.divisor]
    ring
  · calc a * 2 ^ (k + 1) = 2 * (a * 2 ^ k) := by ring
      _ = 2 * (q * b + r * 2 ^ z) := by rw [h.dividend]
      _ = 2 * q * b + r * 2 ^ (z + 1) := by ring

/-- The remainder is divided. -/
theorem divide (h : Remains a b k q r d z) : Remains a b k (q + r / d) (r % d) d z := by
  constructor
  · exact h.divisor
  · calc a * 2 ^ k = q * b + (r / d * d + r % d) * 2 ^ z := by rw [h.dividend, Nat.div_add_mod']
      _ = q * b + (r / d * (d * 2 ^ z) + r % d * 2 ^ z) := by ring
      _ = (q + r / d) * b + r % d * 2 ^ z := by
        rw [← h.divisor]
        ring

/-- **The quotient**, when nothing of the remainder can be divided. -/
theorem quotient (h : Remains a b k q r d z) (hr : r < d) : q = a * 2 ^ k / b := by
  have hpos : 0 < b := by
    rw [h.divisor]
    exact Nat.mul_pos (Nat.zero_lt_of_lt hr) (Nat.two_pow_pos z)
  have hlt : r * 2 ^ z < b := by
    rw [h.divisor]
    exact Nat.mul_lt_mul_of_pos_right hr (Nat.two_pow_pos z)
  rw [h.dividend, Nat.mul_comm q b, Nat.mul_add_div hpos, Nat.div_eq_of_lt hlt, Nat.add_zero]

/-- Without a remainder, the other digits are zero. -/
theorem quotient_of_zero (h : Remains a b k q 0 d z) (hpos : 0 < b) (m : ℕ) :
    q * 2 ^ m = a * 2 ^ (k + m) / b := by
  have hexact : a * 2 ^ (k + m) = b * (q * 2 ^ m) := by
    rw [pow_add, ← mul_assoc, h.dividend]
    ring
  rw [hexact, Nat.mul_div_cancel_left _ hpos]

end Remains

end LongDivision
