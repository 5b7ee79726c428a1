/-
# Division by a rounded reciprocal

In place of a division by `v` one multiplies by a reciprocal of `v` scaled by `n`, rounded up, and
drops the scale.  Up to `n / v` the quotient is the floor; with two equal digits in the scale, what
is left after the first one still gives back the dividend when it is multiplied by `v` and rounded.
-/
import Mathlib.Algebra.Order.Ring.Nat
import Mathlib.Tactic.Ring
import Mathlib.Tactic.Linarith

open Nat

namespace Reciprocals

variable {n h v r x : ℕ}

/-- The reciprocal of `v` scaled by `n`, rounded up. -/
structure IsReciprocal (n v r : ℕ) : Prop where
  low : n ≤ v * r
  high : v * r < n + v

/-- The floor, and one more where something is left. -/
theorem isReciprocal_div (hv : 0 < v) :
    IsReciprocal n v (if v * (n / v) < n then n / v + 1 else n / v) := by
  have hfloor := mul_div_le n v
  have hnext := lt_mul_div_succ n hv
  split
  · constructor
    · exact le_of_lt hnext
    · rw [mul_succ]
      omega
  · constructor
    · omega
    · omega

namespace IsReciprocal

/-- The excess of the product with `v`. -/
theorem exists_excess (hr : IsReciprocal n v r) : ∃ e, e < v ∧ v * r = n + e := by
  have hlow := hr.low
  have hhigh := hr.high
  exact ⟨v * r - n, by omega, by omega⟩

/-- The reciprocal of a larger divisor is smaller. -/
theorem le_of_two_le (hr : IsReciprocal (2 * n) v r) (hv : 2 ≤ v) : r ≤ n := by
  obtain ⟨e, he, hmul⟩ := hr.exists_excess
  by_contra hlarge
  have hbig : v * (n + 1) ≤ v * r := Nat.mul_le_mul_left v (Nat.lt_of_not_le hlarge)
  have htwice : 2 * n ≤ v * n := Nat.mul_le_mul_right n hv
  rw [Nat.mul_succ] at hbig
  omega

/-- **The quotient is the floor**, as long as the excesses add up to less than the scale. -/
theorem mul_div_eq (hr : IsReciprocal n v r) (hx : x * v ≤ n) (hn : 0 < n) :
    x * r / n = x / v := by
  obtain ⟨e, he, hmul⟩ := hr.exists_excess
  have hv : 0 < v := zero_lt_of_lt he
  have hscaled : v * (x * r) = x * n + x * e := by
    calc v * (x * r) = x * (v * r) := by ring
      _ = x * n + x * e := by rw [hmul, mul_add]
  have hexcess : x * e < n := by
    rcases Nat.eq_zero_or_pos x with hzero | hpos
    · rw [hzero, Nat.zero_mul]
      exact hn
    · exact Nat.lt_of_lt_of_le (Nat.mul_lt_mul_of_pos_left he hpos) hx
  apply Nat.div_eq_of_lt_le
  · -- the floor times the scale is not above
    apply Nat.le_of_mul_le_mul_left _ hv
    calc v * (x / v * n) = v * (x / v) * n := by ring
      _ ≤ x * n := Nat.mul_le_mul_right n (Nat.mul_div_le x v)
      _ ≤ v * (x * r) := by omega
  · apply Nat.lt_of_mul_lt_mul_left (a := v)
    have hnext : x + 1 ≤ v * (x / v + 1) := Nat.lt_mul_div_succ x hv
    calc v * (x * r) < x * n + n := by omega
      _ = (x + 1) * n := by ring
      _ ≤ v * (x / v + 1) * n := mul_le_mul_right n hnext
      _ = v * ((x / v + 1) * n) := by ring

section

/- The scale is a square: its root `2 * h` is what is dropped at a time. -/
variable (hr : IsReciprocal (2 * h * (2 * h)) v r)

include hr

/-- **Multiplied back**: a quotient of which one digit is kept gives the dividend again, rounded. -/
theorem round_mul (hv : v ≤ h) (hx : x ≤ h) :
    (x * r / (2 * h) * v + h) / (2 * h) = x := by
  obtain ⟨e, he, hmul⟩ := hr.exists_excess
  have hh : 0 < h := lt_of_lt_of_le (zero_lt_of_lt he) hv
  have hscaled : x * r * v = (2 * h * x) * (2 * h) + x * e := by
    calc x * r * v = x * (v * r) := by ring
      _ = (2 * h * x) * (2 * h) + x * e := by
        rw [hmul]
        ring
  have hexcess : x * e ≤ h * h := Nat.mul_le_mul hx (Nat.le_of_lt (Nat.lt_of_lt_of_le he hv))
  have hfloor := Nat.div_mul_le_self (x * r) (2 * h)
  have hnext : x * r < (x * r / (2 * h) + 1) * (2 * h) := by
    have hdigit : 0 < 2 * h := Nat.mul_pos Nat.two_pos hh
    exact (div_lt_iff_lt_mul hdigit).mp (lt_succ_self _)
  -- neither the dropped digit nor the excess reaches a half
  have hlow : 2 * h * x < x * r / (2 * h) * v + v := by
    apply Nat.lt_of_mul_lt_mul_right (a := 2 * h)
    calc 2 * h * x * (2 * h) ≤ x * r * v := by omega
      _ < (x * r / (2 * h) + 1) * (2 * h) * v :=
        mul_lt_mul_of_pos_right hnext (zero_lt_of_lt he)
      _ = (x * r / (2 * h) * v + v) * (2 * h) := by ring
  have hhigh : x * r / (2 * h) * v < 2 * h * x + h := by
    apply Nat.lt_of_mul_lt_mul_right (a := 2 * h)
    calc x * r / (2 * h) * v * (2 * h) = x * r / (2 * h) * (2 * h) * v := by ring
      _ ≤ x * r * v := Nat.mul_le_mul_right v hfloor
      _ ≤ 2 * h * x * (2 * h) + h * h := by omega
      _ < 2 * h * x * (2 * h) + h * (2 * h) := by
        have hpos : 0 < h * h := mul_pos hh hh
        have htwice : h * (2 * h) = h * h + h * h := by ring
        omega
      _ = (2 * h * x + h) * (2 * h) := by ring
  apply Nat.div_eq_of_lt_le
  · rw [Nat.mul_comm x (2 * h)]
    omega
  · rw [Nat.add_mul x 1, Nat.one_mul, Nat.mul_comm x (2 * h)]
    omega

/-- **A multiple divided** leaves nothing behind the first digit. -/
theorem mul_div_mul (hx : x * v ≤ h) (hh : 0 < h) : x * v * r / (2 * h) = 2 * h * x := by
  obtain ⟨e, he, hmul⟩ := hr.exists_excess
  have hexcess : x * e ≤ x * v := mul_le_mul_left x (le_of_lt he)
  have hscaled : x * v * r = 2 * h * (2 * h * x) + x * e := by
    calc x * v * r = x * (v * r) := by ring
      _ = 2 * h * (2 * h * x) + x * e := by
        rw [hmul]
        ring
  rw [hscaled, mul_add_div (by omega), div_eq_of_lt (by omega), add_zero]

end

end IsReciprocal

end Reciprocals
