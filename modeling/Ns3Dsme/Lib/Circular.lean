/-
# Numbers counted around a circle

A counter that wraps around at `M`, next to the number it would have without wrapping.  As long
as two numbers are less than `M` apart, the distance around the circle is their difference.
-/
import Mathlib.Algebra.Group.Nat.Defs
import Mathlib.Algebra.Order.Group.Nat

namespace Circular

/-- How many steps lead from `b` forward to `a` on a circle of `M` numbers. -/
def distance (M a b : ℕ) : ℕ := (a + M - b) % M

variable {M a b n base : ℕ}

theorem distance_lt (hM : 0 < M) : distance M a b < M :=
  Nat.mod_lt _ hM

/-- Of numbers less than `M` apart, the distance is the difference. -/
theorem distance_mod (hle : base ≤ n) (hlt : n < base + M) :
    distance M (n % M) (base % M) = n - base := by
  obtain ⟨k, rfl⟩ := Nat.exists_eq_add_of_le hle
  have hM : 0 < M := by omega
  have hr : base % M < M := Nat.mod_lt base hM
  have hk : k % M = k := Nat.mod_eq_of_lt (by omega)
  rw [Nat.add_sub_cancel_left]
  unfold distance
  rw [Nat.add_mod, hk]
  by_cases hwrap : base % M + k < M
  · rw [Nat.mod_eq_of_lt hwrap, show base % M + k + M - base % M = k + M by omega,
      Nat.add_mod_right, hk]
  · have hcut : (base % M + k) % M = base % M + k - M := by
      rw [Nat.mod_eq_sub_mod (by omega), Nat.mod_eq_of_lt (by omega)]
    rw [hcut, show base % M + k - M + M - base % M = k by omega, hk]

/-- Going the distance from `base` leads to a number that counts as `a`. -/
theorem add_distance_mod (ha : a < M) : (base + distance M a (base % M)) % M = a := by
  have hr : base % M < M := Nat.mod_lt base (by omega)
  unfold distance
  rw [Nat.add_mod, Nat.mod_mod, Nat.add_mod_mod, show base % M + (a + M - base % M) = a + M by omega,
    Nat.add_mod_right, Nat.mod_eq_of_lt ha]

/-- The number that counts as `a` and is the next one from `base` on. -/
def number (M base a : ℕ) : ℕ := base + distance M a (base % M)

theorem le_number : base ≤ number M base a := Nat.le_add_right _ _

theorem number_lt (hM : 0 < M) : number M base a < base + M :=
  Nat.add_lt_add_left (distance_lt hM) _

@[simp] theorem number_mod (ha : a < M) : number M base a % M = a := add_distance_mod ha

/-- A number less than `M` ahead is the one that it counts as. -/
theorem number_eq (hle : base ≤ n) (hlt : n < base + M) : number M base (n % M) = n := by
  unfold number
  rw [distance_mod hle hlt]
  omega

/-- From another base that is not ahead of the number, it is the same. -/
theorem number_rebase {base' : ℕ} (ha : a < M) (hle : base' ≤ number M base a)
    (hlt : number M base a < base' + M) : number M base' a = number M base a := by
  have hsame : number M base' (number M base a % M) = number M base a := number_eq hle hlt
  rwa [number_mod ha] at hsame

/-- Numbers of one base that count the same are the same. -/
theorem number_inj {a' : ℕ} (ha : a < M) (ha' : a' < M) (h : number M base a = number M base a') :
    a = a' := by
  have hmod : number M base a % M = a := number_mod ha
  rw [← hmod, h, number_mod ha']

end Circular
