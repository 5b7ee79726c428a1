/-
# Unsigned words of 32 bits as numbers

Sums and differences are taken modulo `2 ^ 32`; where nothing wraps around they are those of the
numbers.
-/
import Mathlib.Algebra.Group.Nat.Defs

namespace Word32

/-- `a + b` on `uint32_t`. -/
def add (a b : ℕ) : ℕ := (a + b) % 2 ^ 32

/-- `a - b` on `uint32_t`. -/
def sub (a b : ℕ) : ℕ := (a + (2 ^ 32 - b % 2 ^ 32)) % 2 ^ 32

theorem add_eq {a b : ℕ} (h : a + b < 2 ^ 32) : add a b = a + b := Nat.mod_eq_of_lt h

theorem sub_eq {a b : ℕ} (hb : b ≤ a) (ha : a < 2 ^ 32) : sub a b = a - b := by
  unfold sub
  rw [Nat.mod_eq_of_lt (by omega : b < 2 ^ 32)]
  omega

/-- Adding a difference moves by it, even if the difference wraps around. -/
theorem add_sub {a b c : ℕ} (hb : b ≤ a + c) (ha : a + c < 2 ^ 32 + b) (hb' : b < 2 ^ 32) :
    add a (sub c b) = a + c - b := by
  unfold add sub
  rw [Nat.mod_eq_of_lt hb']
  omega

end Word32
