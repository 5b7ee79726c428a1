/-
# Bit fields of words

A field of a word is put together from flags and from the low bits of octets, each at its place, and
taken apart again by shifting and masking.
-/
import Mathlib.Algebra.Group.Nat.Defs
import Ns3Dsme.Lib.Octets

open BitVec

namespace BitFields

variable {n : ℕ}

/-- A flag at its place in a word. -/
def bit (b : Bool) (place : ℕ) : BitVec n := (BitVec.ofBool b).setWidth n <<< place

/-- Some bits of an octet at their place in a word. -/
def bits (a : Octet) (mask : BitVec n) (place : ℕ) : BitVec n :=
  (a.setWidth n <<< place) &&& (mask <<< place)

theorem getElem_bit (b : Bool) (place i : ℕ) (hi : i < n) :
    (bit b place : BitVec n)[i] = (decide (i = place) && b) := by
  unfold bit
  rw [← getLsbD_eq_getElem, getLsbD_shiftLeft, getLsbD_setWidth,
    getLsbD_ofBool]
  by_cases hlow : i < place
  · simp [hi, hlow, show i ≠ place by omega]
  · have hiff : decide (i - place = 0) = decide (i = place) := decide_eq_decide.mpr (by omega)
    simp [hi, hlow, show i - place < n by omega, hiff]

theorem getElem_bits (a : Octet) (mask : BitVec n) (place i : ℕ) (hi : i < n) :
    (bits a mask place)[i] =
      (decide (place ≤ i) && (a.getLsbD (i - place) && mask.getLsbD (i - place))) := by
  unfold bits
  rw [← getLsbD_eq_getElem, getLsbD_and, getLsbD_shiftLeft,
    getLsbD_shiftLeft, getLsbD_setWidth]
  by_cases hlow : i < place
  · simp [hlow, show ¬ place ≤ i by omega]
  · simp [hi, hlow, show i - place < n by omega, show place ≤ i by omega]

/-- Masking keeps a value that fits. -/
theorem and_eq_self {a mask : BitVec n} {k : ℕ} (hmask : mask.toNat = 2 ^ k - 1)
    (ha : a.toNat < 2 ^ k) : a &&& mask = a := by
  apply eq_of_toNat_eq
  rw [toNat_and, hmask, Nat.and_two_pow_sub_one_eq_mod, Nat.mod_eq_of_lt ha]

/-- What was masked fits. -/
theorem toNat_and_lt (a : BitVec n) {mask : BitVec n} {k : ℕ} (hmask : mask.toNat = 2 ^ k - 1) :
    (a &&& mask).toNat < 2 ^ k := by
  rw [toNat_and, hmask, Nat.and_two_pow_sub_one_eq_mod]
  exact Nat.mod_lt _ (Nat.two_pow_pos k)

end BitFields
