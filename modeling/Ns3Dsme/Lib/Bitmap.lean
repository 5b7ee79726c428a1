/-
# Bitmaps in octets

Bit `i` of a bitmap is bit `i % 8` of its octet `i / 8`.
-/
import Mathlib.Data.List.Basic
import Ns3Dsme.Lib.Octets

namespace Bitmap

/-- The octet with one bit. -/
def mask (i : ℕ) : Octet := 1#8 <<< (i % 8)

/-- Set a bit. -/
def mark (xs : List Octet) (i : ℕ) : List Octet := xs.modify (i / 8) fun a => a ||| mask i

/-- Whether a bit is set. -/
def test (xs : List Octet) (i : ℕ) : Bool := (xs.getD (i / 8) 0).getLsbD (i % 8)

theorem getLsbD_mask (i k : ℕ) : (mask i).getLsbD k = decide (k = i % 8) := by
  have hi : i % 8 < 8 := Nat.mod_lt _ (by decide)
  unfold mask
  rw [BitVec.getLsbD_shiftLeft, BitVec.getLsbD_one]
  by_cases hk : k = i % 8
  · subst hk
    simp [hi]
  · have hsub : k < i % 8 ∨ k - i % 8 ≠ 0 := by omega
    rcases hsub with hlow | hne
    · simp [hlow, hk]
    · simp [hne, hk]

/-- A mask takes out its own bit. -/
theorem and_mask_ne_zero (a : Octet) (i : ℕ) : (a &&& mask i ≠ 0) ↔ a.getLsbD (i % 8) = true := by
  have hi : i % 8 < 8 := Nat.mod_lt _ (by decide)
  constructor
  · intro h
    by_contra hbit
    apply h
    apply BitVec.eq_of_getLsbD_eq
    intro k hk
    rw [BitVec.getLsbD_and, getLsbD_mask]
    by_cases hki : k = i % 8
    · subst hki
      simp [Bool.eq_false_iff.mpr hbit]
    · simp [hki]
  · intro hbit hzero
    have h := congrArg (·.getLsbD (i % 8)) hzero
    simp [BitVec.getLsbD_and, getLsbD_mask, hbit] at h

@[simp] theorem length_mark (xs : List Octet) (i : ℕ) : (mark xs i).length = xs.length :=
  List.length_modify ..

/-- **Setting a bit** sets that bit and no other. -/
theorem test_mark {xs : List Octet} {i : ℕ} (hi : i / 8 < xs.length) (j : ℕ) :
    test (mark xs i) j = (test xs j || decide (j = i)) := by
  unfold test mark
  rw [List.getD_eq_getElem?_getD, List.getD_eq_getElem?_getD, List.getElem?_modify]
  by_cases hsame : i / 8 = j / 8
  · -- the octet that is changed
    have hiff : decide (j % 8 = i % 8) = decide (j = i) := decide_eq_decide.mpr (by omega)
    rw [← hsame, List.getElem?_eq_getElem hi]
    simp [BitVec.getLsbD_or, getLsbD_mask, hiff]
  · have hne : j ≠ i := fun h => hsame (by rw [h])
    simp [hsame, hne]

theorem test_replicate_zero (n i : ℕ) : test (List.replicate n 0) i = false := by
  unfold test
  rw [List.getD_eq_getElem?_getD, List.getElem?_replicate]
  split
  · exact BitVec.getLsbD_zero
  · exact BitVec.getLsbD_zero

end Bitmap
