/-
# Cyclic redundancy checks

A shift register with feedback that reads a message bit by bit, the lowest bit first, as in the
reflected forms of a cyclic redundancy check.  The register is linear in its content and in the
message, and if the polynomial has a constant term, no bit that is read is ever forgotten: a
burst of errors that is not longer than the register leaves it different.
-/
import Mathlib.Data.List.GetD
import Mathlib.Data.Nat.Notation
import Mathlib.Logic.Function.Iterate

namespace Crc

variable {w : ℕ} (poly : BitVec w)

/-- Shift the register by one bit; the polynomial is fed back if a 1 falls out.  `poly` is
reflected, so its highest bit stands for the constant term. -/
def step (r : BitVec w) : BitVec w := if r.getLsbD 0 then (r >>> 1) ^^^ poly else r >>> 1

/-- A number of shifts without input. -/
def steps (n : ℕ) : BitVec w → BitVec w := (step poly)^[n]

/-- Read a bit. -/
def feed (r : BitVec w) (b : Bool) : BitVec w := step poly (r ^^^ (BitVec.ofBool b).setWidth w)

/-- The register after a message. -/
def register (r : BitVec w) (message : List Bool) : BitVec w := message.foldl (feed poly) r

/-! ## Shifts are linear -/

theorem xor_xor_self (a b p : BitVec w) : (a ^^^ p) ^^^ (b ^^^ p) = a ^^^ b := by
  rw [BitVec.xor_assoc, BitVec.xor_comm b p, ← BitVec.xor_assoc p, BitVec.xor_self,
    BitVec.zero_xor]

theorem step_xor (a b : BitVec w) : step poly (a ^^^ b) = step poly a ^^^ step poly b := by
  unfold step
  rw [BitVec.getLsbD_xor, BitVec.ushiftRight_xor_distrib]
  cases a.getLsbD 0 <;> cases b.getLsbD 0
  · rfl
  · exact BitVec.xor_assoc _ _ _
  · show a >>> 1 ^^^ b >>> 1 ^^^ poly = (a >>> 1 ^^^ poly) ^^^ b >>> 1
    rw [BitVec.xor_assoc, BitVec.xor_comm (b >>> 1), ← BitVec.xor_assoc]
  · exact (xor_xor_self _ _ _).symm

@[simp] theorem step_zero : step poly 0 = 0 := by
  unfold step
  simp

theorem steps_succ (n : ℕ) (r : BitVec w) : steps poly (n + 1) r = steps poly n (step poly r) :=
  rfl

theorem steps_xor (n : ℕ) (a b : BitVec w) :
    steps poly n (a ^^^ b) = steps poly n a ^^^ steps poly n b := by
  induction n generalizing a b with
  | zero => rfl
  | succ n ih => rw [steps_succ, steps_succ, steps_succ, step_xor, ih]

theorem steps_zero (n : ℕ) : steps poly n 0 = 0 := by
  induction n with
  | zero => rfl
  | succ n ih => rw [steps_succ, step_zero, ih]

/-- With a constant term a shift loses nothing. -/
theorem eq_zero_of_step {poly : BitVec w} (hpoly : poly.msb = true) {r : BitVec w}
    (h : step poly r = 0) : r = 0 := by
  unfold step at h
  split at h
  · -- the highest bit is that of the polynomial
    have hhigh : (r >>> 1).msb = false := by simp [BitVec.msb_ushiftRight]
    have hbit := congrArg BitVec.msb h
    rw [BitVec.msb_xor, hpoly, hhigh] at hbit
    simp at hbit
  · rename_i hlow
    rw [Bool.not_eq_true] at hlow
    apply BitVec.eq_of_getLsbD_eq
    intro i hi
    cases i with
    | zero =>
      rw [hlow]
      simp
    | succ i =>
      have hbit := congrArg (fun v : BitVec w => v.getLsbD i) h
      simpa [Nat.add_comm] using hbit

theorem eq_zero_of_steps {poly : BitVec w} (hpoly : poly.msb = true) (n : ℕ) {r : BitVec w}
    (h : steps poly n r = 0) : r = 0 := by
  induction n generalizing r with
  | zero => exact h
  | succ n ih => exact eq_zero_of_step hpoly (ih h)

/-! ## Messages -/

theorem feed_xor (a b : BitVec w) (x y : Bool) :
    feed poly (a ^^^ b) (xor x y) = feed poly a x ^^^ feed poly b y := by
  have hbit : (BitVec.ofBool (xor x y)).setWidth w
      = (BitVec.ofBool x).setWidth w ^^^ (BitVec.ofBool y).setWidth w := by
    cases x <;> cases y <;> simp
  unfold feed
  rw [hbit, ← step_xor]
  congr 1
  ac_rfl

theorem feed_false (r : BitVec w) : feed poly r false = step poly r := by
  unfold feed
  simp

theorem register_append (r : BitVec w) (xs ys : List Bool) :
    register poly r (xs ++ ys) = register poly (register poly r xs) ys := List.foldl_append

/-- The register is linear in its content and in the message. -/
theorem register_xor (xs ys : List Bool) (hlength : xs.length = ys.length) (a b : BitVec w) :
    register poly (a ^^^ b) (List.zipWith xor xs ys)
      = register poly a xs ^^^ register poly b ys := by
  induction xs generalizing ys a b with
  | nil =>
    obtain rfl := List.eq_nil_of_length_eq_zero hlength.symm
    rfl
  | cons x xs ih =>
    cases ys with
    | nil => cases hlength
    | cons y ys =>
      show register poly (feed poly (a ^^^ b) (xor x y)) (List.zipWith xor xs ys) = _
      rw [feed_xor]
      exact ih ys (Nat.succ.inj hlength) _ _

theorem register_replicate_false (k : ℕ) (r : BitVec w) :
    register poly r (List.replicate k false) = steps poly k r := by
  induction k generalizing r with
  | zero => rfl
  | succ k ih =>
    show register poly (feed poly r false) (List.replicate k false) = _
    rw [feed_false, ih, steps_succ]

/-! ## Short messages as words -/

/-- The word with the bits of a message, the first one lowest. -/
def word (w : ℕ) : List Bool → BitVec w
  | [] => 0
  | b :: bs => (BitVec.ofBool b).setWidth w ^^^ word w bs <<< 1

theorem word_cons (b : Bool) (bs : List Bool) :
    word w (b :: bs) = (BitVec.ofBool b).setWidth w ^^^ word w bs <<< 1 := rfl

theorem getLsbD_word (message : List Bool) (i : ℕ) (hi : i < w) :
    (word w message).getLsbD i = message.getD i false := by
  induction message generalizing i with
  | nil => simp [word]
  | cons b bs ih =>
    rw [word_cons]
    cases i with
    | zero => cases b <;> simp [hi]
    | succ i =>
      have hlt : i < w := by omega
      rw [List.getD_cons_succ, ← ih i hlt]
      cases b <;> simp [hi, hlt]

/-- A message that is shorter than the register leaves the highest bit clear. -/
theorem msb_word (message : List Bool) (h : message.length < w) :
    (word w message).msb = false := by
  rw [BitVec.msb_eq_getLsbD_last, getLsbD_word message (w - 1) (by omega)]
  exact List.getD_eq_default _ _ (by omega)

/-- A message with a 1 in it is not the word 0. -/
theorem word_ne_zero (message : List Bool) (hlength : message.length ≤ w) (hone : true ∈ message) :
    word w message ≠ 0 := by
  obtain ⟨i, hi, hbit⟩ := List.mem_iff_getElem.mp hone
  intro hzero
  have hword := getLsbD_word message i (by omega : i < w)
  rw [hzero, List.getD_eq_getElem _ _ hi, hbit] at hword
  simp at hword

/-- A shift takes back the last one. -/
theorem step_shiftLeft (r : BitVec w) (h : r.msb = false) : step poly (r <<< 1) = r := by
  unfold step
  have hlow : (r <<< 1).getLsbD 0 = false := by simp
  rw [hlow, if_neg Bool.false_ne_true]
  apply BitVec.eq_of_getLsbD_eq
  intro i hi
  rw [BitVec.msb_eq_getLsbD_last] at h
  rw [BitVec.getLsbD_ushiftRight, BitVec.getLsbD_shiftLeft]
  by_cases hlast : i = w - 1
  · subst hlast
    rw [h]
    simp
    omega
  · simp
    omega

/-- A message that is not longer than the register is read as a word. -/
theorem register_eq_steps (message : List Bool) (hlength : message.length ≤ w) (r : BitVec w) :
    register poly r message = steps poly message.length (r ^^^ word w message) := by
  induction message generalizing r with
  | nil =>
    show r = r ^^^ word w []
    unfold word
    simp
  | cons b bs ih =>
    rw [List.length_cons] at hlength
    show register poly (feed poly r b) bs = steps poly bs.length (step poly (r ^^^ word w (b :: bs)))
    rw [ih (by omega), word_cons, ← BitVec.xor_assoc, step_xor poly (r ^^^ _),
      step_shiftLeft poly _ (msb_word bs hlength)]
    rfl

/-! ## Errors -/

/-- Reading the content of the register, the lowest bit first, clears it. -/
theorem register_eq_zero_iff {poly : BitVec w} (hpoly : poly.msb = true) (r : BitVec w)
    (message : List Bool) (hlength : message.length ≤ w) :
    register poly r message = 0 ↔ r = word w message := by
  rw [register_eq_steps poly message hlength]
  constructor
  · intro h
    exact BitVec.xor_eq_zero_iff.mp (eq_zero_of_steps hpoly _ h)
  · rintro rfl
    rw [BitVec.xor_self]
    exact steps_zero poly _

/-- **Bursts are detected.**  A burst of errors that is not longer than the register is not read
as nothing. -/
theorem register_burst_ne_zero {poly : BitVec w} (hpoly : poly.msb = true) (before : ℕ)
    (burst : List Bool) (after : ℕ) (hlength : burst.length ≤ w) (hone : true ∈ burst) :
    register poly 0 (List.replicate before false ++ burst ++ List.replicate after false) ≠ 0 := by
  rw [register_append, register_append, register_replicate_false, register_replicate_false,
    steps_zero]
  intro h
  have hburst := (register_eq_zero_iff hpoly 0 burst hlength).mp (eq_zero_of_steps hpoly _ h)
  exact word_ne_zero burst hlength hone hburst.symm

end Crc
