/-
# Fixed-point numbers of 128 bits

`int64x64_t` over `int128_t`: 64 bits before the point and 64 behind it.  A product is added up from
the products of the halves, a quotient is made digit by digit.
-/
import Ns3Dsme.Lib.LongDivision

open LongDivision

namespace Ns3Dsme.Core.Int64x64

/-- `uint128_t`; `int128_t` is read with `toInt`, and its negation wraps. -/
abbrev UInt128 := BitVec 128

inductive Fault
  /-- `NS_ABORT_MSG_IF`. -/
  | aborted
  | divByZero
  /-- The loop over the digits goes on for ever. -/
  | endless
  deriving DecidableEq

/-- `HP_MASK_LO`, which is a `uint64_t`. -/
def hpMaskLo : BitVec 64 := 0xffffffffffffffff

/-- `HP_MASK_HI`. -/
def hpMaskHi : BitVec 64 := ~~~hpMaskLo

/-- `HP128_MASK_HI_BIT`. -/
def hp128MaskHiBit : UInt128 := 1 <<< 127

/-- `output_sign`: the magnitudes of the operands, and whether the result is negative. -/
def outputSign (sa sb : UInt128) : UInt128 × UInt128 × Bool :=
  let negA := sa.slt 0
  let negB := sb.slt 0
  (if negA then -sa else sa, if negB then -sb else sb, negA != negB)

/-- `Umul`. -/
def umul (a b : UInt128) : Except Fault UInt128 :=
  let aL := a &&& hpMaskLo.setWidth 128
  let bL := b &&& hpMaskLo.setWidth 128
  let aH := (a >>> 64) &&& hpMaskLo.setWidth 128
  let bH := (b >>> 64) &&& hpMaskLo.setWidth 128
  let loPart := aL * bL
  let midPart := aL * bH + aH * bL
  let hiPart := aH * bH
  if hiPart &&& hpMaskHi.setWidth 128 ≠ 0 then .error .aborted
  else
    .ok ((loPart >>> 64) + (midPart &&& hpMaskLo.setWidth 128) +
      (((midPart >>> 64) + (hiPart &&& hpMaskLo.setWidth 128)) <<< 64))

/-- `Mul`. -/
def mul (v o : UInt128) : Except Fault UInt128 :=
  let (a, b, negative) := outputSign v o
  (umul a b).map fun result => if negative then -result else result

/-! ## Division -/

/-- The variables of the loops of `Udiv`. -/
structure Digits where
  rem : UInt128
  den : UInt128
  result : UInt128
  digis : ℕ
  shift : ℕ
  deriving DecidableEq

/-- `DIGITS`. -/
def maxDigits : ℕ := 64

/-- `while ((digis + shift < DIGITS) && test) { body }`, with the number of digits that are still
needed. -/
def whileNeeded (test : Digits → Bool) (body : Digits → Digits) : ℕ → Digits → Digits
  | 0, d => d
  | needed + 1, d =>
    if test d then whileNeeded test body needed (body d) else d

def halveDen (d : Digits) : Digits := { d with shift := d.shift + 1, den := d.den >>> 1 }

def doubleRem (d : Digits) : Digits := { d with shift := d.shift + 1, rem := d.rem <<< 1 }

def Digits.needed (d : Digits) : ℕ := maxDigits - (d.digis + d.shift)

/-- Skip trailing zeros in the divisor. -/
def skipTrailing (d : Digits) : Digits :=
  whileNeeded (fun d => d.den &&& 1 == 0) halveDen d.needed d

/-- Skip leading zeros in the remainder. -/
def skipLeading (d : Digits) : Digits :=
  whileNeeded (fun d => d.rem &&& hp128MaskHiBit == 0) doubleRem d.needed d

/-- Cast off bits of the divisor. -/
def castOff (d : Digits) : Digits :=
  whileNeeded (fun d => d.den &&& 1 == 0 || decide (d.rem < d.den)) halveDen d.needed d

/-- Do the division, and add in the quotient. -/
def divide (d : Digits) : Digits :=
  ⟨d.rem % d.den, d.den, (d.result <<< d.shift) + d.rem / d.den, d.digis + d.shift, 0⟩

/-- The loop over the digits; nothing where the fuel runs out. -/
def digitLoop : ℕ → Digits → Option Digits
  | 0, d => if d.digis < maxDigits ∧ d.rem ≠ 0 then none else some d
  | fuel + 1, d =>
    if d.digis < maxDigits ∧ d.rem ≠ 0 then digitLoop fuel (divide (castOff (skipLeading d)))
    else some d

/-- `Udiv`. -/
def udiv (a b : UInt128) : Except Fault UInt128 :=
  if b = 0 then .error .divByZero
  else
    match digitLoop maxDigits (skipTrailing ⟨a % b, b, a / b, 0, 0⟩) with
    | some d =>
      .ok (if d.digis < maxDigits then d.result <<< (maxDigits - d.digis) else d.result)
    | none => .error .endless

/-- `Div`. -/
def div (v o : UInt128) : Except Fault UInt128 :=
  let (a, b, negative) := outputSign v o
  (udiv a b).map fun result => if negative then -result else result

/-! ## What is expected -/

/-- The exact product, truncated toward zero to 64 fractional bits. -/
def product (v o : UInt128) : ℤ := (v.toInt * o.toInt).tdiv (2 ^ 64)

/-- The exact quotient, truncated toward zero to 64 fractional bits. -/
def quotient (v o : UInt128) : ℤ := (v.toInt * 2 ^ 64).tdiv o.toInt

/-- A product is exact where its magnitude can be represented, and aborts where not. -/
structure MulExact (v o : UInt128) : Prop where
  exact : (product v o).natAbs < 2 ^ 127 → ∃ r, mul v o = .ok r ∧ r.toInt = product v o
  aborts : 2 ^ 127 ≤ (product v o).natAbs → mul v o = .error .aborted

/-- A quotient that can be represented is exact. -/
def DivExact (v o : UInt128) : Prop :=
  o ≠ 0 → -2 ^ 127 ≤ quotient v o → quotient v o < 2 ^ 127 →
    ∃ r, div v o = .ok r ∧ r.toInt = quotient v o

end Ns3Dsme.Core.Int64x64
