/-
# Conversions between units of time

`Time` keeps a number of time steps, and `SetResolution` says for every unit how it is converted:
by a factor, by its `int64x64_t`, or by the inverse of that with 128 bits behind the point.
-/
import Ns3Dsme.Core.Int64x64
import Mathlib.Algebra.Order.Field.Rat

namespace Ns3Dsme.Core

namespace Int64x64

inductive ConversionFault
  /-- `NS_ASSERT`. -/
  | assertFailed
  | arithmetic (fault : Fault)
  deriving DecidableEq

/-- `int64x64_t (long)`. -/
def ofInt64 (v : BitVec 64) : UInt128 := v.signExtend 128 <<< 64

/-- `int64x64_t (int64_t, uint64_t)`. -/
def ofHiLo (hi lo : BitVec 64) : UInt128 := hi.signExtend 128 <<< 64 ||| lo.setWidth 128

/-- `GetHigh`. -/
def getHigh (v : UInt128) : BitVec 64 := (v.sshiftRight 64).setWidth 64

/-- `GetInt`. -/
def getInt (v : UInt128) : BitVec 64 :=
  let negative := v.slt 0
  let value := if negative then -v else v
  let retval := (value >>> 64).setWidth 64
  if negative then -retval else retval

/-- `Round`. -/
def round (v : UInt128) : BitVec 64 :=
  let negative := v.slt 0
  let value := if negative then -v else v
  let half := ofHiLo 0 (1 <<< 63)
  let retval := getHigh (value + half)
  if negative then -retval else retval

/-- `UmulByInvert`. -/
def umulByInvert (a b : UInt128) : UInt128 :=
  let ah := a >>> 64
  let bh := b >>> 64
  let al := a &&& hpMaskLo.setWidth 128
  let bl := b &&& hpMaskLo.setWidth 128
  let hi := ah * bh
  let mid := ah * bl + al * bh
  hi + mid >>> 64

/-- `MulByInvert`. -/
def mulByInvert (v o : UInt128) : UInt128 :=
  let negResult := v.slt 0
  let a := if negResult then -v else v
  let result := umulByInvert a o
  if negResult then -result else result

/-- `Invert`. -/
def invert (v : BitVec 64) : Except ConversionFault UInt128 :=
  if ¬ 1 < v then .error .assertFailed
  else
    match udiv (1 <<< 64) (v.setWidth 128) with
    | .error fault => .error (.arithmetic fault)
    | .ok result =>
      let tmp := mulByInvert (ofHiLo v 0) result
      .ok (if getHigh tmp ≠ 1 then result + 1 else result)

end Int64x64

namespace Time

open Int64x64

/-- `Time::Unit`, without the markers. -/
inductive Unit
  | y
  | d
  | h
  | min
  | s
  | ms
  | us
  | ns
  | ps
  | fs
  deriving DecidableEq

/-- The units in the order of the enumeration, up to `LAST`. -/
def units : List Unit := [.y, .d, .h, .min, .s, .ms, .us, .ns, .ps, .fs]

/-- `UNIT_POWER`: scaling exponent, relative to the smallest unit. -/
def unitPower : Unit → ℕ
  | .y => 17
  | .d => 17
  | .h => 17
  | .min => 16
  | .s => 15
  | .ms => 12
  | .us => 9
  | .ns => 6
  | .ps => 3
  | .fs => 0

/-- `UNIT_COEFF`: scaling coefficient, relative to the smallest unit. -/
def unitCoeff : Unit → ℕ
  | .y => 315360
  | .d => 864
  | .h => 36
  | .min => 6
  | _ => 1

/-- `Scale`: a unit in terms of the smallest unit. -/
def scale (u : Unit) : ℕ := unitCoeff u * 10 ^ unitPower u

/-- `Information`. -/
structure Information where
  toMul : Bool
  fromMul : Bool
  factor : BitVec 64
  timeTo : UInt128
  timeFrom : UInt128
  isValid : Bool
  deriving DecidableEq

/-- `Resolution`. -/
structure Resolution where
  info : Unit → Information
  unit : Unit

/-- `quotient` of the coefficients; it must be exact. -/
def coeffQuotient (i unit : Unit) : Except ConversionFault ℕ :=
  if unitCoeff i > unitCoeff unit then
    let quotient := unitCoeff i / unitCoeff unit
    if quotient * unitCoeff unit = unitCoeff i then .ok quotient else .error .assertFailed
  else if unitCoeff i < unitCoeff unit then
    let quotient := unitCoeff unit / unitCoeff i
    if quotient * unitCoeff i = unitCoeff unit then .ok quotient else .error .assertFailed
  else .ok 1

/-- A turn of the loop of `SetResolution`.  What is a `double` in the source is exact here. -/
def setInformation (unit i : Unit) (info : Information) : Except ConversionFault Information := do
  let shift : ℤ := unitPower i - unitPower unit
  let quotient ← coeffQuotient i unit
  if 10 ^ shift.natAbs * quotient > 2 ^ 63 then
    -- the other fields keep what an earlier resolution has left there
    return { info with isValid := false }
  else
    let factor := BitVec.ofNat 64 (10 ^ shift.natAbs * quotient)
    let realFactor : ℚ := (10 : ℚ) ^ shift * unitCoeff i / unitCoeff unit
    if shift = 0 ∧ quotient = 1 then
      return ⟨true, true, factor, ofInt64 1, ofInt64 1, true⟩
    else if realFactor > 1 then
      return ⟨false, true, factor, ← invert factor, ofInt64 factor, true⟩
    else if realFactor < 1 then
      return ⟨true, false, factor, ofInt64 factor, ← invert factor, true⟩
    else .error .assertFailed

/-- The loop of `SetResolution`, over the units that are left. -/
def setInformations (unit : Unit) : List Unit → (Unit → Information) →
    Except ConversionFault (Unit → Information)
  | [], info => .ok info
  | i :: is, info => do
    let changed ← setInformation unit i (info i)
    setInformations unit is (Function.update info i changed)

/-- `SetResolution`, for a record and without conversion of the times that exist. -/
def setResolution (unit : Unit) (resolution : Resolution) : Except ConversionFault Resolution := do
  let info ← setInformations unit units resolution.info
  return ⟨info, unit⟩

namespace Resolution

variable (r : Resolution)

/-- `Time::FromInteger`; a time is its `m_data`. -/
def fromInteger (value : BitVec 64) (unit : Unit) : Except ConversionFault (BitVec 64) :=
  let info := r.info unit
  if ¬ info.isValid then .error .assertFailed
  else if info.fromMul then .ok (value * info.factor)
  else .ok (value / info.factor)

/-- `Time::From`. -/
def fromUnit (value : UInt128) (unit : Unit) : Except ConversionFault (BitVec 64) :=
  let info := r.info unit
  if ¬ info.isValid then .error .assertFailed
  else if info.fromMul then
    match mul value info.timeFrom with
    | .error fault => .error (.arithmetic fault)
    | .ok retval => .ok (round retval)
  else .ok (round (mulByInvert value info.timeFrom))

/-- `ToInteger`. -/
def toInteger (data : BitVec 64) (unit : Unit) : Except ConversionFault (BitVec 64) :=
  let info := r.info unit
  if ¬ info.isValid then .error .assertFailed
  else if info.toMul then .ok (data * info.factor)
  else .ok (data.sdiv info.factor)

/-- `To`. -/
def toUnit (data : BitVec 64) (unit : Unit) : Except ConversionFault UInt128 :=
  let info := r.info unit
  if ¬ info.isValid then .error .assertFailed
  else if info.toMul then
    match mul (ofInt64 data) info.timeTo with
    | .error fault => .error (.arithmetic fault)
    | .ok retval => .ok retval
  else .ok (mulByInvert (ofInt64 data) info.timeTo)

end Resolution

/-! ## What is expected -/

/-- The conversion of a time step does not overflow: it can be negated, and a multiple can be
represented. -/
def Convertible (info : Information) (t : BitVec 64) : Prop :=
  t ≠ BitVec.intMin 64 ∧ (info.toMul = true → -2 ^ 63 ≤ t.toInt * info.factor.toInt ∧
    t.toInt * info.factor.toInt < 2 ^ 63)

/-- Whether a division by way of the inverse truncates toward zero. -/
def InvertExact (v : BitVec 64) : Prop :=
  ∃ inverse, invert v = .ok inverse ∧ ∀ x : BitVec 64, x ≠ BitVec.intMin 64 →
    (getInt (mulByInvert (ofInt64 x) inverse)).toInt = x.toInt.tdiv v.toNat

/-- A time step that can be converted to the unit comes back. -/
def ToFrom (r : Resolution) (unit : Unit) : Prop :=
  ∀ t, Convertible (r.info unit) t → ∃ x, r.toUnit t unit = .ok x ∧ r.fromUnit x unit = .ok t

/-- A whole number of units whose multiple can be represented comes back. -/
def FromTo (r : Resolution) (unit : Unit) : Prop :=
  ∀ n : BitVec 64, -2 ^ 63 ≤ n.toInt * (r.info unit).factor.toInt →
    n.toInt * (r.info unit).factor.toInt < 2 ^ 63 →
      ∃ t, r.fromInteger n unit = .ok t ∧ r.toInteger t unit = .ok n

end Time

end Ns3Dsme.Core
