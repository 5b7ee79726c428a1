/-
# Conversions between units of time are exact

The inverse of a factor is its reciprocal with 128 binary digits, rounded up.  A time step divided
by it is the floor; converted to a unit and back, it comes back in either direction.
-/
import Ns3Dsme.Core.TimeConversion
import Ns3Dsme.Core.Int64x64Exact
import Ns3Dsme.Lib.Reciprocals
import Mathlib.Algebra.Order.Field.Basic

open BitVec Nat BitVec Reciprocals

namespace Ns3Dsme.Core

namespace Int64x64

/-! ## Whole numbers and signs -/

theorem toInt_ofInt64 (x : BitVec 64) : (ofInt64 x).toInt = x.toInt * 2 ^ 64 := by
  have hlow := le_toInt x
  have hhigh := toInt_lt (x := x)
  have hscale : (twoPow 128 64).toInt = 2 ^ 64 := by decide
  unfold ofInt64
  rw [shiftLeft_eq_mul_twoPow, toInt_mul, hscale,
    toInt_signExtend_of_le (by decide)]
  apply Int.bmod_eq_of_le
  · omega
  · omega

/-- No whole number but the least one is the least number. -/
theorem ofInt64_ne_intMin {x : BitVec 64} (hx : x ≠ intMin 64) :
    ofInt64 x ≠ intMin 128 := by
  intro hmin
  apply hx
  have hvalue := toInt_ofInt64 x
  rw [hmin] at hvalue
  have hleast : (intMin 128).toInt = -2 ^ 127 := by decide
  have hleast' : (intMin 64).toInt = -2 ^ 63 := by decide
  apply eq_of_toInt_eq
  omega

/-- The magnitude of an operand, the minimum included. -/
theorem toNat_magnitude (x : UInt128) :
    (if x.slt 0 then -x else x).toNat = x.toInt.natAbs := by
  by_cases hmin : x = intMin 128
  · rw [hmin]
    decide
  · obtain ⟨hsigned, -⟩ := toInt_eq_signed hmin
    rw [hsigned, natAbs_signed]

theorem slt_zero (x : UInt128) : x.slt 0 = decide (x.toInt < 0) := by
  rw [slt_eq_decide]
  rfl

theorem signed_natAbs (z : ℤ) : signed (decide (z < 0)) z.natAbs = z := by
  by_cases hneg : z < 0
  · rw [decide_eq_true hneg]
    show -(z.natAbs : ℤ) = z
    omega
  · rw [decide_eq_false hneg]
    show (z.natAbs : ℤ) = z
    omega

/-- The sign of a number, where it matters. -/
theorem signed_sign {s : Bool} {m k : ℕ} (hk : m = 0 → k = 0) :
    signed (decide (signed s m < 0)) k = signed s k := by
  cases s with
  | true =>
    by_cases hm : m = 0
    · rw [hk hm, hm]
      rfl
    · have hneg : signed true m < 0 := by
        show -(m : ℤ) < 0
        omega
      rw [decide_eq_true hneg]
  | false =>
    have hnot : ¬ signed false m < 0 := Int.not_lt_of_ge (Int.natCast_nonneg m)
    rw [decide_eq_false hnot]

/-- The sign of a result is put back, in 64 bits. -/
theorem toInt_signed64 {r : BitVec 64} {m : ℕ} (hr : r.toNat = m) (negative : Bool)
    (hm : m < 2 ^ 63) : (if negative then -r else r).toInt = signed negative m := by
  have hword : r = BitVec.ofInt 64 m := by
    apply eq_of_toNat_eq
    rw [hr, ofInt_natCast, toNat_ofNat, mod_eq_of_lt (by omega)]
  cases negative with
  | true =>
    show (-r).toInt = -(m : ℤ)
    rw [hword, ← ofInt_neg, toInt_ofInt]
    exact Int.bmod_eq_of_le (by omega) (by omega)
  | false =>
    show r.toInt = (m : ℤ)
    rw [hword, toInt_ofInt]
    exact Int.bmod_eq_of_le (by omega) (by omega)

/-- `GetInt` truncates a magnitude. -/
theorem toInt_getInt {v : UInt128} {negative : Bool} {m : ℕ} (hv : v.toInt = signed negative m)
    (hm : m < 2 ^ 127) : (getInt v).toInt = signed negative (m / 2 ^ 64) := by
  have hsigned : (getInt v).toInt = signed (decide (v.toInt < 0)) (m / 2 ^ 64) := by
    unfold getInt
    dsimp only
    rw [← slt_zero]
    apply toInt_signed64
    · rw [toNat_setWidth, toNat_ushiftRight, shiftRight_eq_div_pow,
        toNat_magnitude, hv, natAbs_signed]
      omega
    · omega
  rw [hsigned, hv]
  apply signed_sign
  omega

/-- The integer portion of a number that is not negative. -/
theorem toNat_getHigh {v : UInt128} (hv : v.toNat < 2 ^ 127) :
    (getHigh v).toNat = v.toNat / 2 ^ 64 := by
  have hmsb : v.msb = false := by
    rw [msb_eq_decide]
    exact decide_eq_false (by omega)
  unfold getHigh
  rw [sshiftRight_eq_of_msb_false hmsb, toNat_setWidth, toNat_ushiftRight,
    shiftRight_eq_div_pow]
  omega

/-- `Round` rounds a magnitude, a half away from zero. -/
theorem toInt_round {v : UInt128} {negative : Bool} {m : ℕ} (hv : v.toInt = signed negative m)
    (hm : m + 2 ^ 63 < 2 ^ 127) :
    (round v).toInt = signed negative ((m + 2 ^ 63) / 2 ^ 64) := by
  have hsigned : (round v).toInt = signed (decide (v.toInt < 0)) ((m + 2 ^ 63) / 2 ^ 64) := by
    have hhalf : (ofHiLo 0 (1 <<< 63)).toNat = 2 ^ 63 := by decide
    have hsum : ((if v.slt 0 then -v else v) + ofHiLo 0 (1 <<< 63)).toNat = m + 2 ^ 63 := by
      rw [toNat_add, toNat_magnitude, hhalf, hv, natAbs_signed]
      omega
    unfold round
    dsimp only
    rw [← slt_zero]
    apply toInt_signed64
    · rw [toNat_getHigh (by omega), hsum]
    · omega
  rw [hsigned, hv]
  apply signed_sign
  omega

/-! ## The inverse -/

/-- The partial products that are left out belong to the low half of the dividend. -/
theorem toNat_umulByInvert {a b : UInt128} {m : ℕ} (ha : a.toNat = m * 2 ^ 64) :
    (umulByInvert a b).toNat = m * b.toNat / 2 ^ 64 := by
  have hlt := a.isLt
  have hblt := b.isLt
  have hm : m < 2 ^ 64 := by omega
  have hbound : m * b.toNat < 2 ^ 64 * 2 ^ 128 := by
    exact mul_lt_mul'' hm hblt
  have hhalves : m * b.toNat = m * (b.toNat / 2 ^ 64) * 2 ^ 64 + m * (b.toNat % 2 ^ 64) := by
    calc m * b.toNat = m * (b.toNat / 2 ^ 64 * 2 ^ 64 + b.toNat % 2 ^ 64) := by
          rw [div_add_mod']
      _ = _ := by ring
  have hhigh : m * (b.toNat / 2 ^ 64) < 2 ^ 64 * 2 ^ 64 := by
    exact mul_lt_mul'' hm (by omega)
  have hlow : m * (b.toNat % 2 ^ 64) < 2 ^ 64 * 2 ^ 64 := by
    exact mul_lt_mul'' hm (by omega)
  have hah : (a >>> 64).toNat = m := by
    rw [toNat_ushiftRight, shiftRight_eq_div_pow, ha]
    omega
  have hal : (a &&& hpMaskLo.setWidth 128).toNat = 0 := by
    rw [toNat_and_hpMaskLo, ha]
    omega
  have hbh : (b >>> 64).toNat = b.toNat / 2 ^ 64 := by
    rw [toNat_ushiftRight, shiftRight_eq_div_pow]
  unfold umulByInvert
  dsimp only
  rw [toNat_add, toNat_ushiftRight, toNat_add, toNat_mul,
    toNat_mul, toNat_mul, hah, hal, hbh, toNat_and_hpMaskLo,
    Nat.shiftRight_eq_div_pow, hhalves, Nat.zero_mul]
  omega

/-- **Multiplied by an inverse**, a whole number keeps its sign. -/
theorem toInt_mulByInvert {v o : UInt128} {k : ℤ} (hv : v.toInt = k * 2 ^ 64)
    (hk : k.natAbs ≤ 2 ^ 63) (ho : o.toNat ≤ 2 ^ 127) :
    (mulByInvert v o).toInt = signed (decide (k < 0)) (k.natAbs * o.toNat / 2 ^ 64) ∧
      k.natAbs * o.toNat / 2 ^ 64 ≤ 2 ^ 126 := by
  have hmagnitude : (if v.slt 0 then -v else v).toNat = k.natAbs * 2 ^ 64 := by
    rw [toNat_magnitude, hv, Int.natAbs_mul]
    rfl
  have hsign : v.slt 0 = decide (k < 0) := by
    rw [slt_zero, decide_eq_decide]
    omega
  have hproduct := toNat_umulByInvert (b := o) hmagnitude
  have hbound : k.natAbs * o.toNat ≤ 2 ^ 63 * 2 ^ 127 := Nat.mul_le_mul hk ho
  have hsmall : k.natAbs * o.toNat / 2 ^ 64 ≤ 2 ^ 126 := by omega
  refine ⟨?_, hsmall⟩
  unfold mulByInvert
  dsimp only
  rw [hsign] at hproduct ⊢
  apply toInt_signed
  · rw [hproduct, mod_eq_of_lt (by omega)]
  · cases decide (k < 0) with
    | true =>
      show -2 ^ 127 ≤ -((k.natAbs * o.toNat / 2 ^ 64 : ℕ) : ℤ)
      omega
    | false =>
      show -2 ^ 127 ≤ ((k.natAbs * o.toNat / 2 ^ 64 : ℕ) : ℤ)
      omega
  · cases decide (k < 0) with
    | true =>
      show -((k.natAbs * o.toNat / 2 ^ 64 : ℕ) : ℤ) < 2 ^ 127
      omega
    | false =>
      show ((k.natAbs * o.toNat / 2 ^ 64 : ℕ) : ℤ) < 2 ^ 127
      omega

/-- The reciprocal of a factor is not above a half. -/
theorem toNat_le_of_isReciprocal {v : BitVec 64} {r : UInt128} (hone : 1 < v.toNat)
    (hr : IsReciprocal (2 ^ 128) v.toNat r.toNat) : r.toNat ≤ 2 ^ 127 := by
  have hscale : (2 : ℕ) ^ 128 = 2 * 2 ^ 127 := rfl
  rw [hscale] at hr
  exact hr.le_of_two_le hone

/-- **`Invert` is the reciprocal rounded up.** -/
theorem exists_invert {v : BitVec 64} (hone : 1 < v.toNat) (hlt : v.toNat < 2 ^ 63) :
    ∃ inverse, invert v = .ok inverse ∧ IsReciprocal (2 ^ 128) v.toNat inverse.toNat := by
  have hv : (v.setWidth 128).toNat = v.toNat := by
    rw [toNat_setWidth, mod_eq_of_lt (by omega)]
  have hne : v.setWidth 128 ≠ 0 := by
    intro hzero
    rw [hzero] at hv
    have hzero' : (0 : UInt128).toNat = 0 := rfl
    omega
  obtain ⟨result, hdiv, hresult⟩ := udiv_spec (a := 1 <<< 64) (b := v.setWidth 128)
    (by omega) hne
  have hdividend : (1 <<< 64 : UInt128).toNat * 2 ^ 64 = 2 ^ 128 := by decide
  have hfloor : 2 ^ 128 / v.toNat ≤ 2 ^ 127 := Nat.div_le_of_le_mul (by omega)
  rw [hdividend, hv, Nat.mod_eq_of_lt (by omega)] at hresult
  -- the test multiplies it by the factor
  have htoInt : (ofHiLo v 0).toInt = (v.toNat : ℤ) * 2 ^ 64 := by
    have hlo : (ofHiLo v 0) = ofInt64 v := by
      unfold ofHiLo ofInt64
      have hzero : (0 : BitVec 64).setWidth 128 = 0 := rfl
      rw [hzero]
      exact or_zero
    rw [hlo, toInt_ofInt64, toInt_eq_toNat_of_lt (by omega)]
  obtain ⟨htmp, -⟩ := toInt_mulByInvert (o := result) htoInt (by omega) (by omega)
  have hproduct := mul_div_le (2 ^ 128) v.toNat
  rw [← hresult] at hproduct hfloor
  have hpos : decide ((v.toNat : ℤ) < 0) = false := decide_eq_false (by omega)
  rw [hpos] at htmp
  have htmp' : (mulByInvert (ofHiLo v 0) result).toNat = v.toNat * result.toNat / 2 ^ 64 := by
    have hvalue : (mulByInvert (ofHiLo v 0) result).toInt =
        ((v.toNat * result.toNat / 2 ^ 64 : ℕ) : ℤ) := htmp
    have hcases := toInt_eq_toNat_cond (mulByInvert (ofHiLo v 0) result)
    have hbits := (mulByInvert (ofHiLo v 0) result).isLt
    split at hcases
    · omega
    · omega
  have hhigh := toNat_getHigh (v := mulByInvert (ofHiLo v 0) result) (by omega)
  have hiff : getHigh (mulByInvert (ofHiLo v 0) result) ≠ 1 ↔
      v.toNat * result.toNat < 2 ^ 128 := by
    rw [Ne, ← toNat_inj, hhigh, htmp']
    have hunit : (1 : BitVec 64).toNat = 1 := rfl
    rw [hunit]
    omega
  have hstep : invert v = .ok (if getHigh (mulByInvert (ofHiLo v 0) result) ≠ 1 then result + 1
      else result) := by
    have hgt : (1 : BitVec 64) < v := lt_def.mpr hone
    unfold invert
    rw [if_neg (not_not_intro hgt), hdiv]
  refine ⟨_, hstep, ?_⟩
  have hreciprocal := isReciprocal_div (n := 2 ^ 128) (v := v.toNat) (by omega)
  rw [← hresult] at hreciprocal
  by_cases hless : v.toNat * result.toNat < 2 ^ 128
  · rw [if_pos hless] at hreciprocal
    rw [if_pos (hiff.mpr hless), toNat_add]
    have hunit : (1 : UInt128).toNat = 1 := rfl
    rw [hunit, mod_eq_of_lt (by omega)]
    exact hreciprocal
  · rw [if_neg hless] at hreciprocal
    rw [if_neg (mt hiff.mp hless)]
    exact hreciprocal

/-- **Division by way of the inverse** truncates toward zero. -/
theorem toInt_getInt_mulByInvert {v : BitVec 64} {inverse : UInt128} (hone : 1 < v.toNat)
    (hlt : v.toNat < 2 ^ 63) (hinverse : IsReciprocal (2 ^ 128) v.toNat inverse.toNat)
    (x : BitVec 64) :
    (getInt (mulByInvert (ofInt64 x) inverse)).toInt = x.toInt.tdiv v.toNat := by
  have hlow := le_toInt x
  have hhigh := toInt_lt (x := x)
  have habs : x.toInt.natAbs ≤ 2 ^ 63 := by omega
  obtain ⟨hvalue, hsmall⟩ := toInt_mulByInvert (toInt_ofInt64 x) habs
    (toNat_le_of_isReciprocal hone hinverse)
  have hfloor : x.toInt.natAbs * inverse.toNat / 2 ^ 64 / 2 ^ 64 = x.toInt.natAbs / v.toNat := by
    have hbound : x.toInt.natAbs * v.toNat ≤ 2 ^ 63 * 2 ^ 63 :=
      Nat.mul_le_mul habs (Nat.le_of_lt hlt)
    rw [Nat.div_div_eq_div_mul]
    exact hinverse.mul_div_eq (by omega) (by decide)
  rw [toInt_getInt hvalue (by omega), hfloor]
  have hdivisor : (v.toNat : ℤ) = signed false v.toNat := rfl
  have hdividend := signed_tdiv (decide (x.toInt < 0)) false x.toInt.natAbs v.toNat
  rw [signed_natAbs, Bool.bne_false] at hdividend
  rw [hdivisor, hdividend]

/-! ## Products with a factor -/

/-- **A product with a whole number** is exact where it can be represented. -/
theorem exists_mul_ofInt64 {v : UInt128} {f : BitVec 64} (hv : v ≠ intMin 128)
    (hf : f ≠ intMin 64) (hlow : -2 ^ 127 ≤ v.toInt * f.toInt)
    (hhigh : v.toInt * f.toInt < 2 ^ 127) :
    ∃ r, mul v (ofInt64 f) = .ok r ∧ r.toInt = v.toInt * f.toInt := by
  obtain ⟨r, hr, hexact⟩ := mul_spec hv (ofInt64_ne_intMin hf)
  have hproduct : product v (ofInt64 f) = v.toInt * f.toInt := by
    unfold product
    rw [toInt_ofInt64, ← mul_assoc]
    exact Int.mul_tdiv_cancel _ (by decide)
  rw [hproduct] at hexact
  exact ⟨r, hr, hexact hlow hhigh⟩

end Int64x64

namespace Time

open Int64x64

/-! ## The records of `SetResolution` -/

/-- A record that can be used: the factor is the ratio of the units, and a division goes by way of
its reciprocal. -/
inductive Information.Exact (unit i : Unit) (info : Information) : Prop
  | same (toMul : info.toMul = true) (fromMul : info.fromMul = true) (factor : info.factor = 1)
      (timeTo : info.timeTo = ofInt64 1) (timeFrom : info.timeFrom = ofInt64 1)
  | coarser (toMul : info.toMul = false) (fromMul : info.fromMul = true)
      (one_lt : 1 < info.factor.toNat) (lt : info.factor.toNat < 2 ^ 63)
      (ratio : scale i = info.factor.toNat * scale unit)
      (timeTo : IsReciprocal (2 ^ 128) info.factor.toNat info.timeTo.toNat)
      (timeFrom : info.timeFrom = ofInt64 info.factor)
  | finer (toMul : info.toMul = true) (fromMul : info.fromMul = false)
      (one_lt : 1 < info.factor.toNat) (lt : info.factor.toNat < 2 ^ 63)
      (ratio : scale unit = info.factor.toNat * scale i)
      (timeTo : info.timeTo = ofInt64 info.factor)
      (timeFrom : IsReciprocal (2 ^ 128) info.factor.toNat info.timeFrom.toNat)

theorem scale_pos (u : Unit) : 0 < scale u := by
  cases u <;> decide

/-- The coefficients divide each other, and with the powers they give the ratio of the units. -/
theorem exists_coeffQuotient (unit i : Unit) :
    ∃ quotient, coeffQuotient i unit = .ok quotient ∧
      10 ^ ((unitPower i : ℤ) - unitPower unit).natAbs * quotient ≠ 2 ^ 63 ∧
      ((unitPower i : ℤ) - unitPower unit = 0 ∧ quotient = 1 ∨
        1 < 10 ^ ((unitPower i : ℤ) - unitPower unit).natAbs * quotient ∧
          (scale i = 10 ^ ((unitPower i : ℤ) - unitPower unit).natAbs * quotient * scale unit ∨
            scale unit =
              10 ^ ((unitPower i : ℤ) - unitPower unit).natAbs * quotient * scale i)) := by
  cases unit <;> cases i <;> exact ⟨_, rfl, by decide⟩

/-- `realFactor` is the ratio of the units. -/
theorem realFactor_eq (unit i : Unit) :
    (10 : ℚ) ^ ((unitPower i : ℤ) - unitPower unit) * unitCoeff i / unitCoeff unit =
      scale i / scale unit := by
  have hten : (10 : ℚ) ≠ 0 := by norm_num
  unfold scale
  rw [zpow_sub₀ hten, zpow_natCast, zpow_natCast]
  push_cast
  rw [div_mul_eq_mul_div, div_div, mul_comm (unitCoeff i : ℚ), mul_comm (unitCoeff unit : ℚ)]

/-- The factor as the source stores it. -/
theorem toNat_factor {F : ℕ} (hle : F ≤ 2 ^ 63) : (BitVec.ofNat 64 F).toNat = F := by
  rw [toNat_ofNat, mod_eq_of_lt (by omega)]

/-- **A turn of the loop** never fails, and a record that can be used is exact. -/
theorem exists_setInformation (unit i : Unit) (old : Information) :
    ∃ info, setInformation unit i old = .ok info ∧ (info.isValid = true → info.Exact unit i) := by
  obtain ⟨quotient, hquotient, hne, hcases⟩ := exists_coeffQuotient unit i
  unfold setInformation
  rw [hquotient]
  dsimp only [bind, Except.bind, pure, Except.pure]
  by_cases hlarge : 10 ^ ((unitPower i : ℤ) - unitPower unit).natAbs * quotient > 2 ^ 63
  · rw [if_pos hlarge]
    refine ⟨_, rfl, ?_⟩
    intro hvalid
    cases hvalid
  · rw [if_neg hlarge, realFactor_eq]
    generalize hF : 10 ^ ((unitPower i : ℤ) - unitPower unit).natAbs * quotient = F at *
    have hfactor := toNat_factor (Nat.le_of_not_lt hlarge)
    have hunit : (0 : ℚ) < scale unit := Nat.cast_pos.mpr (scale_pos unit)
    rcases hcases with ⟨hshift, hone⟩ | ⟨hone, hratio⟩
    · rw [if_pos ⟨hshift, hone⟩]
      refine ⟨_, rfl, ?_⟩
      intro _
      have hF' : F = 1 := by
        rw [← hF, hshift, hone]
        rfl
      rw [hF']
      exact .same rfl rfl rfl rfl rfl
    · have hnot : ¬ ((unitPower i : ℤ) - unitPower unit = 0 ∧ quotient = 1) := by
        rintro ⟨hshift, hq⟩
        rw [hshift, hq] at hF
        have hF' : F = 1 := hF.symm
        omega
      rw [if_neg hnot]
      obtain ⟨inverse, hinverse, hreciprocal⟩ := exists_invert (v := BitVec.ofNat 64 F)
        (by omega) (by omega)
      rcases hratio with hratio | hratio
      · have hgreater : (scale i : ℚ) / scale unit > 1 := by
          rw [gt_iff_lt, one_lt_div hunit, cast_lt, hratio]
          exact (lt_mul_iff_one_lt_left (scale_pos unit)).mpr hone
        rw [if_pos hgreater, hinverse]
        refine ⟨_, rfl, ?_⟩
        intro _
        refine .coarser rfl rfl ?_ ?_ ?_ hreciprocal rfl
        · rw [hfactor]
          exact hone
        · rw [hfactor]
          omega
        · rw [hfactor]
          exact hratio
      · have hless : (scale i : ℚ) / scale unit < 1 := by
          rw [div_lt_one hunit, cast_lt, hratio]
          exact (lt_mul_iff_one_lt_left (scale_pos i)).mpr hone
        rw [if_neg (not_lt_of_gt hless), if_pos hless, hinverse]
        refine ⟨_, rfl, ?_⟩
        intro _
        refine .finer rfl rfl ?_ ?_ ?_ rfl hreciprocal
        · rw [hfactor]
          exact hone
        · rw [hfactor]
          omega
        · rw [hfactor]
          exact hratio

/-- The loop leaves an exact record for every unit it has gone over. -/
theorem exists_setInformations (unit : Unit) (is : List Unit) (info : Unit → Information) :
    ∃ info', setInformations unit is info = .ok info' ∧ (∀ i, i ∉ is → info' i = info i) ∧
      (is.Nodup → ∀ i ∈ is, (info' i).isValid = true → (info' i).Exact unit i) := by
  induction is generalizing info with
  | nil =>
    refine ⟨info, rfl, fun _ _ => rfl, ?_⟩
    intro _ i hmem
    cases hmem
  | cons i is ih =>
    obtain ⟨changed, hset, hexact⟩ := exists_setInformation unit i (info i)
    obtain ⟨info', hloop, hsame, hrest⟩ := ih (Function.update info i changed)
    refine ⟨info', ?_, ?_, ?_⟩
    · unfold setInformations
      rw [hset]
      exact hloop
    · intro j hj
      obtain ⟨hne, hj'⟩ := not_or.mp (mt List.mem_cons.mpr hj)
      rw [hsame j hj', Function.update_of_ne hne]
    · intro hnodup j hj hvalid
      obtain ⟨hnew, hnodup'⟩ := List.nodup_cons.mp hnodup
      rcases List.mem_cons.mp hj with rfl | hj
      · rw [hsame j hnew, Function.update_self] at hvalid ⊢
        exact hexact hvalid
      · exact hrest hnodup' j hj hvalid

/-- **`SetResolution` never fails**, and every unit that can be used is exact. -/
theorem exists_setResolution (unit : Unit) (old : Resolution) :
    ∃ r, setResolution unit old = .ok r ∧
      ∀ i, (r.info i).isValid = true → (r.info i).Exact unit i := by
  obtain ⟨info', hloop, -, hexact⟩ := exists_setInformations unit units old.info
  refine ⟨⟨info', unit⟩, ?_, ?_⟩
  · unfold setResolution
    rw [hloop]
    rfl
  · intro i hvalid
    apply hexact (by decide) i _ hvalid
    cases i <;> decide

/-! ## There and back -/

theorem signed_mul_natCast (s : Bool) (m k : ℕ) : signed s m * (k : ℤ) = signed s (m * k) := by
  have hmul := signed_mul s false m k
  rw [Bool.bne_false] at hmul
  exact hmul

theorem signed_bounds (s : Bool) (m : ℕ) : -(m : ℤ) ≤ signed s m ∧ signed s m ≤ m := by
  have habs := natAbs_signed s m
  omega

section

variable {r : Resolution} {unit i : Unit} {t n : BitVec 64}

theorem natAbs_lt (ht : t ≠ intMin 64) : t.toInt.natAbs < 2 ^ 63 := by
  have hlow := le_toInt t
  have hhigh := toInt_lt (x := t)
  have hne : t.toInt ≠ -2 ^ 63 := by
    intro hmin
    apply ht
    apply eq_of_toInt_eq
    rw [hmin]
    decide
  omega

/-- The factor as a number with a sign. -/
theorem toInt_factor {f : BitVec 64} (hlt : f.toNat < 2 ^ 63) :
    f.toInt = f.toNat ∧ f ≠ intMin 64 := by
  refine ⟨toInt_eq_toNat_of_lt (by omega), ?_⟩
  intro hmin
  rw [hmin] at hlt
  exact absurd hlt (by decide)

/-- Rounded to the magnitude of a time step, with its sign. -/
theorem round_eq {x : UInt128} {m : ℕ} (hx : x.toInt = signed (decide (t.toInt < 0)) m)
    (hm : m + 2 ^ 63 < 2 ^ 127) (ht : (m + 2 ^ 63) / 2 ^ 64 = t.toInt.natAbs) : round x = t := by
  apply eq_of_toInt_eq
  rw [toInt_round hx hm, ht, signed_natAbs]

/-- In the unit of the resolution, nothing changes. -/
theorem toFrom_same (hvalid : (r.info i).isValid = true) (toMul : (r.info i).toMul = true)
    (fromMul : (r.info i).fromMul = true) (timeTo : (r.info i).timeTo = ofInt64 1)
    (timeFrom : (r.info i).timeFrom = ofInt64 1) (ht : t ≠ intMin 64) :
    ∃ x, r.toUnit t i = .ok x ∧ r.fromUnit x i = .ok t := by
  have habs := natAbs_lt ht
  have hone : (1 : BitVec 64).toInt = 1 := by decide
  have hvalue := toInt_ofInt64 t
  obtain ⟨x, hx, hxvalue⟩ := exists_mul_ofInt64 (f := 1) (ofInt64_ne_intMin ht) (by decide)
    (by rw [hone]; omega) (by rw [hone]; omega)
  have hsame : x = ofInt64 t := by
    apply eq_of_toInt_eq
    rw [hxvalue, hone, mul_one]
  rw [hsame] at hx
  refine ⟨ofInt64 t, ?_, ?_⟩
  · unfold Resolution.toUnit
    rw [if_neg (not_not_intro hvalid), if_pos toMul, timeTo, hx]
  · unfold Resolution.fromUnit
    rw [if_neg (not_not_intro hvalid), if_pos fromMul, timeFrom, hx]
    have hsigned : (ofInt64 t).toInt = signed (decide (t.toInt < 0)) (t.toInt.natAbs * 2 ^ 64) := by
      rw [← signed_mul_natCast, signed_natAbs]
      exact hvalue
    exact congrArg Except.ok (round_eq hsigned (by omega) (by omega))

/-- A coarser unit: divided first, then multiplied and rounded. -/
theorem toFrom_coarser (hvalid : (r.info i).isValid = true) (toMul : (r.info i).toMul = false)
    (fromMul : (r.info i).fromMul = true) (hone : 1 < (r.info i).factor.toNat)
    (hlt : (r.info i).factor.toNat < 2 ^ 63)
    (timeTo : IsReciprocal (2 ^ 128) (r.info i).factor.toNat (r.info i).timeTo.toNat)
    (timeFrom : (r.info i).timeFrom = ofInt64 (r.info i).factor) (ht : t ≠ intMin 64) :
    ∃ x, r.toUnit t i = .ok x ∧ r.fromUnit x i = .ok t := by
  have habs := natAbs_lt ht
  have hnot : ¬ (r.info i).toMul = true := by
    rw [toMul]
    exact Bool.false_ne_true
  obtain ⟨hfactor, hfne⟩ := toInt_factor hlt
  obtain ⟨hvalue, hsmall⟩ := toInt_mulByInvert (toInt_ofInt64 t) (le_of_lt habs)
    (toNat_le_of_isReciprocal hone timeTo)
  have hback :
      (t.toInt.natAbs * (r.info i).timeTo.toNat / 2 ^ 64 * (r.info i).factor.toNat + 2 ^ 63) /
        2 ^ 64 = t.toInt.natAbs :=
    IsReciprocal.round_mul (h := 2 ^ 63) timeTo (le_of_lt hlt) (le_of_lt habs)
  have hproduct : (mulByInvert (ofInt64 t) (r.info i).timeTo).toInt * (r.info i).factor.toInt =
      signed (decide (t.toInt < 0))
        (t.toInt.natAbs * (r.info i).timeTo.toNat / 2 ^ 64 * (r.info i).factor.toNat) := by
    rw [hvalue, hfactor, signed_mul_natCast]
  have hbound :
      t.toInt.natAbs * (r.info i).timeTo.toNat / 2 ^ 64 * (r.info i).factor.toNat + 2 ^ 63 <
        2 ^ 127 := by
    omega
  obtain ⟨hlow, hhigh⟩ := signed_bounds (decide (t.toInt < 0))
    (t.toInt.natAbs * (r.info i).timeTo.toNat / 2 ^ 64 * (r.info i).factor.toNat)
  refine ⟨mulByInvert (ofInt64 t) (r.info i).timeTo, ?_, ?_⟩
  · unfold Resolution.toUnit
    rw [if_neg (not_not_intro hvalid), if_neg hnot]
  · have hne : mulByInvert (ofInt64 t) (r.info i).timeTo ≠ intMin 128 := by
      intro hmin
      have habs' := natAbs_signed (decide (t.toInt < 0))
        (t.toInt.natAbs * (r.info i).timeTo.toNat / 2 ^ 64)
      have hleast : (intMin 128).toInt = -2 ^ 127 := by decide
      rw [← hvalue, hmin, hleast] at habs'
      omega
    obtain ⟨y, hy, hyvalue⟩ := exists_mul_ofInt64 hne hfne (by rw [hproduct]; omega)
      (by rw [hproduct]; omega)
    unfold Resolution.fromUnit
    rw [if_neg (not_not_intro hvalid), if_pos fromMul, timeFrom, hy]
    rw [hproduct] at hyvalue
    exact congrArg Except.ok (round_eq hyvalue hbound hback)

/-- A finer unit: multiplied first, then divided without a rest. -/
theorem toFrom_finer (hvalid : (r.info i).isValid = true) (toMul : (r.info i).toMul = true)
    (fromMul : (r.info i).fromMul = false) (hone : 1 < (r.info i).factor.toNat)
    (hlt : (r.info i).factor.toNat < 2 ^ 63)
    (timeTo : (r.info i).timeTo = ofInt64 (r.info i).factor)
    (timeFrom : IsReciprocal (2 ^ 128) (r.info i).factor.toNat (r.info i).timeFrom.toNat)
    (ht : t ≠ intMin 64) (hlow : -2 ^ 63 ≤ t.toInt * (r.info i).factor.toInt)
    (hhigh : t.toInt * (r.info i).factor.toInt < 2 ^ 63) :
    ∃ x, r.toUnit t i = .ok x ∧ r.fromUnit x i = .ok t := by
  have hnot : ¬ (r.info i).fromMul = true := by
    rw [fromMul]
    exact Bool.false_ne_true
  obtain ⟨hfactor, hfne⟩ := toInt_factor hlt
  have hscaled : (ofInt64 t).toInt * (r.info i).factor.toInt =
      t.toInt * (r.info i).factor.toInt * 2 ^ 64 := by
    rw [toInt_ofInt64]
    ring
  obtain ⟨x, hx, hxvalue⟩ := exists_mul_ofInt64 (ofInt64_ne_intMin ht) hfne
    (by rw [hscaled]; omega) (by rw [hscaled]; omega)
  rw [hscaled] at hxvalue
  have hmagnitude : (t.toInt * (r.info i).factor.toInt).natAbs =
      t.toInt.natAbs * (r.info i).factor.toNat := by
    rw [hfactor, Int.natAbs_mul]
    rfl
  have hsign : decide (t.toInt * (r.info i).factor.toInt < 0) = decide (t.toInt < 0) := by
    have hpos : (0 : ℤ) < (r.info i).factor.toNat := by omega
    rw [decide_eq_decide, hfactor, ← not_le, ← not_le, not_iff_not]
    exact Int.mul_nonneg_iff_of_pos_right hpos
  have hmultiple : t.toInt.natAbs * (r.info i).factor.toNat ≤ 2 ^ 63 := by
    rw [← hmagnitude]
    omega
  obtain ⟨hvalue, -⟩ := toInt_mulByInvert hxvalue (by omega)
    (toNat_le_of_isReciprocal hone timeFrom)
  have hexact : t.toInt.natAbs * (r.info i).factor.toNat * (r.info i).timeFrom.toNat / 2 ^ 64 =
      2 ^ 64 * t.toInt.natAbs :=
    IsReciprocal.mul_div_mul (h := 2 ^ 63) timeFrom hmultiple (by decide)
  rw [hsign, hmagnitude, hexact] at hvalue
  have htwo : t.toInt.natAbs * 2 ≤ t.toInt.natAbs * (r.info i).factor.toNat :=
    mul_le_mul_left _ hone
  refine ⟨x, ?_, ?_⟩
  · unfold Resolution.toUnit
    rw [if_neg (not_not_intro hvalid), if_pos toMul, timeTo, hx]
  · unfold Resolution.fromUnit
    rw [if_neg (not_not_intro hvalid), if_neg hnot]
    exact congrArg Except.ok (round_eq hvalue (by omega) (by omega))

/-- A multiple that can be represented is divided by the factor again. -/
theorem mul_sdiv_factor {f : BitVec 64} (hpos : 0 < f.toNat) (hlt : f.toNat < 2 ^ 63)
    (hlow : -2 ^ 63 ≤ n.toInt * f.toInt) (hhigh : n.toInt * f.toInt < 2 ^ 63) :
    (n * f).sdiv f = n := by
  have hbits := le_toInt n
  have hbits' := toInt_lt (x := n)
  have hfactor := (toInt_factor hlt).1
  have hne : f.toInt ≠ 0 := by omega
  have hproduct : (n * f).toInt = n.toInt * f.toInt := by
    rw [toInt_mul]
    exact Int.bmod_eq_of_le (by omega) (by omega)
  apply eq_of_toInt_eq
  rw [toInt_sdiv, hproduct, Int.mul_tdiv_cancel _ hne]
  exact Int.bmod_eq_of_le (by omega) (by omega)

end

/-- **There and back**, in a unit that can be used. -/
theorem Information.Exact.toFrom {r : Resolution} {unit i : Unit} (h : (r.info i).Exact unit i)
    (hvalid : (r.info i).isValid = true) : ToFrom r i := by
  rintro t ⟨ht, hmultiple⟩
  cases h with
  | same toMul fromMul _ timeTo timeFrom =>
    exact toFrom_same hvalid toMul fromMul timeTo timeFrom ht
  | coarser toMul fromMul one_lt lt _ timeTo timeFrom =>
    exact toFrom_coarser hvalid toMul fromMul one_lt lt timeTo timeFrom ht
  | finer toMul fromMul one_lt lt _ timeTo timeFrom =>
    obtain ⟨hlow, hhigh⟩ := hmultiple toMul
    exact toFrom_finer hvalid toMul fromMul one_lt lt timeTo timeFrom ht hlow hhigh

/-- **Whole numbers of a unit** that is not finer than the resolution. -/
theorem Information.Exact.fromTo {r : Resolution} {unit i : Unit} (h : (r.info i).Exact unit i)
    (hvalid : (r.info i).isValid = true) (hscale : scale unit ≤ scale i) :
    FromTo r i := by
  intro n hlow hhigh
  refine ⟨n * (r.info i).factor, ?_⟩
  unfold Resolution.fromInteger Resolution.toInteger
  dsimp only
  rw [if_neg (not_not_intro hvalid), if_neg (not_not_intro hvalid)]
  cases h with
  | same toMul fromMul factor _ _ =>
    have hunit : n * 1 = n := BitVec.mul_one n
    rw [if_pos fromMul, if_pos toMul, factor, hunit, hunit]
    exact ⟨rfl, rfl⟩
  | coarser toMul fromMul one_lt lt _ _ _ =>
    have hnot : ¬ (r.info i).toMul = true := by
      rw [toMul]
      exact Bool.false_ne_true
    rw [if_pos fromMul, if_neg hnot, mul_sdiv_factor (by omega) lt hlow hhigh]
    exact ⟨rfl, rfl⟩
  | finer _ _ one_lt _ ratio _ _ =>
    -- the unit would be finer than the resolution
    have hless : scale i < scale unit := by
      rw [ratio]
      exact (lt_mul_iff_one_lt_left (scale_pos i)).mpr one_lt
    exact absurd hscale (Nat.not_le_of_lt hless)

/-- **Conversions of time are exact**: division by way of the inverse truncates toward zero; under
every resolution, a time step that can be converted to a valid unit comes back, and so does a whole
number of a unit that is not finer than the resolution. -/
theorem conversions_exact : (∀ v : BitVec 64, 1 < v.toNat → v.toNat < 2 ^ 63 - 1 → InvertExact v) ∧
      ∀ (unit : Unit) (old : Resolution), ∃ r, setResolution unit old = .ok r ∧
        ∀ i, (r.info i).isValid = true →
          ToFrom r i ∧ (scale unit ≤ scale i → FromTo r i) := by
  constructor
  · intro v hone hlt
    obtain ⟨inverse, hinverse, hreciprocal⟩ := exists_invert hone (by omega)
    exact ⟨inverse, hinverse,
      fun x _ => toInt_getInt_mulByInvert hone (by omega) hreciprocal x⟩
  · intro unit old
    obtain ⟨r, hr, hexact⟩ := exists_setResolution unit old
    refine ⟨r, hr, ?_⟩
    intro i hvalid
    exact ⟨(hexact i hvalid).toFrom hvalid, (hexact i hvalid).fromTo hvalid⟩

/-- Thirds, and minutes under nanoseconds. -/
theorem conversions_exact_sample :
    InvertExact 3 ∧ ∃ r, setResolution .ns ⟨fun _ => ⟨false, false, 0, 0, 0, false⟩, .y⟩ = .ok r ∧
      ToFrom r .min ∧ FromTo r .min := by
  refine ⟨conversions_exact.1 3 (by decide) (by decide), ?_⟩
  obtain ⟨r, hr, hexact⟩ := conversions_exact.2 .ns ⟨fun _ => ⟨false, false, 0, 0, 0, false⟩, .y⟩
  have hvalid : (r.info .min).isValid = true := by
    have hset : (setResolution .ns ⟨fun _ => ⟨false, false, 0, 0, 0, false⟩, .y⟩).map
        (fun r => (r.info .min).isValid) = .ok true := by decide +kernel
    rw [hr] at hset
    exact Except.ok.inj hset
  exact ⟨r, hr, (hexact .min hvalid).1, (hexact .min hvalid).2 (by decide)⟩

end Time

end Ns3Dsme.Core
