/-
# Products and quotients of fixed-point numbers

The product is the exact one as far as 128 bits can hold it, and it never aborts: `HP_MASK_HI` is
zero.  The loop over the digits of a quotient keeps what is left to be divided and ends with its
floor.
-/
import Ns3Dsme.Core.Int64x64
import Mathlib.Tactic.NormNum

open Nat Bool BitVec LongDivision

namespace Ns3Dsme.Core

open Int64x64

namespace Int64x64

/-! ## The loops over the digits -/

/-- **What a loop preserves**: it takes digits until there are enough or the test fails. -/
theorem whileNeeded_spec (test : Digits → Bool) (body : Digits → Digits) (P : Digits → Prop)
    (hdigis : ∀ d, (body d).digis = d.digis) (hshift : ∀ d, (body d).shift = d.shift + 1)
    (hbody : ∀ d, P d → test d = true → d.digis + d.shift < maxDigits → P (body d)) (needed : ℕ) (d : Digits)
    (hneeded : d.digis + d.shift + needed = maxDigits) (hd : P d) :
    P (whileNeeded test body needed d) ∧
      (whileNeeded test body needed d).digis = d.digis ∧
      d.shift ≤ (whileNeeded test body needed d).shift ∧
      (d.digis + (whileNeeded test body needed d).shift = maxDigits ∨
        d.digis + (whileNeeded test body needed d).shift < maxDigits ∧
        test (whileNeeded test body needed d) = false) := by
  induction needed generalizing d with
  | zero => exact ⟨hd, rfl, le_refl _, Or.inl hneeded⟩
  | succ needed ih =>
    unfold whileNeeded
    by_cases htest : test d = true
    · rw [if_pos htest]
      obtain ⟨hP, hsame, hmore, hend⟩ := ih (body d) (by rw [hdigis, hshift]; omega)
        (hbody d hd htest (by omega))
      rw [hdigis] at hsame hend
      rw [hshift] at hmore
      exact ⟨hP, hsame, by omega, hend⟩
    · rw [if_neg htest]
      exact ⟨hd, rfl, le_refl _, Or.inr ⟨by omega, eq_false_iff.mpr htest⟩⟩

/-- What is left to be divided, and what is known of the variables. -/
structure Digits.Inv (a b : ℕ) (d : Digits) (q z : ℕ) : Prop where
  remains : Remains a b (d.digis + d.shift) (q * 2 ^ d.shift) d.rem.toNat d.den.toNat z
  result : d.result.toNat = q % 2 ^ 128
  den_pos : 0 < d.den.toNat
  den_lt : d.den.toNat < 2 ^ 127
  digits : d.digis + d.shift ≤ maxDigits

section

variable {a b q z : ℕ} {d : Digits}

theorem even_iff (x : UInt128) : (x &&& 1 == 0) = true ↔ x.toNat % 2 = 0 := by
  rw [beq_iff_eq, ← toNat_inj, toNat_and]
  exact Iff.of_eq (congrArg (· = 0) (and_one_is_mod x.toNat))

/-- The test of the highest bit. -/
theorem high_iff (x : UInt128) : (x &&& hp128MaskHiBit == 0) = true ↔ x.toNat < 2 ^ 127 := by
  have hmask : hp128MaskHiBit = BitVec.twoPow 128 127 := rfl
  have hbit : x.getLsbD 127 = decide (2 ^ 127 ≤ x.toNat) :=
    (msb_eq_getLsbD_last x).symm.trans (msb_eq_decide x)
  rw [beq_iff_eq, hmask, and_twoPow, hbit]
  by_cases hhigh : 2 ^ 127 ≤ x.toNat
  · rw [if_pos (decide_eq_true hhigh)]
    constructor
    · intro hzero
      exact absurd hzero (by decide)
    · intro hlow
      omega
  · rw [if_neg (by rwa [decide_eq_true_iff])]
    constructor
    · exact fun _ => Nat.lt_of_not_le hhigh
    · exact fun _ => rfl

variable (h : d.Inv a b q z)
include h

/-- A digit from an even divisor. -/
theorem Digits.Inv.halveDen (heven : d.den.toNat % 2 = 0) (hless : d.digis + d.shift < maxDigits) :
    (halveDen d).Inv a b q (z + 1) := by
  have hden : d.den.toNat = 2 * (d.den >>> 1).toNat := by
    rw [toNat_ushiftRight, shiftRight_eq_div_pow]
    omega
  have hpos := h.den_pos
  have hlt := h.den_lt
  have hremains := h.remains
  rw [hden] at hremains hpos hlt
  refine ⟨?_, h.result, ?_, ?_, ?_⟩
  · have hnext := hremains.shiftDivisor
    have hq : 2 * (q * 2 ^ d.shift) = q * 2 ^ (d.shift + 1) := by
      rw [pow_succ]
      ring
    rw [hq] at hnext
    exact hnext
  · show 0 < (d.den >>> 1).toNat
    omega
  · show (d.den >>> 1).toNat < 2 ^ 127
    omega
  · show d.digis + (d.shift + 1) ≤ maxDigits
    omega

/-- A digit from a remainder with its highest bit clear. -/
theorem Digits.Inv.doubleRem (hclear : d.rem.toNat < 2 ^ 127)
    (hless : d.digis + d.shift < maxDigits) : (doubleRem d).Inv a b q z := by
  have hrem : (d.rem <<< 1).toNat = 2 * d.rem.toNat := by
    rw [toNat_shiftLeft, Nat.shiftLeft_eq]
    omega
  refine ⟨?_, h.result, h.den_pos, h.den_lt, ?_⟩
  · have hnext := h.remains.shiftRemainder
    have hq : 2 * (q * 2 ^ d.shift) = q * 2 ^ (d.shift + 1) := by
      rw [pow_succ]
      ring
    rw [hq, ← hrem] at hnext
    exact hnext
  · show d.digis + (d.shift + 1) ≤ maxDigits
    omega

/-- Skip trailing zeros in the divisor: the remainder stays. -/
theorem Digits.Inv.skipTrailing :
    ∃ z', (skipTrailing d).Inv a b q z' ∧ (skipTrailing d).rem = d.rem ∧
      (Int64x64.skipTrailing d).digis = d.digis := by
  have hbody : ∀ e : Digits, (∃ z', e.Inv a b q z' ∧ e.rem = d.rem) →
      (e.den &&& 1 == 0) = true → e.digis + e.shift < maxDigits →
      ∃ z', (Int64x64.halveDen e).Inv a b q z' ∧ (Int64x64.halveDen e).rem = d.rem := by
    rintro e ⟨z', he, hrem⟩ htest hless
    exact ⟨z' + 1, he.halveDen ((even_iff e.den).mp htest) hless, hrem⟩
  obtain ⟨⟨z', hinv, hrem⟩, hsame, -, -⟩ := whileNeeded_spec (fun e => e.den &&& 1 == 0)
    Int64x64.halveDen (fun e => ∃ z', e.Inv a b q z' ∧ e.rem = d.rem) (fun _ => rfl)
    (fun _ => rfl) hbody d.needed d (add_sub_of_le h.digits) ⟨z, h, rfl⟩
  exact ⟨z', hinv, hrem, hsame⟩

/-- Skip leading zeros in the remainder: if digits are still needed after that, its highest bit is
set. -/
theorem Digits.Inv.skipLeading (hrem : d.rem.toNat < 2 ^ 127) (hdigis : d.digis < maxDigits) :
    (skipLeading d).Inv a b q z ∧ (skipLeading d).digis = d.digis ∧
      0 < (skipLeading d).shift ∧
      ((skipLeading d).digis + (skipLeading d).shift < maxDigits →
        2 ^ 127 ≤ (skipLeading d).rem.toNat) := by
  obtain ⟨⟨hinv, hclear⟩, hsame, -, hend⟩ := whileNeeded_spec
    (fun e => e.rem &&& hp128MaskHiBit == 0) Int64x64.doubleRem
    (fun e => e.Inv a b q z ∧ (e.shift = 0 → e.rem.toNat < 2 ^ 127)) (fun _ => rfl) (fun _ => rfl)
    (fun e he htest hless => ⟨he.1.doubleRem ((high_iff e.rem).mp htest) hless,
      fun hzero => absurd hzero (succ_ne_zero _)⟩)
    d.needed d (add_sub_of_le h.digits) ⟨h, fun _ => hrem⟩
  have hset : ∀ x : UInt128, (x &&& hp128MaskHiBit == 0) = false → 2 ^ 127 ≤ x.toNat := by
    intro x hx
    by_contra hlow
    rw [(high_iff x).mpr (Nat.lt_of_not_le hlow)] at hx
    cases hx
  refine ⟨hinv, hsame, ?_, ?_⟩
  · -- the loop does not stop at once
    by_contra hzero
    have hshift := Nat.eq_zero_of_not_pos hzero
    rcases hend with hfull | ⟨-, htest⟩
    · unfold Int64x64.skipLeading at hshift
      omega
    · have hlow := hclear hshift
      have hhigh := hset _ htest
      omega
  · intro hless
    rcases hend with hfull | ⟨-, htest⟩
    · unfold Int64x64.skipLeading at hless
      omega
    · exact hset _ htest

/-- Cast off bits of the divisor: they are zeros. -/
theorem Digits.Inv.castOff (hrem : d.digis + d.shift < maxDigits → 2 ^ 127 ≤ d.rem.toNat) :
    ∃ z', (castOff d).Inv a b q z' ∧ (castOff d).digis = d.digis ∧
      d.shift ≤ (Int64x64.castOff d).shift := by
  have hbody : ∀ e : Digits, (∃ z', e.Inv a b q z' ∧
      (e.digis + e.shift < maxDigits → 2 ^ 127 ≤ e.rem.toNat)) →
      (e.den &&& 1 == 0 || decide (e.rem < e.den)) = true → e.digis + e.shift < maxDigits →
      ∃ z', (Int64x64.halveDen e).Inv a b q z' ∧
        ((Int64x64.halveDen e).digis + (Int64x64.halveDen e).shift < maxDigits →
          2 ^ 127 ≤ (Int64x64.halveDen e).rem.toNat) := by
    rintro e ⟨z', he, hhigh⟩ htest hless
    have hset := hhigh hless
    -- the remainder is not less than the divisor, so that the divisor is even
    have heven : e.den.toNat % 2 = 0 := by
      rcases or_eq_true_iff.mp htest with heven | hsmall
      · exact (even_iff e.den).mp heven
      · have hlt : e.rem.toNat < e.den.toNat := lt_def.mp (of_decide_eq_true hsmall)
        have hden := he.den_lt
        omega
    exact ⟨z' + 1, he.halveDen heven hless, fun _ => hset⟩
  obtain ⟨⟨z', hinv, -⟩, hsame, hmore, -⟩ := whileNeeded_spec
    (fun e => e.den &&& 1 == 0 || decide (e.rem < e.den)) Int64x64.halveDen
    (fun e => ∃ z', e.Inv a b q z' ∧ (e.digis + e.shift < maxDigits → 2 ^ 127 ≤ e.rem.toNat))
    (fun _ => rfl) (fun _ => rfl) hbody d.needed d (add_sub_of_le h.digits) ⟨z, h, hrem⟩
  exact ⟨z', hinv, hsame, hmore⟩

/-- Do the division. -/
theorem Digits.Inv.divide :
    (divide d).Inv a b (q * 2 ^ d.shift + d.rem.toNat / d.den.toNat) z := by
  have hremains := h.remains.divide
  constructor
  · have hshift : (Int64x64.divide d).shift = 0 := rfl
    rw [hshift, pow_zero, mul_one]
    show Remains a b (d.digis + d.shift + 0) _ (d.rem % d.den).toNat d.den.toNat z
    rw [toNat_umod]
    exact hremains
  · show ((d.result <<< d.shift) + d.rem / d.den).toNat = _
    rw [toNat_add, toNat_shiftLeft, Nat.shiftLeft_eq, h.result, toNat_udiv,
      Nat.mod_mul_mod, Nat.mod_add_mod]
  · exact h.den_pos
  · exact h.den_lt
  · exact h.digits

/-- **A turn of the loop** takes at least one digit, and leaves a remainder less than the
divisor. -/
theorem Digits.Inv.turn (hrem : d.rem.toNat < 2 ^ 127) (hdigis : d.digis < maxDigits) :
    ∃ q' z' d', Int64x64.divide (Int64x64.castOff (Int64x64.skipLeading d)) = d' ∧
      d'.Inv a b q' z' ∧ d'.rem.toNat < d'.den.toNat ∧ d'.shift = 0 ∧ d.digis < d'.digis := by
  obtain ⟨hinv, hsame, hpos, hset⟩ := h.skipLeading hrem hdigis
  obtain ⟨z', hinv', hsame', hmore⟩ := hinv.castOff hset
  refine ⟨_, z', _, rfl, hinv'.divide, ?_, rfl, ?_⟩
  · show ((Int64x64.castOff (Int64x64.skipLeading d)).rem %
      (Int64x64.castOff (Int64x64.skipLeading d)).den).toNat < _
    rw [toNat_umod]
    exact mod_lt _ hinv'.den_pos
  · show d.digis < (Int64x64.castOff (Int64x64.skipLeading d)).digis +
      (Int64x64.castOff (Int64x64.skipLeading d)).shift
    omega

/-- Where the loop stops. -/
theorem Digits.Inv.stop (hsmall : d.digis = maxDigits → d.shift = 0 ∧ d.rem.toNat < d.den.toNat)
    (hnot : ¬ (d.digis < maxDigits ∧ d.rem ≠ 0)) :
    d.rem = 0 ∨ d.digis = maxDigits ∧ d.shift = 0 ∧ d.rem.toNat < d.den.toNat := by
  by_cases hzero : d.rem = 0
  · exact Or.inl hzero
  · have hfull : d.digis = maxDigits := by
      have hdigits := h.digits
      have hless : ¬ d.digis < maxDigits := fun hless => hnot ⟨hless, hzero⟩
      omega
    exact Or.inr ⟨hfull, hsmall hfull⟩

/-- **The loop ends**, with all digits or without a remainder. -/
theorem Digits.Inv.digitLoop (hrem : d.rem.toNat < 2 ^ 127)
    (hsmall : d.digis = maxDigits → d.shift = 0 ∧ d.rem.toNat < d.den.toNat) {fuel : ℕ}
    (hfuel : maxDigits ≤ d.digis + fuel) :
    ∃ q' z' d', Int64x64.digitLoop fuel d = some d' ∧ d'.Inv a b q' z' ∧
      (d'.rem = 0 ∨ d'.digis = maxDigits ∧ d'.shift = 0 ∧ d'.rem.toNat < d'.den.toNat) := by
  induction fuel generalizing d q z with
  | zero =>
    have hnot : ¬ (d.digis < maxDigits ∧ d.rem ≠ 0) := by
      rintro ⟨hless, -⟩
      omega
    exact ⟨q, z, d, if_neg hnot, h, h.stop hsmall hnot⟩
  | succ fuel ih =>
    unfold digitLoop
    by_cases hgo : d.digis < maxDigits ∧ d.rem ≠ 0
    · obtain ⟨q', z', d', hturn, hinv, hless, hshift, hmore⟩ := h.turn hrem hgo.1
      rw [if_pos hgo, hturn]
      have hden := hinv.den_lt
      exact ih hinv (by omega) (fun _ => ⟨hshift, hless⟩) (by omega)
    · rw [if_neg hgo]
      exact ⟨q, z, d, rfl, h, h.stop hsmall hgo⟩

end

/-! ## Magnitudes -/

/-- The digits that are not needed are zero. -/
theorem toNat_shiftLeft_digits {x : UInt128} {q k : ℕ} (h : x.toNat = q % 2 ^ 128) :
    (x <<< k).toNat = q * 2 ^ k % 2 ^ 128 := by
  rw [toNat_shiftLeft, Nat.shiftLeft_eq, h, Nat.mod_mul_mod]

/-- **The quotient of magnitudes**, as far as 128 bits can hold it. -/
theorem udiv_spec {a b : UInt128} (hb : b.toNat < 2 ^ 127) (hne : b ≠ 0) :
    ∃ r, udiv a b = .ok r ∧ r.toNat = a.toNat * 2 ^ 64 / b.toNat % 2 ^ 128 := by
  have hpos : 0 < b.toNat := by
    rw [Nat.pos_iff_ne_zero]
    exact fun hzero => hne (eq_of_toNat_eq hzero)
  have hstart : Digits.Inv a.toNat b.toNat ⟨a % b, b, a / b, 0, 0⟩ (a.toNat / b.toNat) 0 := by
    constructor
    · show Remains a.toNat b.toNat (0 + 0) (a.toNat / b.toNat * 2 ^ 0) (a % b).toNat b.toNat 0
      rw [pow_zero, mul_one, toNat_umod]
      exact remains_start a.toNat b.toNat
    · show (a / b).toNat = _
      rw [toNat_udiv, mod_eq_of_lt]
      exact lt_of_le_of_lt (div_le_self _ _) a.isLt
    · exact hpos
    · exact hb
    · exact zero_le _
  obtain ⟨z, hinv, hrem, hdigis⟩ := hstart.skipTrailing
  dsimp only at hrem hdigis
  have hrem' : (skipTrailing ⟨a % b, b, a / b, 0, 0⟩).rem.toNat < 2 ^ 127 := by
    rw [hrem, toNat_umod]
    exact (mod_lt _ hpos).trans hb
  have hsmall : (skipTrailing ⟨a % b, b, a / b, 0, 0⟩).digis = maxDigits →
      (skipTrailing ⟨a % b, b, a / b, 0, 0⟩).shift = 0 ∧
        (skipTrailing ⟨a % b, b, a / b, 0, 0⟩).rem.toNat <
          (skipTrailing ⟨a % b, b, a / b, 0, 0⟩).den.toNat := by
    intro hfull
    rw [hdigis] at hfull
    exact absurd hfull (by decide)
  obtain ⟨q, z', d, hloop, hd, hend⟩ := hinv.digitLoop hrem' hsmall
    (le_add_left maxDigits _)
  unfold udiv
  rw [if_neg hne, hloop]
  refine ⟨_, rfl, ?_⟩
  have hdigits := hd.digits
  rcases hend with hzero | ⟨hfull, hshift, hless⟩
  · -- the rest of the digits are zeros
    have hremains := hd.remains
    rw [hzero] at hremains
    have hquotient := hremains.quotient_of_zero hpos (maxDigits - (d.digis + d.shift))
    rw [add_sub_of_le hdigits, mul_assoc, ← pow_add] at hquotient
    have hrest : d.shift + (maxDigits - (d.digis + d.shift)) = maxDigits - d.digis := by omega
    rw [hrest] at hquotient
    have hq : q * 2 ^ (maxDigits - d.digis) = a.toNat * 2 ^ 64 / b.toNat := hquotient
    split
    · rw [toNat_shiftLeft_digits hd.result, hq]
    · have hfull : maxDigits - d.digis = 0 := by omega
      rw [hfull, pow_zero, mul_one] at hq
      rw [hd.result, hq]
  · have hquotient := hd.remains.quotient hless
    rw [hshift, hfull, pow_zero, mul_one] at hquotient
    have hq : q = a.toNat * 2 ^ 64 / b.toNat := hquotient
    rw [if_neg (by omega), hd.result, hq]

theorem toNat_and_hpMaskLo (x : UInt128) :
    (x &&& hpMaskLo.setWidth 128).toNat = x.toNat % 2 ^ 64 := by
  rw [toNat_and]
  exact and_two_pow_sub_one_eq_mod x.toNat 64

/-- The mask for the high half is zero, so that nothing is ever found to overflow. -/
theorem and_hpMaskHi (x : UInt128) : x &&& hpMaskHi.setWidth 128 = 0 := by
  have hzero : hpMaskHi.setWidth 128 = 0 := by decide
  rw [hzero]
  exact and_zero

/-- A product of halves fits. -/
theorem toNat_mul_halves {x y : UInt128} {k l : ℕ} (hx : x.toNat < 2 ^ k) (hy : y.toNat < 2 ^ l)
    (hkl : k + l ≤ 128) :
    (x * y).toNat = x.toNat * y.toNat ∧ x.toNat * y.toNat < 2 ^ (k + l) := by
  have hless : x.toNat * y.toNat < 2 ^ (k + l) := by
    rw [pow_add]
    exact mul_lt_mul'' hx hy
  refine ⟨?_, hless⟩
  rw [toNat_mul, mod_eq_of_lt]
  exact Nat.lt_of_lt_of_le hless (Nat.pow_le_pow_right Nat.two_pos hkl)

/-- The product of two numbers from the products of their halves. -/
theorem mul_eq_halves (a b : ℕ) :
    a * b = a / 2 ^ 64 * (b / 2 ^ 64) * 2 ^ 128 +
      (a % 2 ^ 64 * (b / 2 ^ 64) + a / 2 ^ 64 * (b % 2 ^ 64)) * 2 ^ 64 +
        a % 2 ^ 64 * (b % 2 ^ 64) := by
  calc a * b = (a / 2 ^ 64 * 2 ^ 64 + a % 2 ^ 64) * (b / 2 ^ 64 * 2 ^ 64 + b % 2 ^ 64) := by
        rw [div_add_mod', div_add_mod']
    _ = _ := by ring

/-- **The product of magnitudes**, as far as 128 bits can hold it. -/
theorem umul_spec {a b : UInt128} (ha : a.toNat < 2 ^ 127) (hb : b.toNat < 2 ^ 127) :
    ∃ r, umul a b = .ok r ∧ r.toNat = a.toNat * b.toNat / 2 ^ 64 % 2 ^ 128 := by
  have hlow (x : UInt128) : (x &&& hpMaskLo.setWidth 128).toNat < 2 ^ 64 := by
    rw [toNat_and_hpMaskLo]
    exact Nat.mod_lt _ (Nat.two_pow_pos 64)
  have hhigh {x : UInt128} (hx : x.toNat < 2 ^ 127) :
      ((x >>> 64) &&& hpMaskLo.setWidth 128).toNat = x.toNat / 2 ^ 64 ∧ x.toNat / 2 ^ 64 < 2 ^ 63 := by
    rw [toNat_and_hpMaskLo, toNat_ushiftRight, Nat.shiftRight_eq_div_pow]
    omega
  obtain ⟨haH, haH'⟩ := hhigh ha
  obtain ⟨hbH, hbH'⟩ := hhigh hb
  rw [← haH] at haH'
  rw [← hbH] at hbH'
  -- the partial products
  obtain ⟨hlo, hlo'⟩ := toNat_mul_halves (hlow a) (hlow b) (by decide)
  obtain ⟨hmid₁, hmid₁'⟩ := toNat_mul_halves (hlow a) hbH' (by decide)
  obtain ⟨hmid₂, hmid₂'⟩ := toNat_mul_halves haH' (hlow b) (by decide)
  obtain ⟨hhi, hhi'⟩ := toNat_mul_halves haH' hbH' (by decide)
  unfold umul
  dsimp only
  rw [if_neg (not_not_intro (and_hpMaskHi _))]
  refine ⟨_, rfl, ?_⟩
  rw [mul_eq_halves, ← toNat_and_hpMaskLo a, ← toNat_and_hpMaskLo b, ← haH, ← hbH, ← hlo, ← hmid₁,
    ← hmid₂, ← hhi]
  rw [← hlo] at hlo'
  rw [← hmid₁] at hmid₁'
  rw [← hmid₂] at hmid₂'
  rw [← hhi] at hhi'
  -- their sum, with carries
  rw [toNat_add, toNat_add, toNat_shiftLeft, toNat_add,
    toNat_and_hpMaskLo, toNat_and_hpMaskLo, toNat_ushiftRight, toNat_ushiftRight,
    toNat_add, Nat.shiftRight_eq_div_pow, Nat.shiftRight_eq_div_pow, Nat.shiftLeft_eq]
  omega

/-! ## Signs -/

/-- A magnitude with a sign. -/
def signed (negative : Bool) (m : ℕ) : ℤ := if negative then -(m : ℤ) else m

theorem signed_mul (s t : Bool) (m k : ℕ) : signed s m * signed t k = signed (s != t) (m * k) := by
  cases s <;> cases t <;> simp [signed]

theorem signed_tdiv (s t : Bool) (m k : ℕ) :
    (signed s m).tdiv (signed t k) = signed (s != t) (m / k) := by
  cases s <;> cases t <;> simp [signed]

theorem natAbs_signed (s : Bool) (m : ℕ) : (signed s m).natAbs = m := by
  cases s <;> simp [signed]

/-- The magnitude and the sign of an operand. -/
theorem toInt_eq_signed {x : UInt128} (hx : x ≠ BitVec.intMin 128) :
    x.toInt = signed (x.slt 0) (if x.slt 0 then -x else x).toNat ∧
      (if x.slt 0 then -x else x).toNat < 2 ^ 127 := by
  have hne : x.toNat ≠ 2 ^ 127 := fun h => hx (eq_of_toNat_eq h)
  have hlt := x.isLt
  have hslt : x.slt 0 = decide (2 ^ 127 ≤ x.toNat) := slt_zero_eq_msb.trans
    (msb_eq_decide x)
  rw [hslt, toInt_eq_toNat_cond]
  by_cases hneg : 2 ^ 127 ≤ x.toNat
  · rw [decide_eq_true hneg, if_neg (by omega), if_pos rfl, toNat_neg]
    unfold signed
    rw [if_pos rfl]
    omega
  · rw [decide_eq_false hneg, if_pos (by omega), if_neg Bool.false_ne_true]
    exact ⟨rfl, Nat.lt_of_not_le hneg⟩

/-- The sign is put back. -/
theorem toInt_signed {r : UInt128} {m : ℕ} (hr : r.toNat = m % 2 ^ 128) (negative : Bool)
    (hlow : -2 ^ 127 ≤ signed negative m) (hhigh : signed negative m < 2 ^ 127) :
    (if negative then -r else r).toInt = signed negative m := by
  have hword : (if negative then -r else r) = BitVec.ofInt 128 (signed negative m) := by
    have hr' : r = BitVec.ofInt 128 m := by
      apply eq_of_toNat_eq
      rw [hr, ofInt_natCast, toNat_ofNat]
    unfold signed
    cases negative with
    | true => rw [if_pos rfl, if_pos rfl, hr', ofInt_neg]
    | false => rw [if_neg Bool.false_ne_true, if_neg Bool.false_ne_true, hr']
  rw [hword, toInt_ofInt]
  exact Int.bmod_eq_of_le (by omega) (by omega)

/-! ## The operators -/

/-- **The product never aborts**, and it is exact where it can be represented. -/
theorem mul_spec {v o : UInt128} (hv : v ≠ BitVec.intMin 128) (ho : o ≠ BitVec.intMin 128) :
    ∃ r, mul v o = .ok r ∧ (-2 ^ 127 ≤ product v o → product v o < 2 ^ 127 →
      r.toInt = product v o) := by
  obtain ⟨hv', ha⟩ := toInt_eq_signed hv
  obtain ⟨ho', hb⟩ := toInt_eq_signed ho
  obtain ⟨r, hr, hr'⟩ := umul_spec ha hb
  have hproduct : product v o = signed (v.slt 0 != o.slt 0)
      ((if v.slt 0 then -v else v).toNat * (if o.slt 0 then -o else o).toNat / 2 ^ 64) := by
    unfold product
    rw [hv', ho', signed_mul]
    have hdivisor : (2 ^ 64 : ℤ) = signed false (2 ^ 64) := rfl
    rw [hdivisor, signed_tdiv, bne_false]
  refine ⟨if v.slt 0 != o.slt 0 then -r else r, ?_, fun hlow hhigh => ?_⟩
  · unfold mul outputSign
    dsimp only
    rw [hr]
    rfl
  · rw [hproduct] at hlow hhigh ⊢
    exact toInt_signed hr' _ hlow hhigh

/-- **A quotient is exact** where it can be represented. -/
theorem div_spec {v o : UInt128} (hv : v ≠ BitVec.intMin 128) (ho : o ≠ BitVec.intMin 128) :
    DivExact v o := by
  intro hne hlow hhigh
  obtain ⟨hv', ha⟩ := toInt_eq_signed hv
  obtain ⟨ho', hb⟩ := toInt_eq_signed ho
  have hne' : (if o.slt 0 then -o else o) ≠ 0 := by
    split
    · intro hzero
      exact hne (neg_eq_zero_iff.mp hzero)
    · exact hne
  obtain ⟨r, hr, hr'⟩ := udiv_spec (a := if v.slt 0 then -v else v) hb hne'
  have hquotient : quotient v o = signed (v.slt 0 != o.slt 0)
      ((if v.slt 0 then -v else v).toNat * 2 ^ 64 / (if o.slt 0 then -o else o).toNat) := by
    unfold quotient
    have hscale : (2 ^ 64 : ℤ) = signed false (2 ^ 64) := rfl
    rw [hv', ho', hscale, signed_mul, signed_tdiv, bne_false]
  refine ⟨if v.slt 0 != o.slt 0 then -r else r, ?_, ?_⟩
  · unfold div outputSign
    dsimp only
    rw [hr]
    rfl
  · rw [hquotient] at hlow hhigh ⊢
    exact toInt_signed hr' _ hlow hhigh

/-- **When products and quotients are exact**: a product that can be represented, since one that can
not is never noticed, and every quotient that can be represented. -/
theorem mulExact_iff_and_divExact (v o : UInt128) (hv : v ≠ BitVec.intMin 128)
    (ho : o ≠ BitVec.intMin 128) :
    (MulExact v o ↔ (product v o).natAbs < 2 ^ 127) ∧ DivExact v o := by
  obtain ⟨r, hr, hexact⟩ := mul_spec hv ho
  refine ⟨?_, div_spec hv ho⟩
  constructor
  · intro h
    by_contra hlarge
    have haborts := h.aborts (Nat.le_of_not_lt hlarge)
    rw [hr] at haborts
    cases haborts
  · intro hsmall
    constructor
    · exact fun _ => ⟨r, hr, hexact (by omega) (by omega)⟩
    · exact fun hlarge => absurd hsmall (Nat.not_lt_of_le hlarge)

/-- Minus one and a half times two and a quarter, and divided by it. -/
theorem mulExact_iff_and_divExact_sample : (MulExact (-0x18000000000000000) 0x24000000000000000 ↔
      (product (-0x18000000000000000) 0x24000000000000000).natAbs < 2 ^ 127) ∧
        DivExact (-0x18000000000000000) 0x24000000000000000 :=
  mulExact_iff_and_divExact _ _ (by decide) (by decide)

/-- The square of `2 ^ 32` cannot be represented, and comes out as zero. -/
theorem not_mulExact :
    ¬ ∀ v o : UInt128, v ≠ BitVec.intMin 128 → o ≠ BitVec.intMin 128 → MulExact v o := by
  intro h
  have hexact := h 0x1000000000000000000000000 0x1000000000000000000000000 (by decide) (by decide)
  have haborts := hexact.aborts (by decide)
  exact absurd haborts (by decide)

end Int64x64

end Ns3Dsme.Core
