/-
# Backoff periods that a double counts

`RandomBackoffDelay` counts the backoff periods left in a CAP in seconds: it multiplies the time by
the inverse of the seconds, rounds to a `double`, multiplies by the symbol rate, divides by the
length of a period and drops what is behind the point.  Every rounding may fall short of a whole
number, and of the lengths a backoff can have 3 and 5 periods do.
-/
import Ns3Dsme.Core.TimeConversionExact
import Ns3Dsme.Lib.Rounding
import Ns3Dsme.LrWpan.Basic

namespace Ns3Dsme.Mac

open Rounding

/-- The inverse that `SetResolution` keeps for the seconds, in units of `2 ^ -128`. -/
def inverseOfSeconds : ℕ := 2 ^ 128 / 10 ^ 9 + 1

/-- `GetSeconds` for a time that is not negative, in units of `2 ^ -128`: an `int64x64_t` becomes a
`long double`, and that a `double`. -/
def getSeconds (time : ℕ) : ℕ :=
  toBits 53 (toBits 64 (time * inverseOfSeconds / 2 ^ 64 * 2 ^ 64) 1) 1

/-- `usedBackoffs`: the seconds times the symbol rate, by the symbols of a backoff period. -/
def usedBackoffs : ℤ → ℕ
  | .ofNat time => toBits 53 (toBits 53 (getSeconds time * 62500) 1) aUnitBackoffPeriod / 2 ^ 128
  | .negSucc _ => 0

section Seconds

open Core.Int64x64

/-- The `int64x64_t` of `GetSeconds` is the product with the inverse. -/
theorem exists_invert_seconds {t : BitVec 64} (ht : t.toNat < 2 ^ 63) :
    ∃ inverse, invert 1000000000 = .ok inverse ∧
      (mulByInvert (ofInt64 t) inverse).toInt = t.toNat * inverseOfSeconds / 2 ^ 64 := by
  obtain ⟨inverse, hinvert, hinverse⟩ := exists_invert (v := 1000000000) (by decide) (by decide)
  have hvalue : inverse.toNat = inverseOfSeconds := by
    have hlow := hinverse.low
    have hhigh := hinverse.high
    have hunit : (1000000000 : BitVec 64).toNat = 10 ^ 9 := by decide
    rw [hunit] at hlow hhigh
    unfold inverseOfSeconds
    omega
  have hsign : t.toInt = t.toNat := BitVec.toInt_eq_toNat_of_lt (by omega)
  obtain ⟨hproduct, -⟩ := toInt_mulByInvert (o := inverse) (toInt_ofInt64 t) (by omega)
    (toNat_le_of_isReciprocal (by decide) hinverse)
  rw [hsign, decide_eq_false (by omega), hvalue] at hproduct
  exact ⟨inverse, hinvert, hproduct⟩

end Seconds

theorem usedBackoffs_mono {time later : ℤ} (h : time ≤ later) :
    usedBackoffs time ≤ usedBackoffs later := by
  cases time with
  | negSucc _ => exact Nat.zero_le _
  | ofNat time =>
    cases later with
    | negSucc n =>
      have hneg := lt_of_le_of_lt h (Int.negSucc_lt_zero n)
      exact absurd hneg (Int.not_lt.mpr (Int.natCast_nonneg time))
    | ofNat later =>
      have hseconds : getSeconds time ≤ getSeconds later := by
        refine toBits_mono (by decide) (toBits_mono (by decide) (Nat.mul_le_mul_right _ ?_))
        exact Nat.div_le_div_right (Nat.mul_le_mul_right _ (Int.ofNat_le.mp h))
      refine Nat.div_le_div_right (toBits_mono (by decide) (toBits_mono (by decide) ?_))
      exact Nat.mul_le_mul_right _ hseconds

/-- Between two times with the same count. -/
theorem usedBackoffs_eq_of_le {low high time : ℤ} {n : ℕ}
    (hends : usedBackoffs low = n ∧ usedBackoffs high = n) (hlow : low ≤ time)
    (hhigh : time ≤ high) : usedBackoffs time = n :=
  Nat.le_antisymm (hends.2 ▸ usedBackoffs_mono hhigh) (hends.1 ▸ usedBackoffs_mono hlow)

/-- **The double counts the whole periods**, up to six of them, except where 3 or 5 are left to the
nanosecond. -/
theorem usedBackoffs_eq {time : ℤ} (h : 0 ≤ time) (hlt : time < symbols (6 * aUnitBackoffPeriod))
    (hthree : time ≠ symbols (3 * aUnitBackoffPeriod))
    (hfive : time ≠ symbols (5 * aUnitBackoffPeriod)) :
    usedBackoffs time = (time / symbols aUnitBackoffPeriod).toNat := by
  unfold symbols aUnitBackoffPeriod at *
  have hcases : time ≤ 319999 ∨ 320000 ≤ time ∧ time ≤ 639999 ∨ 640000 ≤ time ∧ time ≤ 959999
      ∨ 960001 ≤ time ∧ time ≤ 1279999 ∨ 1280000 ≤ time ∧ time ≤ 1599999 ∨ 1600001 ≤ time := by
    omega
  rcases hcases with hle | ⟨hge, hle⟩ | ⟨hge, hle⟩ | ⟨hge, hle⟩ | ⟨hge, hle⟩ | hge
  · rw [usedBackoffs_eq_of_le (n := 0) (by decide +kernel) h hle]
    omega
  · rw [usedBackoffs_eq_of_le (n := 1) (by decide +kernel) hge hle]
    omega
  · rw [usedBackoffs_eq_of_le (n := 2) (by decide +kernel) hge hle]
    omega
  · rw [usedBackoffs_eq_of_le (n := 3) (by decide +kernel) hge hle]
    omega
  · rw [usedBackoffs_eq_of_le (n := 4) (by decide +kernel) hge hle]
    omega
  · have hle : time ≤ 1919999 := by omega
    rw [usedBackoffs_eq_of_le (n := 5) (by decide +kernel) hge hle]
    omega

/-- With 3 periods left 2 are counted, and with 5 left 4. -/
example : usedBackoffs (symbols (3 * aUnitBackoffPeriod)) = 2
    ∧ usedBackoffs (symbols (5 * aUnitBackoffPeriod)) = 4 := by decide +kernel

end Ns3Dsme.Mac
