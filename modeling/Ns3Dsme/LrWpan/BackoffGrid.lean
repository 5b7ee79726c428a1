/-
# The grid of backoff periods

`GetTimeToNextSlot` and the times of the last beacons that it counts from, with times as rational
numbers of seconds and for every PHY: when a backoff boundary lies on the grid that starts with the
beacon.
-/
import Mathlib.Data.Rat.Floor
import Mathlib.Tactic.FieldSimp
import Mathlib.Tactic.Ring
import Ns3Dsme.Lib.Grid
import Ns3Dsme.LrWpan.Csma

namespace Ns3Dsme.BackoffGrid

/-! ## Rates of the PHY -/

/-- A row of `dataSymbolRates` and of `ppduHeaderSymbolNumbers`, with the rates per second. -/
structure PhyTiming where
  bitRate : ℕ
  symbolRate : ℕ
  shrPreamble : ℚ
  shrSfd : ℚ
  phr : ℚ
  bitRate_pos : 0 < bitRate
  symbolRate_pos : 0 < symbolRate

/-- Both tables. -/
def timing : LrWpanPhyOption → PhyTiming
  | .bpsk868 => ⟨20000, 20000, 32, 8, 8, by decide, by decide⟩
  | .bpsk915 => ⟨40000, 40000, 32, 8, 8, by decide, by decide⟩
  | .bpsk950 => ⟨20000, 20000, 32, 8, 8, by decide, by decide⟩
  | .ask868 => ⟨250000, 12500, 2, 1, 2 / 5, by decide, by decide⟩
  | .ask915 => ⟨250000, 50000, 6, 1, 8 / 5, by decide, by decide⟩
  | .oqpsk780 => ⟨250000, 62500, 8, 2, 2, by decide, by decide⟩
  | .oqpsk868 => ⟨100000, 25000, 8, 2, 2, by decide, by decide⟩
  | .oqpsk915 => ⟨250000, 62500, 8, 2, 2, by decide, by decide⟩
  | .oqpsk2400 => ⟨250000, 62500, 8, 2, 2, by decide, by decide⟩

namespace PhyTiming

variable (phy : PhyTiming)

/-- `GetPhySymbolsPerOctet`. -/
def phySymbolsPerOctet : ℚ := phy.symbolRate / (phy.bitRate / 8)

/-- `GetPhySHRDuration`. -/
def phySHRDuration : ℚ := phy.shrPreamble + phy.shrSfd

/-- `GetPpduHeaderTxTime`. -/
def ppduHeaderTxTime : ℚ := (phy.shrPreamble + phy.shrSfd + phy.phr) / phy.symbolRate

/-- `CalculateTxTime` for a packet of `size` octets. -/
def txTime (size : ℕ) : ℚ := phy.ppduHeaderTxTime + size * 8 / phy.bitRate

/-- `m_rxBeaconSymbols`, and `beaconSymbols` of a sent beacon: a whole number. -/
def beaconSymbols (size : ℕ) : ℕ :=
  ⌊phy.phySHRDuration + 1 * phy.phySymbolsPerOctet + size * phy.phySymbolsPerOctet⌋₊

/-- How long a unit backoff period lasts. -/
def backoffPeriod (unitBackoffPeriod : ℕ) : ℚ := unitBackoffPeriod / phy.symbolRate

theorem symbolRate_cast_pos : (0 : ℚ) < phy.symbolRate := Nat.cast_pos.mpr phy.symbolRate_pos

end PhyTiming

/-! ## The times of the last beacons -/

/-- `MilliSeconds` takes a whole number. -/
def milliSeconds (value : ℚ) : ℚ := (⌊value⌋₊ : ℚ) / 1000

structure BeaconTimes where
  macBeaconRxTime : ℚ
  macBeaconTxTime : ℚ

variable (phy : PhyTiming)

/-- `PdDataIndication` of a beacon. -/
def beaconIndication (size : ℕ) (now : ℚ) (b : BeaconTimes) : BeaconTimes :=
  { b with macBeaconRxTime := now - milliSeconds (phy.beaconSymbols size / phy.symbolRate) }

/-- `PdDataConfirm` of a beacon. -/
def beaconConfirm (size : ℕ) (now : ℚ) (b : BeaconTimes) : BeaconTimes :=
  { b with macBeaconTxTime := now - milliSeconds (phy.beaconSymbols size / phy.symbolRate) }

/-- How much before the end of a frame `StartRx` schedules `EndRx`, as the time it takes to get
there. -/
def rxAdvance : ℚ := 236 / 1000000000

/-- When the MAC hears of a beacon that its coordinator started at `start`: at the end of its
transmission, or of its reception. -/
def reportTime (size : ℕ) (incoming : Bool) (propagation start : ℚ) : ℚ :=
  if incoming then start + propagation + (phy.txTime size - rxAdvance)
  else start + phy.txTime size

/-- The times after this beacon. -/
def afterBeacon (size : ℕ) (incoming : Bool) (propagation start : ℚ) (b : BeaconTimes) :
    BeaconTimes :=
  if incoming then
    beaconIndication phy size (reportTime phy size incoming propagation start) b
  else beaconConfirm phy size (reportTime phy size incoming propagation start) b

/-- The time that is counted from. -/
def BeaconTimes.reference (b : BeaconTimes) (incCsma : Bool) : ℚ :=
  if incCsma then b.macBeaconRxTime else b.macBeaconTxTime

/-- `LrWpanCsmaCa::GetTimeToNextSlot`. -/
def getTimeToNextSlot (unitBackoffPeriod : ℕ) (incCsma : Bool) (b : BeaconTimes) (now : ℚ) : ℚ :=
  let elapsedSuperframe := now - b.reference incCsma
  let elapsedSuperframeSymbols := ⌊elapsedSuperframe * phy.symbolRate⌋₊
  let symbolsToBoundary := unitBackoffPeriod - elapsedSuperframeSymbols % unitBackoffPeriod
  ((elapsedSuperframeSymbols + symbolsToBoundary : ℕ) : ℚ) / phy.symbolRate - elapsedSuperframe

/-! ## The next boundary -/

variable {unitBackoffPeriod : ℕ}

/-- The boundary is the next point of the grid of the reference. -/
theorem getTimeToNextSlot_eq (incCsma : Bool) (b : BeaconTimes) (now : ℚ) :
    getTimeToNextSlot phy unitBackoffPeriod incCsma b now =
      (Grid.next unitBackoffPeriod ((now - b.reference incCsma) * phy.symbolRate) : ℚ) /
        phy.symbolRate - (now - b.reference incCsma) := rfl

theorem getTimeToNextSlot_pos (incCsma : Bool) (b : BeaconTimes) (now : ℚ)
    (h : 0 < unitBackoffPeriod) :
    0 < getTimeToNextSlot phy unitBackoffPeriod incCsma b now := by
  rw [getTimeToNextSlot_eq, sub_pos, lt_div_iff₀ phy.symbolRate_cast_pos]
  exact Grid.lt_next _ h

theorem getTimeToNextSlot_le {incCsma : Bool} {b : BeaconTimes} {now : ℚ}
    (hnow : b.reference incCsma ≤ now) :
    getTimeToNextSlot phy unitBackoffPeriod incCsma b now ≤ phy.backoffPeriod unitBackoffPeriod := by
  have hpos := phy.symbolRate_cast_pos
  have helapsed : 0 ≤ (now - b.reference incCsma) * phy.symbolRate :=
    mul_nonneg (sub_nonneg.mpr hnow) hpos.le
  have hnext := @Grid.next_le _ _ _ _ _ unitBackoffPeriod _ helapsed
  rw [getTimeToNextSlot_eq, sub_le_iff_le_add, div_le_iff₀ hpos]
  unfold PhyTiming.backoffPeriod
  rw [add_mul, div_mul_cancel₀ _ hpos.ne']
  linarith

/-- From the reference, the boundary is a whole number of unit backoff periods away. -/
theorem exists_boundary (incCsma : Bool) (b : BeaconTimes) (now : ℚ) (h : 0 < unitBackoffPeriod) :
    ∃ k : ℕ, now + getTimeToNextSlot phy unitBackoffPeriod incCsma b now =
      b.reference incCsma + k * phy.backoffPeriod unitBackoffPeriod := by
  obtain ⟨k, hk⟩ := Grid.dvd_next unitBackoffPeriod
    ((now - b.reference incCsma) * phy.symbolRate) h
  refine ⟨k, ?_⟩
  rw [getTimeToNextSlot_eq, hk]
  unfold PhyTiming.backoffPeriod
  push_cast
  ring

/-! ## The grid of the beacon -/

/-- How far the reference lies behind the start of the beacon. -/
def referenceOffset (size : ℕ) (incoming : Bool) (propagation : ℚ) : ℚ :=
  (if incoming then propagation - rxAdvance else 0) + phy.txTime size -
    milliSeconds (phy.beaconSymbols size / phy.symbolRate)

theorem milliSeconds_nonneg (value : ℚ) : 0 ≤ milliSeconds value :=
  div_nonneg (Nat.cast_nonneg _) (by norm_num)

/-- The reference is the time of the report, but for a whole number of milliseconds. -/
theorem reference_afterBeacon (size : ℕ) (incoming : Bool) (propagation start : ℚ)
    (b : BeaconTimes) : (afterBeacon phy size incoming propagation start b).reference incoming =
      reportTime phy size incoming propagation start -
        milliSeconds (phy.beaconSymbols size / phy.symbolRate) := by
  cases incoming <;> rfl

theorem reference_afterBeacon_eq_add (size : ℕ) (incoming : Bool) (propagation start : ℚ)
    (b : BeaconTimes) : (afterBeacon phy size incoming propagation start b).reference incoming =
      start + referenceOffset phy size incoming propagation := by
  rw [reference_afterBeacon]
  unfold reportTime referenceOffset
  cases incoming
  · rw [if_neg Bool.false_ne_true, if_neg Bool.false_ne_true]
    ring
  · rw [if_pos rfl, if_pos rfl]
    ring

/-- The delay is positive, at most a unit backoff period, and ends a whole number of unit backoff
periods after the start of the beacon. -/
structure Aligned (unitBackoffPeriod : ℕ) (incCsma : Bool) (b : BeaconTimes) (now start : ℚ) :
    Prop where
  pos : 0 < getTimeToNextSlot phy unitBackoffPeriod incCsma b now
  le : getTimeToNextSlot phy unitBackoffPeriod incCsma b now ≤
    phy.backoffPeriod unitBackoffPeriod
  onGrid : ∃ k : ℕ, now + getTimeToNextSlot phy unitBackoffPeriod incCsma b now =
    start + k * phy.backoffPeriod unitBackoffPeriod

/-- **When the backoff boundaries lie on the grid of the beacon**: when the reference lies a whole
number of unit backoff periods behind its start.  This depends on the beacon only, whenever it was
sent and whenever the boundary is asked for. -/
theorem aligned_afterBeacon_iff {size : ℕ} {incoming : Bool} {propagation start now : ℚ}
    (b : BeaconTimes) (h : 0 < unitBackoffPeriod) (hstart : start ≤ now)
    (hnow : reportTime phy size incoming propagation start ≤ now) :
    Aligned phy unitBackoffPeriod incoming
        (afterBeacon phy size incoming propagation start b) now start ↔
      ∃ k : ℤ, referenceOffset phy size incoming propagation =
        k * phy.backoffPeriod unitBackoffPeriod := by
  have hperiod : 0 < phy.backoffPeriod unitBackoffPeriod :=
    div_pos (Nat.cast_pos.mpr h) phy.symbolRate_cast_pos
  obtain ⟨m, hm⟩ := exists_boundary phy incoming
    (afterBeacon phy size incoming propagation start b) now h
  rw [reference_afterBeacon_eq_add] at hm
  constructor
  · intro haligned
    obtain ⟨k, hk⟩ := haligned.onGrid
    refine ⟨(k : ℤ) - m, ?_⟩
    push_cast
    linarith
  · rintro ⟨k, hk⟩
    have hpos := getTimeToNextSlot_pos phy incoming
      (afterBeacon phy size incoming propagation start b) now h
    refine ⟨hpos, getTimeToNextSlot_le phy ?_, ?_⟩
    · rw [reference_afterBeacon]
      have hms := milliSeconds_nonneg (phy.beaconSymbols size / phy.symbolRate)
      linarith
    · -- the boundary lies behind the start, so the number is not negative
      have hsum : now + getTimeToNextSlot phy unitBackoffPeriod incoming
          (afterBeacon phy size incoming propagation start b) now =
            start + ((k + m : ℤ) : ℚ) * phy.backoffPeriod unitBackoffPeriod := by
        push_cast
        linarith
      have hnonneg : 0 < ((k + m : ℤ) : ℚ) * phy.backoffPeriod unitBackoffPeriod := by linarith
      have hkm : 0 < k + m := Int.cast_pos.mp (pos_of_mul_pos_left hnonneg hperiod.le)
      have hcast : (((k + m).toNat : ℕ) : ℚ) = ((k + m : ℤ) : ℚ) := by
        rw [← Int.cast_natCast, Int.toNat_of_nonneg hkm.le]
      exact ⟨(k + m).toNat, by rw [hsum, hcast]⟩

/-! ## O-QPSK at 2.4 GHz -/

/-- The only PHY that can be set up. -/
def oqpsk2400 : PhyTiming := timing .oqpsk2400

/-- The times of the last beacons of a device. -/
def beaconTimes (s : Mac) : BeaconTimes where
  macBeaconRxTime := s.inc.macBeaconRxTime / 10 ^ 9
  macBeaconTxTime := s.out.macBeaconTxTime / 10 ^ 9

/-- What the MAC computes in nanoseconds. -/
theorem getTimeToNextSlot_mac (s : Mac) (incCsma : Bool) :
    getTimeToNextSlot oqpsk2400 aUnitBackoffPeriod incCsma (beaconTimes s) (s.sim.now / 10 ^ 9) =
      s.getTimeToNextSlot incCsma / 10 ^ 9 := by
  obtain ⟨elapsed, helapsed⟩ : ∃ e, e = if incCsma then s.sim.now - s.inc.macBeaconRxTime
    else s.sim.now - s.out.macBeaconTxTime := ⟨_, rfl⟩
  have hseconds : (s.sim.now / 10 ^ 9 - (beaconTimes s).reference incCsma : ℚ) =
      elapsed / 10 ^ 9 := by
    rw [helapsed]
    unfold BeaconTimes.reference beaconTimes
    cases incCsma
    · simp [sub_div]
    · simp [sub_div]
  have hrate : (oqpsk2400.symbolRate : ℚ) = 62500 := rfl
  have hsymbols : ⌊(elapsed / 10 ^ 9 * 62500 : ℚ)⌋₊ = (elapsed / 16000).toNat := by
    rw [show (elapsed / 10 ^ 9 * 62500 : ℚ) = elapsed / (16000 : ℕ) by ring, ← Int.floor_toNat,
      Rat.floor_intCast_div_natCast]
    rfl
  unfold getTimeToNextSlot Mac.getTimeToNextSlot symbols
  rw [hseconds, hrate]
  dsimp only
  rw [hsymbols, ← helapsed]
  push_cast
  ring

theorem beaconSymbols_oqpsk2400 (size : ℕ) : oqpsk2400.beaconSymbols size = frameSymbols size := by
  have hsum : oqpsk2400.phySHRDuration + 1 * oqpsk2400.phySymbolsPerOctet +
      size * oqpsk2400.phySymbolsPerOctet = ((frameSymbols size : ℕ) : ℚ) := by
    unfold PhyTiming.phySHRDuration PhyTiming.phySymbolsPerOctet frameSymbols
    show (8 + 2 : ℚ) + 1 * (((62500 : ℕ) : ℚ) / (((250000 : ℕ) : ℚ) / 8)) +
      size * (((62500 : ℕ) : ℚ) / (((250000 : ℕ) : ℚ) / 8)) = ((10 + 1 * 2 + size * 2 : ℕ) : ℚ)
    push_cast
    ring
  unfold PhyTiming.beaconSymbols
  rw [hsum, Nat.floor_natCast]

/-- No time is taken off the end of a beacon. -/
theorem milliSeconds_beaconSymbols {size : ℕ} (hsize : size ≤ 127) :
    milliSeconds (oqpsk2400.beaconSymbols size / oqpsk2400.symbolRate) = 0 := by
  have hlt : frameSymbols size < 62500 := by
    show 10 + 1 * 2 + size * 2 < 62500
    omega
  unfold milliSeconds
  rw [beaconSymbols_oqpsk2400]
  show ((⌊((frameSymbols size : ℕ) : ℚ) / ((62500 : ℕ) : ℚ)⌋₊ : ℕ) : ℚ) / 1000 = 0
  rw [Rat.natFloor_natCast_div_natCast, Nat.div_eq_of_lt hlt, Nat.cast_zero, zero_div]

theorem txTime_oqpsk2400 (size : ℕ) :
    oqpsk2400.txTime size = ((frameSymbols size : ℕ) : ℚ) / 62500 := by
  unfold PhyTiming.txTime PhyTiming.ppduHeaderTxTime frameSymbols
  show (8 + 2 + 2 : ℚ) / ((62500 : ℕ) : ℚ) + size * 8 / ((250000 : ℕ) : ℚ) =
    ((10 + 1 * 2 + size * 2 : ℕ) : ℚ) / 62500
  push_cast
  ring

/-- A coordinator stays on the grid of its beacons exactly if these last a whole number of unit
backoff periods. -/
theorem aligned_outgoing_iff {size : ℕ} {propagation start now : ℚ} (b : BeaconTimes)
    (hsize : size ≤ 127) (h : 0 < unitBackoffPeriod)
    (hnow : reportTime oqpsk2400 size false propagation start ≤ now) :
    Aligned oqpsk2400 unitBackoffPeriod false
        (afterBeacon oqpsk2400 size false propagation start b) now start ↔
      unitBackoffPeriod ∣ frameSymbols size := by
  have hstart : start ≤ now := by
    have hpos : 0 ≤ oqpsk2400.txTime size := by
      rw [txTime_oqpsk2400]
      exact div_nonneg (Nat.cast_nonneg _) (by norm_num)
    exact (le_add_of_nonneg_right hpos).trans hnow
  have hoffset : referenceOffset oqpsk2400 size false propagation =
      ((frameSymbols size : ℕ) : ℚ) / 62500 := by
    unfold referenceOffset
    rw [milliSeconds_beaconSymbols hsize, txTime_oqpsk2400, if_neg Bool.false_ne_true, zero_add,
      sub_zero]
  have hperiod : oqpsk2400.backoffPeriod unitBackoffPeriod = (unitBackoffPeriod : ℚ) / 62500 := rfl
  rw [aligned_afterBeacon_iff oqpsk2400 b h hstart hnow, hoffset, hperiod]
  constructor
  · rintro ⟨k, hk⟩
    have hint : ((frameSymbols size : ℤ) : ℚ) = ((unitBackoffPeriod * k : ℤ) : ℚ) := by
      push_cast
      linarith
    exact Int.natCast_dvd_natCast.mp ⟨k, Int.cast_injective hint⟩
  · rintro ⟨k, hk⟩
    refine ⟨k, ?_⟩
    rw [hk]
    push_cast
    ring

theorem reportTime_outgoing_le {size : ℕ} (hsize : size ≤ 127) :
    reportTime oqpsk2400 size false 0 0 ≤ 1 := by
  have hle : ((frameSymbols size : ℕ) : ℚ) ≤ 62500 := by
    have hnat : frameSymbols size ≤ 62500 := by
      show 10 + 1 * 2 + size * 2 ≤ 62500
      omega
    exact_mod_cast hnat
  show 0 + oqpsk2400.txTime size ≤ 1
  rw [txTime_oqpsk2400, zero_add, div_le_one (by norm_num)]
  exact hle

/-- A beacon of 24 octets lasts three unit backoff periods. -/
theorem aligned_afterBeacon_three : Aligned oqpsk2400 20 false
    (afterBeacon oqpsk2400 24 false 0 0 ⟨0, 0⟩) 1 0 := by
  apply (aligned_afterBeacon_iff oqpsk2400 ⟨0, 0⟩ (by decide) (by norm_num)
    (reportTime_outgoing_le (by decide))).mpr
  refine ⟨3, ?_⟩
  unfold referenceOffset
  rw [milliSeconds_beaconSymbols (by decide), txTime_oqpsk2400, if_neg Bool.false_ne_true]
  show (0 : ℚ) + ((60 : ℕ) : ℚ) / 62500 - 0 = ((3 : ℤ) : ℚ) * (((20 : ℕ) : ℚ) / ((62500 : ℕ) : ℚ))
  norm_num

/-- Not all boundaries lie on the grid of the beacon: one of 21 octets lasts 54 symbols. -/
theorem not_aligned_afterBeacon : ¬ ∀ (phy : PhyTiming) (unitBackoffPeriod size : ℕ)
    (incoming : Bool) (propagation start now : ℚ) (b : BeaconTimes), 0 < unitBackoffPeriod →
      start ≤ now → reportTime phy size incoming propagation start ≤ now →
        Aligned phy unitBackoffPeriod incoming
          (afterBeacon phy size incoming propagation start b) now start := by
  intro hall
  have hreport : reportTime oqpsk2400 21 false 0 0 ≤ 1 := reportTime_outgoing_le (by decide)
  have haligned := hall oqpsk2400 20 21 false 0 0 1 ⟨0, 0⟩ (by decide) (by norm_num) hreport
  have hdvd := (aligned_outgoing_iff ⟨0, 0⟩ (by decide) (by decide) hreport).mp haligned
  exact absurd hdvd (by decide)

end Ns3Dsme.BackoffGrid
