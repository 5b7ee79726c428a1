/-
# CSMA-CA

`LrWpanCsmaCa` up to the point where it reports an outcome: starting, drawing a
backoff, checking that the transaction fits into the CAP and asking the PHY for a clear
channel assessment.  `PlmeCcaConfirm` and `DeferCsmaTimeout`, which call back into the
MAC, follow in `Transmission`.
-/
import Ns3Dsme.LrWpan.State
import Ns3Dsme.LrWpan.UsedBackoffs

namespace Ns3Dsme.Mac

/-! ## Lengths the MAC reports to CSMA-CA -/

/-- `GetIfsSize` for the packet in transmission, in symbols. -/
def ifsSize (p : Packet) : ℕ :=
  if p.size ≤ aMaxSIFSFrameSize then macSIFSPeriod else macLIFSPeriod

/-- `GetMacAckWaitDuration`, in symbols. -/
def macAckWaitDuration : ℕ :=
  aUnitBackoffPeriod + aTurnaroundTime + phySHRDuration + 6 * phySymbolsPerOctet

/-! ## Starting -/

/-- `GetTimeToNextSlot`: the delay to the next backoff period boundary, in exact arithmetic.  The
source counts the symbols in a `double`. -/
def getTimeToNextSlot (s : Mac) (incCsma : Bool) : ℤ :=
  let elapsedSuperframe :=
    if incCsma then s.sim.now - s.inc.macBeaconRxTime else s.sim.now - s.out.macBeaconTxTime
  let elapsedSuperframeSymbols := (elapsedSuperframe / 16000).toNat
  let symbolsToBoundary := aUnitBackoffPeriod - elapsedSuperframeSymbols % aUnitBackoffPeriod
  symbols (elapsedSuperframeSymbols + symbolsToBoundary) - elapsedSuperframe

/-- `LrWpanCsmaCa::Start`. -/
def csmaStart (s : Mac) : Exec Mac :=
  if s.csma.isSlotted then
    let be := if s.csma.macBattLifeExt then min 2 s.csma.macMinBE else s.csma.macMinBE
    let incCsma := s.inc.incSuperframe
    let s := { s with csma := { s.csma with nb := 0, cw := 1, be, incCsma } }
    s.schedule .randomBackoffEvent .randomBackoffDelay (s.getTimeToNextSlot incCsma)
  else
    let s := { s with csma := { s.csma with nb := 0, be := s.csma.macMinBE } }
    .ok (s.scheduleNow .randomBackoffEvent .randomBackoffDelay)

/-- `LrWpanCsmaCa::Cancel`.  The end-of-CAP event is not cancelled, and a running
assessment is cancelled in the PHY only. -/
def csmaCancel (s : Mac) : Mac :=
  (((s.cancel .randomBackoffEvent).cancel .requestCcaEvent).cancel .canProceedEvent).cancel
    .ccaRequest

/-! ## Backoff and the time left in the CAP -/

/-- `GetTimeLeftInCap`. -/
def getTimeLeftInCap (s : Mac) : ℤ :=
  let capSymbols :=
    if s.role.coord then s.out.superframeDuration / 16 * (s.out.fnlCapSlot + 1)
    else s.inc.incomingSuperframeDuration / 16 * (s.inc.incomingFnlCapSlot + 1)
  let origin := if s.csma.incCsma then s.inc.macBeaconRxTime else s.out.macBeaconTxTime
  origin + symbols capSymbols - s.sim.now

/-- `LrWpanCsmaCa::RandomBackoffDelay`.  Whatever `m_BE` is, `GetValue(0, 7)` draws one of
`0 .. 6`.  A negative time left counts no periods, and then stops the simulator. -/
def randomBackoffDelay (s : Mac) : Exec Mac :=
  let s :=
    if s.csma.randomBackoffPeriodsLeft = 0 ∨ s.csma.isSlotted = false then
      { s with csma := { s.csma with randomBackoffPeriodsLeft := s.phy.random % 7 } }
    else s
  let randomBackoff := symbols (s.csma.randomBackoffPeriodsLeft * aUnitBackoffPeriod)
  if s.csma.isSlotted = false then
    s.schedule .requestCcaEvent .requestCCA randomBackoff
  else
    let timeLeftInCap := s.getTimeLeftInCap
    if randomBackoff ≥ timeLeftInCap then
      let s := { s with csma := { s.csma with
        randomBackoffPeriodsLeft :=
          s.csma.randomBackoffPeriodsLeft - usedBackoffs timeLeftInCap } }
      s.schedule .endCapEvent .deferCsmaTimeout timeLeftInCap
    else s.schedule .canProceedEvent .canProceed randomBackoff

/-- The symbols a transaction takes: assessments, frame, turnaround or acknowledgment,
and interframe space. -/
def transactionSymbols (cw : ℕ) (p : Packet) : ℕ :=
  8 * cw + frameSymbols p.size
    + (if p.hdr.ackReq then macAckWaitDuration else aTurnaroundTime * 2) + ifsSize p

/-- `LrWpanCsmaCa::CanProceed`. -/
def canProceed (s : Mac) : Exec Mac :=
  let s := { s with csma := { s.csma with randomBackoffPeriodsLeft := 0 } }
  match s.tx.txPkt with
  | none => .error .assertFailed
  | some p =>
    let cost := transactionSymbols s.csma.cw p
    let s := s.emit (.macTransCost cost)
    let timeLeftInCap := s.getTimeLeftInCap
    if symbols cost > timeLeftInCap then
      s.schedule .endCapEvent .deferCsmaTimeout timeLeftInCap
    else .ok (s.scheduleNow .requestCcaEvent .requestCCA)

end Ns3Dsme.Mac
