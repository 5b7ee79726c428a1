/-
# The superframe timeline

`StartCAP`, `StartCFP` and `StartRemainingPeriod` for the outgoing and the incoming
superframe, the superframe counters, and the supervision of the coordinator's beacons.
-/
import Ns3Dsme.LrWpan.Transmission

namespace Ns3Dsme.Mac

/-! ## Periods of a superframe -/

/-- Symbols from the start of the beacon slot to the end of the CAP. -/
def capDuration (superframeDuration fnlCapSlot : ℕ) : ℕ :=
  superframeDuration / 16 * (fnlCapSlot + 1)

/-- Symbols from the end of the CAP to the end of the superframe. -/
def cfpDuration (superframeDuration fnlCapSlot : ℕ) : ℕ :=
  superframeDuration / 16 * (15 - fnlCapSlot)

/-- The airtime of the last outgoing beacon, `m_macBeaconTxTime - m_BeaconStartTxTime`. -/
def beaconAirtime (s : Mac) : ℤ := s.out.macBeaconTxTime - s.out.beaconStartTxTime

/-- `StartCAP`. -/
def startCAP (superframeType : SuperframeType) (s : Mac) : Exec Mac :=
  match superframeType with
  | .outgoing => do
    let s := { s with
      inc := { s.inc with incSuperframe := false }
      out := { s.out with outSuperframeStatus := .cap } }
    let cap := capDuration s.out.superframeDuration s.out.fnlCapSlot
    let s ← s.schedule .capEvent (.startCFP .outgoing) (symbols cap - s.beaconAirtime)
    .ok s.checkQueue
  | .incoming => do
    let s := { s with
      inc := { s.inc with incSuperframe := true, incSuperframeStatus := .cap } }
    let cap := capDuration s.inc.incomingSuperframeDuration s.inc.incomingFnlCapSlot
    let (capTime, s) := s.difference .capMinusRxBeacon 64 cap s.inc.rxBeaconSymbols
    .ok (s.scheduleSymbols .incCapEvent (.startCFP .incoming) capTime).checkQueue

/-- `StartCFP`.  Under CAP reduction the CAP of a superframe is replaced by a first CFP, and
`StartCFP` runs a second time at its end. -/
def startCFP (superframeType : SuperframeType) (s : Mac) : Exec Mac :=
  match superframeType with
  | .incoming =>
    let cfp := cfpDuration s.inc.incomingSuperframeDuration s.inc.incomingFnlCapSlot
    let s := { s with inc := { s.inc with
      incSuperframeStatus := if cfp > 0 then .cfp else s.inc.incSuperframeStatus } }
    if s.cfg.macDSMEenabled then
      if s.inc.incomingFirstCFP then
        let cap := capDuration s.inc.incomingSuperframeDuration s.inc.incomingFnlCapSlot
        let (cfpTime, s) := s.difference .capMinusRxBeacon 64 cap s.inc.rxBeaconSymbols
        let s := { s with inc := { s.inc with incomingFirstCFP := false } }
        .ok (s.scheduleSymbols .incCfpEvent (.startCFP .incoming) cfpTime)
      else .ok (s.scheduleSymbols .incCfpEvent (.startRemainingPeriod .incoming) cfp)
    else .ok s
  | .outgoing =>
    let cfp := cfpDuration s.out.superframeDuration s.out.fnlCapSlot
    let s := { s with out := { s.out with
      outSuperframeStatus := if cfp > 0 then .cfp else s.out.outSuperframeStatus } }
    if s.cfg.macDSMEenabled then
      if s.out.firstCFP then
        let cap := capDuration s.out.superframeDuration s.out.fnlCapSlot
        let s := { s with out := { s.out with firstCFP := false } }
        s.schedule .cfpEvent (.startCFP .outgoing) (symbols cap - s.beaconAirtime)
      else .ok (s.scheduleSymbols .cfpEvent (.startRemainingPeriod .outgoing) cfp)
    else .ok s

/-- `StartRemainingPeriod`.  The outgoing status changes only when a whole second is left:
`ToInteger(Time::S)` truncates. -/
def startRemainingPeriod (superframeType : SuperframeType) (s : Mac) : Exec Mac :=
  match superframeType with
  | .incoming =>
    let (remaining, s) := s.difference .beaconIntervalMinusSuperframe 32
      s.inc.incomingBeaconInterval s.inc.incomingSuperframeDuration
    let s := { s with inc := { s.inc with
      incSuperframeStatus := if remaining > 0 then .remaining else s.inc.incSuperframeStatus } }
    .ok (s.scheduleSymbols .beaconEvent .awaitBeacon remaining)
  | .outgoing => do
    let endRemainingTime := symbols s.out.beaconInterval - (s.sim.now - s.out.startOfBcnSlot)
    let s := { s with out := { s.out with
      outSuperframeStatus :=
        if endRemainingTime ≥ 1000000000 then .remaining else s.out.outSuperframeStatus } }
    let s ← s.schedule .beaconEvent .sendOneEnhancedBeacon endRemainingTime
    s.scheduleAnonymous .purgeDsmeACT endRemainingTime

/-- `AwaitBeacon`. -/
def awaitBeacon (s : Mac) : Mac :=
  { s with inc := { s.inc with incSuperframeStatus := .beacon } }

/-! ## Counting superframes -/

/-- `StartSuperframe`. -/
def startSuperframe (s : Mac) : Exec Mac := do
  let superframes ← s.superframesPerMultisuperframe
  let (last, s) := s.difference .superframesMinusOne 64 superframes 1
  let count := s.count
  let curSuperframeIDx :=
    if count.curSuperframeIDx < last ∧ count.isFirstSuperframe = false then
      count.curSuperframeIDx + 1
    else count.curSuperframeIDx
  let s ← s.scheduleAnonymous .startSuperframe (symbols s.out.superframeDuration)
  .ok { s with count := { count with curSuperframeIDx, isFirstSuperframe := false } }

/-- `StartMultisuperframe`.  The chain of `StartSuperframe` events is started once, during the
first superframe duration of the simulation. -/
def startMultisuperframe (superframeType : SuperframeType) (s : Mac) : Exec Mac :=
  let s := { s with count := {
    multisuperframeSeq := s.count.multisuperframeSeq + 1
    isFirstSuperframe := true
    curSuperframeIDx := 0 } }
  let s := match superframeType with
    | .outgoing =>
      s.scheduleSymbols .multisuperframeEndEvent (.startMultisuperframe .outgoing)
        s.out.multiSuperframeDuration
    | .incoming => s
  if s.sim.now ≤ symbols s.out.superframeDuration then
    .ok (s.scheduleSymbols .startFirstSuperframeEvent .startSuperframe s.out.superframeDuration)
  else .ok s

/-! ## Beacon tracking -/

/-- Symbols for which one beacon is searched. -/
def searchSymbols (incomingBeaconOrder : ℕ) : ℕ :=
  (2 ^ incomingBeaconOrder + 1) * aBaseSuperframeDuration

/-- `BeaconSearchTimeout`. -/
def beaconSearchTimeout (s : Mac) : Mac :=
  if s.inc.numLostBeacons > aMaxLostBeacons then
    if s.cfg.mlmeSyncLossIndicationCallback then
      { s with inc := { s.inc with beaconTrackingOn := false, numLostBeacons := 0 } }.emit
        .mlmeSyncLossIndication
    else s
  else
    { s with inc := { s.inc with numLostBeacons := s.inc.numLostBeacons + 1 } }.scheduleSymbols
      .trackingEvent .beaconSearchTimeout (searchSymbols s.inc.incomingBeaconOrder)

/-- `MlmeSyncRequest`. -/
def mlmeSyncRequest (trackBcn : Bool) (s : Mac) : Exec Mac := do
  let s ← s.plmeSetAttributeRequest
  let s ← s.plmeSetTRXStateRequest
  let s := s.cancel .trackingEvent
  if trackBcn then
    .ok ({ s with inc := { s.inc with beaconTrackingOn := true, numLostBeacons := 0 } }
      |>.scheduleSymbols .trackingEvent .beaconSearchTimeout
        (searchSymbols s.inc.incomingBeaconOrder))
  else .ok { s with inc := { s.inc with beaconTrackingOn := false } }

end Ns3Dsme.Mac
