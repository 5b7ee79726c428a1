/-
# The PHY

`lr-wpan-phy.cc`: the transceiver states, transmissions, receptions and measurements.  What
depends on signal powers is an input: whether a receiver synchronizes to a frame, whether
interference destroyed it and whether a channel is above the threshold.  Every primitive the
PHY issues to the MAC is written to a trace; calls the MAC makes in response are inputs of
their own.
-/
import Ns3Dsme.Lib.Machine
import Ns3Dsme.Lib.Timers
import Ns3Dsme.LrWpan.Basic

open Program

namespace Ns3Dsme

/-- The ways in which a handler of the PHY does not return. -/
inductive PhyFault
  /-- `NS_ABORT_IF` and `NS_ABORT_MSG_UNLESS`. -/
  | abort
  | assertFailed
  /-- "This should be unreachable" in `PdDataRequest`. -/
  | unreachable
  /-- "Unexpected transition" in `PlmeSetTRXStateRequest`. -/
  | unexpectedTransition
  | nullPacket
  | undefinedShift
  deriving DecidableEq, Repr

/-- The statuses of a `PlmeSetAttributeConfirm`. -/
inductive SetAttributeStatus
  | success
  | invalidParameter
  | unsupportedAttribute
  deriving DecidableEq, Repr

/-- What the PHY issues and what its trace sources show.  Requests and frames on the air are
numbered; in a `pdDataConfirm`, `frame` is the one in `m_currentTxPacket` and `timer` the one
whose `EndTx` issued the confirm. -/
inductive PhyOutput
  | phyTxBegin (request size : ℕ)
  | pdDataConfirm (status : LrWpanPhyEnumeration) (frame timer : Option ℕ)
  /-- `CancelPdDataRequest` has withdrawn a request. -/
  | pdDataCancelled (request : Option ℕ)
  | phyRxBegin (signal : ℕ)
  | phyRxDrop (signal : ℕ)
  | pdDataIndication (signal : ℕ)
  | plmeCcaConfirm (status : LrWpanPhyEnumeration)
  | plmeEdConfirm (status : LrWpanPhyEnumeration) (energyLevel : BitVec 8)
  | plmeSetTRXStateConfirm (status : LrWpanPhyEnumeration)
  | plmeSetAttributeConfirm (status : SetAttributeStatus)
  /-- The traced `m_trxState` is assigned. -/
  | trxState (state : LrWpanPhyEnumeration)
  /-- The channel is assigned. -/
  | phyCurrentChannel (channel : BitVec 8)
  deriving DecidableEq, Repr

/-- The members of `LrWpanPhy` that decide what it does.  A packet or signal is the number of
the request or of the frame on the air, and comes with the flag that it has been cut off. -/
structure LrWpanPhy where
  now : ℤ := 0
  trxState : LrWpanPhyEnumeration := .phyTrxOff
  trxStatePending : LrWpanPhyEnumeration := .phyIdle
  isRxCanceled : Bool := false
  currentRxPacket : Option ℕ × Bool := (none, true)
  currentTxPacket : Option ℕ × Bool := (none, true)
  phyCurrentChannel : BitVec 8 := 11
  phyChannelsSupported : BitVec 32 := 0x7FFF800
  phyCCAMode : BitVec 8 := 1
  /-- `m_setTRXState`: the time of the pending `EndSetTRXState`.  It is always cancelled before
  it is scheduled again. -/
  setTRXState : Option ℤ := none
  /-- `m_pdDataRequest` and the pending `EndTx`. -/
  pdDataRequest : Timers ℕ := {}
  /-- `m_ccaRequest` and the pending `EndCca`. -/
  ccaRequest : Timers ℕ := {}
  /-- `m_edRequest` and the pending `EndEd`. -/
  edRequest : Timers ℕ := {}
  /-- The pending `EndRx`, which no member refers to. -/
  endRx : Timers ℕ := {}
  nextId : ℕ := 0
  trace : List (ℤ × PhyOutput) := []

namespace LrWpanPhy

/-- `CalculateTxTime`. -/
def txTime (size : ℕ) : ℤ :=
  symbols (frameSymbols size)

/-- The turnaround time of the transceiver. -/
def turnaroundTime : ℤ :=
  symbols aTurnaroundTime

/-- How long an assessment of the channel takes. -/
def measureTime : ℤ :=
  symbols 8

/-- A frame is taken to have been received this long before its transmission ends. -/
def arrivalLead : ℤ := 236

/-- Issue a primitive. -/
def emit (o : PhyOutput) (s : LrWpanPhy) : LrWpanPhy :=
  { s with trace := s.trace ++ [(s.now, o)] }

/-- `ChangeTrxState`. -/
def changeTrxState (state : LrWpanPhyEnumeration) (s : LrWpanPhy) : LrWpanPhy :=
  { s with trxState := state }.emit (.trxState state)

/-- `PhyIsBusy`. -/
def phyIsBusy (s : LrWpanPhy) : Bool :=
  s.trxState == .phyBusyTx || s.trxState == .phyBusyRx || s.trxState == .phyBusy

/-- Apply the pending state, unless the transceiver is already switching. -/
def applyPendingState (s : LrWpanPhy) : LrWpanPhy :=
  if s.setTRXState.isNone then
    let s := s.changeTrxState s.trxStatePending
    { s with trxStatePending := .phyIdle }.emit (.plmeSetTRXStateConfirm .phySuccess)
  else s

/-! ## Receiving -/

/-- `CheckInterference`. -/
def checkInterference (destroyed : Bool) (s : LrWpanPhy) : Except PhyFault LrWpanPhy :=
  if s.trxState = .phyBusyRx then
    match s.currentRxPacket with
    | (none, _) => .error .nullPacket
    | (some signal, flag) => .ok { s with currentRxPacket := (some signal, flag || destroyed) }
  else .ok s

/-- `StartRx`. -/
def startRx (size : ℕ) (synchronizes destroyed : Bool) (s : LrWpanPhy) :
    Except PhyFault LrWpanPhy := do
  let signal := s.nextId
  let s := { s with nextId := s.nextId + 1 }
  let s ←
    if s.trxState = .phyRxOn ∧ s.setTRXState = none then
      if synchronizes then
        .ok ({ s.changeTrxState .phyBusyRx with
          currentRxPacket := (some signal, false) }.emit (.phyRxBegin signal))
      else .ok (s.emit (.phyRxDrop signal))
    else if s.trxState = .phyBusyRx then (s.emit (.phyRxDrop signal)).checkInterference destroyed
    else .ok (s.emit (.phyRxDrop signal))
  .ok { s with endRx := s.endRx.post signal (s.now + (txTime size - arrivalLead)) }

/-- What `EndRx` does at the end of the frame that is being received. -/
def endCurrentRx (signal : ℕ) (corrupt : Bool) (s : LrWpanPhy) : LrWpanPhy :=
  let s :=
    if s.currentRxPacket.2 || corrupt then s.emit (.phyRxDrop signal)
    else s.emit (.pdDataIndication signal)
  let s := { s with currentRxPacket := (none, true) }
  if s.isRxCanceled then { s with isRxCanceled := false }
  else if s.trxStatePending ≠ .phyIdle then s.applyPendingState
  else s.changeTrxState .phyRxOn

/-- `EndRx`. -/
def endRxOf (signal : ℕ) (destroyed corrupt : Bool) (s : LrWpanPhy) : Except PhyFault LrWpanPhy :=
  if s.currentRxPacket.1 = some signal then do
    let s ← s.checkInterference destroyed
    .ok (s.endCurrentRx signal corrupt)
  else .ok s

/-! ## Transmitting -/

/-- Send a frame down. -/
def startTx (size : ℕ) (s : LrWpanPhy) : LrWpanPhy :=
  let request := s.nextId
  let s := { s with nextId := s.nextId + 1 }.emit (.phyTxBegin request size)
  let s := { s with
    currentTxPacket := (some request, false)
    pdDataRequest := s.pdDataRequest.post request (s.now + txTime size) }
  s.changeTrxState .phyBusyTx

/-- `PdDataRequest`. -/
def pdDataRequestOf (psduLength size : ℕ) (s : LrWpanPhy) : Except PhyFault LrWpanPhy :=
  if psduLength > aMaxPhyPacketSize then .ok (s.emit (.pdDataConfirm .phyUnspecified none none))
  else if s.setTRXState = none then
    match s.trxState with
    | .phyTxOn => .ok (s.startTx size)
    | .phyRxOn | .phyTrxOff | .phyBusyTx => .ok (s.emit (.pdDataConfirm s.trxState none none))
    | _ => .error .unreachable
  else .ok (s.emit (.pdDataConfirm .phyUnspecified none none))

/-- `CancelPdDataRequest`. -/
def cancelPdDataRequest (s : LrWpanPhy) : LrWpanPhy :=
  if s.pdDataRequest.isRunning then
    { s with pdDataRequest := s.pdDataRequest.cancel }.emit
      (.pdDataCancelled s.pdDataRequest.held)
  else s

/-- The end of `EndTx`, after the confirm. -/
def finishTx (s : LrWpanPhy) : LrWpanPhy :=
  let s := { s with currentTxPacket := (none, false) }
  if s.trxStatePending ≠ .phyIdle then s.applyPendingState
  else if s.trxState ≠ .phyTrxOff then s.changeTrxState .phyTxOn
  else s

/-- `EndTx`, run by the timer of request `timer`. -/
def endTx (timer : ℕ) (s : LrWpanPhy) : Except PhyFault LrWpanPhy :=
  if s.trxState ≠ .phyBusyTx ∧ s.trxState ≠ .phyTrxOff then .ok s
  else if s.currentTxPacket.2 = false then
    .ok (s.emit (.pdDataConfirm .phySuccess s.currentTxPacket.1 (some timer))).finishTx
  else if s.trxState = .phyTrxOff then
    .ok (s.emit (.pdDataConfirm s.trxState s.currentTxPacket.1 (some timer))).finishTx
  else .error .assertFailed

/-! ## Measuring -/

/-- `PlmeCcaRequest`. -/
def plmeCcaRequest (s : LrWpanPhy) : LrWpanPhy :=
  if s.trxState = .phyRxOn ∨ s.trxState = .phyBusyRx then
    { s with
      nextId := s.nextId + 1
      ccaRequest := s.ccaRequest.post s.nextId (s.now + measureTime) }
  else if s.trxState = .phyTrxOff then s.emit (.plmeCcaConfirm .phyTrxOff)
  else s.emit (.plmeCcaConfirm .phyBusy)

/-- `CcaCancel`. -/
def ccaCancel (s : LrWpanPhy) : LrWpanPhy :=
  { s with ccaRequest := s.ccaRequest.cancel }

/-- `EndCca`. -/
def endCca (aboveThreshold : Bool) (s : LrWpanPhy) : LrWpanPhy :=
  if s.phyIsBusy then s.emit (.plmeCcaConfirm .phyBusy)
  else if s.phyCCAMode = 1 ∧ aboveThreshold then s.emit (.plmeCcaConfirm .phyBusy)
  else s.emit (.plmeCcaConfirm .phyIdle)

/-- `PlmeEdRequest`. -/
def plmeEdRequest (s : LrWpanPhy) : LrWpanPhy :=
  if s.trxState = .phyRxOn ∨ s.trxState = .phyBusyRx then
    { s with
      nextId := s.nextId + 1
      edRequest := s.edRequest.post s.nextId (s.now + measureTime) }
  else if s.trxState = .phyBusyTx then s.emit (.plmeEdConfirm .phyTxOn 0)
  else s.emit (.plmeEdConfirm s.trxState 0)

/-- `CancelEd`. -/
def cancelEd (state : LrWpanPhyEnumeration) (s : LrWpanPhy) : LrWpanPhy :=
  if s.edRequest.isRunning then
    { s with edRequest := s.edRequest.cancel }.emit (.plmeEdConfirm state 0)
  else s

/-! ## Switching the transceiver -/

/-- `EndSetTRXState`. -/
def endSetTRXState (s : LrWpanPhy) : Except PhyFault LrWpanPhy :=
  if s.trxStatePending ≠ .phyRxOn ∧ s.trxStatePending ≠ .phyTxOn then .error .abort
  else
    let s := { s.changeTrxState s.trxStatePending with trxStatePending := .phyIdle }
    .ok (s.emit (.plmeSetTRXStateConfirm s.trxState))

/-- Switch to a state after the turnaround time. -/
def startSetTRXState (state : LrWpanPhyEnumeration) (s : LrWpanPhy) : LrWpanPhy :=
  { s with trxStatePending := state, setTRXState := some (s.now + turnaroundTime) }

/-- Mark the frame that is being received as incomplete and its reception as canceled. -/
def terminateReception (s : LrWpanPhy) : LrWpanPhy :=
  if s.currentRxPacket.1.isSome then
    { s with currentRxPacket := (s.currentRxPacket.1, true), isRxCanceled := true }
  else s

/-- `PlmeSetTRXStateRequest(TRX_OFF)`, when the transceiver is neither off nor transmitting. -/
def requestTrxOff (s : LrWpanPhy) : Except PhyFault LrWpanPhy :=
  let s := s.cancelEd .phyTrxOff
  if s.trxState = .phyBusyRx ∧ s.currentRxPacket.1.isSome ∧ s.currentRxPacket.2 = false then
    .ok { s with trxStatePending := .phyTrxOff }
  else if s.trxState = .phyRxOn ∨ s.trxState = .phyTxOn then
    .ok ((s.changeTrxState .phyTrxOff).emit (.plmeSetTRXStateConfirm .phyTrxOff))
  else .error .unexpectedTransition

/-- If an assessment of the channel is in progress, cancel it and report a busy channel. -/
def giveUpCca (s : LrWpanPhy) : LrWpanPhy :=
  if s.ccaRequest.isRunning then
    { s with ccaRequest := s.ccaRequest.cancel }.emit (.plmeCcaConfirm .phyBusy)
  else s

/-- `PlmeSetTRXStateRequest(TX_ON)`, when the transmitter is not on already. -/
def requestTxOn (s : LrWpanPhy) : Except PhyFault LrWpanPhy :=
  let s := s.cancelEd .phyTxOn
  match s.trxState with
  | .phyBusyRx | .phyRxOn => .ok (s.terminateReception.giveUpCca.startSetTRXState .phyTxOn)
  | .phyBusyTx | .phyTxOn => .ok (s.emit (.plmeSetTRXStateConfirm .phyTxOn))
  | .phyTrxOff => .ok ((s.changeTrxState .phyTxOn).emit (.plmeSetTRXStateConfirm .phyTxOn))
  | _ => .error .unexpectedTransition

/-- `PlmeSetTRXStateRequest(FORCE_TRX_OFF)`. -/
def requestForceTrxOff (s : LrWpanPhy) : LrWpanPhy :=
  let s :=
    if s.trxState = .phyTrxOff then s
    else
      let s := s.terminateReception
      let s :=
        if s.trxState = .phyBusyTx then
          { s with currentTxPacket := (s.currentTxPacket.1, true) }
        else s
      { s.changeTrxState .phyTrxOff with trxStatePending := .phyIdle }
  s.emit (.plmeSetTRXStateConfirm .phySuccess)

/-- `PlmeSetTRXStateRequest(RX_ON)`, when the receiver is not on and nothing is transmitted. -/
def requestRxOn (s : LrWpanPhy) : Except PhyFault LrWpanPhy :=
  match s.trxState with
  | .phyTxOn | .phyTrxOff => .ok (s.startSetTRXState .phyRxOn)
  | .phyBusyRx => .ok (s.emit (.plmeSetTRXStateConfirm .phyRxOn))
  | _ => .error .unexpectedTransition

/-- `PlmeSetTRXStateRequest` after the switch that was under way has been given up. -/
def requestState (state : LrWpanPhyEnumeration) (s : LrWpanPhy) : Except PhyFault LrWpanPhy :=
  if state = s.trxState then .ok (s.emit (.plmeSetTRXStateConfirm state))
  else if (state = .phyRxOn ∨ state = .phyTrxOff) ∧ s.trxState = .phyBusyTx then
    .ok { s with trxStatePending := state }
  else
    match state with
    | .phyTrxOff => s.requestTrxOff
    | .phyTxOn => s.requestTxOn
    | .phyForceTrxOff => .ok s.requestForceTrxOff
    | .phyRxOn => s.requestRxOn
    | _ => .error .unexpectedTransition

/-- `PlmeSetTRXStateRequest`. -/
def plmeSetTRXStateRequest (state : LrWpanPhyEnumeration) (s : LrWpanPhy) :
    Except PhyFault LrWpanPhy :=
  if state ≠ .phyRxOn ∧ state ≠ .phyTrxOff ∧ state ≠ .phyForceTrxOff ∧ state ≠ .phyTxOn then
    .error .abort
  else if s.setTRXState.isSome ∧ state = s.trxStatePending then .ok s
  else { s with setTRXState := none, trxStatePending := .phyIdle }.requestState state

/-! ## Attributes -/

/-- The attributes a `PlmeSetAttributeRequest` can name, with their new values. -/
inductive Attribute
  | phyCurrentPage (page : BitVec 8)
  | phyCurrentChannel (channel : BitVec 8)
  | phyChannelsSupported (channels : BitVec 32)
  | phyTransmitPower (power : BitVec 8)
  | phyCCAMode (mode : BitVec 8)
  | unsupported
  deriving DecidableEq

/-- What another page or channel does to the transceiver and to the packets.  `m_trxState` is
already `TRX_OFF` when `PhyIsBusy` is asked. -/
def breakOff (s : LrWpanPhy) : LrWpanPhy :=
  let s := s.changeTrxState .phyTrxOff
  let s :=
    if s.trxStatePending ≠ .phyIdle then
      { s with trxStatePending := .phyIdle, setTRXState := none }.emit
        (.plmeSetTRXStateConfirm .phyTrxOff)
    else s
  let s :=
    if s.currentRxPacket.1.isSome then { s with currentRxPacket := (s.currentRxPacket.1, true) }
    else s
  if s.phyIsBusy then
    { s with
      pdDataRequest := s.pdDataRequest.cancel
      currentTxPacket := (none, true) }.emit (.pdDataConfirm .phyTrxOff s.currentTxPacket.1 none)
  else s

/-- Another channel is set; `CreateTxPowerSpectralDensity` asserts one of the 2.4 GHz band. -/
def switchChannel (channel : BitVec 8) (s : LrWpanPhy) : Except PhyFault LrWpanPhy :=
  let s := { s.breakOff with phyCurrentChannel := channel }.emit (.phyCurrentChannel channel)
  if 11 ≤ channel ∧ channel ≤ 26 then .ok s else .error .assertFailed

/-- `ChannelSupported`. -/
def channelSupported (channel : BitVec 8) (s : LrWpanPhy) : Bool :=
  s.phyChannelsSupported &&& (1 <<< channel.toNat) != 0

/-- `PlmeSetAttributeRequest`.  The page is 0 from the start and `PageSupported` aborts on any
other, so no request changes it; an unsupported channel is reported but set all the same. -/
def plmeSetAttributeRequest (attr : Attribute) (s : LrWpanPhy) :
    Except PhyFault LrWpanPhy :=
  match attr with
  | .phyCurrentPage page =>
    if page ≠ 0 then .error .abort
    else if (s.phyChannelsSupported >>> 27) &&& 0x1F = 0 then
      .ok (s.emit (.plmeSetAttributeConfirm .success))
    else .ok (s.emit (.plmeSetAttributeConfirm .invalidParameter))
  | .phyCurrentChannel channel =>
    if channel.toNat ≥ 32 then .error .undefinedShift
    else do
      let status :=
        if s.channelSupported channel then SetAttributeStatus.success else .invalidParameter
      let s ← if s.phyCurrentChannel ≠ channel then s.switchChannel channel else .ok s
      .ok (s.emit (.plmeSetAttributeConfirm status))
  | .phyChannelsSupported channels =>
    if channels &&& 0xf8000000 ≠ 0 then
      .ok (s.emit (.plmeSetAttributeConfirm .invalidParameter))
    else
      .ok ({ s with phyChannelsSupported := channels }.emit (.plmeSetAttributeConfirm .success))
  | .phyTransmitPower power =>
    if power &&& 0xC0 ≠ 0 then .ok (s.emit (.plmeSetAttributeConfirm .invalidParameter))
    else .ok (s.emit (.plmeSetAttributeConfirm .success))
  | .phyCCAMode mode =>
    if mode < 1 ∨ mode > 3 then .ok (s.emit (.plmeSetAttributeConfirm .invalidParameter))
    else .ok ({ s with phyCCAMode := mode }.emit (.plmeSetAttributeConfirm .success))
  | .unsupported => .ok (s.emit (.plmeSetAttributeConfirm .unsupportedAttribute))

end LrWpanPhy

/-! ## The PHY as a machine -/

/-- What happens to a PHY. -/
inductive PhyAction
  | pdDataRequest (psduLength size : ℕ)
  | cancelPdDataRequest
  | plmeCcaRequest
  | ccaCancel
  | plmeEdRequest
  | plmeSetTRXStateRequest (state : LrWpanPhyEnumeration)
  | plmeSetAttributeRequest (attr : LrWpanPhy.Attribute)
  | startRx (size : ℕ) (synchronizes destroyed : Bool)
  /-- The pending `EndSetTRXState` runs. -/
  | endSetTRXState
  /-- Pending `EndTx` number `i` runs, and likewise below. -/
  | endTx (i : ℕ)
  | endRx (i : ℕ) (destroyed corrupt : Bool)
  | endCca (i : ℕ) (aboveThreshold : Bool)
  | endEd (i : ℕ) (energyLevel : BitVec 8)
  /-- Nothing happens until time `t`. -/
  | tick (t : ℤ)
  deriving DecidableEq

namespace LrWpanPhy

/-- The times at which events are pending. -/
def times (s : LrWpanPhy) : List ℤ :=
  s.setTRXState.toList ++ s.pdDataRequest.times ++ s.ccaRequest.times ++ s.edRequest.times
    ++ s.endRx.times

/-- Time has come to `t`, before every pending event. -/
def isNext (t : ℤ) (s : LrWpanPhy) : Bool :=
  decide (s.now ≤ t) && s.times.all fun t' => t ≤ t'

/-- Carry out an action. -/
def act (a : PhyAction) (s : LrWpanPhy) : Except PhyFault LrWpanPhy :=
  match a with
  | .pdDataRequest psduLength size => s.pdDataRequestOf psduLength size
  | .cancelPdDataRequest => .ok s.cancelPdDataRequest
  | .plmeCcaRequest => .ok s.plmeCcaRequest
  | .ccaCancel => .ok s.ccaCancel
  | .plmeEdRequest => .ok s.plmeEdRequest
  | .plmeSetTRXStateRequest state => s.plmeSetTRXStateRequest state
  | .plmeSetAttributeRequest attr => s.plmeSetAttributeRequest attr
  | .startRx size synchronizes destroyed => s.startRx size synchronizes destroyed
  | .endSetTRXState =>
    match s.setTRXState with
    | some t => { s with now := t, setTRXState := none }.endSetTRXState
    | none => .ok s
  | .endTx i =>
    match s.pdDataRequest.pending[i]? with
    | some (request, t) => { s with now := t, pdDataRequest := s.pdDataRequest.drop i }.endTx request
    | none => .ok s
  | .endRx i destroyed corrupt =>
    match s.endRx.pending[i]? with
    | some (signal, t) =>
      { s with now := t, endRx := s.endRx.drop i }.endRxOf signal destroyed corrupt
    | none => .ok s
  | .endCca i aboveThreshold =>
    match s.ccaRequest.pending[i]? with
    | some (_, t) => .ok ({ s with now := t, ccaRequest := s.ccaRequest.drop i }.endCca aboveThreshold)
    | none => .ok s
  | .endEd i energyLevel =>
    match s.edRequest.pending[i]? with
    | some (_, t) =>
      .ok ({ s with now := t, edRequest := s.edRequest.drop i }.emit
        (.plmeEdConfirm .phySuccess energyLevel))
    | none => .ok s
  | .tick t => .ok { s with now := t }

/-- Events run in the order of their times, and time passes up to the next of them. -/
def enabled (s : LrWpanPhy) : PhyAction → Bool
  | .endSetTRXState => s.setTRXState.any fun t => s.isNext t
  | .endTx i => s.pdDataRequest.pending[i]?.any fun x => s.isNext x.2
  | .endRx i _ _ => s.endRx.pending[i]?.any fun x => s.isNext x.2
  | .endCca i _ => s.ccaRequest.pending[i]?.any fun x => s.isNext x.2
  | .endEd i _ => s.edRequest.pending[i]?.any fun x => s.isNext x.2
  | .tick t => s.isNext t
  | _ => true

/-- **The PHY.** -/
def machine : Machine LrWpanPhy PhyAction PhyFault where
  enabled s a := s.enabled a = true
  step s a := s.act a

instance (s : LrWpanPhy) (a : PhyAction) : Decidable (machine.enabled s a) :=
  inferInstanceAs (Decidable (s.enabled a = true))

end LrWpanPhy

end Ns3Dsme
