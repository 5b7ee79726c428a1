/-
# Transmitting

The path of a packet from the transmit queue through CSMA-CA or a GTS to the PHY and
back: `CheckQueue`, `PdDataConfirm`, `PlmeSetTRXStateConfirm`, `SetLrWpanMacState`,
`IfsWaitTimeout` and the CSMA-CA callbacks.

The PHY answers some requests at once, by calling back into the MAC before the request
returns.  `PhyAnswers` says which ones, so every definition below is the whole of what
happens before the handler returns.
-/
import Ns3Dsme.LrWpan.ActTable
import Ns3Dsme.LrWpan.Csma
import Ns3Dsme.LrWpan.GroupAck

namespace Ns3Dsme.Mac

/-! ## The transmit queue -/

/-- `EnqueueTxQElement`. -/
def enqueueTxQElement (el : TxQueueElement) (s : Mac) : Mac :=
  if s.tx.txQueue.length < s.cfg.maxTxQueueSize then
    { s with tx := { s.tx with txQueue := s.tx.txQueue ++ [el] } }.emit
      (.macTxEnqueue el.txQPkt)
  else
    let s := if s.cfg.mcpsDataConfirmCallback then
        s.emit (.mcpsDataConfirm el.txQMsduHandle .transactionOverflow)
      else s
    s.emit (.macTxDrop el.txQPkt)

/-- `CheckQueue`: take the front of the queue into transmission when the MAC is idle, no
state change is pending, the superframe allows it and no interframe space is running. -/
def checkQueue (s : Mac) : Mac :=
  if s.macState = .macIdle ∧ s.isRunning .setMacState = false then
    match s.tx.txQueue with
    | [] => s
    | el :: _ =>
      if s.csma.isSlotted = false ∨ (s.out.outSuperframeStatus = .cap ∧ s.role.coord)
          ∨ s.inc.incSuperframeStatus = .cap then
        if s.isRunning .ifsEvent = false then
          (s.setTxPkt (some el.txQPkt)).scheduleNow .setMacState (.setLrWpanMacState .macCsma)
        else s
      else s
  else s

/-- The trace source `MacSentPkt`, for a packet to one destination. -/
def traceSentPkt (p : Packet) (s : Mac) : Mac :=
  if isBroadcast p.hdr.shortDstAddr || isMulticast p.hdr.shortDstAddr then s
  else
    s.emit (.sentPkt p (s.tx.retransmission + 1) (s.tx.numCsmacaRetry + (s.csma.nb + 1)))

/-- `RemoveFirstTxQElement`.  `front()` and `pop_front()` are undefined on an empty queue. -/
def removeFirstTxQElement (s : Mac) : Exec Mac :=
  match s.tx.txQueue with
  | [] => .error .emptyQueue
  | el :: rest =>
    let s := s.traceSentPkt el.txQPkt
    let tx := { s.tx with txQueue := rest, txPkt := none, retransmission := 0, numCsmacaRetry := 0 }
    .ok ({ s with tx }.emit (.macTxDequeue el.txQPkt))

/-! ## The confirm of a transmission -/

/-- Wait for an interframe space, if there is one. -/
def waitIfs (ifsWaitSymbols : ℕ) (s : Mac) : Mac :=
  if ifsWaitSymbols ≠ 0 then
    s.scheduleSymbols .ifsEvent (.ifsWaitTimeout (symbols ifsWaitSymbols)) ifsWaitSymbols
  else s

/-- Go back to the GTS that is running, else to idle. -/
def leaveSending (s : Mac) : Mac :=
  if s.gtsRunning then
    (s.cancel .setMacState).scheduleNow .setMacState
      (.setLrWpanMacStateToGTS s.gts.curGTSSuperframeID s.gts.curGTSIdx)
  else (s.cancel .setMacState).scheduleNow .setMacState (.setLrWpanMacState .macIdle)

/-- The end of `PdDataConfirm`. -/
def endPdDataConfirm (ifsWaitSymbols : ℕ) (s : Mac) : Mac :=
  (s.waitIfs ifsWaitSymbols).leaveSending

/-- `m_multiSuperframeDuration / m_superframeDuration`, then the remainder of the own
superframe index modulo that quotient. -/
def sdIndexInMultisuperframe (sdIndex multisuperframe superframe : ℕ) : Exec ℕ :=
  if superframe = 0 ∨ multisuperframe / superframe = 0 then .error .divByZero
  else .ok (sdIndex % (multisuperframe / superframe))

/-- Start the CAP behind an own beacon, or the CFP that takes its place under CAP reduction. -/
def startOutgoingSuperframe (s : Mac) : Exec Mac :=
  if s.cfg.macDSMEenabled && s.out.macCAPReductionFlag then do
    let r ← sdIndexInMultisuperframe s.adv.macSDindex s.out.multiSuperframeDuration
      s.out.superframeDuration
    if r = 0 then .ok (s.scheduleNow .capEvent (.startCAP .outgoing))
    else
      .ok ({ s with out := { s.out with firstCFP := true } }.scheduleNow .cfpEvent
        (.startCFP .outgoing))
  else .ok (s.scheduleNow .capEvent (.startCAP .outgoing))

/-- `m_mlmeStartConfirmCallback`. -/
def confirmStart (success : Bool) (s : Mac) : Mac :=
  if s.cfg.mlmeStartConfirmCallback then s.emit (.mlmeStartConfirm success) else s

/-- A beacon was sent in beacon mode: note the time, schedule the GTSs and start the
superframe. -/
def beaconSent (p : Packet) (s : Mac) : Exec Mac := do
  let macBeaconTxTime := s.sim.now - milliSeconds (frameSymbols p.size)
  let s := { s with out := { s.out with macBeaconTxTime } }.purgeDsmeACT
  let s ← s.scheduleGtsInMac false
  let s ← s.startOutgoingSuperframe
  .ok (s.confirmStart true)

/-- Remember a data frame that was sent in a GTS until the group acknowledgment comes. -/
def awaitGroupAck (p : Packet) (s : Mac) : Mac :=
  if p.hdr.isData && s.gtsRunning then
    match s.cfg.groupAckPolicy with
    | .groupAckLegacy => { s with gack := s.gack.legacySent s.gts.currentGTSIdx }
    | .groupAckEnhanced => { s with gack := s.gack.enhancedSent p.hdr.seqNum }
    | _ => s
  else s

/-- A data or command frame that asks for an acknowledgment was sent.  With a group
acknowledgment the MAC waits for it; without one nothing is scheduled. -/
def ackReqSent (p : Packet) (s : Mac) : Mac :=
  let s := (s.awaitGroupAck p).cancel .setMacState
  if s.cfg.groupAckPolicy = .groupAckLegacy ∨ s.cfg.groupAckPolicy = .groupAckEnhanced then
    (s.scheduleNow .setMacState (.setLrWpanMacState .macAckPending)).scheduleSymbols .ifsEvent
      (.ifsWaitTimeout (symbols macSIFSPeriod)) macSIFSPeriod
  else s

/-- A group acknowledgment was sent. -/
def groupAckSent (p : Packet) (s : Mac) : Mac :=
  if p.hdr.ieListPresent then
    match s.cfg.groupAckPolicy with
    | .groupAckLegacy => { s with gack := { s.gack with legacyGackBitmap := 0 } }.setTxPkt none
    | .groupAckEnhanced =>
      { s with gack := { s.gack with enhancedGACKBitmap := 0 } }.setTxPkt none
    | _ => s
  else s

/-- Confirm the data request at the front of the transmit queue. -/
def confirmFront (s : Mac) : Exec Mac :=
  if s.cfg.mcpsDataConfirmCallback then
    match s.tx.txQueue with
    | [] => .error .emptyQueue
    | el :: _ => .ok (s.emit (.mcpsDataConfirm el.txQMsduHandle .success))
  else .ok s

/-- The branches of `PdDataConfirm(SUCCESS)`, by the kind of frame that was sent. -/
def frameSent (p : Packet) (s : Mac) : Exec Mac :=
  if p.hdr.isAcknowledgment then .ok ((s.groupAckSent p).endPdDataConfirm 0)
  else if p.hdr.isBeacon then
    if s.csma.isSlotted then do
      let s ← s.beaconSent p
      .ok ((s.setTxPkt none).endPdDataConfirm (ifsSize p))
    else .ok ((s.setTxPkt none).endPdDataConfirm (ifsSize p))
  else if p.hdr.ackReq then .ok (s.ackReqSent p)
  else do
    let s ← s.confirmFront
    let s ← s.removeFirstTxQElement
    .ok (s.endPdDataConfirm (ifsSize p))

/-- `PdDataConfirm`. -/
def pdDataConfirm (status : LrWpanPhyEnumeration) (s : Mac) : Exec Mac :=
  if s.macState ≠ .macSending ∧ s.macState ≠ .macGtsSending then .error .assertFailed
  else
    match s.tx.txPkt with
    | none => .error .nullPacket
    | some p =>
      if status = .phySuccess then (s.emit (.pdDataSuccess p)).frameSent p
      else .ok (s.endPdDataConfirm 0)

/-! ## The transceiver -/

/-- `LrWpanPhy::PdDataRequest`: the PHY refuses the packet, or sends it and reports the end
of the transmission. -/
def pdDataRequest (p : Packet) (s : Mac) : Exec Mac :=
  let s := s.emit (.pdDataRequest p)
  if p.size > aMaxPhyPacketSize then s.pdDataConfirm .phyUnspecified
  else
    match s.takeData with
    | (some refusal, s) => s.pdDataConfirm refusal.status
    | (none, s) => s.schedule .pdDataRequest .endTx (calculateTxTime p)

/-- `status` is one of the two that mean "the receiver is on". -/
def rxOnOrSuccess (status : LrWpanPhyEnumeration) : Bool :=
  status == .phyRxOn || status == .phySuccess

/-- `status` is one of the two that mean "the transmitter is on". -/
def txOnOrSuccess (status : LrWpanPhyEnumeration) : Bool :=
  status == .phyTxOn || status == .phySuccess

/-- `PlmeSetTRXStateConfirm`.  The branches are those of the source in their order; no energy
scan is ever running. -/
def plmeSetTRXStateConfirm (status : LrWpanPhyEnumeration) (s : Mac) : Exec Mac :=
  if (s.macState = .macSending ∨ s.macState = .macGtsSending) ∧ txOnOrSuccess status then
    match s.tx.txPkt with
    | none => .error .assertFailed
    | some p => s.pdDataRequest p
  else if s.macState = .macCsma ∧ rxOnOrSuccess status then s.csmaStart
  else if s.macState = .macIdle then
    if rxOnOrSuccess status then .ok s.checkQueue
    else if status = .phyTrxOff then .ok s
    else .error .assertFailed
  else if s.macState = .macAckPending then
    if rxOnOrSuccess status then .ok s else .error .assertFailed
  else if s.macState = .macGts then
    if rxOnOrSuccess status || status == .phyTxOn then .ok s else .error .assertFailed
  else if s.macState = .macGtsSending ∧ s.gtsRunning = false then .ok s
  else .error .fatalError

/-- `LrWpanPhy::PlmeSetTRXStateRequest`: whatever state is asked for, the PHY confirms at once
or later, with a status the model leaves open. -/
def plmeSetTRXStateRequest (s : Mac) : Exec Mac :=
  match s.takeTrx with
  | (some status, s) => s.plmeSetTRXStateConfirm status
  | (none, s) => .ok s

/-- `LrWpanPhy::PlmeSetAttributeRequest` for the channel or the page.  A change switches the
transceiver off and confirms what it breaks off. -/
def plmeSetAttributeRequest (s : Mac) : Exec Mac := do
  let (interruption, s) := s.takeAttribute
  let s ← if interruption.trx then s.plmeSetTRXStateConfirm .phyTrxOff else .ok s
  if interruption.data then (s.cancel .pdDataRequest).pdDataConfirm .phyTrxOff else .ok s

/-! ## State changes -/

/-- `SetLrWpanMacState`. -/
def setLrWpanMacState (macState : LrWpanMacState) (s : Mac) : Exec Mac :=
  if macState = .macIdle then (s.changeMacState .macIdle).plmeSetTRXStateRequest
  else if macState = .macAckPending then
    (s.changeMacState .macAckPending).plmeSetTRXStateRequest
  else if macState = .macCsma then
    if s.macState = .macIdle ∨ s.macState = .macAckPending then
      (s.changeMacState .macCsma).plmeSetTRXStateRequest
    else .error .assertFailed
  else if s.macState = .macCsma ∧ macState = .channelIdle then
    (s.changeMacState .macSending).plmeSetTRXStateRequest
  else if s.macState = .macCsma ∧ macState = .macCsmaDeferred then
    .ok ((s.changeMacState .macIdle).setTxPkt none)
  -- every other argument is ignored: a channel access failure, `MAC_GTS`, and any outcome
  -- reported outside `MAC_CSMA`
  else .ok s

/-- `SetLrWpanMacStateToGTS`; the request is for the receiver or the transmitter, according to
the direction of the entry. -/
def setLrWpanMacStateToGTS (superframeID idx : ℕ) (s : Mac) : Exec Mac :=
  match s.gts.macDsmeACT.lookup superframeID idx with
  | none => .error .outOfRange
  | some _ => (s.changeMacState .macGts).plmeSetTRXStateRequest

/-! ## CSMA-CA callbacks -/

/-- `m_lrWpanMacStateCallback`. -/
def lrWpanMacStateCallback (macState : LrWpanMacState) (s : Mac) : Exec Mac :=
  (s.emit (.csmaOutcome macState)).setLrWpanMacState macState

/-- A function of CSMA-CA that ends with the callback if it names a state for it. -/
def callBack : Option LrWpanMacState × Mac → Exec Mac
  | (some macState, s) => s.lrWpanMacStateCallback macState
  | (none, s) => .ok s

/-- `LrWpanCsmaCa::PlmeCcaConfirm` up to the callback. -/
def confirmCca (status : LrWpanPhyEnumeration) (s : Mac) : Option LrWpanMacState × Mac :=
  if s.csma.ccaRequestRunning then
    let s := { s with csma := { s.csma with ccaRequestRunning := false } }
    if status = .phyIdle then
      if s.csma.isSlotted then
        let s := { s with csma := { s.csma with cw := (s.csma.cw + 255) % 256 } }
        if s.csma.cw = 0 then (some .channelIdle, s)
        else (none, s.scheduleNow .requestCcaEvent .requestCCA)
      else (some .channelIdle, s)
    else
      let cw := if s.csma.isSlotted then 2 else s.csma.cw
      let be := min (s.csma.be + 1) s.csma.macMaxBE
      let s := { s with csma := { s.csma with cw, be, nb := (s.csma.nb + 1) % 256 } }
      if s.csma.nb > s.csma.macMaxCSMABackoffs then (some .channelAccessFailure, s)
      else (none, s.scheduleNow .randomBackoffEvent .randomBackoffDelay)
  else (none, s)

/-- `LrWpanCsmaCa::PlmeCcaConfirm`. -/
def plmeCcaConfirm (status : LrWpanPhyEnumeration) (s : Mac) : Exec Mac :=
  callBack (s.confirmCca status)

/-- `LrWpanCsmaCa::RequestCCA` up to the callback: the PHY assesses the channel for 8 symbols, or
answers at once when its receiver is off. -/
def startCca (s : Mac) : Option LrWpanMacState × Mac :=
  let s := { s with csma := { s.csma with ccaRequestRunning := true } }
  match s.phy.cca with
  | some status => s.confirmCca status
  | none => (none, s.scheduleSymbols .ccaRequest .endCca 8)

/-- `LrWpanCsmaCa::RequestCCA`. -/
def requestCCA (s : Mac) : Exec Mac := callBack s.startCca

/-- `LrWpanCsmaCa::DeferCsmaTimeout`. -/
def deferCsmaTimeout (s : Mac) : Exec Mac := s.lrWpanMacStateCallback .macCsmaDeferred

/-- `LrWpanPhy::EndTx`, which reports to the MAC only from a transmitting or switched-off
transceiver. -/
def endTx (s : Mac) : Exec Mac :=
  match s.phy.endTx with
  | some status => s.pdDataConfirm status
  | none => .ok s

/-! ## The end of an interframe space -/

/-- An incoming GTS goes on, or an outgoing one that waits for an acknowledgment. -/
def resumeGts (s : Mac) : Mac :=
  if s.isRunning .incGtsEvent || (s.isRunning .gtsEvent && s.macState == .macAckPending) then
    s.changeMacState .macGts
  else s

/-- With the enhanced forwarding, take the front of the transmit queue, and send it if it is
short enough. -/
def forwardInGts (s : Mac) : Exec Mac :=
  if s.gtsRunning && s.macState == .macGts && s.cfg.enhancedGTSForwarding then
    match s.tx.txQueue with
    | [] => .ok s
    | el :: _ =>
      let s := s.setTxPkt (some el.txQPkt)
      if el.txQPkt.size ≤ 70 then
        (s.changeMacState .macGtsSending).plmeSetTRXStateRequest
      else .ok s
  else .ok s

/-- `IfsWaitTimeout`. -/
def ifsWaitTimeout (ifsTime : ℤ) (s : Mac) : Exec Mac := do
  let s ←
    if ifsTime = symbols macLIFSPeriod then s.resumeGts.forwardInGts
    else if ifsTime = symbols macSIFSPeriod then .ok s.resumeGts
    else .ok s
  .ok (s.emit (.macIfsEnd ifsTime)).checkQueue

end Ns3Dsme.Mac
