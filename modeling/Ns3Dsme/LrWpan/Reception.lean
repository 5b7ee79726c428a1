/-
# Receiving

`PdDataIndication`: frame filtering, the bookkeeping for group acknowledgments, the
processing of beacons and the reception of group acknowledgments.  The source is one
function; its blocks are separate definitions here, in the same order.
-/
import Ns3Dsme.LrWpan.CommandCodec
import Ns3Dsme.LrWpan.Requests
import Ns3Dsme.Lib.Program

open Program

namespace Ns3Dsme.Mac

/-! ## Filtering -/

/-- The third-level frame filtering. -/
def acceptFrame (s : Mac) (p : Packet) : Bool :=
  let hdr := p.hdr
  let version := hdr.frmType != .reserved && decide ((hdr.frmVer : ℕ) ≤ 2)
  let pan := hdr.dstPanId == s.role.macPanId || hdr.dstPanId == 0xffff
    || (s.role.macPanId == 0xffff && hdr.isBeacon)
    || (s.role.macPanId == 0xffff && hdr.isCommand)
  let toAll := isBroadcast hdr.shortDstAddr || isMulticast hdr.shortDstAddr
  let accept := version &&
    (if hdr.dstAddrMode = .shortAddr ∨ hdr.dstAddrMode = .extAddr then pan else true)
  let accept := if accept && hdr.shortDstAddr == 0xffff then
      hdr.shortSrcAddr != s.cfg.shortAddress
    else accept
  if accept && hdr.dstAddrMode == .shortAddr then
    hdr.shortDstAddr == s.cfg.shortAddress || toAll
  else accept

/-! ## Frames that ask for an acknowledgment -/

/-- Go back to the GTS that is running, if there is one. -/
def backToGts (s : Mac) : Mac := if s.gtsRunning then s.changeMacState .macGts else s

/-- Collect a frame for the group acknowledgment.  Without one nothing more happens, the
immediate acknowledgment being commented out in the source. -/
def markGroupAck (p : Packet) (s : Mac) : Exec Mac :=
  match s.cfg.groupAckPolicy with
  | .groupAckEnhanced => do
    let gack ← s.gack.enhancedMark s.cfg.hash64 p.hdr.shortSrcAddr p.hdr.seqNum
    .ok { s with gack }.backToGts
  | .groupAckLegacy => do
    let gack ← s.gack.legacyMark s.gts.curGTSIdx p.hdr.shortSrcAddr
    .ok { s with gack }.backToGts
  | _ => .ok s

/-- A data or command frame with the acknowledgment request set. -/
def asksForAck (p : Packet) : Bool :=
  (p.hdr.isData || p.hdr.isCommand) && p.hdr.ackReq && (p.hdr.frmVer == 0 || p.hdr.frmVer == 1)

/-- The payload is long enough for what `CommandPayloadHeader` reads of it, be it a command or not.
A new object has no channels in its hopping sequence, and nothing else in it matters. -/
def peeksCommand (p : Packet) : Bool :=
  match p.body with
  | .data octets | .other octets =>
    ((default : Codec.CommandPayloadHeader).deserialize.run octets).isSome
  | _ => false

/-- The frame is acknowledged, and logged as a command. -/
def ackRequested (p : Packet) (s : Mac) : Exec Mac :=
  if asksForAck p then
    if peeksCommand p then ((s.cancel .setMacState).changeMacState .macIdle).markGroupAck p
    else .error .assertFailed
  else .ok s

/-! ## Beacons -/

/-- The frame is read as an enhanced beacon: DSME is on, its version is 802.15.4e and it
announces an IE list. -/
def readsDescriptor (s : Mac) (p : Packet) : Bool :=
  s.cfg.macDSMEenabled && p.hdr.frmVer == 2 && p.hdr.ieListPresent

/-- Take over what the PAN descriptor says. -/
def receiveDescriptor (p : Packet) (d : DsmePANDescriptorIE) (s : Mac) : Mac :=
  let spec := d.dsmeSuperframeField
  let macPANCoordinatorBSN :=
    if p.hdr.shortSrcAddr = panCoordAddr ∧ s.cfg.shortAddress ≠ panCoordAddr then
      d.channelHopping.panCoordinatorBSN
    else s.adv.macPANCoordinatorBSN
  { s with
    adv := { s.adv with
      macPANCoordinatorBSN
      macSDBitmap := s.adv.macSDBitmap.merge d.beaconBitmap }
    inc := { s.inc with
      incomingMultisuperframeOrder := spec.multiSuperframeOrder
      incomingCAPReductionFlag := spec.capReductionFlag
      incSDindex := d.beaconBitmap.sdIndex
      incomingMultisuperframeDuration :=
        2 ^ (spec.multiSuperframeOrder : ℕ) * aBaseSuperframeDuration } }

/-- Take over the superframe specification. -/
def receiveSuperframe (spec : SuperframeField) (s : Mac) : Mac :=
  { s with
    inc := { s.inc with
      incomingBeaconOrder := spec.bcnOrder
      incomingSuperframeOrder := spec.sprFrmOrder
      incomingFnlCapSlot := spec.fnlCapSlot
      incomingBeaconInterval := 2 ^ (spec.bcnOrder : ℕ) * aBaseSuperframeDuration
      incomingSuperframeDuration := aBaseSuperframeDuration * 2 ^ (spec.sprFrmOrder : ℕ) }
    csma := { s.csma with
      macBattLifeExt := spec.batLifeExt
      isSlotted := s.csma.isSlotted || decide ((spec.bcnOrder : ℕ) < 15) } }

/-- The superframe index of the sender within a multi-superframe. -/
def incSdIndexInMultisuperframe (s : Mac) : Exec ℕ :=
  sdIndexInMultisuperframe s.inc.incSDindex s.inc.incomingMultisuperframeDuration
    s.inc.incomingSuperframeDuration

/-- The first beacon of a coordinator that is not the PAN coordinator is sent in the slot it
chose, counted from the beacon slot of its parent. -/
def scheduleFirstBeacon (s : Mac) : Exec Mac :=
  if s.cfg.forDsmeNetDeviceIntegrateWithHigerLayer = false ∧ s.cfg.macDSMEenabled
      ∧ s.role.coord ∧ s.role.panCoor = false ∧ s.role.sendBcn then do
    let scheduleBcnTime :=
      symbols (s.inc.incomingSuperframeDuration * s.cfg.choosedSDIndexToSendBcn)
        - (s.sim.now - s.inc.startOfBcnSlotOfSyncParent)
    let s ← s.schedule .setMacState (.setLrWpanMacState .macIdle) scheduleBcnTime
    let s ← s.schedule .beaconEvent .sendOneEnhancedBeacon scheduleBcnTime
    .ok { s with role := { s.role with sendBcn := false } }
  else .ok s

/-- Start the incoming CAP and go back to idle. -/
def startIncomingCAP (s : Mac) : Mac :=
  (s.scheduleNow .incCapEvent (.startCAP .incoming)).scheduleNow .setMacState
    (.setLrWpanMacState .macIdle)

/-- Start the incoming superframe with a CFP in place of the CAP. -/
def startIncomingFirstCFP (s : Mac) : Mac :=
  { s with inc := { s.inc with incomingFirstCFP := true } }.scheduleNow .incCfpEvent
    (.startCFP .incoming)

/-- The end of the beacon processing: start the CAP, or a first CFP under CAP reduction. -/
def startIncomingSuperframe (s : Mac) : Exec Mac :=
  if s.cfg.macDSMEenabled && s.inc.incomingCAPReductionFlag then
    let timeSinceBeaconTx := s.sim.now - s.out.macBeaconTxTime
    if s.role.coord = false ∧ s.count.isFirstSuperframe = false then
      .ok s.startIncomingFirstCFP
    else if s.role.coord = false then
      .ok { s.startIncomingCAP with count := { s.count with isFirstSuperframe := false } }
    else do
      let r ← s.incSdIndexInMultisuperframe
      if r ≠ 0 ∨ (s.adv.macSDindex = 0
          ∧ timeSinceBeaconTx ≥ symbols s.inc.incomingSuperframeDuration) then
        .ok s.startIncomingFirstCFP
      else .ok s.startIncomingCAP
  else .ok s.startIncomingCAP

/-- Start an incoming multi-superframe, unless the sender is its first coordinator. -/
def startIncomingMultisuperframe (s : Mac) : Exec Mac :=
  if s.cfg.macDSMEenabled then do
    let r ← s.incSdIndexInMultisuperframe
    if r ≠ 0 then
      .ok (s.scheduleNow .incMultisuperframeStartEvent (.startMultisuperframe .incoming))
    else .ok s
  else .ok s

/-- The coordinator address in the PAN descriptor of a beacon. -/
def coordAddr (p : Packet) : Mac16Address :=
  if p.hdr.srcAddrMode = .shortAddr then p.hdr.shortSrcAddr else 0

/-- Note when the coordinator's beacon slot started.  `NanoSeconds` reads the time stamp as a
signed number. -/
def noteSyncParent (p : Packet) (beaconTimeStamp : BitVec 64) (s : Mac) : Mac :=
  if s.role.macPanId = p.hdr.srcPanId ∧ s.cfg.macCoordShortAddress = coordAddr p then
    { s with inc := { s.inc with startOfBcnSlotOfSyncParent := beaconTimeStamp.toInt } }
  else s

/-- On a beacon of the coordinator, schedule the GTSs. -/
def scheduleGtsOnBeacon (p : Packet) (s : Mac) : Exec Mac :=
  if p.hdr.shortSrcAddr = s.cfg.macCoordShortAddress then s.scheduleGtsInMac true else .ok s

/-- A beacon of the own PAN: synchronize with its superframe. -/
def receiveOwnPanBeacon (p : Packet) (spec : SuperframeField) (beaconTimeStamp : BitVec 64)
    (s : Mac) : Exec Mac := do
  let s ← (s.csmaCancel.receiveSuperframe spec).startIncomingMultisuperframe
  let s ← (s.noteSyncParent p beaconTimeStamp).scheduleFirstBeacon
  let s ← s.purgeDsmeACT.scheduleGtsOnBeacon p
  s.startIncomingSuperframe

/-- Notify the next higher layer of a beacon with a payload. -/
def notifyPayload (p : Packet) (sduLength : ℕ) (s : Mac) : Mac :=
  if sduLength > 0 ∧ s.cfg.mlmeBeaconNotifyIndicationCallback then
    s.emit (.mlmeBeaconNotifyIndication p)
  else s

/-- Keep tracking the coordinator.  `searchSymbols / symbolRate` is an integer division: only
whole seconds remain. -/
def keepTracking (s : Mac) : Mac :=
  if s.isRunning .trackingEvent then
    let s := { s.cancel .trackingEvent with inc := { s.inc with numLostBeacons := 0 } }
    if s.inc.beaconTrackingOn then
      s.scheduleSymbols .trackingEvent .beaconSearchTimeout
        (searchSymbols s.inc.incomingBeaconOrder / 62500 * 62500)
    else s
  else s

/-- The end of the beacon processing. -/
def notifyBeacon (p : Packet) (sduLength : ℕ) (s : Mac) : Mac :=
  if s.cfg.macAutoRequest then (s.notifyPayload p sduLength).keepTracking else s

/-- The beacon's airtime, its start, and the workaround by which a device that is not a
coordinator recognizes the first superframe. -/
def noteBeacon (p : Packet) (s : Mac) : Mac :=
  { s with
    inc := { s.inc with
      rxBeaconSymbols := frameSymbols p.size
      macBeaconRxTime := s.sim.now - milliSeconds (frameSymbols p.size) }
    count := { s.count with
      isFirstSuperframe := s.count.isFirstSuperframe ||
        (s.cfg.macDSMEenabled && p.hdr.frmVer == 2 && !s.role.coord
          && p.hdr.shortSrcAddr == panCoordAddr) } }

/-- Read a beacon: the state afterwards, the superframe specification and the time stamp that
count.  A frame without the IE it announces cannot be decoded. -/
def readBeacon (p : Packet) (superframeSpec : SuperframeField) (ie : Option DsmePANDescriptorIE)
    (s : Mac) : Exec (Mac × SuperframeField × BitVec 64) :=
  if s.readsDescriptor p then
    match ie with
    | some d => .ok (s.receiveDescriptor p d, d.superframeField, d.beaconTimeStamp)
    | none => .error .assertFailed
  else .ok (s, superframeSpec, 0)

/-- The beacon branch of `PdDataIndication`.  The result also says whether the function goes
on behind it: a device that belongs to no PAN returns at once. -/
def receiveBeacon (p : Packet) (s : Mac) : Exec (Mac × Bool) :=
  match p.body with
  | .beacon superframeSpec ie sduLength => do
    let (s, spec, beaconTimeStamp) ← (s.noteBeacon p).readBeacon p superframeSpec ie
    if s.role.macPanId = p.hdr.dstPanId then do
      let s ← s.receiveOwnPanBeacon p spec beaconTimeStamp
      .ok (s.notifyBeacon p sduLength, true)
    else if s.role.macPanId = 0xffff then .ok (s, false)
    else .ok (s.notifyBeacon p sduLength, true)
  | _ => .error .assertFailed

/-! ## Data and group acknowledgments -/

/-- Reset the idle counter of the GTS that is going on. -/
def resetCnt (s : Mac) : Exec Mac :=
  if s.isRunning .incGtsEvent then
    match s.gts.macDsmeACT.lookup s.gts.curGTSSuperframeID s.gts.curGTSIdx with
    | none => .error .outOfRange
    | some _ => .ok { s with gts := { s.gts with
        macDsmeACT := s.gts.macDsmeACT.modify s.gts.curGTSSuperframeID s.gts.curGTSIdx
          ({ · with cnt := 0 }) } }
  else .ok s

/-- Pass a data frame up. -/
def receiveData (p : Packet) (s : Mac) : Exec Mac :=
  if p.hdr.isData && s.cfg.mcpsDataIndicationCallback then
    (s.emit (.mcpsDataIndication p)).resetCnt
  else .ok s

/-- One `McpsDataConfirm` for every frame that counts as acknowledged. -/
def confirmVerdicts (verdicts : List Bool) (s : Mac) : Mac :=
  if s.cfg.mcpsDataConfirmCallback ∧ s.cfg.forDsmeNetDeviceIntegrateWithHigerLayer = false then
    { s with trace := s.trace ++
      ((verdicts.filter id).map fun _ => .mcpsDataConfirm s.tx.msduHandle .success) }
  else s

/-- The end of the reception of a group acknowledgment: back to the GTS. -/
def groupAckReceived (s : Mac) : Mac :=
  if s.gtsRunning then
    ((s.setTxPkt none).scheduleNow .setMacState (.setLrWpanMacState .macGts)).scheduleSymbols
      .ifsEvent (.ifsWaitTimeout (symbols macLIFSPeriod)) macLIFSPeriod
  else s

/-- A group acknowledgment that acknowledges something. -/
def applyVerdicts (verdicts : List Bool) (gack : GroupAck) (s : Mac) : Mac :=
  ({ s with gack }.confirmVerdicts verdicts).groupAckReceived

/-- The two last blocks of `PdDataIndication`. -/
def receiveGroupAck (p : Packet) (s : Mac) : Exec Mac :=
  if p.hdr.isAcknowledgment && p.hdr.ieListPresent then
    match s.cfg.groupAckPolicy with
    | .groupAckEnhanced =>
      match p.body with
      | .enhancedGroupAck groupAckBitmap =>
        if groupAckBitmap = 0 then .ok s
        else do
          let verdicts ← s.gack.enhancedVerdicts s.cfg.hash64 s.cfg.shortAddress groupAckBitmap
          .ok (s.applyVerdicts verdicts s.gack.enhancedReset)
      | _ => .error .assertFailed
    | .groupAckLegacy =>
      match p.body with
      | .legacyGroupAck gackBitmap _ _ _ =>
        if gackBitmap = 0 then .ok s
        else
          .ok (s.applyVerdicts (s.gack.legacyVerdicts gackBitmap)
            { s.gack with legacyGackGTSIdxBuffer := [] })
      | _ => .error .assertFailed
    | _ => .ok s
  else .ok s

/-- `m_acceptAllHilowPkt`: pass every data frame up before it is filtered. -/
def acceptAllHilow (p : Packet) (s : Mac) : Mac :=
  if s.cfg.acceptAllHilowPkt && p.hdr.isData && s.cfg.mcpsDataIndicationCallback then
    s.emit (.mcpsDataIndication p)
  else s

/-- `PdDataIndication` for a frame that passed the filter. -/
def receiveFrame (p : Packet) (s : Mac) : Exec Mac := do
  let s ← s.ackRequested p
  if p.hdr.isBeacon then do
    let (s, goOn) ← s.receiveBeacon p
    if goOn then s.receiveGroupAck p else .ok s
  else do
    let s ← s.receiveData p
    s.receiveGroupAck p

/-- `PdDataIndication`; `fcsOk` is the result of the check of the frame's FCS. -/
def pdDataIndication (p : Packet) (fcsOk : Bool) (s : Mac) : Exec Mac :=
  if s.macState ≠ .macIdle ∧ s.macState ≠ .macAckPending ∧ s.macState ≠ .macCsma
      ∧ s.macState ≠ .macGts then .error .assertFailed
  else if fcsOk then
    if (s.acceptAllHilow p).acceptFrame p then (s.acceptAllHilow p).receiveFrame p
    else .ok (s.acceptAllHilow p)
  else .ok s

/-! ## Beacons -/

/-- A beacon is of no other frame type. -/
theorem frmType_of_isBeacon {p : Packet} (h : p.hdr.isBeacon = true) :
    p.hdr.isData = false ∧ p.hdr.isCommand = false ∧ p.hdr.isAcknowledgment = false := by
  have htype : p.hdr.frmType = .beacon := eq_of_beq h
  unfold LrWpanMacHeader.isData LrWpanMacHeader.isCommand LrWpanMacHeader.isAcknowledgment
  rw [htype]
  decide

theorem acceptAllHilow_of_isBeacon (s : Mac) {p : Packet} (h : p.hdr.isBeacon = true) :
    s.acceptAllHilow p = s := by
  unfold acceptAllHilow
  simp [(frmType_of_isBeacon h).1]

/-- A beacon goes through none of the other blocks of `PdDataIndication`. -/
theorem post_receiveFrame_of_isBeacon (s : Mac) {p : Packet} (Q : Mac → Prop)
    (h : p.hdr.isBeacon = true) (hQ : Post (s.receiveBeacon p) fun r => Q r.1) :
    Post (s.receiveFrame p) Q := by
  obtain ⟨hdata, hcommand, hack⟩ := frmType_of_isBeacon h
  have hackReq : s.ackRequested p = .ok s := by
    unfold ackRequested asksForAck
    simp [hdata, hcommand]
  have hgack (t : Mac) : t.receiveGroupAck p = .ok t := by
    unfold receiveGroupAck
    simp [hack]
  unfold receiveFrame
  rw [hackReq, h]
  refine (wp_bind _ _ _ _).mpr ((wp_ok _ _ _).mpr ?_)
  rw [if_pos rfl]
  refine hQ.bind ?_
  rintro ⟨t, goOn⟩ ht
  dsimp only
  rw [hgack]
  split
  · exact ht
  · exact ht

/-- The reception of a beacon, for what holds whenever the beacon is dropped. -/
theorem post_pdDataIndication_of_isBeacon (s : Mac) {p : Packet} (fcsOk : Bool) (Q : Mac → Prop)
    (h : p.hdr.isBeacon = true) (hs : Q s)
    (hQ : fcsOk = true → s.acceptFrame p = true → Post (s.receiveBeacon p) fun r => Q r.1) :
    Post (s.pdDataIndication p fcsOk) Q := by
  unfold pdDataIndication
  rw [acceptAllHilow_of_isBeacon s h]
  split
  · trivial
  · split
    · rename_i hfcs
      split
      · rename_i haccept
        exact post_receiveFrame_of_isBeacon s Q h (hQ hfcs haccept)
      · exact hs
    · exact hs

/-! ## What group acknowledgments leave alone -/

/-- Waiting for a group acknowledgment touches its members only when the frame is noted. -/
theorem gack_ackReqSent (s : Mac) (p : Packet) :
    (s.ackReqSent p).gack = (s.awaitGroupAck p).gack := by
  unfold ackReqSent
  dsimp only
  split
  · rfl
  · rfl

/-- A frame is noted in the members of the group acknowledgment only. -/
theorem exists_awaitGroupAck (s : Mac) (p : Packet) :
    ∃ gack, s.awaitGroupAck p = { s with gack } := by
  unfold awaitGroupAck
  split
  · split
    · exact ⟨_, rfl⟩
    · exact ⟨_, rfl⟩
    · exact ⟨s.gack, rfl⟩
  · exact ⟨s.gack, rfl⟩

/-- The frame stays in transmission, and nothing is reported. -/
theorem tx_trace_ackReqSent (s : Mac) (p : Packet) :
    (s.ackReqSent p).tx = s.tx ∧ (s.ackReqSent p).trace = s.trace := by
  obtain ⟨gack, h⟩ := exists_awaitGroupAck s p
  unfold ackReqSent
  rw [h]
  dsimp only
  split
  · exact ⟨rfl, rfl⟩
  · exact ⟨rfl, rfl⟩

end Ns3Dsme.Mac
