/-
# Requests of the next higher layer, beacons and GTSs

`McpsDataRequest`, `MlmeStartRequest` with `EndStartRequest`, the transmission of an
enhanced beacon, `StartGTS` and `EndGTS`, and the transmission of the two group
acknowledgments.
-/
import Ns3Dsme.LrWpan.Superframe

namespace Ns3Dsme.Mac

/-! ## Data -/

/-- `McpsDataRequestParams`, with the packet that comes with it. -/
structure McpsDataRequestParams where
  srcAddrMode : LrWpanAddressMode := .shortAddr
  dstAddrMode : LrWpanAddressMode := .shortAddr
  dstPanId : BitVec 16 := 0
  dstAddr : Mac16Address := 0
  msduHandle : ℕ := 0
  txOptionAck : Bool := false
  txOptionGts : Bool := false
  txOptionIndirect : Bool := false
  txOptionDirect : Bool := false
  msdu : List Octet := []
  deriving DecidableEq, Repr

/-- The acknowledgment request of a data frame: not for broadcast and multicast
destinations, and not when 6LoWPAN switched acknowledgments off. -/
def dataAckReq (s : Mac) (params : McpsDataRequestParams) : Bool :=
  if params.txOptionAck then
    if params.dstAddrMode = .shortAddr then
      if isBroadcast params.dstAddr || isMulticast params.dstAddr then false
      else !s.cfg.noACK
    else true
  else false

/-- The data frame `McpsDataRequest` makes of an MSDU. -/
def dataFrame (s : Mac) (params : McpsDataRequestParams) : Packet :=
  let hdr : LrWpanMacHeader :=
    { frmType := .data
      seqNum := s.tx.macDsn
      ackReq := s.dataAckReq params
      panIdComp := params.dstAddrMode ≠ .noPanidAddr ∧ params.srcAddrMode ≠ .noPanidAddr
        ∧ params.dstPanId = s.role.macPanId
      frmVer := 1
      dstAddrMode := params.dstAddrMode
      dstPanId := params.dstPanId
      shortDstAddr := params.dstAddr
      srcAddrMode := params.srcAddrMode
      srcPanId := s.role.macPanId
      shortSrcAddr := s.cfg.shortAddress }
  { hdr
    body := .data params.msdu
    size := hdr.serializedSize + params.msdu.length + macTrailerSize
    uid := s.tx.nextUid }

/-- `McpsDataRequest`.  The options are tried in the order GTS, indirect, direct; an
indirect transmission does nothing. -/
def mcpsDataRequest (params : McpsDataRequestParams) (s : Mac) : Exec Mac :=
  let p := s.dataFrame params
  let s := { s with tx := { s.tx with
    msduHandle := params.msduHandle
    macDsn := s.tx.macDsn + 1
    nextUid := s.tx.nextUid + 1 } }
  if params.txOptionGts then
    if s.gtsRunning ∧ s.macState = .macGts then
      ((s.setTxPkt (some p)).changeMacState .macGtsSending).plmeSetTRXStateRequest
    else .ok s
  else if params.txOptionIndirect then .ok s
  else if params.txOptionDirect then
    .ok (s.enqueueTxQElement ⟨params.msduHandle, p⟩).checkQueue
  else .ok s

/-! ## Beacons -/

/-- The header of a beacon. -/
def beaconHeader (s : Mac) (seqNum : BitVec 8) (ieListPresent : Bool) : LrWpanMacHeader where
  frmType := .beacon
  seqNum := seqNum
  ieListPresent := ieListPresent
  frmVer := 2
  dstAddrMode := .shortAddr
  dstPanId := s.role.macPanId
  shortDstAddr := 0xffff
  srcAddrMode := .shortAddr
  srcPanId := s.role.macPanId
  shortSrcAddr := s.cfg.shortAddress

/-- The PAN descriptor as `SendOneEnhancedBeacon` fills it in. -/
def enhancedBeaconDescriptor (s : Mac) : DsmePANDescriptorIE :=
  { s.adv.dsmePanDescriptorIE with
    beaconTimeStamp := BitVec.ofInt 64 s.out.startOfBcnSlot
    beaconBitmap := s.adv.macSDBitmap
    channelHopping :=
      { hoppingSequenceID := s.adv.hopping.hoppingSequenceID
        panCoordinatorBSN := s.adv.macPANCoordinatorBSN - 1
        channelOffset := s.adv.hopping.channelOfs
        channelOffsetBitmapLength := s.adv.hopping.channelOfsBitmapLen
        channelOffsetBitmap := s.adv.hopping.channelOfsBitmap }
    groupACK := s.cfg.legacyGroupAck }

/-- Octets of a beacon behind its MAC header: the PAN descriptor with the two termination
IEs, and the payload header. -/
def beaconBodySize (ie : Option DsmePANDescriptorIE) : ℕ :=
  (match ie with
    | some d => d.serializedSize + 2 + 2
    | none => 0) + 4

/-- The PAN descriptor of the next beacon; only an enhanced beacon carries one. -/
def beaconDescriptor (s : Mac) : Option DsmePANDescriptorIE :=
  if s.cfg.macDSMEenabled && s.csma.isSlotted then some s.enhancedBeaconDescriptor else none

/-- The next beacon. -/
def beaconPacket (seqNum : BitVec 8) (s : Mac) : Packet :=
  let ie := s.beaconDescriptor
  let hdr := s.beaconHeader seqNum ie.isSome
  { hdr
    body := .beacon {} ie 0
    size := hdr.serializedSize + beaconBodySize ie + macTrailerSize
    uid := s.tx.nextUid }

/-- Count a beacon. -/
def countBeacon (s : Mac) : Mac :=
  { s with adv := { s.adv with
    macPANCoordinatorBSN :=
      if s.role.panCoor then s.adv.macPANCoordinatorBSN + 1 else s.adv.macPANCoordinatorBSN
    macEbsn := if s.role.panCoor then s.adv.macEbsn else s.adv.macEbsn + 1 } }

/-- Enter the beacon period.  The superframe index is reduced only to choose between two log
messages. -/
def startBeaconPeriod (s : Mac) : Exec Mac :=
  if s.csma.isSlotted then
    if s.out.macCAPReductionFlag then do
      let _ ← sdIndexInMultisuperframe s.adv.macSDindex s.out.multiSuperframeDuration
        s.out.superframeDuration
      .ok { s with out := { s.out with outSuperframeStatus := .beacon } }
    else .ok { s with out := { s.out with outSuperframeStatus := .beacon } }
  else .ok s

/-- `SendOneEnhancedBeacon`. -/
def sendOneEnhancedBeacon (s : Mac) : Exec Mac :=
  if s.macState ≠ .macIdle then .error .assertFailed
  else if s.cfg.shortAddress = 0xffff then .error .assertFailed
  else if s.role.macPanId = 0xffff then .ok s
  else do
    let seqNum := if s.role.panCoor then s.adv.macPANCoordinatorBSN else s.adv.macEbsn
    let s := { s with out := { s.out with startOfBcnSlot := s.sim.now } }.countBeacon
    let p := s.beaconPacket seqNum
    let s := { s with
      adv := { s.adv with
        dsmePanDescriptorIE := s.beaconDescriptor.getD s.adv.dsmePanDescriptorIE }
      tx := { s.tx with txPkt := some p, nextUid := s.tx.nextUid + 1 } }
    let s ← s.startBeaconPeriod
    let s := { s with out := { s.out with beaconStartTxTime := s.sim.now } }
    ((s.emit (.enhancedBeacon p s.adv.macSDindex)).changeMacState .macSending)
      |>.plmeSetTRXStateRequest

/-! ## Starting a PAN -/

/-- The DSME part of `EndStartRequest`: copy the DSME superframe specification, set up the own
beacon bitmap and build the PAN descriptor. -/
def startDsme (params : MlmeStartRequestParams) (spec : DsmeSuperFrameField)
    (bcnBitmap : BeaconBitmap) (s : Mac) : Exec Mac := do
  let superframeField ← SuperframeField.set s.out.macBeaconOrder s.out.macSuperframeOrder
    s.out.fnlCapSlot s.csma.macBattLifeExt s.role.panCoor s.cfg.macAssociationPermit
  let macMultisuperframeOrder : ℕ := spec.multiSuperframeOrder
  let numOfMultisuperframes ← shiftDifference s.out.macBeaconOrder macMultisuperframeOrder
  let numOfSuperframes ← shiftDifference s.out.macBeaconOrder s.out.macSuperframeOrder
  .ok { s with
    out := { s.out with
      macMultisuperframeOrder
      macChannelDiversityMode := spec.channelDiversityMode
      macGACKFlag := spec.gackFlag
      macCAPReductionFlag := spec.capReductionFlag
      macDeferredBcnUsed := spec.deferredBcnFlag
      multiSuperframeDuration := 2 ^ macMultisuperframeOrder * aBaseSuperframeDuration
      numOfMultisuperframes
      numOfSuperframes }
    adv := { s.adv with
      macSDBitmap := bcnBitmap
      macSDindex := bcnBitmap.sdIndex
      hopping := params.hoppingDescriptor
      dsmePanDescriptorIE :=
        { superframeField
          dsmeSuperframeField := spec
          beaconTimeStamp := BitVec.ofInt 64 (s.out.startOfBcnSlot / 1000000)
          beaconBitmap := bcnBitmap
          channelHopping :=
            { hoppingSequenceID := params.hoppingDescriptor.hoppingSequenceID
              panCoordinatorBSN := s.adv.macPANCoordinatorBSN
              channelOffset := params.hoppingDescriptor.channelOfs
              channelOffsetBitmapLength := params.hoppingDescriptor.channelOfsBitmapLen
              channelOffsetBitmap := params.hoppingDescriptor.channelOfsBitmap } } }
    gts := { s.gts with scheduleGTSsEventSize := numOfSuperframes / numOfMultisuperframes } }

/-- The own slot of a coordinator that is not the PAN coordinator, added to the bitmap of its
parent. -/
def ownBcnBitmap (parent : BeaconBitmap) (choosedSDIndexToSendBcn : ℕ) : Exec BeaconBitmap := do
  let b ← parent.setSDBitmapBit choosedSDIndexToSendBcn
  .ok { b with sdIndex := choosedSDIndexToSendBcn }

/-- `std::vector::resize(n, 0)`. -/
def resizeWords {w : ℕ} (words : List (BitVec w)) (n : ℕ) : List (BitVec w) :=
  words.take n ++ List.replicate (n - words.length) 0

/-- `EndStartRequest` for a beacon order of 15: a PAN without beacons. -/
def startNonBeacon (s : Mac) : Exec Mac :=
  let s := { s with out := { s.out with
    macSuperframeOrder := 15
    fnlCapSlot := 15
    beaconInterval := 0 } }
  let s := ((((s.csmaCancel.cancel .capEvent).cancel .cfpEvent).cancel .incCapEvent).cancel
    .incCfpEvent).cancel .trackingEvent
  let s := { s with csma := { s.csma with isSlotted := false } }
  (s.confirmStart true).plmeSetTRXStateRequest

/-- The superframe structure of a PAN with beacons: of the request, or of the PAN the device is
associated with. -/
def startSuperframeStructure (params : MlmeStartRequestParams) (desc : Option PanDescriptor)
    (s : Mac) : Mac :=
  let macSuperframeOrder : ℕ := match desc with
    | none => params.sfrmOrd
    | some d => d.superframeSpec.sprFrmOrder
  let macBattLifeExt := match desc with
    | none => params.battLifeExt
    | some d => d.superframeSpec.batLifeExt
  { s with
    csma := { s.csma with macBattLifeExt, isSlotted := true }
    out := { s.out with
      macSuperframeOrder
      fnlCapSlot := 8
      beaconInterval := 2 ^ s.out.macBeaconOrder * aBaseSuperframeDuration
      superframeDuration := 2 ^ macSuperframeOrder * aBaseSuperframeDuration } }

/-- The DSME part, for both kinds of coordinator. -/
def startDsmeFrom (params : MlmeStartRequestParams) (desc : Option PanDescriptor) (s : Mac) :
    Exec Mac :=
  if s.cfg.macDSMEenabled then
    match desc with
    | none => s.startDsme params params.dsmeSuperframeSpec params.bcnBitmap
    | some d => do
      let bcnBitmap ← ownBcnBitmap d.bcnBitmap s.cfg.choosedSDIndexToSendBcn
      s.startDsme params d.dsmeSuperframeSpec bcnBitmap
  else .ok s

/-- Resize the slot allocation bitmap that is in use. -/
def resizeSAB (s : Mac) : Exec Mac := do
  let n ← shiftDifference s.out.macBeaconOrder s.out.macSuperframeOrder
  .ok { s with out := { s.out with
    macDSMESAB :=
      if s.out.macCAPReductionFlag then resizeWords s.out.macDSMESAB (n % 2 ^ 16)
      else s.out.macDSMESAB
    macDSMESABCapOff :=
      if s.out.macCAPReductionFlag then s.out.macDSMESABCapOff
      else resizeWords s.out.macDSMESABCapOff (n % 2 ^ 8) } }

/-- A PAN coordinator sends its first beacon at once, any other coordinator when the next
beacon of its parent comes. -/
def startBeacons (s : Mac) : Mac :=
  if s.role.panCoor then
    ((s.scheduleNow .multisuperframeStartEvent (.startMultisuperframe .outgoing)).scheduleNow
      .beaconEvent .sendOneEnhancedBeacon).purgeDsmeACT
  else { s with role := { s.role with sendBcn := true } }

/-- `EndStartRequest` for a beacon order below 15. -/
def startBeacon (params : MlmeStartRequestParams) (desc : Option PanDescriptor) (s : Mac) :
    Exec Mac := do
  let s ← (s.startSuperframeStructure params desc).startDsmeFrom params desc
  let s ← s.resizeSAB
  if s.cfg.macDSMEenabled then s.startBeacons.scheduleGtsInMac false else .ok s

/-- `EndStartRequest` with a given beacon order. -/
def startPan (params : MlmeStartRequestParams) (bcnOrd : ℕ) (desc : Option PanDescriptor)
    (s : Mac) : Exec Mac :=
  let s := { s with out := { s.out with macBeaconOrder := bcnOrd } }
  if bcnOrd = 15 then s.startNonBeacon else s.startBeacon params desc

/-- The device becomes a PAN coordinator or a coordinator. -/
def takeRole (params : MlmeStartRequestParams) (s : Mac) : Mac :=
  { s with role := { s.role with
    panCoor := s.role.panCoor || params.panCoor
    coord := s.role.coord || !params.panCoor
    macPanId := params.panId } }

/-- `EndStartRequest`.  A PAN coordinator takes the superframe structure from the request, any
other coordinator from the PAN descriptor of the PAN it is associated with. -/
def endStartRequest (params : MlmeStartRequestParams) (s : Mac) : Exec Mac :=
  let s := s.takeRole params
  if params.panId = 0xffff then .error .assertFailed
  else if s.role.panCoor then s.startPan params params.bcnOrd none
  else
    match s.cfg.panDescriptorList[s.cfg.descIdxOfAssociatedPan]? with
    | none => .error .outOfRange
    | some d => s.startPan params d.superframeSpec.bcnOrder (some d)

/-- `MlmeStartRequest`: the PHY accepts or refuses the channel page and the channel. -/
def mlmeStartRequest (params : MlmeStartRequestParams) (pageOk channelOk : Bool) (s : Mac) :
    Exec Mac := do
  let s ← s.plmeSetAttributeRequest
  if pageOk then
    let s ← s.plmeSetAttributeRequest
    if channelOk then s.endStartRequest params else .ok s
  else .ok (s.confirmStart false)

/-! ## Guaranteed time slots -/

/-- The channel of a GTS. -/
def gtsChannel (s : Mac) (e : MacDSMEACTEntity) : Exec ℕ :=
  if s.cfg.numOfChannels = 0 then .error .divByZero
  else if s.cfg.forDsmeNetDeviceIntegrateWithHigerLayer then
    .ok ((e.channelID + e.slotID) % s.cfg.numOfChannels + 11)
  else
    let cfpSlotNum :=
      if s.out.macCAPReductionFlag ∧ s.gts.curGTSSuperframeID ≠ 0 then 15 else 7
    let hop := s.gts.curGTSSuperframeID * cfpSlotNum + e.slotID + e.channelID
      + s.adv.macPANCoordinatorBSN.toNat
    .ok (hop % s.cfg.numOfChannels + 11)

/-- The length of a GTS in symbols, by the slots of the outgoing superframe for a coordinator
and by those of the incoming one for any other device. -/
def gtsDuration (s : Mac) (e : MacDSMEACTEntity) : ℕ :=
  let superframeDuration :=
    if s.role.coord then s.out.superframeDuration else s.inc.incomingSuperframeDuration
  superframeDuration / 16 * e.numSlot

/-- How much earlier than its last slot a GTS ends: 10 ns in the slots 6 and 14, else 1 ns. -/
def endGtsMargin (e : MacDSMEACTEntity) : ℤ :=
  if e.slotID = 6 ∨ e.slotID = 14 then 10 else 1

/-- The multi-superframe after which a GTS comes again, in symbols. -/
def gtsPeriod (s : Mac) : ℕ :=
  if s.role.coord then s.out.multiSuperframeDuration
  else s.inc.incomingMultisuperframeDuration

/-- Make an entry the current one. -/
def enterGTS (superframeID idx : ℕ) (e : MacDSMEACTEntity) (s : Mac) : Mac :=
  { s with gts := { s.gts with
    curGTSSuperframeID := superframeID
    curGTSIdx := idx
    currentGTSIdx := e.slotID } }

/-- Schedule the GTS of an entry for the next multi-superframe. -/
def scheduleNextGTS (idx alloc : ℕ) (e : MacDSMEACTEntity) (s : Mac) : Mac :=
  if e.allocated then
    s.scheduleSymbols .gtsSchedulingEvent
      (.startGTS e.superframeType e.superframeID idx alloc) s.gtsPeriod
  else s

/-- Schedule the end of a GTS. -/
def scheduleEndGTS (superframeType : SuperframeType) (e : MacDSMEACTEntity) (s : Mac) :
    Exec Mac :=
  let endGtsTime := symbols (s.gtsDuration e) - endGtsMargin e
  match superframeType with
  | .outgoing => s.schedule .gtsEvent (.endGTS .outgoing) endGtsTime
  | .incoming => s.schedule .incGtsEvent (.endGTS .incoming) endGtsTime

/-- `StartGTS` up to the choice of the channel. -/
def openGTS (superframeType : SuperframeType) (superframeID idx alloc : ℕ)
    (e : MacDSMEACTEntity) (s : Mac) : Exec Mac :=
  ((s.enterGTS superframeID idx e).scheduleNextGTS idx alloc e).scheduleEndGTS superframeType e

/-- The end of `StartGTS`: in a slot reserved for the group acknowledgment, send it 3 ms
later. -/
def scheduleGroupAck (e : MacDSMEACTEntity) (s : Mac) : Exec Mac :=
  match s.cfg.groupAckPolicy with
  | .groupAckLegacy =>
    if (e.slotID = s.cfg.legacyGroupAck.gack1SlotID
        ∨ e.slotID = s.cfg.legacyGroupAck.gack2SlotID) ∧ e.direction = 0 ∧ s.role.coord then do
      let s ← s.scheduleAnonymous .sendLegacyGroupAck gackDelay
      .ok { s with gack := { s.gack with legacyGackIndexCounter := 0 } }
    else .ok s
  | .groupAckEnhanced =>
    if (e.slotID = enhancedGroupAckFirstSlot ∨ e.slotID = enhancedGroupAckSecondSlot)
        ∧ e.direction = 0 then
      s.scheduleAnonymous .sendEnhancedGroupAck gackDelay
    else .ok s
  | _ => .ok s

/-- `m_txPkt = m_txQueue.front()`, unless the queue is empty. -/
def takeFront (s : Mac) : Mac :=
  match s.tx.txQueue with
  | [] => s
  | el :: _ => s.setTxPkt (some el.txQPkt)

/-- The middle of `StartGTS`: with forwarding from the CAP, send the front of the transmit
queue or, if the queue is empty, the packet that is still in transmission. -/
def forwardFromCap (s : Mac) : Exec Mac :=
  if s.cfg.gtsContinuePktSendingFromCap then
    if s.takeFront.tx.txPkt.isSome then
      (s.takeFront.changeMacState .macGtsSending).plmeSetTRXStateRequest
    else .ok s.takeFront
  else .ok s

/-- `StartGTS`. -/
def startGTS (superframeType : SuperframeType) (superframeID idx alloc : ℕ) (s : Mac) :
    Exec Mac :=
  match s.gts.macDsmeACT.lookup superframeID idx with
  | none => .error .outOfRange
  | some e =>
    if e.deallocated then .ok s
    else if e.expired then .ok s
    else do
      let s ← s.openGTS superframeType superframeID idx alloc e
      let ch ← s.gtsChannel e
      let s ← (s.emit (.phyCurrentChannel ch)).plmeSetAttributeRequest
      let s ← s.setLrWpanMacStateToGTS superframeID idx
      let s ← s.forwardFromCap
      s.scheduleGroupAck e

/-- `EndGTS`. -/
def endGTS (s : Mac) : Exec Mac := do
  let s ← s.plmeSetAttributeRequest
  let s := if s.macState = .macAckPending then s.cancel .ackWaitTimeout else s
  let s := (s.cancel .setMacState).scheduleNow .setMacState (.setLrWpanMacState .macIdle)
  .ok ((s.setTxPkt none).cancel .pdDataRequest)

/-! ## Sending group acknowledgments -/

/-- The header of a group acknowledgment. -/
def groupAckHeader (s : Mac) : LrWpanMacHeader where
  frmType := .acknowledgment
  seqNum := s.tx.macDsn
  ieListPresent := true
  frmVer := 2
  dstAddrMode := .shortAddr
  dstPanId := s.role.macPanId
  shortDstAddr := 0xffff
  srcAddrMode := .shortAddr
  srcPanId := s.role.macPanId
  shortSrcAddr := s.cfg.shortAddress

/-- `SendEnhancedGroupAck` and `SendLegacyGroupAck`, which differ in the policy they assert and
in the IE they send. -/
def sendGroupAck (policy : LrWpanGroupAckPolicy) (body : FrameBody) (ieSize : ℕ) (s : Mac) :
    Exec Mac :=
  if s.macState ≠ .macGts then .error .assertFailed
  else if s.cfg.groupAckPolicy ≠ policy then .error .assertFailed
  else if s.role.macPanId = 0xffff then .ok s
  else
    let hdr := s.groupAckHeader
    let p : Packet :=
      { hdr, body, size := hdr.serializedSize + ieSize + 2 + 2 + macTrailerSize
        uid := s.tx.nextUid }
    let tx := { s.tx with
      txPkt := some p, macDsn := s.tx.macDsn + 1, nextUid := s.tx.nextUid + 1 }
    ({ s with tx }.changeMacState .macGtsSending).plmeSetTRXStateRequest

/-- `SendEnhancedGroupAck`. -/
def sendEnhancedGroupAck (s : Mac) : Exec Mac :=
  s.sendGroupAck .groupAckEnhanced (.enhancedGroupAck s.gack.enhancedGACKBitmap) 8

/-- `SendLegacyGroupAck`. -/
def sendLegacyGroupAck (s : Mac) : Exec Mac :=
  s.sendGroupAck .groupAckLegacy
    (.legacyGroupAck s.gack.legacyGackBitmap s.gack.legacyGackDevList s.gack.legacyGackIdx
      s.gack.legacyGackDirections) 7

end Ns3Dsme.Mac
