/-
# When MAC commands survive the wire

`CommandPayloadHeader`: the three switches of `GetSerializedSize`, `Serialize` and `Deserialize`,
and for each command when reading gives back what was written.
-/
import Ns3Dsme.LrWpan.CommandFrame

open List BitFields Reader

namespace Ns3Dsme.Codec

open DSMEGTSManagementField DSMESABSpecificationField

/-- `MacCommand`. -/
inductive MacCommand
  | associationReq
  | associationResp
  | disassociationNotif
  | dataReq
  | panIdConflict
  | orphanNotif
  | beaconReq
  | coorRealign
  | gtsReq
  | dsmeAssociationReq
  | dsmeAssociationResp
  | dsmeGtsReq
  | dsmeGtsReply
  | dsmeGtsNotify
  | dsmeInfoReq
  | dsmeInfoReply
  | dsmeBeaconAllocNotif
  | dsmeBeaconCollisionNotif
  | dsmeLinkStatusReport
  | cmdReserved
  deriving DecidableEq

namespace MacCommand

def toOctet : MacCommand → Octet
  | associationReq => 0x01
  | associationResp => 0x02
  | disassociationNotif => 0x03
  | dataReq => 0x04
  | panIdConflict => 0x05
  | orphanNotif => 0x06
  | beaconReq => 0x07
  | coorRealign => 0x08
  | gtsReq => 0x09
  | dsmeAssociationReq => 0x13
  | dsmeAssociationResp => 0x14
  | dsmeGtsReq => 0x15
  | dsmeGtsReply => 0x16
  | dsmeGtsNotify => 0x17
  | dsmeInfoReq => 0x18
  | dsmeInfoReply => 0x19
  | dsmeBeaconAllocNotif => 0x1a
  | dsmeBeaconCollisionNotif => 0x1b
  | dsmeLinkStatusReport => 0x1c
  | cmdReserved => 0xff

def all : List MacCommand :=
  [associationReq, associationResp, disassociationNotif, dataReq, panIdConflict, orphanNotif,
    beaconReq, coorRealign, gtsReq, dsmeAssociationReq, dsmeAssociationResp, dsmeGtsReq,
    dsmeGtsReply, dsmeGtsNotify, dsmeInfoReq, dsmeInfoReply, dsmeBeaconAllocNotif,
    dsmeBeaconCollisionNotif, dsmeLinkStatusReport, cmdReserved]

/-- The command with a number, if there is one. -/
def ofOctet? (a : Octet) : Option MacCommand := all.find? fun c => c.toOctet = a

end MacCommand

/-- `CommandPayloadHeader`.  The command is a number; after reading it may be any. -/
structure CommandPayloadHeader where
  cmdFrameId : Octet
  capabilityInfo : CapabilityField
  shortAddr : Mac16Address
  assocStatus : Octet
  disassociationReason : Octet
  panId : BitVec 16
  coordShortAddr : Mac16Address
  channelNum : Octet
  channelPage : Octet
  hoppingSeqId : Octet
  channelOfs : BitVec 16
  hoppingSeqLen : Octet
  hoppingSeq : HoppingSequence
  dsmeGTSManagement : DSMEGTSManagementField
  numOfSlot : Octet
  preferredSuperframeID : BitVec 16
  preferredSlotID : Octet
  dsmeSABSpec : DSMESABSpecificationField
  destAddr : Mac16Address
  infoType : Octet
  dsmeSABSubBlkLen : Octet
  dsmeSABSubBlkIdx : BitVec 16
  timestamp : BitVec 64
  superframeID : BitVec 16
  slotID : Octet
  dsmePANDescriptorIE : DsmePANDescriptorIE
  allocationBcnSDIndex : BitVec 16
  collisionSDIndex : BitVec 16
  allocationSequence : BitVec 16
  deriving DecidableEq, Inhabited

namespace CommandPayloadHeader

def command (h : CommandPayloadHeader) : Option MacCommand := MacCommand.ofOctet? h.cmdFrameId

/-! ## `GetSerializedSize` -/

def payloadSize (h : CommandPayloadHeader) : Option MacCommand → ℕ
  | some .associationReq => 1
  | some .associationResp => 3
  | some .disassociationNotif => 1
  | some .coorRealign => 2 + 2 + 1 + 2 + 1
  | some .dsmeAssociationReq => 1 + 1 + 2
  | some .dsmeAssociationResp => 2 + 1 + 1 + h.hoppingSeqLen.toNat / 8 + 2
  | some .dsmeGtsReq =>
    1 + (if h.dsmeGTSManagement.managementType = 1 then 1 + 2 + 1 else 0)
      + h.dsmeSABSpec.getSerializedSize
  | some .dsmeGtsReply => 1 + 2 + 2 + h.dsmeSABSpec.getSerializedSize
  | some .dsmeGtsNotify => 1 + 2 + 2 + h.dsmeSABSpec.getSerializedSize
  | some .dsmeInfoReq => 1 + 1 + 2
  | some .dsmeInfoReply =>
    1 + 8 + 2 + 1 + (if h.infoType = 1 then h.dsmeSABSpec.getSerializedSize
      else if h.infoType = 2 then h.dsmePANDescriptorIE.getSerializedSize else 0)
  | some .dsmeBeaconAllocNotif => 2
  | some .dsmeBeaconCollisionNotif => 2
  | _ => 0

def getSerializedSize (h : CommandPayloadHeader) : ℕ := 1 + h.payloadSize h.command

/-! ## `Serialize` -/

/-- What a GTS request says of the slots, with management type 1. -/
def writeSlots (h : CommandPayloadHeader) : List Octet :=
  if h.dsmeGTSManagement.managementType = 1 then
    [h.numOfSlot] ++ (lowFirst h.preferredSuperframeID 2 ++ [h.preferredSlotID])
  else []

/-- The reply and the notification of a GTS. -/
def writeGts (h : CommandPayloadHeader) : Option (List Octet) :=
  h.dsmeSABSpec.serialize.map fun sab =>
    h.dsmeGTSManagement.serialize ++ (lowFirst h.destAddr 2 ++ (lowFirst h.channelOfs 2 ++ sab))

/-- What is written behind the slot of an information reply. -/
def writeInfo (h : CommandPayloadHeader) : Option (List Octet) :=
  if h.infoType = 1 then h.dsmeSABSpec.serialize
  else if h.infoType = 2 then h.dsmePANDescriptorIE.serialize
  else some []

def writePayload (h : CommandPayloadHeader) : Option MacCommand → Option (List Octet)
  | some .associationReq => some h.capabilityInfo.serialize
  | some .associationResp => some (lowFirst h.shortAddr 2 ++ [h.assocStatus])
  | some .disassociationNotif => some [h.disassociationReason]
  | some .coorRealign => some (lowFirst h.panId 2 ++ (lowFirst h.coordShortAddr 2 ++
    ([h.channelNum] ++ (lowFirst h.shortAddr 2 ++ [h.channelPage]))))
  | some .dsmeAssociationReq =>
    some (h.capabilityInfo.serialize ++ ([h.hoppingSeqId] ++ lowFirst h.channelOfs 2))
  | some .dsmeAssociationResp => some (lowFirst h.shortAddr 2 ++ ([h.assocStatus] ++
    ([h.hoppingSeqLen] ++ (h.hoppingSeq.serialize ++ lowFirst h.allocationSequence 2))))
  | some .dsmeGtsReq => h.dsmeSABSpec.serialize.map fun sab =>
    h.dsmeGTSManagement.serialize ++ (h.writeSlots ++ sab)
  | some .dsmeGtsReply => h.writeGts
  | some .dsmeGtsNotify => h.writeGts
  | some .dsmeInfoReq =>
    some ([h.infoType] ++ ([h.dsmeSABSubBlkLen] ++ lowFirst h.dsmeSABSubBlkIdx 2))
  | some .dsmeInfoReply => h.writeInfo.map fun info =>
    [h.infoType] ++ (lowFirst h.timestamp 8 ++ (lowFirst h.superframeID 2 ++ ([h.slotID] ++ info)))
  | some .dsmeBeaconAllocNotif => some (lowFirst h.allocationBcnSDIndex 2)
  | some .dsmeBeaconCollisionNotif => some (lowFirst h.collisionSDIndex 2)
  | _ => some []

def serialize (h : CommandPayloadHeader) : Option (List Octet) :=
  (h.writePayload h.command).map fun payload => [h.cmdFrameId] ++ payload

/-! ## `Deserialize` -/

def readSlots (h : CommandPayloadHeader) : Reader CommandPayloadHeader :=
  if h.dsmeGTSManagement.managementType = 1 then do
    let numOfSlot ← octet
    let preferredSuperframeID ← word 16 2
    let preferredSlotID ← octet
    return { h with
      numOfSlot := numOfSlot
      preferredSuperframeID := preferredSuperframeID
      preferredSlotID := preferredSlotID }
  else return h

def readGts (h : CommandPayloadHeader) : Reader CommandPayloadHeader := do
  let management ← deserialize
  let destAddr ← word 16 2
  let channelOfs ← word 16 2
  let sab ← h.dsmeSABSpec.deserialize
  return { h with
    dsmeGTSManagement := management
    destAddr := destAddr
    channelOfs := channelOfs
    dsmeSABSpec := sab }

/-- The PAN descriptor is read, but the octets that it takes are not counted. -/
def readInfo (h : CommandPayloadHeader) : Reader CommandPayloadHeader :=
  if h.infoType = 1 then do
    let sab ← h.dsmeSABSpec.deserialize
    return { h with dsmeSABSpec := sab }
  else if h.infoType = 2 then do
    let ie ← peek h.dsmePANDescriptorIE.deserialize
    return { h with dsmePANDescriptorIE := ie }
  else return h

def readPayload (h : CommandPayloadHeader) : Option MacCommand → Reader CommandPayloadHeader
  | some .associationReq => do
    let capability ← CapabilityField.deserialize
    return { h with capabilityInfo := capability }
  | some .associationResp => do
    let shortAddr ← word 16 2
    let assocStatus ← octet
    return { h with shortAddr := shortAddr, assocStatus := assocStatus }
  | some .disassociationNotif => do
    let reason ← octet
    return { h with disassociationReason := reason }
  | some .coorRealign => do
    let panId ← word 16 2
    let coordShortAddr ← word 16 2
    let channelNum ← octet
    let shortAddr ← word 16 2
    let channelPage ← octet
    return { h with
      panId := panId
      coordShortAddr := coordShortAddr
      channelNum := channelNum
      shortAddr := shortAddr
      channelPage := channelPage }
  | some .dsmeAssociationReq => do
    let capability ← CapabilityField.deserialize
    let hoppingSeqId ← octet
    let channelOfs ← word 16 2
    return { h with
      capabilityInfo := capability, hoppingSeqId := hoppingSeqId, channelOfs := channelOfs }
  | some .dsmeAssociationResp => do
    let shortAddr ← word 16 2
    let assocStatus ← octet
    let hoppingSeqLen ← octet
    let hoppingSeq ← h.hoppingSeq.deserialize
    let allocationSequence ← word 16 2
    return { h with
      shortAddr := shortAddr
      assocStatus := assocStatus
      hoppingSeqLen := hoppingSeqLen
      hoppingSeq := hoppingSeq
      allocationSequence := allocationSequence }
  | some .dsmeGtsReq => do
    let management ← deserialize
    let h ← readSlots { h with dsmeGTSManagement := management }
    let sab ← h.dsmeSABSpec.deserialize
    return { h with dsmeSABSpec := sab }
  | some .dsmeGtsReply => h.readGts
  | some .dsmeGtsNotify => h.readGts
  | some .dsmeInfoReq => do
    let infoType ← octet
    let subBlkLen ← octet
    let subBlkIdx ← octet
    return { h with
      infoType := infoType
      dsmeSABSubBlkLen := subBlkLen
      dsmeSABSubBlkIdx := subBlkIdx.setWidth 16 }
  | some .dsmeInfoReply => do
    let infoType ← octet
    let timestamp ← word 64 8
    let superframeID ← word 16 2
    let slotID ← octet
    readInfo { h with
      infoType := infoType
      timestamp := timestamp
      superframeID := superframeID
      slotID := slotID }
  | some .dsmeBeaconAllocNotif => do
    let index ← word 16 2
    return { h with allocationBcnSDIndex := index }
  | some .dsmeBeaconCollisionNotif => do
    let index ← word 16 2
    return { h with collisionSDIndex := index }
  | _ => return h

def deserialize (h : CommandPayloadHeader) : Reader CommandPayloadHeader := do
  let cmdFrameId ← octet
  readPayload { h with cmdFrameId := cmdFrameId } (MacCommand.ofOctet? cmdFrameId)

/-! ## What is promised -/

/-- The fields that the reply and the notification of a GTS have. -/
def SameGts (h h' : CommandPayloadHeader) : Prop :=
  h'.dsmeGTSManagement = h.dsmeGTSManagement ∧ h'.destAddr = h.destAddr ∧
    h'.channelOfs = h.channelOfs ∧ DSMESABSpecificationField.Same h.dsmeSABSpec h'.dsmeSABSpec

/-- The fields of the command are the same. -/
def SamePayload (h h' : CommandPayloadHeader) : Option MacCommand → Prop
  | some .associationReq => h'.capabilityInfo = h.capabilityInfo
  | some .associationResp => h'.shortAddr = h.shortAddr ∧ h'.assocStatus = h.assocStatus
  | some .disassociationNotif => h'.disassociationReason = h.disassociationReason
  | some .coorRealign => h'.panId = h.panId ∧ h'.coordShortAddr = h.coordShortAddr ∧
    h'.channelNum = h.channelNum ∧ h'.shortAddr = h.shortAddr ∧ h'.channelPage = h.channelPage
  | some .dsmeAssociationReq => h'.capabilityInfo = h.capabilityInfo ∧
    h'.hoppingSeqId = h.hoppingSeqId ∧ h'.channelOfs = h.channelOfs
  | some .dsmeAssociationResp => h'.shortAddr = h.shortAddr ∧ h'.assocStatus = h.assocStatus ∧
    h'.hoppingSeqLen = h.hoppingSeqLen ∧ h'.hoppingSeq = h.hoppingSeq ∧
    h'.allocationSequence = h.allocationSequence
  | some .dsmeGtsReq => h'.dsmeGTSManagement = h.dsmeGTSManagement ∧
    (h.dsmeGTSManagement.managementType = 1 → h'.numOfSlot = h.numOfSlot ∧
      h'.preferredSuperframeID = h.preferredSuperframeID ∧
      h'.preferredSlotID = h.preferredSlotID) ∧
    DSMESABSpecificationField.Same h.dsmeSABSpec h'.dsmeSABSpec
  | some .dsmeGtsReply => h.SameGts h'
  | some .dsmeGtsNotify => h.SameGts h'
  | some .dsmeInfoReq => h'.infoType = h.infoType ∧ h'.dsmeSABSubBlkLen = h.dsmeSABSubBlkLen ∧
    h'.dsmeSABSubBlkIdx = h.dsmeSABSubBlkIdx
  | some .dsmeInfoReply => h'.infoType = h.infoType ∧ h'.timestamp = h.timestamp ∧
    h'.superframeID = h.superframeID ∧ h'.slotID = h.slotID ∧
    (h.infoType = 1 → DSMESABSpecificationField.Same h.dsmeSABSpec h'.dsmeSABSpec) ∧
    (h.infoType = 2 → DsmePANDescriptorIE.Same h.dsmePANDescriptorIE h'.dsmePANDescriptorIE)
  | some .dsmeBeaconAllocNotif => h'.allocationBcnSDIndex = h.allocationBcnSDIndex
  | some .dsmeBeaconCollisionNotif => h'.collisionSDIndex = h.collisionSDIndex
  | _ => True

/-- Reading what was written, into some object, gives the same fields; as many octets are written
and read as the header says. -/
def RoundTrips (h h₀ : CommandPayloadHeader) : Prop :=
  ∃ octets, h.serialize = some octets ∧ h.getSerializedSize = octets.length ∧ ∀ rest, ∃ h',
    h₀.deserialize.run (octets ++ rest) = some (h', rest) ∧ h'.cmdFrameId = h.cmdFrameId ∧
      h.SamePayload h' h.command

/-- The commands for which this is so. -/
def CarriedPayload (h h₀ : CommandPayloadHeader) : Option MacCommand → Prop
  | some .dsmeAssociationResp =>
    h.hoppingSeqLen.toNat / 8 = 2 * h.hoppingSeq.channelList.length ∧
      h₀.hoppingSeq.channelList.length = h.hoppingSeq.channelList.length
  | some .dsmeGtsReq => h.dsmeGTSManagement.Fits ∧ h.dsmeSABSpec.Carried h₀.dsmeSABSpec
  | some .dsmeGtsReply => h.dsmeGTSManagement.Fits ∧ h.dsmeSABSpec.Carried h₀.dsmeSABSpec
  | some .dsmeGtsNotify => h.dsmeGTSManagement.Fits ∧ h.dsmeSABSpec.Carried h₀.dsmeSABSpec
  | some .dsmeInfoReq => False
  | some .dsmeInfoReply =>
    h.infoType ≠ 2 ∧ (h.infoType = 1 → h.dsmeSABSpec.Carried h₀.dsmeSABSpec)
  | _ => True

/-! ## One command -/

/-- The payload of a command comes back, read into `g`. -/
def PayloadBack (h g : CommandPayloadHeader) (c : Option MacCommand) : Prop :=
  ∃ payload, h.writePayload c = some payload ∧ h.payloadSize c = payload.length ∧ ∀ rest, ∃ h',
    (g.readPayload c).run (payload ++ rest) = some (h', rest) ∧ h'.cmdFrameId = h.cmdFrameId ∧
      h.SamePayload h' c

variable {h g : CommandPayloadHeader} {c : Option MacCommand}

theorem payloadBack_of_reads {payload : List Octet} {h' : CommandPayloadHeader}
    (hwrite : h.writePayload c = some payload) (hsize : h.payloadSize c = payload.length)
    (hread : Reads (g.readPayload c) payload h') (hid : h'.cmdFrameId = h.cmdFrameId)
    (hsame : h.SamePayload h' c) : PayloadBack h g c :=
  ⟨payload, hwrite, hsize, fun rest => ⟨h', hread rest, hid, hsame⟩⟩

/-- Where reading gives a certain object, that object has the same fields. -/
theorem PayloadBack.same {payload : List Octet} {h' : CommandPayloadHeader}
    (hback : PayloadBack h g c) (hwrite : h.writePayload c = some payload)
    (hread : Reads (g.readPayload c) payload h') : h.SamePayload h' c := by
  obtain ⟨payload', hwrite', -, hrest⟩ := hback
  rw [hwrite] at hwrite'
  cases hwrite'
  obtain ⟨h'', hrun, -, hsame⟩ := hrest []
  rw [(hread.unique hrun).1] at hsame
  exact hsame

/-- What holds of all that is read. -/
theorem PayloadBack.yields {Q : CommandPayloadHeader → List Octet → Prop}
    (hback : PayloadBack h g c) (hr : Yields (g.readPayload c) Q) :
    ∃ payload h', h.writePayload c = some payload ∧ h.payloadSize c = payload.length ∧
      Q h' payload ∧ h.SamePayload h' c := by
  obtain ⟨payload, hwrite, hsize, hrest⟩ := hback
  obtain ⟨h', hrun, -, hsame⟩ := hrest []
  exact ⟨payload, h', hwrite, hsize, hr.of_run hrun, hsame⟩

/-! ## Commands of fixed length -/

theorem associationReq_back (hid : g.cmdFrameId = h.cmdFrameId) :
    PayloadBack h g (some .associationReq) :=
  payloadBack_of_reads rfl rfl ((CapabilityField.reads_deserialize _).bind_pure rfl) hid rfl

theorem associationResp_back (hid : g.cmdFrameId = h.cmdFrameId) :
    PayloadBack h g (some .associationResp) :=
  payloadBack_of_reads rfl rfl
    ((reads_word (k := 2) _ rfl).bind ((reads_octet _).bind_pure rfl)) hid ⟨rfl, rfl⟩

theorem disassociationNotif_back (hid : g.cmdFrameId = h.cmdFrameId) :
    PayloadBack h g (some .disassociationNotif) :=
  payloadBack_of_reads rfl rfl ((reads_octet _).bind_pure rfl) hid rfl

theorem coorRealign_back (hid : g.cmdFrameId = h.cmdFrameId) :
    PayloadBack h g (some .coorRealign) :=
  payloadBack_of_reads rfl rfl
    ((reads_word (k := 2) _ rfl).bind ((reads_word (k := 2) _ rfl).bind ((reads_octet _).bind
      ((reads_word (k := 2) _ rfl).bind ((reads_octet _).bind_pure rfl))))) hid
    ⟨rfl, rfl, rfl, rfl, rfl⟩

theorem dsmeAssociationReq_back (hid : g.cmdFrameId = h.cmdFrameId) :
    PayloadBack h g (some .dsmeAssociationReq) :=
  payloadBack_of_reads rfl rfl
    ((CapabilityField.reads_deserialize _).bind ((reads_octet _).bind
      ((reads_word (k := 2) _ rfl).bind_pure rfl))) hid ⟨rfl, rfl, rfl⟩

theorem dsmeBeaconAllocNotif_back (hid : g.cmdFrameId = h.cmdFrameId) :
    PayloadBack h g (some .dsmeBeaconAllocNotif) :=
  payloadBack_of_reads rfl rfl ((reads_word (k := 2) _ rfl).bind_pure rfl) hid rfl

theorem dsmeBeaconCollisionNotif_back (hid : g.cmdFrameId = h.cmdFrameId) :
    PayloadBack h g (some .dsmeBeaconCollisionNotif) :=
  payloadBack_of_reads rfl rfl ((reads_word (k := 2) _ rfl).bind_pure rfl) hid rfl

/-- A command without fields. -/
theorem empty_back (hid : g.cmdFrameId = h.cmdFrameId) (hwrite : h.writePayload c = some [])
    (hsize : h.payloadSize c = 0) (hread : g.readPayload c = pure g) (hsame : h.SamePayload g c) :
    PayloadBack h g c := by
  refine payloadBack_of_reads hwrite hsize ?_ hid hsame
  rw [hread]
  exact reads_pure g

/-- An information request writes its index with two octets, and reads it with one. -/
theorem not_dsmeInfoReq_back : ¬ PayloadBack h g (some .dsmeInfoReq) := by
  intro hback
  have hr : Yields (g.readPayload (some .dsmeInfoReq)) fun _ xs => xs.length = 3 := by
    refine yields_octet.bind fun _ xs hxs => yields_octet.bind fun _ ys hys =>
      yields_octet.bind fun _ zs hzs => yields_pure ?_
    rw [hxs, hys, hzs]
    rfl
  obtain ⟨payload, h', hwrite, hsize, hlen, -⟩ := hback.yields hr
  have hfour : h.payloadSize (some .dsmeInfoReq) = 4 := rfl
  omega

/-! ## The hopping sequence -/

theorem dsmeAssociationResp_back_iff (hid : g.cmdFrameId = h.cmdFrameId) :
    PayloadBack h g (some .dsmeAssociationResp) ↔
      h.hoppingSeqLen.toNat / 8 = 2 * h.hoppingSeq.channelList.length ∧
        g.hoppingSeq.channelList.length = h.hoppingSeq.channelList.length := by
  have hwritten : (lowFirst h.shortAddr 2 ++ ([h.assocStatus] ++ ([h.hoppingSeqLen] ++
      (h.hoppingSeq.serialize ++ lowFirst h.allocationSequence 2)))).length =
        6 + 2 * h.hoppingSeq.channelList.length := by
    simp only [length_append]
    rw [HoppingSequence.serialize, length_flatMap_lowFirst]
    show 2 + (1 + (1 + (_ + 2))) = _
    omega
  constructor
  · intro hback
    have hr : Yields (g.readPayload (some .dsmeAssociationResp)) fun h' _ =>
        h'.hoppingSeq.channelList.length = g.hoppingSeq.channelList.length :=
      (yields_word (k := 2) rfl).bind fun _ _ _ => yields_octet.bind fun _ _ _ =>
        yields_octet.bind fun _ _ _ => g.hoppingSeq.yields_deserialize.bind fun _ _ hlen =>
          (yields_word (k := 2) rfl).bind fun _ _ _ => yields_pure hlen
    obtain ⟨payload, h', hwrite, hsize, hlen, hsame⟩ := hback.yields hr
    cases hwrite
    rw [hsame.2.2.2.1] at hlen
    refine ⟨?_, hlen.symm⟩
    rw [hwritten] at hsize
    have hreported : h.payloadSize (some .dsmeAssociationResp) =
        2 + 1 + 1 + h.hoppingSeqLen.toNat / 8 + 2 := rfl
    omega
  · rintro ⟨hlen, hseq⟩
    refine payloadBack_of_reads rfl ?_ ((reads_word (k := 2) _ rfl).bind ((reads_octet _).bind
      ((reads_octet _).bind ((HoppingSequence.reads_deserialize hseq).bind
        ((reads_word (k := 2) _ rfl).bind_pure rfl))))) hid ⟨rfl, rfl, rfl, rfl, rfl⟩
    rw [hwritten]
    show 2 + 1 + 1 + h.hoppingSeqLen.toNat / 8 + 2 = _
    omega

/-! ## GTS commands -/

theorem reads_gts {sab : List Octet} (hsab : h.dsmeSABSpec.serialize = some sab) :
    Reads g.readGts (h.dsmeGTSManagement.serialize ++ (lowFirst h.destAddr 2 ++
      (lowFirst h.channelOfs 2 ++ sab)))
      { g with
        dsmeGTSManagement := setField h.dsmeGTSManagement.getField
        destAddr := h.destAddr
        channelOfs := h.channelOfs
        dsmeSABSpec := h.dsmeSABSpec.onto g.dsmeSABSpec } :=
  (reads_deserialize _).bind ((reads_word (k := 2) _ rfl).bind
    ((reads_word (k := 2) _ rfl).bind
      ((reads_of_serialize hsab g.dsmeSABSpec).2.bind_pure rfl)))

/-- The reply and the notification. -/
theorem gts_back_iff (hid : g.cmdFrameId = h.cmdFrameId) (hwrite : h.writePayload c = h.writeGts)
    (hsize : h.payloadSize c = 1 + 2 + 2 + h.dsmeSABSpec.getSerializedSize)
    (hread : g.readPayload c = g.readGts) (hsame : ∀ h', h.SamePayload h' c ↔ h.SameGts h') :
    PayloadBack h g c ↔
      h.dsmeGTSManagement.Fits ∧ h.dsmeSABSpec.Carried g.dsmeSABSpec := by
  rw [carried_iff, ← setField_getField_iff]
  constructor
  · intro hback
    obtain ⟨payload, hpayload, hrest⟩ := id hback
    rw [hwrite] at hpayload
    obtain ⟨sab, hsab, rfl⟩ := Option.map_eq_some_iff.mp hpayload
    have hreads := reads_gts (g := g) hsab
    rw [← hread] at hreads
    obtain ⟨hmanagement, -, -, hblocks⟩ :=
      (hsame _).mp (hback.same (by rw [hwrite, hpayload]) hreads)
    exact ⟨hmanagement, ⟨sab, hsab⟩, hblocks⟩
  · rintro ⟨hmanagement, ⟨sab, hsab⟩, hblocks⟩
    have hreads := reads_gts (g := g) hsab
    rw [← hread] at hreads
    refine payloadBack_of_reads (by rw [hwrite, writeGts, hsab]; rfl) ?_ hreads hid
      ((hsame _).mpr ⟨hmanagement, rfl, rfl, hblocks⟩)
    rw [hsize, ← length_of_serialize hsab]
    simp only [length_append]
    show _ = 1 + (2 + (2 + _))
    omega

/-- What a GTS request says of the slots comes back. -/
theorem exists_readSlots (h g : CommandPayloadHeader)
    (htype : g.dsmeGTSManagement.managementType = h.dsmeGTSManagement.managementType) :
    ∃ g', Reads g.readSlots h.writeSlots g' ∧ g'.cmdFrameId = g.cmdFrameId ∧
      g'.dsmeGTSManagement = g.dsmeGTSManagement ∧ g'.dsmeSABSpec = g.dsmeSABSpec ∧
      (h.dsmeGTSManagement.managementType = 1 → g'.numOfSlot = h.numOfSlot ∧
        g'.preferredSuperframeID = h.preferredSuperframeID ∧
        g'.preferredSlotID = h.preferredSlotID) := by
  unfold readSlots writeSlots
  rw [htype]
  by_cases hone : h.dsmeGTSManagement.managementType = 1
  · rw [if_pos hone, if_pos hone]
    exact ⟨{ g with
        numOfSlot := h.numOfSlot
        preferredSuperframeID := h.preferredSuperframeID
        preferredSlotID := h.preferredSlotID },
      (reads_octet _).bind ((reads_word (k := 2) _ rfl).bind ((reads_octet _).bind_pure rfl)), rfl,
      rfl, rfl, fun _ => ⟨rfl, rfl, rfl⟩⟩
  · rw [if_neg hone, if_neg hone]
    exact ⟨g, reads_pure g, rfl, rfl, rfl, fun h => absurd h hone⟩

theorem length_writeSlots (h : CommandPayloadHeader) :
    h.writeSlots.length = if h.dsmeGTSManagement.managementType = 1 then 1 + 2 + 1 else 0 := by
  unfold writeSlots
  split <;> rfl

/-- The management field of a GTS request, and the octets behind it. -/
theorem yields_dsmeGtsReq (g : CommandPayloadHeader) :
    Yields (g.readPayload (some .dsmeGtsReq)) fun h' _ => h'.dsmeGTSManagement.Fits := by
  have hmanagement : Yields DSMEGTSManagementField.deserialize fun f _ => f.Fits :=
    yields_octet.bind fun _ _ _ =>
      yields_pure ⟨toNat_and_lt (k := 3) _ rfl, toNat_and_lt (k := 2) _ rfl⟩
  refine hmanagement.bind fun f _ hf => ?_
  have hslots : Yields (readSlots { g with dsmeGTSManagement := f }) fun h' _ =>
      h'.dsmeGTSManagement = f := by
    unfold readSlots
    split
    · exact yields_octet.bind fun _ _ _ => (yields_word (k := 2) rfl).bind fun _ _ _ =>
        yields_octet.bind fun _ _ _ => yields_pure rfl
    · exact yields_pure rfl
  refine hslots.bind fun h₁ _ h₁f => ?_
  refine h₁.dsmeSABSpec.yields_deserialize.bind fun _ _ _ => yields_pure ?_
  rw [show DSMEGTSManagementField.Fits _ = h₁.dsmeGTSManagement.Fits from rfl, h₁f]
  exact hf

theorem dsmeGtsReq_back_iff (hid : g.cmdFrameId = h.cmdFrameId) :
    PayloadBack h g (some .dsmeGtsReq) ↔
      h.dsmeGTSManagement.Fits ∧ h.dsmeSABSpec.Carried g.dsmeSABSpec := by
  -- where the management field fits, this is what reading gives
  have hreads : ∀ sab, h.dsmeGTSManagement.Fits → h.dsmeSABSpec.serialize = some sab → ∃ g',
      Reads (g.readPayload (some .dsmeGtsReq))
        (h.dsmeGTSManagement.serialize ++ (h.writeSlots ++ sab)) g' ∧
      g'.cmdFrameId = h.cmdFrameId ∧ g'.dsmeGTSManagement = h.dsmeGTSManagement ∧
      g'.dsmeSABSpec = h.dsmeSABSpec.onto g.dsmeSABSpec ∧
      (h.dsmeGTSManagement.managementType = 1 → g'.numOfSlot = h.numOfSlot ∧
        g'.preferredSuperframeID = h.preferredSuperframeID ∧
        g'.preferredSlotID = h.preferredSlotID) := by
    intro sab hfits hsab
    have hback := (setField_getField_iff _).mpr hfits
    obtain ⟨g₁, hread₁, hid₁, hman₁, hsab₁, hslots₁⟩ :=
      exists_readSlots h { g with dsmeGTSManagement := h.dsmeGTSManagement } rfl
    have hreadm := reads_deserialize h.dsmeGTSManagement
    rw [hback] at hreadm
    have hreads := (reads_of_serialize hsab g₁.dsmeSABSpec).2
    refine ⟨{ g₁ with dsmeSABSpec := h.dsmeSABSpec.onto g₁.dsmeSABSpec },
      hreadm.bind (hread₁.bind (hreads.bind_pure rfl)), hid₁.trans hid, hman₁, ?_, hslots₁⟩
    show h.dsmeSABSpec.onto g₁.dsmeSABSpec = _
    rw [hsab₁]
  rw [carried_iff]
  constructor
  · intro hback
    obtain ⟨payload, h', hwrite, hsize, hfits, hsame⟩ := hback.yields g.yields_dsmeGtsReq
    rw [hsame.1] at hfits
    obtain ⟨sab, hsab, -⟩ := Option.map_eq_some_iff.mp hwrite
    obtain ⟨g', hread, -, -, hblocks, -⟩ := hreads sab hfits hsab
    have hsame' := hback.same (by
      show h.dsmeSABSpec.serialize.map _ = _
      rw [hsab]
      rfl) hread
    have hblocks' := hsame'.2.2
    rw [hblocks] at hblocks'
    exact ⟨hfits, ⟨sab, hsab⟩, hblocks'⟩
  · rintro ⟨hfits, ⟨sab, hsab⟩, hblocks⟩
    obtain ⟨g', hread, hid', hman, hsab', hslots⟩ := hreads sab hfits hsab
    refine payloadBack_of_reads (by
      show h.dsmeSABSpec.serialize.map _ = _
      rw [hsab]
      rfl) ?_ hread hid' ⟨hman, hslots, by rw [hsab']; exact hblocks⟩
    rw [length_append, length_append, length_writeSlots,
      length_of_serialize hsab]
    exact Nat.add_assoc 1 _ _

/-! ## Information replies -/

theorem yields_readInfo (g : CommandPayloadHeader) :
    Yields g.readInfo fun h' _ => h'.infoType = g.infoType := by
  unfold readInfo
  split
  · exact g.dsmeSABSpec.yields_deserialize.bind fun _ _ _ => yields_pure rfl
  · split
    · exact (yields_peek _).bind fun _ _ _ => yields_pure rfl
    · exact yields_pure rfl

theorem dsmeInfoReply_back_iff (hid : g.cmdFrameId = h.cmdFrameId) :
    PayloadBack h g (some .dsmeInfoReply) ↔
      h.infoType ≠ 2 ∧ (h.infoType = 1 → h.dsmeSABSpec.Carried g.dsmeSABSpec) := by
  rw [carried_iff]
  by_cases htwo : h.infoType = 2
  · -- the descriptor is written, but its octets are not taken
    refine ⟨fun hback => ?_, fun hall => absurd htwo hall.1⟩
    have hr : Yields (g.readPayload (some .dsmeInfoReply)) fun h' xs =>
        h'.infoType = 2 → xs.length = 12 := by
      refine yields_octet.bind fun t xs hxs => (yields_word (k := 8) rfl).bind fun _ ys hys =>
        (yields_word (k := 2) rfl).bind fun _ zs hzs => yields_octet.bind fun _ us hus => ?_
      by_cases ht : t = 2
      · unfold readInfo
        dsimp only
        rw [ht, if_neg (by decide), if_pos rfl]
        refine (yields_peek _).bind fun _ vs hvs => yields_pure fun _ => ?_
        rw [hxs, hys, hzs, hus, hvs]
        rfl
      · refine (yields_readInfo _).mono fun h' vs hvs htwo' => absurd (hvs.symm.trans htwo') ht
    obtain ⟨payload, h', hwrite, hsize, hlen, hsame⟩ := hback.yields hr
    have htwo' : h'.infoType = 2 := hsame.1.trans htwo
    have hreported : h.payloadSize (some .dsmeInfoReply) =
        1 + 8 + 2 + 1 + h.dsmePANDescriptorIE.getSerializedSize := by
      show 1 + 8 + 2 + 1 + (if h.infoType = 1 then _ else if h.infoType = 2 then _ else _) = _
      rw [htwo, if_neg (by decide), if_pos rfl]
    have hpos : 2 ≤ h.dsmePANDescriptorIE.getSerializedSize := by
      unfold DsmePANDescriptorIE.getSerializedSize
      omega
    rw [hreported, hlen htwo'] at hsize
    omega
  · by_cases hone : h.infoType = 1
    · -- the sub-blocks
      have hwrite : h.writePayload (some .dsmeInfoReply) = h.dsmeSABSpec.serialize.map fun sab =>
          [h.infoType] ++ (lowFirst h.timestamp 8 ++ (lowFirst h.superframeID 2 ++
            ([h.slotID] ++ sab))) := by
        show h.writeInfo.map _ = _
        rw [writeInfo, if_pos hone]
      have hread : ∀ sab, h.dsmeSABSpec.serialize = some sab →
          Reads (g.readPayload (some .dsmeInfoReply)) ([h.infoType] ++ (lowFirst h.timestamp 8 ++
            (lowFirst h.superframeID 2 ++ ([h.slotID] ++ sab))))
            { g with
              infoType := h.infoType
              timestamp := h.timestamp
              superframeID := h.superframeID
              slotID := h.slotID
              dsmeSABSpec := h.dsmeSABSpec.onto g.dsmeSABSpec } := by
        intro sab hsab
        refine (reads_octet _).bind ((reads_word (k := 8) _ rfl).bind
          ((reads_word (k := 2) _ rfl).bind ((reads_octet _).bind ?_)))
        unfold readInfo
        dsimp only
        rw [if_pos hone]
        exact (reads_of_serialize hsab g.dsmeSABSpec).2.bind_pure rfl
      constructor
      · intro hback
        obtain ⟨payload, hpayload, -⟩ := id hback
        rw [hwrite] at hpayload
        obtain ⟨sab, hsab, -⟩ := Option.map_eq_some_iff.mp hpayload
        have hsame := hback.same (by rw [hwrite, hsab]; rfl) (hread sab hsab)
        exact ⟨htwo, fun _ => ⟨⟨sab, hsab⟩, hsame.2.2.2.2.1 hone⟩⟩
      · rintro ⟨-, hall⟩
        obtain ⟨⟨sab, hsab⟩, hblocks⟩ := hall hone
        refine payloadBack_of_reads (by rw [hwrite, hsab]; rfl) ?_ (hread sab hsab) hid
          ⟨rfl, rfl, rfl, rfl, fun _ => hblocks, fun h => absurd h htwo⟩
        show 1 + 8 + 2 + 1 + (if h.infoType = 1 then _ else _) = _
        rw [if_pos hone,
          ← length_of_serialize hsab]
        simp only [length_append]
        show _ = 1 + (8 + (2 + (1 + _)))
        omega
    · -- nothing more
      have hread : Reads (g.readPayload (some .dsmeInfoReply)) ([h.infoType] ++
          (lowFirst h.timestamp 8 ++ (lowFirst h.superframeID 2 ++ ([h.slotID] ++ []))))
          { g with
            infoType := h.infoType
            timestamp := h.timestamp
            superframeID := h.superframeID
            slotID := h.slotID } := by
        refine (reads_octet _).bind ((reads_word (k := 8) _ rfl).bind
          ((reads_word (k := 2) _ rfl).bind ((reads_octet _).bind ?_)))
        unfold readInfo
        dsimp only
        rw [if_neg hone, if_neg htwo]
        exact reads_pure _
      refine iff_of_true (payloadBack_of_reads ?_ ?_ hread hid
        ⟨rfl, rfl, rfl, rfl, fun h => absurd h hone, fun h => absurd h htwo⟩)
        ⟨htwo, fun h => absurd h hone⟩
      · show h.writeInfo.map _ = _
        rw [writeInfo, if_neg hone, if_neg htwo]
        rfl
      · show 1 + 8 + 2 + 1 + (if h.infoType = 1 then _ else if h.infoType = 2 then _ else _) = _
        rw [if_neg hone, if_neg htwo]
        rfl

/-! ## All commands -/

/-- One case for each command. -/
theorem payloadBack_iff (hid : g.cmdFrameId = h.cmdFrameId) (c : Option MacCommand) :
    PayloadBack h g c ↔ h.CarriedPayload g c := by
  cases c with
  | none => exact iff_of_true (empty_back hid rfl rfl rfl trivial) trivial
  | some c =>
    cases c with
    | associationReq => exact iff_of_true (associationReq_back hid) trivial
    | associationResp => exact iff_of_true (associationResp_back hid) trivial
    | disassociationNotif => exact iff_of_true (disassociationNotif_back hid) trivial
    | dataReq => exact iff_of_true (empty_back hid rfl rfl rfl trivial) trivial
    | panIdConflict => exact iff_of_true (empty_back hid rfl rfl rfl trivial) trivial
    | orphanNotif => exact iff_of_true (empty_back hid rfl rfl rfl trivial) trivial
    | beaconReq => exact iff_of_true (empty_back hid rfl rfl rfl trivial) trivial
    | coorRealign => exact iff_of_true (coorRealign_back hid) trivial
    | gtsReq => exact iff_of_true (empty_back hid rfl rfl rfl trivial) trivial
    | dsmeAssociationReq => exact iff_of_true (dsmeAssociationReq_back hid) trivial
    | dsmeAssociationResp => exact dsmeAssociationResp_back_iff hid
    | dsmeGtsReq => exact dsmeGtsReq_back_iff hid
    | dsmeGtsReply => exact gts_back_iff hid rfl rfl rfl fun _ => Iff.rfl
    | dsmeGtsNotify => exact gts_back_iff hid rfl rfl rfl fun _ => Iff.rfl
    | dsmeInfoReq => exact iff_of_false not_dsmeInfoReq_back fun h => h
    | dsmeInfoReply => exact dsmeInfoReply_back_iff hid
    | dsmeBeaconAllocNotif => exact iff_of_true (dsmeBeaconAllocNotif_back hid) trivial
    | dsmeBeaconCollisionNotif => exact iff_of_true (dsmeBeaconCollisionNotif_back hid) trivial
    | dsmeLinkStatusReport => exact iff_of_true (empty_back hid rfl rfl rfl trivial) trivial
    | cmdReserved => exact iff_of_true (empty_back hid rfl rfl rfl trivial) trivial

/-- The number of the command comes first. -/
theorem roundTrips_iff_payload (h h₀ : CommandPayloadHeader) :
    RoundTrips h h₀ ↔ PayloadBack h { h₀ with cmdFrameId := h.cmdFrameId } h.command := by
  constructor
  · rintro ⟨octets, hser, hsize, hread⟩
    obtain ⟨payload, hpayload, rfl⟩ := Option.map_eq_some_iff.mp hser
    refine ⟨payload, hpayload, ?_, hread⟩
    unfold getSerializedSize at hsize
    rw [length_append] at hsize
    exact Nat.add_left_cancel hsize
  · rintro ⟨payload, hpayload, hsize, hread⟩
    refine ⟨[h.cmdFrameId] ++ payload, ?_, ?_, hread⟩
    · unfold serialize
      rw [hpayload]
      rfl
    · unfold getSerializedSize
      rw [hsize, length_append]
      rfl

/-- **When a command survives the wire**, read into some object. -/
theorem commandRoundTrips_iff (h h₀ : CommandPayloadHeader) :
    RoundTrips h h₀ ↔ h.CarriedPayload h₀ h.command := by
  rw [roundTrips_iff_payload, payloadBack_iff (h := h)
    (g := { h₀ with cmdFrameId := h.cmdFrameId }) rfl]
  have hsame : ∀ c, h.CarriedPayload { h₀ with cmdFrameId := h.cmdFrameId } c ↔
      h.CarriedPayload h₀ c := by
    intro c
    rcases c with _ | c
    · exact Iff.rfl
    · cases c <;> exact Iff.rfl
  exact hsame h.command

/-- A DSME information request for sub-block 1. -/
def infoRequest : CommandPayloadHeader where
  cmdFrameId := MacCommand.dsmeInfoReq.toOctet
  capabilityInfo := ⟨true, false, true, false, false, true⟩
  shortAddr := 0
  assocStatus := 0
  disassociationReason := 0
  panId := 0
  coordShortAddr := 0
  channelNum := 0
  channelPage := 0
  hoppingSeqId := 0
  channelOfs := 0
  hoppingSeqLen := 0
  hoppingSeq := ⟨[]⟩
  dsmeGTSManagement := ⟨0, false, false, 0⟩
  numOfSlot := 0
  preferredSuperframeID := 0
  preferredSlotID := 0
  dsmeSABSpec := ⟨false, 0, 0, [], []⟩
  destAddr := 0
  infoType := 1
  dsmeSABSubBlkLen := 2
  dsmeSABSubBlkIdx := 1
  timestamp := 0
  superframeID := 0
  slotID := 0
  dsmePANDescriptorIE := DsmePANDescriptorIE.offsetBeacon
  allocationBcnSDIndex := 0
  collisionSDIndex := 0
  allocationSequence := 0

/-- Not every command survives: of an information request an octet is left over. -/
theorem not_commandRoundTrips : ¬ ∀ h h₀ : CommandPayloadHeader, RoundTrips h h₀ := by
  intro hall
  have hback := (roundTrips_iff_payload _ _).mp (hall infoRequest infoRequest)
  have hcommand : infoRequest.command = some .dsmeInfoReq := by decide
  rw [hcommand] at hback
  exact not_dsmeInfoReq_back hback

end CommandPayloadHeader

end Ns3Dsme.Codec
