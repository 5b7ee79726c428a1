/-
# Group acknowledgment frames

The information elements `EnhancedGroupAckDescriptorIE` and `LegacyGroupAckIE`, the frames that
`SendEnhancedGroupAck` and `SendLegacyGroupAck` put together in front of each other, and what
`PdDataIndication` takes off them.
-/
import Ns3Dsme.LrWpan.MacHeaderCodec
import Ns3Dsme.LrWpan.InformationElements

open List BitFields Reader

namespace Ns3Dsme.Codec

/-! ## Putting a packet together -/

/-- `Packet::AddHeader`: there is room for as many octets as the header says, zero here, and the
header writes from the front on, over what comes behind if it writes more. -/
def addHeader (size : ℕ) (written buffer : List Octet) : List Octet :=
  overwrite (List.replicate size 0 ++ buffer) written

/-- `Packet::RemoveTrailer` of the two octets of the FCS. -/
def removeTrailer (frame : List Octet) : List Octet := frame.take (frame.length - 2)

/-- A header that writes more than it says overwrites the octets behind it. -/
theorem addHeader_of_le {size : ℕ} {written buffer : List Octet} (hsize : size ≤ written.length)
    (h : written.length ≤ size + buffer.length) :
    addHeader size written buffer = written ++ buffer.drop (written.length - size) := by
  unfold addHeader overwrite
  have hdrop : (List.replicate size (0 : Octet) ++ buffer).drop written.length =
      buffer.drop (written.length - size) := by
    rw [drop_append, length_replicate, drop_eq_nil_of_le, nil_append]
    rw [length_replicate]
    exact hsize
  rw [hdrop, take_of_length_le]
  rw [length_append, length_append, length_drop, length_replicate]
  omega

/-- A header that writes what it says is put in front. -/
theorem addHeader_self {size : ℕ} {written buffer : List Octet} (h : size = written.length) :
    addHeader size written buffer = written ++ buffer := by
  rw [addHeader_of_le (by omega) (by omega), h, Nat.sub_self, drop_zero]

theorem removeTrailer_append (octets : List Octet) (fcs : BitVec 16) :
    removeTrailer (octets ++ lowFirst fcs 2) = octets := by
  unfold removeTrailer
  rw [length_append, length_lowFirst, Nat.add_sub_cancel, take_left]

/-! ## Termination elements -/

/-- `HeaderIETermination`, with `HEADERIE_LIST_TERMINATION_1`. -/
def headerIETermination : HeaderIEDescriptor := ⟨0, 0x7e, false⟩

/-- `PayloadIETermination`. -/
def payloadIETermination : PayloadIEDescriptor := ⟨0, PayloadIEDescriptor.listTermination, true⟩

/-! ## Enhanced group acknowledgment -/

/-- `EnhancedGroupAckDescriptorIE`. -/
structure EnhancedGroupAckDescriptorIE where
  descriptor : HeaderIEDescriptor
  ieLength : BitVec 32
  groupAckBitmap : BitVec 64
  deriving DecidableEq

namespace EnhancedGroupAckDescriptorIE

/-- `SetHeaderIEDescriptor`, with `HEADERIE_ENHANCED_GACK`. -/
def setHeaderIEDescriptor (f : EnhancedGroupAckDescriptorIE) : EnhancedGroupAckDescriptorIE :=
  { f with descriptor := { f.descriptor with length := f.ieLength.setWidth 8, elementId := 0x21 } }

/-- `GetSerializedSize`: the length of the content, without the descriptor. -/
def getSerializedSize (f : EnhancedGroupAckDescriptorIE) : ℕ := f.ieLength.toNat

def serialize (f : EnhancedGroupAckDescriptorIE) : List Octet :=
  f.descriptor.serialize ++ lowFirst f.groupAckBitmap 8

def deserialize (f : EnhancedGroupAckDescriptorIE) : Reader EnhancedGroupAckDescriptorIE := do
  let descriptor ← HeaderIEDescriptor.deserialize
  let groupAckBitmap ← word 64 8
  return { f with descriptor, groupAckBitmap }

theorem length_serialize (f : EnhancedGroupAckDescriptorIE) : f.serialize.length = 10 := by
  unfold serialize HeaderIEDescriptor.serialize
  rw [length_append, length_lowFirst, length_lowFirst]

/-- The descriptor and the bitmap come back. -/
theorem reads_deserialize {f : EnhancedGroupAckDescriptorIE} (f₀ : EnhancedGroupAckDescriptorIE)
    (h : f.descriptor.length.toNat < 128) : Reads f₀.deserialize f.serialize
      { f₀ with descriptor := f.descriptor, groupAckBitmap := f.groupAckBitmap } :=
  (HeaderIEDescriptor.reads_deserialize h).bind
    ((reads_word (k := 8) f.groupAckBitmap rfl).bind_pure rfl)

end EnhancedGroupAckDescriptorIE

/-! ## Legacy group acknowledgment -/

/-- `AckControl`. -/
structure AckControl where
  payloadSize : Octet
  bitmapSize : Octet
  reserved : Octet
  deriving DecidableEq

namespace AckControl

/-- `GetAckCtrl`: all but the first field are shifted to their place and then masked at bit 0. -/
def getAckCtrl (f : AckControl) : Octet :=
  (f.payloadSize &&& 0x07) ||| ((f.bitmapSize <<< 3) &&& 0x03) ||| ((f.reserved <<< 5) &&& 0x03)

/-- `SetAckCtrl`. -/
def setAckCtrl (ackCtrl : Octet) : AckControl where
  payloadSize := ackCtrl &&& 0x07
  bitmapSize := (ackCtrl >>> 3) &&& 0x03
  reserved := (ackCtrl >>> 5) &&& 0x03

/-- Only the payload size comes back. -/
theorem setAckCtrl_getAckCtrl (f : AckControl) :
    setAckCtrl f.getAckCtrl = ⟨f.payloadSize &&& 0x07, 0, 0⟩ := by
  unfold setAckCtrl getAckCtrl
  congr 1
  all_goals
    exact eq_of_sameBits (by simp)

end AckControl

/-- `LegacyGroupAckIE`.  Its descriptor is neither set nor written. -/
structure LegacyGroupAckIE where
  ackCtrl : AckControl
  gackBitmap : BitVec 16
  gackDevList : Octet
  gackIdx : BitVec 16
  gtsDirections : Octet
  deriving DecidableEq

namespace LegacyGroupAckIE

def getSerializedSize : ℕ := 1 + 2 + 1 + 2 + 1

def serialize (f : LegacyGroupAckIE) : List Octet :=
  [f.ackCtrl.getAckCtrl] ++ (lowFirst f.gackBitmap 2 ++ ([f.gackDevList] ++
    (lowFirst f.gackIdx 2 ++ [f.gtsDirections])))

def deserialize : Reader LegacyGroupAckIE := do
  let ackCtrl ← octet
  let gackBitmap ← word 16 2
  let gackDevList ← octet
  let gackIdx ← word 16 2
  let gtsDirections ← octet
  return ⟨AckControl.setAckCtrl ackCtrl, gackBitmap, gackDevList, gackIdx, gtsDirections⟩

theorem length_serialize (f : LegacyGroupAckIE) : f.serialize.length = getSerializedSize := by
  unfold serialize
  rw [length_append, length_append, length_append, length_append,
    length_lowFirst, length_lowFirst]
  rfl

/-- The bitmap, the lists and the directions come back. -/
theorem reads_deserialize (f : LegacyGroupAckIE) : Reads deserialize f.serialize
    { f with ackCtrl := ⟨f.ackCtrl.payloadSize &&& 0x07, 0, 0⟩ } := by
  refine (reads_octet _).bind ((reads_word (k := 2) f.gackBitmap rfl).bind
    ((reads_octet _).bind ((reads_word (k := 2) f.gackIdx rfl).bind
      ((reads_octet _).bind_pure ?_))))
  rw [AckControl.setAckCtrl_getAckCtrl]

end LegacyGroupAckIE

/-! ## The frames -/

/-- What the two functions read of the device. -/
structure GroupAckSender where
  macPanId : BitVec 16
  shortAddress : Mac16Address
  macDsn : Octet
  indTxQueueNonempty : Bool
  enhancedGACKBitmap : BitVec 64
  legacyGackBitmap : BitVec 16
  legacyGackDevList : Octet
  legacyGackIdx : BitVec 16
  legacyGackDirections : Octet

namespace GroupAckSender

/-- The header of both frames, over what the members that are not set hold. -/
def macHdr (s : GroupAckSender) (unset : LrWpanMacHeader) : LrWpanMacHeader :=
  { unset with
    fctrl :=
      { frmType := 2
        secU := false
        frmPending := s.indTxQueueNonempty
        ackReq := false
        panIdComp := false
        reserved := 0
        seqNumSup := false
        ieListPresent := true
        dstAddrMode := shortAddr
        frmVer := 2
        srcAddrMode := shortAddr }
    seqNum := s.macDsn
    addrDstPanId := s.macPanId
    addrShortDstAddr := 0xffff
    addrSrcPanId := s.macPanId
    addrShortSrcAddr := s.shortAddress }

/-- The element of `SendEnhancedGroupAck`. -/
def enhancedIE (s : GroupAckSender) : EnhancedGroupAckDescriptorIE :=
  { EnhancedGroupAckDescriptorIE.setHeaderIEDescriptor ⟨⟨0, 0, false⟩, 8, 0⟩ with
    groupAckBitmap := s.enhancedGACKBitmap }

/-- The element of `SendLegacyGroupAck`. -/
def legacyIE (s : GroupAckSender) : LegacyGroupAckIE :=
  ⟨⟨0, 0, 0⟩, s.legacyGackBitmap, s.legacyGackDevList, s.legacyGackIdx, s.legacyGackDirections⟩

/-- Both functions, with the size and the octets of their element.  The FCS is an input. -/
def frame (s : GroupAckSender) (unset : LrWpanMacHeader) (fcs : BitVec 16) (size : ℕ)
    (element : List Octet) : Option (List Octet) :=
  if s.macPanId = 0xffff then none
  else some (addHeader (s.macHdr unset).getSerializedSize (s.macHdr unset).serialize
    (addHeader size element (addHeader 2 headerIETermination.serialize
      (addHeader 2 payloadIETermination.serialize []))) ++ lowFirst fcs 2)

def sendEnhancedGroupAck (s : GroupAckSender) (unset : LrWpanMacHeader) (fcs : BitVec 16) :
    Option (List Octet) :=
  s.frame unset fcs s.enhancedIE.getSerializedSize s.enhancedIE.serialize

def sendLegacyGroupAck (s : GroupAckSender) (unset : LrWpanMacHeader) (fcs : BitVec 16) :
    Option (List Octet) :=
  s.frame unset fcs LegacyGroupAckIE.getSerializedSize s.legacyIE.serialize

end GroupAckSender

/-! ## The receiver -/

/-- `PdDataIndication`, as far as it takes octets off a group acknowledgment: the trailer, the MAC
header, and the element that its policy reads. -/
def receiveGroupAck {α : Type} (inOrder : Bool) (h₀ : LrWpanMacHeader) (element : Reader α)
    (frame : List Octet) : Option (LrWpanMacHeader × α × List Octet) := do
  let (h, p) ← (LrWpanMacHeader.deserialize inOrder h₀).run (removeTrailer frame)
  if h.fctrl.frmType = 2 ∧ h.fctrl.ieListPresent = true then
    let (ie, rest) ← element.run p
    return (h, ie, rest)
  else none

namespace GroupAckSender

/-- The header of these frames comes back. -/
theorem roundTrips_macHdr (s : GroupAckSender) (unset h₀ : LrWpanMacHeader) (inOrder : Bool) :
    LrWpanMacHeader.RoundTrips inOrder (s.macHdr unset) h₀ := by
  apply LrWpanMacHeader.Carried.roundTrips
  exact
    { reserved := by
        show (0 : Octet).toNat < 2
        decide
      frmVer := by
        show (2 : Octet).toNat < 4
        decide
      dstAddrMode := Or.inr (Or.inl rfl)
      srcAddrMode := Or.inr (Or.inl rfl)
      srcPanId := fun hcomp => absurd hcomp Bool.false_ne_true
      secctrl := fun hsec => absurd hsec Bool.false_ne_true
      frmCntr := fun hsec => absurd hsec Bool.false_ne_true
      key := fun hsec => absurd hsec Bool.false_ne_true }

variable {unset : LrWpanMacHeader} {s : GroupAckSender} {fcs : BitVec 16}

/-- What stands behind the header of a frame, with an element that is as long as it says or writes
two octets more. -/
theorem frame_eq_some {size : ℕ} {element frame : List Octet} (hle : size ≤ element.length)
    (hlt : element.length ≤ size + 4) (h : s.frame unset fcs size element = some frame) :
    removeTrailer frame = (s.macHdr unset).serialize ++ (element ++
      (headerIETermination.serialize ++ payloadIETermination.serialize).drop
        (element.length - size)) := by
  unfold GroupAckSender.frame at h
  by_cases hpan : s.macPanId = 0xffff
  · rw [if_pos hpan] at h
    cases h
  · rw [if_neg hpan] at h
    cases h
    rw [removeTrailer_append,
      addHeader_self (s.roundTrips_macHdr unset (s.macHdr unset) true).1]
    congr 1
    have hpayload : 2 = payloadIETermination.serialize.length := (length_lowFirst _ 2).symm
    have hheader : 2 = headerIETermination.serialize.length := (length_lowFirst _ 2).symm
    have hterm : addHeader 2 headerIETermination.serialize
        (addHeader 2 payloadIETermination.serialize []) =
        headerIETermination.serialize ++ payloadIETermination.serialize := by
      rw [addHeader_self hpayload, addHeader_self hheader, append_nil]
    rw [hterm]
    exact addHeader_of_le hle hlt

/-- The receiver takes off the header and the element, and nothing else. -/
theorem receive_frame {α : Type} {size : ℕ} {octets frame : List Octet} {element : Reader α}
    {ie : α} (inOrder : Bool) (h₀ : LrWpanMacHeader) (hread : Reads element octets ie)
    (hle : size ≤ octets.length) (hlt : octets.length ≤ size + 4)
    (h : s.frame unset fcs size octets = some frame) :
    ∃ h', receiveGroupAck inOrder h₀ element frame = some (h', ie,
      (headerIETermination.serialize ++ payloadIETermination.serialize).drop
        (octets.length - size)) ∧ LrWpanMacHeader.Same (s.macHdr unset) h' := by
  obtain ⟨-, hhdr⟩ := s.roundTrips_macHdr unset h₀ inOrder
  obtain ⟨h', hrun, hsame⟩ := hhdr (octets ++
    (headerIETermination.serialize ++ payloadIETermination.serialize).drop (octets.length - size))
  refine ⟨h', ?_, hsame⟩
  unfold receiveGroupAck
  rw [frame_eq_some hle hlt h, hrun]
  show (if h'.fctrl.frmType = 2 ∧ h'.fctrl.ieListPresent = true then _ else none) = _
  rw [hsame.fctrl, if_pos ⟨rfl, rfl⟩, hread]
  rfl

/-- The enhanced frame: the bitmap and the descriptor come back, and the payload termination is left
over; the header termination was overwritten. -/
theorem receive_enhanced {frame : List Octet} (inOrder : Bool) (h₀ : LrWpanMacHeader)
    (f₀ : EnhancedGroupAckDescriptorIE) (h : s.sendEnhancedGroupAck unset fcs = some frame) :
    ∃ h', receiveGroupAck inOrder h₀ f₀.deserialize frame = some (h',
      { f₀ with descriptor := ⟨8, 0x21, false⟩, groupAckBitmap := s.enhancedGACKBitmap },
      payloadIETermination.serialize) ∧ LrWpanMacHeader.Same (s.macHdr unset) h' := by
  have hread := EnhancedGroupAckDescriptorIE.reads_deserialize (f := s.enhancedIE) f₀ (by
    show (8 : Octet).toNat < 128
    decide)
  have hlen := s.enhancedIE.length_serialize
  have hsize : s.enhancedIE.getSerializedSize = 8 := rfl
  obtain ⟨h', hrun, hsame⟩ := receive_frame inOrder h₀ hread (by omega)
    (by omega) h
  refine ⟨h', ?_, hsame⟩
  rw [hlen, hsize] at hrun
  exact hrun

/-- The legacy frame: all fields come back, and both terminations are left over. -/
theorem receive_legacy {frame : List Octet} (inOrder : Bool) (h₀ : LrWpanMacHeader)
    (h : s.sendLegacyGroupAck unset fcs = some frame) :
    ∃ h', receiveGroupAck inOrder h₀ LegacyGroupAckIE.deserialize frame = some (h', s.legacyIE,
      headerIETermination.serialize ++ payloadIETermination.serialize) ∧
        LrWpanMacHeader.Same (s.macHdr unset) h' := by
  have hlen := s.legacyIE.length_serialize
  obtain ⟨h', hrun, hsame⟩ := receive_frame inOrder h₀
    s.legacyIE.reads_deserialize (by omega) (by omega) h
  refine ⟨h', ?_, hsame⟩
  have hzero : s.legacyIE.ackCtrl.payloadSize &&& 0x07 = 0 := by
    show (0 : Octet) &&& 0x07 = 0
    decide
  rw [hlen, Nat.sub_self, drop_zero, hzero] at hrun
  exact hrun

/-- The receiver gets the bitmap and the descriptor of an enhanced frame with nothing left over, and
the element has the size it says. -/
structure EnhancedArrives (s : GroupAckSender) (inOrder : Bool) (h₀ : LrWpanMacHeader)
    (f₀ : EnhancedGroupAckDescriptorIE) (frame : List Octet) : Prop where
  received : ∃ h' f', receiveGroupAck inOrder h₀ f₀.deserialize frame = some (h', f', []) ∧
    f'.descriptor = s.enhancedIE.descriptor ∧ f'.groupAckBitmap = s.enhancedGACKBitmap
  size : s.enhancedIE.getSerializedSize = s.enhancedIE.serialize.length

/-- The receiver gets the fields of a legacy frame with nothing left over, and the element has the
size it says. -/
structure LegacyArrives (s : GroupAckSender) (inOrder : Bool) (h₀ : LrWpanMacHeader)
    (frame : List Octet) : Prop where
  received : ∃ h', receiveGroupAck inOrder h₀ LegacyGroupAckIE.deserialize frame =
    some (h', s.legacyIE, [])
  size : LegacyGroupAckIE.getSerializedSize = s.legacyIE.serialize.length

/-- The element of an enhanced frame writes two octets more than it says. -/
theorem getSerializedSize_enhancedIE_add (s : GroupAckSender) :
    s.enhancedIE.getSerializedSize + 2 = s.enhancedIE.serialize.length :=
  s.enhancedIE.length_serialize.symm

/-- **No group acknowledgment arrives as it should**: of the enhanced frame the payload termination
is left over, of the legacy frame both terminations. -/
theorem not_groupAck_arrives {s : GroupAckSender} {unset : LrWpanMacHeader} {fcs : BitVec 16}
    {enhanced legacy : List Octet} (inOrder : Bool) (h₀ : LrWpanMacHeader)
    (f₀ : EnhancedGroupAckDescriptorIE)
    (henhanced : s.sendEnhancedGroupAck unset fcs = some enhanced)
    (hlegacy : s.sendLegacyGroupAck unset fcs = some legacy) :
    ¬ EnhancedArrives s inOrder h₀ f₀ enhanced ∧ ¬ LegacyArrives s inOrder h₀ legacy := by
  constructor
  · intro harrives
    obtain ⟨h', f', hrun, -, -⟩ := harrives.received
    obtain ⟨h'', hrun', -⟩ := receive_enhanced inOrder h₀ f₀ henhanced
    rw [hrun] at hrun'
    cases hrun'
  · intro harrives
    obtain ⟨h', hrun⟩ := harrives.received
    obtain ⟨h'', hrun', -⟩ := receive_legacy inOrder h₀ hlegacy
    rw [hrun] at hrun'
    cases hrun'

/-- A coordinator that has heard from one device. -/
def oneHeard : GroupAckSender where
  macPanId := 5
  shortAddress := 0x0001
  macDsn := 7
  indTxQueueNonempty := false
  enhancedGACKBitmap := 4
  legacyGackBitmap := 4
  legacyGackDevList := 8
  legacyGackIdx := 2
  legacyGackDirections := 0

/-- A header with nothing set. -/
def unsetHdr : LrWpanMacHeader where
  fctrl := ⟨1, false, false, false, false, 0, false, false, noAddr, 2, noAddr⟩
  seqNum := 0
  addrDstPanId := 0
  addrSimpleDstAddr := 0
  addrShortDstAddr := 0
  addrExtDstAddr := 0
  addrSrcPanId := 0
  addrSimpleSrcAddr := 0
  addrShortSrcAddr := 0
  addrExtSrcAddr := 0
  auxFrmCntr := 0
  secctrl := ⟨0, 0, false, false, 0⟩
  auxKeyIdKeySrc64 := 0
  auxKeyIdKeyIndex := 0

/-- What is sent for one device does not arrive as it should. -/
theorem not_groupAck_arrives_oneHeard :
    ∃ enhanced legacy, oneHeard.sendEnhancedGroupAck unsetHdr 0 = some enhanced ∧
      oneHeard.sendLegacyGroupAck unsetHdr 0 = some legacy ∧
        ¬ EnhancedArrives oneHeard true unsetHdr ⟨⟨0, 0, false⟩, 0, 0⟩ enhanced ∧
          ¬ LegacyArrives oneHeard true unsetHdr legacy :=
  ⟨_, _, rfl, rfl, not_groupAck_arrives true unsetHdr _ rfl rfl⟩

/-- Not every group acknowledgment arrives as it should. -/
theorem not_forall_groupAck_arrives : ¬ ∀ (s : GroupAckSender) (unset : LrWpanMacHeader)
    (fcs : BitVec 16) (enhanced legacy : List Octet) (inOrder : Bool) (h₀ : LrWpanMacHeader)
    (f₀ : EnhancedGroupAckDescriptorIE), s.sendEnhancedGroupAck unset fcs = some enhanced →
      s.sendLegacyGroupAck unset fcs = some legacy →
        EnhancedArrives s inOrder h₀ f₀ enhanced ∧ LegacyArrives s inOrder h₀ legacy := by
  intro hall
  obtain ⟨harrives, -⟩ := hall oneHeard unsetHdr 0 _ _ true unsetHdr ⟨⟨0, 0, false⟩, 0, 0⟩ rfl rfl
  have hmore := oneHeard.getSerializedSize_enhancedIE_add
  have hsize := harrives.size
  omega

end GroupAckSender

end Ns3Dsme.Codec
