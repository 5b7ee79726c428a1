/-
# The fields of beacons on the wire

The fields of the DSME PAN descriptor: what their `Serialize` writes and their `Deserialize` reads.
A field that indexes a vector with a counter of a few bits writes nothing that ends when the vector
is too long for the counter; then there are no octets.
-/
import Ns3Dsme.Lib.BitFields
import Ns3Dsme.Lib.Wire
import Ns3Dsme.LrWpan.MacHeader

open List BitFields Reader

namespace Ns3Dsme.Codec

/-! ## Superframe specification -/

/-- `SuperframeField`; its setters refuse orders and slots above 15. -/
structure SuperframeField where
  bcnOrder : BitVec 4
  sprFrmOrder : BitVec 4
  fnlCapSlot : BitVec 4
  batLifeExt : Bool
  panCoor : Bool
  assocPermit : Bool
  deriving DecidableEq, Inhabited

namespace SuperframeField

/-- `GetSuperframe`. -/
def getSuperframe (f : SuperframeField) : BitVec 16 :=
  f.bcnOrder.setWidth 16 ||| f.sprFrmOrder.setWidth 16 <<< 4 ||| f.fnlCapSlot.setWidth 16 <<< 8 |||
    bit f.batLifeExt 12 ||| bit f.panCoor 14 ||| bit f.assocPermit 15

/-- `SetSuperframe`. -/
def setSuperframe (superFrmSpec : BitVec 16) : SuperframeField where
  bcnOrder := superFrmSpec.setWidth 4
  sprFrmOrder := (superFrmSpec >>> 4).setWidth 4
  fnlCapSlot := (superFrmSpec >>> 8).setWidth 4
  batLifeExt := superFrmSpec.getLsbD 12
  panCoor := superFrmSpec.getLsbD 14
  assocPermit := superFrmSpec.getLsbD 15

theorem setSuperframe_getSuperframe (f : SuperframeField) : setSuperframe f.getSuperframe = f := by
  unfold setSuperframe getSuperframe
  cases f
  congr 1
  all_goals first
    | (simp [getElem_bit]; done)
    | (exact eq_of_sameBits (by simp [getElem_bit]))

def serialize (f : SuperframeField) : List Octet := lowFirst f.getSuperframe 2

def deserialize : Reader SuperframeField := do
  let superframe ← word 16 2
  return setSuperframe superframe

theorem reads_deserialize (f : SuperframeField) : Reads deserialize f.serialize f :=
  (reads_word f.getSuperframe rfl).bind_pure (by rw [setSuperframe_getSuperframe])

theorem yields_deserialize : Yields deserialize fun _ xs => xs.length = 2 := by
  refine (yields_word (k := 2) rfl).bind fun w xs hxs => yields_pure ?_
  rw [hxs]
  rfl

end SuperframeField

/-! ## Pending addresses -/

/-- Overwrite the front of an array. -/
def overwrite {α : Type} (old new : List α) : List α := (new ++ old.drop new.length).take old.length

theorem length_overwrite {α : Type} (old new : List α) :
    (overwrite old new).length = old.length := by
  unfold overwrite
  rw [length_take, length_append, length_drop]
  omega

theorem take_overwrite {α : Type} (old new : List α) (h : new.length ≤ old.length) :
    (overwrite old new).take new.length = new := by
  unfold overwrite
  rw [take_take, min_eq_left h, take_left]

/-- `PendingAddrFields`; the lists are arrays of seven addresses. -/
structure PendingAddrFields where
  numShortAddr : Octet
  numExtAddr : Octet
  shortAddrList : List Mac16Address
  extAddrList : List Mac64Address
  length_shortAddrList : shortAddrList.length = 7
  length_extAddrList : extAddrList.length = 7
  deriving DecidableEq

instance : Inhabited PendingAddrFields :=
  ⟨0, 0, List.replicate 7 0, List.replicate 7 0, rfl, rfl⟩

namespace PendingAddrFields

theorem length_noShortAddr : (List.replicate 7 (0 : Mac16Address)).length = 7 :=
  length_replicate

theorem length_noExtAddr : (List.replicate 7 (0 : Mac64Address)).length = 7 :=
  length_replicate

/-- `GetPndAddrSpecField`. -/
def getPndAddrSpecField (f : PendingAddrFields) : Octet :=
  bits f.numShortAddr 7 0 ||| bits f.numExtAddr 7 4

def getSerializedSize (f : PendingAddrFields) : ℕ :=
  1 + f.numShortAddr.toNat * 2 + f.numExtAddr.toNat * 8

/-- Nothing is known of what is written from behind the arrays. -/
def serialize (f : PendingAddrFields) : Option (List Octet) :=
  if f.numShortAddr.toNat ≤ 7 ∧ f.numExtAddr.toNat ≤ 7 then
    some ([f.getPndAddrSpecField] ++
      ((f.shortAddrList.take f.numShortAddr.toNat).flatMap (fun a => lowFirst a 2) ++
        (f.extAddrList.take f.numExtAddr.toNat).flatMap (fun a => lowFirst a 8)))
  else none

def deserialize (f : PendingAddrFields) : Reader PendingAddrFields := do
  let spec ← octet
  let short ← many (word 16 2) (spec &&& 7).toNat
  let ext ← many (word 64 8) ((spec >>> 4) &&& 7).toNat
  return {
    numShortAddr := spec &&& 7
    numExtAddr := (spec >>> 4) &&& 7
    shortAddrList := overwrite f.shortAddrList short
    extAddrList := overwrite f.extAddrList ext
    length_shortAddrList := (length_overwrite _ _).trans f.length_shortAddrList
    length_extAddrList := (length_overwrite _ _).trans f.length_extAddrList }

/-- The same addresses are pending. -/
structure Same (f f' : PendingAddrFields) : Prop where
  numShortAddr : f'.numShortAddr = f.numShortAddr
  numExtAddr : f'.numExtAddr = f.numExtAddr
  shortAddrList : f'.shortAddrList.take f.numShortAddr.toNat =
    f.shortAddrList.take f.numShortAddr.toNat
  extAddrList : f'.extAddrList.take f.numExtAddr.toNat = f.extAddrList.take f.numExtAddr.toNat

theorem spec_masked (f : PendingAddrFields) :
    f.getPndAddrSpecField &&& 7 = f.numShortAddr &&& 7 ∧
      (f.getPndAddrSpecField >>> 4) &&& 7 = f.numExtAddr &&& 7 := by
  unfold getPndAddrSpecField
  constructor
  · exact eq_of_sameBits (by simp [getElem_bits])
  · exact eq_of_sameBits (by simp [getElem_bits])

theorem length_of_serialize {f : PendingAddrFields} {octets : List Octet}
    (h : f.serialize = some octets) : octets.length = f.getSerializedSize := by
  unfold serialize at h
  split at h
  · rename_i hle
    cases h
    unfold getSerializedSize
    rw [length_append, length_append, length_flatMap_lowFirst, length_flatMap_lowFirst,
      length_take, length_take, f.length_shortAddrList, f.length_extAddrList,
      min_eq_left hle.1, min_eq_left hle.2]
    exact (Nat.add_assoc 1 _ _).symm
  · cases h

theorem exists_reads {f : PendingAddrFields} (f₀ : PendingAddrFields) (hshort : f.numShortAddr.toNat ≤ 7)
    (hext : f.numExtAddr.toNat ≤ 7) :
    ∃ octets f', f.serialize = some octets ∧ Reads (deserialize f₀) octets f' ∧ Same f f' := by
  have hspec := f.spec_masked
  rw [and_eq_self (k := 3) rfl (Nat.lt_succ_of_le hshort),
    and_eq_self (k := 3) rfl (Nat.lt_succ_of_le hext)] at hspec
  obtain ⟨hspecShort, hspecExt⟩ := hspec
  have hlenShort : (f.shortAddrList.take f.numShortAddr.toNat).length = f.numShortAddr.toNat := by
    rw [length_take, f.length_shortAddrList, min_eq_left hshort]
  have hlenExt : (f.extAddrList.take f.numExtAddr.toNat).length = f.numExtAddr.toNat := by
    rw [length_take, f.length_extAddrList, min_eq_left hext]
  have hreadShort := reads_many (r := word 16 2) (fun a => reads_word (k := 2) a rfl)
    (f.shortAddrList.take f.numShortAddr.toNat)
  have hreadExt := reads_many (r := word 64 8) (fun a => reads_word (k := 8) a rfl)
    (f.extAddrList.take f.numExtAddr.toNat)
  rw [hlenShort] at hreadShort
  rw [hlenExt] at hreadExt
  refine ⟨_, { f with
    shortAddrList := overwrite f₀.shortAddrList (f.shortAddrList.take f.numShortAddr.toNat)
    extAddrList := overwrite f₀.extAddrList (f.extAddrList.take f.numExtAddr.toNat)
    length_shortAddrList := (length_overwrite _ _).trans f₀.length_shortAddrList
    length_extAddrList := (length_overwrite _ _).trans f₀.length_extAddrList },
    if_pos ⟨hshort, hext⟩, (reads_octet _).bind ?_, rfl, rfl, ?_, ?_⟩
  · simp only [hspecShort, hspecExt]
    exact hreadShort.bind (hreadExt.bind_pure rfl)
  · have hback := take_overwrite f₀.shortAddrList
      (f.shortAddrList.take f.numShortAddr.toNat) (by
        rw [hlenShort, f₀.length_shortAddrList]
        exact hshort)
    rw [hlenShort] at hback
    exact hback
  · have hback := take_overwrite f₀.extAddrList
      (f.extAddrList.take f.numExtAddr.toNat) (by
        rw [hlenExt, f₀.length_extAddrList]
        exact hext)
    rw [hlenExt] at hback
    exact hback

theorem yields_deserialize (f₀ : PendingAddrFields) : Yields f₀.deserialize fun f _ =>
    f.numShortAddr.toNat < 8 ∧ f.numExtAddr.toNat < 8 :=
  yields_octet.bind fun _ _ _ => (yields_many (yields_word (k := 2) rfl) _).bind fun _ _ _ =>
    (yields_many (yields_word (k := 8) rfl) _).bind fun _ _ _ =>
      yields_pure ⟨toNat_and_lt (k := 3) _ rfl, toNat_and_lt (k := 3) _ rfl⟩

theorem le_of_serialize {f : PendingAddrFields} {octets : List Octet}
    (h : f.serialize = some octets) : f.numShortAddr.toNat ≤ 7 ∧ f.numExtAddr.toNat ≤ 7 := by
  unfold serialize at h
  split at h
  · assumption
  · cases h

end PendingAddrFields

/-! ## DSME superframe specification -/

/-- `DsmeSuperFrameField`. -/
structure DsmeSuperFrameField where
  multiSuperframeOrder : Octet
  channelDiversityMode : Bool
  gackFlag : Bool
  capReductionFlag : Bool
  deferredBcnFlag : Bool
  deriving DecidableEq, Inhabited

namespace DsmeSuperFrameField

/-- `GetDsmeSuperframe`. -/
def getDsmeSuperframe (f : DsmeSuperFrameField) : Octet :=
  bits f.multiSuperframeOrder 0xf 0 ||| bit f.channelDiversityMode 4 ||| bit f.gackFlag 5 |||
    bit f.capReductionFlag 6 ||| bit f.deferredBcnFlag 7

/-- `SetDsmeSuperframe`. -/
def setDsmeSuperframe (dsmeSuperFrm : Octet) : DsmeSuperFrameField where
  multiSuperframeOrder := dsmeSuperFrm &&& 0xf
  channelDiversityMode := dsmeSuperFrm.getLsbD 4
  gackFlag := dsmeSuperFrm.getLsbD 5
  capReductionFlag := dsmeSuperFrm.getLsbD 6
  deferredBcnFlag := dsmeSuperFrm.getLsbD 7

theorem setDsmeSuperframe_getDsmeSuperframe (f : DsmeSuperFrameField) :
    setDsmeSuperframe f.getDsmeSuperframe =
      { f with multiSuperframeOrder := f.multiSuperframeOrder &&& 0xf } := by
  unfold setDsmeSuperframe getDsmeSuperframe
  congr 1
  all_goals first
    | (simp [getElem_bit, getElem_bits]; done)
    | (exact eq_of_sameBits (by simp [getElem_bit, getElem_bits]))

def serialize (f : DsmeSuperFrameField) : List Octet := [f.getDsmeSuperframe]

def deserialize : Reader DsmeSuperFrameField := do
  let superframe ← octet
  return setDsmeSuperframe superframe

theorem reads_deserialize {f : DsmeSuperFrameField} (h : f.multiSuperframeOrder.toNat < 16) :
    Reads deserialize f.serialize f := by
  refine (reads_octet f.getDsmeSuperframe).bind_pure ?_
  rw [setDsmeSuperframe_getDsmeSuperframe, and_eq_self (k := 4) rfl h]

theorem yields_deserialize : Yields deserialize fun f _ => f.multiSuperframeOrder.toNat < 16 :=
  yields_octet.bind fun _ _ _ => yields_pure (toNat_and_lt (k := 4) _ rfl)

end DsmeSuperFrameField

/-! ## Time synchronization -/

/-- `TimeSync`. -/
structure TimeSync where
  bcnTimestamp : BitVec 64
  bcnOffsetTimestamp : BitVec 16
  deriving DecidableEq, Inhabited

namespace TimeSync

/-- The offset is not written. -/
def serialize (f : TimeSync) : List Octet := lowFirst f.bcnTimestamp 8

def deserialize (f : TimeSync) : Reader TimeSync := do
  let bcnTimestamp ← word 64 8
  return { f with bcnTimestamp := bcnTimestamp }

theorem reads_deserialize (f f₀ : TimeSync) :
    Reads f₀.deserialize f.serialize { f₀ with bcnTimestamp := f.bcnTimestamp } :=
  (reads_word f.bcnTimestamp rfl).bind_pure rfl

theorem yields_deserialize (f₀ : TimeSync) :
    Yields f₀.deserialize fun f _ => f.bcnOffsetTimestamp = f₀.bcnOffsetTimestamp :=
  (yields_word (k := 8) rfl).bind fun _ _ _ => yields_pure rfl

end TimeSync

/-! ## Beacon bitmap -/

/-- The words of a bitmap of some bits: `ceil (len / 16.0)`. -/
def wordCount (len : ℕ) : ℕ := (len + 15) / 16

/-- `BeaconBitmap`. -/
structure BeaconBitmap where
  sdIndex : BitVec 16
  sdBitmapLen : BitVec 16
  sdBitmap : List (BitVec 16)
  deriving DecidableEq, Inhabited

namespace BeaconBitmap

def getSerializedSize (f : BeaconBitmap) : ℕ := 4 + f.sdBitmap.length * 2

/-- The loop counts words with 16 bits. -/
def serialize (f : BeaconBitmap) : Option (List Octet) :=
  if f.sdBitmap.length < 2 ^ 16 then
    some (lowFirst f.sdIndex 2 ++ (lowFirst f.sdBitmapLen 2 ++
      f.sdBitmap.flatMap fun w => lowFirst w 2))
  else none

def deserialize : Reader BeaconBitmap := do
  let sdIndex ← word 16 2
  let sdBitmapLen ← word 16 2
  let sdBitmap ← many (word 16 2) (wordCount sdBitmapLen.toNat)
  return ⟨sdIndex, sdBitmapLen, sdBitmap⟩

theorem length_of_serialize {f : BeaconBitmap} {octets : List Octet}
    (h : f.serialize = some octets) : octets.length = f.getSerializedSize := by
  unfold serialize at h
  split at h
  · cases h
    rw [length_append, length_append, length_lowFirst, length_lowFirst,
      length_flatMap_lowFirst]
    exact (Nat.add_assoc 2 2 _).symm
  · cases h

theorem exists_reads {f : BeaconBitmap} (h : f.sdBitmap.length = wordCount f.sdBitmapLen.toNat) :
    ∃ octets, f.serialize = some octets ∧ Reads deserialize octets f := by
  have hlen := f.sdBitmapLen.isLt
  have hread := reads_many (r := word 16 2) (fun a => reads_word (k := 2) a rfl) f.sdBitmap
  rw [h] at hread
  refine ⟨_, if_pos ?_, (reads_word (k := 2) _ rfl).bind ((reads_word (k := 2) _ rfl).bind
    (hread.bind_pure rfl))⟩
  unfold wordCount at h
  omega

theorem yields_deserialize :
    Yields deserialize fun f _ => f.sdBitmap.length = wordCount f.sdBitmapLen.toNat :=
  (yields_word (k := 2) rfl).bind fun _ _ _ => (yields_word (k := 2) rfl).bind fun _ _ _ =>
    (yields_many (yields_word (k := 2) rfl) _).bind fun _ _ h => yields_pure h.1

end BeaconBitmap

/-! ## Channel hopping specification -/

/-- `ChannelHopping`. -/
structure ChannelHopping where
  hoppingSequenceID : Octet
  panCoordBSN : Octet
  channelOfs : BitVec 16
  channelOfsBitmapLen : Octet
  channelOfsBitmap : List (BitVec 16)
  deriving DecidableEq, Inhabited

namespace ChannelHopping

def getSerializedSize (f : ChannelHopping) : ℕ := 5 + f.channelOfsBitmap.length * 2

/-- The loop counts words with 8 bits. -/
def serialize (f : ChannelHopping) : Option (List Octet) :=
  if f.channelOfsBitmap.length < 2 ^ 8 then
    some ([f.hoppingSequenceID] ++ ([f.panCoordBSN] ++ (lowFirst f.channelOfs 2 ++
      ([f.channelOfsBitmapLen] ++ f.channelOfsBitmap.flatMap fun w => lowFirst w 2))))
  else none

def deserialize : Reader ChannelHopping := do
  let hoppingSequenceID ← octet
  let panCoordBSN ← octet
  let channelOfs ← word 16 2
  let channelOfsBitmapLen ← octet
  let channelOfsBitmap ← many (word 16 2) (wordCount channelOfsBitmapLen.toNat)
  return ⟨hoppingSequenceID, panCoordBSN, channelOfs, channelOfsBitmapLen, channelOfsBitmap⟩

theorem length_of_serialize {f : ChannelHopping} {octets : List Octet}
    (h : f.serialize = some octets) : octets.length = f.getSerializedSize := by
  unfold serialize at h
  split at h
  · cases h
    rw [length_append, length_append, length_append, length_append,
      length_lowFirst, length_flatMap_lowFirst]
    unfold getSerializedSize
    show 1 + (1 + (2 + (1 + _))) = _
    omega
  · cases h

theorem exists_reads {f : ChannelHopping}
    (h : f.channelOfsBitmap.length = wordCount f.channelOfsBitmapLen.toNat) :
    ∃ octets, f.serialize = some octets ∧ Reads deserialize octets f := by
  have hlen := f.channelOfsBitmapLen.isLt
  have hread := reads_many (r := word 16 2) (fun a => reads_word (k := 2) a rfl) f.channelOfsBitmap
  rw [h] at hread
  refine ⟨_, if_pos ?_, (reads_octet _).bind ((reads_octet _).bind
    ((reads_word (k := 2) _ rfl).bind ((reads_octet _).bind (hread.bind_pure rfl))))⟩
  unfold wordCount at h
  omega

theorem yields_deserialize : Yields deserialize fun f _ =>
    f.channelOfsBitmap.length = wordCount f.channelOfsBitmapLen.toNat :=
  yields_octet.bind fun _ _ _ => yields_octet.bind fun _ _ _ =>
    (yields_word (k := 2) rfl).bind fun _ _ _ => yields_octet.bind fun _ _ _ =>
      (yields_many (yields_word (k := 2) rfl) _).bind fun _ _ h => yields_pure h.1

end ChannelHopping

/-! ## Group acknowledgment -/

/-- `GroupACK`. -/
structure GroupACK where
  gack1SuperfrmID : BitVec 16
  gack1SlotID : Octet
  gack1ChannelID : Octet
  gack2SuperfrmID : BitVec 16
  gack2SlotID : Octet
  gack2ChannelID : Octet
  deriving DecidableEq, Inhabited

namespace GroupACK

/-- `GetGroupAck`. -/
def getGroupAck (f : GroupACK) : BitVec 64 :=
  f.gack1SuperfrmID.setWidth 64 ||| bits f.gack1SlotID 0xf 16 ||| bits f.gack1ChannelID 0xff 20 |||
    f.gack2SuperfrmID.setWidth 64 <<< 28 ||| bits f.gack2SlotID 0xf 44 |||
    bits f.gack2ChannelID 0xff 48

/-- `SetGroupAck`. -/
def setGroupAck (groupAck : BitVec 64) : GroupACK where
  gack1SuperfrmID := groupAck.setWidth 16
  gack1SlotID := ((groupAck >>> 16) &&& 0xf).setWidth 8
  gack1ChannelID := (groupAck >>> 20).setWidth 8
  gack2SuperfrmID := (groupAck >>> 28).setWidth 16
  gack2SlotID := ((groupAck >>> 44) &&& 0xf).setWidth 8
  gack2ChannelID := (groupAck >>> 48).setWidth 8

theorem setGroupAck_getGroupAck (f : GroupACK) :
    setGroupAck f.getGroupAck =
      { f with
        gack1SlotID := f.gack1SlotID &&& 0xf
        gack2SlotID := f.gack2SlotID &&& 0xf } := by
  unfold setGroupAck getGroupAck
  congr 1
  all_goals
    exact eq_of_sameBits (by simp [getElem_bits])

def serialize (f : GroupACK) : List Octet := lowFirst f.getGroupAck 8

def deserialize : Reader GroupACK := do
  let groupAck ← word 64 8
  return setGroupAck groupAck

theorem reads_deserialize {f : GroupACK} (h₁ : f.gack1SlotID.toNat < 16)
    (h₂ : f.gack2SlotID.toNat < 16) : Reads deserialize f.serialize f := by
  refine (reads_word f.getGroupAck rfl).bind_pure ?_
  rw [setGroupAck_getGroupAck, and_eq_self (k := 4) rfl h₁, and_eq_self (k := 4) rfl h₂]

theorem yields_deserialize :
    Yields deserialize fun f _ => f.gack1SlotID.toNat < 16 ∧ f.gack2SlotID.toNat < 16 := by
  have hlt (w : BitVec 64) : ((w &&& 0xf).setWidth 8).toNat < 16 := by
    rw [BitVec.toNat_setWidth]
    exact lt_of_le_of_lt (Nat.mod_le _ _) (toNat_and_lt (k := 4) w rfl)
  exact (yields_word (k := 8) rfl).bind fun _ _ _ => yields_pure ⟨hlt _, hlt _⟩

end GroupACK

/-! ## Descriptor of an information element -/

/-- `HeaderIEDescriptor`; the element IDs have eight bits. -/
structure HeaderIEDescriptor where
  length : Octet
  elementId : Octet
  type : Bool
  deriving DecidableEq, Inhabited

namespace HeaderIEDescriptor

/-- `GetDescriptor`. -/
def getDescriptor (f : HeaderIEDescriptor) : BitVec 16 :=
  bits f.length 0x7f 0 ||| bits f.elementId 0xff 7 ||| bit f.type 15

/-- `SetDescriptor`. -/
def setDescriptor (descriptor : BitVec 16) : HeaderIEDescriptor where
  length := (descriptor &&& 0x7f).setWidth 8
  elementId := (descriptor >>> 7).setWidth 8
  type := descriptor.getLsbD 15

theorem setDescriptor_getDescriptor (f : HeaderIEDescriptor) :
    setDescriptor f.getDescriptor = { f with length := f.length &&& 0x7f } := by
  unfold setDescriptor getDescriptor
  congr 1
  all_goals first
    | (simp [getElem_bit, getElem_bits]; done)
    | (exact eq_of_sameBits (by simp [getElem_bit, getElem_bits]))

def serialize (f : HeaderIEDescriptor) : List Octet := lowFirst f.getDescriptor 2

def deserialize : Reader HeaderIEDescriptor := do
  let descriptor ← word 16 2
  return setDescriptor descriptor

theorem reads_deserialize {f : HeaderIEDescriptor} (h : f.length.toNat < 128) :
    Reads deserialize f.serialize f := by
  refine (reads_word f.getDescriptor rfl).bind_pure ?_
  rw [setDescriptor_getDescriptor, and_eq_self (k := 7) rfl h]

theorem yields_deserialize : Yields deserialize fun f _ => f.length.toNat < 128 := by
  refine (yields_word (k := 2) rfl).bind fun w _ _ => yields_pure ?_
  show ((w &&& 0x7f).setWidth 8).toNat < 128
  rw [BitVec.toNat_setWidth]
  exact lt_of_le_of_lt (Nat.mod_le _ _) (toNat_and_lt (k := 7) w rfl)

end HeaderIEDescriptor

end Ns3Dsme.Codec
