/-
# Fields of beacons

The superframe specification, the DSME superframe specification, the beacon bitmap
and the other fields of the DSME PAN descriptor, as `lr-wpan-fields.cc` and
`lr-wpan-mac-pl-headers.cc` decode them.  A field that occupies four bits on the air
is a `Fin 16`: its decoder masks with `0x0F`, so no other value can arise.
-/
import Ns3Dsme.LrWpan.Basic
import Mathlib.Data.List.Basic
import Mathlib.Data.Fin.Basic

namespace Ns3Dsme

/-! Fields of two and of four bits have literals. -/

instance neZero_four : NeZero 4 := ⟨by decide⟩

instance neZero_sixteen : NeZero 16 := ⟨by decide⟩

/-- `Mac16Address`: the first octet is the more significant one. -/
abbrev Mac16Address := BitVec 16

/-- `Mac16Address::IsBroadcast`. -/
def isBroadcast (addr : Mac16Address) : Bool := addr == 0xffff

/-- `Mac16Address::IsMulticast`: the three top bits are `100`. -/
def isMulticast (addr : Mac16Address) : Bool := addr >>> 13 == 4

/-- The short address `00:01`, which the source takes to be the PAN coordinator's. -/
def panCoordAddr : Mac16Address := 1

/-! ## Superframe specifications -/

/-- `SuperframeField`. -/
structure SuperframeField where
  bcnOrder : Fin 16 := 15
  sprFrmOrder : Fin 16 := 15
  fnlCapSlot : Fin 16 := 0
  batLifeExt : Bool := false
  panCoor : Bool := false
  assocPermit : Bool := false
  deriving DecidableEq, Repr

/-- `SuperframeField`'s setters, which abort on a value above 15. -/
def SuperframeField.set (bcnOrder frmOrder capSlot : ℕ) (battLifeExt panCoor assocPermit : Bool) :
    Exec SuperframeField :=
  if hb : bcnOrder < 16 then
    if hf : frmOrder < 16 then
      if hc : capSlot < 16 then
        .ok ⟨⟨bcnOrder, hb⟩, ⟨frmOrder, hf⟩, ⟨capSlot, hc⟩, battLifeExt, panCoor, assocPermit⟩
      else .error .fatalError
    else .error .fatalError
  else .error .fatalError

/-- `DsmeSuperFrameField`. -/
structure DsmeSuperFrameField where
  multiSuperframeOrder : Fin 16 := 15
  channelDiversityMode : Bool := false
  gackFlag : Bool := false
  capReductionFlag : Bool := false
  deferredBcnFlag : Bool := false
  deriving DecidableEq, Repr

/-! ## The beacon bitmap -/

/-- `BeaconBitmap`: the superframe index of the sender and one bit for every
superframe of the beacon interval, in words of 16. -/
structure BeaconBitmap where
  sdIndex : ℕ := 0
  sdBitmapLen : ℕ := 0
  sdBitmap : List (BitVec 16) := []
  deriving DecidableEq, Repr

namespace BeaconBitmap

/-- Bit `position` of the bitmap; bits past its end count as clear. -/
def hasBit (b : BeaconBitmap) (position : ℕ) : Bool :=
  match b.sdBitmap[position / 16]? with
  | some w => w.getLsbD (position % 16)
  | none => false

/-- The number of words of a bitmap of the given length: `ceil(len / 16.0)`. -/
def wordCount (len : ℕ) : ℕ := (len + 15) / 16

/-- `operator|`, which asserts that both bitmaps have one length.  The result has that length
and superframe index 0; its words are indexed by the size of the first vector, and no index is
checked. -/
def or (a b : BeaconBitmap) : Exec BeaconBitmap :=
  if a.sdBitmapLen = b.sdBitmapLen then
    if a.sdBitmap.length ≤ b.sdBitmap.length ∧ a.sdBitmap.length ≤ wordCount a.sdBitmapLen then
      .ok
        { sdIndex := 0
          sdBitmapLen := a.sdBitmapLen
          sdBitmap := List.zipWith (· ||| ·) a.sdBitmap b.sdBitmap
            ++ List.replicate (wordCount a.sdBitmapLen - a.sdBitmap.length) 0 }
    else .error .outOfRange
  else .error .assertFailed

/-- `SetSDBitmap(uint16_t position)`: the word is indexed without a check. -/
def setSDBitmapBit (b : BeaconBitmap) (position : ℕ) : Exec BeaconBitmap :=
  match b.sdBitmap[position / 16]? with
  | some w =>
    let w' := w ||| BitVec.twoPow 16 (position % 16)
    .ok { b with sdBitmap := b.sdBitmap.set (position / 16) w' }
  | none => .error .outOfRange

/-- The words after a beacon with bitmap `incoming` was heard: the union when the two
vectors have one size, the incoming one when the own vector is empty, else the own one. -/
def mergeWords (own incoming : List (BitVec 16)) : List (BitVec 16) :=
  if own.length = 0 then incoming
  else if own.length = incoming.length then List.zipWith (· ||| ·) own incoming
  else own

/-- The three assignments to `m_macSDBitmap` in `PdDataIndication`. -/
def merge (own incoming : BeaconBitmap) : BeaconBitmap where
  sdIndex := incoming.sdIndex
  sdBitmapLen := incoming.sdBitmapLen
  sdBitmap := mergeWords own.sdBitmap incoming.sdBitmap

/-- Setting a bit of the bitmap sets that bit. -/
theorem hasBit_setSDBitmapBit (b b' : BeaconBitmap) (position : ℕ)
    (h : b.setSDBitmapBit position = .ok b') : b'.hasBit position = true := by
  unfold setSDBitmapBit at h
  split at h
  · rename_i w hw
    cases h
    have hlt : position / 16 < b.sdBitmap.length := (List.getElem?_eq_some_iff.mp hw).1
    have hmod : position % 16 < 16 := Nat.mod_lt _ (by omega)
    simp [hasBit, hlt, hmod]
  · cases h

/-- A bit that is set survives every merge. -/
theorem hasBit_merge (own incoming : BeaconBitmap) (position : ℕ) (h : own.hasBit position = true) :
    (own.merge incoming).hasBit position = true := by
  unfold hasBit at h
  split at h
  · rename_i w hw
    have hlt : position / 16 < own.sdBitmap.length := (List.getElem?_eq_some_iff.mp hw).1
    by_cases hsize : own.sdBitmap.length = incoming.sdBitmap.length
    · obtain ⟨v, hv⟩ : ∃ v, incoming.sdBitmap[position / 16]? = some v := by
        rw [List.getElem?_eq_getElem (by omega)]
        exact ⟨_, rfl⟩
      have hne : own.sdBitmap.length ≠ 0 := by omega
      simp only [hasBit, merge, mergeWords, if_neg hne, if_pos hsize, List.getElem?_zipWith,
        hw, hv]
      simp [h]
    · have hne : own.sdBitmap.length ≠ 0 := by omega
      simp only [hasBit, merge, mergeWords, if_neg hne, if_neg hsize, hw, h]
  · cases h

end BeaconBitmap

/-! ## The remaining fields of the DSME PAN descriptor -/

/-- `ChannelHopping`. -/
structure ChannelHopping where
  hoppingSequenceID : ℕ := 0
  panCoordinatorBSN : BitVec 8 := 0
  channelOffset : ℕ := 0
  channelOffsetBitmapLength : ℕ := 16
  channelOffsetBitmap : List (BitVec 16) := [0]
  deriving DecidableEq, Repr

/-- `GroupACK`: the slots reserved for the legacy group acknowledgment. -/
structure GroupACK where
  gack1SuperframeID : ℕ := 0
  gack1SlotID : ℕ := 0
  gack1ChannelID : ℕ := 0
  gack2SuperframeID : ℕ := 0
  gack2SlotID : ℕ := 0
  gack2ChannelID : ℕ := 0
  deriving DecidableEq, Repr

/-- `DsmePANDescriptorIE`. -/
structure DsmePANDescriptorIE where
  superframeField : SuperframeField := {}
  dsmeSuperframeField : DsmeSuperFrameField := {}
  /-- `TimeSync::m_sspecBcnTimestamp`, in nanoseconds. -/
  beaconTimeStamp : BitVec 64 := 0
  beaconBitmap : BeaconBitmap := {}
  channelHopping : ChannelHopping := {}
  groupACK : GroupACK := {}
  deriving DecidableEq, Repr

/-- `DsmePANDescriptorIE::GetSerializedSize`; the pending address list is empty. -/
def DsmePANDescriptorIE.serializedSize (ie : DsmePANDescriptorIE) : ℕ :=
  2 + 2 + 1 + 1 + 8 + (4 + 2 * ie.beaconBitmap.sdBitmap.length)
    + (5 + 2 * ie.channelHopping.channelOffsetBitmap.length) + 8

/-- `PanDescriptor`, as far as the modelled handlers read it. -/
structure PanDescriptor where
  superframeSpec : SuperframeField := {}
  dsmeSuperframeSpec : DsmeSuperFrameField := {}
  bcnBitmap : BeaconBitmap := {}
  deriving DecidableEq, Repr

end Ns3Dsme
