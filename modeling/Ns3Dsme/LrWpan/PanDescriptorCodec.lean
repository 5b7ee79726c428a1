/-
# The DSME PAN descriptor on the wire

`DsmePANDescriptorIE`, as `SendOneEnhancedBeacon` sends it and as a beacon's receiver reads it into
an object that may have been used before.
-/
import Ns3Dsme.LrWpan.FieldCodecs

open BitFields Reader

namespace Ns3Dsme.Codec

/-- `HEADERIE_DSME_PAN_DESCRIPTOR`. -/
def headerIeDsmePanDescriptor : Octet := 0x1c

/-- `DsmePANDescriptorIE`. -/
structure DsmePANDescriptorIE where
  descriptor : HeaderIEDescriptor
  superframeField : SuperframeField
  pndAddrFields : PendingAddrFields
  dsmeSuperframeField : DsmeSuperFrameField
  timeSynField : TimeSync
  beaconBitmapField : BeaconBitmap
  channelHoppingField : ChannelHopping
  gack : GroupACK
  deriving DecidableEq, Inhabited

namespace DsmePANDescriptorIE

def getSerializedSize (ie : DsmePANDescriptorIE) : ℕ :=
  2 + 2 + ie.pndAddrFields.getSerializedSize + 1 + 8 + ie.beaconBitmapField.getSerializedSize
    + ie.channelHoppingField.getSerializedSize + 8

/-- The octets behind the descriptor. -/
def content (ie : DsmePANDescriptorIE) : Option (List Octet) := do
  let pndAddr ← ie.pndAddrFields.serialize
  let beaconBitmap ← ie.beaconBitmapField.serialize
  let channelHopping ← ie.channelHoppingField.serialize
  return ie.superframeField.serialize ++ (pndAddr ++ (ie.dsmeSuperframeField.serialize ++
    (ie.timeSynField.serialize ++ (beaconBitmap ++ (channelHopping ++ ie.gack.serialize)))))

def serialize (ie : DsmePANDescriptorIE) : Option (List Octet) :=
  ie.content.map fun octets => ie.descriptor.serialize ++ octets

def deserialize (ie : DsmePANDescriptorIE) : Reader DsmePANDescriptorIE := do
  let descriptor ← HeaderIEDescriptor.deserialize
  let superframeField ← SuperframeField.deserialize
  let pndAddrFields ← ie.pndAddrFields.deserialize
  let dsmeSuperframeField ← DsmeSuperFrameField.deserialize
  let timeSynField ← ie.timeSynField.deserialize
  let beaconBitmapField ← BeaconBitmap.deserialize
  let channelHoppingField ← ChannelHopping.deserialize
  let gack ← GroupACK.deserialize
  return {
    descriptor := descriptor
    superframeField := superframeField
    pndAddrFields := pndAddrFields
    dsmeSuperframeField := dsmeSuperframeField
    timeSynField := timeSynField
    beaconBitmapField := beaconBitmapField
    channelHoppingField := channelHoppingField
    gack := gack }

/-- `SetHeaderIEDescriptor`, as `SendOneEnhancedBeacon` calls it: the length is an octet. -/
def announced (ie : DsmePANDescriptorIE) : DsmePANDescriptorIE :=
  { ie with
    descriptor := { ie.descriptor with
      length := BitVec.ofNat 8 (ie.getSerializedSize - 2)
      elementId := headerIeDsmePanDescriptor } }

/-- All fields are the same; of the arrays of pending addresses, the part that is used. -/
structure Same (ie ie' : DsmePANDescriptorIE) : Prop where
  descriptor : ie'.descriptor = ie.descriptor
  superframeField : ie'.superframeField = ie.superframeField
  pndAddrFields : PendingAddrFields.Same ie.pndAddrFields ie'.pndAddrFields
  dsmeSuperframeField : ie'.dsmeSuperframeField = ie.dsmeSuperframeField
  timeSynField : ie'.timeSynField = ie.timeSynField
  beaconBitmapField : ie'.beaconBitmapField = ie.beaconBitmapField
  channelHoppingField : ie'.channelHoppingField = ie.channelHoppingField
  gack : ie'.gack = ie.gack

/-- Reading what was written, into some object, gives the same fields, and the length is that of the
octets behind the descriptor, written and read. -/
def RoundTrips (ie ie₀ : DsmePANDescriptorIE) : Prop :=
  ∃ octets, ie.serialize = some octets ∧ ∀ rest, ∃ ie',
    ie₀.deserialize.run (octets ++ rest) = some (ie', rest) ∧ Same ie ie' ∧
      ie'.descriptor.length.toNat + 2 = octets.length

/-- The information elements for which this is so. -/
structure Carried (ie ie₀ : DsmePANDescriptorIE) : Prop where
  numShortAddr : ie.pndAddrFields.numShortAddr.toNat ≤ 7
  numExtAddr : ie.pndAddrFields.numExtAddr.toNat ≤ 7
  multiSuperframeOrder : ie.dsmeSuperframeField.multiSuperframeOrder.toNat < 16
  bcnOffsetTimestamp : ie₀.timeSynField.bcnOffsetTimestamp = ie.timeSynField.bcnOffsetTimestamp
  sdBitmap : ie.beaconBitmapField.sdBitmap.length =
    wordCount ie.beaconBitmapField.sdBitmapLen.toNat
  channelOfsBitmap : ie.channelHoppingField.channelOfsBitmap.length =
    wordCount ie.channelHoppingField.channelOfsBitmapLen.toNat
  gack1SlotID : ie.gack.gack1SlotID.toNat < 16
  gack2SlotID : ie.gack.gack2SlotID.toNat < 16

/-! ## What is written and what is read -/

theorem length_of_content {ie : DsmePANDescriptorIE} {octets : List Octet}
    (h : ie.content = some octets) : octets.length + 2 = ie.getSerializedSize := by
  unfold content at h
  obtain ⟨pnd, hpnd, h⟩ := Option.bind_eq_some_iff.mp h
  obtain ⟨bm, hbm, h⟩ := Option.bind_eq_some_iff.mp h
  obtain ⟨hop, hhop, h⟩ := Option.bind_eq_some_iff.mp h
  cases h
  unfold getSerializedSize
  rw [← PendingAddrFields.length_of_serialize hpnd, ← BeaconBitmap.length_of_serialize hbm,
    ← ChannelHopping.length_of_serialize hhop]
  simp only [List.length_append]
  show 2 + (_ + (1 + (8 + (_ + (_ + 8))))) + 2 = _
  omega

/-- **The reported size** is that of what is written. -/
theorem length_of_serialize {ie : DsmePANDescriptorIE} {octets : List Octet}
    (h : ie.serialize = some octets) : octets.length = ie.getSerializedSize := by
  obtain ⟨content, hcontent, rfl⟩ := Option.map_eq_some_iff.mp h
  rw [← length_of_content hcontent, List.length_append, Nat.add_comm]
  rfl

/-- What every reading leaves. -/
structure IsRead (ie₀ ie : DsmePANDescriptorIE) : Prop where
  length : ie.descriptor.length.toNat < 128
  multiSuperframeOrder : ie.dsmeSuperframeField.multiSuperframeOrder.toNat < 16
  bcnOffsetTimestamp : ie.timeSynField.bcnOffsetTimestamp = ie₀.timeSynField.bcnOffsetTimestamp
  sdBitmap : ie.beaconBitmapField.sdBitmap.length =
    wordCount ie.beaconBitmapField.sdBitmapLen.toNat
  channelOfsBitmap : ie.channelHoppingField.channelOfsBitmap.length =
    wordCount ie.channelHoppingField.channelOfsBitmapLen.toNat
  gack : ie.gack.gack1SlotID.toNat < 16 ∧ ie.gack.gack2SlotID.toNat < 16

theorem yields_deserialize (ie₀ : DsmePANDescriptorIE) :
    Yields ie₀.deserialize fun ie _ => IsRead ie₀ ie := by
  unfold deserialize
  refine HeaderIEDescriptor.yields_deserialize.bind fun d _ hd =>
    SuperframeField.yields_deserialize.bind fun s _ _ =>
      ie₀.pndAddrFields.yields_deserialize.bind fun p _ _ =>
        DsmeSuperFrameField.yields_deserialize.bind fun ds _ hds =>
          ie₀.timeSynField.yields_deserialize.bind fun t _ ht =>
            BeaconBitmap.yields_deserialize.bind fun b _ hb =>
              ChannelHopping.yields_deserialize.bind fun c _ hc =>
                GroupACK.yields_deserialize.bind fun g _ hg => yields_pure ?_
  exact ⟨hd, hds, ht, hb, hc, hg⟩

/-! ## Reading what was written -/

/-- An element that meets the conditions comes back. -/
theorem Carried.exists_content {ie ie₀ : DsmePANDescriptorIE} (hc : Carried ie ie₀)
    (hlen : ie.descriptor.length.toNat < 128) :
    ∃ octets ie', ie.content = some octets ∧
      Reads ie₀.deserialize (ie.descriptor.serialize ++ octets) ie' ∧ Same ie ie' := by
  obtain ⟨pnd, p', hpnd, hreadp, hsame⟩ := PendingAddrFields.exists_reads
    ie₀.pndAddrFields hc.numShortAddr hc.numExtAddr
  obtain ⟨bm, hbm, hreadb⟩ := BeaconBitmap.exists_reads hc.sdBitmap
  obtain ⟨hop, hhop, hreadc⟩ := ChannelHopping.exists_reads hc.channelOfsBitmap
  have htime : (⟨ie.timeSynField.bcnTimestamp, ie₀.timeSynField.bcnOffsetTimestamp⟩ : TimeSync) =
      ie.timeSynField := by
    rw [hc.bcnOffsetTimestamp]
  have hreadt : Reads ie₀.timeSynField.deserialize ie.timeSynField.serialize
      ⟨ie.timeSynField.bcnTimestamp, ie₀.timeSynField.bcnOffsetTimestamp⟩ :=
    TimeSync.reads_deserialize ie.timeSynField ie₀.timeSynField
  rw [htime] at hreadt
  refine ⟨_, { ie with pndAddrFields := p' }, ?_,
    (HeaderIEDescriptor.reads_deserialize hlen).bind
      ((SuperframeField.reads_deserialize ie.superframeField).bind (hreadp.bind
        ((DsmeSuperFrameField.reads_deserialize hc.multiSuperframeOrder).bind (hreadt.bind
          (hreadb.bind (hreadc.bind
            ((GroupACK.reads_deserialize hc.gack1SlotID hc.gack2SlotID).bind_pure rfl))))))),
    ⟨rfl, rfl, hsame, rfl, rfl, rfl, rfl, rfl⟩⟩
  unfold content
  rw [hpnd, hbm, hhop]
  rfl

theorem getSerializedSize_announced (ie : DsmePANDescriptorIE) :
    ie.announced.getSerializedSize = ie.getSerializedSize := rfl

theorem length_announced (ie : DsmePANDescriptorIE) :
    ie.announced.descriptor.length.toNat = (ie.getSerializedSize - 2) % 256 :=
  BitVec.toNat_ofNat _ _

/-- **When the descriptor survives the wire**, as it is sent in a beacon: the octets behind the
descriptor can be counted with seven bits, the fields of some bits fit them, the bitmaps are as long
as their lengths say, and the object that is read into has the offset that is not written. -/
theorem roundTrips_announced_iff (ie ie₀ : DsmePANDescriptorIE) :
    RoundTrips ie.announced ie₀ ↔ Carried ie ie₀ ∧ ie.getSerializedSize - 2 < 128 := by
  constructor
  · rintro ⟨octets, hser, hread⟩
    obtain ⟨ie', hrun, hsame, hlength⟩ := hread []
    have hback := ie₀.yields_deserialize.of_run hrun
    obtain ⟨content, hcontent, -⟩ := Option.map_eq_some_iff.mp hser
    obtain ⟨pnd, hpnd, -⟩ := Option.bind_eq_some_iff.mp hcontent
    have hpnd' := PendingAddrFields.le_of_serialize hpnd
    have hsize := length_of_serialize hser
    rw [getSerializedSize_announced] at hsize
    refine ⟨⟨hpnd'.1, hpnd'.2, ?_, ?_, ?_, ?_, ?_, ?_⟩, ?_⟩
    · rw [show ie.dsmeSuperframeField = ie'.dsmeSuperframeField from hsame.dsmeSuperframeField.symm]
      exact hback.multiSuperframeOrder
    · rw [show ie.timeSynField = ie'.timeSynField from hsame.timeSynField.symm]
      exact hback.bcnOffsetTimestamp.symm
    · rw [show ie.beaconBitmapField = ie'.beaconBitmapField from hsame.beaconBitmapField.symm]
      exact hback.sdBitmap
    · rw [show ie.channelHoppingField = ie'.channelHoppingField from
        hsame.channelHoppingField.symm]
      exact hback.channelOfsBitmap
    · rw [show ie.gack = ie'.gack from hsame.gack.symm]
      exact hback.gack.1
    · rw [show ie.gack = ie'.gack from hsame.gack.symm]
      exact hback.gack.2
    · have hlt := hback.length
      omega
  · rintro ⟨hc, hfits⟩
    have hlen : ie.announced.descriptor.length.toNat = ie.getSerializedSize - 2 := by
      rw [length_announced, Nat.mod_eq_of_lt (by omega)]
    have hc' : Carried ie.announced ie₀ := { hc with }
    obtain ⟨octets, ie', hcontent, hread, hsame⟩ := hc'.exists_content (by rw [hlen]; exact hfits)
    refine ⟨ie.announced.descriptor.serialize ++ octets, ?_, fun rest =>
      ⟨ie', hread rest, hsame, ?_⟩⟩
    · unfold serialize
      rw [hcontent]
      rfl
    · rw [hsame.descriptor, hlen, List.length_append]
      have hsize := length_of_content hcontent
      rw [getSerializedSize_announced] at hsize
      show _ = 2 + octets.length
      omega

/-- A descriptor with nothing in it but the offset of a beacon. -/
def offsetBeacon : DsmePANDescriptorIE where
  descriptor := ⟨0, headerIeDsmePanDescriptor, false⟩
  superframeField := ⟨15, 15, 0, false, false, false⟩
  pndAddrFields := ⟨0, 0, List.replicate 7 0, List.replicate 7 0,
    PendingAddrFields.length_noShortAddr, PendingAddrFields.length_noExtAddr⟩
  dsmeSuperframeField := ⟨14, false, false, false, false⟩
  timeSynField := ⟨0, 5⟩
  beaconBitmapField := ⟨0, 0, []⟩
  channelHoppingField := ⟨0, 0, 0, 16, [0]⟩
  gack := ⟨0, 0, 0, 0, 0, 0⟩

/-- An object that is read into. -/
def freshBeacon : DsmePANDescriptorIE := { offsetBeacon with timeSynField := ⟨0, 0⟩ }

/-- Not every descriptor survives: the offset of the beacon is not written. -/
theorem not_roundTrips_announced :
    ¬ ∀ ie ie₀ : DsmePANDescriptorIE, RoundTrips ie.announced ie₀ := by
  intro hall
  obtain ⟨octets, hser, hread⟩ := hall offsetBeacon freshBeacon
  obtain ⟨ie', hrun, hsame, -⟩ := hread []
  have hback := (yields_deserialize _).of_run hrun
  have hoffset := hback.bcnOffsetTimestamp
  rw [hsame.timeSynField] at hoffset
  exact absurd hoffset (by decide)

end DsmePANDescriptorIE

end Ns3Dsme.Codec
