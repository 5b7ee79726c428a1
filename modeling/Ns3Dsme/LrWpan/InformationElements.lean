/-
# Payload information elements

The descriptors of payload information elements and of nested elements, and the element that filters
enhanced beacons, `EBFilterIE`: a descriptor whose bits say which octets follow.
-/
import Ns3Dsme.LrWpan.FieldCodecs

open List BitFields Reader

namespace Ns3Dsme.Codec

/-! ## Descriptor of a payload element -/

/-- `PayloadIEDescriptor`; the group IDs have four bits. -/
structure PayloadIEDescriptor where
  length : BitVec 16
  elementId : Octet
  type : Bool
  deriving DecidableEq

namespace PayloadIEDescriptor

/-- `PAYLOADIE_MLME`. -/
def mlme : Octet := 0x1

/-- `PAYLOADIE_LIST_TERMINATION`. -/
def listTermination : Octet := 0xf

/-- `GetDescriptor`. -/
def getDescriptor (f : PayloadIEDescriptor) : BitVec 16 :=
  f.length &&& 0x3ff ||| bits f.elementId 0xf 11 ||| bit f.type 15

/-- `SetDescriptor`. -/
def setDescriptor (descriptor : BitVec 16) : PayloadIEDescriptor where
  length := descriptor &&& 0x3ff
  elementId := ((descriptor >>> 11) &&& 0xf).setWidth 8
  type := descriptor.getLsbD 15

theorem setDescriptor_getDescriptor (f : PayloadIEDescriptor) :
    setDescriptor f.getDescriptor =
      { f with length := f.length &&& 0x3ff, elementId := f.elementId &&& 0xf } := by
  unfold setDescriptor getDescriptor
  congr 1
  all_goals first
    | (simp [getElem_bit, getElem_bits]; done)
    | (exact eq_of_sameBits (by simp [getElem_bit, getElem_bits]))

def serialize (f : PayloadIEDescriptor) : List Octet := lowFirst f.getDescriptor 2

def deserialize : Reader PayloadIEDescriptor := do
  let descriptor ← word 16 2
  return setDescriptor descriptor

theorem reads_deserialize {f : PayloadIEDescriptor} (hlength : f.length.toNat < 1024)
    (hid : f.elementId.toNat < 16) : Reads deserialize f.serialize f := by
  refine (reads_word f.getDescriptor rfl).bind_pure ?_
  rw [setDescriptor_getDescriptor, and_eq_self (k := 10) rfl hlength, and_eq_self (k := 4) rfl hid]

end PayloadIEDescriptor

/-! ## Descriptor of a nested element -/

/-- `PayloadSubIEDescriptor`. -/
structure PayloadSubIEDescriptor where
  length : Octet
  subId : Octet
  type : Bool
  deriving DecidableEq

namespace PayloadSubIEDescriptor

/-- `SUBID_EB_FILTER`. -/
def ebFilter : Octet := 0x1e

/-- `GetDescriptor`: a long element has eleven bits for its length and four for its ID. -/
def getDescriptor (f : PayloadSubIEDescriptor) : BitVec 16 :=
  if f.type then
    f.length.setWidth 16 &&& 0x7ff ||| bits f.subId 0xf 11 ||| bit f.type 15
  else
    f.length.setWidth 16 &&& 0xff ||| bits f.subId 0x7f 8 ||| bit f.type 15

/-- `SetDescriptor`: every descriptor is taken apart as a short one. -/
def setDescriptor (descriptor : BitVec 16) : PayloadSubIEDescriptor where
  length := (descriptor &&& 0xff).setWidth 8
  subId := ((descriptor >>> 8) &&& 0x7f).setWidth 8
  type := descriptor.getLsbD 15

theorem setDescriptor_getDescriptor {f : PayloadSubIEDescriptor} (h : f.type = false) :
    setDescriptor f.getDescriptor = { f with subId := f.subId &&& 0x7f } := by
  unfold setDescriptor getDescriptor
  simp only [h, Bool.false_eq_true, if_false]
  congr 1
  all_goals first
    | (simp [getElem_bit, getElem_bits]; done)
    | (exact eq_of_sameBits (by simp [getElem_bit, getElem_bits]))

def serialize (f : PayloadSubIEDescriptor) : List Octet := lowFirst f.getDescriptor 2

def deserialize : Reader PayloadSubIEDescriptor := do
  let descriptor ← word 16 2
  return setDescriptor descriptor

/-- A short descriptor comes back. -/
theorem reads_deserialize {f : PayloadSubIEDescriptor} (htype : f.type = false)
    (hid : f.subId.toNat < 128) : Reads deserialize f.serialize f := by
  refine (reads_word f.getDescriptor rfl).bind_pure ?_
  rw [setDescriptor_getDescriptor htype, and_eq_self (k := 7) rfl hid]

end PayloadSubIEDescriptor

/-! ## The filter for enhanced beacons -/

/-- `EBFilterIE`; a PIB attribute ID is kept as its octet. -/
structure EBFilterIE where
  descriptor : PayloadIEDescriptor
  subIEDescriptor : PayloadSubIEDescriptor
  permitJoiningOn : Bool
  includeLinkQualityFilter : Bool
  includePercentFilter : Bool
  numOfEntriesInPIBIdList : Octet
  reserved : Octet
  linkQuality : Octet
  percentFilter : Octet
  pibIdList : List Octet
  deriving DecidableEq

namespace EBFilterIE

/-- `GetEBFilterDescriptor`: every field is shifted to its place and then masked at bit 0. -/
def getEBFilterDescriptor (f : EBFilterIE) : Octet :=
  ((bit f.permitJoiningOn 0 : Octet) &&& 0x01) |||
    ((bit f.includeLinkQualityFilter 1 : Octet) &&& 0x01) |||
    ((bit f.includePercentFilter 2 : Octet) &&& 0x01) ||| ((f.numOfEntriesInPIBIdList <<< 3) &&& 0x03) |||
    ((f.reserved <<< 5) &&& 0x07)

/-- `SetEBFilterDescriptor`. -/
def setEBFilterDescriptor (f : EBFilterIE) (descriptor : Octet) : EBFilterIE :=
  { f with
    permitJoiningOn := descriptor.getLsbD 0
    includeLinkQualityFilter := descriptor.getLsbD 1
    includePercentFilter := descriptor.getLsbD 2
    numOfEntriesInPIBIdList := (descriptor >>> 3) &&& 0x03
    reserved := (descriptor >>> 5) &&& 0x07 }

/-- `AddPIBId`: a fifth ID fails the assertion. -/
def addPIBId (ids : List Octet) (id : Octet) : Option (List Octet) :=
  if ids.length < 4 then some (ids ++ [id]) else none

def getSerializedSize (f : EBFilterIE) : ℕ :=
  f.descriptor.serialize.length + f.subIEDescriptor.serialize.length + 2 +
    (if f.includeLinkQualityFilter then 1 else 0) + (if f.includePercentFilter then 1 else 0) +
    f.numOfEntriesInPIBIdList.toNat

/-- The octets that are written only when they are included. -/
def optional (f : EBFilterIE) : List Octet :=
  (if f.includeLinkQualityFilter then [f.linkQuality] else []) ++
    ((if f.includePercentFilter then [f.percentFilter] else []) ++
      (if f.numOfEntriesInPIBIdList ≠ 0 then f.pibIdList else []))

/-- The octets after the two descriptors. -/
def content (f : EBFilterIE) : List Octet :=
  lowFirst (f.getEBFilterDescriptor.setWidth 16) 2 ++ f.optional

def serialize (f : EBFilterIE) : List Octet :=
  f.descriptor.serialize ++ (f.subIEDescriptor.serialize ++ f.content)

/-- The loop of `Deserialize` over `m_PIBIdList`: each turn appends to the list that bounds it, so
it ends at once or in the assertion of `AddPIBId`. -/
def readPIBIds : ℕ → ℕ → List Octet → Reader (List Octet)
  | 0, _, _ => failure
  | turns + 1, j, ids =>
    if j < ids.length then do
      let id ← octet
      let ids' ← StateT.lift (addPIBId ids id)
      readPIBIds turns (j + 1) ids'
    else pure ids

/-- `Deserialize` from the first optional octet on. -/
def deserializeOptional (f : EBFilterIE) : Reader EBFilterIE := do
  let linkQuality ← if f.includeLinkQualityFilter then octet else pure f.linkQuality
  let percentFilter ← if f.includePercentFilter then octet else pure f.percentFilter
  let pibIdList ← if f.numOfEntriesInPIBIdList ≠ 0 then readPIBIds 5 0 f.pibIdList
    else pure f.pibIdList
  return { f with linkQuality, percentFilter, pibIdList }

def deserialize (f : EBFilterIE) : Reader EBFilterIE := do
  let descriptor ← PayloadIEDescriptor.deserialize
  let subIEDescriptor ← PayloadSubIEDescriptor.deserialize
  let filter ← word 16 2
  deserializeOptional
    (setEBFilterDescriptor { f with descriptor, subIEDescriptor } (filter.setWidth 8))

/-- The list has the size that is declared, and the lengths and IDs are those of the constructor and
of `SetOutterIEDescriptorLen` and `SetSubIEDescriptorLen` with what `GetSerializedSize` leaves after
one descriptor and after both. -/
structure Declared (f : EBFilterIE) : Prop where
  pibIdList : f.pibIdList.length = f.numOfEntriesInPIBIdList.toNat
  numOfEntriesInPIBIdList : f.numOfEntriesInPIBIdList.toNat < 5
  descriptor : f.descriptor =
    ⟨BitVec.ofNat 16 (f.getSerializedSize - 2), PayloadIEDescriptor.mlme, true⟩
  subIEDescriptor : f.subIEDescriptor =
    ⟨BitVec.ofNat 8 (f.getSerializedSize - 4), PayloadSubIEDescriptor.ebFilter, false⟩

/-- The same settings and the same list; of the optional octets those that are included. -/
structure Same (f f' : EBFilterIE) : Prop where
  descriptor : f'.descriptor = f.descriptor
  subIEDescriptor : f'.subIEDescriptor = f.subIEDescriptor
  permitJoiningOn : f'.permitJoiningOn = f.permitJoiningOn
  includeLinkQualityFilter : f'.includeLinkQualityFilter = f.includeLinkQualityFilter
  includePercentFilter : f'.includePercentFilter = f.includePercentFilter
  numOfEntriesInPIBIdList : f'.numOfEntriesInPIBIdList = f.numOfEntriesInPIBIdList
  linkQuality : f.includeLinkQualityFilter → f'.linkQuality = f.linkQuality
  percentFilter : f.includePercentFilter → f'.percentFilter = f.percentFilter
  pibIdList : f'.pibIdList = f.pibIdList

/-- Reading what was written, into some object, gives the same settings and list, and the length of
the nested element is that of its content. -/
def RoundTrips (f f₀ : EBFilterIE) : Prop :=
  f.subIEDescriptor.length.toNat = f.content.length ∧
    ∀ rest, ∃ f', f₀.deserialize.run (f.serialize ++ rest) = some (f', rest) ∧ Same f f'

/-- Of the five fields only the first is written. -/
theorem getEBFilterDescriptor_eq (f : EBFilterIE) :
    f.getEBFilterDescriptor = bit f.permitJoiningOn 0 := by
  unfold getEBFilterDescriptor
  exact eq_of_sameBits (by simp [getElem_bit])

/-- What becomes of an element on the wire. -/
def carried (f f₀ : EBFilterIE) : EBFilterIE :=
  { f₀ with
    descriptor := f.descriptor
    subIEDescriptor := f.subIEDescriptor
    permitJoiningOn := f.permitJoiningOn
    includeLinkQualityFilter := false
    includePercentFilter := false
    numOfEntriesInPIBIdList := 0
    reserved := 0 }

theorem setEBFilterDescriptor_getEBFilterDescriptor (f f₀ : EBFilterIE) :
    setEBFilterDescriptor { f₀ with
        descriptor := f.descriptor, subIEDescriptor := f.subIEDescriptor }
      ((f.getEBFilterDescriptor.setWidth 16).setWidth 8) = f.carried f₀ := by
  rw [getEBFilterDescriptor_eq]
  unfold setEBFilterDescriptor carried
  cases f.permitJoiningOn <;> rfl

/-- The octets that `Deserialize` reads of an element. -/
theorem reads_deserialize {f : EBFilterIE} (f₀ : EBFilterIE)
    (hlength : f.descriptor.length.toNat < 1024) (hid : f.descriptor.elementId.toNat < 16)
    (htype : f.subIEDescriptor.type = false) (hsub : f.subIEDescriptor.subId.toNat < 128) :
    Reads f₀.deserialize (f.descriptor.serialize ++ (f.subIEDescriptor.serialize ++
      lowFirst (f.getEBFilterDescriptor.setWidth 16) 2)) (f.carried f₀) := by
  refine (PayloadIEDescriptor.reads_deserialize hlength hid).bind
    ((PayloadSubIEDescriptor.reads_deserialize htype hsub).bind
      ((reads_word (k := 2) (f.getEBFilterDescriptor.setWidth 16) rfl).bind_pure ?_))
  rw [setEBFilterDescriptor_getEBFilterDescriptor]
  rfl

theorem length_descriptor (f : EBFilterIE) : f.descriptor.serialize.length = 2 :=
  length_lowFirst _ 2

theorem length_subIEDescriptor (f : EBFilterIE) : f.subIEDescriptor.serialize.length = 2 :=
  length_lowFirst _ 2

/-- `GetSerializedSize` counts both descriptors and the content, if the list has its declared
size. -/
theorem getSerializedSize_eq {f : EBFilterIE}
    (h : f.pibIdList.length = f.numOfEntriesInPIBIdList.toNat) :
    f.getSerializedSize = 4 + f.content.length := by
  have hlist : (if f.numOfEntriesInPIBIdList ≠ 0 then f.pibIdList else []).length =
      f.numOfEntriesInPIBIdList.toNat := by
    by_cases hnum : f.numOfEntriesInPIBIdList = 0
    · rw [if_neg (not_not_intro hnum), hnum]
      rfl
    · rw [if_pos hnum, h]
  unfold getSerializedSize content optional
  rw [length_descriptor, length_subIEDescriptor, length_append, length_append,
    length_append, hlist, length_lowFirst]
  cases f.includeLinkQualityFilter <;> cases f.includePercentFilter <;> simp <;> omega

theorem serialize_eq_append (f : EBFilterIE) : f.serialize =
    (f.descriptor.serialize ++ (f.subIEDescriptor.serialize ++
      lowFirst (f.getEBFilterDescriptor.setWidth 16) 2)) ++ f.optional := by
  unfold serialize content
  rw [append_assoc, append_assoc]

/-- A declared element has a length field of its content. -/
theorem Declared.length_content {f : EBFilterIE} (h : Declared f) :
    f.subIEDescriptor.length.toNat = f.content.length := by
  have hsize := getSerializedSize_eq h.pibIdList
  have hcontent : f.content.length < 256 := by
    have hnum := h.numOfEntriesInPIBIdList
    have hlist := h.pibIdList
    unfold content optional
    rw [length_append, length_append, length_append, length_lowFirst]
    split <;> split <;> split <;> simp <;> omega
  rw [h.subIEDescriptor]
  show (BitVec.ofNat 8 (f.getSerializedSize - 4)).toNat = _
  rw [BitVec.toNat_ofNat, hsize, Nat.add_sub_cancel_left, Nat.mod_eq_of_lt hcontent]

/-- The settings and the list come back exactly if nothing optional is included and the object read
into has no IDs. -/
theorem same_carried_iff {f : EBFilterIE} (f₀ : EBFilterIE) (h : Declared f) :
    Same f (f.carried f₀) ↔ f.includeLinkQualityFilter = false ∧
      f.includePercentFilter = false ∧ f.pibIdList = [] ∧ f₀.pibIdList = [] := by
  constructor
  · intro hsame
    have hnum : f.numOfEntriesInPIBIdList = 0 := hsame.numOfEntriesInPIBIdList.symm
    have hlist : f.pibIdList = [] := by
      apply eq_nil_of_length_eq_zero
      rw [h.pibIdList, hnum]
      rfl
    exact ⟨hsame.includeLinkQualityFilter.symm, hsame.includePercentFilter.symm, hlist,
      hsame.pibIdList.trans hlist⟩
  · rintro ⟨hlq, hpf, hlist, hlist₀⟩
    have hnum : f.numOfEntriesInPIBIdList = 0 := by
      apply BitVec.eq_of_toNat_eq
      rw [← h.pibIdList, hlist]
      rfl
    exact
      { descriptor := rfl
        subIEDescriptor := rfl
        permitJoiningOn := rfl
        includeLinkQualityFilter := hlq.symm
        includePercentFilter := hpf.symm
        numOfEntriesInPIBIdList := hnum.symm
        linkQuality := fun hin => absurd hin (by rw [hlq]; exact Bool.false_ne_true)
        percentFilter := fun hin => absurd hin (by rw [hpf]; exact Bool.false_ne_true)
        pibIdList := hlist₀.trans hlist.symm }

/-- **When the filter survives the wire**: it includes no link quality, no percentage and no IDs,
and the object it is read into has no IDs. -/
theorem roundTrips_ebFilter_iff {f : EBFilterIE} (f₀ : EBFilterIE) (h : Declared f) :
    RoundTrips f f₀ ↔ f.includeLinkQualityFilter = false ∧
      f.includePercentFilter = false ∧ f.pibIdList = [] ∧ f₀.pibIdList = [] := by
  have hlength : f.descriptor.length.toNat < 1024 := by
    have hsub := h.length_content
    have hsize := getSerializedSize_eq h.pibIdList
    have hlt := f.subIEDescriptor.length.isLt
    rw [h.descriptor]
    show (BitVec.ofNat 16 (f.getSerializedSize - 2)).toNat < 1024
    rw [BitVec.toNat_ofNat]
    omega
  have hid : f.descriptor.elementId.toNat < 16 := by
    rw [h.descriptor]
    show PayloadIEDescriptor.mlme.toNat < 16
    decide
  have hsubId : f.subIEDescriptor.subId.toNat < 128 := by
    rw [h.subIEDescriptor]
    show PayloadSubIEDescriptor.ebFilter.toNat < 128
    decide
  have hread := reads_deserialize f₀ hlength hid (by rw [h.subIEDescriptor]) hsubId
  rw [← same_carried_iff f₀ h]
  constructor
  · rintro ⟨-, hall⟩
    obtain ⟨f', hrun, hsame⟩ := hall []
    rw [serialize_eq_append, append_assoc] at hrun
    obtain ⟨rfl, -⟩ := hread.unique hrun
    exact hsame
  · intro hsame
    obtain ⟨hlq, hpf, hlist, -⟩ := (same_carried_iff f₀ h).mp hsame
    have hnone : f.optional = [] := by
      unfold optional
      rw [hlq, hpf, hlist, ite_self]
      rfl
    refine ⟨h.length_content, fun rest => ⟨f.carried f₀, ?_, hsame⟩⟩
    rw [serialize_eq_append, hnone, append_nil]
    exact hread rest

/-- A filter for joining that includes the link quality. -/
def withLinkQuality : EBFilterIE where
  descriptor := ⟨5, PayloadIEDescriptor.mlme, true⟩
  subIEDescriptor := ⟨3, PayloadSubIEDescriptor.ebFilter, false⟩
  permitJoiningOn := true
  includeLinkQualityFilter := true
  includePercentFilter := false
  numOfEntriesInPIBIdList := 0
  reserved := 0
  linkQuality := 200
  percentFilter := 0
  pibIdList := []

theorem declared_withLinkQuality : Declared withLinkQuality where
  pibIdList := rfl
  numOfEntriesInPIBIdList := by decide
  descriptor := rfl
  subIEDescriptor := rfl

/-- A filter without options survives. -/
theorem roundTrips_ebFilter_permitJoining : RoundTrips
      { withLinkQuality with
        descriptor := ⟨4, PayloadIEDescriptor.mlme, true⟩
        subIEDescriptor := ⟨2, PayloadSubIEDescriptor.ebFilter, false⟩
        includeLinkQualityFilter := false } withLinkQuality :=
  (roundTrips_ebFilter_iff withLinkQuality ⟨rfl, by decide, rfl, rfl⟩).mpr ⟨rfl, rfl, rfl, rfl⟩

/-- Not every filter survives: the bits that say what is included are masked away. -/
theorem not_roundTrips_ebFilter : ¬ ∀ f f₀, Declared f → RoundTrips f f₀ := by
  intro hall
  obtain ⟨-, hread⟩ := hall withLinkQuality withLinkQuality declared_withLinkQuality
  obtain ⟨f', hrun, hsame⟩ := hread []
  have hnot := hsame.includeLinkQualityFilter
  cases hrun

end EBFilterIE

end Ns3Dsme.Codec
