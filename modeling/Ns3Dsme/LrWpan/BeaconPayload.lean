/-
# The payload of a beacon on the wire

`BeaconPayloadHeader`: the superframe specification, the GTS fields and the pending addresses.  A
GTS descriptor is written with the upper half of its length in the upper half of an octet, and read
back from there shifted.
-/
import Ns3Dsme.LrWpan.FieldCodecs

open List BitFields Reader

namespace Ns3Dsme.Codec

open PendingAddrFields

/-! ## GTS fields -/

/-- `gtsDescriptor`. -/
structure GtsDescriptor where
  devShortAddr : Mac16Address
  startSlot : Octet
  length : Octet
  deriving DecidableEq

namespace GtsDescriptor

def serialize (d : GtsDescriptor) : List Octet :=
  lowFirst d.devShortAddr 2 ++ [(d.startSlot &&& 0x0f) ||| (d.length &&& 0xf0)]

def deserialize : Reader GtsDescriptor := do
  let devShortAddr ← word 16 2
  let startAndLength ← octet
  return ⟨devShortAddr, startAndLength &&& 0x0f, (startAndLength >>> 4) &&& 0x0f⟩

/-- What becomes of a descriptor on the wire. -/
def carried (d : GtsDescriptor) : GtsDescriptor :=
  ⟨d.devShortAddr, d.startSlot &&& 0x0f, d.length >>> 4⟩

theorem reads_deserialize (d : GtsDescriptor) : Reads deserialize d.serialize d.carried := by
  refine (reads_word d.devShortAddr rfl).bind ((reads_octet _).bind_pure ?_)
  have hstart : ((d.startSlot &&& 0x0f) ||| (d.length &&& 0xf0)) &&& 0x0f =
      d.startSlot &&& 0x0f := by
    exact eq_of_sameBits (by simp)
  have hlength : (((d.startSlot &&& 0x0f) ||| (d.length &&& 0xf0)) >>> 4) &&& (0x0f : Octet) =
      d.length >>> 4 := by
    exact eq_of_sameBits (by simp)
  rw [hstart, hlength]
  rfl

/-- A descriptor comes back only with length zero. -/
theorem carried_eq_self_iff (d : GtsDescriptor) :
    d.carried = d ↔ d.startSlot.toNat < 16 ∧ d.length = 0 := by
  constructor
  · intro h
    have hstart : d.startSlot &&& 0x0f = d.startSlot := congrArg GtsDescriptor.startSlot h
    have hlength : d.length >>> 4 = d.length := congrArg GtsDescriptor.length h
    refine ⟨?_, ?_⟩
    · rw [← hstart]
      exact toNat_and_lt (k := 4) d.startSlot rfl
    · have hnat := congrArg BitVec.toNat hlength
      rw [BitVec.toNat_ushiftRight, Nat.shiftRight_eq_div_pow] at hnat
      apply BitVec.eq_of_toNat_eq
      show d.length.toNat = 0
      omega
  · rintro ⟨hstart, hlength⟩
    unfold carried
    rw [and_eq_self (k := 4) rfl hstart, hlength]
    cases d
    cases hlength
    rfl

end GtsDescriptor

/-- `GtsFields`; the list is an array of seven descriptors. -/
structure GtsFields where
  gtsSpecDescCount : Octet
  gtsSpecPermit : Octet
  gtsDirMask : Octet
  gtsList : List GtsDescriptor
  length_gtsList : gtsList.length = 7
  deriving DecidableEq

namespace GtsFields

/-- `GetGtsSpecField`. -/
def getGtsSpecField (f : GtsFields) : Octet :=
  bits f.gtsSpecDescCount 7 0 ||| bits f.gtsSpecPermit 1 7

/-- `GetGtsDirectionField`. -/
def getGtsDirectionField (f : GtsFields) : Octet := f.gtsDirMask &&& 0x7f

def getSerializedSize (f : GtsFields) : ℕ :=
  1 + if 0 < f.gtsSpecDescCount.toNat then 1 + f.gtsSpecDescCount.toNat * 3 else 0

/-- The descriptors that are used. -/
def descriptors (f : GtsFields) : List GtsDescriptor := f.gtsList.take f.gtsSpecDescCount.toNat

/-- Nothing is known of what is written from behind the array. -/
def serialize (f : GtsFields) : Option (List Octet) :=
  if f.gtsSpecDescCount.toNat ≤ 7 then
    some ([f.getGtsSpecField] ++ if 0 < f.gtsSpecDescCount.toNat then
      [f.getGtsDirectionField] ++ f.descriptors.flatMap GtsDescriptor.serialize else [])
  else none

/-- `SetGtsSpecField` and `SetGtsDirectionField` are the first two steps. -/
def deserialize (f : GtsFields) : Reader GtsFields := do
  let gtsSpec ← octet
  let f := { f with
    gtsSpecDescCount := gtsSpec &&& 7
    gtsSpecPermit := (gtsSpec >>> 7) &&& 1 }
  if 0 < f.gtsSpecDescCount.toNat then do
    let gtsDir ← octet
    let gtsList ← many GtsDescriptor.deserialize f.gtsSpecDescCount.toNat
    return { f with
      gtsDirMask := gtsDir &&& 0x7f
      gtsList := overwrite f.gtsList gtsList
      length_gtsList := (length_overwrite _ _).trans f.length_gtsList }
  else return f

/-- The same GTSs are specified.  Without descriptors there is no direction field. -/
structure Same (f f' : GtsFields) : Prop where
  gtsSpecDescCount : f'.gtsSpecDescCount = f.gtsSpecDescCount
  gtsSpecPermit : f'.gtsSpecPermit = f.gtsSpecPermit
  gtsDirMask : 0 < f.gtsSpecDescCount.toNat → f'.gtsDirMask = f.gtsDirMask
  descriptors : f'.descriptors = f.descriptors

/-- The GTS fields that survive the wire. -/
structure Carried (f : GtsFields) : Prop where
  gtsSpecDescCount : f.gtsSpecDescCount.toNat ≤ 7
  gtsSpecPermit : f.gtsSpecPermit.toNat < 2
  gtsDirMask : 0 < f.gtsSpecDescCount.toNat → f.gtsDirMask.toNat < 128
  descriptors : ∀ d ∈ f.descriptors, d.startSlot.toNat < 16 ∧ d.length = 0

/-- What becomes of GTS fields on the wire, read into an object. -/
def carried (f f₀ : GtsFields) : GtsFields where
  gtsSpecDescCount := f.gtsSpecDescCount
  gtsSpecPermit := f.gtsSpecPermit &&& 1
  gtsDirMask := if 0 < f.gtsSpecDescCount.toNat then f.gtsDirMask &&& 0x7f else f₀.gtsDirMask
  gtsList := overwrite f₀.gtsList (f.descriptors.map GtsDescriptor.carried)
  length_gtsList := (length_overwrite _ _).trans f₀.length_gtsList

theorem spec_masked (f : GtsFields) :
    f.getGtsSpecField &&& 7 = f.gtsSpecDescCount &&& 7 ∧
      (f.getGtsSpecField >>> 7) &&& 1 = f.gtsSpecPermit &&& 1 := by
  unfold getGtsSpecField
  constructor
  · exact eq_of_sameBits (by simp [getElem_bits])
  · exact eq_of_sameBits (by simp [getElem_bits])

theorem length_descriptors {f : GtsFields} (h : f.gtsSpecDescCount.toNat ≤ 7) :
    f.descriptors.length = f.gtsSpecDescCount.toNat := by
  unfold descriptors
  rw [length_take, f.length_gtsList, min_eq_left h]

theorem length_flatMap_serialize (ds : List GtsDescriptor) :
    (ds.flatMap GtsDescriptor.serialize).length = ds.length * 3 := by
  induction ds with
  | nil => rfl
  | cons d ds ih =>
    rw [flatMap_cons, length_append, ih, length_cons, Nat.succ_mul, Nat.add_comm]
    rfl

theorem length_of_serialize {f : GtsFields} {octets : List Octet} (h : f.serialize = some octets) :
    octets.length = f.getSerializedSize := by
  unfold serialize at h
  unfold getSerializedSize
  split at h
  · rename_i hle
    cases h
    rw [length_append]
    split
    · rw [length_append, length_flatMap_serialize, length_descriptors hle]
      rfl
    · rfl
  · cases h

/-- Reading what was written. -/
theorem exists_reads {f : GtsFields} (f₀ : GtsFields) (hcount : f.gtsSpecDescCount.toNat ≤ 7) :
    ∃ octets, f.serialize = some octets ∧ Reads (deserialize f₀) octets (f.carried f₀) := by
  have hspec := f.spec_masked
  rw [and_eq_self (k := 3) rfl (Nat.lt_succ_of_le hcount)] at hspec
  refine ⟨_, if_pos hcount, ?_⟩
  refine (reads_octet _).bind ?_
  simp only [hspec.1, hspec.2]
  by_cases hpos : 0 < f.gtsSpecDescCount.toNat
  · rw [if_pos hpos, if_pos hpos]
    have hread := reads_many_map GtsDescriptor.reads_deserialize f.descriptors
    rw [length_descriptors hcount] at hread
    refine (reads_octet _).bind (hread.bind_pure ?_)
    have hdir : f.getGtsDirectionField &&& 0x7f = f.gtsDirMask &&& 0x7f := by
      unfold getGtsDirectionField
      rw [BitVec.and_assoc, BitVec.and_self]
    unfold carried
    simp only [hdir, if_pos hpos]
  · rw [if_neg hpos, if_neg hpos]
    have hnone : f.descriptors = [] := by
      unfold descriptors
      rw [show f.gtsSpecDescCount.toNat = 0 by omega]
      exact take_zero
    have hkept : f.carried f₀ = { f₀ with
        gtsSpecDescCount := f.gtsSpecDescCount, gtsSpecPermit := f.gtsSpecPermit &&& 1 } := by
      unfold carried
      simp only [hnone, if_neg hpos]
      congr 1
      unfold overwrite
      rw [map_nil, nil_append, length_nil, drop_zero, take_length]
    rw [hkept]
    exact reads_pure _

/-- The GTS fields come back exactly under these conditions. -/
theorem same_carried_iff {f : GtsFields} (f₀ : GtsFields) (hcount : f.gtsSpecDescCount.toNat ≤ 7) :
    Same f (f.carried f₀) ↔ Carried f := by
  have hlen : (f.descriptors.map GtsDescriptor.carried).length = f.gtsSpecDescCount.toNat := by
    rw [length_map, length_descriptors hcount]
  have hback : (f.carried f₀).descriptors = f.descriptors.map GtsDescriptor.carried := by
    have htake := take_overwrite f₀.gtsList (f.descriptors.map GtsDescriptor.carried) (by
      rw [hlen, f₀.length_gtsList]
      exact hcount)
    rw [hlen] at htake
    exact htake
  constructor
  · intro h
    refine ⟨hcount, ?_, fun hpos => ?_, fun d hd => ?_⟩
    · rw [← h.gtsSpecPermit]
      exact toNat_and_lt (k := 1) f.gtsSpecPermit rfl
    · rw [← h.gtsDirMask hpos, show (f.carried f₀).gtsDirMask = f.gtsDirMask &&& 0x7f from
        if_pos hpos]
      exact toNat_and_lt (k := 7) f.gtsDirMask rfl
    · have hall := h.descriptors
      rw [hback] at hall
      rw [← map_id f.descriptors, map_map] at hall
      exact d.carried_eq_self_iff.mp (map_eq_map_iff.mp hall d hd)
  · intro h
    refine ⟨rfl, and_eq_self (k := 1) rfl h.gtsSpecPermit, fun hpos => ?_, ?_⟩
    · rw [show (f.carried f₀).gtsDirMask = f.gtsDirMask &&& 0x7f from if_pos hpos]
      exact and_eq_self (k := 7) rfl (h.gtsDirMask hpos)
    · rw [hback]
      conv_rhs => rw [← map_id f.descriptors]
      exact map_eq_map_iff.mpr fun d hd => d.carried_eq_self_iff.mpr (h.descriptors d hd)

/-- What is written depends on the fields that are compared. -/
theorem serialize_of_same {f f' : GtsFields} (h : Same f f') : f'.serialize = f.serialize := by
  unfold serialize
  have hspec : f'.getGtsSpecField = f.getGtsSpecField := by
    unfold getGtsSpecField
    rw [h.gtsSpecDescCount, h.gtsSpecPermit]
  rw [hspec, h.gtsSpecDescCount, h.descriptors]
  by_cases hpos : 0 < f.gtsSpecDescCount.toNat
  · have hdir : f'.getGtsDirectionField = f.getGtsDirectionField := by
      unfold getGtsDirectionField
      rw [h.gtsDirMask hpos]
    rw [hdir]
  · rw [if_neg hpos, if_neg hpos]

end GtsFields

/-- `BeaconPayloadHeader`. -/
structure BeaconPayloadHeader where
  superframeField : SuperframeField
  gtsFields : GtsFields
  pndAddrFields : PendingAddrFields
  deriving DecidableEq

namespace BeaconPayloadHeader

/-! ## The payload -/

def getSerializedSize (p : BeaconPayloadHeader) : ℕ :=
  2 + p.gtsFields.getSerializedSize + p.pndAddrFields.getSerializedSize

def serialize (p : BeaconPayloadHeader) : Option (List Octet) := do
  let gts ← p.gtsFields.serialize
  let pndAddr ← p.pndAddrFields.serialize
  return p.superframeField.serialize ++ (gts ++ pndAddr)

def deserialize (p : BeaconPayloadHeader) : Reader BeaconPayloadHeader := do
  let superframeField ← SuperframeField.deserialize
  let gtsFields ← p.gtsFields.deserialize
  let pndAddrFields ← p.pndAddrFields.deserialize
  return ⟨superframeField, gtsFields, pndAddrFields⟩

/-- All fields are the same; of the arrays, the part that is used. -/
structure Same (p p' : BeaconPayloadHeader) : Prop where
  superframeField : p'.superframeField = p.superframeField
  gtsFields : GtsFields.Same p.gtsFields p'.gtsFields
  pndAddrFields : PendingAddrFields.Same p.pndAddrFields p'.pndAddrFields

/-- Reading what was written, into some object, gives the same fields, and writing these gives the
same octets, as many as the header says. -/
def RoundTrips (p p₀ : BeaconPayloadHeader) : Prop :=
  ∃ octets, p.serialize = some octets ∧ p.getSerializedSize = octets.length ∧ ∀ rest, ∃ p',
    p₀.deserialize.run (octets ++ rest) = some (p', rest) ∧ Same p p' ∧
      p'.serialize = some octets

theorem serialize_eq_some {p : BeaconPayloadHeader} {octets : List Octet}
    (h : p.serialize = some octets) : ∃ gts pnd, p.gtsFields.serialize = some gts ∧
      p.pndAddrFields.serialize = some pnd ∧
        octets = p.superframeField.serialize ++ (gts ++ pnd) := by
  unfold serialize at h
  obtain ⟨gts, hgts, h⟩ := Option.bind_eq_some_iff.mp h
  obtain ⟨pnd, hpnd, h⟩ := Option.bind_eq_some_iff.mp h
  cases h
  exact ⟨gts, pnd, hgts, hpnd, rfl⟩

theorem serialize_of_eq_some {p : BeaconPayloadHeader} {gts pnd : List Octet}
    (hgts : p.gtsFields.serialize = some gts) (hpnd : p.pndAddrFields.serialize = some pnd) :
    p.serialize = some (p.superframeField.serialize ++ (gts ++ pnd)) := by
  unfold serialize
  rw [hgts, hpnd]
  rfl

/-- What is written depends on the addresses that are compared. -/
theorem PendingAddrFields.serialize_of_same {f f' : PendingAddrFields}
    (h : PendingAddrFields.Same f f') : f'.serialize = f.serialize := by
  have hspec : f'.getPndAddrSpecField = f.getPndAddrSpecField := by
    unfold getPndAddrSpecField
    rw [h.numShortAddr, h.numExtAddr]
  unfold PendingAddrFields.serialize
  rw [hspec, h.numShortAddr, h.numExtAddr, h.shortAddrList, h.extAddrList]

/-- **When the payload of a beacon survives the wire**: there are no more descriptors and addresses
than their arrays hold, the permission and the directions fit their bits, and every descriptor in
use starts in a slot below 16 and has length zero. -/
theorem roundTrips_beacon_iff (p p₀ : BeaconPayloadHeader) :
    RoundTrips p p₀ ↔ GtsFields.Carried p.gtsFields ∧
      p.pndAddrFields.numShortAddr.toNat ≤ 7 ∧ p.pndAddrFields.numExtAddr.toNat ≤ 7 := by
  constructor
  · rintro ⟨octets, hser, -, hread⟩
    obtain ⟨gts, pnd, hgts, hpnd, rfl⟩ := serialize_eq_some hser
    have hle := le_of_serialize hpnd
    have hcount : p.gtsFields.gtsSpecDescCount.toNat ≤ 7 := by
      by_contra hmore
      unfold GtsFields.serialize at hgts
      rw [if_neg hmore] at hgts
      cases hgts
    obtain ⟨gts', hgts', hreadGts⟩ := GtsFields.exists_reads p₀.gtsFields hcount
    obtain ⟨pnd', f', hpnd', hreadPnd, -⟩ :=
      exists_reads p₀.pndAddrFields hle.1 hle.2
    rw [hgts] at hgts'
    rw [hpnd] at hpnd'
    cases hgts'
    cases hpnd'
    have hall : Reads p₀.deserialize (p.superframeField.serialize ++ (gts ++ pnd))
        ⟨p.superframeField, p.gtsFields.carried p₀.gtsFields, f'⟩ :=
      (SuperframeField.reads_deserialize p.superframeField).bind
        (hreadGts.bind (hreadPnd.bind_pure rfl))
    obtain ⟨p', hrun, hsame, -⟩ := hread []
    obtain ⟨rfl, -⟩ := hall.unique hrun
    exact ⟨(GtsFields.same_carried_iff p₀.gtsFields hcount).mp hsame.gtsFields, hle⟩
  · rintro ⟨hgts, hshort, hext⟩
    obtain ⟨gts, hserGts, hreadGts⟩ := GtsFields.exists_reads p₀.gtsFields hgts.gtsSpecDescCount
    obtain ⟨pnd, f', hserPnd, hreadPnd, hsamePnd⟩ :=
      exists_reads p₀.pndAddrFields hshort hext
    have hsame : Same p ⟨p.superframeField, p.gtsFields.carried p₀.gtsFields, f'⟩ :=
      ⟨rfl, (GtsFields.same_carried_iff p₀.gtsFields hgts.gtsSpecDescCount).mpr hgts, hsamePnd⟩
    have hall : Reads p₀.deserialize (p.superframeField.serialize ++ (gts ++ pnd))
        ⟨p.superframeField, p.gtsFields.carried p₀.gtsFields, f'⟩ :=
      (SuperframeField.reads_deserialize p.superframeField).bind
        (hreadGts.bind (hreadPnd.bind_pure rfl))
    refine ⟨_, serialize_of_eq_some hserGts hserPnd, ?_, fun rest => ⟨_, hall rest, hsame, ?_⟩⟩
    · unfold getSerializedSize
      rw [length_append, length_append, ← GtsFields.length_of_serialize hserGts,
        ← length_of_serialize hserPnd, Nat.add_assoc]
      rfl
    · refine serialize_of_eq_some (p := ⟨p.superframeField, p.gtsFields.carried p₀.gtsFields, f'⟩)
        ?_ ?_
      · exact (GtsFields.serialize_of_same hsame.gtsFields).trans hserGts
      · exact (PendingAddrFields.serialize_of_same hsamePnd).trans hserPnd

/-- A beacon that gives three slots to one device. -/
def oneGts : BeaconPayloadHeader where
  superframeField := ⟨6, 4, 12, false, true, true⟩
  gtsFields :=
    { gtsSpecDescCount := 1
      gtsSpecPermit := 1
      gtsDirMask := 0
      gtsList := ⟨2, 13, 3⟩ :: List.replicate 6 ⟨0, 0, 0⟩
      length_gtsList := rfl }
  pndAddrFields := ⟨0, 0, List.replicate 7 0, List.replicate 7 0,
    length_noShortAddr, length_noExtAddr⟩

/-- Not every payload survives: the length of a GTS is masked before it is shifted. -/
theorem not_roundTrips_beacon : ¬ ∀ p p₀, RoundTrips p p₀ := by
  intro hall
  obtain ⟨octets, hser, -, hread⟩ := hall oneGts oneGts
  cases hser
  obtain ⟨p', hrun, hsame, -⟩ := hread []
  have hlist := hsame.gtsFields.descriptors
  cases hrun
  exact absurd hlist (by decide)

end BeaconPayloadHeader

end Ns3Dsme.Codec
