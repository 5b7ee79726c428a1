/-
# The header of RLC UM PDUs

`LteRlcHeader`: two octets with the framing info, the first extension bit and the sequence number,
and behind them the length indicators.  It is read back as it was pushed.
-/
import Ns3Dsme.Lte.LengthIndicators

namespace Ns3Dsme.Lte

open LengthFields

/-- `LteRlcHeader`. -/
structure LteRlcHeader where
  lengths : LengthFields := {}
  framingInfo : Octet := 0xff
  sequenceNumber : SequenceNumber10 := ⟨tenBits 0xfffa, tenBits 0⟩
  deriving DecidableEq

namespace LteRlcHeader

/-- `SetFramingInfo`. -/
def setFramingInfo (h : LteRlcHeader) (framingInfo : Octet) : LteRlcHeader :=
  { h with framingInfo := framingInfo &&& 0x03 }

/-- `SetSequenceNumber`. -/
def setSequenceNumber (h : LteRlcHeader) (sequenceNumber : SequenceNumber10) : LteRlcHeader :=
  { h with sequenceNumber := sequenceNumber }

/-- `PushExtensionBit`: the first one belongs to the fixed part. -/
def pushExtensionBit (h : LteRlcHeader) (extensionBit : Octet) : LteRlcHeader :=
  let count := h.lengths.extensionBits.length + 1
  let headerLength :=
    if count = 1 then 2
    else if count % 2 = 1 then h.lengths.headerLength + 1
    else h.lengths.headerLength + 2
  { h with
    lengths := { h.lengths with
      headerLength := headerLength
      extensionBits := h.lengths.extensionBits ++ [extensionBit] } }

/-- `PushLengthIndicator`. -/
def pushLengthIndicator (h : LteRlcHeader) (lengthIndicator : BitVec 16) : LteRlcHeader :=
  { h with lengths := h.lengths.pushLengthIndicator lengthIndicator }

/-- `GetSerializedSize`. -/
def getSerializedSize (h : LteRlcHeader) : ℕ := h.lengths.headerLength.toNat

/-- The first octet. -/
def firstOctet (h : LteRlcHeader) (extensionBit : Octet) : Octet :=
  ((h.framingInfo <<< 3) &&& 0x18) ||| ((extensionBit <<< 2) &&& 0x04) |||
    ((h.sequenceNumber.bits >>> 8) &&& 0x0003).setWidth 8

/-- `Serialize`; nothing where the first extension bit is missing. -/
def serialize (h : LteRlcHeader) : Option (List Octet) :=
  match h.lengths.extensionBits with
  | [] => none
  | e :: es =>
    some (h.firstOctet e :: (h.sequenceNumber.bits &&& 0x00FF).setWidth 8 ::
      LengthFields.serialize es h.lengths.lengthIndicators)

/-- `Deserialize`, with the octets that are left. -/
def deserialize (h : LteRlcHeader) : List Octet → Option (LteRlcHeader × List Octet)
  | byte1 :: byte2 :: octets =>
    let extensionBit := (byte1 &&& 0x04) >>> 2
    let fixed : LteRlcHeader :=
      { framingInfo := (byte1 &&& 0x18) >>> 3
        sequenceNumber :=
          h.sequenceNumber.assign (((byte1 &&& 0x03).setWidth 16 <<< 8) ||| byte2.setWidth 16)
        lengths := { h.lengths with
          headerLength := 2
          extensionBits := h.lengths.extensionBits ++ [extensionBit] } }
    if extensionBit = dataFieldFollows then some (fixed, octets)
    else (fixed.lengths.deserialize octets).map fun r => ({ fixed with lengths := r.1 }, r.2)
  | _ => none

/-! ## There and back -/

section

variable {h : LteRlcHeader}

theorem firstOctet_framing {x : Octet} (hx : h.framingInfo = x &&& 0x03) (e : Octet) :
    (h.firstOctet e &&& 0x18) >>> 3 = h.framingInfo := by
  unfold firstOctet
  rw [SequenceNumber10.bits_eq, hx]
  exact eq_of_sameBits (by simp)

theorem firstOctet_extension (h : LteRlcHeader) (lis : List (BitVec 16)) :
    (h.firstOctet (firstBit lis) &&& 0x04) >>> 2 = firstBit lis := by
  unfold firstOctet firstBit
  rw [SequenceNumber10.bits_eq]
  apply BitVec.eq_of_getLsbD_eq
  intro i hi
  split
  · interval_cases i <;> simp [dataFieldFollows]
  · interval_cases i <;> simp [eLiFieldsFollow]

theorem firstOctet_sequenceNumber (h : LteRlcHeader) (e : Octet) :
    ((h.firstOctet e &&& 0x03).setWidth 16 <<< 8) |||
      ((h.sequenceNumber.bits &&& 0x00FF).setWidth 8).setWidth 16 = h.sequenceNumber.bits := by
  unfold firstOctet
  rw [SequenceNumber10.bits_eq]
  exact eq_of_sameBits (by simp)

/-- `PushExtensionBit` counts the octets. -/
theorem charged_pushExtensionBit (hcharged : h.lengths.extensionBits ≠ [] → h.lengths.Charged 2)
    (e : Octet) : (h.pushExtensionBit e).lengths.Charged 2 := by
  unfold LengthFields.Charged at hcharged ⊢
  unfold pushExtensionBit
  dsimp only
  rw [List.length_append, List.length_singleton, Nat.add_sub_cancel]
  cases hcount : h.lengths.extensionBits.length with
  | zero =>
    rw [if_pos rfl]
    decide
  | succ count =>
    have hne : h.lengths.extensionBits ≠ [] := by
      intro hnil
      rw [hnil] at hcount
      cases hcount
    have hlength := hcharged hne
    rw [hcount, Nat.add_sub_cancel] at hlength
    rw [if_neg (by omega), fieldOctets_succ, BitVec.ofNat_add, ← BitVec.add_assoc,
      ← hlength]
    split
    · rfl
    · rfl

end

/-- What the pushes leave in a header with these length indicators. -/
structure IsPushed (h : LteRlcHeader) (lis : List (BitVec 16)) : Prop where
  extensionBits : h.lengths.extensionBits =
    firstBit lis :: following lis
  lengthIndicators : h.lengths.lengthIndicators = lis
  headerLength : h.lengths.headerLength = BitVec.ofNat 16 (2 + fieldOctets lis.length)

/-- What is carried is the same. -/
structure SameFields (h h' : LteRlcHeader) : Prop where
  framingInfo : h'.framingInfo = h.framingInfo
  sequenceNumber : h'.sequenceNumber.value = h.sequenceNumber.value
  extensionBits : h'.lengths.extensionBits = h.lengths.extensionBits
  lengthIndicators : h'.lengths.lengthIndicators = h.lengths.lengthIndicators

/-- The octets of a header with these length indicators. -/
def octetsOf (h : LteRlcHeader) (lis : List (BitVec 16)) : List Octet :=
  h.firstOctet (firstBit lis) :: (h.sequenceNumber.bits &&& 0x00FF).setWidth 8 ::
    LengthFields.serialize (LengthFields.following lis) lis

section

variable {h : LteRlcHeader} {lis : List (BitVec 16)}

theorem IsPushed.serialize_eq (hp : h.IsPushed lis) : h.serialize = some (h.octetsOf lis) := by
  unfold serialize
  rw [hp.extensionBits, hp.lengthIndicators]
  rfl

theorem length_octetsOf (h : LteRlcHeader) (lis : List (BitVec 16)) :
    (h.octetsOf lis).length = 2 + LengthFields.fieldOctets lis.length := by
  unfold octetsOf
  rw [List.length_cons, List.length_cons, LengthFields.length_serialize]
  omega

/-- The length fits as long as it can be counted. -/
theorem IsPushed.getSerializedSize_eq_iff (hp : h.IsPushed lis) :
    h.getSerializedSize = (h.octetsOf lis).length ↔ lis.length < 43689 := by
  unfold getSerializedSize
  rw [hp.headerLength, BitVec.toNat_ofNat, length_octetsOf]
  unfold fieldOctets
  omega

/-- **What is read** into a fresh header. -/
theorem IsPushed.deserialize_eq (hp : h.IsPushed lis) {x : Octet} (hx : h.framingInfo = x &&& 0x03)
    (hlis : ∀ li ∈ lis, li.toNat < 2048) (rest : List Octet) :
    ∃ h', ({} : LteRlcHeader).deserialize (h.octetsOf lis ++ rest) = some (h', rest) ∧
      SameFields h h' ∧ h'.lengths = h.lengths := by
  have hlengths : h.lengths = ⟨2 + BitVec.ofNat 16 (fieldOctets lis.length),
      [firstBit lis] ++ following lis, [] ++ lis⟩ := by
    have hcount := hp.headerLength
    rw [BitVec.ofNat_add] at hcount
    have hbits := hp.extensionBits
    have hindicators := hp.lengthIndicators
    cases hfields : h.lengths with
    | mk headerLength extensionBits lengthIndicators =>
      rw [hfields] at hcount hbits hindicators
      dsimp only at hcount hbits hindicators
      rw [hcount, hbits, hindicators]
      rfl
  unfold octetsOf deserialize
  dsimp only [List.cons_append]
  rw [firstOctet_extension, firstOctet_framing hx, firstOctet_sequenceNumber]
  by_cases hnil : lis = []
  · have hfirst : firstBit lis = dataFieldFollows := if_pos hnil
    rw [if_pos hfirst, hlengths, hnil]
    refine ⟨_, rfl, ⟨rfl, SequenceNumber10.value_assign_bits _ _, ?_, ?_⟩, ?_⟩
    · rw [hlengths, hnil]
      rfl
    · rw [hlengths, hnil]
      rfl
    · show LengthFields.mk 2 _ _ =
        LengthFields.mk (2 + BitVec.ofNat 16 (LengthFields.fieldOctets 0)) _ _
      rfl
  · have hfirst : ¬ LengthFields.firstBit lis = LengthFields.dataFieldFollows := by
      unfold LengthFields.firstBit
      rw [if_neg hnil]
      decide
    rw [if_neg hfirst, deserialize_serialize rest _ _ hnil hlis, hlengths]
    refine ⟨_, rfl, ⟨rfl, SequenceNumber10.value_assign_bits _ _, ?_, ?_⟩, rfl⟩
    · rw [hlengths]
      rfl
    · rw [hlengths]

end

end LteRlcHeader

end Ns3Dsme.Lte
