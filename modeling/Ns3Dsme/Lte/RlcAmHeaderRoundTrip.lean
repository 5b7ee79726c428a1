/-
# The header of RLC AM PDUs, there and back

A header that is built with the setters is read back field by field, as long as its length fits the
sixteen bits that count it; but of a segment offset only the lower octet is.
-/
import Ns3Dsme.Lte.RlcAmHeaderCodec

open List

namespace Ns3Dsme.Lte

open SequenceNumber10 LengthFields

namespace AmHeader

/-! ## Headers as they are built -/

/-- The pushes of the transmitter, for all segments but the last. -/
def pushSegments (h : AmHeader) : List (BitVec 16) → AmHeader
  | [] => h.pushExtensionBit dataFieldFollows
  | li :: lis =>
    ((h.pushExtensionBit eLiFieldsFollow).pushLengthIndicator li).pushSegments lis

/-- What the setters of a data PDU are called with. -/
structure DataFields where
  sequenceNumber : SequenceNumber10
  framingInfo : Octet
  resegmentationFlag : Octet
  pollingBit : Octet
  lastSegmentFlag : Octet
  segmentOffset : BitVec 16
  lengthIndicators : List (BitVec 16)

/-- A data PDU. -/
def ofData (uninitialized : Octet) (d : DataFields) : AmHeader :=
  let pushed := (new uninitialized).setDataPdu.pushSegments d.lengthIndicators
  let flagged := ((pushed.setSequenceNumber d.sequenceNumber).setFramingInfo
    d.framingInfo).setResegmentationFlag d.resegmentationFlag
  ((flagged.setPollingBit d.pollingBit).setLastSegmentFlag d.lastSegmentFlag).setSegmentOffset
    d.segmentOffset

/-- The pushes of NACK_SNs. -/
def pushNacks (h : AmHeader) : List (BitVec 32) → Option AmHeader
  | [] => some h
  | nack :: nacks => do
    let pushed ← h.pushNack nack
    pushed.pushNacks nacks

/-- A STATUS PDU. -/
def ofStatus (uninitialized : Octet) (ackSn : SequenceNumber10) (nacks : List (BitVec 32)) :
    Option AmHeader := do
  let pushed ← ((new uninitialized).setControlPdu statusPdu).pushNacks nacks
  return pushed.setAckSn ackSn

/-! ## What is expected -/

/-- What a data PDU carries is the same. -/
structure SameData (h h' : AmHeader) : Prop where
  dataControlBit : h'.dataControlBit = h.dataControlBit
  resegmentationFlag : h'.resegmentationFlag = h.resegmentationFlag
  pollingBit : h'.pollingBit = h.pollingBit
  framingInfo : h'.framingInfo = h.framingInfo
  sequenceNumber : h'.sequenceNumber.value = h.sequenceNumber.value
  lastSegmentFlag : h'.lastSegmentFlag = h.lastSegmentFlag
  segmentOffset : h'.segmentOffset = h.segmentOffset
  extensionBits : h'.lengths.extensionBits = h.lengths.extensionBits
  lengthIndicators : h'.lengths.lengthIndicators = h.lengths.lengthIndicators

/-- What a STATUS PDU carries is the same. -/
structure SameStatus (h h' : AmHeader) : Prop where
  dataControlBit : h'.dataControlBit = h.dataControlBit
  controlPduType : h'.controlPduType = h.controlPduType
  ackSn : h'.ackSn.value = h.ackSn.value
  nackSnList : h'.nackSnList = h.nackSnList

/-- A fresh header reads back the same fields from exactly the octets that were written, and both
headers say how many they are. -/
def RoundTrips (Same : AmHeader → AmHeader → Prop) (h : AmHeader) : Prop :=
  ∃ octets, h.serialize = some octets ∧ h.getSerializedSize = octets.length ∧
    ∀ uninitialized rest, ∃ h', (new uninitialized).deserialize (octets ++ rest) = some (h', rest) ∧
      Same h h' ∧ h'.getSerializedSize = octets.length

/-! ## Extension bits -/

variable {h : AmHeader} {nacks : List (BitVec 32)} (uninitialized : Octet)

theorem charged_pushExtensionBit (hcharged : h.lengths.Charged 4) (e : Octet) :
    (h.pushExtensionBit e).lengths.Charged 4 := by
  unfold LengthFields.Charged at hcharged ⊢
  unfold pushExtensionBit
  dsimp only
  rw [length_append, length_singleton, Nat.add_sub_cancel]
  cases hcount : h.lengths.extensionBits.length with
  | zero =>
    rw [hcount] at hcharged
    rw [if_neg (by decide), hcharged]
  | succ count =>
    rw [hcount, Nat.add_sub_cancel] at hcharged
    rw [if_pos (by omega), fieldOctets_succ, BitVec.ofNat_add, ← BitVec.add_assoc,
      ← hcharged]
    split
    · rfl
    · rfl

theorem pushSegments_spec (lis : List (BitVec 16)) (h : AmHeader) :
    ∃ lengths : LengthFields, h.pushSegments lis = { h with lengths := lengths } ∧
      lengths.extensionBits = h.lengths.extensionBits ++
        (List.replicate lis.length eLiFieldsFollow ++
          [dataFieldFollows]) ∧
      lengths.lengthIndicators = h.lengths.lengthIndicators ++ lis ∧
      (h.lengths.Charged 4 → lengths.Charged 4) := by
  induction lis generalizing h with
  | nil =>
    exact ⟨_, rfl, rfl, (append_nil _).symm,
      fun hcharged => charged_pushExtensionBit hcharged _⟩
  | cons li lis ih =>
    obtain ⟨lengths, hpush, hbits, hlis, hcharged⟩ :=
      ih ((h.pushExtensionBit eLiFieldsFollow).pushLengthIndicator li)
    refine ⟨lengths, hpush, ?_, ?_, ?_⟩
    · rw [hbits]
      show (h.lengths.extensionBits ++ [eLiFieldsFollow]) ++ _ = _
      rw [append_assoc]
      rfl
    · rw [hlis]
      show (h.lengths.lengthIndicators ++ [li]) ++ lis = _
      rw [append_assoc]
      rfl
    · intro h4
      exact hcharged (charged_pushExtensionBit h4 _)

/-! ## The fixed part of a data PDU -/

section

variable {h : AmHeader} {e : Octet}

theorem firstOctet_dataControl (h : AmHeader) (e : Octet) :
    (h.firstOctet e &&& 0x80) >>> 7 = dataPdu := by
  unfold firstOctet
  rw [bits_eq]
  exact eq_of_sameBits (by simp [dataPdu])

variable {x : Octet}

theorem firstOctet_resegmentation (hx : h.resegmentationFlag = x &&& 0x01) (e : Octet) :
    (h.firstOctet e &&& 0x40) >>> 6 = h.resegmentationFlag := by
  unfold firstOctet
  rw [bits_eq, hx]
  exact eq_of_sameBits (by simp [dataPdu])

theorem firstOctet_polling (hx : h.pollingBit = x &&& 0x01) (e : Octet) :
    (h.firstOctet e &&& 0x20) >>> 5 = h.pollingBit := by
  unfold firstOctet
  rw [bits_eq, hx]
  exact eq_of_sameBits (by simp [dataPdu])

theorem firstOctet_framing (hx : h.framingInfo = x &&& 0x03) (e : Octet) :
    (h.firstOctet e &&& 0x18) >>> 3 = h.framingInfo := by
  unfold firstOctet
  rw [bits_eq, hx]
  exact eq_of_sameBits (by simp [dataPdu])

theorem firstOctet_extension (h : AmHeader) (lis : List (BitVec 16)) :
    (h.firstOctet (firstBit lis) &&& 0x04) >>> 2 = firstBit lis := by
  unfold firstOctet firstBit
  rw [bits_eq]
  apply BitVec.eq_of_getLsbD_eq
  intro i hi
  split
  · interval_cases i <;> simp [dataPdu, dataFieldFollows]
  · interval_cases i <;> simp [dataPdu, eLiFieldsFollow]

theorem firstOctet_sequenceNumber (h : AmHeader) (e : Octet) :
    ((h.firstOctet e &&& 0x03).setWidth 16 <<< 8) |||
      ((h.sequenceNumber.bits &&& 0x00FF).setWidth 8).setWidth 16 = h.sequenceNumber.bits := by
  unfold firstOctet
  rw [bits_eq]
  exact eq_of_sameBits (by simp [dataPdu])

theorem thirdOctet_lastSegment (hx : h.lastSegmentFlag = x &&& 0x01) :
    (h.thirdOctet &&& 0x80) >>> 7 = h.lastSegmentFlag := by
  unfold thirdOctet
  rw [hx]
  exact eq_of_sameBits (by simp)

end

/-- What is read of a segment offset. -/
def readOffset (h : AmHeader) : BitVec 16 :=
  (h.thirdOctet &&& 0x7F).setWidth 16 ||| ((h.segmentOffset &&& 0x00FF).setWidth 8).setWidth 16

/-- The upper octet of a segment offset is not shifted back. -/
theorem readOffset_eq_iff (h : AmHeader) :
    h.readOffset = h.segmentOffset ↔ h.segmentOffset.toNat < 256 := by
  constructor
  · intro heq
    rw [← heq]
    unfold readOffset
    rw [← BitVec.setWidth_or, BitVec.toNat_setWidth]
    have hlt := ((h.thirdOctet &&& 0x7F) ||| (h.segmentOffset &&& 0x00FF).setWidth 8).isLt
    omega
  · intro hlt
    have hlow : h.segmentOffset = (h.segmentOffset.setWidth 8).setWidth 16 := by
      apply BitVec.eq_of_toNat_eq
      rw [BitVec.toNat_setWidth, BitVec.toNat_setWidth]
      omega
    unfold readOffset thirdOctet
    generalize h.segmentOffset.setWidth 8 = x at hlow
    rw [hlow]
    exact eq_of_sameBits (by simp)

/-! ## Data PDUs -/

/-- What the setters leave in the header of a data PDU. -/
structure IsData (h : AmHeader) (d : DataFields) : Prop where
  dataControlBit : h.dataControlBit = dataPdu
  resegmentationFlag : h.resegmentationFlag = d.resegmentationFlag &&& 0x01
  pollingBit : h.pollingBit = d.pollingBit &&& 0x01
  framingInfo : h.framingInfo = d.framingInfo &&& 0x03
  lastSegmentFlag : h.lastSegmentFlag = d.lastSegmentFlag &&& 0x01
  segmentOffset : h.segmentOffset = d.segmentOffset &&& 0x7FFF
  lengths : h.lengths = ⟨BitVec.ofNat 16 (4 + fieldOctets d.lengthIndicators.length),
    firstBit d.lengthIndicators :: following d.lengthIndicators,
    d.lengthIndicators⟩

theorem isData_ofData (d : DataFields) :
    (ofData uninitialized d).IsData d := by
  obtain ⟨lengths, hpush, hbits, hlis, hcharged⟩ :=
    pushSegments_spec d.lengthIndicators (new uninitialized).setDataPdu
  have hsame : (ofData uninitialized d).lengths = lengths := by
    unfold ofData
    rw [hpush]
    rfl
  have hcontrol : (ofData uninitialized d).dataControlBit = dataPdu := by
    unfold ofData
    rw [hpush]
    rfl
  refine ⟨hcontrol, rfl, rfl, rfl, rfl, rfl, ?_⟩
  have hbits' : lengths.extensionBits = firstBit d.lengthIndicators ::
      following d.lengthIndicators := by
    rw [hbits, replicate_append_eq]
    rfl
  have hlength : lengths.headerLength =
      BitVec.ofNat 16 (4 + fieldOctets d.lengthIndicators.length) := by
    have hfixed : (new uninitialized).setDataPdu.lengths.Charged 4 := by
      show (4 : BitVec 16) = 4 + BitVec.ofNat 16 (fieldOctets 0)
      decide
    have hcount := hcharged hfixed
    unfold LengthFields.Charged at hcount
    rw [hbits', length_cons, Nat.add_sub_cancel, length_following] at hcount
    rw [hcount, BitVec.ofNat_add]
    rfl
  have hlis' : lengths.lengthIndicators = d.lengthIndicators := hlis
  rw [hsame, ← hlength, ← hbits', ← hlis']

section

variable {h : AmHeader} {d : DataFields}

/-- What is written. -/
theorem IsData.serialize_eq (hd : h.IsData d) :
    h.serialize = some (h.fixedOctets (firstBit d.lengthIndicators) ++
      LengthFields.serialize (LengthFields.following d.lengthIndicators) d.lengthIndicators) := by
  unfold serialize
  rw [if_pos hd.dataControlBit, hd.lengths]

theorem length_data (h : AmHeader) (e : Octet) (lis : List (BitVec 16)) :
    (h.fixedOctets e ++ LengthFields.serialize (LengthFields.following lis) lis).length =
      4 + LengthFields.fieldOctets lis.length := by
  rw [length_append, LengthFields.length_serialize]
  rfl

/-- **What is read** of a data PDU. -/
theorem IsData.deserialize_eq (hd : h.IsData d) (hlis : ∀ li ∈ d.lengthIndicators, li.toNat < 2048)
    (uninitialized : Octet) (rest : List Octet) :
    ∃ h', (new uninitialized).deserialize
        (h.fixedOctets (firstBit d.lengthIndicators) ++
          LengthFields.serialize (LengthFields.following d.lengthIndicators) d.lengthIndicators ++
            rest) = some (h', rest) ∧
      h'.dataControlBit = h.dataControlBit ∧ h'.resegmentationFlag = h.resegmentationFlag ∧
      h'.pollingBit = h.pollingBit ∧ h'.framingInfo = h.framingInfo ∧
      h'.sequenceNumber.value = h.sequenceNumber.value ∧
      h'.lastSegmentFlag = h.lastSegmentFlag ∧ h'.segmentOffset = h.readOffset ∧
      h'.lengths = h.lengths := by
  unfold deserialize fixedOctets
  dsimp only [cons_append]
  rw [firstOctet_dataControl, if_pos rfl]
  unfold deserializeData
  dsimp only [cons_append, nil_append]
  rw [firstOctet_extension, firstOctet_resegmentation hd.resegmentationFlag,
    firstOctet_polling hd.pollingBit, firstOctet_framing hd.framingInfo,
    thirdOctet_lastSegment hd.lastSegmentFlag, firstOctet_sequenceNumber]
  by_cases hnil : d.lengthIndicators = []
  · have hfirst : firstBit d.lengthIndicators = dataFieldFollows :=
      if_pos hnil
    rw [if_pos hfirst, hd.lengths, hnil]
    exact ⟨_, rfl, hd.dataControlBit.symm, rfl, rfl, rfl,
      value_assign_bits _ _, rfl, rfl, rfl⟩
  · have hfirst : ¬ LengthFields.firstBit d.lengthIndicators = LengthFields.dataFieldFollows := by
      unfold LengthFields.firstBit
      rw [if_neg hnil]
      decide
    rw [if_neg hfirst, deserialize_serialize rest _ _ hnil hlis]
    have hlengths : h.lengths = ⟨1 + 3 + BitVec.ofNat 16
        (fieldOctets d.lengthIndicators.length),
        [firstBit d.lengthIndicators] ++ following d.lengthIndicators,
        [] ++ d.lengthIndicators⟩ := by
      rw [hd.lengths, BitVec.ofNat_add]
      rfl
    rw [hlengths]
    dsimp only
    split
    · exact ⟨_, rfl, hd.dataControlBit.symm, rfl, rfl, rfl,
        value_assign_bits _ _, rfl, rfl, rfl⟩
    · exact ⟨_, rfl, hd.dataControlBit.symm, rfl, rfl, rfl,
        value_assign_bits _ _, rfl, rfl, rfl⟩

/-- The length fits as long as it can be counted. -/
theorem IsData.getSerializedSize_eq_iff (hd : h.IsData d) :
    h.getSerializedSize = 4 + fieldOctets d.lengthIndicators.length ↔
      d.lengthIndicators.length ≤ 43687 := by
  unfold getSerializedSize
  rw [hd.lengths]
  show (BitVec.ofNat 16 _).toNat = _ ↔ _
  rw [BitVec.toNat_ofNat]
  unfold fieldOctets
  omega

/-- **When a data PDU comes back**: the upper octet of its segment offset is clear, and its length
can be counted. -/
theorem IsData.readsBack_iff (hd : h.IsData d) (hlis : ∀ li ∈ d.lengthIndicators, li.toNat < 2048) :
    h.RoundTrips SameData ↔
      (d.segmentOffset &&& 0x7FFF).toNat < 256 ∧ d.lengthIndicators.length ≤ 43687 := by
  rw [← hd.segmentOffset, ← readOffset_eq_iff, ← hd.getSerializedSize_eq_iff]
  constructor
  · rintro ⟨octets, hserialize, hsize, hread⟩
    rw [hd.serialize_eq] at hserialize
    have hoctets := Option.some.inj hserialize
    obtain ⟨h', hrun, hsame, -⟩ := hread 0 []
    obtain ⟨h'', hrun', -, -, -, -, -, -, hoffset, -⟩ := hd.deserialize_eq hlis 0 []
    rw [hoctets, hrun] at hrun'
    have heq : h' = h'' := congrArg Prod.fst (Option.some.inj hrun')
    constructor
    · rw [← hoffset, ← heq, hsame.segmentOffset]
    · rw [hsize, ← hoctets, length_data]
  · rintro ⟨hoffset, hsize⟩
    refine ⟨_, hd.serialize_eq, ?_, ?_⟩
    · rw [hsize, length_data]
    · intro uninitialized rest
      obtain ⟨h', hrun, hcontrol, hreseg, hpoll, hframing, hsn, hlast, hso, hlengths⟩ :=
        hd.deserialize_eq hlis uninitialized rest
      refine ⟨h', hrun, ⟨hcontrol, hreseg, hpoll, hframing, hsn, hlast, ?_, ?_, ?_⟩, ?_⟩
      · rw [hso, hoffset]
      · rw [hlengths]
      · rw [hlengths]
      · rw [length_data, ← hsize]
        unfold getSerializedSize
        rw [hlengths]

end

/-! ## STATUS PDUs -/

/-- A NACK_SN of ten bits. -/
theorem exists_ten {nack : BitVec 32} (h : nack.toNat < 1024) :
    ∃ x : BitVec 10, nack = x.setWidth 32 := by
  refine ⟨nack.setWidth 10, ?_⟩
  apply BitVec.eq_of_toNat_eq
  rw [BitVec.toNat_setWidth, BitVec.toNat_setWidth]
  omega

section

variable {nack : BitVec 32}

theorem readOddNack_ackOctet (hnack : nack.toNat < 1024) (h : AmHeader) {byte3 : Octet}
    (hbyte : byte3 &&& 0x80 = oddLow nack) :
    readOddNack (h.ackOctet ||| firstNackBits nack) (oddHigh nack) byte3 = nack := by
  obtain ⟨x, rfl⟩ := exists_ten hnack
  unfold readOddNack
  rw [hbyte]
  unfold ackOctet firstNackBits oddHigh oddLow
  exact eq_of_sameBits (by simp)

theorem readOddNack_nextOdd (hnack : nack.toNat < 1024) (even : BitVec 32) {byte3 : Octet}
    (hbyte : byte3 &&& 0x80 = oddLow nack) :
    readOddNack (evenLow even ||| nextOdd nack) (oddHigh nack) byte3 = nack := by
  obtain ⟨x, rfl⟩ := exists_ten hnack
  unfold readOddNack
  rw [hbyte]
  unfold evenLow nextOdd oddHigh oddLow
  exact eq_of_sameBits (by simp)

theorem oddLow_and (nack even : BitVec 32) :
    (oddLow nack ||| evenHigh even) &&& 0x80 = oddLow nack := by
  unfold oddLow evenHigh
  exact eq_of_sameBits (by simp)

theorem oddLow_and_self (nack : BitVec 32) : oddLow nack &&& 0x80 = oddLow nack := by
  unfold oddLow
  exact eq_of_sameBits (by simp)

/-- Another NACK_SN follows one at an odd place. -/
theorem moreNacks_evenHigh (nack even : BitVec 32) :
    ((oddLow nack ||| evenHigh even) &&& 0x40) >>> 6 = 1 := by
  unfold oddLow evenHigh
  exact eq_of_sameBits (by simp)

theorem noMoreNacks_oddLow (nack : BitVec 32) : (oddLow nack &&& 0x40) >>> 6 = 0 := by
  unfold oddLow
  exact eq_of_sameBits (by simp)

/-- Another NACK_SN follows one at an even place. -/
theorem moreNacks_nextOdd (even nack : BitVec 32) :
    ((evenLow even ||| nextOdd nack) &&& 0x04) >>> 2 = 1 := by
  unfold evenLow nextOdd
  exact eq_of_sameBits (by simp)

theorem noMoreNacks_evenLow (even : BitVec 32) : (evenLow even &&& 0x04) >>> 2 = 0 := by
  unfold evenLow
  exact eq_of_sameBits (by simp)

theorem readEvenNack_evenLow (hnack : nack.toNat < 1024) (odd : BitVec 32) {byte2 : Octet}
    (hbyte : byte2 &&& 0xF8 = evenLow nack) :
    readEvenNack (oddLow odd ||| evenHigh nack) byte2 = nack := by
  obtain ⟨x, rfl⟩ := exists_ten hnack
  unfold readEvenNack
  rw [hbyte]
  unfold evenLow oddLow evenHigh
  exact eq_of_sameBits (by simp)

theorem evenLow_and (even nack : BitVec 32) :
    (evenLow even ||| nextOdd nack) &&& 0xF8 = evenLow even := by
  unfold evenLow nextOdd
  exact eq_of_sameBits (by simp)

theorem evenLow_and_self (even : BitVec 32) : evenLow even &&& 0xF8 = evenLow even := by
  unfold evenLow
  exact eq_of_sameBits (by simp)

end

/-- The octets behind the upper bits of a NACK_SN at an even place. -/
def evenTail (even : BitVec 32) : List (BitVec 32) → List Octet
  | [] => [evenLow even]
  | odd :: nacks => (evenLow even ||| nextOdd odd) :: serializeNacks odd nacks

theorem serializeNacks_cons (odd even : BitVec 32) (nacks : List (BitVec 32)) :
    serializeNacks odd (even :: nacks) =
      oddHigh odd :: (oddLow odd ||| evenHigh even) :: evenTail even nacks := by
  cases nacks with
  | nil => rfl
  | cons odd' nacks =>
    rw [serializeNacks]
    rfl

theorem length_serializeNacks : ∀ (nacks : List (BitVec 32)) (odd : BitVec 32),
    (serializeNacks odd nacks).length = fieldOctets (nacks.length + 1)
  | [], _ => by
    show 2 = fieldOctets 1
    rfl
  | [_], _ => by
    show 3 = fieldOctets 2
    rfl
  | _ :: odd' :: nacks, odd => by
    rw [serializeNacks_cons]
    show (serializeNacks odd' nacks).length + 3 = _
    rw [length_serializeNacks nacks odd']
    unfold fieldOctets
    simp only [length_cons]
    omega

theorem addNacks_addNacks (h : AmHeader) (nacks nacks' : List (BitVec 32))
    (octets octets' : BitVec 16) :
    (h.addNacks nacks octets).addNacks nacks' octets' =
      h.addNacks (nacks ++ nacks') (octets + octets') := by
  unfold addNacks
  dsimp only
  rw [append_assoc, BitVec.add_assoc]

/-- **The loop over the NACK_SNs** reads them as they were written. -/
theorem readNacks_evenTail (rest : List Octet) : ∀ (nacks : List (BitVec 32)) (odd even : BitVec 32)
    (h : AmHeader), even.toNat < 1024 → (∀ nack ∈ nacks, nack.toNat < 1024) →
      h.readNacks (oddLow odd ||| evenHigh even) (evenTail even nacks ++ rest) =
        some (h.addNacks (even :: nacks) (BitVec.ofNat 16 (evenTail even nacks).length), rest)
  | [], odd, even, h, heven, _ => by
    have hlast : ¬ (evenLow even &&& 0x04) >>> 2 = 1 := by
      rw [noMoreNacks_evenLow]
      decide
    show h.readNacks _ (evenLow even :: rest) = _
    unfold readNacks
    rw [readEvenNack_evenLow heven odd (evenLow_and_self even)]
    dsimp only
    rw [if_neg hlast]
    rfl
  | [odd'], odd, even, h, heven, hnacks => by
    have hodd := hnacks odd' (mem_singleton.mpr rfl)
    have hlast : ¬ (oddLow odd' &&& 0x40) >>> 6 = 1 := by
      rw [noMoreNacks_oddLow]
      decide
    show h.readNacks _ ((evenLow even ||| nextOdd odd') :: oddHigh odd' :: oddLow odd' :: rest) = _
    unfold readNacks
    rw [readEvenNack_evenLow heven odd (evenLow_and even odd')]
    dsimp only
    rw [if_pos (moreNacks_nextOdd even odd'), if_neg hlast,
      readOddNack_nextOdd hodd even (oddLow_and_self odd')]
    rfl
  | odd' :: even' :: nacks, odd, even, h, heven, hnacks => by
    have hodd := hnacks odd' (mem_cons_self ..)
    have heven' := hnacks even' (mem_cons_of_mem _ (mem_cons_self ..))
    have hrest := readNacks_evenTail rest nacks odd' even' (h.addNacks [even, odd'] 3) heven'
      (fun nack hnack => hnacks nack (mem_cons_of_mem _ (mem_cons_of_mem _ hnack)))
    have htail : evenTail even (odd' :: even' :: nacks) = (evenLow even ||| nextOdd odd') ::
        oddHigh odd' :: (oddLow odd' ||| evenHigh even') :: evenTail even' nacks :=
      congrArg _ (serializeNacks_cons odd' even' nacks)
    rw [htail]
    show h.readNacks _ ((evenLow even ||| nextOdd odd') :: oddHigh odd' ::
      (oddLow odd' ||| evenHigh even') :: (evenTail even' nacks ++ rest)) = _
    unfold readNacks
    rw [readEvenNack_evenLow heven odd (evenLow_and even odd')]
    dsimp only
    rw [if_pos (moreNacks_nextOdd even odd'), if_pos (moreNacks_evenHigh odd' even'),
      readOddNack_nextOdd hodd even (oddLow_and odd' even'), hrest, addNacks_addNacks]
    have hlength : (BitVec.ofNat 16 ((evenLow even ||| nextOdd odd') :: oddHigh odd' ::
        (oddLow odd' ||| evenHigh even') :: evenTail even' nacks).length) =
        3 + BitVec.ofNat 16 (evenTail even' nacks).length := by
      have hcount : (evenTail even' nacks).length + 1 + 1 + 1 =
          3 + (evenTail even' nacks).length := by omega
      simp only [length_cons]
      rw [hcount, BitVec.ofNat_add]
      rfl
    rw [hlength]
    rfl

/-- What the setters leave in the header of a STATUS PDU. -/
structure IsStatus (h : AmHeader) (nacks : List (BitVec 32)) : Prop where
  dataControlBit : h.dataControlBit = controlPdu
  controlPduType : h.controlPduType = statusPdu
  nackSnList : h.nackSnList = nacks
  headerLength : h.lengths.headerLength =
    BitVec.ofNat 16 (2 + fieldOctets nacks.length)

theorem IsStatus.isStatusPdu (hs : h.IsStatus nacks) :
    h.isStatusPdu = true := by
  unfold AmHeader.isStatusPdu
  rw [hs.dataControlBit, hs.controlPduType]
  rfl

/-- `PushNack` counts two octets, or the one that is left of three. -/
theorem IsStatus.pushNack (hs : h.IsStatus nacks) (nack : BitVec 32) :
    ∃ h', h.pushNack nack = some h' ∧ h'.IsStatus (nacks ++ [nack]) ∧
      h'.ackSn = h.ackSn := by
  have hlength := hs.headerLength
  unfold AmHeader.pushNack
  rw [if_pos hs.isStatusPdu]
  refine ⟨_, rfl, ⟨hs.dataControlBit, hs.controlPduType, ?_, ?_⟩, rfl⟩
  · rw [← hs.nackSnList]
  · dsimp only
    rw [hs.nackSnList, hlength, length_append, length_singleton]
    split
    · have hcount : 2 + fieldOctets (nacks.length + 1) =
          2 + fieldOctets nacks.length + 1 := by
        unfold fieldOctets
        omega
      rw [hcount, BitVec.ofNat_add _ 1]
      rfl
    · have hcount : 2 + fieldOctets (nacks.length + 1) =
          2 + fieldOctets nacks.length + 2 := by
        unfold fieldOctets
        omega
      rw [hcount, BitVec.ofNat_add _ 2]
      rfl

theorem IsStatus.pushNacks {pushed : List (BitVec 32)} (hs : h.IsStatus pushed)
    (nacks : List (BitVec 32)) : ∃ h', h.pushNacks nacks = some h' ∧
      h'.IsStatus (pushed ++ nacks) := by
  induction nacks generalizing h pushed with
  | nil =>
    refine ⟨h, rfl, ?_⟩
    rw [append_nil]
    exact hs
  | cons nack nacks ih =>
    obtain ⟨h₁, hpush, hs₁, -⟩ := hs.pushNack nack
    obtain ⟨h₂, hrest, hs₂⟩ := ih hs₁
    refine ⟨h₂, ?_, ?_⟩
    · unfold AmHeader.pushNacks
      rw [hpush]
      exact hrest
    · rw [append_assoc] at hs₂
      exact hs₂

/-- An empty STATUS PDU. -/
theorem isStatus_setControlPdu : ((new uninitialized).setControlPdu statusPdu).IsStatus [] := by
  refine ⟨rfl, rfl, rfl, ?_⟩
  show (2 : BitVec 16) = BitVec.ofNat 16 (2 + fieldOctets 0)
  decide

/-- ACK_SN is apart from the NACK_SNs. -/
theorem IsStatus.setAckSn (hs : h.IsStatus nacks) (ackSn : SequenceNumber10) :
    (h.setAckSn ackSn).IsStatus nacks :=
  { hs with }

theorem exists_ofStatus (ackSn : SequenceNumber10) (nacks : List (BitVec 32)) :
    ∃ h, ofStatus uninitialized ackSn nacks = some h ∧
      h.IsStatus nacks ∧ h.ackSn = ackSn := by
  obtain ⟨h, hpush, hs⟩ := (isStatus_setControlPdu uninitialized).pushNacks nacks
  refine ⟨h.setAckSn ackSn, ?_, hs.setAckSn ackSn, rfl⟩
  unfold ofStatus
  rw [hpush]
  rfl

section

variable {h : AmHeader} {nacks : List (BitVec 32)}

/-- The first octet of a STATUS PDU. -/
def statusOctet (h : AmHeader) : Octet :=
  ((controlPdu <<< 7) &&& 0x80) ||| ((h.controlPduType <<< 4) &&& 0x70) |||
    ((h.ackSn.bits >>> 6) &&& 0x0F).setWidth 8

theorem statusOctet_dataControl (h : AmHeader) :
    (h.statusOctet &&& 0x80) >>> 7 = controlPdu := by
  unfold statusOctet
  exact eq_of_sameBits (by simp [controlPdu])

theorem statusOctet_controlPduType (hs : h.IsStatus nacks) :
    (h.statusOctet &&& 0x70) >>> 4 = statusPdu := by
  unfold statusOctet
  rw [hs.controlPduType]
  exact eq_of_sameBits (by simp [controlPdu, statusPdu])

/-- ACK_SN goes across two octets. -/
theorem statusOctet_ackSn (h : AmHeader) {byte2 : Octet} (hbyte : byte2 &&& 0xFC = h.ackOctet) :
    ((h.statusOctet &&& 0x0F).setWidth 16 <<< 6) ||| ((byte2 &&& 0xFC) >>> 2).setWidth 16 =
      h.ackSn.bits := by
  rw [hbyte]
  unfold statusOctet ackOctet
  rw [bits_eq]
  exact eq_of_sameBits (by simp [controlPdu])

theorem ackOctet_and (h : AmHeader) (nack : BitVec 32) :
    (h.ackOctet ||| firstNackBits nack) &&& 0xFC = h.ackOctet := by
  unfold ackOctet firstNackBits
  exact eq_of_sameBits (by simp)

theorem ackOctet_and_self (h : AmHeader) : h.ackOctet &&& 0xFC = h.ackOctet := by
  unfold ackOctet
  exact eq_of_sameBits (by simp)

theorem moreNacks_ackOctet (h : AmHeader) (nack : BitVec 32) :
    ((h.ackOctet ||| firstNackBits nack) &&& 0x02) >>> 1 = 1 := by
  unfold ackOctet firstNackBits
  exact eq_of_sameBits (by simp)

theorem noMoreNacks_ackOctet (h : AmHeader) : (h.ackOctet &&& 0x02) >>> 1 = 0 := by
  unfold ackOctet
  exact eq_of_sameBits (by simp)

/-- What is written of a STATUS PDU. -/
def statusOctets (h : AmHeader) : List (BitVec 32) → List Octet
  | [] => [h.statusOctet, h.ackOctet]
  | nack :: nacks =>
    h.statusOctet :: (h.ackOctet ||| firstNackBits nack) :: serializeNacks nack nacks

theorem IsStatus.serialize_eq (hs : h.IsStatus nacks) :
    h.serialize = some (h.statusOctets nacks) := by
  have hnot : ¬ h.dataControlBit = dataPdu := by
    rw [hs.dataControlBit]
    decide
  unfold serialize
  rw [if_neg hnot, hs.nackSnList]
  cases nacks with
  | nil => rfl
  | cons nack nacks => rfl

theorem length_statusOctets (h : AmHeader) (nacks : List (BitVec 32)) :
    (h.statusOctets nacks).length = 2 + fieldOctets nacks.length := by
  cases nacks with
  | nil => rfl
  | cons nack nacks =>
    show (serializeNacks nack nacks).length + 1 + 1 = _
    rw [length_serializeNacks]
    exact Nat.add_comm _ 2

/-- **What is read** of a STATUS PDU. -/
theorem IsStatus.deserialize_eq (hs : h.IsStatus nacks) (hnacks : ∀ nack ∈ nacks, nack.toNat < 1024)
    (uninitialized : Octet) (rest : List Octet) :
    ∃ h', (new uninitialized).deserialize (h.statusOctets nacks ++ rest) = some (h', rest) ∧
      h'.dataControlBit = h.dataControlBit ∧ h'.controlPduType = h.controlPduType ∧
      h'.ackSn.value = h.ackSn.value ∧ h'.nackSnList = nacks ∧
      h'.lengths.headerLength = h.lengths.headerLength := by
  have hcontrol : ¬ controlPdu = dataPdu := by decide
  cases nacks with
  | nil =>
    have hnone : ¬ (h.ackOctet &&& 0x02) >>> 1 = 1 := by
      rw [noMoreNacks_ackOctet]
      decide
    unfold statusOctets deserialize
    dsimp only [cons_append]
    rw [statusOctet_dataControl, if_neg hcontrol]
    unfold deserializeControl
    dsimp only [cons_append, nil_append]
    rw [statusOctet_controlPduType hs, statusOctet_ackSn h (ackOctet_and_self h), if_neg hnone]
    refine ⟨_, rfl, hs.dataControlBit.symm, hs.controlPduType.symm,
      value_assign_bits _ _, rfl, ?_⟩
    rw [hs.headerLength]
    rfl
  | cons nack nacks =>
    have hnack := hnacks nack (mem_cons_self ..)
    cases nacks with
    | nil =>
      have hlast : ¬ (oddLow nack &&& 0x40) >>> 6 = 1 := by
        rw [noMoreNacks_oddLow]
        decide
      unfold statusOctets deserialize
      dsimp only [cons_append]
      rw [statusOctet_dataControl, if_neg hcontrol]
      unfold deserializeControl serializeNacks
      dsimp only [cons_append, nil_append]
      rw [statusOctet_controlPduType hs, statusOctet_ackSn h (ackOctet_and h nack),
        if_pos (moreNacks_ackOctet h nack), if_neg hlast,
        readOddNack_ackOctet hnack h (oddLow_and_self nack)]
      refine ⟨_, rfl, hs.dataControlBit.symm, hs.controlPduType.symm,
        value_assign_bits _ _, rfl, ?_⟩
      rw [hs.headerLength]
      show (4 : BitVec 16) = BitVec.ofNat 16 (2 + fieldOctets 1)
      decide
    | cons even nacks =>
      have heven := hnacks even (mem_cons_of_mem _ (mem_cons_self ..))
      have hrest : ∀ nack ∈ nacks, nack.toNat < 1024 := fun nack hmem =>
        hnacks nack (mem_cons_of_mem _ (mem_cons_of_mem _ hmem))
      unfold statusOctets deserialize
      dsimp only [cons_append]
      rw [statusOctet_dataControl, if_neg hcontrol]
      unfold deserializeControl
      rw [serializeNacks_cons]
      dsimp only [cons_append, nil_append]
      rw [statusOctet_controlPduType hs, statusOctet_ackSn h (ackOctet_and h nack),
        if_pos (moreNacks_ackOctet h nack), if_pos (moreNacks_evenHigh nack even),
        readOddNack_ackOctet hnack h (oddLow_and nack even),
        readNacks_evenTail rest nacks nack even _ heven hrest]
      refine ⟨_, rfl, hs.dataControlBit.symm, hs.controlPduType.symm,
        value_assign_bits _ _, rfl, ?_⟩
      rw [hs.headerLength]
      show (4 : BitVec 16) + BitVec.ofNat 16 (evenTail even nacks).length = _
      have hlength := length_serializeNacks (even :: nacks) nack
      rw [serializeNacks_cons, length_cons, length_cons] at hlength
      have hcount : 2 + fieldOctets (nack :: even :: nacks).length =
          4 + (evenTail even nacks).length := by
        show 2 + fieldOctets ((even :: nacks).length + 1) = _
        omega
      rw [hcount, BitVec.ofNat_add]
      rfl

/-- The length fits as long as it can be counted. -/
theorem IsStatus.getSerializedSize_eq_iff (hs : h.IsStatus nacks) :
    h.getSerializedSize = 2 + fieldOctets nacks.length ↔ nacks.length ≤ 43688 := by
  unfold getSerializedSize
  rw [hs.headerLength, BitVec.toNat_ofNat]
  unfold fieldOctets
  omega

/-- **When a STATUS PDU comes back**: its length can be counted. -/
theorem IsStatus.readsBack_iff (hs : h.IsStatus nacks)
    (hnacks : ∀ nack ∈ nacks, nack.toNat < 1024) :
    h.RoundTrips SameStatus ↔ nacks.length ≤ 43688 := by
  rw [← hs.getSerializedSize_eq_iff]
  constructor
  · rintro ⟨octets, hserialize, hsize, -⟩
    rw [hs.serialize_eq] at hserialize
    rw [hsize, ← Option.some.inj hserialize, length_statusOctets]
  · intro hsize
    refine ⟨_, hs.serialize_eq, ?_, ?_⟩
    · rw [hsize, length_statusOctets]
    · intro uninitialized rest
      obtain ⟨h', hrun, hcontrol, htype, hack, hlist, hlength⟩ :=
        hs.deserialize_eq hnacks uninitialized rest
      refine ⟨h', hrun, ⟨hcontrol, htype, hack, ?_⟩, ?_⟩
      · rw [hlist, hs.nackSnList]
      · rw [length_statusOctets, ← hsize]
        unfold getSerializedSize
        rw [hlength]

end

end AmHeader

end Ns3Dsme.Lte
