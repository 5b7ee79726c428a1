/-
# Extension bits and length indicators

Behind its fixed part, the header of an RLC data PDU has a length indicator of eleven bits for every
segment but the last, each with an extension bit in front of it.  Two of them share three octets.
-/
import Ns3Dsme.Lib.Octets
import Ns3Dsme.Lte.SequenceNumber10
import Mathlib.Tactic.IntervalCases

open List BitVec

namespace Ns3Dsme.Lte

namespace SequenceNumber10

/-- `GetValue`. -/
def bits (s : SequenceNumber10) : BitVec 16 := BitVec.ofNat 16 s.value

/-- `operator=`: the base of comparisons stays. -/
def assign (s : SequenceNumber10) (value : BitVec 16) : SequenceNumber10 :=
  { s with value := tenBits value.toNat }

/-- The value has ten bits. -/
theorem bits_eq (s : SequenceNumber10) : s.bits = (BitVec.ofNat 10 s.value).setWidth 16 := by
  have hlt := s.value.isLt
  unfold bits
  apply eq_of_toNat_eq
  rw [toNat_setWidth, toNat_ofNat, toNat_ofNat]
  omega

/-- They are assigned as they were. -/
theorem value_assign_bits (s s' : SequenceNumber10) : (s'.assign s.bits).value = s.value := by
  have hlt := s.value.isLt
  unfold assign bits tenBits
  apply Fin.ext
  show (BitVec.ofNat 16 s.value).toNat % 1024 = s.value
  rw [toNat_ofNat]
  omega

end SequenceNumber10

/-- What the headers of both modes have in common. -/
structure LengthFields where
  headerLength : BitVec 16 := 0
  extensionBits : List Octet := []
  lengthIndicators : List (BitVec 16) := []
  deriving DecidableEq

namespace LengthFields

/-- `DATA_FIELD_FOLLOWS`. -/
def dataFieldFollows : Octet := 0

/-- `E_LI_FIELDS_FOLLOWS`. -/
def eLiFieldsFollow : Octet := 1

/-- `PushLengthIndicator`. -/
def pushLengthIndicator (f : LengthFields) (lengthIndicator : BitVec 16) : LengthFields :=
  { f with lengthIndicators := f.lengthIndicators ++ [lengthIndicator] }

/-! ## Octets -/

/-- The first octet of two or three. -/
def oddOctet (oddE : Octet) (oddLi : BitVec 16) : Octet :=
  ((oddE <<< 7) &&& 0x80) ||| ((oddLi >>> 4) &&& 0x007F).setWidth 8

/-- The second octet of three. -/
def sharedOctet (oddLi : BitVec 16) (evenE : Octet) (evenLi : BitVec 16) : Octet :=
  ((oddLi <<< 4) &&& 0x00F0).setWidth 8 ||| ((evenE <<< 3) &&& 0x08) |||
    ((evenLi >>> 8) &&& 0x0007).setWidth 8

/-- The second octet of two: padding is implicit. -/
def paddedOctet (oddLi : BitVec 16) : Octet := ((oddLi <<< 4) &&& 0x00F0).setWidth 8

/-- The loop of `Serialize` over the extension bits and the length indicators. -/
def serialize : List Octet → List (BitVec 16) → List Octet
  | oddE :: evenE :: es, oddLi :: evenLi :: lis =>
    oddOctet oddE oddLi :: sharedOctet oddLi evenE evenLi :: (evenLi &&& 0x00FF).setWidth 8 ::
      serialize es lis
  | oddE :: _, oddLi :: _ => [oddOctet oddE oddLi, paddedOctet oddLi]
  | _, _ => []

def readOddE (byte1 : Octet) : Octet := (byte1 &&& 0x80) >>> 7

def readOddLi (byte1 byte2 : Octet) : BitVec 16 :=
  ((byte1 &&& 0x7F).setWidth 16 <<< 4) ||| ((byte2 &&& 0xF0) >>> 4).setWidth 16

def readEvenE (byte2 : Octet) : Octet := (byte2 &&& 0x08) >>> 3

def readEvenLi (byte2 byte3 : Octet) : BitVec 16 :=
  ((byte2 &&& 0x07).setWidth 16 <<< 8) ||| (byte3 &&& 0xFF).setWidth 16

/-- The fields that were read, and the octets that they take. -/
def add (f : LengthFields) (e : Octet) (li octets : BitVec 16) : LengthFields :=
  ⟨f.headerLength + octets, f.extensionBits ++ [e], f.lengthIndicators ++ [li]⟩

/-- The loop of `Deserialize`, with the octets that are left; nothing where they end too early. -/
def deserialize (f : LengthFields) : List Octet → Option (LengthFields × List Octet)
  | byte1 :: byte2 :: octets =>
    let odd := f.add (readOddE byte1) (readOddLi byte1 byte2) 2
    if readOddE byte1 = eLiFieldsFollow then
      match octets with
      | byte3 :: octets =>
        let even := odd.add (readEvenE byte2) (readEvenLi byte2 byte3) 1
        if readEvenE byte2 = eLiFieldsFollow then even.deserialize octets
        else some (even, octets)
      | [] => none
    else some (odd, octets)
  | _ => none

/-! ## Bits -/

section

variable {oddE evenE : Octet}

/-- A length indicator of eleven bits. -/
theorem exists_eleven {li : BitVec 16} (h : li.toNat < 2048) :
    ∃ x : BitVec 11, li = x.setWidth 16 := by
  refine ⟨li.setWidth 11, ?_⟩
  apply eq_of_toNat_eq
  rw [toNat_setWidth, toNat_setWidth]
  omega

theorem readOddE_oddOctet (he : oddE = dataFieldFollows ∨ oddE = eLiFieldsFollow) (li : BitVec 16) :
    readOddE (oddOctet oddE li) = oddE := by
  unfold readOddE oddOctet
  apply eq_of_getLsbD_eq
  intro i hi
  rcases he with rfl | rfl
  · interval_cases i <;> simp [dataFieldFollows]
  · interval_cases i <;> simp [eLiFieldsFollow]

theorem readEvenE_sharedOctet (he : evenE = dataFieldFollows ∨ evenE = eLiFieldsFollow)
    (li li' : BitVec 16) : readEvenE (sharedOctet li evenE li') = evenE := by
  unfold readEvenE sharedOctet
  apply eq_of_getLsbD_eq
  intro i hi
  rcases he with rfl | rfl
  · interval_cases i <;> simp [dataFieldFollows]
  · interval_cases i <;> simp [eLiFieldsFollow]

theorem readOddLi_paddedOctet {li : BitVec 16} (h : li.toNat < 2048) (e : Octet) :
    readOddLi (oddOctet e li) (paddedOctet li) = li := by
  obtain ⟨x, rfl⟩ := exists_eleven h
  unfold readOddLi oddOctet paddedOctet
  exact eq_of_sameBits (by simp)

theorem readOddLi_sharedOctet {li : BitVec 16} (h : li.toNat < 2048) (e e' : Octet)
    (li' : BitVec 16) : readOddLi (oddOctet e li) (sharedOctet li e' li') = li := by
  obtain ⟨x, rfl⟩ := exists_eleven h
  unfold readOddLi oddOctet sharedOctet
  exact eq_of_sameBits (by simp)

theorem readEvenLi_sharedOctet {li : BitVec 16} (h : li.toNat < 2048) (e : Octet)
    (li' : BitVec 16) :
    readEvenLi (sharedOctet li' e li) ((li &&& 0x00FF).setWidth 8) = li := by
  obtain ⟨x, rfl⟩ := exists_eleven h
  unfold readEvenLi sharedOctet
  exact eq_of_sameBits (by simp)

end

/-! ## Lists -/

/-- The octets of a number of length indicators. -/
def fieldOctets (count : ℕ) : ℕ := count + (count + 1) / 2

/-- The header has `base` octets, and those of the extension bits behind the first. -/
def Charged (base : BitVec 16) (f : LengthFields) : Prop :=
  f.headerLength = base + BitVec.ofNat 16 (fieldOctets (f.extensionBits.length - 1))

/-- A further extension bit takes two octets, or the one that is left of three. -/
theorem fieldOctets_succ (count : ℕ) :
    fieldOctets (count + 1) = fieldOctets count + if (count + 2) % 2 = 1 then 1 else 2 := by
  unfold fieldOctets
  split
  · omega
  · omega

/-- The extension bits behind the length indicators: does another one follow? -/
def following : List (BitVec 16) → List Octet
  | [] => []
  | [_] => [dataFieldFollows]
  | _ :: li :: lis => eLiFieldsFollow :: following (li :: lis)

/-- The extension bit of the fixed part. -/
def firstBit (lis : List (BitVec 16)) : Octet :=
  if lis = [] then dataFieldFollows else eLiFieldsFollow

/-- All extension bits but the last one say that fields follow. -/
theorem replicate_append_eq (lis : List (BitVec 16)) :
    List.replicate lis.length eLiFieldsFollow ++ [dataFieldFollows] =
      firstBit lis :: following lis := by
  induction lis with
  | nil => rfl
  | cons li lis ih =>
    rw [List.length_cons, List.replicate_succ, List.cons_append, ih]
    cases lis with
    | nil => rfl
    | cons li' lis => rfl

theorem length_following (lis : List (BitVec 16)) : (following lis).length = lis.length := by
  have hlength := congrArg List.length (replicate_append_eq lis)
  rw [length_append, length_replicate, length_cons] at hlength
  exact (Nat.succ.inj hlength).symm

theorem serialize_two (li li' : BitVec 16) :
    serialize (following [li, li']) [li, li'] =
      [oddOctet eLiFieldsFollow li, sharedOctet li dataFieldFollows li',
        (li' &&& 0x00FF).setWidth 8] := by
  unfold following following serialize serialize
  rfl

theorem serialize_more (li li' li'' : BitVec 16) (lis : List (BitVec 16)) :
    serialize (following (li :: li' :: li'' :: lis)) (li :: li' :: li'' :: lis) =
      oddOctet eLiFieldsFollow li :: sharedOctet li eLiFieldsFollow li' ::
        (li' &&& 0x00FF).setWidth 8 :: serialize (following (li'' :: lis)) (li'' :: lis) := by
  show serialize (eLiFieldsFollow :: eLiFieldsFollow :: following (li'' :: lis)) _ = _
  rw [serialize]

theorem length_serialize : ∀ lis : List (BitVec 16),
    (serialize (following lis) lis).length = fieldOctets lis.length
  | [] => rfl
  | [_] => by
    show 2 = fieldOctets 1
    rfl
  | [li, li'] => by
    rw [serialize_two]
    show 3 = fieldOctets 2
    rfl
  | li :: li' :: li'' :: lis => by
    rw [serialize_more, length_cons, length_cons, length_cons,
      length_serialize (li'' :: lis)]
    unfold fieldOctets
    simp only [length_cons]
    omega

theorem add_add (f : LengthFields) (e e' : Octet) (li li' : BitVec 16) :
    (f.add e li 2).add e' li' 1 =
      ⟨f.headerLength + 3, f.extensionBits ++ [e, e'], f.lengthIndicators ++ [li, li']⟩ := by
  unfold add
  rw [List.append_assoc, List.append_assoc, BitVec.add_assoc]
  rfl

/-- **The fields are read as they were written**, up to the last extension bit. -/
theorem deserialize_serialize (rest : List Octet) : ∀ (lis : List (BitVec 16)) (f : LengthFields),
    lis ≠ [] → (∀ li ∈ lis, li.toNat < 2048) →
      f.deserialize (serialize (following lis) lis ++ rest) =
        some (⟨f.headerLength + BitVec.ofNat 16 (fieldOctets lis.length),
          f.extensionBits ++ following lis, f.lengthIndicators ++ lis⟩, rest)
  | [], _, hne, _ => absurd rfl hne
  | [li], f, _, hlis => by
    have hli := hlis li (mem_singleton.mpr rfl)
    show f.deserialize (oddOctet dataFieldFollows li :: paddedOctet li :: rest) = _
    unfold deserialize
    have hlast : ¬ dataFieldFollows = eLiFieldsFollow := by decide
    have hoctets : fieldOctets [li].length = 2 := by
      show fieldOctets 1 = 2
      rfl
    rw [readOddE_oddOctet (Or.inl rfl), readOddLi_paddedOctet hli]
    dsimp only
    rw [if_neg hlast, hoctets]
    rfl
  | [li, li'], f, _, hlis => by
    have hli := hlis li (mem_cons_self ..)
    have hli' := hlis li' (mem_cons_of_mem _ (mem_singleton.mpr rfl))
    rw [serialize_two]
    show f.deserialize (oddOctet eLiFieldsFollow li :: sharedOctet li dataFieldFollows li' ::
      (li' &&& 0x00FF).setWidth 8 :: rest) = _
    unfold deserialize
    rw [readOddE_oddOctet (Or.inr rfl), readOddLi_sharedOctet hli]
    dsimp only
    rw [if_pos rfl, readEvenE_sharedOctet (Or.inl rfl), readEvenLi_sharedOctet hli',
      if_neg (by decide), add_add]
    have hoctets : fieldOctets [li, li'].length = 3 := by
      show fieldOctets 2 = 3
      rfl
    rw [hoctets]
    rfl
  | li :: li' :: li'' :: lis, f, _, hlis => by
    have hli := hlis li (List.mem_cons_self ..)
    have hli' := hlis li' (List.mem_cons_of_mem _ (List.mem_cons_self ..))
    have hrest := deserialize_serialize rest (li'' :: lis)
      ((f.add eLiFieldsFollow li 2).add eLiFieldsFollow li' 1) (cons_ne_nil _ _)
      (fun x hx => hlis x (mem_cons_of_mem _ (mem_cons_of_mem _ hx)))
    have hoctets : fieldOctets (li :: li' :: li'' :: lis).length =
        3 + fieldOctets (li'' :: lis).length := by
      unfold fieldOctets
      simp only [length_cons]
      omega
    rw [serialize_more]
    show f.deserialize (oddOctet eLiFieldsFollow li :: sharedOctet li eLiFieldsFollow li' ::
      (li' &&& 0x00FF).setWidth 8 ::
        (serialize (following (li'' :: lis)) (li'' :: lis) ++ rest)) = _
    unfold deserialize
    rw [readOddE_oddOctet (Or.inr rfl), readOddLi_sharedOctet hli]
    dsimp only
    rw [if_pos rfl, readEvenE_sharedOctet (Or.inr rfl), readEvenLi_sharedOctet hli', if_pos rfl,
      hrest, add_add, hoctets, BitVec.ofNat_add, ← BitVec.add_assoc, List.append_assoc,
      List.append_assoc]
    rfl

end LengthFields

end Ns3Dsme.Lte
