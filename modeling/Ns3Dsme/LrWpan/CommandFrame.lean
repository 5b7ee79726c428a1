/-
# MAC commands on the wire

`CommandPayloadHeader` and the fields in it: how long they say they are, what `Serialize` writes and
what `Deserialize` reads.
-/
import Ns3Dsme.LrWpan.PanDescriptorCodec

open List BitFields Reader

namespace Ns3Dsme.Codec

/-! ## Capability information -/

/-- `CapabilityField`. -/
structure CapabilityField where
  deviceType : Bool
  powerSource : Bool
  receiverOnWhenIdle : Bool
  associationType : Bool
  securityCap : Bool
  allocAddr : Bool
  deriving DecidableEq, Inhabited

namespace CapabilityField

def capability (f : CapabilityField) : Octet :=
  bit f.deviceType 1 ||| bit f.powerSource 2 ||| bit f.receiverOnWhenIdle 3 |||
    bit f.associationType 4 ||| bit f.securityCap 6 ||| bit f.allocAddr 7

def serialize (f : CapabilityField) : List Octet := [f.capability]

def deserialize : Reader CapabilityField := do
  let capability ← octet
  return {
    deviceType := capability.getLsbD 1
    powerSource := capability.getLsbD 2
    receiverOnWhenIdle := capability.getLsbD 3
    associationType := capability.getLsbD 4
    securityCap := capability.getLsbD 6
    allocAddr := capability.getLsbD 7 }

theorem reads_deserialize (f : CapabilityField) : Reads deserialize f.serialize f := by
  refine (reads_octet f.capability).bind_pure (congrArg pure ?_)
  unfold capability
  cases f
  congr 1 <;> simp [getElem_bit]

end CapabilityField

/-! ## Hopping sequence -/

/-- `HoppingSequence`. -/
structure HoppingSequence where
  channelList : List (BitVec 16)
  deriving DecidableEq, Inhabited

namespace HoppingSequence

def serialize (f : HoppingSequence) : List Octet := f.channelList.flatMap fun w => lowFirst w 2

/-- As many channels are read as the object has already. -/
def deserialize (f : HoppingSequence) : Reader HoppingSequence := do
  let channelList ← many (word 16 2) f.channelList.length
  return ⟨channelList⟩

theorem reads_deserialize {f f₀ : HoppingSequence}
    (h : f₀.channelList.length = f.channelList.length) : Reads f₀.deserialize f.serialize f := by
  have hread := reads_many (r := word 16 2) (fun a => reads_word (k := 2) a rfl) f.channelList
  rw [← h] at hread
  exact hread.bind_pure rfl

theorem yields_deserialize (f₀ : HoppingSequence) : Yields f₀.deserialize fun f _ =>
    f.channelList.length = f₀.channelList.length :=
  (yields_many (yields_word (k := 2) rfl) _).bind fun _ _ h => yields_pure h.1

end HoppingSequence

/-! ## DSME-GTS management -/

/-- `DSMEGTSManagementField`. -/
structure DSMEGTSManagementField where
  managementType : Octet
  direction : Bool
  priorChannelAccess : Bool
  status : Octet
  deriving DecidableEq, Inhabited

namespace DSMEGTSManagementField

/-- `GetDSMEGTSManagementField`; the management type is not masked. -/
def getField (f : DSMEGTSManagementField) : Octet :=
  f.managementType ||| bit f.direction 3 ||| bit f.priorChannelAccess 4 ||| bits f.status 3 5

def setField (managementField : Octet) : DSMEGTSManagementField where
  managementType := managementField &&& 7
  direction := managementField.getLsbD 3
  priorChannelAccess := managementField.getLsbD 4
  status := (managementField >>> 5) &&& 3

def serialize (f : DSMEGTSManagementField) : List Octet := [f.getField]

def deserialize : Reader DSMEGTSManagementField := do
  let managementField ← octet
  return setField managementField

/-- The type fits three bits, and the status two. -/
def Fits (f : DSMEGTSManagementField) : Prop := f.managementType.toNat < 8 ∧ f.status.toNat < 4

theorem setField_getField_iff (f : DSMEGTSManagementField) : setField f.getField = f ↔ f.Fits := by
  constructor
  · intro h
    have htype : (f.getField &&& 7).toNat < 8 := toNat_and_lt (k := 3) _ rfl
    have hstatus : ((f.getField >>> 5) &&& 3).toNat < 4 := toNat_and_lt (k := 2) _ rfl
    have htype' : (setField f.getField).managementType.toNat < 8 := htype
    have hstatus' : (setField f.getField).status.toNat < 4 := hstatus
    rw [h] at htype' hstatus'
    exact ⟨htype', hstatus'⟩
  · rintro ⟨htype, hstatus⟩
    have hmask : f.managementType &&& 7 = f.managementType := and_eq_self (k := 3) rfl htype
    have hmask' : f.status &&& 3 = f.status := and_eq_self (k := 2) rfl hstatus
    -- the bits of the type beyond the third are clear
    have hlow : ∀ i, 3 ≤ i → f.managementType.getLsbD i = false := fun i hi =>
      Nat.testBit_lt_two_pow (lt_of_lt_of_le htype (Nat.pow_le_pow_right Nat.two_pos hi))
    have hback : setField f.getField = { f with
        managementType := f.managementType &&& 7
        status := f.status &&& 3 } := by
      have h3 := hlow 3 (Nat.le_refl _)
      have h4 := hlow 4 (by omega)
      have h5 := hlow 5 (by omega)
      have h6 := hlow 6 (by omega)
      rw [BitVec.getLsbD_eq_getElem (by omega)] at h3 h4 h5 h6
      unfold setField getField
      congr 1
      all_goals first
        | (simp [getElem_bit, getElem_bits, h3, h4]; done)
        | (exact eq_of_sameBits (by simp [getElem_bit, getElem_bits, h5, h6]))
    rw [hback, hmask, hmask']

theorem reads_deserialize (f : DSMEGTSManagementField) :
    Reads deserialize f.serialize (setField f.getField) := (reads_octet f.getField).bind_pure rfl

end DSMEGTSManagementField

/-! ## DSME SAB specification -/

/-- `DSMESABSpecificationField`. -/
structure DSMESABSpecificationField where
  capReduction : Bool
  subBlkLen : Octet
  subBlkIdx : BitVec 16
  subBlk : List (BitVec 16)
  subBlkCapOff : List Octet
  deriving DecidableEq, Inhabited

namespace DSMESABSpecificationField

def getSerializedSize (f : DSMESABSpecificationField) : ℕ :=
  if f.capReduction then 4 + f.subBlkLen.toNat * 2 else 4 + f.subBlkLen.toNat

/-- The sub-blocks that the loop writes; nothing is known of what is behind them. -/
def writeSubBlk (f : DSMESABSpecificationField) : Option (List Octet) :=
  if f.capReduction then
    if f.subBlkLen.toNat ≤ f.subBlk.length then
      some ((f.subBlk.take f.subBlkLen.toNat).flatMap fun w => lowFirst w 2)
    else none
  else
    if f.subBlkLen.toNat ≤ f.subBlkCapOff.length then
      some (f.subBlkCapOff.take f.subBlkLen.toNat)
    else none

def serialize (f : DSMESABSpecificationField) : Option (List Octet) :=
  f.writeSubBlk.map fun octets =>
    [if f.capReduction then 1 else 0] ++ ([f.subBlkLen] ++ (lowFirst f.subBlkIdx 2 ++ octets))

/-- The sub-blocks are appended to those that the object has. -/
def readSubBlk (f : DSMESABSpecificationField) : Reader DSMESABSpecificationField :=
  if f.capReduction then do
    let subBlk ← many (word 16 2) f.subBlkLen.toNat
    return { f with subBlk := f.subBlk ++ subBlk }
  else do
    let subBlkCapOff ← many octet f.subBlkLen.toNat
    return { f with subBlkCapOff := f.subBlkCapOff ++ subBlkCapOff }

def deserialize (f : DSMESABSpecificationField) : Reader DSMESABSpecificationField := do
  let capReduction ← octet
  let subBlkLen ← octet
  let subBlkIdx ← word 16 2
  readSubBlk { f with
    capReduction := capReduction != 0
    subBlkLen := subBlkLen
    subBlkIdx := subBlkIdx }

/-- The same sub-blocks. -/
structure Same (f f' : DSMESABSpecificationField) : Prop where
  capReduction : f'.capReduction = f.capReduction
  subBlkLen : f'.subBlkLen = f.subBlkLen
  subBlkIdx : f'.subBlkIdx = f.subBlkIdx
  subBlk : f.capReduction = true → f'.subBlk = f.subBlk
  subBlkCapOff : f.capReduction = false → f'.subBlkCapOff = f.subBlkCapOff

/-- What is written, behind what the object has, are all sub-blocks. -/
def Carried (f f₀ : DSMESABSpecificationField) : Prop :=
  if f.capReduction then
    f.subBlkLen.toNat ≤ f.subBlk.length ∧ f₀.subBlk ++ f.subBlk.take f.subBlkLen.toNat = f.subBlk
  else
    f.subBlkLen.toNat ≤ f.subBlkCapOff.length ∧
      f₀.subBlkCapOff ++ f.subBlkCapOff.take f.subBlkLen.toNat = f.subBlkCapOff

/-- What reading leaves in an object. -/
def onto (f f₀ : DSMESABSpecificationField) : DSMESABSpecificationField :=
  { f with
    subBlk := if f.capReduction then f₀.subBlk ++ f.subBlk.take f.subBlkLen.toNat else f₀.subBlk
    subBlkCapOff := if f.capReduction then f₀.subBlkCapOff
      else f₀.subBlkCapOff ++ f.subBlkCapOff.take f.subBlkLen.toNat }

theorem reads_of_serialize {f : DSMESABSpecificationField} {octets : List Octet}
    (h : f.serialize = some octets) (f₀ : DSMESABSpecificationField) :
    octets.length = f.getSerializedSize ∧ Reads f₀.deserialize octets (f.onto f₀) := by
  obtain ⟨blocks, hblocks, rfl⟩ := Option.map_eq_some_iff.mp h
  unfold writeSubBlk at hblocks
  unfold getSerializedSize onto
  cases hcap : f.capReduction with
  | true =>
    rw [if_pos hcap] at hblocks
    split at hblocks
    · rename_i hle
      cases hblocks
      have hlen : (f.subBlk.take f.subBlkLen.toNat).length = f.subBlkLen.toNat := by
        rw [length_take, min_eq_left hle]
      have hread := reads_many (r := word 16 2) (fun a => reads_word (k := 2) a rfl)
        (f.subBlk.take f.subBlkLen.toNat)
      rw [hlen] at hread
      refine ⟨?_, (reads_octet _).bind ((reads_octet _).bind ((reads_word (k := 2) _ rfl).bind
        (hread.bind_pure rfl)))⟩
      rw [length_append, length_append, length_append, length_lowFirst,
        length_flatMap_lowFirst, hlen]
      show 1 + (1 + (2 + _)) = 4 + _
      omega
    · cases hblocks
  | false =>
    rw [if_neg (by rw [hcap]; exact Bool.false_ne_true)] at hblocks
    split at hblocks
    · rename_i hle
      cases hblocks
      have hlen : (f.subBlkCapOff.take f.subBlkLen.toNat).length = f.subBlkLen.toNat := by
        rw [length_take, min_eq_left hle]
      have hread := reads_many (r := octet) reads_octet (f.subBlkCapOff.take f.subBlkLen.toNat)
      rw [hlen, flatMap_singleton'] at hread
      refine ⟨?_, (reads_octet _).bind ((reads_octet _).bind ((reads_word (k := 2) _ rfl).bind
        (hread.bind_pure rfl)))⟩
      rw [length_append, length_append, length_append, length_lowFirst, hlen]
      show 1 + (1 + (2 + _)) = 4 + _
      omega
    · cases hblocks

theorem length_of_serialize {f : DSMESABSpecificationField} {octets : List Octet}
    (h : f.serialize = some octets) : octets.length = f.getSerializedSize :=
  (reads_of_serialize h f).1

theorem yields_deserialize (f₀ : DSMESABSpecificationField) :
    Yields f₀.deserialize fun f xs => xs.length = f.getSerializedSize := by
  refine yields_octet.bind fun a _ ha => yields_octet.bind fun b _ hb =>
    (yields_word (k := 2) rfl).bind fun w _ hw => ?_
  unfold readSubBlk
  dsimp only
  by_cases hcap : (a != 0) = true
  · rw [if_pos hcap]
    refine (yields_many (yields_word (k := 2) rfl) _).bind fun ws xs hxs => yields_pure ?_
    unfold getSerializedSize
    rw [ha, hb, hw, hxs.2, append_nil, length_append, length_append,
      length_append, length_lowFirst, length_flatMap_lowFirst, hxs.1]
    dsimp only
    rw [if_pos hcap]
    show 1 + (1 + (2 + _)) = _
    omega
  · rw [if_neg hcap]
    refine (yields_many (e := fun a => [a]) yields_octet _).bind fun ws xs hxs => yields_pure ?_
    unfold getSerializedSize
    rw [ha, hb, hw, hxs.2, append_nil, length_append, length_append,
      length_append, length_lowFirst, flatMap_singleton', hxs.1]
    dsimp only
    rw [if_neg hcap]
    show 1 + (1 + (2 + _)) = _
    omega

/-- **When the sub-blocks come back.** -/
theorem carried_iff (f f₀ : DSMESABSpecificationField) :
    f.Carried f₀ ↔ (∃ octets, f.serialize = some octets) ∧ Same f (f.onto f₀) := by
  unfold Carried serialize writeSubBlk
  cases hcap : f.capReduction with
  | true =>
    rw [if_pos rfl, if_pos rfl]
    constructor
    · rintro ⟨hle, hback⟩
      rw [if_pos hle]
      refine ⟨⟨_, rfl⟩, rfl, rfl, rfl, fun _ => ?_, fun hno => ?_⟩
      · unfold onto
        rw [hcap]
        exact hback
      · rw [hcap] at hno
        cases hno
    · rintro ⟨⟨octets, hser⟩, hsame⟩
      have hback := hsame.subBlk hcap
      unfold onto at hback
      rw [hcap] at hback
      refine ⟨?_, hback⟩
      by_contra hle
      rw [if_neg hle] at hser
      cases hser
  | false =>
    rw [if_neg Bool.false_ne_true, if_neg Bool.false_ne_true]
    constructor
    · rintro ⟨hle, hback⟩
      rw [if_pos hle]
      refine ⟨⟨_, rfl⟩, rfl, rfl, rfl, fun hyes => ?_, fun _ => ?_⟩
      · rw [hcap] at hyes
        cases hyes
      · unfold onto
        rw [hcap]
        exact hback
    · rintro ⟨⟨octets, hser⟩, hsame⟩
      have hback := hsame.subBlkCapOff hcap
      unfold onto at hback
      rw [hcap] at hback
      refine ⟨?_, hback⟩
      by_contra hle
      rw [if_neg hle] at hser
      cases hser

end DSMESABSpecificationField

end Ns3Dsme.Codec
