/-
# BlockAck frames are read as they were written

The length of a bitmap is in the Fragment Number subfield, and which fields an entry of a Multi-STA
BlockAck has is in its AID, its Ack Type and its TID.  A header whose bitmaps are as long as that
says is read back with all the fields that it carries, into whatever header.
-/
import Ns3Dsme.Wifi.CtrlBAckResponseHeader

open Option List Reader

namespace Ns3Dsme.Wifi

open BaInfo CtrlBAckResponseHeader

/-! ## Control fields -/

/-- A Starting Sequence Control field. -/
def seqControl (startingSeq fragment : BitVec 16) : BitVec 16 :=
  ((startingSeq <<< 4) &&& 0xfff0) ||| fragment

theorem seqControl_and (startingSeq : BitVec 16) {fragment : BitVec 16}
    (hfragment : fragment &&& 0x000f = fragment) :
    seqControl startingSeq fragment &&& 0x000f = fragment := by
  have hnone : (0xfff0 : BitVec 16) &&& 0x000f = 0#16 := rfl
  unfold seqControl
  rw [BitVec.and_comm, BitVec.and_or_distrib_left, BitVec.and_comm, BitVec.and_assoc, hnone,
    BitVec.and_zero, BitVec.and_comm 0x000f, hfragment, BitVec.zero_or]

/-- The starting sequence is above the fragment number. -/
theorem seqControl_shift {startingSeq fragment : BitVec 16} (hseq : startingSeq.toNat < 4096)
    (hfragment : fragment &&& 0x000f = fragment) :
    (seqControl startingSeq fragment >>> 4) &&& 0x0fff = startingSeq := by
  apply BitVec.eq_of_getLsbD_eq
  intro i hi
  have hhigh : fragment.getLsbD (4 + i) = false := by
    rw [← hfragment, BitVec.getLsbD_and]
    have hmask : (0x000f : BitVec 16).getLsbD (4 + i) = false := by
      interval_cases i <;> rfl
    rw [hmask, Bool.and_false]
  unfold seqControl
  rw [BitVec.getLsbD_and, BitVec.getLsbD_ushiftRight, BitVec.getLsbD_or, hhigh, Bool.or_false,
    BitVec.getLsbD_and, BitVec.getLsbD_shiftLeft]
  rcases Nat.lt_or_ge i 12 with hlow | hlow
  · have hmask : (0xfff0 : BitVec 16).getLsbD (4 + i) = true := by interval_cases i <;> rfl
    have hmask' : (0x0fff : BitVec 16).getLsbD i = true := by interval_cases i <;> rfl
    rw [hmask, hmask', Nat.add_sub_cancel_left]
    simp [show 4 + i < 16 by omega]
  · have hmask : (0x0fff : BitVec 16).getLsbD i = false := by interval_cases i <;> rfl
    have hpow : 2 ^ 12 ≤ 2 ^ i := Nat.pow_le_pow_right Nat.two_pos hlow
    have hzero : startingSeq.getLsbD i = false := Nat.testBit_lt_two_pow (by omega)
    rw [hmask, hzero, Bool.and_false]

/-- Only the Fragment Number subfield says the length. -/
theorem bitmapLenOf_and (variant : BlockAckVariant) (w : BitVec 16) :
    bitmapLenOf variant w =
      bitmapLenOf variant (w &&& 0x000f) := by
  have h0 : w &&& 0x0001 = (w &&& 0x000f) &&& 0x0001 := (BitVec.and_assoc w 0x000f 0x0001).symm
  have h3 : (w >>> 3) &&& (0x0001 : BitVec 16) = ((w &&& 0x000f) >>> 3) &&& 0x0001 := by
    rw [BitVec.ushiftRight_and_distrib, BitVec.and_assoc]
    rfl
  have h1 : (w >>> 1) &&& (0x0003 : BitVec 16) = ((w &&& 0x000f) >>> 1) &&& 0x0003 := by
    rw [BitVec.ushiftRight_and_distrib, BitVec.and_assoc]
    rfl
  unfold bitmapLenOf
  rw [h0, h3, h1]

/-- The Fragment Number subfield of a bitmap length. -/
theorem bitmapLenOf_seqControl {variant : BlockAckVariant} {fragment : BitVec 16} {bitmapLen : ℕ}
    (startingSeq : BitVec 16) (hfragment : fragment &&& 0x000f = fragment)
    (hlen : bitmapLenOf variant fragment = some bitmapLen) :
    bitmapLenOf variant (seqControl startingSeq fragment) =
      some bitmapLen := by
  rw [bitmapLenOf_and, seqControl_and startingSeq hfragment, hlen]

/-! ## Readers -/

theorem reads_lift {α : Type} {x : Option α} {a : α} (h : x = some a) :
    Reads (liftM x : Reader α) [] a := by
  intro rest
  rw [h]
  rfl

theorem run_lift_bind {α β : Type} {x : Option α} {a : α} (h : x = some a) (f : α → Reader β)
    (octets : List Octet) : ((liftM x : Reader α) >>= f).run octets = (f a).run octets := by
  rw [h]
  rfl

theorem run_bind_of_reads {α β : Type} {r : Reader α} {xs : List Octet} {a : α} (hr : Reads r xs a)
    (f : α → Reader β) (rest : List Octet) :
    (r >>= f).run (xs ++ rest) = (f a).run rest := by
  rw [StateT.run_bind, hr rest]
  rfl

theorem reads_readLsb16 (w : BitVec 16) :
    Reads readLsb16 (octetsLsb16 w) w :=
  reads_word w rfl

theorem reads_readLsb32 (w : BitVec 32) :
    Reads readLsb32 (octetsLsb32 w) w :=
  reads_word w rfl

theorem reads_readMac48 (address : Mac48Address) :
    Reads readMac48 (octetsMac48 address) address :=
  reads_word address rfl

theorem reads_many_octet (octets : List Octet) {k : ℕ} (hk : k = octets.length) :
    Reads (many octet k) octets octets := by
  subst hk
  have h := reads_many reads_octet octets
  rw [flatMap_singleton'] at h
  exact h

/-! ## Entries -/

/-- Block acknowledgement context: the only one with a starting sequence and a bitmap. -/
def BaInfo.IsBlockAck (info : BaInfo) : Prop := ¬ info.ackType = true ∧ info.tid < 8

instance (info : BaInfo) : Decidable info.IsBlockAck := inferInstanceAs (Decidable (_ ∧ _))

/-- The bitmap has the length that the AID, the Ack Type and the TID ask for. -/
def BaInfo.Fits (info : BaInfo) : Prop :=
  if info.aid11 = 2045 then info.bitmap.length = 8
  else if info.IsBlockAck then
    info.bitmap.length = 4 ∨ info.bitmap.length = 8 ∨ info.bitmap.length = 16 ∨
      info.bitmap.length = 32
  else info.bitmap.length = 0

instance (info : BaInfo) : Decidable info.Fits := by
  unfold BaInfo.Fits
  infer_instance

/-- The fields that an entry carries. -/
def BaInfo.carried (info : BaInfo) : BaInfo :=
  if info.aid11 = 2045 then { aidTidInfo := info.aidTidInfo, ra := info.ra }
  else if info.IsBlockAck then
    { aidTidInfo := info.aidTidInfo, startingSeq := info.startingSeq, bitmap := info.bitmap }
  else { aidTidInfo := info.aidTidInfo }

theorem BaInfo.aidTidInfo_carried (info : BaInfo) :
    info.carried.aidTidInfo = info.aidTidInfo := by
  unfold carried
  split_ifs <;> rfl

/-- The fragment number for a bitmap of a Multi-STA BlockAck. -/
def staFragment (bitmapLen : ℕ) : BitVec 16 :=
  if bitmapLen = 16 then 0x0002 else if bitmapLen = 32 then 0x0004
  else if bitmapLen = 4 then 0x0006 else 0

/-- The octets of an entry behind its AID TID Info subfield. -/
def BaInfo.fieldOctets (info : BaInfo) : List Octet :=
  if info.aid11 = 2045 then
    octetsLsb32 0 ++ octetsMac48 info.ra
  else if info.IsBlockAck then
    octetsLsb16
      (seqControl info.startingSeq (staFragment info.bitmap.length)) ++ info.bitmap
  else []

/-- The octets of an entry. -/
def BaInfo.octets (info : BaInfo) : List Octet :=
  octetsLsb16 info.aidTidInfo ++ info.fieldOctets

/-- The size that is counted for an entry. -/
def staSize (bitmapLen : ℕ) : ℕ := 2 + (if bitmapLen > 0 then 2 else 0) + bitmapLen

theorem BaInfo.length_octets {info : BaInfo} (h : info.Fits) :
    info.octets.length = staSize info.bitmap.length := by
  unfold BaInfo.Fits at h
  unfold octets fieldOctets staSize
  rw [length_append]
  split at h
  · rename_i haid
    rw [if_pos haid, h]
    rfl
  · rename_i haid
    rw [if_neg haid]
    split at h
    · rename_i hack
      have hpos : info.bitmap.length > 0 := by omega
      rw [if_pos hack, if_pos hpos, length_append]
      show 2 + (2 + _) = _
      omega
    · rename_i hack
      rw [if_neg hack, h]
      rfl

theorem modify_concat_length {α : Type} (xs : List α) (a : α) (f : α → α) :
    (xs ++ [a]).modify xs.length f = xs ++ [f a] := by
  induction xs with
  | nil => rfl
  | cons x xs ih => exact congrArg (x :: ·) ih

theorem set_concat_length {α : Type} (xs : List α) (a b : α) :
    (xs ++ [a]).set xs.length b = xs ++ [b] := by
  rw [set_append_right xs.length b (Nat.le_refl _), Nat.sub_self]
  rfl

namespace CtrlBAckResponseHeader

variable {h : CtrlBAckResponseHeader}

theorem staInfoAt?_snoc (hsta : h.baType.variant = .multiSta) (info : BaInfo) (bitmapLen : ℕ) :
    (h.snoc info bitmapLen).staInfoAt? h.baInfo.length = some info := by
  unfold staInfoAt? snoc
  rw [if_pos hsta, List.getElem?_concat_length]

theorem infoAt?_eq_staInfoAt? (hsta : h.baType.variant = .multiSta) (index : ℕ) :
    h.infoAt? index = h.staInfoAt? index := by
  unfold infoAt? staInfoAt?
  rw [if_pos hsta, if_pos (Or.inl hsta)]

theorem setInfo_snoc (info : BaInfo) (bitmapLen : ℕ) (f : BaInfo → BaInfo) :
    (h.snoc info bitmapLen).setInfo h.baInfo.length f = h.snoc (f info) bitmapLen := by
  unfold setInfo snoc
  rw [modify_concat_length]

variable {info : BaInfo} {bitmapLen : ℕ} {index : ℕ} (infos : List BaInfo)

/-- The Starting Sequence Control of the last entry gives its bitmap its length. -/
theorem setStartingSequenceControl_snoc (hsta : h.baType.variant = .multiSta)
    (hsame : h.baType.bitmapLen.length = h.baInfo.length) (info : BaInfo) {w : BitVec 16} (hlen : bitmapLenOf .multiSta w = some bitmapLen) :
    (h.snoc info 0).setStartingSequenceControl w h.baInfo.length =
      some (h.snoc { info with
        startingSeq := (w >>> 4) &&& 0x0fff
        bitmap := List.replicate bitmapLen 0 } bitmapLen) := by
  have hvariant : (h.snoc info 0).baType.variant = .multiSta := hsta
  have hentry : (h.snoc info 0).infoAt? h.baInfo.length = some info := by
    rw [infoAt?_eq_staInfoAt? hvariant, staInfoAt?_snoc hsta]
  have hset : (h.snoc info 0).setBitmapLen w h.baInfo.length =
      some (h.snoc { info with bitmap := List.replicate bitmapLen 0 } bitmapLen) := by
    unfold setBitmapLen
    rw [hvariant]
    dsimp only
    rw [hlen, map_some]
    unfold snoc
    dsimp only
    rw [modify_concat_length, ← hsame, set_concat_length]
  unfold setStartingSequenceControl
  rw [hentry, hset]
  dsimp only [bind_eq_bind, bind_some]
  rw [setInfo_snoc]
  rfl

theorem reads_deserializeBitmap {bitmap : List Octet} (hentry : h.infoAt? index = some info)
    (hlen : h.baType.bitmapLen[index]? = some bitmap.length)
    (hvariant : h.baType.variant ≠ .multiTid) (hinfo : info.bitmap.length = bitmap.length) :
    Reads (h.deserializeBitmap index) bitmap
      (h.setInfo index fun info =>
        { info with bitmap := bitmap ++ info.bitmap.drop bitmap.length }) := by
  unfold deserializeBitmap
  refine (reads_lift hentry).bind ((reads_lift hlen).bind ?_)
  have hok : ¬ (h.baType.variant = .multiTid ∨ info.bitmap.length < bitmap.length) := by
    rintro (htid | hshort)
    · exact hvariant htid
    · omega
  rw [if_neg hok]
  exact (reads_many_octet bitmap rfl).bind_pure rfl

/-- The bitmap of the last entry. -/
theorem reads_deserializeBitmap_snoc (hsta : h.baType.variant = .multiSta)
    (hsame : h.baType.bitmapLen.length = h.baInfo.length) (info : BaInfo) {bitmap : List Octet}
    (hinfo : info.bitmap.length = bitmap.length) :
    Reads ((h.snoc info bitmap.length).deserializeBitmap h.baInfo.length) bitmap
      (h.snoc { info with bitmap := bitmap } bitmap.length) := by
  have hvariant : (h.snoc info bitmap.length).baType.variant = .multiSta := hsta
  have hentry : (h.snoc info bitmap.length).infoAt? h.baInfo.length = some info := by
    rw [infoAt?_eq_staInfoAt? hvariant, staInfoAt?_snoc hsta]
  have hlen : (h.snoc info bitmap.length).baType.bitmapLen[h.baInfo.length]? =
      some bitmap.length := by
    unfold snoc
    dsimp only
    rw [← hsame, List.getElem?_concat_length]
  have hread := reads_deserializeBitmap hentry hlen (by rw [hvariant]; decide) hinfo
  rw [setInfo_snoc, ← hinfo, drop_length, append_nil, hinfo] at hread
  exact hread

/-- A Multi-STA bitmap length is written and read. -/
theorem bitmapLenOf_staFragment (startingSeq : BitVec 16)
    (hlen : bitmapLen = 4 ∨ bitmapLen = 8 ∨ bitmapLen = 16 ∨ bitmapLen = 32) :
    bitmapLenOf .multiSta (seqControl startingSeq (staFragment bitmapLen)) = some bitmapLen := by
  rcases hlen with rfl | rfl | rfl | rfl <;> exact bitmapLenOf_seqControl startingSeq rfl rfl

theorem staFragment_and (bitmapLen : ℕ) :
    staFragment bitmapLen &&& 0x000f = staFragment bitmapLen := by
  unfold staFragment
  split_ifs <;> rfl

variable (hsta : h.baType.variant = .multiSta) (hsame : h.baType.bitmapLen.length = h.baInfo.length)
  (hfits : info.Fits) (hseq : info.startingSeq.toNat < 4096)
include hsta hsame hfits hseq

/-- **The fields of an entry** are read, those that it carries. -/
theorem reads_deserializeInfo :
    Reads ((h.snoc { aidTidInfo := info.aidTidInfo } 0).deserializeInfo h.baInfo.length)
      info.fieldOctets (h.snoc info.carried info.bitmap.length) := by
  have hentry := staInfoAt?_snoc hsta { aidTidInfo := info.aidTidInfo } 0
  unfold BaInfo.Fits at hfits
  unfold fieldOctets carried deserializeInfo
  split at hfits
  · -- an unassociated station
    rename_i haid
    have haid' : ¬ aid11 { aidTidInfo := info.aidTidInfo } ≠ 2045 := fun h => h haid
    rw [if_pos haid, if_pos haid, hfits]
    refine (reads_lift hentry).bind ?_
    rw [if_neg haid']
    refine (reads_readLsb32 0).bind ((reads_readMac48 info.ra).bind_pure ?_)
    unfold snoc
    dsimp only
    rw [length_append, length_append, length_singleton, length_singleton,
      Nat.add_sub_cancel, Nat.add_sub_cancel, set_concat_length, modify_concat_length]
  · rename_i haid
    have haid' : aid11 { aidTidInfo := info.aidTidInfo } ≠ 2045 := haid
    rw [if_neg haid, if_neg haid]
    split at hfits
    · -- with a bitmap
      rename_i hack
      have hack' : ¬ ackType { aidTidInfo := info.aidTidInfo } = true ∧
        tid { aidTidInfo := info.aidTidInfo } < 8 := hack
      rw [if_pos hack, if_pos hack]
      refine (reads_lift hentry).bind ?_
      rw [if_pos haid', if_pos hack']
      refine (reads_readLsb16 _).bind ?_
      refine (reads_lift (setStartingSequenceControl_snoc hsta hsame _
        (bitmapLenOf_staFragment _ hfits))).bind ?_
      rw [seqControl_shift hseq (staFragment_and _)]
      exact reads_deserializeBitmap_snoc hsta hsame _ length_replicate
    · -- without one
      rename_i hack
      have hack' : ¬ (¬ ackType { aidTidInfo := info.aidTidInfo } = true ∧
        tid { aidTidInfo := info.aidTidInfo } < 8) := hack
      rw [if_neg hack, if_neg hack, hfits]
      refine (reads_lift hentry).bind_pure ?_
      rw [if_pos haid', if_neg hack']

/-- **An entry** is read with the fields that it carries. -/
theorem reads_deserializeEntry : Reads (h.deserializeEntry h.baInfo.length) info.octets
      (h.snoc info.carried info.bitmap.length) :=
  (reads_readLsb16 info.aidTidInfo).bind (reads_deserializeInfo hsta hsame hfits hseq)

omit hsta hsame hfits hseq

/-- A header with some entries more. -/
def snocs (h : CtrlBAckResponseHeader) (infos : List BaInfo) : CtrlBAckResponseHeader :=
  infos.foldl (fun h info => h.snoc info.carried info.bitmap.length) h

theorem snocs_eq (h : CtrlBAckResponseHeader) (infos : List BaInfo) :
    h.snocs infos = { h with
      baType := { h.baType with
        bitmapLen := h.baType.bitmapLen ++ infos.map (·.bitmap.length) }
      baInfo := h.baInfo ++ infos.map carried } := by
  unfold snocs
  induction infos generalizing h with
  | nil => simp
  | cons info infos ih =>
    rw [foldl_cons, ih]
    simp [snoc]

/-- There are not more entries than octets. -/
theorem length_le_length_octets : infos.length ≤ (infos.flatMap octets).length := by
  induction infos with
  | nil => exact Nat.le_refl 0
  | cons info infos ih =>
    have hlen : info.octets.length = 2 + info.fieldOctets.length := length_append ..
    rw [flatMap_cons, length_append, length_cons, hlen]
    omega

/-- **The loop over the entries** reads them all, to the end of the octets. -/
theorem run_deserializeEntries {fuel : ℕ} {h : CtrlBAckResponseHeader}
    (hsta : h.baType.variant = .multiSta) (hsame : h.baType.bitmapLen.length = h.baInfo.length)
    (hfits : ∀ info ∈ infos, info.Fits) (hseq : ∀ info ∈ infos, info.startingSeq.toNat < 4096)
    (hfuel : infos.length ≤ fuel) :
    (deserializeEntries fuel h.baInfo.length h).run (infos.flatMap octets) =
      some (h.snocs infos, []) := by
  induction infos generalizing fuel h with
  | nil =>
    cases fuel with
    | zero => rfl
    | succ fuel => rfl
  | cons info infos ih =>
    cases fuel with
    | zero => exact absurd hfuel (Nat.not_succ_le_zero _)
    | succ fuel =>
      have hread := reads_deserializeEntry hsta hsame (hfits info mem_cons_self)
        (hseq info mem_cons_self) (infos.flatMap octets)
      have hsome : (info.octets ++ infos.flatMap octets).isEmpty = false := rfl
      have hnext : (h.snoc info.carried info.bitmap.length).baInfo.length =
          h.baInfo.length + 1 := length_append ..
      have hsame' : (h.snoc info.carried info.bitmap.length).baType.bitmapLen.length =
          (h.snoc info.carried info.bitmap.length).baInfo.length := by simp [snoc, hsame]
      have hrest := ih (h := h.snoc info.carried info.bitmap.length) hsta hsame'
        (fun i hi => hfits i (mem_cons_of_mem _ hi))
        (fun i hi => hseq i (mem_cons_of_mem _ hi)) (Nat.le_of_succ_le_succ hfuel)
      rw [hnext] at hrest
      rw [flatMap_cons]
      unfold deserializeEntries
      rw [StateT.run_bind, StateT.run_get]
      dsimp only [Option.pure_def, Option.bind_eq_bind, Option.bind_some]
      rw [hsome, if_neg Bool.false_ne_true, StateT.run_bind, hread]
      exact hrest

/-! ## Multi-STA BlockAcks -/

/-- A Multi-STA BlockAck whose bitmaps have the lengths of their contexts. -/
structure StaFits (h : CtrlBAckResponseHeader) : Prop where
  variant : h.baType.variant = .multiSta
  bitmapLen : h.baType.bitmapLen = h.baInfo.map (·.bitmap.length)
  fits : ∀ info ∈ h.baInfo, info.Fits
  seq : ∀ info ∈ h.baInfo, info.startingSeq.toNat < 4096

theorem StaFits.serializeEntry (hsta : h.StaFits) (hinfo : h.baInfo[index]? = some info) :
    h.serializeEntry index = some info.octets := by
  have hstaEntry : h.staInfoAt? index = some info := by
    unfold staInfoAt?
    rw [if_pos hsta.variant, hinfo]
  have hentry : h.infoAt? index = some info := by
    rw [infoAt?_eq_staInfoAt? hsta.variant, hstaEntry]
  have hlen : h.baType.bitmapLen[index]? = some info.bitmap.length := by
    rw [hsta.bitmapLen, List.getElem?_map, hinfo]
    rfl
  have hfits := hsta.fits info (mem_of_getElem? hinfo)
  unfold BaInfo.Fits at hfits
  unfold CtrlBAckResponseHeader.serializeEntry octets fieldOctets
  rw [hstaEntry]
  dsimp only [Option.bind_eq_bind, Option.bind_some, Option.pure_def]
  split at hfits
  · rename_i haid
    rw [if_pos haid, if_neg (not_not.mpr haid)]
  · rename_i haid
    rw [if_neg haid, if_pos haid]
    split at hfits
    · rename_i hack
      have hpos : info.bitmap.length > 0 := by omega
      have hsome : info.bitmap ≠ [] := ne_nil_of_length_pos hpos
      have hssc : h.getStartingSequenceControl index =
          some (seqControl info.startingSeq (staFragment info.bitmap.length)) := by
        have hsame : ¬ (h.baType.variant = .multiSta ∧
            (h.baInfo.length ≠ h.baType.bitmapLen.length ∨ info.bitmap = [])) := by
          rw [hsta.bitmapLen, length_map]
          rintro ⟨-, hne | hnil⟩
          · exact hne rfl
          · exact hsome hnil
        unfold getStartingSequenceControl fragmentNumber
        rw [hentry, hlen]
        dsimp only [bind_eq_bind, bind_some]
        rw [if_neg hsame, hsta.variant]
        rfl
      have hbitmap : h.serializeBitmap index = some info.bitmap := by
        have hnot : h.baType.variant ≠ .multiTid := by
          rw [hsta.variant]
          decide
        unfold serializeBitmap
        rw [hentry]
        dsimp only [bind_eq_bind, bind_some]
        rw [if_neg hnot]
        rfl
      rw [if_pos hpos, if_pos hack, hssc, hbitmap]
      rfl
    · rename_i hack
      rw [if_neg hack, if_neg (by omega), append_nil]

theorem mapM_range {α β : Type} {xs : List α} {f : ℕ → Option β} {g : α → β}
    (hf : ∀ i a, xs[i]? = some a → f i = some (g a)) :
    (List.range xs.length).mapM f = some (xs.map g) := by
  induction xs generalizing f with
  | nil => rfl
  | cons x xs ih =>
    have hrest := ih (f := fun i => f (i + 1)) fun i a ha => hf (i + 1) a ha
    rw [length_cons, range_succ_eq_map, mapM_cons, hf 0 x rfl, mapM_map]
    dsimp only [bind_eq_bind, bind_some]
    change ((List.range xs.length).mapM fun i => f (i + 1)).bind _ = _
    rw [hrest]
    rfl

theorem StaFits.serialize (hsta : h.StaFits) :
    h.serialize = some (octetsLsb16 h.getBaControl ++ h.baInfo.flatMap octets) := by
  unfold CtrlBAckResponseHeader.serialize
  rw [hsta.variant]
  dsimp only
  rw [mapM_range fun i a ha => hsta.serializeEntry ha]
  rfl

/-- The sizes of the entries add up. -/
theorem foldl_staSize (hfits : ∀ info ∈ infos, info.Fits) (size : ℕ) :
    (infos.map (·.bitmap.length)).foldl
      (fun size bitmapLen => size + (2 + (if bitmapLen > 0 then 2 else 0) + bitmapLen)) size =
      size + (infos.flatMap octets).length := by
  induction infos generalizing size with
  | nil => rfl
  | cons info infos ih =>
    rw [map_cons, foldl_cons, ih fun i hi => hfits i (mem_cons_of_mem _ hi),
      flatMap_cons, length_append,
      length_octets (hfits info mem_cons_self), Nat.add_assoc]
    rfl

theorem StaFits.getSerializedSize (hsta : h.StaFits) :
    h.getSerializedSize =
      some (octetsLsb16 h.getBaControl ++ h.baInfo.flatMap octets).length := by
  unfold CtrlBAckResponseHeader.getSerializedSize
  rw [hsta.variant, hsta.bitmapLen]
  dsimp only
  rw [foldl_staSize _ hsta.fits, length_append]
  rfl

/-! ## BA Control -/

/-- The BA Control field holds the variant, the policy and the TID. -/
theorem getBaControl_facts (h : CtrlBAckResponseHeader) (htid : h.tidInfo.toNat < 16) :
    variantOf h.getBaControl = some h.baType.variant ∧
    (h.getBaControl &&& 0x01 == 1) = h.baAckPolicy ∧
    (h.baType.variant ≠ .multiSta → (h.getBaControl >>> 12) &&& 0x0f = h.tidInfo) := by
  obtain ⟨policy, ⟨variant, bitmapLen⟩, tid, infos⟩ := h
  have hall : ∀ k < 16, ∀ policy : Bool,
      variantOf (getBaControl ⟨policy, ⟨variant, []⟩, .ofNat 16 k, []⟩) = some variant ∧
      (getBaControl ⟨policy, ⟨variant, []⟩, .ofNat 16 k, []⟩ &&& 0x01 == 1) = policy ∧
      (variant ≠ .multiSta →
        (getBaControl ⟨policy, ⟨variant, []⟩, .ofNat 16 k, []⟩ >>> 12) &&& 0x0f = .ofNat 16 k) := by
    cases variant <;> decide
  have h := hall tid.toNat htid policy
  rw [BitVec.ofNat_toNat, BitVec.setWidth_eq] at h
  exact h

/-- **The BA Control field is read** into whatever header. -/
theorem setBaControl_getBaControl (used h : CtrlBAckResponseHeader) (htid : h.tidInfo.toNat < 16) :
    used.setBaControl h.getBaControl = some (setType { used with
      baAckPolicy := h.baAckPolicy
      tidInfo := if h.baType.variant ≠ .multiSta then h.tidInfo else used.tidInfo }
        (.ofVariant h.baType.variant)) := by
  obtain ⟨hvariant, hpolicy, htidInfo⟩ := h.getBaControl_facts htid
  unfold setBaControl
  rw [hvariant, hpolicy]
  dsimp only [bind_eq_bind, bind_some]
  split
  · rename_i hnot
    rw [htidInfo hnot]
    rfl
  · rfl

/-- The header that a Multi-STA BlockAck is read as, into another one. -/
def carried (h used : CtrlBAckResponseHeader) : CtrlBAckResponseHeader :=
  { h with tidInfo := used.tidInfo, baInfo := h.baInfo.map BaInfo.carried }

theorem getElem?_carried (used : CtrlBAckResponseHeader) (hinfo : h.baInfo[index]? = some info) :
    (h.carried used).baInfo[index]? = some info.carried := by
  unfold carried
  dsimp only
  rw [List.getElem?_map, hinfo]
  rfl

/-- **A Multi-STA BlockAck is read** with all the fields that it carries. -/
theorem StaFits.deserialize (hsta : h.StaFits) (htid : h.tidInfo.toNat < 16)
    (used : CtrlBAckResponseHeader) :
    used.deserialize (octetsLsb16 h.getBaControl ++ h.baInfo.flatMap BaInfo.octets) =
      some (h.carried used,
        (octetsLsb16 h.getBaControl ++ h.baInfo.flatMap octets).length) := by
  have hcontrol := setBaControl_getBaControl used h htid
  rw [hsta.variant] at hcontrol
  have hfuel : h.baInfo.length ≤ (h.baInfo.flatMap octets).length :=
    length_le_length_octets h.baInfo
  have hloop := run_deserializeEntries h.baInfo
    (h := setType { used with baAckPolicy := h.baAckPolicy } (.ofVariant .multiSta)) rfl rfl
    hsta.fits hsta.seq hfuel
  have hread : used.readFields.run (octetsLsb16 h.getBaControl ++ h.baInfo.flatMap octets) =
      some (h.carried used, []) := by
    unfold readFields
    rw [run_bind_of_reads (reads_readLsb16 h.getBaControl), run_lift_bind hcontrol]
    rw [snocs_eq] at hloop
    have hsame : h.baType = ⟨.multiSta, h.baInfo.map (·.bitmap.length)⟩ := by
      rw [← hsta.variant, ← hsta.bitmapLen]
    unfold carried
    rw [hsame]
    exact hloop
  unfold CtrlBAckResponseHeader.deserialize
  rw [hread]
  rfl

/-! ## Compressed BlockAcks -/

/-- A compressed BlockAck with a bitmap of 8 or 32 octets. -/
structure CompressedFits (h : CtrlBAckResponseHeader) : Prop where
  variant : h.baType.variant = .compressed
  entry : ∃ startingSeq bitmap, h.baInfo = [{ startingSeq, bitmap }] ∧
    h.baType.bitmapLen = [bitmap.length] ∧ (bitmap.length = 8 ∨ bitmap.length = 32) ∧
    startingSeq.toNat < 4096

theorem setStartingSequenceControl_compressed {w : BitVec 16}
    (hvariant : h.baType.variant = .compressed) (hentry : h.baInfo[0]? = some info)
    (hlen : bitmapLenOf .compressed w = some bitmapLen) :
    h.setStartingSequenceControl w 0 = some { h with
      baType := ⟨.compressed, [bitmapLen]⟩
      baInfo := [{
        startingSeq := (w >>> 4) &&& 0x0fff
        bitmap := List.replicate bitmapLen 0 }] } := by
  have hzero : h.infoAt? 0 = some info := by
    unfold infoAt?
    rw [if_pos (Or.inr rfl), hentry]
  unfold setStartingSequenceControl setBitmapLen
  rw [hzero, hvariant]
  dsimp only [bind_eq_bind, bind_some]
  rw [hlen]
  rfl

/-- **A compressed BlockAck is written and read**, whatever comes behind it. -/
theorem CompressedFits.codec (hfits : h.CompressedFits) (htid : h.tidInfo.toNat < 16) :
    ∃ octets, h.serialize = some octets ∧ h.getSerializedSize = some octets.length ∧
      ∀ used : CtrlBAckResponseHeader, Reads used.readFields octets h := by
  obtain ⟨startingSeq, bitmap, hinfo, hlen, hbitmap, hseq⟩ := hfits.entry
  have hvariant := hfits.variant
  obtain ⟨policy, ⟨variant, bitmapLen⟩, tid, infos⟩ := h
  cases hvariant
  cases hinfo
  cases hlen
  have hfragment : ∃ fragment : BitVec 16,
      fragment = (if bitmap.length = 32 then 0x0004 else 0) ∧
      fragment &&& 0x000f = fragment ∧
      bitmapLenOf .compressed fragment = some bitmap.length := by
    refine ⟨_, rfl, ?_⟩
    rcases hbitmap with h | h <;> rw [h] <;> exact ⟨rfl, rfl⟩
  obtain ⟨fragment, hfragment, hand, hlenOf⟩ := hfragment
  refine ⟨octetsLsb16 (getBaControl ⟨policy, ⟨.compressed, [bitmap.length]⟩, tid,
    [{ startingSeq, bitmap }]⟩) ++ (octetsLsb16 (seqControl startingSeq fragment) ++ bitmap),
    ?_, ?_, fun used => ?_⟩
  · rw [hfragment]
    rfl
  · rw [length_append, length_append]
    rfl
  · have hcontrol := setBaControl_getBaControl used ⟨policy, ⟨.compressed, [bitmap.length]⟩, tid,
      [{ startingSeq, bitmap }]⟩ htid
    unfold readFields
    refine (reads_readLsb16 _).bind ((reads_lift hcontrol).bind ?_)
    refine (reads_readLsb16 _).bind ?_
    refine (reads_lift (setStartingSequenceControl_compressed rfl rfl
      (bitmapLenOf_seqControl startingSeq hand hlenOf))).bind ?_
    rw [seqControl_shift hseq hand]
    have hread : Reads (deserializeBitmap ⟨policy, ⟨.compressed, [bitmap.length]⟩, tid,
        [{ startingSeq, bitmap := List.replicate bitmap.length 0 }]⟩ 0) bitmap
        ⟨policy, ⟨.compressed, [bitmap.length]⟩, tid, [{
          startingSeq
          bitmap := bitmap ++ (List.replicate bitmap.length (0 : Octet)).drop bitmap.length }]⟩ :=
      reads_deserializeBitmap rfl rfl nofun length_replicate
    rw [drop_replicate, Nat.sub_self, replicate_zero, append_nil] at hread
    exact hread

end CtrlBAckResponseHeader

end Ns3Dsme.Wifi
