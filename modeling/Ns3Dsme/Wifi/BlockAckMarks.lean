/-
# What a BlockAck acknowledges

A BlockAck that is built with its setters, in whatever order, holds in each bitmap the sequence
numbers that were marked, and still does so after it was written and read.
-/
import Ns3Dsme.Wifi.BlockAckCodec

open Option List

namespace Ns3Dsme.Wifi

/-- How far a sequence number is behind a starting sequence. -/
def seqOffset (seq startingSeq : BitVec 16) : ℕ :=
  (seq.toNat + seqnoSpaceSize - startingSeq.toNat) % seqnoSpaceSize

/-- The bitmap has the marked sequence numbers. -/
def BaInfo.Marks (info : BaInfo) (seqs : List (BitVec 16)) : Prop :=
  ∀ i < 8 * info.bitmap.length,
    Bitmap.test info.bitmap i = true ↔ ∃ seq ∈ seqs, seqOffset seq info.startingSeq = i

/-- A sequence number is marked in its entry. -/
theorem BaInfo.Marks.mark {info : BaInfo} {seqs : List (BitVec 16)} (h : info.Marks seqs)
    {seq : BitVec 16} (hin : seqOffset seq info.startingSeq < 8 * info.bitmap.length) :
    BaInfo.Marks { info with bitmap := Bitmap.mark info.bitmap (seqOffset seq info.startingSeq) }
      (seqs ++ [seq]) := by
  intro i hi
  rw [Bitmap.length_mark] at hi
  rw [Bitmap.test_mark (by omega), Bool.or_eq_true, decide_eq_true_iff, h i hi]
  constructor
  · rintro (⟨s, hs, hsi⟩ | rfl)
    · exact ⟨s, mem_append_left _ hs, hsi⟩
    · exact ⟨seq, mem_append_right _ mem_cons_self, rfl⟩
  · rintro ⟨s, hs, hsi⟩
    rcases mem_append.mp hs with hold | hnew
    · exact .inl ⟨s, hold, hsi⟩
    · rw [mem_singleton.mp hnew] at hsi
      exact .inr hsi.symm

/-- A sequence number outside of the bitmap leaves it as it is. -/
theorem BaInfo.Marks.outside {info : BaInfo} {seqs : List (BitVec 16)} (h : info.Marks seqs)
    {seq : BitVec 16} (hout : ¬ seqOffset seq info.startingSeq < 8 * info.bitmap.length) :
    info.Marks (seqs ++ [seq]) := by
  intro i hi
  rw [h i hi]
  constructor
  · rintro ⟨s, hs, hsi⟩
    exact ⟨s, mem_append_left _ hs, hsi⟩
  · rintro ⟨s, hs, hsi⟩
    rcases mem_append.mp hs with hold | hnew
    · exact ⟨s, hold, hsi⟩
    · rw [mem_singleton.mp hnew] at hsi
      exact absurd (hsi ▸ hi) hout

namespace CtrlBAckResponseHeader

variable {h : CtrlBAckResponseHeader}

/-! ## The two index functions -/

section Index

variable {index bitmapLen : ℕ} {info : BaInfo} {seq : BitVec 16}

theorem nAckedMpdus_eq (hbasic : h.baType.variant ≠ .basic) (bitmapLen : ℕ) :
    h.nAckedMpdus bitmapLen = 8 * bitmapLen := by
  unfold nAckedMpdus
  rw [if_neg hbasic, Nat.mul_comm]

/-- `IsInBitmap` compares the offset. -/
theorem isInBitmap_eq (hentry : h.infoAt? index = some info)
    (hlen : h.baType.bitmapLen[index]? = some bitmapLen) (hbasic : h.baType.variant ≠ .basic)
    (hseq : seq.toNat < 4096) (hstart : info.startingSeq.toNat < 4096) :
    h.isInBitmap seq index = some (decide (seqOffset seq info.startingSeq < 8 * bitmapLen)) := by
  unfold isInBitmap
  rw [hentry, hlen]
  dsimp only [bind_eq_bind, bind_some]
  rw [nAckedMpdus_eq hbasic]
  have hmod : ((seq.toNat : ℤ) - info.startingSeq.toNat + seqnoSpaceSize).tmod seqnoSpaceSize =
      (seqOffset seq info.startingSeq : ℕ) := by
    unfold seqOffset seqnoSpaceSize
    rw [Int.tmod_eq_emod_of_nonneg (by omega)]
    omega
  rw [hmod]
  exact congrArg some (decide_eq_decide.mpr Int.ofNat_lt)

/-- `IndexInBitmap` is the offset. -/
theorem indexInBitmap_eq (hentry : h.infoAt? index = some info)
    (hlen : h.baType.bitmapLen[index]? = some bitmapLen) (hbasic : h.baType.variant ≠ .basic)
    (hseq : seq.toNat < 4096) (hstart : info.startingSeq.toNat < 4096)
    (hin : seqOffset seq info.startingSeq < 8 * bitmapLen) :
    h.indexInBitmap seq index = some (seqOffset seq info.startingSeq) := by
  have hi : (if info.startingSeq ≤ seq then (seq - info.startingSeq).toNat
      else (BitVec.ofNat 16 seqnoSpaceSize - info.startingSeq + seq).toNat) =
      seqOffset seq info.startingSeq := by
    unfold seqOffset seqnoSpaceSize
    split
    · rename_i hle
      rw [BitVec.le_def] at hle
      rw [BitVec.toNat_sub]
      omega
    · rename_i hlt
      rw [BitVec.le_def] at hlt
      rw [BitVec.toNat_add, BitVec.toNat_sub, BitVec.toNat_ofNat]
      omega
  unfold indexInBitmap
  rw [hentry, hlen]
  dsimp only [bind_eq_bind, bind_some]
  rw [hi, nAckedMpdus_eq hbasic, if_pos hin]

variable (hentry : h.infoAt? index = some info)
  (hlen : h.baType.bitmapLen[index]? = some info.bitmap.length) (hbasic : h.baType.variant ≠ .basic)
  (htid : h.baType.variant ≠ .multiTid)
include hentry hlen hbasic htid

/-- **What `IsPacketReceived` says** of a sequence number outside of the all-ack context. -/
theorem isPacketReceived_eq
    (hall : ¬ (h.baType.variant = .multiSta ∧ info.ackType = true ∧ info.tid = 14))
    (hseq : seq.toNat < 4096) (hstart : info.startingSeq.toNat < 4096) :
    h.isPacketReceived seq index =
      some (decide (seqOffset seq info.startingSeq < 8 * info.bitmap.length) &&
        Bitmap.test info.bitmap (seqOffset seq info.startingSeq)) := by
  unfold isPacketReceived
  rw [hentry]
  dsimp only [bind_eq_bind, bind_some]
  rw [if_neg hall, isInBitmap_eq hentry hlen hbasic hseq hstart]
  dsimp only [bind_some]
  by_cases hin : seqOffset seq info.startingSeq < 8 * info.bitmap.length
  · -- both index functions agree
    have hindex := indexInBitmap_eq hentry hlen hbasic hseq hstart hin
    have hoctet : info.bitmap[seqOffset seq info.startingSeq / 8]? =
        some (info.bitmap.getD (seqOffset seq info.startingSeq / 8) 0) := by
      rw [getD_eq_getElem?_getD, List.getElem?_eq_getElem (by omega)]
      rfl
    have hbit : (info.bitmap.getD (seqOffset seq info.startingSeq / 8) 0 &&&
        Bitmap.mask (seqOffset seq info.startingSeq) != 0) =
          Bitmap.test info.bitmap (seqOffset seq info.startingSeq) := by
      rw [Bool.eq_iff_iff, bne_iff_ne, Bitmap.and_mask_ne_zero]
      rfl
    rw [decide_eq_true hin, if_pos rfl, hindex, Bool.true_and]
    cases hvariant : h.baType.variant with
    | basic => exact absurd hvariant hbasic
    | multiTid => exact absurd hvariant htid
    | compressed | extendedCompressed | multiSta =>
      dsimp only [bind_some]
      rw [hoctet, ← hbit]
      rfl
  · rw [decide_eq_false hin]
    rfl

/-- **What `SetReceivedPacket` does**: it sets the bit of the sequence number, where it has one. -/
theorem setReceivedPacket_eq (hseq : seq.toNat < 4096) (hstart : info.startingSeq.toNat < 4096) :
    h.setReceivedPacket seq index =
      some (if seqOffset seq info.startingSeq < 8 * info.bitmap.length then
        h.setInfo index fun old => { old with
          bitmap := Bitmap.mark old.bitmap (seqOffset seq info.startingSeq) }
      else h) := by
  unfold setReceivedPacket
  rw [hentry, isInBitmap_eq hentry hlen hbasic hseq hstart]
  dsimp only [bind_eq_bind, bind_some]
  by_cases hin : seqOffset seq info.startingSeq < 8 * info.bitmap.length
  · have hbit : h.bitOf (seqOffset seq info.startingSeq) =
        some (seqOffset seq info.startingSeq) := by
      unfold bitOf
      cases hvariant : h.baType.variant with
      | basic => exact absurd hvariant hbasic
      | multiTid => exact absurd hvariant htid
      | compressed | extendedCompressed | multiSta => rfl
    rw [indexInBitmap_eq hentry hlen hbasic hseq hstart hin, bind_some, hbit,
      bind_some, if_pos hin, if_pos (decide_eq_true hin), if_pos (by omega)]
    rfl
  · rw [if_neg hin, decide_eq_false hin, if_neg Bool.false_ne_true]
    rfl

end Index

/-! ## Runs of setters -/

/-- A setter with its arguments. -/
inductive Call
  | setHtImmediateAck (immediateAck : Bool)
  | setTidInfo (tid : Octet) (index : ℕ)
  | setStartingSequence (seq : BitVec 16) (index : ℕ)
  | setAid11 (aid : BitVec 16) (index : ℕ)
  | setAckType (type : Bool) (index : ℕ)
  | setUnassociatedStaAddress (ra : Mac48Address) (index : ℕ)
  | setReceivedPacket (seq : BitVec 16) (index : ℕ)
  deriving DecidableEq

def apply (h : CtrlBAckResponseHeader) : Call → Option CtrlBAckResponseHeader
  | .setHtImmediateAck immediateAck => some (h.setHtImmediateAck immediateAck)
  | .setTidInfo tid index => h.setTidInfo tid index
  | .setStartingSequence seq index => h.setStartingSequence seq index
  | .setAid11 aid index => h.setAid11 aid index
  | .setAckType type index => h.setAckType type index
  | .setUnassociatedStaAddress ra index => h.setUnassociatedStaAddress ra index
  | .setReceivedPacket seq index => h.setReceivedPacket seq index

/-- A TID is below 16, and a sequence number below 4096. -/
def Call.isValid : Call → Bool
  | .setTidInfo tid _ => decide (tid.toNat < 16)
  | .setStartingSequence seq _ | .setReceivedPacket seq _ => decide (seq.toNat < 4096)
  | _ => true

/-- The starting sequence of an entry is not set after a packet was marked there. -/
def Call.mayPrecede : Call → Call → Bool
  | .setReceivedPacket _ index, .setStartingSequence _ index' => index != index'
  | _, _ => true

/-- The sequence number that a call marks in an entry. -/
def Call.seq? (index : ℕ) : Call → Option (BitVec 16)
  | .setReceivedPacket seq index' => if index' = index then some seq else none
  | _ => none

/-- The sequence numbers that are marked in an entry. -/
def marked (calls : List Call) (index : ℕ) : List (BitVec 16) := calls.filterMap (Call.seq? index)

/-- The types of compressed and Multi-STA BlockAcks. -/
def IsPerPacket (type : BlockAckType) : Prop :=
  type.variant = .multiSta ∨ type = ⟨.compressed, [8]⟩ ∨ type = ⟨.compressed, [32]⟩

/-- An entry of a header that was built with some marks. -/
structure EntryBuilt (type : BlockAckType) (bitmapLen : ℕ) (seqs : List (BitVec 16))
    (info : BaInfo) : Prop where
  length : info.bitmap.length = bitmapLen
  start : info.startingSeq.toNat < 4096
  marks : info.Marks seqs
  plain : type.variant ≠ .multiSta → info.aidTidInfo = 0 ∧ info.ra = 0

/-- A header that was built with some marks. -/
structure Built (type : BlockAckType) (seqs : ℕ → List (BitVec 16)) (h : CtrlBAckResponseHeader) :
    Prop where
  baType : h.baType = type
  tid : h.tidInfo.toNat < 16
  size : h.baInfo.length = type.bitmapLen.length
  entries : ∀ index info bitmapLen, h.baInfo[index]? = some info →
    type.bitmapLen[index]? = some bitmapLen → EntryBuilt type bitmapLen (seqs index) info

variable {type : BlockAckType} {seqs : ℕ → List (BitVec 16)} {calls : List Call}

/-- A fresh header. -/
theorem built_setType (type : BlockAckType) : Built type (fun _ => []) (new.setType type) where
  baType := rfl
  tid := Nat.zero_lt_succ _
  size := length_map ..
  entries := by
    intro index info bitmapLen hinfo hlen
    have hmap : (new.setType type).baInfo[index]? =
        some { bitmap := List.replicate bitmapLen 0 } := by
      unfold setType
      dsimp only
      rw [List.getElem?_map, hlen]
      rfl
    rw [hmap] at hinfo
    cases hinfo
    refine ⟨length_replicate, Nat.zero_lt_succ _, fun i hi => ?_, fun _ => ⟨rfl, rfl⟩⟩
    rw [Bitmap.test_replicate_zero]
    simp

variable {index : ℕ} {info : BaInfo} {seq : BitVec 16}

/-- A change of one entry. -/
theorem Built.setInfo (hb : Built type seqs h) {f : BaInfo → BaInfo} {seqs' : ℕ → List (BitVec 16)}
    (hother : ∀ i, i ≠ index → seqs' i = seqs i)
    (hf : ∀ info bitmapLen, h.baInfo[index]? = some info →
      EntryBuilt type bitmapLen (seqs index) info →
      EntryBuilt type bitmapLen (seqs' index) (f info)) :
    Built type seqs' (h.setInfo index f) where
  baType := hb.baType
  tid := hb.tid
  size := by
    rw [← hb.size]
    exact length_modify ..
  entries := by
    intro i info bitmapLen hinfo hlen
    unfold CtrlBAckResponseHeader.setInfo at hinfo
    dsimp only at hinfo
    rw [List.getElem?_modify] at hinfo
    obtain ⟨old, hold, hsame⟩ := map_eq_some_iff.mp hinfo
    have hentry := hb.entries i old bitmapLen hold hlen
    by_cases hi : i = index
    · subst hi
      rw [if_pos rfl] at hsame
      rw [← hsame]
      exact hf old bitmapLen hold hentry
    · rw [if_neg (Ne.symm hi)] at hsame
      rw [← hsame, hother i hi]
      exact hentry

theorem marked_append (calls : List Call) (call : Call) (index : ℕ) :
    marked (calls ++ [call]) index = marked calls index ++ (Call.seq? index call).toList := by
  unfold marked
  rw [filterMap_append]
  cases hcall : Call.seq? index call with
  | none => rw [filterMap_cons_none hcall, filterMap_nil, toList_none]
  | some seq => rw [filterMap_cons_some hcall, filterMap_nil, toList_some]

/-- A call that marks nothing. -/
theorem marked_append_of_none {call : Call} (hcall : ∀ index, Call.seq? index call = none)
    (calls : List Call) : marked (calls ++ [call]) = marked calls := by
  funext index
  rw [marked_append, hcall index]
  exact append_nil _

/-- A starting sequence is set before there are marks. -/
theorem marked_eq_nil
    (horder : ∀ first ∈ calls, first.mayPrecede (.setStartingSequence seq index) = true) :
    marked calls index = [] := by
  unfold marked
  rw [filterMap_eq_nil_iff]
  intro call hcall
  have hprecede := horder call hcall
  cases call with
  | setReceivedPacket seq' index' =>
    have hne : index' ≠ index := bne_iff_ne.mp hprecede
    exact if_neg hne
  | _ => rfl

/-- An entry whose starting sequence and bitmap stay. -/
theorem EntryBuilt.congr {bitmapLen : ℕ} {seqs : List (BitVec 16)} {info info' : BaInfo}
    (h : EntryBuilt type bitmapLen seqs info) (hbitmap : info'.bitmap = info.bitmap)
    (hstart : info'.startingSeq = info.startingSeq)
    (hplain : type.variant ≠ .multiSta → info'.aidTidInfo = 0 ∧ info'.ra = 0) :
    EntryBuilt type bitmapLen seqs info' where
  length := by rw [hbitmap, h.length]
  start := by
    rw [hstart]
    exact h.start
  marks := by
    intro i hi
    rw [hbitmap] at hi ⊢
    rw [hstart]
    exact h.marks i hi
  plain := hplain

theorem staInfoAt?_some (h' : h.staInfoAt? index = some info) :
    h.baType.variant = .multiSta := by
  unfold staInfoAt? at h'
  split at h'
  · assumption
  · cases h'

/-- A change of an entry of a Multi-STA BlockAck that keeps its starting sequence and bitmap. -/
theorem Built.setInfo_sta (hb : Built type seqs h) {f : BaInfo → BaInfo}
    (hsta : h.staInfoAt? index = some info) (hbitmap : ∀ info, (f info).bitmap = info.bitmap)
    (hstart : ∀ info, (f info).startingSeq = info.startingSeq) :
    Built type seqs (h.setInfo index f) := by
  apply hb.setInfo fun _ _ => rfl
  intro old bitmapLen _ hold
  refine hold.congr (hbitmap old) (hstart old) fun hnot => ?_
  rw [← hb.baType] at hnot
  exact absurd (staInfoAt?_some hsta) hnot

/-- An entry of a header that was built. -/
theorem Built.entry (hb : Built type seqs h) (hinfo : h.infoAt? index = some info) :
    h.baInfo[index]? = some info ∧
      h.baType.bitmapLen[index]? = some info.bitmap.length ∧
      EntryBuilt type info.bitmap.length (seqs index) info := by
  have hget : h.baInfo[index]? = some info := by
    unfold infoAt? at hinfo
    split at hinfo
    · exact hinfo
    · cases hinfo
  obtain ⟨hlt, -⟩ := List.getElem?_eq_some_iff.mp hget
  rw [hb.size] at hlt
  have hlen : type.bitmapLen[index]? = some type.bitmapLen[index] := List.getElem?_eq_getElem hlt
  have hentry := hb.entries index info _ hget hlen
  rw [← hentry.length] at hlen hentry
  rw [hb.baType]
  exact ⟨hget, hlen, hentry⟩

theorem IsPerPacket.ne_basic (h : IsPerPacket type) : type.variant ≠ .basic := by
  rcases h with h | rfl | rfl
  · rw [h]
    decide
  · decide
  · decide

theorem IsPerPacket.ne_multiTid (h : IsPerPacket type) : type.variant ≠ .multiTid := by
  rcases h with h | rfl | rfl
  · rw [h]
    decide
  · decide
  · decide

/-- **The step lemma**: a setter that is called in order. -/
theorem Built.apply (hb : Built type (marked calls) h) (htype : IsPerPacket type) {call : Call}
    (hvalid : call.isValid = true) (horder : ∀ first ∈ calls, first.mayPrecede call = true)
    {h' : CtrlBAckResponseHeader} (happly : h.apply call = some h') :
    Built type (marked (calls ++ [call])) h' := by
  cases call with
  | setHtImmediateAck immediateAck =>
    rw [marked_append_of_none fun _ => rfl]
    cases happly
    exact { hb with }
  | setTidInfo tid index =>
    rw [marked_append_of_none fun _ => rfl]
    obtain ⟨info, hinfo, hset⟩ := bind_eq_some_iff.mp happly
    split at hset
    · cases hset
      have htid : tid.toNat < 16 := of_decide_eq_true hvalid
      refine ⟨hb.baType, ?_, hb.size, hb.entries⟩
      show (tid.setWidth 16).toNat < 16
      rw [BitVec.toNat_setWidth]
      omega
    · rename_i hsta
      cases hset
      have hsta' : h.staInfoAt? index = some info := by
        rw [← infoAt?_eq_staInfoAt? (not_not.mp hsta), hinfo]
      exact hb.setInfo_sta hsta' (fun _ => rfl) fun _ => rfl
  | setStartingSequence seq index =>
    rw [marked_append_of_none fun _ => rfl]
    obtain ⟨info, hinfo, hset⟩ := bind_eq_some_iff.mp happly
    cases hset
    have hempty := marked_eq_nil horder
    apply hb.setInfo fun _ _ => rfl
    intro old bitmapLen _ hold
    rw [hempty] at hold ⊢
    refine ⟨hold.length, of_decide_eq_true hvalid, fun i hi => ?_, hold.plain⟩
    rw [hold.marks i hi]
    simp
  | setAid11 aid index =>
    rw [marked_append_of_none fun _ => rfl]
    obtain ⟨info, hinfo, hset⟩ := bind_eq_some_iff.mp happly
    cases hset
    exact hb.setInfo_sta hinfo (fun _ => rfl) fun _ => rfl
  | setAckType ackType index =>
    rw [marked_append_of_none fun _ => rfl]
    obtain ⟨info, hinfo, hset⟩ := bind_eq_some_iff.mp happly
    split at hset
    · cases hset
      exact hb.setInfo_sta hinfo (fun _ => rfl) fun _ => rfl
    · cases hset
      exact hb
  | setUnassociatedStaAddress ra index =>
    rw [marked_append_of_none fun _ => rfl]
    obtain ⟨info, hinfo, hset⟩ := bind_eq_some_iff.mp happly
    split at hset
    · cases hset
      exact hb.setInfo_sta hinfo (fun _ => rfl) fun _ => rfl
    · cases hset
  | setReceivedPacket seq index =>
    obtain ⟨info, hinfo, -⟩ := bind_eq_some_iff.mp happly
    have hseq : seq.toNat < 4096 := of_decide_eq_true hvalid
    obtain ⟨hget, hlen, hentry⟩ := hb.entry hinfo
    have hother : ∀ i, i ≠ index →
        marked (calls ++ [.setReceivedPacket seq index]) i = marked calls i := by
      intro i hi
      rw [marked_append]
      show _ ++ (if index = i then some seq else none).toList = _
      rw [if_neg (Ne.symm hi)]
      exact append_nil _
    have hsame : marked (calls ++ [.setReceivedPacket seq index]) index =
        marked calls index ++ [seq] := by
      rw [marked_append]
      show _ ++ (if index = index then some seq else none).toList = _
      rw [if_pos rfl]
      rfl
    have happly' : h.setReceivedPacket seq index = some h' := happly
    rw [setReceivedPacket_eq hinfo hlen (hb.baType ▸ htype.ne_basic) (hb.baType ▸ htype.ne_multiTid)
      hseq hentry.start] at happly'
    cases happly'
    split
    · -- the bit of the packet
      rename_i hin
      apply hb.setInfo hother
      intro old bitmapLen hold hbuilt
      cases hget.symm.trans hold
      rw [hsame]
      exact ⟨(Bitmap.length_mark ..).trans hbuilt.length, hbuilt.start, hbuilt.marks.mark hin,
        hbuilt.plain⟩
    · -- no bit
      rename_i hout
      have hid : h.setInfo index id = h := by
        unfold CtrlBAckResponseHeader.setInfo
        rw [modify_id]
      rw [← hid]
      apply hb.setInfo hother
      intro old bitmapLen hold hbuilt
      cases hget.symm.trans hold
      rw [hsame]
      exact ⟨hbuilt.length, hbuilt.start, hbuilt.marks.outside hout, hbuilt.plain⟩

/-- **The run lemma**. -/
theorem Built.foldlM (htype : IsPerPacket type) (rest : List Call)
    (hvalid : ∀ call ∈ rest, call.isValid = true)
    (horder : (calls ++ rest).Pairwise fun first later => first.mayPrecede later = true)
    (hb : Built type (marked calls) h) {h' : CtrlBAckResponseHeader}
    (hrun : rest.foldlM CtrlBAckResponseHeader.apply h = some h') :
    Built type (marked (calls ++ rest)) h' := by
  induction rest generalizing calls h with
  | nil =>
    rw [append_nil]
    cases hrun
    exact hb
  | cons call rest ih =>
    obtain ⟨mid, hmid, hrest⟩ := bind_eq_some_iff.mp hrun
    have hnext := hb.apply htype (hvalid call mem_cons_self)
      (fun first hfirst => (pairwise_append.mp horder).2.2 first hfirst call
        mem_cons_self) hmid
    rw [append_cons] at horder ⊢
    exact ih (fun c hc => hvalid c (mem_cons_of_mem _ hc)) horder hnext hrest

/-! ## Written and read -/

/-- The entry acknowledges every packet. -/
def IsAllAck (h : CtrlBAckResponseHeader) (info : BaInfo) : Prop :=
  h.baType.variant = .multiSta ∧ info.ackType = true ∧ info.tid = 14

/-- Every entry is restored, with the fields that its context has. -/
structure Restored (h h' : CtrlBAckResponseHeader) : Prop where
  baAckPolicy : h'.baAckPolicy = h.baAckPolicy
  baType : h'.baType = h.baType
  tidInfo : h.baType.variant ≠ .multiSta → h'.tidInfo = h.tidInfo
  size : h'.baInfo.length = h.baInfo.length
  entries : ∀ (index : ℕ) (info : BaInfo), h.baInfo[index]? = some info →
    ∃ info' : BaInfo, h'.baInfo[index]? = some info' ∧ info'.aidTidInfo = info.aidTidInfo ∧
      (info.aid11 = 2045 → info'.ra = info.ra) ∧
      (info.aid11 ≠ 2045 → info.IsBlockAck →
        info'.startingSeq = info.startingSeq ∧ info'.bitmap = info.bitmap)

/-- A header with its marks is written with the size that it says and read into another one with
that size; all entries are restored and say of every sequence number whether it was marked. -/
def Acknowledges (calls : List Call) (h used : CtrlBAckResponseHeader) (rest : List Octet) : Prop :=
  ∃ octets h', h.serialize = some octets ∧ h.getSerializedSize = some octets.length ∧
    used.deserialize (octets ++ rest) = some (h', octets.length) ∧ h.Restored h' ∧
    ∀ (index : ℕ) (info : BaInfo), h.baInfo[index]? = some info →
      (h.IsAllAck info → ∀ seq, h'.isPacketReceived seq index = some true) ∧
      (¬ h.IsAllAck info → info.aid11 ≠ 2045 → ∀ seq : BitVec 16, seq.toNat < 4096 →
        h'.isPacketReceived seq index = some (decide (seq ∈ marked calls index ∧
          seqOffset seq info.startingSeq < 8 * info.bitmap.length)))

theorem infoAt?_of_sta (hsta : h.baType.variant = .multiSta)
    (hinfo : h.baInfo[index]? = some info) : h.infoAt? index = some info := by
  unfold infoAt?
  rw [if_pos (.inl hsta), hinfo]

/-- In the all-ack context every packet is acknowledged. -/
theorem isPacketReceived_of_isAllAck (hentry : h.baInfo[index]? = some info)
    (hall : h.IsAllAck info) (seq : BitVec 16) :
    h.isPacketReceived seq index = some true := by
  unfold isPacketReceived
  rw [infoAt?_of_sta hall.1 hentry]
  dsimp only [bind_eq_bind, bind_some]
  exact if_pos hall

/-- Sequence numbers with one offset are the same. -/
theorem seqOffset_inj {seq seq' startingSeq : BitVec 16} (h : seq.toNat < 4096)
    (h' : seq'.toNat < 4096) (hstart : startingSeq.toNat < 4096)
    (hsame : seqOffset seq startingSeq = seqOffset seq' startingSeq) : seq = seq' := by
  unfold seqOffset seqnoSpaceSize at hsame
  apply BitVec.eq_of_toNat_eq
  omega

/-- The bit of a sequence number is set exactly when it was marked. -/
theorem EntryBuilt.received {bitmapLen : ℕ} {seqs : List (BitVec 16)}
    (hentry : EntryBuilt type bitmapLen seqs info) (hseqs : ∀ seq ∈ seqs, seq.toNat < 4096) (hseq : seq.toNat < 4096) :
    (decide (seqOffset seq info.startingSeq < 8 * info.bitmap.length) &&
      Bitmap.test info.bitmap (seqOffset seq info.startingSeq)) =
    decide (seq ∈ seqs ∧ seqOffset seq info.startingSeq < 8 * info.bitmap.length) := by
  rw [Bool.eq_iff_iff, Bool.and_eq_true, decide_eq_true_iff, decide_eq_true_iff, and_comm]
  apply and_congr_left
  intro hin
  rw [hentry.marks _ hin]
  constructor
  · rintro ⟨s, hs, hsame⟩
    rw [← seqOffset_inj (hseqs s hs) hseq hentry.start hsame]
    exact hs
  · intro hmem
    exact ⟨seq, hmem, rfl⟩

theorem lt_of_mem_marked (hvalid : ∀ call ∈ calls, call.isValid = true) (hseq : seq ∈ marked calls index) : seq.toNat < 4096 := by
  obtain ⟨call, hcall, hsome⟩ := mem_filterMap.mp hseq
  cases call with
  | setReceivedPacket seq' index' =>
    have hsome' : (if index' = index then some seq' else none) = some seq := hsome
    split at hsome'
    · cases hsome'
      exact of_decide_eq_true (hvalid _ hcall)
    · cases hsome'
  | _ => cases hsome

/-- A Multi-STA BlockAck that was built. -/
theorem Built.staFits (hb : Built type seqs h) (hsta : type.variant = .multiSta)
    (hfits : ∀ info ∈ h.baInfo, info.Fits) : h.StaFits where
  variant := by rw [hb.baType, hsta]
  bitmapLen := by
    apply ext_getElem?
    intro index
    rw [List.getElem?_map, hb.baType]
    cases hinfo : h.baInfo[index]? with
    | none =>
      have hle := List.getElem?_eq_none_iff.mp hinfo
      rw [hb.size] at hle
      exact List.getElem?_eq_none hle
    | some info =>
      have hentry := infoAt?_of_sta (hb.baType ▸ hsta) hinfo
      rw [← hb.baType, (hb.entry hentry).2.1]
      rfl
  fits := hfits
  seq := by
    intro info hmem
    obtain ⟨index, hinfo⟩ := List.getElem?_of_mem hmem
    have hentry := infoAt?_of_sta (hb.baType ▸ hsta) hinfo
    exact (hb.entry hentry).2.2.start

/-- A compressed BlockAck that was built. -/
theorem Built.compressedFits (hb : Built type seqs h)
    (htype : type = ⟨.compressed, [8]⟩ ∨ type = ⟨.compressed, [32]⟩) : h.CompressedFits where
  variant := by
    rw [hb.baType]
    rcases htype with rfl | rfl <;> rfl
  entry := by
    have hone : h.baInfo.length = 1 := by
      rw [hb.size]
      rcases htype with rfl | rfl <;> rfl
    obtain ⟨info, hinfo⟩ := length_eq_one_iff.mp hone
    have hentry : h.infoAt? 0 = some info := by
      unfold infoAt?
      rw [if_pos (.inr rfl), hinfo]
      rfl
    obtain ⟨-, hlen, hbuilt⟩ := hb.entry hentry
    have hnot : type.variant ≠ .multiSta := by
      rcases htype with rfl | rfl <;> decide
    obtain ⟨haid, hra⟩ := hbuilt.plain hnot
    refine ⟨info.startingSeq, info.bitmap, ?_, ?_, ?_, hbuilt.start⟩
    · rw [hinfo, ← haid, ← hra]
    · rw [hb.baType] at hlen ⊢
      rcases htype with rfl | rfl
      · rw [← Option.some.inj hlen]
      · rw [← Option.some.inj hlen]
    · rw [hb.baType] at hlen
      rcases htype with rfl | rfl
      · exact .inl (Option.some.inj hlen).symm
      · exact .inr (Option.some.inj hlen).symm

/-- What is read back has the fields that the contexts have. -/
theorem restored_carried (hsta : h.baType.variant = .multiSta) (used : CtrlBAckResponseHeader) :
    h.Restored (h.carried used) where
  baAckPolicy := rfl
  baType := rfl
  tidInfo := fun hnot => absurd hsta hnot
  size := length_map ..
  entries := by
    intro index info hinfo
    refine ⟨info.carried, getElem?_carried used hinfo, info.aidTidInfo_carried, ?_, ?_⟩
    · intro haid
      unfold BaInfo.carried
      rw [if_pos haid]
    · intro haid hack
      unfold BaInfo.carried
      rw [if_neg haid, if_pos hack]
      exact ⟨rfl, rfl⟩

/-- An entry of an associated station carries its bitmap, and its starting sequence where there is
one. -/
theorem carried_of_fits (haid : info.aid11 ≠ 2045) (hfits : info.Fits) :
    info.carried.bitmap = info.bitmap ∧
      (info.carried.startingSeq = info.startingSeq ∨
        info.bitmap = [] ∧ info.carried.startingSeq = 0) := by
  unfold BaInfo.Fits at hfits
  rw [if_neg haid] at hfits
  unfold BaInfo.carried
  rw [if_neg haid]
  split at hfits
  · rename_i hack
    rw [if_pos hack]
    exact ⟨rfl, .inl rfl⟩
  · rename_i hack
    have hnil := eq_nil_of_length_eq_zero hfits
    rw [if_neg hack, hnil]
    exact ⟨rfl, .inr ⟨rfl, rfl⟩⟩

theorem acknowledges_multiSta (hsta : type.variant = .multiSta)
    (hvalid : ∀ call ∈ calls, call.isValid = true) (hb : Built type (marked calls) h)
    (hfits : ∀ info ∈ h.baInfo, info.Fits) (used : CtrlBAckResponseHeader) :
    Acknowledges calls h used [] := by
  have hstaFits := hb.staFits hsta hfits
  refine ⟨_, h.carried used, hstaFits.serialize, hstaFits.getSerializedSize, ?_, ?_, ?_⟩
  · rw [append_nil]
    exact hstaFits.deserialize hb.tid used
  · exact restored_carried hstaFits.variant used
  · intro index info hinfo
    have hget := getElem?_carried used hinfo
    have hsame : (h.carried used).IsAllAck info.carried ↔ h.IsAllAck info := by
      unfold IsAllAck BaInfo.ackType BaInfo.tid
      rw [info.aidTidInfo_carried]
      rfl
    constructor
    · intro hall seq
      exact isPacketReceived_of_isAllAck hget (hsame.mpr hall) seq
    · intro hall haid seq hseq
      have hentry := infoAt?_of_sta hstaFits.variant hinfo
      have hvariant : (h.carried used).baType.variant = .multiSta := hstaFits.variant
      have hentry' := infoAt?_of_sta hvariant hget
      obtain ⟨-, hlen, hbuilt⟩ := hb.entry hentry
      have hfit := hfits info (mem_of_getElem? hinfo)
      obtain ⟨hbitmap, hstart⟩ := carried_of_fits haid hfit
      have hlen' : (h.carried used).baType.bitmapLen[index]? = some info.carried.bitmap.length := by
        rw [hbitmap]
        exact hlen
      have hvalid' : ∀ seq ∈ marked calls index, seq.toNat < 4096 := fun _ h =>
        lt_of_mem_marked hvalid h
      rw [← hbuilt.received hvalid' hseq]
      have hbasic : (h.carried used).baType.variant ≠ .basic := by
        rw [hvariant]
        decide
      have htid : (h.carried used).baType.variant ≠ .multiTid := by
        rw [hvariant]
        decide
      rcases hstart with hstart | ⟨hnil, hzero⟩
      · rw [isPacketReceived_eq hentry' hlen' hbasic htid (fun h => hall (hsame.mp h)) hseq
          (hstart ▸ hbuilt.start), hstart, hbitmap]
      · -- no bitmap, and no bit
        rw [isPacketReceived_eq hentry' hlen' hbasic htid (fun h => hall (hsame.mp h)) hseq
          (by rw [hzero]; decide), hbitmap, hnil]
        rfl

theorem acknowledges_compressed (htype : type = ⟨.compressed, [8]⟩ ∨ type = ⟨.compressed, [32]⟩)
    (hvalid : ∀ call ∈ calls, call.isValid = true) (hb : Built type (marked calls) h)
    (used : CtrlBAckResponseHeader) (rest : List Octet) : Acknowledges calls h used rest := by
  obtain ⟨octets, hserialize, hsize, hread⟩ := (hb.compressedFits htype).codec hb.tid
  refine ⟨octets, h, hserialize, hsize, ?_, ?_, ?_⟩
  · unfold CtrlBAckResponseHeader.deserialize
    rw [hread used rest, map_some, length_append, Nat.add_sub_cancel]
  · exact ⟨rfl, rfl, fun _ => rfl, rfl, fun index info hinfo =>
      ⟨info, hinfo, rfl, fun _ => rfl, fun _ _ => ⟨rfl, rfl⟩⟩⟩
  · intro index info hinfo
    refine ⟨fun hall seq => isPacketReceived_of_isAllAck hinfo hall seq, fun hall _ seq hseq => ?_⟩
    have hvalid' : ∀ seq ∈ marked calls index, seq.toNat < 4096 := fun _ h =>
      lt_of_mem_marked hvalid h
    have hentry : h.infoAt? index = some info := by
      obtain ⟨hlt, -⟩ := List.getElem?_eq_some_iff.mp hinfo
      have hone : h.baInfo.length = 1 := by
        rw [hb.size]
        rcases htype with rfl | rfl <;> rfl
      unfold infoAt?
      rw [if_pos (.inr (by omega)), hinfo]
    obtain ⟨-, hlen, hbuilt⟩ := hb.entry hentry
    rw [← hbuilt.received hvalid' hseq]
    exact isPacketReceived_eq hentry hlen (hb.baType ▸ IsPerPacket.ne_basic (.inr htype))
      (hb.baType ▸ IsPerPacket.ne_multiTid (.inr htype)) hall hseq hbuilt.start

/-- **A BlockAck acknowledges what was marked**: a compressed or Multi-STA BlockAck that is built
with its setters, whose bitmaps have the lengths of their contexts. -/
theorem acknowledges_of_setters (type : BlockAckType) (htype : IsPerPacket type) (calls : List Call)
    (hvalid : ∀ call ∈ calls, call.isValid = true)
    (horder : calls.Pairwise fun first later => first.mayPrecede later = true)
    (h : CtrlBAckResponseHeader) (hrun : calls.foldlM apply (new.setType type) = some h)
    (hfits : type.variant = .multiSta → ∀ info ∈ h.baInfo, info.Fits)
    (used : CtrlBAckResponseHeader) (rest : List Octet)
    (hrest : type.variant = .multiSta → rest = []) : Acknowledges calls h used rest := by
  have hstart : Built type (marked []) (new.setType type) := built_setType type
  rw [← nil_append calls] at horder
  have hb : Built type (marked calls) h := hstart.foldlM htype calls hvalid horder hrun
  rcases htype with hsta | hcompressed
  · rw [hrest hsta]
    exact acknowledges_multiSta hsta hvalid hb (hfits hsta) used
  · exact acknowledges_compressed hcompressed hvalid hb used rest

/-- A Multi-STA BlockAck with an entry of each context. -/
def sampleCalls : List Call :=
  [.setAid11 100 0, .setAckType true 0, .setTidInfo 14 0, .setAid11 200 1, .setTidInfo 2 1,
    .setStartingSequence 4090 1, .setReceivedPacket 4091 1, .setAid11 2045 2,
    .setReceivedPacket 5 1, .setUnassociatedStaAddress 1 2, .setReceivedPacket 200 1]

/-- What the setters make of it. -/
def sampleHeader : CtrlBAckResponseHeader :=
  ⟨false, ⟨.multiSta, [0, 4, 8]⟩, 0, [{ aidTidInfo := 0xe864 },
    { aidTidInfo := 0x20c8, startingSeq := 4090, bitmap := [2, 8, 0, 0] },
    { aidTidInfo := 0x07fd, bitmap := [0, 0, 0, 0, 0, 0, 0, 0], ra := 1 }]⟩

theorem acknowledges_of_setters_sample :
    sampleCalls.foldlM apply (new.setType ⟨.multiSta, [0, 4, 8]⟩) = some sampleHeader ∧
    Acknowledges sampleCalls sampleHeader (new.setType ⟨.compressed, [32]⟩) [] := by
  have hrun : sampleCalls.foldlM apply (new.setType ⟨.multiSta, [0, 4, 8]⟩) =
      some sampleHeader := by decide
  exact ⟨hrun, acknowledges_of_setters ⟨.multiSta, [0, 4, 8]⟩ (.inl rfl) sampleCalls (by decide)
    (by decide) sampleHeader hrun (fun _ => by decide) (new.setType ⟨.compressed, [32]⟩) []
    fun _ => rfl⟩

/-- **A bitmap in the all-ack context** is written, but not read: its octets are taken for the next
entries, and end too early. -/
theorem not_acknowledges_of_setters : ¬ ∀ (type : BlockAckType) (_ : IsPerPacket type)
    (_ : ∀ bitmapLen ∈ type.bitmapLen, bitmapLen ∈ [4, 8, 16, 32]) (calls : List Call)
    (_ : ∀ call ∈ calls, call.isValid = true)
    (_ : calls.Pairwise fun first later => first.mayPrecede later = true)
    (h : CtrlBAckResponseHeader) (_ : calls.foldlM apply (new.setType type) = some h)
    (used : CtrlBAckResponseHeader), Acknowledges calls h used [] := by
  intro hall
  obtain ⟨octets, h', hserialize, -, hread, -⟩ := hall ⟨.multiSta, [8]⟩ (.inl rfl) (by decide)
    [.setAckType true 0, .setTidInfo 14 0] (by decide) (by decide) _ rfl new
  have hoctets : octets = [0x16, 0x00, 0x00, 0xe8] ++ List.replicate 10 0 :=
    Option.some.inj (hserialize.symm.trans (by decide))
  have hnone : new.deserialize (octets ++ []) = none := by
    rw [hoctets]
    decide
  rw [hnone] at hread
  cases hread

end CtrlBAckResponseHeader

end Ns3Dsme.Wifi
