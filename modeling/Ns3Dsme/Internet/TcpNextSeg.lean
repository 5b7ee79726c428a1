/-
# The next segment of a TCP transmit buffer

`NextSeg` follows the rules of RFC 6675: a lost segment is sent first, new data next, and at last
any segment that is neither acknowledged nor retransmitted.  Where the receiver's window is closed
the rules break: the range of new data is empty when the window is used up, and rule 3 is not tried
when more than the window was sent.
-/
import Ns3Dsme.Lib.Octets
import Ns3Dsme.Network.SequenceNumber

open List

namespace Ns3Dsme.Internet

open Network

/-- `TcpTxItem`: a segment and its marks. -/
structure TcpTxItem where
  packet : List Octet
  retrans : Bool := false
  sacked : Bool := false
  lost : Bool := false

/-- The octets of segments. -/
def octetsIn (items : List TcpTxItem) : ℕ := (items.map fun item => item.packet.length).sum

/-- `TcpTxBuffer`, as far as `NextSeg` depends on it. -/
structure TcpTxBuffer where
  appList : List TcpTxItem
  sentList : List TcpTxItem
  firstByteSeq : SequenceNumber32
  size : BitVec 32
  sentSize : BitVec 32
  segmentSize : BitVec 32

/-- The buffers that there are: no segment is empty, and the octets are counted. -/
structure ValidTxBuffer extends TcpTxBuffer where
  nonempty : ∀ item ∈ sentList ++ appList, item.packet ≠ []
  size_eq : size.toNat = octetsIn (sentList ++ appList)
  sentSize_eq : sentSize.toNat = octetsIn sentList

/-- What the loop over the sent list ends with. -/
inductive SentScan
  /-- A lost segment was found. -/
  | lost (seq : SequenceNumber32)
  | passed (seqPerRule3 : SequenceNumber32) (isSeqPerRule3Valid : Bool)

namespace TcpTxBuffer

/-- `TailSequence`. -/
def tailSequence (b : TcpTxBuffer) : SequenceNumber32 := b.firstByteSeq + b.size

/-- `SizeFromSequence`. -/
def sizeFromSequence (b : TcpTxBuffer) (seq : SequenceNumber32) : ℕ :=
  if b.tailSequence.ge seq = true then b.tailSequence.minus seq else 0

/-- The loop of `NextSeg`. -/
def scanSent (isRecovery : Bool) (beginOfCurrentPkt seqPerRule3 : SequenceNumber32)
    (isSeqPerRule3Valid : Bool) : List TcpTxItem → SentScan
  | [] => .passed seqPerRule3 isSeqPerRule3Valid
  | item :: items =>
    let beginOfNextPkt := beginOfCurrentPkt.plus item.packet.length
    if item.retrans = false ∧ item.sacked = false then
      if item.lost = true then .lost beginOfCurrentPkt
      else if seqPerRule3 = 0 ∧ isRecovery = true then
        scanSent isRecovery beginOfNextPkt beginOfCurrentPkt true items
      else scanSent isRecovery beginOfNextPkt seqPerRule3 isSeqPerRule3Valid items
    else scanSent isRecovery beginOfNextPkt seqPerRule3 isSeqPerRule3Valid items

/-- `NextSeg`, with the receiver's window: the range from `seq` to `seqHigh`. -/
def nextSeg (b : TcpTxBuffer) (rWnd : BitVec 32) (isRecovery : Bool) :
    Option (SequenceNumber32 × SequenceNumber32) :=
  match scanSent isRecovery b.firstByteSeq 0 false b.sentList with
  | .lost seq => some (seq, seq + b.segmentSize)
  | .passed seqPerRule3 isSeqPerRule3Valid =>
    let seq := b.firstByteSeq + b.sentSize
    if 0 < b.sizeFromSequence seq then
      if b.sentSize.toNat ≤ rWnd.toNat then
        some (seq, seq.plus (min b.segmentSize.toNat (rWnd.toNat - b.sentSize.toNat)))
      else none
    else if isSeqPerRule3Valid = true then some (seqPerRule3, seqPerRule3 + b.segmentSize)
    else none

/-! ## What is asked for -/

end TcpTxBuffer

/-- It is neither acknowledged nor retransmitted. -/
def TcpTxItem.Eligible (item : TcpTxItem) : Prop := item.retrans = false ∧ item.sacked = false

/-- It is lost, and was not retransmitted. -/
def TcpTxItem.Missing (item : TcpTxItem) : Prop := item.Eligible ∧ item.lost = true

/-- `seq` is the start of one of the segments, the first of which starts at `first`; and of those in
front of it, all are `Q`. -/
def StartsAt (first seq : SequenceNumber32) (P Q : TcpTxItem → Prop) (items : List TcpTxItem) :
    Prop :=
  ∃ pre item post, items = pre ++ item :: post ∧ P item ∧ (∀ other ∈ pre, Q other) ∧
    seq = first.plus (octetsIn pre)

namespace TcpTxBuffer

/-- The first octet that was not sent. -/
def unsent (b : TcpTxBuffer) : SequenceNumber32 := b.firstByteSeq.plus (octetsIn b.sentList)

/-- Rule 1: the start of the first lost segment. -/
def Rule1 (b : TcpTxBuffer) (seq : SequenceNumber32) : Prop :=
  StartsAt b.firstByteSeq seq TcpTxItem.Missing (fun other => ¬ other.Missing) b.sentList

/-- Rule 2: the first octet that was not sent, if there is one, inside the receiver's window. -/
def Rule2 (b : TcpTxBuffer) (rWnd : BitVec 32) (seq : SequenceNumber32) : Prop :=
  seq = b.unsent ∧ b.appList ≠ [] ∧ octetsIn b.sentList < rWnd.toNat

/-- Rule 3: in recovery, the start of a segment. -/
def Rule3 (b : TcpTxBuffer) (isRecovery : Bool) (seq : SequenceNumber32) : Prop :=
  isRecovery = true ∧
    StartsAt b.firstByteSeq seq TcpTxItem.Eligible (fun _ => True) b.sentList

/-- A range that is not empty, from where the first of the rules says that can be followed; and no
range where none can be. -/
def Right (b : TcpTxBuffer) (rWnd : BitVec 32) (isRecovery : Bool) :
    Option (SequenceNumber32 × SequenceNumber32) → Prop
  | some (seq, seqHigh) => 0 < seqHigh.minus seq ∧
    (b.Rule1 seq ∨ (¬ ∃ s, b.Rule1 s) ∧
      (b.Rule2 rWnd seq ∨ (¬ ∃ s, b.Rule2 rWnd s) ∧ b.Rule3 isRecovery seq))
  | none => ¬ ∃ s, b.Rule1 s ∨ b.Rule2 rWnd s ∨ b.Rule3 isRecovery s

/-- `NextSeg` keeps to the rules. -/
def Sound (b : TcpTxBuffer) (rWnd : BitVec 32) (isRecovery : Bool) : Prop :=
  b.Right rWnd isRecovery (b.nextSeg rWnd isRecovery)

/-- Where the rules break: no segment is lost, and new data waits that fills the window, or keeps
rule 3 from being tried, or is not seen. -/
structure Slips (b : TcpTxBuffer) (rWnd : BitVec 32) (isRecovery : Bool) : Prop where
  noneLost : ¬ ∃ s, b.Rule1 s
  waits : b.appList ≠ []
  window : b.tailSequence.gt b.unsent = true ∧ (octetsIn b.sentList = rWnd.toNat ∨
      rWnd.toNat < octetsIn b.sentList ∧ ∃ s, b.Rule3 isRecovery s) ∨
    b.tailSequence.gt b.unsent = false ∧ octetsIn b.sentList < rWnd.toNat

end TcpTxBuffer

/-! ## The loop -/

section

variable {first seq : SequenceNumber32} {P Q : TcpTxItem → Prop} {item : TcpTxItem}
  {items : List TcpTxItem}

theorem StartsAt.head (h : P item) : StartsAt first first P Q (item :: items) := by
  refine ⟨[], item, items, rfl, h, ?_, (BitVec.add_zero first).symm⟩
  intro other hother
  cases hother

/-- The start of a segment behind the first one. -/
theorem StartsAt.cons (hitem : Q item)
    (h : StartsAt (first.plus item.packet.length) seq P Q items) :
    StartsAt first seq P Q (item :: items) := by
  obtain ⟨pre, found, post, hitems, hfound, hpre, hseq⟩ := h
  refine ⟨item :: pre, found, post, ?_, hfound, ?_, ?_⟩
  · rw [hitems]
    rfl
  · intro other hother
    rcases mem_cons.mp hother with rfl | hother
    · exact hitem
    · exact hpre other hother
  · rw [hseq]
    unfold SequenceNumber32.plus
    show first + _ + _ = first + BitVec.ofNat 32 (item.packet.length + octetsIn pre)
    rw [BitVec.ofNat_add, BitVec.add_assoc]

variable {isRecovery valid : Bool} {seqPerRule3 : SequenceNumber32}

/-- What the loop ends with: the first lost segment, or, where there is none, the segment that was
saved for rule 3. -/
def Ends (isRecovery : Bool) (first seqPerRule3 : SequenceNumber32) (valid : Bool)
    (items : List TcpTxItem) : SentScan → Prop
  | .lost seq => StartsAt first seq TcpTxItem.Missing (fun other => ¬ other.Missing) items
  | .passed seq valid' => (∀ item ∈ items, ¬ item.Missing) ∧
    (valid' = false → valid = false ∧ (isRecovery = true → ∀ item ∈ items, ¬ item.Eligible)) ∧
    (valid' = true → valid = true ∧ seq = seqPerRule3 ∨
      isRecovery = true ∧ StartsAt first seq TcpTxItem.Eligible (fun _ => True) items)

/-- A segment that neither ends the loop nor is saved. -/
theorem Ends.cons {r : SentScan} (hitem : ¬ item.Missing)
    (hsaved : valid = false → isRecovery = true → ¬ item.Eligible)
    (h : Ends isRecovery (first.plus item.packet.length) seqPerRule3 valid items r) :
    Ends isRecovery first seqPerRule3 valid (item :: items) r := by
  cases r with
  | lost seq => exact StartsAt.cons hitem h
  | passed seq valid' =>
    obtain ⟨hnone, hfree, hstart⟩ := h
    refine ⟨forall_mem_cons.mpr ⟨hitem, hnone⟩, ?_, ?_⟩
    · intro hvalid
      obtain ⟨hold, hother⟩ := hfree hvalid
      exact ⟨hold, fun hrecovery =>
        forall_mem_cons.mpr ⟨hsaved hold hrecovery, hother hrecovery⟩⟩
    · intro hvalid
      exact (hstart hvalid).imp_right fun h => ⟨h.1, h.2.cons trivial⟩

/-- A segment that is saved. -/
theorem Ends.save {r : SentScan} (hitem : ¬ item.Missing) (heligible : item.Eligible)
    (hrecovery : isRecovery = true)
    (h : Ends isRecovery (first.plus item.packet.length) first true items r) :
    Ends isRecovery first seqPerRule3 valid (item :: items) r := by
  cases r with
  | lost seq => exact StartsAt.cons hitem h
  | passed seq valid' =>
    obtain ⟨hnone, hfree, hstart⟩ := h
    refine ⟨forall_mem_cons.mpr ⟨hitem, hnone⟩, ?_, ?_⟩
    · intro hvalid
      cases (hfree hvalid).1
    · intro hvalid
      rcases hstart hvalid with ⟨-, rfl⟩ | h
      · exact .inr ⟨hrecovery, StartsAt.head heligible⟩
      · exact .inr ⟨hrecovery, h.2.cons trivial⟩

/-- **The loop.**  A sequence number that is not 0 was saved. -/
theorem ends_scanSent (isRecovery : Bool) (items : List TcpTxItem)
    {first seqPerRule3 : SequenceNumber32} {valid : Bool}
    (hsaved : seqPerRule3 ≠ 0 → valid = true) :
    Ends isRecovery first seqPerRule3 valid items
      (TcpTxBuffer.scanSent isRecovery first seqPerRule3 valid items) := by
  induction items generalizing first seqPerRule3 valid with
  | nil => simp +contextual [TcpTxBuffer.scanSent, Ends]
  | cons item items ih =>
    unfold TcpTxBuffer.scanSent
    dsimp only
    by_cases heligible : item.retrans = false ∧ item.sacked = false
    · rw [if_pos heligible]
      by_cases hlost : item.lost = true
      · rw [if_pos hlost]
        exact StartsAt.head ⟨heligible, hlost⟩
      · have hitem : ¬ item.Missing := fun hmissing => hlost hmissing.2
        rw [if_neg hlost]
        by_cases hsave : seqPerRule3 = 0 ∧ isRecovery = true
        · rw [if_pos hsave]
          exact (ih fun _ => rfl).save hitem heligible hsave.2
        · rw [if_neg hsave]
          apply (ih hsaved).cons hitem
          intro hvalid hrecovery
          have hzero : seqPerRule3 ≠ 0 := fun hzero => hsave ⟨hzero, hrecovery⟩
          rw [hsaved hzero] at hvalid
          cases hvalid
    · rw [if_neg heligible]
      exact (ih hsaved).cons (fun hmissing => heligible hmissing.1) fun _ _ => heligible

end

/-! ## The window -/

theorem gt_irrefl (seq : SequenceNumber32) : seq.gt seq = false := by
  unfold SequenceNumber32.gt
  rw [decide_eq_false_iff_not]
  omega

theorem minus_plus (seq : SequenceNumber32) {n : ℕ} (h : n < 2 ^ 32) :
    (seq.plus n).minus seq = n := by
  unfold SequenceNumber32.plus SequenceNumber32.minus
  rw [BitVec.add_comm, BitVec.add_sub_cancel, BitVec.toNat_ofNat]
  exact Nat.mod_eq_of_lt h

/-- Unsent octets are seen where the tail is greater than the first of them. -/
theorem TcpTxBuffer.sizeFromSequence_pos_iff (b : TcpTxBuffer) (seq : SequenceNumber32) :
    0 < b.sizeFromSequence seq ↔ b.tailSequence.gt seq = true := by
  unfold sizeFromSequence SequenceNumber32.ge SequenceNumber32.minus
  cases hgt : b.tailSequence.gt seq with
  | true =>
    rw [Bool.true_or, if_pos rfl]
    refine ⟨fun _ => rfl, fun _ => Nat.pos_of_ne_zero fun hzero => ?_⟩
    have hsub : b.tailSequence - seq = 0 := BitVec.eq_of_toNat_eq hzero
    have heq : b.tailSequence = seq := by
      rw [← BitVec.sub_add_cancel b.tailSequence seq, hsub]
      exact BitVec.zero_add seq
    rw [heq, gt_irrefl] at hgt
    cases hgt
  | false =>
    rw [Bool.false_or]
    split
    · rename_i heq
      rw [beq_iff_eq.mp heq, BitVec.sub_self]
      decide
    · decide

namespace ValidTxBuffer

section

variable {b : ValidTxBuffer} {rWnd : BitVec 32} {isRecovery : Bool}

theorem octetsIn_append (items items' : List TcpTxItem) :
    octetsIn (items ++ items') = octetsIn items + octetsIn items' := by
  unfold octetsIn
  rw [map_append, sum_append]

/-- The counters say where the unsent octets are. -/
theorem unsent_eq (b : ValidTxBuffer) : b.firstByteSeq + b.sentSize = b.unsent := by
  unfold TcpTxBuffer.unsent SequenceNumber32.plus
  rw [← b.sentSize_eq, BitVec.ofNat_toNat, BitVec.setWidth_eq]

theorem tailSequence_eq (b : ValidTxBuffer) :
    b.tailSequence = b.unsent.plus (octetsIn b.appList) := by
  unfold TcpTxBuffer.tailSequence TcpTxBuffer.unsent SequenceNumber32.plus
  rw [BitVec.add_assoc, ← BitVec.ofNat_add, ← octetsIn_append, ← b.size_eq, BitVec.ofNat_toNat,
    BitVec.setWidth_eq]

/-- Where unsent octets are seen, there are some. -/
theorem waits_of_gt (h : b.tailSequence.gt b.unsent = true) : b.appList ≠ [] := by
  intro hnil
  have htail := b.tailSequence_eq
  have hnone : b.unsent.plus (octetsIn []) = b.unsent := BitVec.add_zero _
  rw [hnil, hnone] at htail
  rw [htail, gt_irrefl] at h
  cases h

/-- No segment starts where the unsent octets do. -/
theorem ne_unsent {seq : SequenceNumber32} {P Q : TcpTxItem → Prop}
    (h : StartsAt b.firstByteSeq seq P Q b.sentList) : seq ≠ b.unsent := by
  obtain ⟨pre, item, post, hitems, -, -, rfl⟩ := h
  have hlt := b.sentSize.isLt
  have hsize := b.sentSize_eq
  have hitem : item.packet ≠ [] := by
    apply b.nonempty
    rw [hitems]
    exact mem_append_left _ (mem_append_right _ (mem_cons_self ..))
  have hpos := length_pos_iff.mpr hitem
  have hsplit : octetsIn b.sentList = octetsIn pre + (item.packet.length + octetsIn post) := by
    rw [hitems, octetsIn_append]
    rfl
  intro heq
  have hcount := congrArg (SequenceNumber32.minus · b.firstByteSeq) heq
  unfold TcpTxBuffer.unsent at hcount
  rw [minus_plus _ (by omega), minus_plus _ (by omega)] at hcount
  omega

theorem plus_minus (seq : SequenceNumber32) (n : BitVec 32) : (seq + n).minus seq = n.toNat := by
  unfold SequenceNumber32.minus
  rw [BitVec.add_comm, BitVec.add_sub_cancel]

/-- What `NextSeg` returns where no segment is lost. -/
theorem nextSeg_of_passed {seqPerRule3 : SequenceNumber32} {valid : Bool}
    (hscan : TcpTxBuffer.scanSent isRecovery b.firstByteSeq 0 false b.sentList =
      .passed seqPerRule3 valid) : b.nextSeg rWnd isRecovery =
    if b.tailSequence.gt b.unsent = true then
      if octetsIn b.sentList ≤ rWnd.toNat then
        some (b.unsent, b.unsent.plus
          (min b.segmentSize.toNat (rWnd.toNat - octetsIn b.sentList)))
      else none
    else if valid = true then some (seqPerRule3, seqPerRule3 + b.segmentSize)
    else none := by
  unfold TcpTxBuffer.nextSeg
  rw [hscan]
  dsimp only
  rw [b.unsent_eq, b.sentSize_eq, if_congr (b.sizeFromSequence_pos_iff _) rfl rfl]

/-- New data is seen: it is sent, if the window is open. -/
theorem sound_iff_of_seen (hsegment : 0 < b.segmentSize.toNat) (hlost : ¬ ∃ s, b.Rule1 s)
    (hgt : b.tailSequence.gt b.unsent = true)
    (hnext : b.nextSeg rWnd isRecovery = if octetsIn b.sentList ≤ rWnd.toNat then
      some (b.unsent, b.unsent.plus
        (min b.segmentSize.toNat (rWnd.toNat - octetsIn b.sentList))) else none) :
    b.Sound rWnd isRecovery ↔ ¬ (octetsIn b.sentList = rWnd.toNat ∨
      rWnd.toNat < octetsIn b.sentList ∧ ∃ s, b.Rule3 isRecovery s) := by
  have hrWnd := rWnd.isLt
  unfold TcpTxBuffer.Sound
  rw [hnext]
  rcases Nat.lt_trichotomy (octetsIn b.sentList) rWnd.toNat with hopen | hfull | hclosed
  · rw [if_pos (Nat.le_of_lt hopen)]
    refine ⟨fun _ => by omega, fun _ => ⟨?_, ?_⟩⟩
    · rw [minus_plus _ (by omega)]
      omega
    · exact .inr ⟨hlost, .inl ⟨rfl, waits_of_gt hgt, hopen⟩⟩
  · -- the window is used up, and the range is empty
    rw [if_pos (Nat.le_of_eq hfull), hfull, Nat.sub_self, Nat.min_zero]
    refine ⟨fun hright => ?_, fun hnot => absurd (.inl rfl) hnot⟩
    have hpos := hright.1
    rw [minus_plus _ (by decide)] at hpos
    exact absurd hpos (Nat.lt_irrefl 0)
  · -- more than the window was sent, and nothing is returned
    rw [if_neg (Nat.not_le_of_lt hclosed)]
    constructor
    · rintro hright (hfull | ⟨-, s, hrule⟩)
      · omega
      · exact hright ⟨s, .inr (.inr hrule)⟩
    · rintro hnot ⟨s, hrule | ⟨-, -, hopen⟩ | hrule⟩
      · exact hlost ⟨s, hrule⟩
      · omega
      · exact hnot (.inr ⟨hclosed, s, hrule⟩)

/-- No new data is seen: rule 3 is tried. -/
theorem sound_iff_of_unseen {seqPerRule3 : SequenceNumber32} {valid : Bool}
    (hsegment : 0 < b.segmentSize.toNat) (hlost : ¬ ∃ s, b.Rule1 s)
    (hrule : valid = true → b.Rule3 isRecovery seqPerRule3)
    (hnone : valid = false → ¬ ∃ s, b.Rule3 isRecovery s)
    (hnext : b.nextSeg rWnd isRecovery =
      if valid = true then some (seqPerRule3, seqPerRule3 + b.segmentSize) else none) :
    b.Sound rWnd isRecovery ↔ ¬ ∃ s, b.Rule2 rWnd s := by
  unfold TcpTxBuffer.Sound
  rw [hnext]
  cases valid with
  | true =>
    rw [if_pos rfl]
    constructor
    · rintro ⟨-, hrule1 | ⟨-, hrule2 | ⟨hnot, -⟩⟩⟩
      · exact absurd ⟨_, hrule1⟩ hlost
      · exact absurd hrule2.1 (ne_unsent (hrule rfl).2)
      · exact hnot
    · intro hnot
      refine ⟨?_, .inr ⟨hlost, .inr ⟨hnot, hrule rfl⟩⟩⟩
      rw [plus_minus]
      exact hsegment
  | false =>
    rw [if_neg Bool.false_ne_true]
    constructor
    · rintro hright ⟨s, hrule2⟩
      exact hright ⟨s, .inr (.inl hrule2)⟩
    · rintro hnot ⟨s, hrule1 | hrule2 | hrule3⟩
      · exact hlost ⟨s, hrule1⟩
      · exact hnot ⟨s, hrule2⟩
      · exact hnone rfl ⟨s, hrule3⟩

/-- **`NextSeg` keeps to the rules** but where new data meets a closed window, or is not seen. -/
theorem sound_iff_not_slips (b : ValidTxBuffer) (rWnd : BitVec 32) (isRecovery : Bool)
    (hsegment : 0 < b.segmentSize.toNat) :
    b.Sound rWnd isRecovery ↔ ¬ b.Slips rWnd isRecovery := by
  have hends : Ends isRecovery b.firstByteSeq 0 false b.sentList
      (TcpTxBuffer.scanSent isRecovery b.firstByteSeq 0 false b.sentList) :=
    ends_scanSent isRecovery b.sentList fun hne => absurd rfl hne
  cases hscan : TcpTxBuffer.scanSent isRecovery b.firstByteSeq 0 false b.sentList with
  | lost seq =>
    rw [hscan] at hends
    refine ⟨fun _ hslips => hslips.noneLost ⟨seq, hends⟩, fun _ => ?_⟩
    unfold TcpTxBuffer.Sound TcpTxBuffer.nextSeg
    rw [hscan]
    refine ⟨?_, .inl hends⟩
    rw [plus_minus]
    exact hsegment
  | passed seqPerRule3 valid =>
    rw [hscan] at hends
    obtain ⟨hnone, hfree, hstart⟩ := hends
    have hlost : ¬ ∃ s, b.Rule1 s := by
      rintro ⟨s, pre, item, post, hitems, hitem, -, -⟩
      apply hnone item _ hitem
      rw [hitems]
      exact mem_append_right _ (mem_cons_self ..)
    have hnext : b.nextSeg rWnd isRecovery = _ := nextSeg_of_passed hscan
    cases hgt : b.tailSequence.gt b.unsent with
    | true =>
      rw [if_pos hgt] at hnext
      rw [sound_iff_of_seen hsegment hlost hgt hnext]
      apply not_congr
      constructor
      · intro hwindow
        exact ⟨hlost, waits_of_gt hgt, .inl ⟨hgt, hwindow⟩⟩
      · rintro ⟨-, -, ⟨-, hwindow⟩ | ⟨hunseen, -⟩⟩
        · exact hwindow
        · rw [hgt] at hunseen
          cases hunseen
    | false =>
      rw [if_neg (Bool.eq_false_iff.mp hgt)] at hnext
      have hrule : valid = true → b.Rule3 isRecovery seqPerRule3 := by
        intro hvalid
        rcases hstart hvalid with ⟨hold, -⟩ | hrule
        · cases hold
        · exact hrule
      have hno : valid = false → ¬ ∃ s, b.Rule3 isRecovery s := by
        rintro hvalid ⟨s, hrecovery, pre, item, post, hitems, hitem, -, -⟩
        apply (hfree hvalid).2 hrecovery item _ hitem
        rw [hitems]
        exact mem_append_right _ (mem_cons_self ..)
      rw [sound_iff_of_unseen hsegment hlost hrule hno hnext]
      apply not_congr
      constructor
      · rintro ⟨s, -, hwaits, hopen⟩
        exact ⟨hlost, hwaits, .inr ⟨hgt, hopen⟩⟩
      · rintro ⟨-, hwaits, ⟨hseen, -⟩ | ⟨-, hopen⟩⟩
        · rw [hgt] at hseen
          cases hseen
        · exact ⟨b.unsent, rfl, hwaits, hopen⟩

/-- One segment of one octet, and another octet behind it. -/
def oneSent : ValidTxBuffer where
  appList := [{ packet := [1] }]
  sentList := [{ packet := [0] }]
  firstByteSeq := 0
  size := 2
  sentSize := 1
  segmentSize := 536
  nonempty := by simp
  size_eq := rfl
  sentSize_eq := rfl

theorem sound_iff_not_slips_oneSent : 0 < oneSent.segmentSize.toNat ∧
    (oneSent.Sound 1000 false ↔ ¬ oneSent.Slips 1000 false) :=
  ⟨by decide, sound_iff_not_slips oneSent 1000 false (by decide)⟩

/-- A window of one octet: the range from 1 to 1 is returned. -/
theorem not_sound_oneSent : ¬ oneSent.Sound 1 false := by
  have hnext : oneSent.nextSeg 1 false = some (1, 1) := by decide
  unfold TcpTxBuffer.Sound
  rw [hnext]
  rintro ⟨hpos, -⟩
  exact absurd hpos (by decide)

end

end ValidTxBuffer

end Ns3Dsme.Internet
