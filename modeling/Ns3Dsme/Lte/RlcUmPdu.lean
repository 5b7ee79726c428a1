/-
# The PDUs of RLC UM

A transmit opportunity sends the next octets of what waits, and the header of the PDU says where the
SDUs end in them.  The header's length has sixteen bits: it is 0 again when the PDU has 43689 length
indicators, which more than 43689 SDUs and a large opportunity can bring about.
-/
import Ns3Dsme.Lte.RlcUmSegmentation

open List

namespace Ns3Dsme.Lte

open LengthFields (fieldOctets)

/-! ## The data field -/

theorem stream_append (ps qs : List Sdu) : stream (ps ++ qs) = stream ps ++ stream qs :=
  flatMap_append

theorem waiting_take_le (ps : List Sdu) {m n : ℕ} (h : m ≤ n) :
    waiting (ps.take m) ≤ waiting (ps.take n) := by
  have hsplit := congrArg waiting (take_append_drop m (ps.take n))
  rw [waiting_append, take_take, Nat.min_eq_left h] at hsplit
  omega

section

variable {p : Sdu} {c : ℕ}

/-- What was taken, and what is left. -/
theorem segmentOf_append_restOf (p : Sdu) (hle : c ≤ p.size) :
    (segmentOf p c).octets ++ stream (restOf p c) = p.octets := by
  unfold restOf
  split
  · show p.octets.take c ++ (p.octets.drop c ++ []) = p.octets
    rw [append_nil, take_append_drop]
  · rename_i hall
    have hc : c = p.size := by omega
    rw [hc, segmentOf_size]
    exact append_nil _

/-- The first octet of the segment is the first of an SDU. -/
theorem segmentOf_first (hp : Waits p) :
    ((segmentOf p c).status = .fullSdu ∨ (segmentOf p c).status = .firstSegment) ↔
      p.status = .fullSdu := by
  unfold segmentOf
  dsimp only
  rcases hp.2 with h | h
  · rw [h]
    split
    · decide
    · decide
  · rw [h]
    split
    · decide
    · decide

/-- The last octet of the segment is the last of an SDU. -/
theorem segmentOf_last (hp : Waits p) :
    ((segmentOf p c).status = .fullSdu ∨ (segmentOf p c).status = .lastSegment) ↔
      c = p.size := by
  unfold segmentOf
  dsimp only
  split
  · rename_i hwhole
    exact ⟨fun _ => hwhole, fun _ => hp.2⟩
  · rename_i hpart
    have hcut : ¬ ((Sdu.cutStatus p.status).1 = .fullSdu ∨
        (Sdu.cutStatus p.status).1 = .lastSegment) := by
      rcases hp.2 with h | h
      · rw [h]
        decide
      · rw [h]
        decide
    exact ⟨fun h => absurd h hcut, fun h => absurd h hpart⟩

/-- The data ends where an SDU ends, just where the last of them is taken to its end. -/
theorem ends_iff {pre post : List Sdu} (hpos : 0 < c) (hle : c ≤ p.size) :
    (∃ n, stream pre ++ (segmentOf p c).octets = stream ((pre ++ p :: post).take n)) ↔
      c = p.size := by
  constructor
  · rintro ⟨n, hn⟩
    have hlength := congrArg List.length hn
    have hsegment : (segmentOf p c).octets.length = c := by
      show (p.octets.take c).length = c
      rw [length_take]
      exact Nat.min_eq_left hle
    rw [length_append, length_stream, length_stream, hsegment] at hlength
    -- behind `pre`, the front of the entries has all of `p`
    rcases Nat.lt_or_ge pre.length n with hafter | hbefore
    · have hmore := waiting_take_le (pre ++ p :: post) hafter
      have htake : (pre ++ p :: post).take (pre.length + 1) = pre ++ [p] := by
        rw [take_length_add_append]
        rfl
      rw [htake, waiting_append, waiting_cons] at hmore
      omega
    · have hless := waiting_take_le (pre ++ p :: post) hbefore
      rw [take_left] at hless
      omega
  · intro hwhole
    refine ⟨pre.length + 1, ?_⟩
    rw [take_length_add_append, stream_append, hwhole, segmentOf_size]
    exact congrArg (stream pre ++ ·) (append_nil _).symm

end

/-- The receiver splits the data field at the ends of the SDUs. -/
theorem splitDataField_eq (pre : List Sdu) (last : List Octet)
    (hsmall : ∀ q ∈ pre, q.size ≤ 2047) :
    splitDataField
      (List.replicate pre.length LengthFields.eLiFieldsFollow ++ [LengthFields.dataFieldFollows])
      (pre.map fun q => BitVec.ofNat 16 q.size) (stream pre ++ last) =
        some (pre.map Sdu.octets ++ [last]) := by
  induction pre with
  | nil => rfl
  | cons q pre ih =>
    have hq := hsmall q (mem_cons_self ..)
    have hrest := ih fun q' hq' => hsmall q' (mem_cons_of_mem _ hq')
    have hli : (BitVec.ofNat 16 q.size).toNat = q.octets.length := by
      rw [BitVec.toNat_ofNat]
      exact Nat.mod_eq_of_lt (by omega)
    have hstream : stream (q :: pre) ++ last = q.octets ++ (stream pre ++ last) :=
      append_assoc ..
    rw [hstream, length_cons, replicate_succ, map_cons, cons_append]
    unfold splitDataField
    rw [if_neg (by decide)]
    dsimp only
    rw [hli, if_neg (by rw [length_append]; omega), drop_left, take_left, hrest]
    rfl

/-! ## The header -/

/-- The framing info of a draft. -/
theorem Filled.framingInfo_eq {d : UmDraft} {first p : Sdu} {others pre post : List Sdu}
    {r : UmDraft × List Sdu × ℕ} {k c : ℕ} (h : Filled k d (first :: others) r pre p post c)
    (hd : d.dataField = []) (hwaits : ∀ q ∈ first :: others, Waits q) :
    framingInfo r.1.dataField = some
      ((if first.status = .fullSdu then 0 else 2) ||| (if c = p.size then 0 else 1)) := by
  have hp : Waits p := by
    apply hwaits
    rw [h.entries_eq]
    exact mem_append_right _ (mem_cons_self ..)
  unfold Lte.framingInfo
  rw [h.dataField, hd, nil_append, List.getLast?_concat]
  have hentries := h.entries_eq
  cases pre with
  | nil =>
    have hfirst : first = p := (List.cons.inj hentries).1
    rw [hfirst, nil_append, List.head?_cons]
    dsimp only
    rw [if_congr (segmentOf_first hp) rfl rfl, if_congr (segmentOf_last hp) rfl rfl]
  | cons q pre =>
    have hfirst : first = q := (List.cons.inj hentries).1
    have hstatus : (first.status = .fullSdu ∨ first.status = .firstSegment) ↔
        first.status = .fullSdu := by
      rcases (hwaits first (mem_cons_self ..)).2 with h | h
      · rw [h]
        decide
      · rw [h]
        decide
    rw [← hfirst, cons_append, List.head?_cons]
    dsimp only
    rw [if_congr hstatus rfl rfl, if_congr (segmentOf_last hp) rfl rfl]

/-- The header is pushed segment by segment. -/
theorem Filled.isPushed {p : Sdu} {entries pre post : List Sdu} {next c : ℕ}
    {r : UmDraft × List Sdu × ℕ} (h : Filled 0 { nextSegmentSize := next } entries r pre p post c)
    (sequenceNumber : SequenceNumber10) (framingInfo : Octet) :
    ((r.1.header.setSequenceNumber sequenceNumber).setFramingInfo framingInfo).IsPushed
      (pre.map fun q => BitVec.ofNat 16 q.size) := by
  have hbits : r.1.header.lengths.extensionBits =
      List.replicate pre.length LengthFields.eLiFieldsFollow ++ [LengthFields.dataFieldFollows] :=
    h.extensionBits
  refine ⟨?_, h.lengthIndicators, ?_⟩
  · rw [← LengthFields.replicate_append_eq, length_map]
    exact hbits
  · have hlength := h.charged
    unfold LengthFields.Charged at hlength
    rw [hbits, length_append, length_replicate, length_singleton,
      Nat.add_sub_cancel] at hlength
    rw [length_map, BitVec.ofNat_add]
    exact hlength

namespace LteRlcUm

/-! ## What an opportunity builds -/

/-- There is room for so many SDUs that sixteen bits do not count the octets of the header. -/
structure Overflows (s : LteRlcUm) (bytes : ℕ) : Prop where
  lt : 43689 < s.txBuffer.length
  small : ∀ p ∈ s.txBuffer.take 43689, p.size ≤ 2047
  fits : 65536 + waiting (s.txBuffer.take 43689) < bytes

theorem overflows_iff {s : LteRlcUm} {bytes : ℕ} :
    s.Overflows bytes ↔ Room (bytes - 2) 0 s.txBuffer 43689 := by
  have hnone : fieldOctets 0 = 0 := rfl
  have hmany : fieldOctets (0 + 43689 - 1) = 65532 := rfl
  constructor
  · intro h
    have hfits := h.fits
    refine ⟨h.lt, h.small, ?_⟩
    rw [hnone, hmany]
    omega
  · intro h
    have hfits := h.fits
    rw [hnone, hmany] at hfits
    exact ⟨h.lt, h.small, by omega⟩

/-- The state behind the opportunity. -/
def sent (s : LteRlcUm) (p : Sdu) (post : List Sdu) (c : ℕ) : LteRlcUm :=
  { s with
    txBuffer := restOf p c ++ post
    txBufferSize := waiting (restOf p c ++ post)
    sequenceNumber := s.sequenceNumber.next }

/-- What is put together: the entries in `pre`, and `c` octets of `p`. -/
structure Built (s : LteRlcUm) (bytes : ℕ) (header : LteRlcHeader) (pre : List Sdu) (p : Sdu)
    (post : List Sdu) (c : ℕ) : Prop where
  entries_eq : s.txBuffer = pre ++ p :: post
  pos : 0 < c
  le : c ≤ p.size
  small : ∀ q ∈ pre, q.size ≤ 2047
  fits : waiting pre + c + fieldOctets pre.length + 2 ≤ bytes
  isPushed : header.IsPushed (pre.map fun q => BitVec.ofNat 16 q.size)
  framingInfo : ∃ first, s.txBuffer.head? = some first ∧ header.framingInfo =
    ((if first.status = .fullSdu then 0 else 2) ||| (if c = p.size then 0 else 1)) &&& 0x03
  notify : s.doNotifyTxOpportunity bytes =
    (addHeader header (stream pre ++ (segmentOf p c).octets)).map fun octets =>
      (s.sent p post c, some ⟨header, octets⟩)
  count : 43689 ≤ pre.length ↔ s.Overflows bytes

section

variable {s : LteRlcUm} {bytes : ℕ}

theorem exists_built (hwaits : ∀ p ∈ s.txBuffer, Waits p) (hne : s.txBuffer ≠ [])
    (hsize : s.txBufferSize = waiting s.txBuffer) (hbytes : 2 < bytes) :
    ∃ header pre p post c, s.Built bytes header pre p post c := by
  obtain ⟨first, others, hbuffer⟩ := exists_cons_of_ne_nil hne
  rw [hbuffer] at hwaits
  rw [hbuffer, waiting_cons] at hsize
  have hcharged : UmDraft.Charged { nextSegmentSize := bytes - 2 } := by
    intro hbits
    exact absurd rfl hbits
  obtain ⟨pre, p, post, c, hfilled⟩ := exists_filled (k := 0) { nextSegmentSize := bytes - 2 }
    hcharged rfl (Nat.sub_pos_of_lt hbytes) hwaits
  have hframing := hfilled.framingInfo_eq rfl hwaits
  have hdata : stream (UmDraft.fill { nextSegmentSize := bytes - 2 } first (waiting others)
      others).1.dataField = stream pre ++ (segmentOf p c).octets := by
    rw [hfilled.dataField, nil_append, stream_append]
    exact congrArg (stream pre ++ ·) (append_nil _)
  have hfits : waiting pre + c + fieldOctets (0 + pre.length) ≤ bytes - 2 + fieldOctets 0 :=
    hfilled.fits
  have hnone : fieldOctets 0 = 0 := rfl
  rw [Nat.zero_add, hnone] at hfits
  have hentries := hfilled.entries_eq
  rw [← hbuffer] at hentries
  refine ⟨_, pre, p, post, c, hentries, hfilled.pos, hfilled.le, hfilled.small, by omega,
    hfilled.isPushed s.sequenceNumber _, ⟨first, ?_, rfl⟩, ?_, ?_⟩
  · rw [hbuffer]
    rfl
  · unfold doNotifyTxOpportunity
    rw [if_neg (Nat.not_le_of_lt hbytes), hbuffer]
    dsimp only
    rw [hsize, Nat.add_sub_cancel_left, hframing]
    dsimp only
    rw [hdata, hfilled.size, hfilled.rest]
    cases addHeader _ (stream pre ++ (segmentOf p c).octets) with
    | error fault => rfl
    | ok octets => rfl
  · rw [overflows_iff, hbuffer]
    exact hfilled.count 43689 (by decide)

end

/-! ## The PDU -/

/-- One PDU with the next octets of what waits. -/
structure Carries (s : LteRlcUm) (bytes : ℕ) (s' : LteRlcUm) (pdu : UmPdu)
    (written data : List Octet) : Prop where
  notify : s.doNotifyTxOpportunity bytes = .ok (s', some pdu)
  serialize : pdu.header.serialize = some written
  getSerializedSize : pdu.header.getSerializedSize = written.length
  octets : pdu.octets = written ++ data
  length : pdu.octets.length ≤ bytes
  ne_nil : data ≠ []
  stream : data ++ stream s'.txBuffer = stream s.txBuffer
  waits : ∀ p ∈ s'.txBuffer, Waits p
  txBufferSize : s'.txBufferSize = waiting s'.txBuffer
  firstByte : pdu.header.framingInfo.getLsbD 1 = false ↔
    ∃ first, s.txBuffer.head? = some first ∧ first.status = .fullSdu
  lastByte : pdu.header.framingInfo.getLsbD 0 = false ↔
    ∃ n, data = Lte.stream (s.txBuffer.take n)
  framingInfo : pdu.header.framingInfo.toNat < 4
  lengthIndicators : ∀ li ∈ pdu.header.lengths.lengthIndicators, li.toNat < 2048
  /-- The whole entries in `pre` and the front of `p` are what a receiver makes of it. -/
  deserialize : ∃ h', ({} : LteRlcHeader).deserialize pdu.octets = some (h', data) ∧
    pdu.header.SameFields h' ∧ ∃ pre p post c, s.txBuffer = pre ++ p :: post ∧ 0 < c ∧
      c ≤ p.size ∧ s'.txBuffer = restOf p c ++ post ∧
      splitDataField h'.lengths.extensionBits h'.lengths.lengthIndicators data =
        some (pre.map Sdu.octets ++ [p.octets.take c])

/-- An opportunity segments what waits. -/
def Segments (s : LteRlcUm) (bytes : ℕ) : Prop :=
  ∃ s' pdu written data, s.Carries bytes s' pdu written data

/-- The bits of the framing info. -/
theorem framing_bits (starts ends : Prop) [Decidable starts] [Decidable ends] :
    let x : Octet := ((if starts then 0 else 2) ||| (if ends then 0 else 1)) &&& 0x03
    (x.getLsbD 1 = false ↔ starts) ∧ (x.getLsbD 0 = false ↔ ends) ∧ x.toNat < 4 := by
  by_cases hstarts : starts
  · by_cases hends : ends
    · simp [hstarts, hends]
    · simp [hstarts, hends]
  · by_cases hends : ends
    · simp [hstarts, hends]
    · simp [hstarts, hends]

section

variable {s : LteRlcUm} {bytes : ℕ} {header : LteRlcHeader} {pre post : List Sdu} {p : Sdu}
  {c : ℕ}

/-- As long as the header's length is counted, the PDU carries what was put together. -/
theorem Built.carries (h : s.Built bytes header pre p post c) (hfew : pre.length < 43689)
    (hwaits : ∀ q ∈ s.txBuffer, Waits q) :
    s.Carries bytes (s.sent p post c)
      ⟨header, header.octetsOf (pre.map fun q => BitVec.ofNat 16 q.size) ++
        (stream pre ++ (segmentOf p c).octets)⟩
      (header.octetsOf (pre.map fun q => BitVec.ofNat 16 q.size))
      (stream pre ++ (segmentOf p c).octets) := by
  have hp : Waits p := by
    apply hwaits
    rw [h.entries_eq]
    exact mem_append_right _ (mem_cons_self ..)
  have hsize := h.isPushed.getSerializedSize_eq_iff.mpr (by rw [length_map]; exact hfew)
  have hlis : ∀ li ∈ pre.map fun q => BitVec.ofNat 16 q.size, li.toNat < 2048 := by
    intro li hli
    obtain ⟨q, hq, rfl⟩ := mem_map.mp hli
    have hsmall := h.small q hq
    rw [BitVec.toNat_ofNat]
    exact Nat.lt_of_le_of_lt (Nat.mod_le _ _) (by omega)
  have hadd : addHeader header (stream pre ++ (segmentOf p c).octets) =
      .ok (header.octetsOf (pre.map fun q => BitVec.ofNat 16 q.size) ++
        (stream pre ++ (segmentOf p c).octets)) := by
    unfold addHeader
    rw [h.isPushed.serialize_eq]
    dsimp only
    rw [hsize, if_neg (Nat.lt_irrefl _), if_neg (by omega), Nat.sub_self, drop_zero]
  have hsegment : (segmentOf p c).octets.length = c := by
    show (p.octets.take c).length = c
    rw [length_take]
    exact Nat.min_eq_left h.le
  obtain ⟨first, hhead, hframing⟩ := h.framingInfo
  obtain ⟨hstarts, hends, hbits⟩ := framing_bits (first.status = .fullSdu) (c = p.size)
  rw [← hframing] at hstarts hends hbits
  refine ⟨?_, h.isPushed.serialize_eq, hsize, rfl, ?_, ?_, ?_, ?_, rfl, ?_, ?_, hbits, ?_, ?_⟩
  · rw [h.notify, hadd]
    rfl
  · have hfits := h.fits
    dsimp only
    rw [length_append, length_append, length_stream, hsegment,
      LteRlcHeader.length_octetsOf, length_map]
    omega
  · intro hnil
    have hlength := congrArg List.length hnil
    have hpos := h.pos
    rw [length_append, hsegment, length_nil] at hlength
    omega
  · show (stream pre ++ (segmentOf p c).octets) ++ stream (restOf p c ++ post) = stream s.txBuffer
    rw [h.entries_eq, stream_append, stream_append, append_assoc,
      ← append_assoc (segmentOf p c).octets, segmentOf_append_restOf p h.le]
    rfl
  · intro q hq
    rcases mem_append.mp hq with hrest | hpost
    · unfold restOf at hrest
      split at hrest
      · rename_i hpart
        rw [mem_singleton.mp hrest]
        refine ⟨?_, Or.inr rfl⟩
        show 0 < (p.octets.drop c).length
        rw [length_drop]
        exact Nat.sub_pos_of_lt hpart
      · cases hrest
    · apply hwaits
      rw [h.entries_eq]
      exact mem_append_right _ (mem_cons_of_mem _ hpost)
  · rw [hstarts, hhead]
    constructor
    · intro hfull
      exact ⟨first, rfl, hfull⟩
    · rintro ⟨first', hfirst', hfull⟩
      rw [Option.some.inj hfirst']
      exact hfull
  · rw [hends, h.entries_eq]
    exact (ends_iff h.pos h.le).symm
  · show ∀ li ∈ header.lengths.lengthIndicators, li.toNat < 2048
    rw [h.isPushed.lengthIndicators]
    exact hlis
  · obtain ⟨h', hread, hsame, hlengths⟩ := h.isPushed.deserialize_eq hframing hlis
      (stream pre ++ (segmentOf p c).octets)
    refine ⟨h', hread, hsame, pre, p, post, c, h.entries_eq, h.pos, h.le, rfl, ?_⟩
    rw [hlengths, h.isPushed.extensionBits, h.isPushed.lengthIndicators,
      ← LengthFields.replicate_append_eq, length_map]
    exact splitDataField_eq pre _ h.small

/-- A PDU whose header asks for the octets that it writes has less than 43689 length indicators. -/
theorem Built.lt_of_carries (h : s.Built bytes header pre p post c) {s' : LteRlcUm} {pdu : UmPdu}
    {written data : List Octet} (hcarries : s.Carries bytes s' pdu written data) :
    pre.length < 43689 := by
  have hnotify := hcarries.notify
  rw [h.notify] at hnotify
  cases hadd : addHeader header (stream pre ++ (segmentOf p c).octets) with
  | error fault =>
    rw [hadd] at hnotify
    cases hnotify
  | ok octets =>
    rw [hadd] at hnotify
    have hpdu : some (UmPdu.mk header octets) = some pdu :=
      (Prod.mk.inj (Except.ok.inj hnotify)).2
    have hheader : pdu.header = header := by rw [← Option.some.inj hpdu]
    have hserialize := hcarries.serialize
    have hsize := hcarries.getSerializedSize
    rw [hheader, h.isPushed.serialize_eq] at hserialize
    rw [hheader, ← Option.some.inj hserialize, h.isPushed.getSerializedSize_eq_iff,
      length_map] at hsize
    exact hsize

/-- An opportunity segments what waits as long as the header's length is counted. -/
theorem segments_of_not_overflows (hwaits : ∀ q ∈ s.txBuffer, Waits q) (hne : s.txBuffer ≠ [])
    (hsize : s.txBufferSize = waiting s.txBuffer) (hbytes : 2 < bytes)
    (hnot : ¬ s.Overflows bytes) : s.Segments bytes := by
  obtain ⟨header, pre, p, post, c, hbuilt⟩ := exists_built hwaits hne hsize hbytes
  have hfew : pre.length < 43689 := by
    rw [← hbuilt.count] at hnot
    omega
  exact ⟨_, _, _, _, hbuilt.carries hfew hwaits⟩

/-- Where it is not counted, the header is not the one that its length promises. -/
theorem not_segments_of_overflows (hwaits : ∀ q ∈ s.txBuffer, Waits q)
    (hsize : s.txBufferSize = waiting s.txBuffer) (hover : s.Overflows bytes) :
    ¬ s.Segments bytes := by
  have hlt := hover.lt
  have hfits := hover.fits
  have hne : s.txBuffer ≠ [] := by
    intro hnil
    rw [hnil] at hlt
    exact absurd hlt (by decide)
  rintro ⟨s', pdu, written, data, hcarries⟩
  have hbytes : 2 < bytes := by omega
  obtain ⟨header, pre, p, post, c, hbuilt⟩ := exists_built hwaits hne hsize hbytes
  have hfew := hbuilt.lt_of_carries hcarries
  have hmany := hbuilt.count.mpr hover
  omega

/-- **An opportunity segments what waits** just where sixteen bits count the header's octets. -/
theorem segments_iff_not_overflows (hwaits : ∀ q ∈ s.txBuffer, Waits q) (hne : s.txBuffer ≠ [])
    (hsize : s.txBufferSize = waiting s.txBuffer) (hbytes : 2 < bytes) :
    s.Segments bytes ↔ ¬ s.Overflows bytes := by
  constructor
  · intro hsegments hover
    exact not_segments_of_overflows hwaits hsize hover hsegments
  · exact segments_of_not_overflows hwaits hne hsize hbytes

end

/-- The rest of an SDU and three more. -/
def waitingSdus : LteRlcUm where
  txBuffer := [⟨[3, 4], .lastSegment⟩, ⟨[5], .fullSdu⟩, ⟨[6, 7, 8], .fullSdu⟩, ⟨[9], .fullSdu⟩]
  txBufferSize := 7

/-- An opportunity for two of them and a segment of the third. -/
theorem segments_iff_not_overflows_sample :
    waitingSdus.Segments 10 ↔ ¬ waitingSdus.Overflows 10 := by
  apply segments_iff_not_overflows
  · unfold waitingSdus Waits
    decide
  · exact cons_ne_nil _ _
  · rfl
  · decide

theorem waiting_replicate (n : ℕ) (p : Sdu) :
    waiting (List.replicate n p) = n * p.size := by
  unfold waiting
  rw [map_replicate, sum_replicate_nat]

/-- 43690 SDUs of one octet, and an opportunity for all of them. -/
theorem not_segments_many : ¬ LteRlcUm.Segments
    { maxTxBufferSize := 100000
      txBuffer := List.replicate 43690 ⟨[0], .fullSdu⟩
      txBufferSize := 43690 } 110000 := by
  apply not_segments_of_overflows
  · intro q hq
    rw [eq_of_mem_replicate hq]
    exact ⟨by decide, Or.inl rfl⟩
  · rw [waiting_replicate]
    rfl
  · refine ⟨?_, ?_, ?_⟩
    · rw [length_replicate]
      decide
    · intro p hp
      rw [eq_of_mem_replicate (mem_of_mem_take hp)]
      decide
    · rw [take_replicate, waiting_replicate]
      decide

end LteRlcUm

end Ns3Dsme.Lte
