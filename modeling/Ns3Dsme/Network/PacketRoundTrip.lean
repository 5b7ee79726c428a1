/-
# Packets survive serialization

A packet that is constructed from what `Serialize` wrote has the same bytes, the same tags on them
and the same packet tags.  The check of `Serialize` counts neither the lengths before the sections
nor what fills them up: it may pass when the limit is too small, and then octets behind the limit
are written.
-/
import Ns3Dsme.Network.PacketReading

open List Program Memory Layout

namespace Ns3Dsme.Network

variable {ν μ : Type}

/-! ## Packets in memory -/

/-- The packet is one of those in memory, and contains this. -/
structure FullPacket.Held (p : FullPacket ν μ) (m : PacketMemory) (k : Content ν μ) : Prop where
  nixVector : p.nixVector = k.nixVector
  byteTags : ∃ owners rs, m.byteTags.Sound owners ∧ (p.byteTagList, rs) ∈ owners ∧
    Ranged p.byteTagList.adjustment rs ∧
    rs.filterMap (TagRecord.inFull p.byteTagList.adjustment) = k.byteTags
  packetTags : ∃ roots, SharedChain.Sound m.packetTags roots ∧
    (p.packetTagList, k.packetTags) ∈ roots
  metadata : p.metadata = k.metadata
  buffer : ∃ w : Buffers, w.Inv ∧ w.store = m.buffers ∧ ∃ b s, w.slot b = some s ∧ s.buf = p.buffer
  front : k.front = (p.buffer.shown m.buffers).take (p.buffer.zeroAreaStart - p.buffer.start)
  zeroes : k.zeroes = p.buffer.zeroAreaEnd - p.buffer.zeroAreaStart
  back : k.back = (p.buffer.shown m.buffers).drop (p.buffer.zeroAreaEnd - p.buffer.start)

/-- All bytes. -/
def Content.bytes (k : Content ν μ) : List Octet :=
  k.front ++ List.replicate k.zeroes 0 ++ k.back

/-- 32 bits are enough for the octets and for the positions of a new buffer, and 31 for the bytes
that tags refer to. -/
structure Content.Small (k : Content ν μ) (s : Store) (nixCodec : Codec ν)
    (metadataCodec : Codec μ) : Prop where
  octets : total (k.parts nixCodec metadataCodec) < 2 ^ 32
  positions : s.recommendedStart + k.bytes.length + 20 ≤ 2 ^ 32
  bytes : k.bytes.length < 2 ^ 31

/-- The limit is enough for all octets; or it is less than what is counted, and the sections that
pass end within it. -/
def Content.Fits (k : Content ν μ) (nixCodec : Codec ν) (metadataCodec : Codec μ) (maxSize : ℕ) :
    Prop :=
  total (k.parts nixCodec metadataCodec) ≤ maxSize ∨
    maxSize < counted (k.parts nixCodec metadataCodec) ∧
      Room maxSize 0 0 (k.parts nixCodec metadataCodec)

/-- The tags on one byte, of those that are shown. -/
def tagsOn (tags : List ShownTag) (i : ℕ) : List ByteTag :=
  (tags.filter fun t => decide (t.start ≤ i ∧ i < t.stop)).map ShownTag.tag

namespace FullPacket

/-- The two packets have the same bytes, tags on each of them, packet tags, metadata and nix
vector. -/
structure SameAs (p : FullPacket ν μ) (m : PacketMemory) (q : FullPacket ν μ) (m' : PacketMemory) :
    Prop where
  bytes : q.buffer.shown m'.buffers = p.buffer.shown m.buffers
  byteTags : ∃ tags tags', p.getByteTags m = .ok tags ∧ q.getByteTags m' = .ok tags' ∧
    ∀ i < (p.buffer.shown m.buffers).length, tagsOn tags' i = tagsOn tags i
  packetTags : ∃ tags, p.getPacketTags m = .ok tags ∧ q.getPacketTags m' = .ok tags
  metadata : q.metadata = p.metadata
  nixVector : q.nixVector = p.nixVector

/-- What is promised of serializing a packet under a limit: 1 is returned if the limit is at least
`GetSerializedSize`, nothing from the limit on is written, and if 1 is returned a packet that is
constructed from these octets is the same. -/
structure Serializes (p : FullPacket ν μ) (m : PacketMemory) (nixCodec : Codec ν)
    (metadataCodec : Codec μ) (tids : TypeIds) (maxSize : ℕ) : Prop where
  returns : ∃ size, p.getSerializedSize m nixCodec metadataCodec = .ok size ∧
    ∀ memory, ∃ done memory',
      p.serialize m nixCodec metadataCodec tids memory maxSize = .ok (done, memory') ∧
        (done = true ↔ size ≤ maxSize)
  bounded : ∀ memory done memory',
    p.serialize m nixCodec metadataCodec tids memory maxSize = .ok (done, memory') →
      ∀ q, maxSize ≤ q → memory' q = memory q
  lossless : ∀ memory memory' size,
    p.serialize m nixCodec metadataCodec tids memory maxSize = .ok (true, memory') →
      p.getSerializedSize m nixCodec metadataCodec = .ok size →
        ∀ garbage, ∃ q m',
          construct m nixCodec metadataCodec tids (span memory' 0 size) size garbage = .ok (q, m') ∧
            p.SameAs m q m'

namespace Held

variable {p : FullPacket ν μ} {m : PacketMemory} {k : Content ν μ} {nixCodec : Codec ν}
  {metadataCodec : Codec μ} {tids : TypeIds}

/-- What is known of the buffer. -/
theorem ordered (h : p.Held m k) : p.buffer.Ordered ∧
    p.buffer.stop ≤ (m.buffers.areas p.buffer.data).capacity := by
  obtain ⟨w, hinv, hstore, b, s, hs, hbuf⟩ := h.buffer
  have hsane := hinv.sane b s hs
  rw [← hbuf, ← hstore]
  refine ⟨hsane.ordered, hsane.fits.trans ?_⟩
  exact hinv.owned.capacity _ (hinv.owned.lt_next (Buffers.refs_pos hs))

theorem contains (h : p.Held m k) : p.Contains m k := by
  obtain ⟨hordered, hcapacity⟩ := h.ordered
  obtain ⟨owners, rs, hsound, hmem, hranged, hrecords⟩ := h.byteTags
  obtain ⟨items, hitems, hmap, hsizes⟩ := (hsound.holds _ hmem).items_eq hranged
  obtain ⟨roots, hroots, hroot⟩ := h.packetTags
  have hspells := hroots.shows _ hroot
  constructor
  · exact h.nixVector
  · exact ⟨items, hitems, hmap.trans hrecords, hsizes⟩
  · exact TagHeap.tags_eq hspells (hroots.length_le hspells)
  · exact h.metadata
  · exact hordered
  · exact hcapacity
  · exact h.front
  · exact h.zeroes
  · exact h.back

/-- The records are ranges of the packet. -/
theorem inFull (h : p.Held m k) : ∀ r ∈ k.byteTags, r.InFull := by
  obtain ⟨owners, rs, hsound, hmem, hranged, hrecords⟩ := h.byteTags
  intro r hr
  rw [← hrecords] at hr
  obtain ⟨r₀, hr₀, hfull⟩ := mem_filterMap.mp hr
  exact ((hsound.holds _ hmem).good r₀ hr₀).inFull (hranged r₀ hr₀) hfull

/-! ## What a packet shows -/

theorem shown_eq (h : p.Held m k) : p.buffer.shown m.buffers = k.bytes := by
  unfold Content.bytes
  rw [h.front, h.zeroes, h.back]
  exact h.ordered.1.shown_split m.buffers

theorem getSize_eq (h : p.Held m k) : p.buffer.getSize = k.bytes.length := by
  rw [h.ordered.1.getSize_eq, ← h.shown_eq, Buffer.length_shown]

/-- Where there are bytes, the tags that are shown are those of the content. -/
theorem getByteTags_eq (h : p.Held m k) (hsmall : k.bytes.length < 2 ^ 31) :
    ∃ tags, p.getByteTags m = .ok tags ∧
      (0 < k.bytes.length → tags = k.byteTags.filterMap (TagRecord.shownTag k.bytes.length 0)) := by
  obtain ⟨owners, rs, hsound, hmem, hranged, hrecords⟩ := h.byteTags
  unfold getByteTags
  rw [h.getSize_eq]
  refine ⟨_, Packet.getByteTags_eq (hsound.holds _ hmem) hranged hsmall, fun hpos => ?_⟩
  rw [← hrecords, filterMap_filterMap]
  refine filterMap_congr fun r hr => ?_
  -- the range in full is cut at the end of the packet in the same way
  unfold TagRecord.inFull TagRecord.moved
  rcases TagRecord.shown_cases (hranged r hr) with ⟨hshown, hout⟩ | ⟨hshown, hlow, hhigh⟩
  · rw [hshown]
    unfold TagRecord.shownTag TagRecord.shown
    rw [if_pos (by dsimp only; omega)]
    rfl
  · rw [hshown, Option.bind_some, Option.map_some, Option.bind_some]
    unfold TagRecord.shownTag TagRecord.shown
    dsimp only
    by_cases hhidden : (k.bytes.length : ℤ) ≤ r.start + p.byteTagList.adjustment
    · rw [if_pos (Or.inl hhidden), if_pos (Or.inl (by omega))]
    · rw [if_neg (by omega), if_neg (by omega), sub_zero, sub_zero, add_zero, add_zero,
        max_eq_left (le_max_right _ _)]

/-- Two packets that contain the same show the same. -/
theorem sameAs {q : FullPacket ν μ} {m' : PacketMemory} (h : p.Held m k) (h' : q.Held m' k)
    (hsmall : k.bytes.length < 2 ^ 31) : p.SameAs m q m' := by
  obtain ⟨tags, htags, heq⟩ := h.getByteTags_eq hsmall
  obtain ⟨tags', htags', heq'⟩ := h'.getByteTags_eq hsmall
  constructor
  · rw [h.shown_eq, h'.shown_eq]
  · refine ⟨tags, tags', htags, htags', fun i hi => ?_⟩
    rw [h.shown_eq] at hi
    rw [heq (by omega), heq' (by omega)]
  · exact ⟨k.packetTags, h.contains.packetTags, h'.contains.packetTags⟩
  · exact h'.metadata.trans h.metadata.symm
  · exact h'.nixVector.trans h.nixVector.symm

end Held

/-! ## Reading the sections -/

section Reading

variable {os : List Octet} {image sub : List (Option Octet)} {n : ℕ}

/-- **The length of a section is read**, and then the section is passed. -/
theorem length_framed_eq (h : Fills os (framed sub ++ image)) (hle : os.length ≤ n)
    (hn : n < 2 ^ 32) :
    ∃ body tail os', PartReader.length ⟨os, n⟩ = .ok (body.length + 4, ⟨body ++ tail, n⟩) ∧
      Fills body sub ∧ Fills os' image ∧
      PartReader.skip ⟨body ++ tail, n⟩ (body.length + 4) = ⟨os', n - (body.length + 4)⟩ ∧
      os'.length ≤ n - (body.length + 4) ∧ body.length + 4 ≤ n := by
  unfold framed at h
  rw [append_assoc] at h
  obtain ⟨os₁, rfl, hfills₁⟩ := fills_word h
  rw [append_assoc] at hfills₁
  obtain ⟨body, os₂, rfl, hbody, hfills₂⟩ := hfills₁.of_append
  obtain ⟨pad, os', rfl, hpad, hfills⟩ := hfills₂.of_append
  have hlength := hbody.length
  have hpadLength := hpad.length
  have hpadded := le_padded sub.length
  rw [length_holes] at hpadLength
  have htotal :
    (Octet.lowFirst32 (BitVec.ofNat 32 (sub.length + 4)) ++ (body ++ (pad ++ os'))).length
      = 4 + (body.length + (pad.length + os'.length)) := by
    rw [length_append, length_append, length_append]
    rfl
  rw [htotal] at hle
  have hvalue : (BitVec.ofNat 32 (sub.length + 4)).toNat = body.length + 4 := by
    rw [BitVec.toNat_ofNat, Nat.mod_eq_of_lt (by omega), hlength]
  have hskip : (body ++ (pad ++ os')).drop (padded sub.length) = os' := by
    rw [← append_assoc]
    exact drop_left' (by rw [length_append]; omega)
  refine ⟨body, pad ++ os', os', ?_, hbody, hfills, ?_, by omega, by omega⟩
  · unfold PartReader.length
    dsimp only
    rw [takeWord_append, ok_bind]
    dsimp only
    rw [hvalue, if_neg (by omega)]
    rfl
  · unfold PartReader.skip
    dsimp only
    rw [Word32.sub_eq (by omega) (by omega), Nat.add_sub_cancel, hlength, aligned_eq (by omega),
      hskip, Word32.sub_eq (by omega) hn]

/-- **The first section**, with or without a nix vector. -/
theorem deserializeNix_eq {nixCodec : Codec ν} {nix : Option ν}
    (h : Fills os ((nix.elim (⟨4, wordImage 4⟩ : Piece Octet) fun nix =>
      ⟨(nixCodec.octets nix).length, framed ((nixCodec.octets nix).map some)⟩).image ++ image))
    (hle : os.length ≤ n) (hn : n < 2 ^ 32) :
    ∃ nixSize r os' n', PartReader.length ⟨os, n⟩ = .ok (nixSize, r) ∧
      deserializeNix nixCodec r nixSize = .ok (nix, ⟨os', n'⟩) ∧ Fills os' image ∧
      os'.length ≤ n' ∧ n' < 2 ^ 32 := by
  cases nix with
  | none =>
    obtain ⟨os', rfl, hfills⟩ := fills_word h
    have hlength : (Octet.lowFirst32 4 ++ os').length = 4 + os'.length := length_append
    rw [hlength] at hle
    refine ⟨4, ⟨os', n⟩, os', n - 4, ?_, ?_, hfills, by omega, by omega⟩
    · unfold PartReader.length
      dsimp only
      rw [takeWord_append, ok_bind]
      dsimp only
      rw [show (4 : BitVec 32).toNat = 4 from rfl, if_neg (by omega)]
      rfl
    · unfold deserializeNix
      rw [if_neg (by decide), Word32.sub_eq (by omega) hn]
  | some nix =>
    obtain ⟨body, tail, os', hlength, hbody, hfills, hskip, hle', hsize⟩ :=
      length_framed_eq h hle hn
    have hpos := length_pos_iff.mpr (nixCodec.nonempty nix)
    have hcodec := nixCodec.lossless nix tail
    refine ⟨_, _, os', n - (body.length + 4), hlength, ?_, hfills, hle', by omega⟩
    rw [hbody.eq] at hskip ⊢
    unfold deserializeNix
    rw [if_pos (by omega)]
    dsimp only
    rw [hcodec, hskip]

end Reading

namespace Held

variable {p : FullPacket ν μ} {m : PacketMemory} {k : Content ν μ} {nixCodec : Codec ν}
  {metadataCodec : Codec μ} {tids : TypeIds}

/-- The bytes of a buffer that is divided as the content is. -/
theorem of_buffer {w : Buffers} {s : Slot} {store : Store} (h : (w.addSlot s store).Inv)
    {front back : List Octet} {zeroes : ℕ}
    (href : s.ref = (front ++ List.replicate zeroes 0 ++ back).map some)
    (hdivided : s.buf.Divided front.length zeroes back.length) :
    front = (s.buf.shown store).take (s.buf.zeroAreaStart - s.buf.start) ∧
      back = (s.buf.shown store).drop (s.buf.zeroAreaEnd - s.buf.start) := by
  have hsane := h.sane _ s (Buffers.slot_addSlot_last s store)
  have hshown : s.buf.shown store = front ++ List.replicate zeroes 0 ++ back :=
    Buffer.shown_of_shows (href ▸ hsane.shows)
  have hone := hsane.ordered.start_le
  have htwo := hsane.ordered.zero_le
  have hzeroes := hdivided.zeroes
  have hlength : s.buf.zeroAreaEnd - s.buf.start
      = (front ++ List.replicate zeroes (0 : Octet)).length := by
    rw [length_append, length_replicate, ← hdivided.front]
    omega
  constructor
  · rw [hshown, hdivided.front, append_assoc, take_left' rfl]
  · rw [hshown, hlength, drop_left' rfl]

variable (h : p.Held m k) (hregistered : k.Registered tids)
include h hregistered

/-- **A packet that is constructed from the sections contains what was written.** -/
theorem construct_eq (hsmall : k.Small m.buffers nixCodec metadataCodec) {os : List Octet}
    (hfills : Fills os ((k.pieces nixCodec metadataCodec tids).flatMap Piece.image))
    (garbage : ℕ → ℕ → Octet) :
    ∃ q m', construct m nixCodec metadataCodec tids os os.length garbage = .ok (q, m') ∧
      q.Held m' k := by
  have htotal := hsmall.octets
  have hlength := hfills.length
  rw [length_flatMap_image, Content.map_part] at hlength
  rw [← hlength] at htotal
  obtain ⟨owners, rs, hsound, -, -, -⟩ := h.byteTags
  obtain ⟨roots, hroots, -⟩ := h.packetTags
  obtain ⟨w, hinv, hstore, -⟩ := h.buffer
  unfold Content.pieces at hfills
  rw [flatMap_cons, flatMap_cons, flatMap_cons, flatMap_cons, flatMap_cons,
    flatMap_nil] at hfills
  -- the sections are read one after the other
  obtain ⟨nixSize, r, os₁, n₁, hnixLength, hnix, hfills₁, hle₁, hn₁⟩ :=
    deserializeNix_eq hfills (le_refl _) htotal
  obtain ⟨body₂, tail₂, os₂, hlength₂, hbody₂, hfills₂, hskip₂, hle₂, hsize₂⟩ :=
    length_framed_eq hfills₁ hle₁ hn₁
  obtain ⟨l', byteTags, hbyteTags, hadj, hsound'⟩ :=
    hsound.deserialize hregistered.byteTags h.inFull
    hbody₂ (by omega) tail₂
  obtain ⟨body₃, tail₃, os₃, hlength₃, hbody₃, hfills₃, hskip₃, hle₃, hsize₃⟩ :=
    length_framed_eq hfills₂ hle₂ (by omega)
  obtain ⟨l, hpacketTags, hroots'⟩ := PacketTagList.deserialize_eq hroots hregistered.packetTags
    hbody₃ (by omega) tail₃
  obtain ⟨body₄, tail₄, os₄, hlength₄, hbody₄, hfills₄, hskip₄, hle₄, hsize₄⟩ :=
    length_framed_eq hfills₃ hle₃ (by omega)
  have hmetadata := metadataCodec.lossless k.metadata tail₄
  obtain ⟨body₅, tail₅, os₅, hlength₅, hbody₅, -, -, -, hsize₅⟩ :=
    length_framed_eq hfills₄ hle₄ (by omega)
  have hpositions := hsmall.positions
  unfold Content.bytes at hpositions
  rw [length_append, length_append, length_replicate, ← hstore] at hpositions
  obtain ⟨b, tmp, hbuffer, hinv', hbuf, href, hdivided⟩ := hinv.deserialize hbody₅ (by omega)
    hpositions garbage tail₅
  rw [hstore] at hbuffer
  rw [← hbuf] at hdivided
  obtain ⟨hfront, hback⟩ := of_buffer hinv' href hdivided
  refine ⟨⟨b.1, l', l.next, k.metadata, k.nixVector⟩, ⟨b.2, byteTags, l.heap⟩, ?_, ?_⟩
  · unfold construct deserialize
    dsimp only
    rw [hnixLength, Stop.of_ok, ok_bind]
    dsimp only
    rw [hnix, ok_bind]
    dsimp only
    rw [hlength₂, Stop.of_ok, ok_bind]
    dsimp only
    rw [hbyteTags, Stop.of_ok, ok_bind]
    dsimp only
    rw [hskip₂, hlength₃, Stop.of_ok, ok_bind]
    dsimp only
    rw [hpacketTags, Stop.of_ok, ok_bind, hskip₃, hlength₄, Stop.of_ok, ok_bind]
    unfold deserializeMetadata
    dsimp only
    rw [hbody₄.eq] at hskip₄ ⊢
    rw [hmetadata]
    dsimp only
    rw [hskip₄, ok_bind]
    dsimp only
    rw [hbody₄.eq] at hlength₅
    rw [hlength₅, Stop.of_ok, ok_bind]
    dsimp only
    rw [hbuffer, Stop.of_ok, ok_bind]
    rfl
  · constructor
    · rfl
    · refine ⟨_, k.byteTags, hsound', mem_cons_self, fun r hr => ?_, ?_⟩
      · obtain ⟨hstart, hle, hlt, hpos, hstop⟩ := h.inFull r hr
        dsimp only
        rw [hadj, add_zero, add_zero]
        exact ⟨⟨by omega, by omega⟩, by omega, by omega⟩
      · dsimp only
        rw [hadj]
        exact filterMap_inFull h.inFull
    · exact ⟨_, hroots', mem_cons_self⟩
    · rfl
    · exact ⟨_, hinv', rfl, _, tmp, Buffers.slot_addSlot_last tmp b.2, hbuf⟩
    · rw [← hbuf]
      exact hfront
    · rw [← hbuf]
      exact hdivided.zeroes.symm
    · rw [← hbuf]
      exact hback

/-! ## What is promised -/

omit h hregistered in
theorem pos_extent (k : Content ν μ) (nixCodec : Codec ν) (metadataCodec : Codec μ)
    (tids : TypeIds) : ∀ x ∈ k.pieces nixCodec metadataCodec tids, 0 < extent x.image := by
  have hframed (image : List (Option Octet)) : 0 < extent (framed image) := by
    rw [extent_framed]
    omega
  have hnix : 0 < extent (k.nixVector.elim (⟨4, wordImage 4⟩ : Piece Octet) fun nix =>
      ⟨(nixCodec.octets nix).length, framed ((nixCodec.octets nix).map some)⟩).image := by
    cases k.nixVector with
    | none =>
      show 0 < extent (wordImage 4)
      rw [extent_wordImage]
      decide
    | some nix => exact hframed _
  intro x hx
  unfold Content.pieces at hx
  simp only [mem_cons, not_mem_nil, or_false] at hx
  rcases hx with rfl | rfl | rfl | rfl | rfl
  · exact hnix
  · exact hframed _
  · exact hframed _
  · exact hframed _
  · exact hframed _

/-- The first promise: the lengths and the octets that fill up sections are not counted. -/
theorem returns_iff (hsmall : total (k.parts nixCodec metadataCodec) < 2 ^ 32) (maxSize : ℕ) :
    (∃ size, p.getSerializedSize m nixCodec metadataCodec = .ok size ∧
      ∀ memory, ∃ done memory',
        p.serialize m nixCodec metadataCodec tids memory maxSize = .ok (done, memory') ∧
          (done = true ↔ size ≤ maxSize)) ↔
      (total (k.parts nixCodec metadataCodec) ≤ maxSize ∨
        maxSize < counted (k.parts nixCodec metadataCodec)) := by
  have hsize := h.contains.getSerializedSize_eq hsmall tids
  have hdone := place_fst_iff maxSize (k.pieces nixCodec metadataCodec tids) 0 (Nat.zero_le _)
  rw [Content.map_part, Nat.zero_add] at hdone
  have hle :=
    counted_le_total (k.parts nixCodec metadataCodec) (k.counted_le nixCodec metadataCodec)
  constructor
  · rintro ⟨size, hsize', hall⟩
    rw [hsize] at hsize'
    cases hsize'
    obtain ⟨done, memory', hserialize, hiff⟩ := hall fun _ => 0
    rw [h.contains.serialize_eq hregistered hsmall] at hserialize
    cases hserialize
    rw [hdone] at hiff
    omega
  · intro hfits
    refine ⟨_, hsize, fun memory =>
      ⟨_, _, h.contains.serialize_eq hregistered hsmall memory maxSize,
      ?_⟩⟩
    rw [hdone]
    omega

/-- The second promise: the sections that pass end within the limit. -/
theorem bounded_iff (hsmall : total (k.parts nixCodec metadataCodec) < 2 ^ 32) (maxSize : ℕ) :
    (∀ memory done memory',
      p.serialize m nixCodec metadataCodec tids memory maxSize = .ok (done, memory') →
        ∀ q, maxSize ≤ q → memory' q = memory q) ↔
      Room maxSize 0 0 (k.parts nixCodec metadataCodec) := by
  have hroom := room_iff maxSize (k.pieces nixCodec metadataCodec tids)
    (pos_extent k nixCodec metadataCodec tids) 0 0
  rw [Content.map_part, Nat.zero_add] at hroom
  have hextent := extent_le_iff (place maxSize 0 (k.pieces nixCodec metadataCodec tids)).2 maxSize
  have : Nontrivial Octet := ⟨0, 1, by decide⟩
  have hoverlay := overlay_eq_iff 0 maxSize
    (place maxSize 0 (k.pieces nixCodec metadataCodec tids)).2
  simp only [Nat.zero_add] at hoverlay
  rw [hroom]
  constructor
  · intro hall
    right
    rw [hextent, ← hoverlay]
    intro memory q hq
    exact hall memory _ _ (h.contains.serialize_eq hregistered hsmall memory maxSize) q hq
  · intro hends memory done memory' hserialize q hq
    rw [h.contains.serialize_eq hregistered hsmall] at hserialize
    cases hserialize
    refine hoverlay.mpr (hextent.mp ?_) memory q hq
    rcases hends with hzero | hends
    · rw [hzero]
      exact Nat.zero_le _
    · exact hends

/-- **The third promise**: what is read back is the same packet. -/
theorem lossless (hsmall : k.Small m.buffers nixCodec metadataCodec) {maxSize size : ℕ}
    {memory memory' : ℕ → Octet}
    (hserialize : p.serialize m nixCodec metadataCodec tids memory maxSize = .ok (true, memory'))
    (hsize : p.getSerializedSize m nixCodec metadataCodec = .ok size) (garbage : ℕ → ℕ → Octet) :
    ∃ q m', construct m nixCodec metadataCodec tids (span memory' 0 size) size garbage
      = .ok (q, m') ∧ p.SameAs m q m' := by
  rw [h.contains.serialize_eq hregistered hsmall.octets, Except.ok.injEq, Prod.mk.injEq]
    at hserialize
  obtain ⟨hdone, rfl⟩ := hserialize
  rw [h.contains.getSerializedSize_eq hsmall.octets tids] at hsize
  cases hsize
  -- all sections were written
  have hfills := fills_span memory 0 ((k.pieces nixCodec metadataCodec tids).flatMap Piece.image)
  rw [length_flatMap_image, Content.map_part] at hfills
  obtain ⟨q, m', hconstruct, hheld⟩ := h.construct_eq hregistered hsmall hfills garbage
  rw [length_span] at hconstruct
  rw [place_snd maxSize _ 0 hdone]
  exact ⟨q, m', hconstruct, h.sameAs hheld hsmall.bytes⟩

end Held

/-- **Serializing a packet.**  What is promised holds exactly if the limit is at least
`GetSerializedSize`, or less than what `Serialize` counts of it while the sections that pass the
check end within the limit. -/
theorem serializes_iff {p : FullPacket ν μ} {m : PacketMemory} {k : Content ν μ}
    {nixCodec : Codec ν} {metadataCodec : Codec μ} {tids : TypeIds} (h : p.Held m k)
    (hregistered : k.Registered tids) (hsmall : k.Small m.buffers nixCodec metadataCodec)
    (maxSize : ℕ) : p.Serializes m nixCodec metadataCodec tids maxSize
      ↔ k.Fits nixCodec metadataCodec maxSize := by
  have hreturns := h.returns_iff hregistered hsmall.octets maxSize
  have hbounded := h.bounded_iff hregistered hsmall.octets maxSize
  constructor
  · intro hserializes
    rcases hreturns.mp hserializes.returns with htotal | hcounted
    · exact Or.inl htotal
    · exact Or.inr ⟨hcounted, hbounded.mp hserializes.bounded⟩
  · intro hfits
    have hroom : Room maxSize 0 0 (k.parts nixCodec metadataCodec) := by
      rcases hfits with htotal | ⟨-, hroom⟩
      · exact room_of_total_le _ (k.written_le nixCodec metadataCodec) 0 0 (by omega)
      · exact hroom
    constructor
    · exact hreturns.mpr (hfits.imp_right And.left)
    · exact hbounded.mpr hroom
    · intro memory memory' size hserialize hsize garbage
      exact h.lossless hregistered hsmall hserialize hsize garbage

/-! ## Packets that are reached -/

section Reached

variable {is₁ : List BufferCall} {w₁ : Buffers} {memory : ℕ → ℕ → Octet} {is₂ : List PacketCall}
  {w₂ : Packets} {is₃ : List TagCall} {w₃ : TagLists}

/-- **A packet whose parts are reached by runs** is one that is in memory. -/
theorem held_of_runs (h₁ : Buffers.machine.Run Buffers.Fits Buffers.start is₁ w₁)
    (h₂ : Packets.machine.Run Packets.Fits (Packets.start memory) is₂ w₂)
    (h₃ : TagLists.machine.Run TagLists.Fits TagLists.start is₃ w₃) {b : ℕ} {s : Slot}
    (hs : w₁.slot b = some s) {i : ℕ} {t : TaggedPacket} (ht : w₂.slot i = some t) {j : ℕ}
    {l : TagMap} (hl : w₃.slot j = some l) {tags : List PacketTag}
    (htags : PacketTagList.tags ⟨l.next, w₃.heap⟩ = .ok tags) (metadata : μ)
    (nixVector : Option ν) :
    FullPacket.Held ⟨s.buf, t.packet.byteTagList, l.next, metadata, nixVector⟩
      ⟨w₁.store, w₂.store, w₃.heap⟩
      ⟨nixVector, (t.packet.byteTagList.records w₂.store).filterMap
          (TagRecord.inFull t.packet.byteTagList.adjustment), tags, metadata,
        (s.buf.shown w₁.store).take (s.buf.zeroAreaStart - s.buf.start),
        s.buf.zeroAreaEnd - s.buf.zeroAreaStart,
        (s.buf.shown w₁.store).drop (s.buf.zeroAreaEnd - s.buf.start)⟩ := by
  have hinv₂ := Packets.inv_of_run h₂
  obtain ⟨vs, hinv₃⟩ := TagLists.inv_of_run h₃
  obtain ⟨as, has⟩ := hinv₃.exists_tags hl
  have hroots := hinv₃.split has
  have hspells := hroots.shows _ mem_cons_self
  -- the tags that are shown are those of the list
  have hsame : tags = as := by
    have heq : PacketTagList.tags ⟨l.next, w₃.heap⟩ = .ok as :=
      TagHeap.tags_eq hspells (hroots.length_le hspells)
    rw [htags] at heq
    exact Except.ok.inj heq
  constructor
  · rfl
  · exact ⟨_, _, hinv₂.split ht, mem_cons_self, (hinv₂.tagged i t ht).ranged, rfl⟩
  · rw [hsame]
    exact ⟨_, hroots, mem_cons_self⟩
  · rfl
  · exact ⟨w₁, Buffers.inv_of_run h₁, rfl, b, s, hs, rfl⟩
  · rfl
  · rfl
  · rfl

end Reached

/-! ## A packet of six bytes -/

/-- An empty nix vector: the number of its bits, which is read back. -/
def emptyNix : Codec Unit where
  octets _ := [0, 0, 0, 0]
  deserialize octets size :=
    if size = 8 ∧ octets.take 4 = [0, 0, 0, 0] then some () else none
  nonempty _ := cons_ne_nil _ _
  lossless _ _ := rfl

/-- The metadata of a packet without items: its uid. -/
def uidMetadata : Codec Octets8 where
  octets := Octets8.toList
  deserialize octets _ := (Octets8.take? octets).map Prod.fst
  nonempty _ := cons_ne_nil _ _
  lossless _ _ := rfl

/-- Two types of tags. -/
def sampleTypes : TypeIds := ⟨[0x1234abcd, 0x00c0ffee], by decide, by decide⟩

/-- A byte in front of two zeroes and one behind them, with a tag on all bytes and one on the
packet. -/
def sampleContent : Content Unit Octets8 where
  nixVector := none
  byteTags := [⟨1, 0, 4, [0xcc]⟩]
  packetTags := [⟨2, [1, 2, 3, 4, 5]⟩]
  metadata := Octets8.zero
  front := [0xaa]
  zeroes := 2
  back := [0xbb]

theorem registered_sampleContent : sampleContent.Registered sampleTypes := by
  constructor
  · intro r hr
    rw [mem_singleton.mp hr]
    exact ⟨by decide, by decide⟩
  · intro t ht
    rw [mem_singleton.mp ht]
    exact ⟨by decide, by decide⟩

def sampleBytes : List BufferCall :=
  [.construct 2 fun _ => 0, .addAtStart 0 1 fun _ => 0, .write 0 0 (.writeU8 0xaa),
    .addAtEnd 0 1 fun _ => 0, .write 0 3 (.writeU8 0xbb)]

/-- There is such a packet. -/
theorem exists_held : ∃ (p : FullPacket Unit Octets8) (m : PacketMemory),
    p.Held m sampleContent ∧ sampleContent.Small m.buffers emptyNix uidMetadata := by
  obtain ⟨w₁, h₁, htest₁⟩ := Machine.exists_run_of_exec (m := Buffers.machine)
    (fun w c => decide (Buffers.Fits w c))
    (fun w => decide (∃ s, w.slot 0 = some s ∧ w.store.recommendedStart ≤ 100 ∧
      (s.buf.shown w.store).take (s.buf.zeroAreaStart - s.buf.start) = [0xaa] ∧
      s.buf.zeroAreaEnd - s.buf.zeroAreaStart = 2 ∧
      (s.buf.shown w.store).drop (s.buf.zeroAreaEnd - s.buf.start) = [0xbb]))
    Buffers.start sampleBytes (by decide +kernel)
  obtain ⟨w₂, h₂, htest₂⟩ := Machine.exists_run_of_exec (m := Packets.machine)
    (fun w c => decide (Packets.Fits w c))
    (fun w => decide (∃ t, w.slot 0 = some t ∧
      (t.packet.byteTagList.records w.store).filterMap
        (TagRecord.inFull t.packet.byteTagList.adjustment) = sampleContent.byteTags))
    (Packets.start fun _ _ => 0) [.construct 4, .addByteTag 0 ⟨1, [0xcc]⟩] (by decide +kernel)
  obtain ⟨w₃, h₃, htest₃⟩ := Machine.exists_run_of_exec (m := TagLists.machine)
    (fun w c => decide (TagLists.Fits w c))
    (fun w => decide (∃ l, w.slot 0 = some l ∧
      PacketTagList.tags ⟨l.next, w.heap⟩ = .ok sampleContent.packetTags))
    TagLists.start [.construct, .add 0 ⟨2, [1, 2, 3, 4, 5]⟩] (by decide +kernel)
  obtain ⟨s, hs, hrecommended, hfront, hzeroes, hback⟩ := of_decide_eq_true htest₁
  obtain ⟨t, ht, hbyteTags⟩ := of_decide_eq_true htest₂
  obtain ⟨l, hl, htags⟩ := of_decide_eq_true htest₃
  have hheld := held_of_runs (h₁.mono fun w c h => of_decide_eq_true h)
    (h₂.mono fun w c h => of_decide_eq_true h) (h₃.mono fun w c h => of_decide_eq_true h) hs ht hl
    htags Octets8.zero (none : Option Unit)
  rw [hfront, hzeroes, hback, hbyteTags] at hheld
  refine ⟨_, _, hheld, ⟨by decide, ?_, by decide⟩⟩
  show w₁.store.recommendedStart + 4 + 20 ≤ 2 ^ 32
  omega

theorem serializes_iff_sample : ∃ (p : FullPacket Unit Octets8) (m : PacketMemory),
    p.Held m sampleContent ∧ p.Serializes m emptyNix uidMetadata sampleTypes 92 ∧
      ¬ p.Serializes m emptyNix uidMetadata sampleTypes 80 := by
  obtain ⟨p, m, hheld, hsmall⟩ := exists_held
  refine ⟨p, m, hheld, ?_, ?_⟩
  · exact (serializes_iff hheld registered_sampleContent hsmall 92).mpr (Or.inl (by decide))
  · intro hserializes
    -- 76 octets are counted, and 92 written
    rcases (serializes_iff hheld registered_sampleContent hsmall 80).mp hserializes
      with htotal | ⟨hcounted, -⟩
    · exact absurd htotal (by decide)
    · exact absurd hcounted (by decide)

/-- Without the condition: 1 is returned although the limit is less than `GetSerializedSize`. -/
theorem not_serializes : ¬ ∀ (p : FullPacket Unit Octets8) (m : PacketMemory)
    (k : Content Unit Octets8), p.Held m k → k.Registered sampleTypes →
      k.Small m.buffers emptyNix uidMetadata → ∀ maxSize,
        p.Serializes m emptyNix uidMetadata sampleTypes maxSize := by
  intro hall
  obtain ⟨p, m, hheld, hsmall⟩ := exists_held
  have hserializes := hall p m _ hheld registered_sampleContent hsmall 80
  have hfits := (hheld.returns_iff registered_sampleContent hsmall.octets 80).mp hserializes.returns
  exact absurd hfits (by decide)

end FullPacket

end Ns3Dsme.Network
