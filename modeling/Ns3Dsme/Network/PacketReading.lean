/-
# Reading a packet back

The functions that deserialize take the sections apart again.  Each loop goes over the tags as they
were written, and what the holes hold does not matter.
-/
import Ns3Dsme.Network.PacketSections

open List Program Memory

namespace Ns3Dsme.Network

open PartReader

/-! ## Words and blocks -/

theorem takeWord_append (value : BitVec 32) (rest : List Octet) :
    takeWord (Octet.lowFirst32 value ++ rest) = .ok (value, rest) := by
  show Except.ok (Octet.word32 _ _ _ _, rest) = _
  rw [Octet.word32_octets32]

section Reading

variable {os : List Octet} {image : List (Option Octet)}

theorem fills_word {value : BitVec 32} (h : Fills os (wordImage value ++ image)) :
    ∃ os', os = Octet.lowFirst32 value ++ os' ∧ Fills os' image := by
  obtain ⟨xs, ys, rfl, hx, hy⟩ := h.of_append
  refine ⟨ys, ?_, hy⟩
  rw [hx.eq]

theorem fills_block {data : List Octet} (h : Fills os (blockImage data ++ image)) :
    ∃ pad os', os = data ++ (pad ++ os') ∧ data.length + pad.length = padded data.length ∧
      Fills os' image := by
  obtain ⟨xs, ys, rfl, hx, hy⟩ := h.of_append
  unfold blockImage at hx
  obtain ⟨zs, pad, rfl, hz, hpad⟩ := hx.of_append
  have hlength := hpad.length
  have hle := le_padded data.length
  rw [length_holes] at hlength
  refine ⟨pad, ys, ?_, by omega, hy⟩
  rw [hz.eq, append_assoc]

namespace PartReader

/-- **A word is read.** -/
theorem word_eq {value : BitVec 32} (tail : List Octet) (h : Fills os (wordImage value ++ image))
    (hsmall : os.length < 2 ^ 32) : ∃ os', word ⟨os ++ tail, os.length⟩
        = .ok (value, ⟨os' ++ tail, os'.length⟩) ∧ Fills os' image ∧
          os'.length + 4 = os.length := by
  obtain ⟨os', rfl, hfills⟩ := fills_word h
  have hlength : (Octet.lowFirst32 value ++ os').length = 4 + os'.length := length_append
  rw [hlength] at hsmall ⊢
  refine ⟨os', ?_, hfills, by omega⟩
  unfold word
  dsimp only
  rw [if_neg (by omega), append_assoc, takeWord_append, ok_bind,
    Word32.sub_eq (by omega) hsmall,
    Nat.add_sub_cancel_left]
  rfl

/-- **A block is read.** -/
theorem block_eq {data : List Octet} (tail : List Octet) (h : Fills os (blockImage data ++ image))
    (hsmall : os.length < 2 ^ 32) : ∃ os', block ⟨os ++ tail, os.length⟩ data.length
        = .ok (data, ⟨os' ++ tail, os'.length⟩) ∧ Fills os' image ∧
      os'.length + padded data.length = os.length := by
  obtain ⟨pad, os', rfl, hpad, hfills⟩ := fills_block h
  have hlength : (data ++ (pad ++ os')).length = padded data.length + os'.length := by
    rw [length_append, length_append]
    omega
  have hle := le_padded data.length
  rw [hlength] at hsmall ⊢
  have haligned := aligned_eq (n := data.length) (by omega)
  have hdrop : (data ++ (pad ++ os') ++ tail).drop (padded data.length) = os' ++ tail := by
    rw [← hpad, append_assoc, append_assoc, ← append_assoc data]
    exact drop_left' length_append
  refine ⟨os', ?_, hfills, by omega⟩
  unfold block
  dsimp only
  rw [if_neg (by omega), if_neg (by simp), haligned, hdrop, Word32.sub_eq (by omega) hsmall,
    Nat.add_sub_cancel_left, append_assoc, take_left' rfl]

end PartReader

end Reading

/-! ## Byte tags -/

/-- A record as it is read: the range is one of the packet. -/
structure TagRecord.InFull (r : TagRecord) : Prop where
  start : 0 ≤ r.start
  start_le : r.start ≤ r.stop
  start_lt : r.start < 2 ^ 31 - 1
  pos : 0 < r.stop
  stop : r.stop ≤ 2 ^ 31 - 1

theorem TagRecord.Good.inFull {r r' : TagRecord} {adj : ℤ} (hr : r.Good)
    (hranged : Signed32.InRange (r.start + adj) ∧ Signed32.InRange (r.stop + adj))
    (h : r.inFull adj = some r') : r'.InFull := by
  have hle := hr.start_le
  unfold TagRecord.inFull TagRecord.moved at h
  rcases TagRecord.shown_cases hranged with ⟨hshown, -⟩ | ⟨hshown, hlow, hhigh⟩
  · rw [hshown] at h
    cases h
  · rw [hshown] at h
    cases h
    obtain ⟨-, hstop⟩ := hranged.2
    constructor
    all_goals dsimp only
    all_goals omega

/-- A range of the packet is shown as it is. -/
theorem TagRecord.InFull.inFull_eq {r : TagRecord} (h : r.InFull) : r.inFull 0 = some r := by
  obtain ⟨hstart, hle, hlt, hpos, hstop⟩ := h
  have hshown : r.shown 0 (2 ^ 31 - 1) 0 = some (r.start, r.stop) := by
    unfold TagRecord.shown
    rw [add_zero, add_zero, if_neg (by omega), max_eq_left hstart, min_eq_left hstop]
  unfold TagRecord.inFull TagRecord.moved
  rw [hshown]
  show some (TagRecord.mk r.tid (r.start - 0) (r.stop - 0) r.content) = some r
  rw [sub_zero, sub_zero]

theorem filterMap_inFull {rs : List TagRecord} (h : ∀ r ∈ rs, r.InFull) :
    rs.filterMap (TagRecord.inFull 0) = rs := by
  induction rs with
  | nil => rfl
  | cons r rs ih =>
    rw [filterMap_cons_some (h r mem_cons_self).inFull_eq,
      ih fun r' hr' => h r' (mem_cons_of_mem r hr')]

theorem length_octetsOf_le (tids : TypeIds) (rs : List TagRecord) :
    (octetsOf rs).length ≤ (rs.flatMap (byteTagImage tids)).length := by
  induction rs with
  | nil => exact le_refl _
  | cons r rs ih =>
    have hle := le_padded r.content.length
    rw [octetsOf_cons, length_append, flatMap_cons, length_append,
      length_byteTagImage, r.length_octets]
    omega

namespace ByteTagStore.Sound

variable {s : ByteTagStore} {l : ByteTagList} {ts : List TagRecord} {owners : List TagOwner}

/-- **The loop of `ByteTagList::Deserialize`.**  The induction is on the tags that are left to
read. -/
theorem deserializeTags {tids : TypeIds} (tail : List Octet) (rs : List TagRecord)
    (hhas : ∀ r ∈ rs, tids.Has r.tid) (hfull : ∀ r ∈ rs, r.InFull) (h : s.Sound ((l, ts) :: owners))
    (hadj : l.adjustment = 0) {os : List Octet} (hfills : Fills os (rs.flatMap (byteTagImage tids)))
    (hsmall : os.length < 2 ^ 32) (hroom : l.used + (octetsOf rs).length < 2 ^ 32) :
    ∃ l' s', ByteTagList.deserializeTags tids rs.length l s ⟨os ++ tail, os.length⟩
        = .ok (l', s', ⟨tail, 0⟩) ∧ l'.adjustment = 0 ∧ s'.Sound ((l', ts ++ rs) :: owners) := by
  induction rs generalizing s l ts os with
  | nil =>
    have hnil : os = [] := length_eq_zero_iff.mp hfills.length
    rw [hnil, append_nil]
    exact ⟨l, s, rfl, hadj, h⟩
  | cons r rs ih =>
    obtain ⟨hstart, hle, hlt, hpos, hstop⟩ := hfull r mem_cons_self
    rw [octetsOf_cons, length_append, r.length_octets] at hroom
    rw [flatMap_cons] at hfills
    unfold byteTagImage at hfills
    simp only [append_assoc] at hfills
    -- the header and the content are read
    obtain ⟨os₁, hword₁, hfills₁, hlen₁⟩ := word_eq tail hfills hsmall
    obtain ⟨os₂, hword₂, hfills₂, hlen₂⟩ := word_eq tail hfills₁ (by omega)
    obtain ⟨os₃, hword₃, hfills₃, hlen₃⟩ := word_eq tail hfills₂ (by omega)
    obtain ⟨os₄, hword₄, hfills₄, hlen₄⟩ := word_eq tail hfills₃ (by omega)
    obtain ⟨os₅, hblock, hfills₅, hlen₅⟩ := block_eq tail hfills₄ (by omega)
    have hsize : (BitVec.ofNat 32 r.content.length).toNat = r.content.length := by
      rw [BitVec.toNat_ofNat, Nat.mod_eq_of_lt (by omega)]
    have hstartWord : (BitVec.ofInt 32 r.start).toInt = r.start := by
      rw [BitVec.toInt_ofInt]
      exact Signed32.wrap_eq ⟨by omega, by omega⟩
    have hstopWord : (BitVec.ofInt 32 r.stop).toInt = r.stop := by
      rw [BitVec.toInt_ofInt]
      exact Signed32.wrap_eq ⟨by omega, by omega⟩
    -- the tag is added
    obtain ⟨buf, l₁, s₁, hadd, hadj₁, -, hwrite⟩ := h.add r.tid r.content.length hle
      (by rw [hadj, sub_zero]; exact ⟨by omega, by omega⟩)
      (by rw [hadj, sub_zero]; exact ⟨by omega, by omega⟩) (by omega)
    obtain ⟨buf', s₂, hcontent, hsound⟩ := hwrite r.content rfl
    rw [hadj, sub_zero, sub_zero] at hsound
    have hused : l₁.used = l.used + (16 + r.content.length) := by
      rw [(hsound.holds _ mem_cons_self).used, octetsOf_append, length_append,
        ← (h.holds _ mem_cons_self).used, octetsOf_cons, octetsOf_nil, append_nil,
        TagRecord.length_octets]
    obtain ⟨l', s', hrest, hadj', hsound'⟩ := ih
      (fun r' hr' => hhas r' (mem_cons_of_mem r hr'))
      (fun r' hr' => hfull r' (mem_cons_of_mem r hr')) hsound (hadj₁.trans hadj) hfills₅
      (by omega) (by omega)
    refine ⟨l', s', ?_, hadj', ?_⟩
    · rw [length_cons]
      unfold ByteTagList.deserializeTags
      rw [hword₁, ok_bind]
      dsimp only
      rw [tids.lookupByHash_hashOf (hhas r mem_cons_self), ok_bind, hword₂, ok_bind]
      dsimp only
      rw [hword₃, ok_bind]
      dsimp only
      rw [hword₄, ok_bind]
      dsimp only
      rw [hsize, hblock, ok_bind]
      dsimp only
      rw [hstartWord, hstopWord, hadd, ok_bind]
      dsimp only
      rw [hcontent, ok_bind]
      exact hrest
    · rw [append_assoc] at hsound'
      exact hsound'

/-- **`ByteTagList::Deserialize`** makes a new list with the tags that were written. -/
theorem deserialize {tids : TypeIds} (h : s.Sound owners) {rs : List TagRecord}
    (hhas : ∀ r ∈ rs, tids.Has r.tid) (hfull : ∀ r ∈ rs, r.InFull) {os : List Octet}
    (hfills : Fills os (byteTagsImage tids rs)) (hsmall : os.length + 4 < 2 ^ 32)
    (tail : List Octet) :
    ∃ l' s', ByteTagList.empty.deserialize s tids (os ++ tail) (os.length + 4) = .ok (l', s') ∧
      l'.adjustment = 0 ∧ s'.Sound ((l', rs) :: owners) := by
  have hlength := hfills.length
  rw [length_byteTagsImage] at hlength
  have hoctets := length_octetsOf_le tids rs
  have hcount := length_le_octetsOf rs
  unfold byteTagsImage at hfills
  obtain ⟨os₁, hword, hfills₁, hlen⟩ := word_eq tail hfills (by omega)
  have hnumber : (BitVec.ofNat 32 rs.length).toNat = rs.length := by
    rw [BitVec.toNat_ofNat, Nat.mod_eq_of_lt (by omega)]
  have hempty : ByteTagList.empty.used = 0 := rfl
  obtain ⟨l', s', hloop, hadj, hsound⟩ :=
    deserializeTags tail rs hhas hfull h.cons_empty rfl hfills₁
    (by omega) (by rw [hempty]; omega)
  refine ⟨l', s', ?_, hadj, hsound⟩
  unfold ByteTagList.deserialize
  dsimp only
  rw [Word32.sub_eq (by omega) hsmall, Nat.add_sub_cancel, hword, ok_bind]
  dsimp only
  rw [hnumber, hloop, ok_bind]
  rfl

end ByteTagStore.Sound

/-! ## Packet tags -/

section PacketTags

variable {l : PacketTagList} {roots : List (Option ℕ × List PacketTag)} {pre : List PacketTag}
  {link : TagLink}

/-- **A new tag is linked behind the others**, which are all the list's own. -/
theorem Walk.append (hw : Walk l roots pre link none none []) {a : PacketTag}
    (ha : a.data.length < 2 ^ 32 - 1) :
    ∃ q h₁ l', l.heap.createTagData none a = .ok (q, h₁) ∧
      PacketTagList.setLink ⟨l.next, h₁⟩ link (some q) = .ok l' ∧
      Walk l' roots (pre ++ [a]) (.next q) none none [] := by
  have hfree := hw.done.cells_top
  obtain ⟨k, ps, hheld, hs, hlink, hpre⟩ := hw
  have hktop : k.top = l.heap.top := hheld.top_eq.symm
  -- the cell is new in both heaps
  have hpush := hs.grow.push (q := l.heap.top) (by
    show k.cells l.heap.top = none
    rw [← hktop]
    exact hs.cells_top) (by
    show l.heap.top < k.top + 1
    omega) a
  have hnot := hheld.not_mem_of_none hfree
  have hgrown := (hheld.grow.set hnot (some ⟨none, 1, a⟩))
  have hwalk : Walk ⟨l.next, ({ l.heap with top := l.heap.top + 1 } : TagHeap).set l.heap.top
      (some ⟨none, 1, a⟩)⟩ roots pre link none (some l.heap.top) [a] :=
    ⟨_, ps, hgrown, hpush, hlink, hpre⟩
  obtain ⟨l', hset, hlinked, hcells⟩ := hwalk.setLink (some l.heap.top)
  have hcell : l'.heap.cells l.heap.top = some ⟨none, 1, a⟩ := by
    rw [hcells _ (hlink ▸ linkOf_ne hnot)]
    exact SharedChain.Heap.cells_set_self _ _ _
  refine ⟨l.heap.top, _, l', ?_, hset, ?_⟩
  · unfold TagHeap.createTagData
    rw [if_pos ha]
  · exact hlinked.pass hcell (lt_irrefl 1)

/-- **The loop of `PacketTagList::Deserialize`.** -/
theorem Walk.deserializeTags {tids : TypeIds} (tail : List Octet) (ts : List PacketTag)
    (hhas : ∀ t ∈ ts, tids.Has t.tid) (hw : Walk l roots pre link none none []) {os : List Octet}
    (hfills : Fills os (ts.flatMap (packetTagImage tids))) (hsmall : os.length < 2 ^ 32) :
    ∃ l', PacketTagList.deserializeTags tids ts.length l link ⟨os ++ tail, os.length⟩
        = .ok (l', ⟨tail, 0⟩) ∧ SharedChain.Sound l'.heap ((l'.next, pre ++ ts) :: roots) := by
  induction ts generalizing l pre link os with
  | nil =>
    have hnil : os = [] := length_eq_zero_iff.mp hfills.length
    rw [hnil]
    exact ⟨l, rfl, hw.done⟩
  | cons t ts ih =>
    rw [flatMap_cons] at hfills
    unfold packetTagImage at hfills
    simp only [append_assoc] at hfills
    obtain ⟨os₁, hword₁, hfills₁, hlen₁⟩ := word_eq tail hfills hsmall
    obtain ⟨os₂, hword₂, hfills₂, hlen₂⟩ := word_eq tail hfills₁ (by omega)
    obtain ⟨os₃, hblock, hfills₃, hlen₃⟩ := block_eq tail hfills₂ (by omega)
    have hle := le_padded t.data.length
    have hsize : (BitVec.ofNat 32 t.data.length).toNat = t.data.length := by
      rw [BitVec.toNat_ofNat, Nat.mod_eq_of_lt (by omega)]
    obtain ⟨q, h₁, l₁, hcreate, hset, hw₁⟩ := hw.append (a := t) (by omega)
    obtain ⟨l', hrest, hsound⟩ :=
      ih (fun t' ht' => hhas t' (mem_cons_of_mem t ht')) hw₁ hfills₃
      (by omega)
    refine ⟨l', ?_, ?_⟩
    · rw [length_cons]
      unfold PacketTagList.deserializeTags
      rw [hword₁, ok_bind]
      dsimp only
      rw [hword₂, ok_bind]
      dsimp only
      rw [tids.lookupByHash_hashOf (hhas t mem_cons_self), ok_bind, hsize, hblock, ok_bind]
      dsimp only
      rw [hcreate, ok_bind]
      dsimp only
      rw [hset, ok_bind]
      exact hrest
    · rw [append_assoc] at hsound
      exact hsound

/-- **`PacketTagList::Deserialize`** makes a new list with the tags that were written. -/
theorem PacketTagList.deserialize_eq {tids : TypeIds} {h : TagHeap} (hs : SharedChain.Sound h roots)
    {ts : List PacketTag} (hhas : ∀ t ∈ ts, tids.Has t.tid) {os : List Octet}
    (hfills : Fills os (packetTagsImage tids ts)) (hsmall : os.length + 4 < 2 ^ 32)
    (tail : List Octet) :
    ∃ l', PacketTagList.deserialize ⟨none, h⟩ tids (os ++ tail) (os.length + 4) = .ok l' ∧
      SharedChain.Sound l'.heap ((l'.next, ts) :: roots) := by
  have hlength := hfills.length
  rw [length_packetTagsImage] at hlength
  have hcount : ts.length ≤ (ts.flatMap (packetTagImage tids)).length := by
    clear hfills hlength hhas
    induction ts with
    | nil => exact le_refl _
    | cons t ts ih =>
      rw [length_cons, flatMap_cons, length_append, length_packetTagImage]
      omega
  unfold packetTagsImage at hfills
  obtain ⟨os₁, hword, hfills₁, hlen⟩ := word_eq tail hfills (by omega)
  have hnumber : (BitVec.ofNat 32 ts.length).toNat = ts.length := by
    rw [BitVec.toNat_ofNat, Nat.mod_eq_of_lt (by omega)]
  have hbegin : Walk ⟨none, h⟩ roots [] .head none none [] := Walk.begin hs.cons_nil
  obtain ⟨l', hloop, hsound⟩ := hbegin.deserializeTags tail ts hhas hfills₁ (by omega)
  refine ⟨l', ?_, hsound⟩
  unfold PacketTagList.deserialize
  dsimp only
  rw [Word32.sub_eq (by omega) hsmall, Nat.add_sub_cancel, hword, ok_bind]
  dsimp only
  rw [hnumber, hloop, ok_bind]
  rfl

end PacketTags

/-! ## Buffers -/

/-- How a buffer is divided by its zero area. -/
structure Buffer.Divided (b : Buffer) (front zeroes back : ℕ) : Prop where
  front : b.zeroAreaStart - b.start = front
  zeroes : b.zeroAreaEnd - b.zeroAreaStart = zeroes
  back : b.endPos - b.zeroAreaEnd = back

namespace Buffers

variable {w : Buffers}

/-- A new buffer with a zero area, to which bytes are added in front and behind. -/
theorem Inv.rebuild (h : w.Inv) (front back : List Octet) (zeroes : ℕ)
    (hroom : w.store.recommendedStart + (front.length + zeroes + back.length) + 20 ≤ 2 ^ 32)
    (garbage : ℕ → ℕ → Octet) {b₀ : Buffer × Store}
    (hb₀ : b₀ = Buffer.initBuffer w.store zeroes (garbage 0)) :
    ∃ r store₁ r' store₂ tmp k, b₀.1.addAtStart b₀.2 front.length (garbage 1) = .ok r ∧
      (r.1.iteratorAt 0).write r.2 (.write front) = .ok store₁ ∧
      r.1.addAtEnd store₁ back.length (garbage 2) = .ok r' ∧
      r'.1.fromEnd back.length = .ok (r'.1.iteratorAt k) ∧
      (r'.1.iteratorAt k).write r'.2 (.write back) = .ok store₂ ∧
      (w.addSlot tmp store₂).Inv ∧ tmp.buf = r'.1 ∧
      tmp.ref = (front ++ List.replicate zeroes 0 ++ back).map some ∧
      r'.1.Divided front.length zeroes back.length := by
  have h₀ := h.construct zeroes (garbage 0) (by omega)
  rw [← hb₀] at h₀
  have hsane₀ := h₀.sane _ _ (slot_addSlot_last _ _)
  have hsize₀ : b₀.1.size = zeroes := by
    rw [← hsane₀.shows.1]
    exact length_replicate
  have hplain₀ : b₀.1.zeroAreaStart = b₀.1.start ∧ b₀.1.zeroAreaEnd = b₀.1.endPos := by
    rw [hb₀]
    exact ⟨rfl, rfl⟩
  have hordered₀ : b₀.1.Ordered := hsane₀.ordered
  have hstart₀ : b₀.1.start ≤ w.store.recommendedStart := by
    obtain ⟨-, -, -, hrecommended, -⟩ := h.owned.create 0 (garbage 0) (by decide)
    rw [hb₀, ← hrecommended]
    exact Nat.min_le_right _ _
  have hend₀ : b₀.1.endPos = b₀.1.start + zeroes := by
    have ⟨hone, htwo, hthree, _⟩ := hordered₀
    unfold Buffer.size at hsize₀
    omega
  -- the bytes in front of it
  obtain ⟨r₁, hadd₁, h₁⟩ := h₀.addAtStart (slot_addSlot_last _ _) front.length (garbage 1)
    (by show b₀.1.size + _ + 20 ≤ _; omega)
  obtain ⟨-, hzs₁, hze₁, hend₁, hle₁⟩ := hordered₀.addAtStart_spec h₀.owned
    (by show b₀.1.size + _ + 20 ≤ _; omega) hadd₁
  rw [setSlot_addSlot_last] at h₁
  obtain ⟨tmp₁, htmp₁⟩ : ∃ tmp₁, tmp₁ =
    Slot.addedAtStart ⟨b₀.1, List.replicate zeroes (some 0), 0, 0⟩
    r₁.1 front.length := ⟨_, rfl⟩
  rw [← htmp₁] at h₁
  obtain ⟨store₂, hwrite₂, h₂⟩ := h₁.write (slot_addSlot_last _ _) 0 (.write front) (Or.inl (by
    rw [htmp₁]
    show 0 + front.length ≤ 0 + front.length
    omega))
  rw [setSlot_addSlot_last] at h₂
  have href₂ : (tmp₁.written 0 ((BufferIterator.WriteCall.write front).bytes.map some)).ref
      = front.map some ++ List.replicate zeroes (some 0) := by
    rw [htmp₁]
    exact Slot.ref_written_front _ _ (length_map _)
  obtain ⟨tmp₂, htmp₂⟩ : ∃ tmp₂, tmp₂
      = tmp₁.written 0 ((BufferIterator.WriteCall.write front).bytes.map some) := ⟨_, rfl⟩
  rw [← htmp₂] at h₂ href₂
  have hbuf₂ : tmp₂.buf = r₁.1 := by
    rw [htmp₂, htmp₁]
    rfl
  have hfresh₂ : tmp₂.freshEnd = 0 := by
    rw [htmp₂, htmp₁]
    rfl
  have hsane₂ := h₂.sane _ _ (slot_addSlot_last _ _)
  have hlength₂ : tmp₂.ref.length = front.length + zeroes := by
    rw [href₂, length_append, length_map, length_replicate]
  have hend₂ : tmp₂.buf.endPos ≤ w.store.recommendedStart + (front.length + zeroes) := by
    rw [hbuf₂]
    omega
  -- the bytes behind it
  obtain ⟨r₃, hadd₃, h₃⟩ := h₂.addAtEnd (slot_addSlot_last _ _) back.length (garbage 2) (by omega)
  obtain ⟨-, hzs₃, hze₃, hend₃, -⟩ := hsane₂.ordered.addAtEnd_spec h₂.owned (by omega) hadd₃
  rw [setSlot_addSlot_last] at h₃
  have hsane₃ := h₃.sane _ _ (slot_addSlot_last _ _)
  have hordered₃ : r₃.1.Ordered := hsane₃.ordered
  have hsize₃ : r₃.1.size = front.length + zeroes + back.length := by
    have hlen := hsane₃.shows.1
    change (tmp₂.ref ++ List.replicate back.length none).length = r₃.1.size at hlen
    rw [length_append, length_replicate, hlength₂] at hlen
    omega
  have hprev : r₃.1.fromEnd back.length = .ok (r₃.1.iteratorAt tmp₂.ref.length) := by
    rw [hordered₃.fromEnd_eq (by omega), hsize₃, Nat.add_sub_cancel, hlength₂]
  obtain ⟨store₄, hwrite₄, h₄⟩ := h₃.write (slot_addSlot_last _ _) tmp₂.ref.length (.write back)
    (Or.inr (by
      show (tmp₂.ref ++ List.replicate back.length none).length - (tmp₂.freshEnd + back.length)
          ≤ tmp₂.ref.length
        ∧ tmp₂.ref.length + back.length ≤ (tmp₂.ref ++ List.replicate back.length none).length
      rw [length_append, length_replicate]
      omega))
  rw [setSlot_addSlot_last] at h₄
  have hdivided : r₃.1.Divided front.length zeroes back.length := by
    obtain ⟨hzs₀, hze₀⟩ := hplain₀
    rw [hbuf₂] at hzs₃ hze₃ hend₃
    constructor
    · omega
    · omega
    · omega
  refine ⟨r₁, store₂, r₃, store₄, _, tmp₂.ref.length, hadd₁, ?_, ?_, hprev, hwrite₄, h₄, rfl, ?_,
    hdivided⟩
  · rw [← hwrite₂, htmp₁]
    rfl
  · rw [← hadd₃, hbuf₂]
    rfl
  · refine (Slot.ref_written_back _ _ (length_map _)).trans ?_
    rw [href₂, map_append, map_append, map_replicate]

/-- **`Buffer::Deserialize`** makes a new buffer that shows the bytes that were written, divided in
the same way. -/
theorem Inv.deserialize (h : w.Inv) {front back : List Octet} {zeroes : ℕ} {os : List Octet}
    (hfills : Fills os (bufferImage front zeroes back)) (hsmall : os.length + 4 < 2 ^ 32)
    (hroom : w.store.recommendedStart + (front.length + zeroes + back.length) + 20 ≤ 2 ^ 32)
    (garbage : ℕ → ℕ → Octet) (tail : List Octet) :
    ∃ r tmp, Buffer.deserialize w.store (os ++ tail) (os.length + 4) garbage = .ok r ∧
      (w.addSlot tmp r.2).Inv ∧ tmp.buf = r.1 ∧
      tmp.ref = (front ++ List.replicate zeroes 0 ++ back).map some ∧
      r.1.Divided front.length zeroes back.length := by
  unfold bufferImage at hfills
  obtain ⟨os₁, hword₁, hfills₁, hlen₁⟩ := word_eq tail hfills (by omega)
  obtain ⟨os₂, hword₂, hfills₂, hlen₂⟩ := word_eq tail hfills₁ (by omega)
  obtain ⟨os₃, hblock₁, hfills₃, hlen₃⟩ := block_eq tail hfills₂ (by omega)
  obtain ⟨os₄, hword₃, hfills₄, hlen₄⟩ := word_eq tail hfills₃ (by omega)
  rw [← append_nil (blockImage back)] at hfills₄
  obtain ⟨os₅, hblock₂, hfills₅, hlen₅⟩ := block_eq tail hfills₄ (by omega)
  have hnil : os₅.length = 0 := hfills₅.length
  have hfrontLe := le_padded front.length
  have hbackLe := le_padded back.length
  have hzeroes : (BitVec.ofNat 32 zeroes).toNat = zeroes := by
    rw [BitVec.toNat_ofNat, Nat.mod_eq_of_lt (by omega)]
  have hfront : (BitVec.ofNat 32 front.length).toNat = front.length := by
    rw [BitVec.toNat_ofNat, Nat.mod_eq_of_lt (by omega)]
  have hback : (BitVec.ofNat 32 back.length).toNat = back.length := by
    rw [BitVec.toNat_ofNat, Nat.mod_eq_of_lt (by omega)]
  obtain ⟨b₀, hb₀⟩ : ∃ b₀, b₀ = Buffer.initBuffer w.store zeroes (garbage 0) := ⟨_, rfl⟩
  obtain ⟨r, store₁, r', store₂, tmp, k, hadd, hwrite, hadd', hprev, hwrite', hinv, hbuf, href,
    hdivided⟩ := h.rebuild front back zeroes hroom garbage hb₀
  refine ⟨(r'.1, store₂), tmp, ?_, hinv, hbuf, href, hdivided⟩
  unfold Buffer.deserialize
  dsimp only
  rw [Word32.sub_eq (by omega) hsmall, Nat.add_sub_cancel, hword₁, ok_bind]
  dsimp only
  rw [hzeroes, ← hb₀, hword₂, ok_bind]
  dsimp only
  rw [hfront, hadd, ok_bind, hblock₁, ok_bind]
  dsimp only
  rw [hwrite, ok_bind, hword₃, ok_bind]
  dsimp only
  rw [hback, hadd', ok_bind, hblock₂, ok_bind]
  dsimp only
  rw [hprev, ok_bind, hwrite', ok_bind, hnil]
  rfl

end Buffers

end Ns3Dsme.Network
