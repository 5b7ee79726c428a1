/-
# What a packet is serialized to

The octets of a packet as an image with holes, and that the functions that serialize write it.  The
holes are the octets that fill a section or the content of a tag up to whole words: they are counted
but not written.
-/
import Ns3Dsme.Network.PacketSerialize
import Ns3Dsme.Network.PacketTags
import Ns3Dsme.Network.TagIsolation

open List Program Memory Layout

namespace Ns3Dsme.Network

open TagRecord Writer

/-! ## Images -/

/-- The next multiple of four. -/
def padded (n : ℕ) : ℕ := (n + 3) / 4 * 4

def wordImage (value : BitVec 32) : List (Option Octet) := (Octet.lowFirst32 value).map some

def holes (n : ℕ) : List (Option Octet) := List.replicate n none

/-- Octets that are filled up to words. -/
def blockImage (data : List Octet) : List (Option Octet) :=
  data.map some ++ holes (padded data.length - data.length)

/-- A section behind its length, filled up to words. -/
def framed (image : List (Option Octet)) : List (Option Octet) :=
  wordImage (BitVec.ofNat 32 (image.length + 4)) ++
    (image ++ holes (padded image.length - image.length))

/-- The hash of a type that is registered. -/
def TypeIds.hashOf (t : TypeIds) (tid : BitVec 16) : BitVec 32 := t.hashes.getD (tid.toNat - 1) 0

def byteTagImage (tids : TypeIds) (r : TagRecord) : List (Option Octet) :=
  wordImage (tids.hashOf r.tid) ++ (wordImage (BitVec.ofNat 32 r.content.length) ++
    (wordImage (BitVec.ofInt 32 r.start) ++ (wordImage (BitVec.ofInt 32 r.stop) ++
      blockImage r.content)))

def byteTagsImage (tids : TypeIds) (rs : List TagRecord) : List (Option Octet) :=
  wordImage (BitVec.ofNat 32 rs.length) ++ rs.flatMap (byteTagImage tids)

def packetTagImage (tids : TypeIds) (t : PacketTag) : List (Option Octet) :=
  wordImage (BitVec.ofNat 32 t.data.length) ++ (wordImage (tids.hashOf t.tid) ++ blockImage t.data)

def packetTagsImage (tids : TypeIds) (ts : List PacketTag) : List (Option Octet) :=
  wordImage (BitVec.ofNat 32 ts.length) ++ ts.flatMap (packetTagImage tids)

def bufferImage (front : List Octet) (zeroes : ℕ) (back : List Octet) : List (Option Octet) :=
  wordImage (BitVec.ofNat 32 zeroes) ++ (wordImage (BitVec.ofNat 32 front.length) ++
    (blockImage front ++ (wordImage (BitVec.ofNat 32 back.length) ++ blockImage back)))

theorem le_padded (n : ℕ) : n ≤ padded n := by
  unfold padded
  omega

theorem aligned_eq {n : ℕ} (h : padded n < 2 ^ 32) : aligned n = padded n := by
  unfold padded at h
  unfold aligned padded
  rw [Word32.add_eq (by omega)]

@[simp] theorem length_wordImage (value : BitVec 32) : (wordImage value).length = 4 := rfl

@[simp] theorem length_holes (n : ℕ) : (holes n).length = n := length_replicate

@[simp] theorem length_blockImage (data : List Octet) :
    (blockImage data).length = padded data.length := by
  have hle := le_padded data.length
  unfold blockImage
  rw [length_append, length_map, length_holes]
  omega

theorem length_framed (image : List (Option Octet)) :
    (framed image).length = 4 + padded image.length := by
  have hle := le_padded image.length
  unfold framed
  rw [length_append, length_append, length_holes, length_wordImage]
  omega

@[simp] theorem length_byteTagImage (tids : TypeIds) (r : TagRecord) :
    (byteTagImage tids r).length = 16 + padded r.content.length := by
  unfold byteTagImage
  rw [length_append, length_append, length_append, length_append,
    length_blockImage, length_wordImage, length_wordImage, length_wordImage, length_wordImage]
  omega

@[simp] theorem length_packetTagImage (tids : TypeIds) (t : PacketTag) :
    (packetTagImage tids t).length = 8 + padded t.data.length := by
  unfold packetTagImage
  rw [length_append, length_append, length_blockImage, length_wordImage, length_wordImage]
  omega

theorem length_bufferImage (front : List Octet) (zeroes : ℕ) (back : List Octet) :
    (bufferImage front zeroes back).length = 12 + padded front.length + padded back.length := by
  unfold bufferImage
  rw [length_append, length_append, length_append, length_append,
    length_blockImage, length_blockImage, length_wordImage, length_wordImage, length_wordImage]
  omega

/-! ## What is filled in -/

namespace Writer

/-- A writer that started at `p₀`, after the image. -/
def written (m : ℕ → Octet) (p₀ : ℕ) (image : List (Option Octet)) : Writer :=
  ⟨overlay m p₀ image, p₀ + image.length, image.length⟩

variable {m : ℕ → Octet} {p₀ maxSize : ℕ} {image : List (Option Octet)}

theorem written_nil (m : ℕ → Octet) (p₀ : ℕ) : written m p₀ [] = ⟨m, p₀, 0⟩ := by
  unfold written
  rw [overlay_nil]
  rfl

theorem need_written {n : ℕ} (h : image.length + n ≤ maxSize) (hmax : maxSize < 2 ^ 32) :
    (written m p₀ image).need maxSize n = .ok () := by
  unfold need written
  dsimp only
  rw [Word32.add_eq (by omega), if_pos h]

theorem put_written (value : BitVec 32) (h : image.length + 4 < 2 ^ 32) :
    (written m p₀ image).put value = written m p₀ (image ++ wordImage value) := by
  unfold put written
  dsimp only
  rw [write_eq_overlay, overlay_append, Word32.add_eq h, length_append]
  rfl

theorem block_written (data : List Octet) (h : image.length + padded data.length < 2 ^ 32) :
    (written m p₀ image).block data.length data = written m p₀ (image ++ blockImage data) := by
  have haligned := aligned_eq (n := data.length) (by omega)
  unfold block written blockImage
  dsimp only
  rw [write_eq_overlay, overlay_append, haligned, Word32.add_eq h, ← append_assoc,
    ← overlay_append m p₀ (image ++ data.map some), holes, overlay_holes, length_append,
    length_append, length_map, length_replicate]
  have hle := le_padded data.length
  congr 1
  · omega
  · omega

/-- The number of tags is one more than before. -/
theorem count_written (n : ℕ) (rest : List (Option Octet)) :
    (written m p₀ (wordImage (BitVec.ofNat 32 n) ++ rest)).count p₀
      = written m p₀ (wordImage (BitVec.ofNat 32 (n + 1)) ++ rest) := by
  have hread : ∀ i < 4, ∀ v, (Octet.lowFirst32 (BitVec.ofNat 32 n))[i]? = some v →
      overlay m p₀ (wordImage (BitVec.ofNat 32 n) ++ rest) (p₀ + i) = v := by
    intro i hi v hv
    have hget : (wordImage (BitVec.ofNat 32 n) ++ rest)[i]? = some (some v) := by
      rw [List.getElem?_append_left (by rw [length_wordImage]; exact hi)]
      unfold wordImage
      rw [List.getElem?_map, hv]
      rfl
    unfold overlay
    rw [if_neg (Nat.not_lt.mpr (Nat.le_add_right _ _)), Nat.add_sub_cancel_left, hget]
    rfl
  have hzero := hread 0 (by decide) _ rfl
  have hone := hread 1 (by decide) _ rfl
  have htwo := hread 2 (by decide) _ rfl
  have hthree := hread 3 (by decide) _ rfl
  rw [Nat.add_zero] at hzero
  have hword : BitVec.ofNat 32 n + 1 = BitVec.ofNat 32 (n + 1) := (BitVec.ofNat_add n 1).symm
  unfold count written
  dsimp only
  rw [hzero, hone, htwo, hthree, Octet.word32_octets32, hword]
  congr 1
  exact write_overlay m p₀ rest rfl

end Writer

/-! ## Types -/

/-- The type is registered. -/
def TypeIds.Has (t : TypeIds) (tid : BitVec 16) : Prop :=
  0 < tid.toNat ∧ tid.toNat ≤ t.hashes.length

theorem TypeIds.getHash_eq {t : TypeIds} {tid : BitVec 16} (h : t.Has tid) :
    t.getHash tid = .ok (t.hashOf tid) := by
  obtain ⟨hpos, hle⟩ := h
  have hne : ¬ tid = 0 := by
    intro hzero
    rw [hzero] at hpos
    exact absurd hpos (by decide)
  have hget : t.hashes[tid.toNat - 1]? = some (t.hashOf tid) := by
    unfold hashOf
    rw [getD_eq_getElem?_getD, List.getElem?_eq_getElem (by omega)]
    rfl
  unfold getHash
  rw [if_neg hne, hget]

/-- **A type is found again by its hash**, as no two types have the same. -/
theorem TypeIds.lookupByHash_hashOf {t : TypeIds} {tid : BitVec 16} (h : t.Has tid) :
    t.lookupByHash (t.hashOf tid) = .ok tid := by
  obtain ⟨hpos, hle⟩ := h
  have hlt : tid.toNat - 1 < t.hashes.length := by omega
  have hhash : t.hashOf tid = t.hashes[tid.toNat - 1] := by
    unfold hashOf
    rw [getD_eq_getElem?_getD, List.getElem?_eq_getElem hlt]
    rfl
  have hplace : t.hashes.idxOf (t.hashOf tid) = tid.toNat - 1 := by
    rw [hhash]
    exact t.nodup.idxOf_getElem _ hlt
  have htid : BitVec.ofNat 16 (tid.toNat - 1 + 1) = tid := by
    rw [Nat.sub_add_cancel hpos]
    exact (BitVec.ofNat_toNat 16 tid).trans (BitVec.setWidth_eq tid)
  unfold lookupByHash
  rw [hplace, if_pos hlt, htid]

theorem Stop.of_ok {α σ : Type} (a : α) : (Stop.of (.ok a) : Except (Stop σ) α) = .ok a := rfl

/-! ## Byte tags -/

/-- A tag as the loop meets it. -/
def TagItem.record (s : ByteTagStore) (item : TagItem) : TagRecord :=
  ⟨item.tid, item.start, item.stop, item.buf.octets s⟩

/-- A record as the loops over all tags show it. -/
def TagRecord.inFull (adjustment : ℤ) (r : TagRecord) : Option TagRecord :=
  r.moved 0 (2 ^ 31 - 1) adjustment 0 some

theorem TagIterator.items_eq {s : ByteTagStore} {a : ℕ} {rs : List TagRecord} {adj : ℤ}
    (hstored : Memory.span (s.areas a).data 0 (octetsOf rs).length = octetsOf rs)
    (hgood : ∀ r ∈ rs, r.Good) (hranged : Ranged adj rs) (fuel : ℕ) {it : TagIterator}
    {pre rem : List TagRecord} (hready : it.Ready a rs 0 (2 ^ 31 - 1) adj pre rem)
    (hfuel : rem.length ≤ fuel) :
    ∃ items, it.items s fuel = .ok items ∧
      items.map (TagItem.record s) = rem.filterMap (inFull adj) ∧
      ∀ item ∈ items, item.size = (item.record s).content.length := by
  induction fuel generalizing it pre rem with
  | zero =>
    have hnil : rem = [] := length_eq_zero_iff.mp (Nat.le_zero.mp hfuel)
    rw [hnil]
    exact ⟨[], rfl, rfl, fun item hitem => absurd hitem not_mem_nil⟩
  | succ fuel ih =>
    unfold TagIterator.items
    cases rem with
    | nil =>
      have hnext : ¬ it.hasNext = true := by
        rw [hready.toAt.hasNext_eq]
        exact Bool.false_ne_true
      exact ⟨[], if_neg hnext, rfl, fun item hitem => absurd hitem not_mem_nil⟩
    | cons r rest =>
      have hnext : it.hasNext = true := by
        rw [hready.toAt.hasNext_eq]
        rfl
      obtain ⟨item, it', pre', rem', hitem, hready', hsuffix, hfilter, hshown, htid, hsize,
        hcontent, -, -⟩ := hready.next_eq hstored hgood hranged
      have hrest := hfilter TagRecord (inFull adj) fun r hr => by
        unfold inFull moved
        rw [hr]
        rfl
      obtain ⟨items, hitems, hrecords, hsizes⟩ :=
        ih hready' (hsuffix.length_le.trans (Nat.le_of_succ_le_succ hfuel))
      -- the record of this tag
      have hrecord : r.inFull adj = some (item.record s) := by
        unfold inFull moved TagItem.record
        rw [hshown, htid, hcontent, Option.bind_some, Option.map_some, sub_zero, sub_zero]
      refine ⟨item :: items, ?_, ?_, ?_⟩
      · rw [if_pos hnext, hitem, ok_bind]
        dsimp only
        rw [hitems, ok_bind]
        rfl
      · rw [map_cons, filterMap_cons_some hrecord, hrecords, hrest]
      · intro item' hmem
        rcases mem_cons.mp hmem with rfl | hmem
        · rw [hsize, ← hcontent]
          rfl
        · exact hsizes item' hmem

/-- **The tags of the loops over all tags.** -/
theorem ByteTagList.Holds.items_eq {l : ByteTagList} {s : ByteTagStore} {rs : List TagRecord}
    (hl : l.Holds s rs) (hranged : Ranged l.adjustment rs) :
    ∃ items, l.items s = .ok items ∧
      items.map (TagItem.record s) = rs.filterMap (inFull l.adjustment) ∧
      ∀ item ∈ items, item.size = (item.record s).content.length := by
  obtain ⟨it, hbegin, hcases⟩ := hl.begin_eq hranged 0 (2 ^ 31 - 1)
  unfold ByteTagList.items ByteTagList.beginAll
  rw [hbegin, ok_bind]
  rcases hcases with ⟨hnil, hnext⟩ | ⟨p, pre, rem, hdata, hready, hsuffix, hfilter⟩
  · refine ⟨[], ?_, ?_, fun item hitem => absurd hitem not_mem_nil⟩
    · cases l.used with
      | zero => rfl
      | succ n => exact if_neg hnext
    · rw [hnil]
      rfl
  · have hrest := hfilter TagRecord (inFull l.adjustment) fun r hr => by
      unfold inFull moved
      rw [hr]
      rfl
    have hstored := hl.stored p hdata
    have hfuel : rem.length ≤ l.used := by
      refine hsuffix.length_le.trans ?_
      rw [hl.used]
      exact length_le_octetsOf rs
    rw [hl.used] at hstored
    rw [← hrest]
    exact TagIterator.items_eq hstored hl.good hranged l.used hready hfuel

section Loops

variable {α : Type} (image : α → List (Option Octet))

/-- A loop that writes the image of each tag, and counts them. -/
theorem foldlM_written {maxSize : ℕ} (f : Writer → α → Except (Stop (ℕ → Octet)) Writer)
    (m : ℕ → Octet) (p₀ : ℕ) (as : List α)
    (hone : ∀ a ∈ as, ∀ n rest, 4 + rest.length + (image a).length ≤ maxSize →
      f (written m p₀ (wordImage (BitVec.ofNat 32 n) ++ rest)) a
        = .ok (written m p₀ (wordImage (BitVec.ofNat 32 (n + 1)) ++ (rest ++ image a))))
    (n : ℕ) (rest : List (Option Octet))
    (hroom : 4 + rest.length + (as.flatMap image).length ≤ maxSize) :
    as.foldlM f (written m p₀ (wordImage (BitVec.ofNat 32 n) ++ rest))
      = .ok (written m p₀ (wordImage (BitVec.ofNat 32 (n + as.length)) ++
          (rest ++ as.flatMap image))) := by
  induction as generalizing n rest with
  | nil =>
    rw [flatMap_nil, append_nil]
    rfl
  | cons a as ih =>
    rw [flatMap_cons, length_append] at hroom
    have hrest := ih (fun b hb => hone b (mem_cons_of_mem a hb)) (n + 1) (rest ++ image a) (by
      rw [length_append]
      omega)
    rw [foldlM_cons, hone a mem_cons_self n rest (by omega), ok_bind, hrest,
      flatMap_cons, length_cons, append_assoc, Nat.add_assoc n, Nat.add_comm 1]

/-- A loop that adds the sizes of the images. -/
theorem foldl_size {f : ℕ → α → ℕ} (as : List α)
    (hone : ∀ a ∈ as, ∀ n, n + (image a).length < 2 ^ 32 → f n a = n + (image a).length) (n : ℕ)
    (hn : n + (as.flatMap image).length < 2 ^ 32) :
    as.foldl f n = n + (as.flatMap image).length := by
  induction as generalizing n with
  | nil => rfl
  | cons a as ih =>
    rw [flatMap_cons, length_append] at hn ⊢
    rw [foldl_cons, hone a mem_cons_self n (by omega),
      ih (fun b hb => hone b (mem_cons_of_mem a hb)) _ (by omega), Nat.add_assoc]

end Loops

section ByteTags

variable {maxSize : ℕ} {s : ByteTagStore} {tids : TypeIds}

/-- **One byte tag is written**, and counted. -/
theorem serializeItem_written (m : ℕ → Octet) (p₀ : ℕ) {item : TagItem}
    (hsize : item.size = (item.record s).content.length) (hhas : tids.Has item.tid) (n : ℕ)
    (rest : List (Option Octet)) (hroom : 4 + rest.length + (16 + padded item.size) ≤ maxSize)
    (hmax : maxSize < 2 ^ 32) :
    ByteTagList.serializeItem s tids maxSize p₀
        (written m p₀ (wordImage (BitVec.ofNat 32 n) ++ rest)) item
      = .ok (written m p₀ (wordImage (BitVec.ofNat 32 (n + 1)) ++
          (rest ++ byteTagImage tids (item.record s)))) := by
  have hlen : (wordImage (BitVec.ofNat 32 n) ++ rest).length = 4 + rest.length := by
    rw [length_append, length_wordImage]
  have haligned := aligned_eq (n := item.size) (by omega)
  obtain ⟨image, himage⟩ : ∃ image, image = wordImage (BitVec.ofNat 32 n) ++ rest := ⟨_, rfl⟩
  rw [← himage] at hlen
  unfold ByteTagList.serializeItem
  rw [← himage, need_written (by omega) hmax, ok_bind, tids.getHash_eq hhas, Stop.of_ok,
    ok_bind]
  dsimp only
  rw [put_written _ (by omega), need_written (by simp; omega) hmax, ok_bind,
    put_written _ (by simp; omega), need_written (by simp; omega) hmax, ok_bind,
    put_written _ (by simp; omega), need_written (by simp; omega) hmax, ok_bind,
    put_written _ (by simp; omega), haligned, need_written (by simp; omega) hmax, ok_bind]
  have hcontent : item.size = (item.buf.octets s).length := hsize
  rw [hcontent, block_written _ (by rw [← hcontent]; simp; omega), himage]
  simp only [append_assoc]
  rw [count_written]
  unfold byteTagImage TagItem.record
  rw [← hcontent]
  rfl

theorem length_byteTagsImage (tids : TypeIds) (rs : List TagRecord) :
    (byteTagsImage tids rs).length = 4 + (rs.flatMap (byteTagImage tids)).length := by
  unfold byteTagsImage
  rw [length_append, length_wordImage]

/-- **`ByteTagList::Serialize`** writes the image. -/
theorem ByteTagList.serialize_eq {l : ByteTagList} {items : List TagItem}
    (hitems : l.items s = .ok items)
    (hsize : ∀ item ∈ items, item.size = (item.record s).content.length)
    (hhas : ∀ item ∈ items, tids.Has item.tid) (m : ℕ → Octet) (p₀ : ℕ)
    (hmax : (byteTagsImage tids (items.map (TagItem.record s))).length < 2 ^ 32) :
    l.serialize s tids m p₀ (byteTagsImage tids (items.map (TagItem.record s))).length
      = .ok (overlay m p₀ (byteTagsImage tids (items.map (TagItem.record s)))) := by
  have hlen := length_byteTagsImage tids (items.map (TagItem.record s))
  rw [flatMap_map] at hlen
  have hfold := foldlM_written _ _ m p₀ items (fun item hitem n rest hroom =>
    serializeItem_written m p₀ (hsize item hitem) (hhas item hitem) n rest
      (by rwa [hsize item hitem, ← length_byteTagImage tids]) hmax) 0 []
    (by rw [length_nil]; exact hlen.ge)
  rw [append_nil, nil_append, Nat.zero_add] at hfold
  unfold ByteTagList.serialize
  dsimp only
  rw [← written_nil, need_written (by rw [length_nil]; omega) hmax, ok_bind, hitems,
    Stop.of_ok, ok_bind, put_written 0 (by decide), nil_append]
  rw [show (0 : BitVec 32) = BitVec.ofNat 32 0 from rfl, hfold, ok_bind]
  unfold byteTagsImage
  rw [length_map, flatMap_map]
  rfl

/-- **`ByteTagList::GetSerializedSize`** is the size of the image. -/
theorem ByteTagList.getSerializedSize_eq {l : ByteTagList} {items : List TagItem}
    (hitems : l.items s = .ok items)
    (hsize : ∀ item ∈ items, item.size = (item.record s).content.length)
    (hmax : (byteTagsImage tids (items.map (TagItem.record s))).length < 2 ^ 32) :
    l.getSerializedSize s
      = .ok (byteTagsImage tids (items.map (TagItem.record s))).length := by
  rw [length_byteTagsImage, flatMap_map] at hmax ⊢
  unfold ByteTagList.getSerializedSize
  rw [hitems, ok_bind, foldl_size _ items (fun item hitem n hn => ?_) 4 hmax]
  · rfl
  · rw [length_byteTagImage, ← hsize item hitem] at hn ⊢
    rw [aligned_eq (by omega), Word32.add_eq (a := n) (by omega),
      Word32.add_eq (a := n + 4) (by omega), Word32.add_eq (by omega)]
    omega

end ByteTags

/-! ## Packet tags -/

theorem TagHeap.tags_eq {h : TagHeap} {o : Option ℕ} {ts : List PacketTag}
    (hs : SharedChain.Spells h o ts) {fuel : ℕ} (hfuel : ts.length ≤ fuel) :
    h.tags fuel o = .ok ts := by
  induction hs generalizing fuel with
  | nil =>
    cases fuel with
    | zero => rfl
    | succ fuel => rfl
  | cons hc hrest ih =>
    cases fuel with
    | zero => exact absurd hfuel (Nat.not_succ_le_zero _)
    | succ fuel =>
      unfold TagHeap.tags
      rw [TagHeap.get_eq hc, ok_bind, ih (Nat.le_of_succ_le_succ hfuel), ok_bind]
      rfl

section PacketTags

variable {maxSize : ℕ} {tids : TypeIds}

/-- **One packet tag is written**, and counted. -/
theorem serializeTag_written (m : ℕ → Octet) (p₀ : ℕ) {t : PacketTag} (hhas : tids.Has t.tid) (n : ℕ)
    (rest : List (Option Octet)) (hroom : 4 + rest.length + (8 + padded t.data.length) ≤ maxSize)
    (hmax : maxSize < 2 ^ 32) :
    PacketTagList.serializeTag tids maxSize p₀
        (written m p₀ (wordImage (BitVec.ofNat 32 n) ++ rest)) t
      = .ok (written m p₀ (wordImage (BitVec.ofNat 32 (n + 1)) ++
          (rest ++ packetTagImage tids t))) := by
  have hlen : (wordImage (BitVec.ofNat 32 n) ++ rest).length = 4 + rest.length := by
    rw [length_append, length_wordImage]
  have haligned := aligned_eq (n := t.data.length) (by omega)
  obtain ⟨image, himage⟩ : ∃ image, image = wordImage (BitVec.ofNat 32 n) ++ rest := ⟨_, rfl⟩
  rw [← himage] at hlen
  unfold PacketTagList.serializeTag
  rw [← himage, need_written (by omega) hmax, ok_bind]
  dsimp only
  rw [put_written _ (by omega), need_written (by simp; omega) hmax, ok_bind,
    tids.getHash_eq hhas, Stop.of_ok, ok_bind, put_written _ (by simp; omega), haligned,
    need_written (by simp; omega) hmax, ok_bind, block_written _ (by simp; omega), himage]
  simp only [append_assoc]
  rw [count_written]
  rfl

theorem length_packetTagsImage (tids : TypeIds) (ts : List PacketTag) :
    (packetTagsImage tids ts).length = 4 + (ts.flatMap (packetTagImage tids)).length := by
  unfold packetTagsImage
  rw [length_append, length_wordImage]

/-- **`PacketTagList::Serialize`** writes the image. -/
theorem PacketTagList.serialize_eq {l : PacketTagList} {ts : List PacketTag}
    (htags : l.tags = .ok ts) (hhas : ∀ t ∈ ts, tids.Has t.tid) (m : ℕ → Octet) (p₀ : ℕ)
    (hmax : (packetTagsImage tids ts).length < 2 ^ 32) :
    l.serialize tids m p₀ (packetTagsImage tids ts).length
      = .ok (overlay m p₀ (packetTagsImage tids ts)) := by
  have hlen := length_packetTagsImage tids ts
  have hfold := foldlM_written (packetTagImage tids) _ m p₀ ts (fun t ht n rest hroom =>
    serializeTag_written m p₀ (hhas t ht) n rest (by rwa [← length_packetTagImage tids]) hmax) 0 []
    (by rw [length_nil]; omega)
  rw [append_nil, nil_append, Nat.zero_add] at hfold
  unfold PacketTagList.serialize
  dsimp only
  rw [← written_nil, need_written (by rw [length_nil]; omega) hmax, ok_bind, htags,
    Stop.of_ok, ok_bind, put_written 0 (by decide), nil_append]
  rw [show (0 : BitVec 32) = BitVec.ofNat 32 0 from rfl, hfold, ok_bind]
  rfl

/-- **`PacketTagList::GetSerializedSize`** is the size of the image. -/
theorem PacketTagList.getSerializedSize_eq {l : PacketTagList} {ts : List PacketTag}
    (htags : l.tags = .ok ts) (hmax : (packetTagsImage tids ts).length < 2 ^ 32) :
    l.getSerializedSize = .ok (packetTagsImage tids ts).length := by
  rw [length_packetTagsImage] at hmax ⊢
  unfold PacketTagList.getSerializedSize
  rw [htags, ok_bind, foldl_size _ ts (fun t ht n hn => ?_) 4 hmax]
  · rfl
  · rw [length_packetTagImage] at hn ⊢
    rw [aligned_eq (by omega), Word32.add_eq (a := n) (by omega),
      Word32.add_eq (a := n + 4) (by omega), Word32.add_eq (by omega)]
    omega

end PacketTags

/-! ## Buffers -/

section Buffers

variable {b : Buffer} {s : Store}

/-- **`Buffer::Serialize`** writes the image. -/
theorem Buffer.serialize_eq (hb : b.Ordered) (hcapacity : b.stop ≤ (s.areas b.data).capacity)
    {front back : List Octet} (hfront : front = (b.shown s).take (b.zeroAreaStart - b.start))
    (hback : back = (b.shown s).drop (b.zeroAreaEnd - b.start)) (m : ℕ → Octet) (p₀ : ℕ)
    (hmax : (bufferImage front (b.zeroAreaEnd - b.zeroAreaStart) back).length < 2 ^ 32) :
    b.serialize s m p₀ (bufferImage front (b.zeroAreaEnd - b.zeroAreaStart) back).length
      = .ok (overlay m p₀ (bufferImage front (b.zeroAreaEnd - b.zeroAreaStart) back)) := by
  have ⟨hone, htwo, hthree, hsmall⟩ := hb
  have hfrontLength : b.zeroAreaStart - b.start = front.length := by
    rw [hfront, length_take, length_shown]
    unfold size
    omega
  have hbackLength : b.endPos - b.zeroAreaEnd = back.length := by
    rw [hback, length_drop, length_shown]
    unfold size
    omega
  have hreadFront := hb.read_start hcapacity
  have hreadBack := hb.read_end hcapacity
  rw [← hfront, hfrontLength] at hreadFront
  rw [← hback, hbackLength] at hreadBack
  have hlen := length_bufferImage front (b.zeroAreaEnd - b.zeroAreaStart) back
  have hfrontAligned := aligned_eq (n := front.length) (by omega)
  have hbackAligned := aligned_eq (n := back.length) (by omega)
  -- the image is written word by word and block by block
  unfold Buffer.serialize
  dsimp only
  rw [Word32.sub_eq htwo (by omega), Word32.sub_eq hone (by omega), Word32.sub_eq hthree hsmall,
    hfrontLength, hbackLength, hfrontAligned, hbackAligned, ← written_nil,
    need_written (by simp; omega) hmax, ok_bind, put_written _ (by decide),
    need_written (by simp; omega) hmax, ok_bind, put_written _ (by simp),
    need_written (by simp; omega) hmax, ok_bind, hreadFront, Stop.of_ok, ok_bind,
    block_written _ (by simp; omega), need_written (by simp; omega) hmax, ok_bind,
    put_written _ (by simp; omega), need_written (by simp; omega) hmax, ok_bind, hreadBack,
    Stop.of_ok, ok_bind, block_written _ (by simp; omega)]
  unfold bufferImage
  simp only [append_assoc, nil_append]
  rfl

/-- **`Buffer::GetSerializedSize`** is the size of the image. -/
theorem Buffer.getSerializedSize_eq (hb : b.Ordered) {front back : List Octet}
    (hfront : front.length = b.zeroAreaStart - b.start)
    (hback : back.length = b.endPos - b.zeroAreaEnd) (zeroes : ℕ)
    (hmax : (bufferImage front zeroes back).length < 2 ^ 32) :
    b.getSerializedSize = (bufferImage front zeroes back).length := by
  have ⟨hone, htwo, hthree, hsmall⟩ := hb
  rw [length_bufferImage] at hmax ⊢
  unfold Buffer.getSerializedSize
  dsimp only
  rw [Word32.sub_eq hone (by omega), Word32.sub_eq hthree hsmall, ← hfront, ← hback,
    aligned_eq (by omega), aligned_eq (by omega), Word32.add_eq (a := 4 + 4) (by omega),
    Word32.add_eq (a := 4 + 4 + padded front.length) (by omega), Word32.add_eq (by omega)]
  omega

end Buffers

/-! ## Codecs -/

/-- A part with its own codec is written without holes. -/
theorem Codec.serialize_eq {α : Type} (c : Codec α) (a : α) (m : ℕ → Octet) (p₀ : ℕ)
    (hmax : ((c.octets a).map some).length < 2 ^ 32) :
    c.serialize a m p₀ ((c.octets a).map some).length
      = .ok (overlay m p₀ ((c.octets a).map some)) := by
  unfold Codec.serialize
  rw [← written_nil, need_written (by simp) hmax, ok_bind, write_eq_overlay]
  rfl

end Ns3Dsme.Network
