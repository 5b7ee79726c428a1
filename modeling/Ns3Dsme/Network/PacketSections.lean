/-
# The sections of a packet

What a packet contains, seen apart from the memory in which it is kept, and how large its sections
are.  `Serialize` writes the sections that pass its check, which is a matter of their sizes alone.
-/
import Ns3Dsme.Network.PacketImage

open List Program Memory Layout

namespace Ns3Dsme.Network

open Writer

variable {ν μ : Type}

/-- What a packet contains: its byte tags as they are shown in full, and its bytes in front of the
zero area, the length of that, and those behind it. -/
structure Content (ν μ : Type) where
  nixVector : Option ν
  byteTags : List TagRecord
  packetTags : List PacketTag
  metadata : μ
  front : List Octet
  zeroes : ℕ
  back : List Octet

/-- The packet contains this. -/
structure FullPacket.Contains (p : FullPacket ν μ) (m : PacketMemory) (k : Content ν μ) :
    Prop where
  nixVector : p.nixVector = k.nixVector
  byteTags : ∃ items, p.byteTagList.items m.byteTags = .ok items ∧
    items.map (TagItem.record m.byteTags) = k.byteTags ∧
    ∀ item ∈ items, item.size = (item.record m.byteTags).content.length
  packetTags : (p.packetTags m).tags = .ok k.packetTags
  metadata : p.metadata = k.metadata
  ordered : p.buffer.Ordered
  capacity : p.buffer.stop ≤ (m.buffers.areas p.buffer.data).capacity
  front : k.front = (p.buffer.shown m.buffers).take (p.buffer.zeroAreaStart - p.buffer.start)
  zeroes : k.zeroes = p.buffer.zeroAreaEnd - p.buffer.zeroAreaStart
  back : k.back = (p.buffer.shown m.buffers).drop (p.buffer.zeroAreaEnd - p.buffer.start)

/-! ## Sizes -/

/-- A section of a size, of which some octets at the end are not written, behind its length and
filled up to words. -/
def sectionPart (size unwritten : ℕ) : Part := ⟨size, 4 + padded size, 4 + (size - unwritten)⟩

/-- A section of tags: their number, and for each a header and the content, filled up to words. -/
def tagsPart (header : ℕ) (lens : List ℕ) : Part :=
  sectionPart (4 + (lens.map fun n => header + padded n).sum)
    ((lens.getLast?).elim 0 fun n => padded n - n)

namespace Content

variable (k : Content ν μ) (nixCodec : Codec ν) (metadataCodec : Codec μ) (tids : TypeIds)

/-- The sections, by their sizes; without a nix vector the first one is its length alone. -/
def parts : List Part :=
  [k.nixVector.elim ⟨4, 4, 4⟩ fun nix => sectionPart (nixCodec.octets nix).length 0,
    tagsPart 16 (k.byteTags.map fun r => r.content.length),
    tagsPart 8 (k.packetTags.map fun t => t.data.length),
    sectionPart (metadataCodec.octets k.metadata).length 0,
    sectionPart (12 + padded k.front.length + padded k.back.length)
      (padded k.back.length - k.back.length)]

/-- The types of all tags are registered. -/
structure Registered : Prop where
  byteTags : ∀ r ∈ k.byteTags, tids.Has r.tid
  packetTags : ∀ t ∈ k.packetTags, tids.Has t.tid

/-- The sections as they are written. -/
def pieces : List (Piece Octet) :=
  [k.nixVector.elim ⟨4, wordImage 4⟩ fun nix =>
      ⟨(nixCodec.octets nix).length, framed ((nixCodec.octets nix).map some)⟩,
    ⟨(byteTagsImage tids k.byteTags).length, framed (byteTagsImage tids k.byteTags)⟩,
    ⟨(packetTagsImage tids k.packetTags).length, framed (packetTagsImage tids k.packetTags)⟩,
    ⟨(metadataCodec.octets k.metadata).length,
      framed ((metadataCodec.octets k.metadata).map some)⟩,
    ⟨(bufferImage k.front k.zeroes k.back).length, framed (bufferImage k.front k.zeroes k.back)⟩]

end Content

/-- Each section is a section of a size, or the length that stands for no nix vector. -/
theorem Content.mem_parts {k : Content ν μ} {nixCodec : Codec ν} {metadataCodec : Codec μ}
    {x : Part} (hx : x ∈ k.parts nixCodec metadataCodec) :
    x = ⟨4, 4, 4⟩ ∨ ∃ size unwritten, x = sectionPart size unwritten := by
  unfold parts at hx
  simp only [mem_cons, not_mem_nil, or_false] at hx
  rcases hx with rfl | rfl | rfl | rfl | rfl
  · cases k.nixVector with
    | none => exact .inl rfl
    | some nix => exact .inr ⟨_, _, rfl⟩
  · exact .inr ⟨_, _, rfl⟩
  · exact .inr ⟨_, _, rfl⟩
  · exact .inr ⟨_, _, rfl⟩
  · exact .inr ⟨_, _, rfl⟩

variable (k : Content ν μ) (nixCodec : Codec ν) (metadataCodec : Codec μ)

theorem Content.counted_le : ∀ x ∈ k.parts nixCodec metadataCodec, x.counted ≤ x.length := by
  intro x hx
  rcases Content.mem_parts hx with rfl | ⟨size, unwritten, rfl⟩
  · exact le_refl 4
  · have hle := le_padded size
    show size ≤ 4 + padded size
    omega

theorem Content.written_le : ∀ x ∈ k.parts nixCodec metadataCodec, x.written ≤ x.length := by
  intro x hx
  rcases Content.mem_parts hx with rfl | ⟨size, unwritten, rfl⟩
  · exact le_refl 4
  · have hle := le_padded size
    show 4 + (size - unwritten) ≤ 4 + padded size
    omega

/-! ## How far the images are written -/

@[simp] theorem extent_wordImage (value : BitVec 32) : extent (wordImage value) = 4 :=
  extent_map_some _

@[simp] theorem extent_blockImage (data : List Octet) : extent (blockImage data) = data.length := by
  unfold blockImage holes
  rw [extent_append, extent_holes, if_pos rfl, extent_map_some]

theorem extent_framed (image : List (Option Octet)) : extent (framed image) = 4 + extent image := by
  unfold framed holes
  rw [extent_append_of_full (extent_wordImage _), extent_append, extent_holes, if_pos rfl,
    length_wordImage]

theorem extent_byteTagImage (tids : TypeIds) (r : TagRecord) :
    extent (byteTagImage tids r) = 16 + r.content.length := by
  unfold byteTagImage
  rw [extent_append_of_full (extent_wordImage _), extent_append_of_full (extent_wordImage _),
    extent_append_of_full (extent_wordImage _), extent_append_of_full (extent_wordImage _),
    extent_blockImage, length_wordImage, length_wordImage, length_wordImage, length_wordImage]
  omega

theorem extent_packetTagImage (tids : TypeIds) (t : PacketTag) :
    extent (packetTagImage tids t) = 8 + t.data.length := by
  unfold packetTagImage
  rw [extent_append_of_full (extent_wordImage _), extent_append_of_full (extent_wordImage _),
    extent_blockImage, length_wordImage, length_wordImage]
  omega

theorem extent_bufferImage (front : List Octet) (zeroes : ℕ) (back : List Octet) :
    extent (bufferImage front zeroes back) = 12 + padded front.length + back.length := by
  have htail : extent (wordImage (BitVec.ofNat 32 back.length) ++ blockImage back)
      = 4 + back.length := by
    rw [extent_append_of_full (extent_wordImage _), extent_blockImage, length_wordImage]
  unfold bufferImage
  rw [extent_append_of_full (extent_wordImage _), extent_append_of_full (extent_wordImage _),
    extent_append_of_pos _ (by rw [htail]; omega), htail, length_blockImage, length_wordImage,
    length_wordImage]
  omega

/-- A section is described by its size and what is open at its end. -/
theorem part_framed {image : List (Option Octet)} {size unwritten : ℕ} (hsize : image.length = size)
    (hunwritten : extent image + unwritten = size) :
    Piece.part ⟨image.length, framed image⟩ = sectionPart size unwritten := by
  have hwritten : extent image = size - unwritten := by omega
  unfold Piece.part sectionPart
  dsimp only
  rw [length_framed, extent_framed, hsize, hwritten]

/-- A section of tags. -/
theorem part_tags {α : Type} (f : α → List (Option Octet)) (len : α → ℕ) (header : ℕ)
    (hheader : 0 < header) (hlength : ∀ x, (f x).length = header + padded (len x))
    (hextent : ∀ x, extent (f x) = header + len x) (value : BitVec 32) (xs : List α) :
    Piece.part ⟨(wordImage value ++ xs.flatMap f).length, framed (wordImage value ++ xs.flatMap f)⟩
      = tagsPart header (xs.map len) := by
  have hlengths : (xs.flatMap f).length = ((xs.map len).map fun n => header + padded n).sum := by
    induction xs with
    | nil => rfl
    | cons x xs ih =>
      rw [flatMap_cons, length_append, ih, hlength, map_cons, map_cons,
        sum_cons]
  have hopen := extent_flatMap f (fun x => padded (len x) - len x) (fun x => by
    have hle := le_padded (len x)
    rw [hlength, hextent]
    omega) xs
  have hlast : ((xs.map len).getLast?).elim 0 (fun n => padded n - n)
      = (xs.getLast?).elim 0 fun x => padded (len x) - len x := by
    rw [List.getLast?_map]
    cases xs.getLast? with
    | none => rfl
    | some x => rfl
  unfold tagsPart
  refine part_framed ?_ ?_
  · rw [length_append, hlengths, length_wordImage]
  · rw [extent_append_of_full (extent_wordImage _), hlast, length_wordImage, Nat.add_assoc, hopen,
      hlengths]

/-- **The sections have the sizes that the content gives them.** -/
theorem Content.map_part (tids : TypeIds) :
    (k.pieces nixCodec metadataCodec tids).map Piece.part = k.parts nixCodec metadataCodec := by
  have hcodec (octets : List Octet) :
      Piece.part ⟨octets.length, framed (octets.map some)⟩ = sectionPart octets.length 0 := by
    have hpart := part_framed (length_map some) (Nat.add_zero _ ▸ extent_map_some octets :
      extent (octets.map some) + 0 = octets.length)
    rwa [length_map] at hpart
  have hnix : Piece.part (k.nixVector.elim ⟨4, wordImage 4⟩ fun nix =>
      ⟨(nixCodec.octets nix).length, framed ((nixCodec.octets nix).map some)⟩)
      = k.nixVector.elim ⟨4, 4, 4⟩ fun nix => sectionPart (nixCodec.octets nix).length 0 := by
    cases k.nixVector with
    | none => rfl
    | some nix => exact hcodec _
  have hbyteTags := part_tags (byteTagImage tids) (fun r => r.content.length) 16 (by decide)
    (length_byteTagImage tids) (extent_byteTagImage tids) (BitVec.ofNat 32 k.byteTags.length)
    k.byteTags
  have hpacketTags := part_tags (packetTagImage tids) (fun t => t.data.length) 8 (by decide)
    (length_packetTagImage tids) (extent_packetTagImage tids)
    (BitVec.ofNat 32 k.packetTags.length) k.packetTags
  have hle := le_padded k.back.length
  have hbuffer : Piece.part ⟨(bufferImage k.front k.zeroes k.back).length,
      framed (bufferImage k.front k.zeroes k.back)⟩
      = sectionPart (12 + padded k.front.length + padded k.back.length)
        (padded k.back.length - k.back.length) :=
    part_framed (length_bufferImage _ _ _) (by
      rw [extent_bufferImage]
      omega)
  unfold pieces parts
  rw [map_cons, map_cons, map_cons, map_cons, map_cons, map_nil, hnix,
    hcodec, hbuffer]
  exact congrArg₂ (fun x y => _ :: x :: y :: _) hbyteTags hpacketTags

/-! ## Writing the sections -/

/-- What serializing some more sections comes to, after an image. -/
def placed (memory : ℕ → Octet) (image : List (Option Octet)) (maxSize size : ℕ)
    (ps : List (Piece Octet)) : Except (Stop (ℕ → Octet)) (ℕ → Octet) :=
  if (place maxSize size ps).1 = true then
    .ok (overlay memory 0 (image ++ (place maxSize size ps).2))
  else .error (.zero (overlay memory 0 (image ++ (place maxSize size ps).2)))

/-- A writer between two sections. -/
def Writer.between (memory : ℕ → Octet) (image : List (Option Octet)) (size : ℕ) : Writer :=
  ⟨overlay memory 0 image, image.length, size⟩

/-- A section and then the others. -/
theorem bind_eq_placed {memory : ℕ → Octet} {image : List (Option Octet)} {maxSize size : ℕ} {n : ℕ}
    {sub : List (Option Octet)} {rest : List (Piece Octet)}
    {first : Except (Stop (ℕ → Octet)) Writer}
    {next : Writer → Except (Stop (ℕ → Octet)) (ℕ → Octet)}
    (hpass : size + n ≤ maxSize →
      first = .ok (between memory (image ++ sub) (size + n)) ∧
        next (between memory (image ++ sub) (size + n))
          = placed memory (image ++ sub) maxSize (size + n) rest)
    (hstop : maxSize < size + n → first = .error (.zero (overlay memory 0 image))) :
    (first >>= next) = placed memory image maxSize size (⟨n, sub⟩ :: rest) := by
  unfold placed
  by_cases hle : size + n ≤ maxSize
  · obtain ⟨hfirst, hnext⟩ := hpass hle
    have hplace : place maxSize size (⟨n, sub⟩ :: rest) = ((place maxSize (size + n) rest).1,
        sub ++ (place maxSize (size + n) rest).2) := place_cons_of_le rest hle
    rw [hplace, hfirst, ok_bind, hnext]
    unfold placed
    dsimp only
    rw [append_assoc]
  · have hplace : place maxSize size (⟨n, sub⟩ :: rest) = (false, []) :=
      place_cons_of_lt rest (Nat.not_le.mp hle)
    rw [hplace, hstop (Nat.not_le.mp hle), if_neg Bool.false_ne_true, append_nil]
    rfl

theorem Writer.need_of_lt {w : Writer} {maxSize n : ℕ} (h : maxSize < w.size + n)
    (hn : w.size + n < 2 ^ 32) : w.need maxSize n = .error (.zero w.memory) := by
  unfold need
  rw [Word32.add_eq hn, if_neg (Nat.not_le.mpr h)]

/-- **One section of `Packet::Serialize`**, if what it writes itself is its image. -/
theorem Writer.part_between (memory : ℕ → Octet) (image : List (Option Octet)) (maxSize size : ℕ)
    {sub : List (Option Octet)}
    {serialize : (ℕ → Octet) → ℕ → ℕ → Except (Stop (ℕ → Octet)) (ℕ → Octet)}
    (hserialize : ∀ m p₀, serialize m p₀ sub.length = .ok (overlay m p₀ sub))
    (hsmall : size + (4 + padded sub.length) < 2 ^ 32) :
    (size + sub.length ≤ maxSize →
      (between memory image size).part maxSize sub.length serialize
        = .ok (between memory (image ++ framed sub) (size + sub.length))) ∧
      (maxSize < size + sub.length →
        (between memory image size).part maxSize sub.length serialize
          = .error (.zero (overlay memory 0 image))) := by
  have hle := le_padded sub.length
  constructor
  · intro hpass
    have hneed : (between memory image size).need maxSize sub.length = .ok () := by
      unfold need between
      dsimp only
      rw [Word32.add_eq (by omega), if_pos hpass]
    unfold part
    rw [hneed, ok_bind]
    unfold between framed
    dsimp only
    rw [Word32.add_eq (by omega), hserialize, ok_bind, aligned_eq (by omega),
      Word32.add_eq (by omega), write_eq_overlay]
    -- the length, the section and the holes behind it
    have hone := overlay_append memory 0 image (wordImage (BitVec.ofNat 32 (sub.length + 4)))
    have htwo := overlay_append memory 0
      (image ++ wordImage (BitVec.ofNat 32 (sub.length + 4))) sub
    have hthree := overlay_append memory 0
      (image ++ wordImage (BitVec.ofNat 32 (sub.length + 4)) ++ sub)
      (holes (padded sub.length - sub.length))
    rw [holes, overlay_holes] at hthree
    rw [Nat.zero_add] at hone htwo
    rw [length_append, length_wordImage] at htwo
    have hmemory : overlay (overlay (overlay memory 0 image) image.length
        (wordImage (BitVec.ofNat 32 (sub.length + 4)))) (image.length + 4) sub
        = overlay memory 0 (image ++ (wordImage (BitVec.ofNat 32 (sub.length + 4)) ++
          (sub ++ holes (padded sub.length - sub.length)))) := by
      rw [hone, htwo, hthree, append_assoc, append_assoc]
      rfl
    rw [← hmemory, length_append, length_append, length_append, length_wordImage,
      length_holes]
    refine congrArg Except.ok ?_
    congr 1
    omega
  · intro hstop
    unfold part
    rw [need_of_lt hstop (by show size + _ < _; omega)]
    rfl

namespace FullPacket.Contains

variable {p : FullPacket ν μ} {m : PacketMemory} {k : Content ν μ} {nixCodec : Codec ν}
  {metadataCodec : Codec μ} {tids : TypeIds}

/-- The sections of a packet that 32 bits can count. -/
theorem total_eq (k : Content ν μ) (nixCodec : Codec ν) (metadataCodec : Codec μ) (tids : TypeIds) :
    total (k.parts nixCodec metadataCodec)
      = (k.nixVector.elim 4 fun nix => 4 + padded (nixCodec.octets nix).length)
        + (4 + padded (byteTagsImage tids k.byteTags).length)
        + (4 + padded (packetTagsImage tids k.packetTags).length)
        + (4 + padded (metadataCodec.octets k.metadata).length)
        + (4 + padded (bufferImage k.front k.zeroes k.back).length) := by
  have hnix : (k.nixVector.elim (⟨4, wordImage 4⟩ : Piece Octet) fun nix =>
      ⟨(nixCodec.octets nix).length, framed ((nixCodec.octets nix).map some)⟩).part.length
      = k.nixVector.elim 4 fun nix => 4 + padded (nixCodec.octets nix).length := by
    cases k.nixVector with
    | none => rfl
    | some nix =>
      show (framed _).length = _
      rw [length_framed, length_map]
      rfl
  rw [← k.map_part nixCodec metadataCodec tids]
  unfold Content.pieces
  rw [map_cons, map_cons, map_cons, map_cons, map_cons, map_nil,
    total_cons, total_cons, total_cons, total_cons, total_cons, total_nil, hnix]
  unfold Piece.part
  dsimp only
  rw [length_framed, length_framed, length_framed, length_framed, length_map]
  omega

/-- The parts of the buffer. -/
theorem buffer_lengths (h : p.Contains m k) :
    k.front.length = p.buffer.zeroAreaStart - p.buffer.start ∧
      k.back.length = p.buffer.endPos - p.buffer.zeroAreaEnd := by
  have ⟨hone, htwo, hthree, _⟩ := h.ordered
  constructor
  · rw [h.front, length_take, Buffer.length_shown]
    unfold Buffer.size
    omega
  · rw [h.back, length_drop, Buffer.length_shown]
    unfold Buffer.size
    omega

variable (h : p.Contains m k) (hsmall : total (k.parts nixCodec metadataCodec) < 2 ^ 32)
include h hsmall

/-- The sizes of the sections that have no codec of their own. -/
theorem section_sizes (tids : TypeIds) : p.byteTagList.getSerializedSize m.byteTags
        = .ok (byteTagsImage tids k.byteTags).length ∧
      (p.packetTags m).getSerializedSize = .ok (packetTagsImage tids k.packetTags).length ∧
      p.buffer.getSerializedSize = (bufferImage k.front k.zeroes k.back).length := by
  obtain ⟨items, hitems, hrecords, hsizes⟩ := h.byteTags
  rw [total_eq k nixCodec metadataCodec tids] at hsmall
  have hbyteLe := le_padded (byteTagsImage tids k.byteTags).length
  have hpacketLe := le_padded (packetTagsImage tids k.packetTags).length
  have hbufferLe := le_padded (bufferImage k.front k.zeroes k.back).length
  refine ⟨?_, ?_, ?_⟩
  · rw [← hrecords]
    exact ByteTagList.getSerializedSize_eq hitems hsizes (by rw [hrecords]; omega)
  · exact PacketTagList.getSerializedSize_eq h.packetTags (by omega)
  · exact Buffer.getSerializedSize_eq h.ordered h.buffer_lengths.1 h.buffer_lengths.2 k.zeroes
      (by omega)

/-- The first section, with or without a nix vector. -/
theorem serializeNix_eq (tids : TypeIds) (memory : ℕ → Octet) (maxSize : ℕ) {x : Piece Octet}
    (hx : x = k.nixVector.elim ⟨4, wordImage 4⟩ fun nix => ⟨(nixCodec.octets nix).length, framed ((nixCodec.octets nix).map some)⟩) :
    (0 + x.counted ≤ maxSize → p.serializeNix nixCodec ⟨memory, 0, 0⟩ maxSize
        = .ok (between memory ([] ++ x.image) (0 + x.counted))) ∧
      (maxSize < 0 + x.counted → p.serializeNix nixCodec ⟨memory, 0, 0⟩ maxSize
        = .error (.zero (overlay memory 0 []))) := by
  rw [total_eq k nixCodec metadataCodec tids] at hsmall
  have hstart : (⟨memory, 0, 0⟩ : Writer) = between memory [] 0 := by
    unfold between
    rw [overlay_nil]
    rfl
  unfold serializeNix
  rw [h.nixVector, hx, hstart]
  cases hnix : k.nixVector with
  | none =>
    show (0 + 4 ≤ maxSize → _) ∧ (maxSize < 0 + 4 → _)
    constructor
    · intro hpass
      have hneed : (between memory [] 0).need maxSize 4 = .ok () := if_pos hpass
      dsimp only [Option.elim_none]
      rw [hneed, ok_bind]
      unfold between put
      rw [overlay_nil, write_eq_overlay]
      rfl
    · intro hstop
      dsimp only [Option.elim_none]
      rw [need_of_lt hstop (by show 0 + 4 < 2 ^ 32; decide)]
      rfl
  | some nix =>
    rw [hnix, Option.elim_some] at hsmall
    rw [Option.elim_some]
    dsimp only
    have hcodec := fun m p₀ => nixCodec.serialize_eq nix m p₀ (by
      have hle := le_padded (nixCodec.octets nix).length
      rw [length_map]
      omega)
    have hpart := part_between memory [] maxSize 0 hcodec (by
      rw [length_map]
      omega)
    rw [length_map] at hpart
    exact hpart

omit h hsmall in
/-- **`Packet::Serialize`** writes the sections that pass its check. -/
theorem serializeParts_eq (h : p.Contains m k) (hregistered : k.Registered tids)
    (hsmall : total (k.parts nixCodec metadataCodec) < 2 ^ 32) (memory : ℕ → Octet) (maxSize : ℕ) :
    p.serializeParts m nixCodec metadataCodec tids memory maxSize
      = placed memory [] maxSize 0 (k.pieces nixCodec metadataCodec tids) := by
  obtain ⟨items, hitems, hrecords, hsizes⟩ := h.byteTags
  -- the first section
  obtain ⟨⟨n, sub⟩, hx⟩ : ∃ x : Piece Octet, x = k.nixVector.elim ⟨4, wordImage 4⟩ fun nix =>
    ⟨(nixCodec.octets nix).length, framed ((nixCodec.octets nix).map some)⟩ := ⟨_, rfl⟩
  have hnixPart := h.serializeNix_eq hsmall tids memory maxSize hx
  have hsum := hsmall
  rw [total_eq k nixCodec metadataCodec tids] at hsum
  have hnixLe : n ≤ k.nixVector.elim 4 fun nix => 4 + padded (nixCodec.octets nix).length := by
    cases hnix : k.nixVector with
    | none =>
      rw [hnix] at hx
      cases hx
      exact le_refl _
    | some nix =>
      rw [hnix] at hx
      cases hx
      have hle := le_padded (nixCodec.octets nix).length
      show (nixCodec.octets nix).length ≤ 4 + _
      omega
  have hbyteLe := le_padded (byteTagsImage tids k.byteTags).length
  have hpacketLe := le_padded (packetTagsImage tids k.packetTags).length
  have hmetaLe := le_padded (metadataCodec.octets k.metadata).length
  have hbufferLe := le_padded (bufferImage k.front k.zeroes k.back).length
  obtain ⟨hbyteSize, hpacketSize, hbufferSize⟩ := h.section_sizes hsmall tids
  -- what they write
  have hbyteTags : ∀ m' p₀, p.byteTagList.serialize m.byteTags tids m' p₀
      (byteTagsImage tids k.byteTags).length
      = .ok (overlay m' p₀ (byteTagsImage tids k.byteTags)) := by
    intro m' p₀
    rw [← hrecords]
    refine ByteTagList.serialize_eq hitems hsizes (fun item hitem => ?_) m' p₀ (by
      rw [hrecords]
      omega)
    refine hregistered.byteTags (item.record m.byteTags) ?_
    rw [← hrecords]
    exact mem_map_of_mem hitem
  have hpacketTags := fun m' p₀ =>
    PacketTagList.serialize_eq h.packetTags hregistered.packetTags m' p₀ (by omega)
  have hmetadata := fun m' p₀ => metadataCodec.serialize_eq k.metadata m' p₀ (by
    rw [length_map]
    omega)
  have hbuffer := fun m' p₀ => Buffer.serialize_eq h.ordered h.capacity h.front h.back m' p₀ (by
    rw [← h.zeroes]
    omega)
  rw [← h.zeroes] at hbuffer
  unfold serializeParts Content.pieces
  rw [← hx, h.metadata]
  refine bind_eq_placed (fun hpass => ⟨hnixPart.1 hpass, ?_⟩) hnixPart.2
  rw [hbyteSize, Stop.of_ok, ok_bind]
  have hone := fun image size hsize => part_between memory image maxSize size hbyteTags hsize
  refine bind_eq_placed (fun hpass => ⟨(hone _ _ (by omega)).1 hpass, ?_⟩) (hone _ _ (by omega)).2
  rw [hpacketSize, Stop.of_ok, ok_bind]
  have htwo := fun image size hsize =>
    part_between memory image maxSize size hpacketTags hsize
  refine bind_eq_placed (fun hpass => ⟨(htwo _ _ (by omega)).1 hpass, ?_⟩) (htwo _ _ (by omega)).2
  have hthree := fun image size hsize =>
    part_between memory image maxSize size hmetadata hsize
  rw [length_map] at hthree
  refine bind_eq_placed (fun hpass => ⟨(hthree _ _ (by omega)).1 hpass, ?_⟩)
    (hthree _ _ (by omega)).2
  rw [hbufferSize]
  have hfour := fun image size hsize => part_between memory image maxSize size hbuffer hsize
  refine bind_eq_placed (fun hpass => ⟨(hfour _ _ (by omega)).1 hpass, ?_⟩) (hfour _ _ (by omega)).2
  unfold placed place
  rw [if_pos rfl, append_nil]
  rfl

/-- **`Packet::GetSerializedSize`** is the size of all sections. -/
theorem getSerializedSize_eq (tids : TypeIds) : p.getSerializedSize m nixCodec metadataCodec
      = .ok (total (k.parts nixCodec metadataCodec)) := by
  obtain ⟨hbyteSize, hpacketSize, hbufferSize⟩ := h.section_sizes hsmall tids
  have htotal := total_eq k nixCodec metadataCodec tids
  rw [htotal] at hsmall
  have hnix : p.nixSize nixCodec
      = k.nixVector.elim 4 fun nix => 4 + padded (nixCodec.octets nix).length := by
    unfold nixSize
    rw [h.nixVector]
    cases hvector : k.nixVector with
    | none => rfl
    | some nix =>
      rw [hvector, Option.elim_some] at hsmall
      show Word32.add (aligned _) 4 = 4 + _
      rw [aligned_eq (by omega), Word32.add_eq (by omega), Nat.add_comm]
  obtain ⟨n, hn⟩ : ∃ n, n = k.nixVector.elim 4 fun nix => 4 + padded (nixCodec.octets nix).length :=
    ⟨_, rfl⟩
  rw [← hn] at hsmall htotal hnix
  unfold getSerializedSize
  rw [h.metadata, hpacketSize, ok_bind, hbyteSize, ok_bind, hbufferSize, hnix, htotal]
  rw [aligned_eq (n := (packetTagsImage tids k.packetTags).length) (by omega),
    aligned_eq (n := (byteTagsImage tids k.byteTags).length) (by omega),
    aligned_eq (n := (metadataCodec.octets k.metadata).length) (by omega),
    aligned_eq (n := (bufferImage k.front k.zeroes k.back).length) (by omega)]
  refine congrArg Except.ok ?_
  unfold Word32.add
  omega

omit h hsmall

/-- **`Packet::Serialize`** returns 1 if all sections pass, and has written those that do. -/
theorem serialize_eq (h : p.Contains m k) (hregistered : k.Registered tids)
    (hsmall : total (k.parts nixCodec metadataCodec) < 2 ^ 32) (memory : ℕ → Octet) (maxSize : ℕ) :
    p.serialize m nixCodec metadataCodec tids memory maxSize
      = .ok ((place maxSize 0 (k.pieces nixCodec metadataCodec tids)).1,
          overlay memory 0 (place maxSize 0 (k.pieces nixCodec metadataCodec tids)).2) := by
  unfold serialize
  rw [h.serializeParts_eq hregistered hsmall memory maxSize]
  unfold placed
  rw [nil_append]
  cases hdone : (place maxSize 0 (k.pieces nixCodec metadataCodec tids)).1 with
  | true =>
    rw [if_pos rfl]
  | false =>
    rw [if_neg Bool.false_ne_true]

end FullPacket.Contains

end Ns3Dsme.Network
