/-
# Packets as octets

`Serialize` writes a packet in five sections: the nix vector, the byte tags, the packet tags, the
metadata and the buffer.  In front of each is a word with its length, and each is filled up to
whole words; words are stored with the low octet first.  The size that is checked against the limit
is a running one, which each function keeps for itself.

The codecs of the nix vector and of the metadata are parameters.
-/
import Ns3Dsme.Network.BufferCopy
import Ns3Dsme.Network.Packet
import Ns3Dsme.Network.PacketTagList
import Ns3Dsme.Lib.Layout

open Program

namespace Ns3Dsme.Network

open Word32

/-- What ends a function early: a fault, or `return 0`, after which something is left. -/
inductive Stop (σ : Type)
  | fault (fault : Fault)
  | zero (left : σ)

/-- A step that can only fault. -/
def Stop.of {α σ : Type} (x : Except Fault α) : Except (Stop σ) α := x.mapError .fault

/-- `(n + 3) & (~3)`. -/
def aligned (n : ℕ) : ℕ := add n 3 / 4 * 4

/-! ## Types and codecs -/

/-- The hashes of the types that are registered, which `AllocateUid` keeps apart.  The first type
is 1. -/
structure TypeIds where
  hashes : List (BitVec 32)
  nodup : hashes.Nodup
  small : hashes.length < 2 ^ 16

namespace TypeIds

def getHash (t : TypeIds) (tid : BitVec 16) : Except Fault (BitVec 32) :=
  if tid = 0 then .error .assertFailed
  else
    match t.hashes[tid.toNat - 1]? with
    | some hash => .ok hash
    | none => .error .assertFailed

def lookupByHash (t : TypeIds) (hash : BitVec 32) : Except Fault (BitVec 16) :=
  if t.hashes.idxOf hash < t.hashes.length then .ok (BitVec.ofNat 16 (t.hashes.idxOf hash + 1))
  else .error .assertFailed

end TypeIds

/-- A part of the packet with its own serialization: it fills what `GetSerializedSize` says, and is
read back from it.  What `Deserialize` is told is four more. -/
structure Codec (α : Type) where
  octets : α → List Octet
  deserialize : List Octet → ℕ → Option α
  nonempty : ∀ a, octets a ≠ []
  lossless : ∀ a rest, deserialize (octets a ++ rest) ((octets a).length + 4) = some a

/-- All members of a packet. -/
structure FullPacket (ν μ : Type) where
  buffer : Buffer
  byteTagList : ByteTagList
  packetTagList : Option ℕ
  metadata : μ
  nixVector : Option ν

/-- The memory behind the members. -/
structure PacketMemory where
  buffers : Store
  byteTags : ByteTagStore
  packetTags : TagHeap

/-! ## Writing -/

/-- The local variables of a function that serializes: `p` and `size`, beside the memory. -/
structure Writer where
  memory : ℕ → Octet
  p : ℕ
  size : ℕ

namespace Writer

/-- `if (size + n <= maxSize)`, and `return 0` otherwise. -/
def need (w : Writer) (maxSize n : ℕ) : Except (Stop (ℕ → Octet)) Unit :=
  if add w.size n ≤ maxSize then .ok () else .error (.zero w.memory)

/-- `*p++ = value`, and `size += 4`. -/
def put (w : Writer) (value : BitVec 32) : Writer :=
  ⟨Memory.write w.memory w.p (Octet.lowFirst32 value), w.p + 4, add w.size 4⟩

/-- `n` octets are copied to `p`, which moves on by whole words. -/
def block (w : Writer) (n : ℕ) (data : List Octet) : Writer :=
  ⟨Memory.write w.memory w.p data, w.p + aligned n, add w.size (aligned n)⟩

/-- `(*numberOfTags)++`. -/
def count (w : Writer) (numberOfTags : ℕ) : Writer :=
  { w with
    memory := Memory.write w.memory numberOfTags (Octet.lowFirst32
      (Octet.word32 (w.memory (numberOfTags + 3)) (w.memory (numberOfTags + 2))
        (w.memory (numberOfTags + 1)) (w.memory numberOfTags) + 1)) }

/-- One section of `Packet::Serialize`: the check, the length, what the section writes itself, and
the step over it. -/
def part (w : Writer) (maxSize n : ℕ)
    (serialize : (ℕ → Octet) → ℕ → ℕ → Except (Stop (ℕ → Octet)) (ℕ → Octet)) :
    Except (Stop (ℕ → Octet)) Writer := do
  w.need maxSize n
  let length := Octet.lowFirst32 (BitVec.ofNat 32 (add n 4))
  let memory ← serialize (Memory.write w.memory w.p length) (w.p + 4) n
  return ⟨memory, w.p + 4 + aligned n, add w.size n⟩

end Writer

/-- `Serialize` of a part that fills what it needs. -/
def Codec.serialize {α : Type} (c : Codec α) (a : α) (memory : ℕ → Octet) (p maxSize : ℕ) :
    Except (Stop (ℕ → Octet)) (ℕ → Octet) := do
  Writer.need ⟨memory, p, 0⟩ maxSize (c.octets a).length
  return Memory.write memory p (c.octets a)

/-- The tags that a loop over the iterator meets. -/
def TagIterator.items (s : ByteTagStore) : ℕ → TagIterator → Except Fault (List TagItem)
  | 0, _ => .ok []
  | fuel + 1, it =>
    if it.hasNext then do
      let (item, it) ← it.next s
      let rest ← items s fuel it
      return item :: rest
    else .ok []

namespace ByteTagList

/-- The tags of the loops over `BeginAll`. -/
def items (l : ByteTagList) (s : ByteTagStore) : Except Fault (List TagItem) := do
  let it ← l.beginAll s
  it.items s l.used

def getSerializedSize (l : ByteTagList) (s : ByteTagStore) : Except Fault ℕ := do
  let items ← l.items s
  return items.foldl (fun size item =>
    Word32.add (Word32.add (Word32.add size 4) (3 * 4)) (aligned item.size)) 4

/-- The body of the loop of `Serialize`. -/
def serializeItem (s : ByteTagStore) (tids : TypeIds) (maxSize numberOfTags : ℕ) (w : Writer)
    (item : TagItem) : Except (Stop (ℕ → Octet)) Writer := do
  w.need maxSize 4
  let tid ← Stop.of (tids.getHash item.tid)
  let w := w.put tid
  w.need maxSize 4
  let w := w.put (BitVec.ofNat 32 item.size)
  w.need maxSize 4
  let w := w.put (BitVec.ofInt 32 item.start)
  w.need maxSize 4
  let w := w.put (BitVec.ofInt 32 item.stop)
  w.need maxSize (aligned item.size)
  let w := w.block item.size (item.buf.octets s)
  return w.count numberOfTags

/-- `Serialize`; it returns 1. -/
def serialize (l : ByteTagList) (s : ByteTagStore) (tids : TypeIds) (memory : ℕ → Octet)
    (p maxSize : ℕ) : Except (Stop (ℕ → Octet)) (ℕ → Octet) := do
  let w : Writer := ⟨memory, p, 0⟩
  w.need maxSize 4
  let items ← Stop.of (l.items s)
  let w ← items.foldlM (serializeItem s tids maxSize p) (w.put 0)
  return w.memory

end ByteTagList

/-- The tags that the loops from `cur` on meet. -/
def TagHeap.tags (h : TagHeap) : ℕ → Option ℕ → Except Fault (List PacketTag)
  | _, none => .ok []
  | 0, some _ => .error .outOfRange
  | fuel + 1, some cur => do
    let c ← h.get cur
    let rest ← tags h fuel c.next
    return c.value :: rest

namespace PacketTagList

/-- The tags of the loops over the list. -/
def tags (l : PacketTagList) : Except Fault (List PacketTag) := l.heap.tags l.heap.top l.next

def getSerializedSize (l : PacketTagList) : Except Fault ℕ := do
  let tags ← l.tags
  return tags.foldl (fun size tag =>
    Word32.add (Word32.add (Word32.add size 4) 4) (aligned tag.data.length)) 4

/-- The body of the loop of `Serialize`. -/
def serializeTag (tids : TypeIds) (maxSize numberOfTags : ℕ) (w : Writer) (tag : PacketTag) :
    Except (Stop (ℕ → Octet)) Writer := do
  w.need maxSize 4
  let w := w.put (BitVec.ofNat 32 tag.data.length)
  w.need maxSize 4
  let tid ← Stop.of (tids.getHash tag.tid)
  let w := w.put tid
  w.need maxSize (aligned tag.data.length)
  let w := w.block tag.data.length tag.data
  return w.count numberOfTags

/-- `Serialize`; it returns 1. -/
def serialize (l : PacketTagList) (tids : TypeIds) (memory : ℕ → Octet) (p maxSize : ℕ) :
    Except (Stop (ℕ → Octet)) (ℕ → Octet) := do
  let w : Writer := ⟨memory, p, 0⟩
  w.need maxSize 4
  let tags ← Stop.of l.tags
  let w ← tags.foldlM (serializeTag tids maxSize p) (w.put 0)
  return w.memory

end PacketTagList

namespace Buffer

def getSerializedSize (b : Buffer) : ℕ :=
  let dataStart := aligned (sub b.zeroAreaStart b.start)
  let dataEnd := aligned (sub b.endPos b.zeroAreaEnd)
  add (add (add (4 + 4) dataStart) 4) dataEnd

/-- `Serialize`; it returns 1. -/
def serialize (b : Buffer) (s : Store) (memory : ℕ → Octet) (p maxSize : ℕ) :
    Except (Stop (ℕ → Octet)) (ℕ → Octet) := do
  let w : Writer := ⟨memory, p, 0⟩
  w.need maxSize 4
  let w := w.put (BitVec.ofNat 32 (sub b.zeroAreaEnd b.zeroAreaStart))
  let dataStartLength := sub b.zeroAreaStart b.start
  w.need maxSize 4
  let w := w.put (BitVec.ofNat 32 dataStartLength)
  w.need maxSize (aligned dataStartLength)
  let data ← Stop.of ((s.areas b.data).read b.start dataStartLength)
  let w := w.block dataStartLength data
  let dataEndLength := sub b.endPos b.zeroAreaEnd
  w.need maxSize 4
  let w := w.put (BitVec.ofNat 32 dataEndLength)
  w.need maxSize (aligned dataEndLength)
  let data ← Stop.of ((s.areas b.data).read b.zeroAreaStart dataEndLength)
  let w := w.block dataEndLength data
  return w.memory

end Buffer

/-! ## Reading -/

/-- `*p++`. -/
def takeWord : List Octet → Except Fault (BitVec 32 × List Octet)
  | a :: b :: c :: d :: rest => .ok (Octet.word32 d c b a, rest)
  | _ => .error .outOfRange

/-- The local variables of a function that deserializes: what is found from `p` on, and how much
of it is left. -/
structure PartReader where
  rest : List Octet
  sizeCheck : ℕ

namespace PartReader

/-- `NS_ASSERT (sizeCheck >= 4)`, and a word. -/
def word (r : PartReader) : Except Fault (BitVec 32 × PartReader) :=
  if r.sizeCheck < 4 then .error .assertFailed
  else do
    let (value, rest) ← takeWord r.rest
    return (value, ⟨rest, sub r.sizeCheck 4⟩)

/-- `NS_ASSERT (sizeCheck >= n)`, and `n` octets; `p` moves on by whole words. -/
def block (r : PartReader) (n : ℕ) : Except Fault (List Octet × PartReader) :=
  if r.sizeCheck < n then .error .assertFailed
  else if r.rest.length < n then .error .outOfRange
  else .ok (r.rest.take n, ⟨r.rest.drop (aligned n), sub r.sizeCheck (aligned n)⟩)

/-- `NS_ASSERT (sizeCheck == 0)`. -/
def done (r : PartReader) : Except Fault Unit :=
  if r.sizeCheck = 0 then .ok () else .error .assertFailed

/-- In `Packet::Deserialize`, the length of a section, which must not be more than what is left. -/
def length (r : PartReader) : Except Fault (ℕ × PartReader) := do
  let (value, rest) ← takeWord r.rest
  if r.sizeCheck < value.toNat then .error .assertFailed
  else return (value.toNat, ⟨rest, r.sizeCheck⟩)

/-- The step over a section, of which the length before it is a part. -/
def skip (r : PartReader) (n : ℕ) : PartReader :=
  ⟨r.rest.drop (aligned (sub n 4)), sub r.sizeCheck n⟩

end PartReader

namespace ByteTagList

/-- The loop of `Deserialize`. -/
def deserializeTags (tids : TypeIds) : ℕ → ByteTagList → ByteTagStore → PartReader →
    Except Fault (ByteTagList × ByteTagStore × PartReader)
  | 0, l, s, r => .ok (l, s, r)
  | n + 1, l, s, r => do
    let (hash, r) ← r.word
    let tid ← tids.lookupByHash hash
    let (bufferSize, r) ← r.word
    let (start, r) ← r.word
    let (stop, r) ← r.word
    let (data, r) ← r.block bufferSize.toNat
    let (buf, l, s) ← l.add s tid bufferSize.toNat start.toInt stop.toInt
    let (_, s) ← buf.write s data
    deserializeTags tids n l s r

/-- `Deserialize`; it returns 1 if the last assertion holds. -/
def deserialize (l : ByteTagList) (s : ByteTagStore) (tids : TypeIds) (octets : List Octet)
    (size : ℕ) : Except Fault (ByteTagList × ByteTagStore) := do
  let r : PartReader := ⟨octets, sub size 4⟩
  let (numberTagData, r) ← r.word
  let (l, s, r) ← deserializeTags tids numberTagData.toNat l s r
  r.done
  return (l, s)

end ByteTagList

namespace PacketTagList

/-- The loop of `Deserialize`; the first tag is linked to the list, any other to the one before. -/
def deserializeTags (tids : TypeIds) : ℕ → PacketTagList → TagLink → PartReader →
    Except Fault (PacketTagList × PartReader)
  | 0, l, _, r => .ok (l, r)
  | n + 1, l, prevTag, r => do
    let (tagSize, r) ← r.word
    let (hash, r) ← r.word
    let tid ← tids.lookupByHash hash
    let (data, r) ← r.block tagSize.toNat
    let (newTag, heap) ← l.heap.createTagData none ⟨tid, data⟩
    let l ← setLink ⟨l.next, heap⟩ prevTag (some newTag)
    deserializeTags tids n l (.next newTag) r

/-- `Deserialize`; it returns 1 if the last assertion holds. -/
def deserialize (l : PacketTagList) (tids : TypeIds) (octets : List Octet) (size : ℕ) :
    Except Fault PacketTagList := do
  let r : PartReader := ⟨octets, sub size 4⟩
  let (numberOfTags, r) ← r.word
  let (l, r) ← deserializeTags tids numberOfTags.toNat l .head r
  r.done
  return l

end PacketTagList

/-- `Buffer::Deserialize`; it returns 1 if the last assertion holds.  `garbage` is what the areas
that may be allocated held before. -/
def Buffer.deserialize (s : Store) (octets : List Octet) (size : ℕ) (garbage : ℕ → ℕ → Octet) :
    Except Fault (Buffer × Store) := do
  let r : PartReader := ⟨octets, sub size 4⟩
  let (zeroDataLength, r) ← r.word
  let b := initBuffer s zeroDataLength.toNat (garbage 0)
  let (dataStartLength, r) ← r.word
  let b ← b.1.addAtStart b.2 dataStartLength.toNat (garbage 1)
  let (data, r) ← r.block dataStartLength.toNat
  let store ← (b.1.iteratorAt 0).write b.2 (.write data)
  let (dataEndLength, r) ← r.word
  let b ← b.1.addAtEnd store dataEndLength.toNat (garbage 2)
  let (data, r) ← r.block dataEndLength.toNat
  let tmp ← b.1.fromEnd dataEndLength.toNat
  let store ← tmp.write b.2 (.write data)
  r.done
  return (b.1, store)

/-! ## Packets -/

namespace FullPacket

variable {ν μ : Type}

section

variable (p : FullPacket ν μ) (m : PacketMemory) (nixCodec : Codec ν) (metadataCodec : Codec μ)
  (tids : TypeIds)

/-- The packet tags, with the heap they are in. -/
def packetTags : PacketTagList := ⟨p.packetTagList, m.packetTags⟩

/-- What `GetSerializedSize` starts with. -/
def nixSize : ℕ :=
  match p.nixVector with
  | some nix => add (aligned (nixCodec.octets nix).length) 4
  | none => 4

def getSerializedSize : Except Fault ℕ := do
  let size := p.nixSize nixCodec
  let packetTagSize ← (p.packetTags m).getSerializedSize
  let size := add (add size (aligned packetTagSize)) 4
  let byteTagSize ← p.byteTagList.getSerializedSize m.byteTags
  let size := add (add size (aligned byteTagSize)) 4
  let size := add (add size (aligned (metadataCodec.octets p.metadata).length)) 4
  return add (add size (aligned p.buffer.getSerializedSize)) 4

/-- The first section of `Serialize`; without a nix vector it is a length alone. -/
def serializeNix (w : Writer) (maxSize : ℕ) : Except (Stop (ℕ → Octet)) Writer :=
  match p.nixVector with
  | some nix => w.part maxSize (nixCodec.octets nix).length (nixCodec.serialize nix)
  | none => do
    w.need maxSize 4
    return w.put 4

/-- `Serialize`, up to `return 1`. -/
def serializeParts (memory : ℕ → Octet) (maxSize : ℕ) :
    Except (Stop (ℕ → Octet)) (ℕ → Octet) := do
  let w : Writer := ⟨memory, 0, 0⟩
  let w ← p.serializeNix nixCodec w maxSize
  let byteTagSize ← Stop.of (p.byteTagList.getSerializedSize m.byteTags)
  let w ← w.part maxSize byteTagSize (p.byteTagList.serialize m.byteTags tids)
  let packetTagSize ← Stop.of (p.packetTags m).getSerializedSize
  let w ← w.part maxSize packetTagSize ((p.packetTags m).serialize tids)
  let w ← w.part maxSize (metadataCodec.octets p.metadata).length
    (metadataCodec.serialize p.metadata)
  let w ← w.part maxSize p.buffer.getSerializedSize (p.buffer.serialize m.buffers)
  return w.memory

/-- `Serialize`: whether it returns 1, and what is in memory then. -/
def serialize (memory : ℕ → Octet) (maxSize : ℕ) : Except Fault (Bool × (ℕ → Octet)) :=
  match p.serializeParts m nixCodec metadataCodec tids memory maxSize with
  | .ok memory => .ok (true, memory)
  | .error (.zero memory) => .ok (false, memory)
  | .error (.fault fault) => .error fault

/-- What `GetPacketTagIterator` shows. -/
def getPacketTags : Except Fault (List PacketTag) := (p.packetTags m).tags

/-- What `GetByteTagIterator` shows. -/
def getByteTags : Except Fault (List ShownTag) :=
  (Packet.mk p.buffer.getSize p.byteTagList).getByteTags m.byteTags

end

/-- What is read of a nix vector; there is none if the section is a length alone. -/
def deserializeNix (nixCodec : Codec ν) (r : PartReader) (nixSize : ℕ) :
    Except (Stop Unit) (Option ν × PartReader) :=
  if 4 < nixSize then
    match nixCodec.deserialize r.rest nixSize with
    | some nix => .ok (some nix, r.skip nixSize)
    | none => .error (.zero ())
  else .ok (none, ⟨r.rest, sub r.sizeCheck nixSize⟩)

/-- What is read of the metadata. -/
def deserializeMetadata (metadataCodec : Codec μ) (r : PartReader) (metaSize : ℕ) :
    Except (Stop Unit) (μ × PartReader) :=
  match metadataCodec.deserialize r.rest metaSize with
  | some metadata => .ok (metadata, r.skip metaSize)
  | none => .error (.zero ())

/-- `Deserialize` of a packet that is being constructed, and whether it returns 1. -/
def deserialize (m : PacketMemory) (nixCodec : Codec ν) (metadataCodec : Codec μ) (tids : TypeIds)
    (octets : List Octet) (size : ℕ) (garbage : ℕ → ℕ → Octet) :
    Except (Stop Unit) (Bool × FullPacket ν μ × PacketMemory) := do
  let r : PartReader := ⟨octets, size⟩
  let (nixSize, r) ← Stop.of r.length
  let (nixVector, r) ← deserializeNix nixCodec r nixSize
  let (byteTagSize, r) ← Stop.of r.length
  let (byteTagList, byteTags) ← Stop.of
    (ByteTagList.empty.deserialize m.byteTags tids r.rest byteTagSize)
  let r := r.skip byteTagSize
  let (packetTagSize, r) ← Stop.of r.length
  let l ← Stop.of (PacketTagList.deserialize ⟨none, m.packetTags⟩ tids r.rest packetTagSize)
  let r := r.skip packetTagSize
  let (metaSize, r) ← Stop.of r.length
  let (metadata, r) ← deserializeMetadata metadataCodec r metaSize
  let (bufSize, r) ← Stop.of r.length
  let (buffer, buffers) ← Stop.of (Buffer.deserialize m.buffers r.rest bufSize garbage)
  return (decide (sub r.sizeCheck bufSize = 0),
    ⟨buffer, byteTagList, l.next, metadata, nixVector⟩, ⟨buffers, byteTags, l.heap⟩)

/-- The constructor for a packet that was serialized.  What `Deserialize` returns is not looked
at; if it stops before the end, members are left as they were. -/
def construct (m : PacketMemory) (nixCodec : Codec ν) (metadataCodec : Codec μ) (tids : TypeIds)
    (octets : List Octet) (size : ℕ) (garbage : ℕ → ℕ → Octet) :
    Except (Stop Unit) (FullPacket ν μ × PacketMemory) :=
  (deserialize m nixCodec metadataCodec tids octets size garbage).map Prod.snd

end FullPacket

end Ns3Dsme.Network
