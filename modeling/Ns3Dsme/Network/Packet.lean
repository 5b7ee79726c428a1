/-
# Byte tags stick to their bytes

A packet is a buffer and a byte tag list, whose ranges move with the start of the buffer.  Each byte
has the tags that were attached to it, whatever is done to the packet or to its copies.

The ranges are kept in signed words of 32 bits, but given and asked for in unsigned ones.
-/
import Ns3Dsme.Network.TagCoverage
import Ns3Dsme.Lib.Machine
import Ns3Dsme.Lib.Slots

open Program Signed32

namespace Ns3Dsme.Network

/-! ## Packets -/

/-- A packet: how many bytes its buffer shows, and its byte tags. -/
structure Packet where
  size : ℕ
  byteTagList : ByteTagList

/-- `ByteTagIterator::Item`, with the tag that `GetTag` deserializes. -/
structure ShownTag where
  tag : ByteTag
  start : ℕ
  stop : ℕ
  deriving DecidableEq

namespace Packet

/-- The loop over a `ByteTagIterator`. -/
def shownTags (s : ByteTagStore) : ℕ → TagIterator → Except Fault (List ShownTag)
  | 0, _ => .ok []
  | fuel + 1, it =>
    if it.hasNext then do
      let (item, it) ← it.next s
      let rest ← shownTags s fuel it
      return ⟨⟨item.tid, item.buf.octets s⟩, ((item.start - it.offsetStart) % 2 ^ 32).toNat,
        ((item.stop - it.offsetStart) % 2 ^ 32).toNat⟩ :: rest
    else .ok []

/-- What `GetByteTagIterator` shows. -/
def getByteTags (p : Packet) (s : ByteTagStore) : Except Fault (List ShownTag) := do
  let it ← p.byteTagList.beginAt s 0 (wrap p.size)
  shownTags s p.byteTagList.used it

/-- A tag is added and serialized. -/
def addTag (p : Packet) (s : ByteTagStore) (tag : ByteTag) (start stop : ℤ) :
    Except Fault (Packet × ByteTagStore) := do
  let (buf, l, s) ← p.byteTagList.add s tag.tid tag.content.length start stop
  let (_, s) ← buf.write s tag.content
  return ({ p with byteTagList := l }, s)

/-- `AddByteTag` for all bytes. -/
def addByteTag (p : Packet) (s : ByteTagStore) (tag : ByteTag) :
    Except Fault (Packet × ByteTagStore) :=
  p.addTag s tag 0 (wrap p.size)

/-- `AddByteTag` for a range. -/
def addByteTagRange (p : Packet) (s : ByteTagStore) (tag : ByteTag) (start stop : ℕ) :
    Except Fault (Packet × ByteTagStore) :=
  if stop < start then .error .fatalError
  else p.addTag s tag (wrap start) (wrap stop)

/-- `AddHeader`; the header is as long as `size` says. -/
def addHeader (p : Packet) (s : ByteTagStore) (size : ℕ) : Except Fault (Packet × ByteTagStore) :=
  ((p.byteTagList.adjust (wrap size)).addAtStart s (wrap size)).map fun r =>
    (⟨Word32.add p.size size, r.1⟩, r.2)

def removeAtStart (p : Packet) (size : ℕ) : Packet :=
  ⟨p.size - size, p.byteTagList.adjust (wrap (-size))⟩

/-- `RemoveHeader`, for the size that `Deserialize` returns. -/
def removeHeader (p : Packet) (deserialized : ℕ) : Packet :=
  ⟨p.size - deserialized, p.byteTagList.adjust (wrap (-deserialized))⟩

def addPaddingAtEnd (p : Packet) (s : ByteTagStore) (size : ℕ) :
    Except Fault (Packet × ByteTagStore) :=
  (p.byteTagList.addAtEnd s (wrap p.size)).map fun r => (⟨Word32.add p.size size, r.1⟩, r.2)

/-- `AddTrailer`; the trailer is as long as `size` says. -/
def addTrailer (p : Packet) (s : ByteTagStore) (size : ℕ) : Except Fault (Packet × ByteTagStore) :=
  (p.byteTagList.addAtEnd s (wrap p.size)).map fun r => (⟨Word32.add p.size size, r.1⟩, r.2)

def removeAtEnd (p : Packet) (size : ℕ) : Packet := { p with size := p.size - size }

/-- `RemoveTrailer`, for the size that `Deserialize` returns. -/
def removeTrailer (p : Packet) (deserialized : ℕ) : Packet :=
  { p with size := p.size - deserialized }

/-- `AddAtEnd`; the copy of the other packet's tags is destroyed at the end. -/
def addAtEnd (p : Packet) (s : ByteTagStore) (o : Packet) :
    Except Fault (Packet × ByteTagStore) := do
  let (l, s) ← p.byteTagList.addAtEnd s (wrap p.size)
  let (copy, s) ← o.byteTagList.addAtStart (s.retain o.byteTagList.data) 0
  let copy := copy.adjust (wrap p.size)
  let (l, s) ← l.addAll s copy
  return (⟨Word32.add p.size o.size, l⟩, s.deallocate copy.data)

/-- `Copy`. -/
def copy (p : Packet) (s : ByteTagStore) : Packet × ByteTagStore := (p, s.retain p.byteTagList.data)

def createFragment (p : Packet) (s : ByteTagStore) (start length : ℕ) :
    Except Fault (Packet × ByteTagStore) :=
  if p.size < Word32.add start length then .error .assertFailed
  else .ok (⟨length, p.byteTagList.adjust (wrap (-start))⟩, s.retain p.byteTagList.data)

/-- The destructor. -/
def destroy (p : Packet) (s : ByteTagStore) : ByteTagStore := s.deallocate p.byteTagList.data

end Packet

/-! ## Packets with the tags of their bytes -/

/-- A packet, and for each byte the tags that were attached to it. -/
structure TaggedPacket where
  packet : Packet
  ref : List (List ByteTag)

/-- The storage and the packets; a packet that was destroyed leaves its place empty. -/
structure Packets where
  store : ByteTagStore
  slots : List (Option TaggedPacket)

/-- The operations on packets. -/
inductive PacketCall
  | construct (size : ℕ)
  | copy (o : ℕ)
  | createFragment (o start length : ℕ)
  | destroy (b : ℕ)
  | addByteTag (b : ℕ) (tag : ByteTag)
  | addByteTagRange (b : ℕ) (tag : ByteTag) (start stop : ℕ)
  | addHeader (b size : ℕ)
  | removeHeader (b deserialized : ℕ)
  | addTrailer (b size : ℕ)
  | removeTrailer (b deserialized : ℕ)
  | addAtEnd (b o : ℕ)
  | addPaddingAtEnd (b size : ℕ)
  | removeAtStart (b size : ℕ)
  | removeAtEnd (b size : ℕ)

/-- A tag is attached to the bytes of a range. -/
def attach (ref : List (List ByteTag)) (tag : ByteTag) (start stop : ℕ) : List (List ByteTag) :=
  ref.mapIdx fun i tags => if start ≤ i ∧ i < stop then tags ++ [tag] else tags

namespace Packets

/-- Before the first packet; `memory` is what memory holds. -/
def start (memory : ℕ → ℕ → Octet) : Packets :=
  ⟨⟨fun p => ⟨0, 0, 0, 0, memory p⟩, 0, [], 0⟩, []⟩

def slot (w : Packets) (b : ℕ) : Option TaggedPacket := Slots.slot w.slots b

def setSlot (w : Packets) (b : ℕ) (p : Packet) (ref : List (List ByteTag)) (store : ByteTagStore) :
    Packets :=
  ⟨store, w.slots.set b (some ⟨p, ref⟩)⟩

def addSlot (w : Packets) (p : Packet) (ref : List (List ByteTag)) (store : ByteTagStore) :
    Packets :=
  ⟨store, w.slots ++ [some ⟨p, ref⟩]⟩

/-- An operation on one packet that is there. -/
def withSlot (w : Packets) (b : ℕ) (f : TaggedPacket → Except Fault Packets) :
    Except Fault Packets :=
  match w.slot b with
  | some p => f p
  | none => .error .nullPacket

/-- One operation, and what it does to the tags of the bytes. -/
def step (w : Packets) : PacketCall → Except Fault Packets
  | .construct size => .ok (w.addSlot ⟨size, .empty⟩ (List.replicate size []) w.store)
  | .copy o => w.withSlot o fun p =>
    .ok (w.addSlot (p.packet.copy w.store).1 p.ref (p.packet.copy w.store).2)
  | .createFragment o start length => w.withSlot o fun p =>
    (p.packet.createFragment w.store start length).map fun r =>
      w.addSlot r.1 ((p.ref.drop start).take length) r.2
  | .destroy b => w.withSlot b fun p => .ok ⟨p.packet.destroy w.store, w.slots.set b none⟩
  | .addByteTag b tag => w.withSlot b fun p => (p.packet.addByteTag w.store tag).map fun r =>
    w.setSlot b r.1 (attach p.ref tag 0 p.ref.length) r.2
  | .addByteTagRange b tag start stop => w.withSlot b fun p =>
    (p.packet.addByteTagRange w.store tag start stop).map fun r =>
      w.setSlot b r.1 (attach p.ref tag start stop) r.2
  | .addHeader b size => w.withSlot b fun p => (p.packet.addHeader w.store size).map fun r =>
    w.setSlot b r.1 (List.replicate size [] ++ p.ref) r.2
  | .removeHeader b deserialized => w.withSlot b fun p =>
    .ok (w.setSlot b (p.packet.removeHeader deserialized) (p.ref.drop deserialized) w.store)
  | .addTrailer b size => w.withSlot b fun p => (p.packet.addTrailer w.store size).map fun r =>
    w.setSlot b r.1 (p.ref ++ List.replicate size []) r.2
  | .removeTrailer b deserialized => w.withSlot b fun p =>
    .ok (w.setSlot b (p.packet.removeTrailer deserialized)
      (p.ref.take (p.ref.length - deserialized)) w.store)
  | .addAtEnd b o => w.withSlot b fun p => w.withSlot o fun q =>
    (p.packet.addAtEnd w.store q.packet).map fun r => w.setSlot b r.1 (p.ref ++ q.ref) r.2
  | .addPaddingAtEnd b size => w.withSlot b fun p =>
    (p.packet.addPaddingAtEnd w.store size).map fun r =>
      w.setSlot b r.1 (p.ref ++ List.replicate size []) r.2
  | .removeAtStart b size => w.withSlot b fun p =>
    .ok (w.setSlot b (p.packet.removeAtStart size) (p.ref.drop size) w.store)
  | .removeAtEnd b size => w.withSlot b fun p =>
    .ok (w.setSlot b (p.packet.removeAtEnd size) (p.ref.take (p.ref.length - size)) w.store)

/-- What the program may do: the packets are there, sizes are words of 32 bits, a range does not end
before it starts, a fragment is inside its packet, and what is added at the end of a packet is
another one. -/
def Enabled (w : Packets) : PacketCall → Prop
  | .construct size => size < 2 ^ 32
  | .copy o => ∃ p, w.slot o = some p
  | .createFragment o start length => ∃ p, w.slot o = some p ∧ start + length ≤ p.packet.size
  | .destroy b => ∃ p, w.slot b = some p
  | .addByteTag b _ => ∃ p, w.slot b = some p
  | .addByteTagRange b _ start stop => start ≤ stop ∧ stop < 2 ^ 32 ∧ ∃ p, w.slot b = some p
  | .addHeader b size => size < 2 ^ 32 ∧ ∃ p, w.slot b = some p
  | .removeHeader b deserialized => deserialized < 2 ^ 32 ∧ ∃ p, w.slot b = some p
  | .addTrailer b size => size < 2 ^ 32 ∧ ∃ p, w.slot b = some p
  | .removeTrailer b deserialized => deserialized < 2 ^ 32 ∧ ∃ p, w.slot b = some p
  | .addAtEnd b o => b ≠ o ∧ (∃ p, w.slot b = some p) ∧ ∃ q, w.slot o = some q
  | .addPaddingAtEnd b size => size < 2 ^ 32 ∧ ∃ p, w.slot b = some p
  | .removeAtStart b size => size < 2 ^ 32 ∧ ∃ p, w.slot b = some p
  | .removeAtEnd b size => size < 2 ^ 32 ∧ ∃ p, w.slot b = some p

def machine : Machine Packets PacketCall Fault where
  enabled := Enabled
  step := step

end Packets

/-- The positions of all tags stay in signed words of 32 bits when they move by `n`. -/
def ByteTagList.Moves (l : ByteTagList) (s : ByteTagStore) (n : ℤ) : Prop :=
  InRange n ∧ InRange (l.adjustment + n) ∧
    ∀ r ∈ l.records s, InRange (r.start + l.adjustment + n) ∧ InRange (r.stop + l.adjustment + n)

/-- A range can be stored, and there is room for the tag. -/
def ByteTagList.Accepts (l : ByteTagList) (tag : ByteTag) (start stop : ℕ) : Prop :=
  stop < 2 ^ 31 ∧ InRange (start - l.adjustment) ∧ InRange (stop - l.adjustment) ∧
    l.used + (tag.content.length + 16) < 2 ^ 32

namespace Packets

/-- Sizes and ranges are below `2 ^ 31`, the positions that the call computes stay in signed words
of 32 bits, and the tags fit in `2 ^ 32` octets. -/
def FitsInWords (w : Packets) : PacketCall → Prop
  | .construct size => size < 2 ^ 31
  | .copy _ => True
  | .createFragment o start _ => ∀ p, w.slot o = some p →
    p.packet.byteTagList.Moves w.store (-start)
  | .destroy _ => True
  | .addByteTag b tag => ∀ p, w.slot b = some p → p.packet.byteTagList.Accepts tag 0 p.packet.size
  | .addByteTagRange b tag start stop => ∀ p, w.slot b = some p →
    p.packet.byteTagList.Accepts tag start stop
  | .addHeader b size => ∀ p, w.slot b = some p → p.packet.size + size < 2 ^ 31 ∧
    p.packet.byteTagList.Moves w.store size ∧ InRange (-p.packet.byteTagList.adjustment)
  | .removeHeader b deserialized => ∀ p, w.slot b = some p →
    p.packet.byteTagList.Moves w.store (-deserialized)
  | .addTrailer b size => ∀ p, w.slot b = some p → p.packet.size + size < 2 ^ 31 ∧
    InRange (p.packet.size - p.packet.byteTagList.adjustment)
  | .removeTrailer _ _ => True
  | .addAtEnd b o => ∀ p, w.slot b = some p → ∀ q, w.slot o = some q →
    p.packet.size + q.packet.size < 2 ^ 31 ∧
    InRange (p.packet.size - p.packet.byteTagList.adjustment) ∧
    InRange (-q.packet.byteTagList.adjustment) ∧
    InRange (q.packet.byteTagList.adjustment + p.packet.size) ∧
    p.packet.byteTagList.used + q.packet.byteTagList.used < 2 ^ 32 ∧
    ∀ r ∈ q.packet.byteTagList.records w.store, 0 < r.stop + q.packet.byteTagList.adjustment →
      InRange (r.stop + q.packet.byteTagList.adjustment + p.packet.size) ∧
      InRange (r.stop + q.packet.byteTagList.adjustment + p.packet.size -
        p.packet.byteTagList.adjustment)
  | .addPaddingAtEnd b size => ∀ p, w.slot b = some p → p.packet.size + size < 2 ^ 31 ∧
    InRange (p.packet.size - p.packet.byteTagList.adjustment)
  | .removeAtStart b size => ∀ p, w.slot b = some p → p.packet.byteTagList.Moves w.store (-size)
  | .removeAtEnd _ _ => True

/-- The condition of a call.  An area that gets another list can count it in 32 bits. -/
def Fits (w : Packets) (c : PacketCall) : Prop :=
  (∀ p < w.store.next, (w.store.areas p).count < 2 ^ 32 - 1) ∧ w.FitsInWords c

/-- What is promised of a packet: for each byte, the tags that are shown to cover it are those that
were attached to it, in order. -/
structure TagsOk (s : ByteTagStore) (p : TaggedPacket) : Prop where
  length : p.ref.length = p.packet.size
  tags : ∃ shown, p.packet.getByteTags s = .ok shown ∧ ∀ i < p.packet.size,
    p.ref[i]? = some ((shown.filter fun t => decide (t.start ≤ i ∧ i < t.stop)).map ShownTag.tag)

/-- What is promised of a state that a run reaches: all this of each packet, and that the next call
goes through. -/
structure Sticky (w : Packets) : Prop where
  ok : ∀ b p, w.slot b = some p → TagsOk w.store p
  progress : ∀ c, w.Enabled c → w.Fits c → ∃ w', w.step c = .ok w'

end Packets

end Ns3Dsme.Network
