/-
# Byte tags in memory

A `ByteTagList` is the front of a storage area in which the tags stand one after the other, each
with a header of 16 octets.  Areas are shared between copies; a list appends in place only if
nobody else can have used the octets behind its own.  The range of a tag is relative to a position
that moves with the start of the packet.
-/
import Ns3Dsme.LrWpan.Basic
import Ns3Dsme.Lib.Overlay
import Ns3Dsme.Lib.Octets
import Ns3Dsme.Lib.Pool
import Ns3Dsme.Lib.Signed32
import Ns3Dsme.Lib.Word32

open Signed32

namespace Ns3Dsme.Network

/-! ## Storage -/

/-- `ByteTagListData`.  The memory at `data` has `capacity` octets, which `size` does not show. -/
structure ByteTagListData where
  size : ℕ
  count : ℕ
  dirty : ℕ
  capacity : ℕ
  data : ℕ → Octet

/-- The areas, with what memory holds before it is handed out, and `g_freeList` and `g_maxSize`.
The back of the free list is the head here. -/
structure ByteTagStore where
  areas : ℕ → ByteTagListData
  next : ℕ
  freeList : List ℕ
  maxSize : ℕ

namespace ByteTagStore

def setArea (s : ByteTagStore) (p : ℕ) (d : ByteTagListData) : ByteTagStore :=
  { s with areas := Function.update s.areas p d }

def setCount (s : ByteTagStore) (p count : ℕ) : ByteTagStore :=
  s.setArea p { s.areas p with count := count }

/-- `Allocate`. -/
def allocate (s : ByteTagStore) (size : ℕ) : ℕ × ByteTagStore :=
  match Pool.take (fun p => decide (size ≤ (s.areas p).size)) s.freeList with
  | (some p, rest) =>
    (p, { s.setArea p { s.areas p with count := 1, dirty := 0 } with freeList := rest })
  | (none, rest) =>
    (s.next, { s.setArea s.next ⟨size, 1, 0, max size s.maxSize, (s.areas s.next).data⟩ with
      freeList := rest, next := s.next + 1 })

/-- `Deallocate`; nothing happens to a null pointer. -/
def deallocate (s : ByteTagStore) : Option ℕ → ByteTagStore
  | none => s
  | some p =>
    let size := (s.areas p).size
    { s.setCount p ((s.areas p).count - 1) with
      maxSize := max s.maxSize size
      freeList :=
        if (s.areas p).count - 1 = 0 ∧ ¬ (1000 < s.freeList.length ∨ size < max s.maxSize size) then
          p :: s.freeList
        else s.freeList }

/-- `m_data->count++`. -/
def retain (s : ByteTagStore) : Option ℕ → ByteTagStore
  | none => s
  | some p => s.setCount p ((s.areas p).count + 1)

/-- `ReadU32` at a position. -/
def readU32 (s : ByteTagStore) (p pos : ℕ) : BitVec 32 :=
  Octet.word32 ((s.areas p).data (pos + 3)) ((s.areas p).data (pos + 2)) ((s.areas p).data (pos + 1))
    ((s.areas p).data pos)

end ByteTagStore

/-- `TagBuffer`: a range of an area. -/
structure TagBuffer where
  area : ℕ
  current : ℕ
  stop : ℕ

namespace TagBuffer

/-- Octets are written at the front. -/
def write (b : TagBuffer) (s : ByteTagStore) (bs : List Octet) :
    Except Fault (TagBuffer × ByteTagStore) :=
  if b.stop < b.current + bs.length then .error .assertFailed
  else if (s.areas b.area).capacity < b.current + bs.length then .error .outOfRange
  else .ok ({ b with current := b.current + bs.length },
    s.setArea b.area { s.areas b.area with
      data := Memory.write (s.areas b.area).data b.current bs })

/-- The octets of the range. -/
def octets (b : TagBuffer) (s : ByteTagStore) : List Octet :=
  Memory.span (s.areas b.area).data b.current (b.stop - b.current)

end TagBuffer

/-! ## Lists and their iterators -/

/-- The members of `ByteTagList`. -/
structure ByteTagList where
  minStart : ℤ
  maxEnd : ℤ
  adjustment : ℤ
  used : ℕ
  data : Option ℕ

/-- `ByteTagList::Iterator::Item`. -/
structure TagItem where
  tid : BitVec 16
  size : ℕ
  start : ℤ
  stop : ℤ
  buf : TagBuffer

/-- `ByteTagList::Iterator`; `current` and `stop` are positions in an area. -/
structure TagIterator where
  area : ℕ
  current : ℕ
  stop : ℕ
  offsetStart : ℤ
  offsetEnd : ℤ
  adjustment : ℤ
  nextTid : BitVec 16
  nextSize : ℕ
  nextStart : ℤ
  nextEnd : ℤ

namespace TagIterator

/-- The header of the tag at the current position. -/
def readNext (it : TagIterator) (s : ByteTagStore) : TagIterator :=
  { it with
    nextTid := (s.readU32 it.area it.current).setWidth 16
    nextSize := (s.readU32 it.area (it.current + 4)).toNat
    nextStart := wrap ((s.readU32 it.area (it.current + 8)).toNat + it.adjustment)
    nextEnd := wrap ((s.readU32 it.area (it.current + 12)).toNat + it.adjustment) }

def hasNext (it : TagIterator) : Bool := decide (it.current < it.stop)

/-- `PrepareForNext`: tags outside the range are skipped.  Each turn of the loop moves on by a
header at least. -/
def prepareForNext (s : ByteTagStore) : ℕ → TagIterator → Except Fault TagIterator
  | 0, it => .ok it
  | fuel + 1, it =>
    if it.hasNext then
      if it.stop < it.current + 16 then .error .assertFailed
      else
        let it := it.readNext s
        if it.offsetEnd ≤ it.nextStart ∨ it.nextEnd ≤ it.offsetStart then
          prepareForNext s fuel { it with current := it.current + (16 + it.nextSize) }
        else .ok it
    else .ok it

def next (it : TagIterator) (s : ByteTagStore) : Except Fault (TagItem × TagIterator) :=
  if it.hasNext then
    let current := it.current + 16
    if it.stop < current + it.nextSize then .error .assertFailed
    else
      let item : TagItem := ⟨it.nextTid, it.nextSize, max it.nextStart it.offsetStart,
        min it.nextEnd it.offsetEnd, ⟨it.area, current, current + it.nextSize⟩⟩
      (prepareForNext s it.stop { it with current := current + it.nextSize }).map fun it =>
        (item, it)
  else .error .assertFailed

end TagIterator

namespace ByteTagList

/-- The constructor. -/
def empty : ByteTagList := ⟨2 ^ 31 - 1, -2 ^ 31, 0, 0, none⟩

/-- `Begin`. -/
def beginAt (l : ByteTagList) (s : ByteTagStore) (offsetStart offsetEnd : ℤ) :
    Except Fault TagIterator :=
  match l.data with
  | none => .ok ⟨0, 0, 0, offsetStart, offsetEnd, 0, 0, 0, 0, 0⟩
  | some p => TagIterator.prepareForNext s l.used
    ⟨p, 0, l.used, offsetStart, offsetEnd, l.adjustment, 0, 0, 0, 0⟩

def beginAll (l : ByteTagList) (s : ByteTagStore) : Except Fault TagIterator :=
  l.beginAt s 0 (2 ^ 31 - 1)

def adjust (l : ByteTagList) (adjustment : ℤ) : ByteTagList :=
  { l with adjustment := wrap (l.adjustment + adjustment) }

/-- The first part of `Add`: an area with room, and how much of it is used. -/
def room (l : ByteTagList) (s : ByteTagStore) (spaceNeeded : ℕ) : ℕ × ℕ × ByteTagStore :=
  match l.data with
  | none =>
    let r := s.allocate spaceNeeded
    (r.1, 0, r.2)
  | some p =>
    if (s.areas p).size < spaceNeeded ∨ (s.areas p).count ≠ 1 ∧ (s.areas p).dirty ≠ l.used then
      let r := s.allocate spaceNeeded
      let copied := Memory.write (r.2.areas r.1).data 0 (Memory.span (r.2.areas p).data 0 l.used)
      (r.1, l.used, (r.2.setArea r.1 { r.2.areas r.1 with data := copied }).deallocate (some p))
    else (p, l.used, s)

/-- The header that `Add` writes. -/
def header (l : ByteTagList) (tid : BitVec 16) (bufferSize : ℕ) (start stop : ℤ) : List Octet :=
  Octet.lowFirst32 (tid.setWidth 32) ++ Octet.lowFirst32 (BitVec.ofNat 32 bufferSize) ++
    Octet.lowFirst32 (BitVec.ofInt 32 (start - l.adjustment)) ++
    Octet.lowFirst32 (BitVec.ofInt 32 (stop - l.adjustment))

/-- `Add`; the buffer is for the content of the tag. -/
def add (l : ByteTagList) (s : ByteTagStore) (tid : BitVec 16) (bufferSize : ℕ) (start stop : ℤ) :
    Except Fault (TagBuffer × ByteTagList × ByteTagStore) :=
  let spaceNeeded := Word32.add l.used (bufferSize + 16)
  if spaceNeeded < l.used then .error .assertFailed
  else
    let r := l.room s spaceNeeded
    (TagBuffer.write ⟨r.1, r.2.1, spaceNeeded⟩ r.2.2 (l.header tid bufferSize start stop)).map
      fun w =>
        (w.1, { l with
            minStart := min l.minStart (wrap (start - l.adjustment))
            maxEnd := max l.maxEnd (wrap (stop - l.adjustment))
            used := spaceNeeded
            data := some r.1 },
          w.2.setArea r.1 { w.2.areas r.1 with dirty := spaceNeeded })

/-- `Add` and `CopyFrom`. -/
def addItem (l : ByteTagList) (s : ByteTagStore) (item : TagItem) :
    Except Fault (ByteTagList × ByteTagStore) := do
  let (buf, l, s) ← l.add s item.tid item.size item.start item.stop
  let (_, s) ← buf.write s (item.buf.octets s)
  return (l, s)

/-- The loops over the tags of a list that add them to another one, after a look at their ranges.
Each turn moves the iterator on. -/
def addEach (clip : ℤ × ℤ → Option (ℤ × ℤ)) :
    ℕ → ByteTagList → ByteTagStore → TagIterator → Except Fault (ByteTagList × ByteTagStore)
  | 0, l, s, _ => .ok (l, s)
  | fuel + 1, l, s, it =>
    if it.hasNext then do
      let (item, it) ← it.next s
      match clip (item.start, item.stop) with
      | none => addEach clip fuel l s it
      | some (start, stop) =>
        let (l, s) ← l.addItem s { item with start := start, stop := stop }
        addEach clip fuel l s it
    else .ok (l, s)

/-- The loop over the tags of a list. -/
def addFrom (clip : ℤ × ℤ → Option (ℤ × ℤ)) (l : ByteTagList) (s : ByteTagStore) (o : ByteTagList) :
    Except Fault (ByteTagList × ByteTagStore) := do
  let it ← o.beginAll s
  addEach clip o.used l s it

/-- `Add (o)`. -/
def addAll (l : ByteTagList) (s : ByteTagStore) (o : ByteTagList) :
    Except Fault (ByteTagList × ByteTagStore) :=
  addFrom some l s o

/-- What `AddAtEnd` does with the range of a tag. -/
def clipEnd (appendOffset : ℤ) (range : ℤ × ℤ) : Option (ℤ × ℤ) :=
  if appendOffset ≤ range.1 then none
  else some (range.1, min range.2 appendOffset)

/-- What `AddAtStart` does with the range of a tag. -/
def clipStart (prependOffset : ℤ) (range : ℤ × ℤ) : Option (ℤ × ℤ) :=
  if range.2 ≤ prependOffset then none
  else some (max range.1 prependOffset, range.2)

/-- The new list of `AddAtEnd` and `AddAtStart`, assigned to this one and then destroyed. -/
def rebuild (l : ByteTagList) (s : ByteTagStore) (clip : ℤ × ℤ → Option (ℤ × ℤ)) :
    Except Fault (ByteTagList × ByteTagStore) :=
  (addFrom clip empty s l).map fun r =>
    (r.1, ((r.2.deallocate l.data).retain r.1.data).deallocate r.1.data)

/-- `AddAtEnd`.  What its loop does to `m_maxEnd` is overwritten. -/
def addAtEnd (l : ByteTagList) (s : ByteTagStore) (appendOffset : ℤ) :
    Except Fault (ByteTagList × ByteTagStore) :=
  if l.maxEnd ≤ wrap (appendOffset - l.adjustment) then .ok (l, s)
  else l.rebuild s (clipEnd appendOffset)

/-- `AddAtStart`.  What it does to `m_minStart` is overwritten. -/
def addAtStart (l : ByteTagList) (s : ByteTagStore) (prependOffset : ℤ) :
    Except Fault (ByteTagList × ByteTagStore) :=
  if wrap (prependOffset - l.adjustment) ≤ l.minStart then .ok (l, s)
  else l.rebuild s (clipStart prependOffset)

end ByteTagList

/-! ## Tags as they are stored -/

/-- A tag with its range relative to the adjustment. -/
structure TagRecord where
  tid : BitVec 16
  start : ℤ
  stop : ℤ
  content : List Octet
  deriving DecidableEq

namespace TagRecord

/-- The header and the content. -/
def octets (r : TagRecord) : List Octet :=
  (Octet.lowFirst32 (r.tid.setWidth 32) ++ Octet.lowFirst32 (BitVec.ofNat 32 r.content.length) ++
    Octet.lowFirst32 (BitVec.ofInt 32 r.start) ++ Octet.lowFirst32 (BitVec.ofInt 32 r.stop)) ++
    r.content

/-- The record is one that a header can tell. -/
structure Good (r : TagRecord) : Prop where
  start_le : r.start ≤ r.stop
  start : InRange r.start
  stop : InRange r.stop
  length : r.content.length < 2 ^ 32

/-- Whether a tag covers a position of the packet. -/
def Covers (adjustment : ℤ) (r : TagRecord) (i : ℕ) : Prop :=
  r.start + adjustment ≤ i ∧ (i : ℤ) < r.stop + adjustment

instance (adjustment : ℤ) (r : TagRecord) (i : ℕ) : Decidable (r.Covers adjustment i) :=
  inferInstanceAs (Decidable (_ ∧ _))

theorem length_octets (r : TagRecord) : r.octets.length = 16 + r.content.length := by
  unfold octets
  rw [List.length_append]
  rfl

end TagRecord

/-- The octets of all records. -/
def octetsOf (rs : List TagRecord) : List Octet := rs.flatMap TagRecord.octets

@[simp] theorem octetsOf_nil : octetsOf [] = [] := rfl

theorem octetsOf_cons (r : TagRecord) (rs : List TagRecord) :
    octetsOf (r :: rs) = r.octets ++ octetsOf rs := rfl

theorem octetsOf_append (rs rs' : List TagRecord) :
    octetsOf (rs ++ rs') = octetsOf rs ++ octetsOf rs' :=
  List.flatMap_append

theorem length_le_octetsOf (rs : List TagRecord) : rs.length ≤ (octetsOf rs).length := by
  induction rs with
  | nil => exact le_refl _
  | cons r rest ih =>
    rw [octetsOf_cons, List.length_append, List.length_cons, r.length_octets]
    omega

end Ns3Dsme.Network
