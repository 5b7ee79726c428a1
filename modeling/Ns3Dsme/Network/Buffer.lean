/-
# Packet buffers

A `Buffer` is a range of a storage area that other buffers may share, with an area of zeroes in
the middle that is not stored.  Positions count the zeroes; behind them, a byte lies before its
position in the storage.  The storage carries the range that any of its buffers may use, in
which only the buffer at its edge may grow in place.
-/
import Ns3Dsme.LrWpan.Basic
import Ns3Dsme.Lib.Octets
import Ns3Dsme.Lib.Word32
import Ns3Dsme.Lib.Program

namespace Ns3Dsme.Network

/-! ## Storage -/

/-- `Buffer::Data`.  The memory behind `m_data` has `capacity` bytes, which `m_size` does not
show. -/
structure Data where
  count : ℕ
  size : ℕ
  dirtyStart : ℕ
  dirtyEnd : ℕ
  capacity : ℕ
  bytes : ℕ → Octet

namespace Data

/-- The bytes that `Allocate` leaves for `m_data`: the structure has 20, of which 16 are
before it. -/
def allocated (reqSize : ℕ) : ℕ := Word32.add (reqSize - 1) 20 - 16

/-- `Allocate`; what the memory held before is found in it. -/
def allocate (reqSize : ℕ) (garbage : ℕ → Octet) : Data where
  count := 1
  size := max reqSize 1
  dirtyStart := 0
  dirtyEnd := 0
  capacity := allocated (max reqSize 1)
  bytes := garbage

/-- Bytes from a position on; where there are none, the position does not matter. -/
def overwrite (d : Data) (pos : ℕ) (bs : List Octet) : Except Fault Data :=
  if bs.length = 0 ∨ pos + bs.length ≤ d.capacity then
    .ok { d with
      bytes := fun p => if pos ≤ p ∧ p < pos + bs.length then bs.getD (p - pos) 0 else d.bytes p }
  else .error .outOfRange

/-- `memcpy` from another area; where nothing is copied, the positions do not matter. -/
def copyFrom (d : Data) (pos : ℕ) (src : Data) (start len : ℕ) : Except Fault Data :=
  if len = 0 then .ok d
  else if start + len ≤ src.capacity then
    d.overwrite pos ((List.range len).map fun i => src.bytes (start + i))
  else .error .outOfRange

/-- The range of the area that buffers use. -/
def setDirty (d : Data) (dirtyStart dirtyEnd : ℕ) : Data :=
  { d with dirtyStart := dirtyStart, dirtyEnd := dirtyEnd }

end Data

/-- The areas, and the global variables of `Buffer`.  The list is empty until the first buffer
is created; its back is the head here. -/
structure Store where
  areas : ℕ → Data
  next : ℕ
  freeList : List ℕ
  maxSize : ℕ
  recommendedStart : ℕ

namespace Store

/-- Write an area. -/
def setArea (s : Store) (p : ℕ) (d : Data) : Store :=
  { s with areas := Function.update s.areas p d }

/-- The loop of `Create`: what is too small is deallocated. -/
def takeFree (areas : ℕ → Data) (dataSize : ℕ) : List ℕ → Option ℕ × List ℕ
  | [] => (none, [])
  | p :: rest =>
    if dataSize ≤ (areas p).size then (some p, rest) else takeFree areas dataSize rest

/-- `Create`: a free area that is large enough, or a new one. -/
def create (s : Store) (dataSize : ℕ) (garbage : ℕ → Octet) : ℕ × Store :=
  match takeFree s.areas dataSize s.freeList with
  | (some p, rest) =>
    (p, { s.setArea p { s.areas p with count := 1 } with freeList := rest })
  | (none, rest) =>
    (s.next, { s.setArea s.next (Data.allocate dataSize garbage) with
      freeList := rest, next := s.next + 1 })

/-- `Recycle`: the area is kept if none before was larger. -/
def recycle (s : Store) (p : ℕ) : Store :=
  { s with
    maxSize := max s.maxSize (s.areas p).size
    freeList :=
      if (s.areas p).size < max s.maxSize (s.areas p).size ∨ 1000 < s.freeList.length then
        s.freeList
      else p :: s.freeList }

/-- Write the number of references. -/
def setCount (s : Store) (p count : ℕ) : Store :=
  s.setArea p { s.areas p with count := count }

/-- `m_data->m_count--`, and `Recycle` if that was the last reference. -/
def release (s : Store) (p : ℕ) : Store :=
  if (s.areas p).count - 1 = 0 then (s.setCount p 0).recycle p
  else s.setCount p ((s.areas p).count - 1)

/-- `m_data->m_count++`. -/
def retain (s : Store) (p : ℕ) : Store := s.setCount p ((s.areas p).count + 1)

/-- The start that the next buffer is given. -/
def recommend (s : Store) (maxZeroAreaStart : ℕ) : Store :=
  { s with recommendedStart := max s.recommendedStart maxZeroAreaStart }

end Store

/-! ## Buffers -/

/-- The members of `Buffer`; `data` is the number of the area. -/
structure Buffer where
  data : ℕ
  maxZeroAreaStart : ℕ
  zeroAreaStart : ℕ
  zeroAreaEnd : ℕ
  start : ℕ
  endPos : ℕ

namespace Buffer

/-- `GetSize`, with the zero area. -/
def getSize (b : Buffer) : ℕ := Word32.sub b.endPos b.start

/-- `GetInternalSize`, without it. -/
def getInternalSize (b : Buffer) : ℕ :=
  Word32.sub (Word32.add (Word32.sub b.zeroAreaStart b.start) b.endPos) b.zeroAreaEnd

/-- `GetInternalEnd`: where the stored bytes end. -/
def getInternalEnd (b : Buffer) : ℕ :=
  Word32.sub b.endPos (Word32.sub b.zeroAreaEnd b.zeroAreaStart)

/-- `m_maxZeroAreaStart = std::max (m_maxZeroAreaStart, m_zeroAreaStart)`. -/
def noteMax (b : Buffer) : Buffer :=
  { b with maxZeroAreaStart := max b.maxZeroAreaStart b.zeroAreaStart }

/-- `Initialize`. -/
def initBuffer (s : Store) (zeroSize : ℕ) (garbage : ℕ → Octet) : Buffer × Store :=
  let r := s.create 0 garbage
  let start := min (r.2.areas r.1).size r.2.recommendedStart
  let b : Buffer := ⟨r.1, start, start, Word32.add start zeroSize, start, Word32.add start zeroSize⟩
  (b, r.2.setArea r.1 ((r.2.areas r.1).setDirty b.start b.endPos))

/-- The copy constructor. -/
def copy (s : Store) (o : Buffer) : Buffer × Store :=
  ({ o with maxZeroAreaStart := o.zeroAreaStart }, s.retain o.data)

/-- `operator=`. -/
def assign (s : Store) (b o : Buffer) : Buffer × Store :=
  let s := if b.data = o.data then s else (s.release b.data).retain o.data
  (o, s.recommend b.maxZeroAreaStart)

/-- The destructor. -/
def destroy (s : Store) (b : Buffer) : Store :=
  (s.recommend b.maxZeroAreaStart).release b.data

/-- All positions but the area, moved by `delta` in 32 bits. -/
def shift (b : Buffer) (delta : ℕ) : Buffer :=
  { b with
    start := Word32.add b.start delta
    zeroAreaStart := Word32.add b.zeroAreaStart delta
    zeroAreaEnd := Word32.add b.zeroAreaEnd delta
    endPos := Word32.add b.endPos delta }

/-- The part of `AddAtStart` and `AddAtEnd` for which the area is too small or dirty: the stored
bytes move to position `pos` of a new one. -/
def reallocate (s : Store) (b : Buffer) (newSize pos : ℕ) (garbage : ℕ → Octet) :
    Except Fault (ℕ × Store) :=
  let r := s.create newSize garbage
  ((r.2.areas r.1).copyFrom pos (r.2.areas b.data) b.start b.getInternalSize).map fun d =>
    (r.1, (r.2.setArea r.1 d).release b.data)

/-- The positions after `AddAtStart` moved to a new area. -/
def movedAtStart (b : Buffer) (start p : ℕ) : Buffer :=
  let b := b.shift (Word32.sub start b.start)
  { b with data := p, start := Word32.sub b.start start }

/-- The positions after `AddAtEnd` moved to a new area. -/
def movedAtEnd (b : Buffer) (endSize p : ℕ) : Buffer :=
  let b := b.shift (Word32.sub 0 b.start)
  { b with data := p, endPos := Word32.add b.endPos endSize }

/-- The dirty area of the new buffer's storage becomes its range. -/
def markDirty (s : Store) (b : Buffer) : Store :=
  s.setArea b.data ((s.areas b.data).setDirty b.start b.endPos)

/-- `AddAtStart`: in place if no other buffer uses the bytes before. -/
def addAtStart (s : Store) (b : Buffer) (start : ℕ) (garbage : ℕ → Octet) :
    Except Fault (Buffer × Store) :=
  let d := s.areas b.data
  if start ≤ b.start ∧ ¬ (1 < d.count ∧ d.dirtyStart < b.start) then
    if d.count = 1 ∨ b.start = d.dirtyStart then
      let b := { b with start := b.start - start }
      .ok (b.noteMax, s.setArea b.data (d.setDirty b.start d.dirtyEnd))
    else .error .assertFailed
  else
    (b.reallocate s (Word32.add b.getInternalSize start) start garbage).map fun r =>
      let b := b.movedAtStart start r.1
      (b.noteMax, b.markDirty r.2)

/-- `AddAtEnd`: in place if no other buffer uses the bytes behind. -/
def addAtEnd (s : Store) (b : Buffer) (endSize : ℕ) (garbage : ℕ → Octet) :
    Except Fault (Buffer × Store) :=
  let d := s.areas b.data
  if Word32.add b.getInternalEnd endSize ≤ d.size ∧
      ¬ (1 < d.count ∧ b.endPos < d.dirtyEnd) then
    if d.count = 1 ∨ b.endPos = d.dirtyEnd then
      let b := { b with endPos := Word32.add b.endPos endSize }
      .ok (b.noteMax, s.setArea b.data (d.setDirty d.dirtyStart b.endPos))
    else .error .assertFailed
  else
    (b.reallocate s (Word32.add b.getInternalSize endSize) 0 garbage).map fun r =>
      let b := b.movedAtEnd endSize r.1
      (b.noteMax, b.markDirty r.2)

/-- The branches of `RemoveAtStart` for the position `newStart`. -/
def cutStart (b : Buffer) (newStart : ℕ) : Buffer :=
  if newStart ≤ b.zeroAreaStart then { b with start := newStart }
  else if newStart ≤ b.zeroAreaEnd then
    let delta := newStart - b.zeroAreaStart
    { b with
      start := b.zeroAreaStart
      zeroAreaEnd := b.zeroAreaEnd - delta
      endPos := b.endPos - delta }
  else if newStart ≤ b.endPos then
    let zeroSize := b.zeroAreaEnd - b.zeroAreaStart
    { b with
      start := newStart - zeroSize
      endPos := b.endPos - zeroSize
      zeroAreaStart := newStart - zeroSize
      zeroAreaEnd := newStart - zeroSize }
  else
    let stop := b.endPos - (b.zeroAreaEnd - b.zeroAreaStart)
    { b with start := stop, endPos := stop, zeroAreaStart := stop, zeroAreaEnd := stop }

/-- The assertion stands in the third branch. -/
def removeAtStart (b : Buffer) (start : ℕ) : Except Fault Buffer :=
  let newStart := Word32.add b.start start
  if b.zeroAreaEnd < newStart ∧ newStart ≤ b.endPos ∧ b.endPos < start then .error .assertFailed
  else .ok (b.cutStart newStart).noteMax

/-- The branches of `RemoveAtEnd` for the position `newEnd`. -/
def cutEnd (b : Buffer) (newEnd : ℕ) : Buffer :=
  if b.zeroAreaEnd < newEnd then { b with endPos := newEnd }
  else if b.zeroAreaStart < newEnd then { b with endPos := newEnd, zeroAreaEnd := newEnd }
  else if b.start < newEnd then
    { b with endPos := newEnd, zeroAreaEnd := newEnd, zeroAreaStart := newEnd }
  else { b with endPos := b.start, zeroAreaEnd := b.start, zeroAreaStart := b.start }

/-- `RemoveAtEnd`. -/
def removeAtEnd (b : Buffer) (endSize : ℕ) : Buffer :=
  (b.cutEnd (b.endPos - min endSize (Word32.sub b.endPos b.start))).noteMax

/-- `CreateFragment`: a copy that is cut at both ends. -/
def createFragment (s : Store) (o : Buffer) (start length : ℕ) : Except Fault (Buffer × Store) :=
  let r := copy s o
  (r.1.removeAtStart start).map fun tmp =>
    (tmp.removeAtEnd (Word32.sub o.getSize (Word32.add start length)), r.2)

end Buffer

/-! ## Iterators -/

/-- `Buffer::Iterator`; `data` is the area whose bytes `m_data` points to. -/
structure BufferIterator where
  zeroStart : ℕ
  zeroEnd : ℕ
  dataStart : ℕ
  dataEnd : ℕ
  current : ℕ
  data : ℕ

/-- `Begin`, and `Next` so far. -/
def Buffer.iteratorAt (b : Buffer) (pos : ℕ) : BufferIterator :=
  ⟨b.zeroAreaStart, b.zeroAreaEnd, b.start, b.endPos, b.start + pos, b.data⟩

namespace BufferIterator

/-- `Check`: the position is stored. -/
def check (it : BufferIterator) (i : ℕ) : Bool :=
  decide (it.dataStart ≤ i ∧ ¬ (it.zeroStart ≤ i ∧ i < it.zeroEnd) ∧ i ≤ it.dataEnd)

/-- `CheckNoZero`: the range has no part of the zero area. -/
def checkNoZero (it : BufferIterator) (start stop : ℕ) : Bool :=
  !decide (start < it.dataStart ∨ it.dataEnd < stop ∨
    (it.zeroStart < stop ∧ start < it.zeroEnd ∧ it.zeroEnd ≠ it.zeroStart ∧ start ≠ stop))

/-- The byte that `PeekU8` shows. -/
def peekU8 (s : Store) (it : BufferIterator) : Octet :=
  if it.current < it.zeroStart then (s.areas it.data).bytes it.current
  else if it.current < it.zeroEnd then 0
  else (s.areas it.data).bytes (it.current - (it.zeroEnd - it.zeroStart))

/-- The calls that write bytes of their own. -/
inductive WriteCall
  | writeU8 (data : Octet)
  | writeU8Times (data : Octet) (len : ℕ)
  | writeHtonU16 (data : BitVec 16)
  | writeHtonU32 (data : BitVec 32)
  | write (buffer : List Octet)

namespace WriteCall

/-- The bytes that a call writes. -/
def bytes : WriteCall → List Octet
  | writeU8 data => [data]
  | writeU8Times data len => List.replicate len data
  | writeHtonU16 data => Octet.octets16 data
  | writeHtonU32 data => Octet.octets32 data
  | write buffer => buffer

/-- The assertion each call starts with; that of `Write` takes the size for a position. -/
def allowed (it : BufferIterator) : WriteCall → Bool
  | writeU8 _ => it.check it.current
  | writeU8Times _ len => it.checkNoZero it.current (it.current + len)
  | writeHtonU16 _ => it.checkNoZero it.current (it.current + 2)
  | writeHtonU32 _ => it.checkNoZero it.current (it.current + 4)
  | write buffer => it.checkNoZero it.current buffer.length

/-- The test by which each call tells that it writes before the zero area. -/
def isBefore (it : BufferIterator) : WriteCall → Bool
  | writeU8 _ => decide (it.current < it.zeroStart)
  | writeU8Times _ _ => decide (it.current ≤ it.zeroStart)
  | writeHtonU16 _ => decide (it.current + 2 ≤ it.zeroStart)
  | writeHtonU32 _ => decide (it.current + 4 ≤ it.zeroStart)
  | write _ => decide (it.current ≤ it.zeroStart)

end WriteCall

/-- A call that writes, with its assertion. -/
def write (s : Store) (it : BufferIterator) (call : WriteCall) : Except Fault Store :=
  if call.allowed it then
    ((s.areas it.data).overwrite
      (if call.isBefore it then it.current else it.current - (it.zeroEnd - it.zeroStart))
      call.bytes).map fun d => s.setArea it.data d
  else .error .assertFailed

/-- How much `Write (start, end)` copies from before the zero area, takes from it and copies
from behind it. -/
def parts (start : BufferIterator) (size : ℕ) : ℕ × ℕ × ℕ :=
  let first := if start.current ≤ start.zeroStart then min size (start.zeroStart - start.current)
    else 0
  let current := start.current + first
  let second := if current ≤ start.zeroEnd then min (size - first) (start.zeroEnd - current) else 0
  (first, second, min (size - first - second) (start.dataEnd - (current + second)))

/-- `Write (start, end)` for `size` bytes from `start` on.  All three parts are put at the
position itself, as if nothing of the buffer were left out before it. -/
def writeFrom (s : Store) (it start : BufferIterator) (size : ℕ) : Except Fault Store :=
  if it.data = start.data then .error .assertFailed
  else if it.checkNoZero it.current (it.current + size) then do
    let src := s.areas start.data
    let (first, second, third) := start.parts size
    let d ← (s.areas it.data).copyFrom it.current src start.current first
    let d ← d.overwrite (it.current + first) (List.replicate second 0)
    let d ← d.copyFrom (it.current + first + second) src
      (start.current + first + second - (start.zeroEnd - start.zeroStart)) third
    return s.setArea it.data d
  else .error .assertFailed

end BufferIterator

/-! ## Where the bytes are -/

namespace Buffer

/-- The positions are in order, and 32 bits are enough for them. -/
structure Ordered (b : Buffer) : Prop where
  start_le : b.start ≤ b.zeroAreaStart
  zero_le : b.zeroAreaStart ≤ b.zeroAreaEnd
  le_end : b.zeroAreaEnd ≤ b.endPos
  small : b.endPos < 2 ^ 32

/-- How many bytes the buffer shows. -/
def size (b : Buffer) : ℕ := b.endPos - b.start

/-- Where the stored bytes end. -/
def stop (b : Buffer) : ℕ := b.endPos - (b.zeroAreaEnd - b.zeroAreaStart)

/-- Where a byte is stored; a zero of the zero area is nowhere. -/
def locate (b : Buffer) (i : ℕ) : Option ℕ :=
  if b.start + i < b.zeroAreaStart then some (b.start + i)
  else if b.start + i < b.zeroAreaEnd then none
  else some (b.start + i - (b.zeroAreaEnd - b.zeroAreaStart))

/-- The byte at a position of the buffer. -/
def visible (s : Store) (b : Buffer) (i : ℕ) : Octet := (b.iteratorAt i).peekU8 s

theorem visible_eq (s : Store) (b : Buffer) (i : ℕ) :
    b.visible s i = (b.locate i).elim 0 (s.areas b.data).bytes := by
  unfold visible BufferIterator.peekU8 locate
  show (if b.start + i < b.zeroAreaStart then _ else if b.start + i < b.zeroAreaEnd then _ else _) =
    _
  by_cases hbefore : b.start + i < b.zeroAreaStart
  · rw [if_pos hbefore, if_pos hbefore]
    rfl
  · rw [if_neg hbefore, if_neg hbefore]
    by_cases hzero : b.start + i < b.zeroAreaEnd
    · rw [if_pos hzero, if_pos hzero]
      rfl
    · rw [if_neg hzero, if_neg hzero]
      rfl

/-- A stored byte is between the start and the end of the stored bytes. -/
theorem Ordered.locate_bounds {b : Buffer} (hb : b.Ordered) {i p : ℕ} (hi : i < b.size)
    (hp : b.locate i = some p) : b.start ≤ p ∧ p < b.stop := by
  have ⟨hstart, hzero, hend, _⟩ := hb
  unfold size at hi
  unfold stop
  unfold locate at hp
  split at hp
  · cases hp
    omega
  · split at hp
    · cases hp
    · cases hp
      omega

theorem Ordered.getSize_eq {b : Buffer} (hb : b.Ordered) : b.getSize = b.size :=
  Word32.sub_eq (hb.start_le.trans (hb.zero_le.trans hb.le_end)) hb.small

theorem Ordered.getInternalEnd_eq {b : Buffer} (hb : b.Ordered) : b.getInternalEnd = b.stop := by
  have hzero := hb.zero_le
  have hend := hb.le_end
  have hsmall := hb.small
  unfold getInternalEnd stop
  rw [Word32.sub_eq hzero (by omega), Word32.sub_eq (by omega) hsmall]

theorem Ordered.getInternalSize_eq {b : Buffer} (hb : b.Ordered) :
    b.getInternalSize = b.stop - b.start := by
  have ⟨hstart, hzero, hend, hsmall⟩ := hb
  have hsize : b.zeroAreaStart - b.start + b.endPos - b.zeroAreaEnd = b.stop - b.start := by
    unfold stop
    omega
  have hwrap : Word32.sub (Word32.add (b.zeroAreaStart - b.start) b.endPos) b.zeroAreaEnd =
      b.zeroAreaStart - b.start + b.endPos - b.zeroAreaEnd := by
    unfold Word32.sub Word32.add
    rw [Nat.mod_eq_of_lt (by omega : b.zeroAreaEnd < 2 ^ 32)]
    omega
  unfold getInternalSize
  rw [Word32.sub_eq hstart (by omega), hwrap, hsize]

/-! ## What the cuts leave -/

/-- What a buffer keeps of another when bytes are removed: it uses no other bytes, and as long as
it ends at the same position it also ends at the same stored byte. -/
structure Within (b' b : Buffer) : Prop where
  data : b'.data = b.data
  start : b.start ≤ b'.start
  stop : b'.stop ≤ b.stop
  endPos : b'.endPos ≤ b.endPos
  edge : b'.endPos = b.endPos → b'.stop = b.stop

theorem Within.refl (b : Buffer) : b.Within b :=
  ⟨rfl, le_refl _, le_refl _, le_refl _, fun _ => rfl⟩

theorem Within.trans {a b c : Buffer} (hab : a.Within b) (hbc : b.Within c) : a.Within c := by
  refine ⟨hab.data.trans hbc.data, hbc.start.trans hab.start, hab.stop.trans hbc.stop,
    hab.endPos.trans hbc.endPos, fun h => ?_⟩
  have hb : b.endPos = c.endPos := le_antisymm hbc.endPos (h ▸ hab.endPos)
  exact (hab.edge (h.trans hb.symm)).trans (hbc.edge hb)

section Cuts

variable {b : Buffer}

/-- **The four branches of `RemoveAtStart`** keep the positions in order. -/
theorem Ordered.cutStart (hb : b.Ordered) (n : ℕ) :
    (b.cutStart (b.start + n)).Ordered ∧ (b.cutStart (b.start + n)).Within b ∧
      (b.cutStart (b.start + n)).size = b.size - n := by
  obtain ⟨data, maxZero, zs, ze, start, stop⟩ := b
  obtain ⟨hstart, hzero, hend, hsmall⟩ := hb
  dsimp only at hstart hzero hend hsmall
  unfold Buffer.cutStart
  dsimp only
  -- one check of the positions serves the four branches
  split_ifs
  all_goals
    refine ⟨⟨?_, ?_, ?_, ?_⟩, ⟨rfl, ?_, ?_, ?_, ?_⟩, ?_⟩
    all_goals try dsimp only [Buffer.stop, size]
    all_goals omega

/-- What is left after bytes were removed at the start is where it was. -/
theorem Ordered.locate_cutStart (hb : b.Ordered) (n i : ℕ) (hi : i < b.size - n) :
    (b.cutStart (b.start + n)).locate i = b.locate (n + i) := by
  obtain ⟨data, maxZero, zs, ze, start, stop⟩ := b
  obtain ⟨hstart, hzero, hend, hsmall⟩ := hb
  dsimp only [size] at hstart hzero hend hsmall hi
  unfold Buffer.cutStart locate
  dsimp only
  by_cases hfirst : start + n ≤ zs
  · rw [if_pos hfirst]
    dsimp only
    rw [Nat.add_assoc]
  rw [if_neg hfirst]
  by_cases hsecond : start + n ≤ ze
  · rw [if_pos hsecond]
    dsimp only
    rw [if_neg (by omega), if_neg (by omega : ¬ start + (n + i) < zs)]
    by_cases hin : zs + i < ze - (start + n - zs)
    · rw [if_pos hin, if_pos (by omega)]
    · rw [if_neg hin, if_neg (by omega)]
      congr 1
      omega
  rw [if_neg hsecond, if_pos (by omega : start + n ≤ stop)]
  dsimp only
  rw [if_neg (Nat.not_lt.mpr (Nat.le_add_right _ _)), if_neg (Nat.not_lt.mpr (Nat.le_add_right _ _)),
    if_neg (by omega : ¬ start + (n + i) < zs), if_neg (by omega : ¬ start + (n + i) < ze)]
  congr 1
  omega

/-- **The four branches of `RemoveAtEnd`** keep the positions in order. -/
theorem Ordered.cutEnd (hb : b.Ordered) (n : ℕ) (hn : n ≤ b.size) :
    (b.cutEnd (b.endPos - n)).Ordered ∧ (b.cutEnd (b.endPos - n)).Within b ∧
      (b.cutEnd (b.endPos - n)).size = b.size - n := by
  obtain ⟨data, maxZero, zs, ze, start, stop⟩ := b
  obtain ⟨hstart, hzero, hend, hsmall⟩ := hb
  dsimp only [size] at hstart hzero hend hsmall hn
  unfold Buffer.cutEnd
  dsimp only
  -- one check of the positions serves the four branches
  split_ifs
  all_goals
    refine ⟨⟨?_, ?_, ?_, ?_⟩, ⟨rfl, ?_, ?_, ?_, ?_⟩, ?_⟩
    all_goals try dsimp only [Buffer.stop, size]
    all_goals omega

/-- What is left after bytes were removed at the end is where it was. -/
theorem Ordered.locate_cutEnd (hb : b.Ordered) (n i : ℕ) (hi : i < b.size - n) :
    (b.cutEnd (b.endPos - n)).locate i = b.locate i := by
  obtain ⟨data, maxZero, zs, ze, start, stop⟩ := b
  obtain ⟨hstart, hzero, hend, hsmall⟩ := hb
  dsimp only [size] at hstart hzero hend hsmall hi
  unfold Buffer.cutEnd locate
  dsimp only
  by_cases hfirst : ze < stop - n
  · rw [if_pos hfirst]
  rw [if_neg hfirst]
  by_cases hsecond : zs < stop - n
  · rw [if_pos hsecond]
    dsimp only
    by_cases hin : start + i < zs
    · rw [if_pos hin, if_pos hin]
    · rw [if_neg hin, if_neg hin, if_pos (by omega), if_pos (by omega)]
  rw [if_neg hsecond, if_pos (by omega : start < stop - n)]
  dsimp only
  rw [if_pos (by omega : start + i < stop - n), if_pos (by omega : start + i < zs)]

end Cuts

end Buffer

end Ns3Dsme.Network
