/-
# Buffers that share their storage

Each buffer behaves like a list of bytes of its own.  What keeps the buffers apart: their bytes
are inside the dirty area of the storage, and the one whose edge is the edge of that area is the
only one to grow there.  The end of the dirty area counts zeroes, which a buffer can lose; but
then it no longer reaches the edge.

Copying bytes with `Write (start, end)` behind a zero area puts them at another place.
-/
import Ns3Dsme.Network.Buffer
import Ns3Dsme.Lib.Machine
import Ns3Dsme.Lib.Pool

open List Function List Program

namespace Ns3Dsme.Network

open Word32 Buffer

/-! ## Buffers with their reference lists -/

/-- A buffer, the list of bytes it stands for, of which some were never written, and how many
bytes at its start and at its end were added and not yet shared with a copy. -/
structure Slot where
  buf : Buffer
  ref : List (Option Octet)
  freshStart : ℕ
  freshEnd : ℕ

/-- The storage and the buffers; a buffer that was destroyed leaves its place empty. -/
structure Buffers where
  store : Store
  slots : List (Option Slot)

/-- The operations on buffers; where memory is allocated, what it held before is given. -/
inductive BufferCall
  | construct (dataSize : ℕ) (garbage : ℕ → Octet)
  | copy (o : ℕ)
  | assign (b o : ℕ)
  | destroy (b : ℕ)
  | createFragment (o start length : ℕ)
  | addAtStart (b start : ℕ) (garbage : ℕ → Octet)
  | addAtEnd (b endSize : ℕ) (garbage : ℕ → Octet)
  | removeAtStart (b start : ℕ)
  | removeAtEnd (b endSize : ℕ)
  | write (b pos : ℕ) (call : BufferIterator.WriteCall)
  | writeFrom (b pos o start len : ℕ)

namespace Slot

/-- What is copied from now on is shared. -/
def shared (s : Slot) : Slot := { s with freshStart := 0, freshEnd := 0 }

/-- Bytes were added in front. -/
def addedAtStart (s : Slot) (b : Buffer) (n : ℕ) : Slot :=
  { s with buf := b, ref := replicate n none ++ s.ref, freshStart := s.freshStart + n }

/-- Bytes were added behind. -/
def addedAtEnd (s : Slot) (b : Buffer) (n : ℕ) : Slot :=
  { s with buf := b, ref := s.ref ++ replicate n none, freshEnd := s.freshEnd + n }

/-- Bytes were removed in front. -/
def removedAtStart (s : Slot) (b : Buffer) (n : ℕ) : Slot :=
  ⟨b, s.ref.drop n, s.freshStart - n, min s.freshEnd (s.ref.length - n)⟩

/-- Bytes were removed behind. -/
def removedAtEnd (s : Slot) (b : Buffer) (n : ℕ) : Slot :=
  ⟨b, s.ref.take (s.ref.length - n), min s.freshStart (s.ref.length - n), s.freshEnd - n⟩

/-- Bytes were written. -/
def written (s : Slot) (pos : ℕ) (bs : List (Option Octet)) : Slot :=
  { s with ref := s.ref.take pos ++ bs ++ s.ref.drop (pos + bs.length) }

/-- The range was added and not yet shared. -/
def Fresh (s : Slot) (pos len : ℕ) : Prop :=
  pos + len ≤ s.freshStart ∨ s.ref.length - s.freshEnd ≤ pos ∧ pos + len ≤ s.ref.length

end Slot

/-- A part of a list; a range that leaves the list gives nothing. -/
def fragment (ref : List (Option Octet)) (start length : ℕ) : List (Option Octet) :=
  if start + length ≤ ref.length then (ref.drop start).take length else []

namespace Buffers

/-- Before the first buffer is created. -/
def start : Buffers := ⟨⟨fun _ => ⟨0, 0, 0, 0, 0, fun _ => 0⟩, 0, [], 0, 0⟩, []⟩

def slot (w : Buffers) (b : ℕ) : Option Slot := (w.slots[b]?).join

def setSlot (w : Buffers) (b : ℕ) (s : Option Slot) (store : Store) : Buffers :=
  ⟨store, w.slots.set b s⟩

def addSlot (w : Buffers) (s : Slot) (store : Store) : Buffers := ⟨store, w.slots ++ [some s]⟩

/-- An operation on one buffer that is there. -/
def withSlot (w : Buffers) (b : ℕ) (f : Slot → Except Fault Buffers) : Except Fault Buffers :=
  match w.slot b with
  | some s => f s
  | none => .error .nullPacket

/-- One operation. -/
def step (w : Buffers) : BufferCall → Except Fault Buffers
  | .construct dataSize garbage =>
    let r := initBuffer w.store dataSize garbage
    .ok (w.addSlot ⟨r.1, replicate dataSize (some 0), 0, 0⟩ r.2)
  | .copy o => w.withSlot o fun s =>
    let r := copy w.store s.buf
    .ok ((w.setSlot o s.shared w.store).addSlot ⟨r.1, s.ref, 0, 0⟩ r.2)
  | .assign b o => w.withSlot b fun s => w.withSlot o fun t =>
    let r := assign w.store s.buf t.buf
    .ok ((w.setSlot o t.shared w.store).setSlot b (some ⟨r.1, t.ref, 0, 0⟩) r.2)
  | .destroy b => w.withSlot b fun s => .ok (w.setSlot b none (s.buf.destroy w.store))
  | .createFragment o start length => w.withSlot o fun s =>
    (createFragment w.store s.buf start length).map fun r =>
      (w.setSlot o s.shared w.store).addSlot ⟨r.1, fragment s.ref start length, 0, 0⟩ r.2
  | .addAtStart b start garbage => w.withSlot b fun s =>
    (s.buf.addAtStart w.store start garbage).map fun r =>
      w.setSlot b (s.addedAtStart r.1 start) r.2
  | .addAtEnd b endSize garbage => w.withSlot b fun s =>
    (s.buf.addAtEnd w.store endSize garbage).map fun r =>
      w.setSlot b (s.addedAtEnd r.1 endSize) r.2
  | .removeAtStart b start => w.withSlot b fun s =>
    (s.buf.removeAtStart start).map fun b' => w.setSlot b (s.removedAtStart b' start) w.store
  | .removeAtEnd b endSize => w.withSlot b fun s =>
    .ok (w.setSlot b (s.removedAtEnd (s.buf.removeAtEnd endSize) endSize) w.store)
  | .write b pos call => w.withSlot b fun s =>
    ((s.buf.iteratorAt pos).write w.store call).map fun store =>
      w.setSlot b (s.written pos (call.bytes.map some)) store
  | .writeFrom b pos o start len => w.withSlot b fun s => w.withSlot o fun t =>
    ((s.buf.iteratorAt pos).writeFrom w.store (t.buf.iteratorAt start) len).map fun store =>
      w.setSlot b (s.written pos ((t.ref.drop start).take len)) store

/-- What the program may do: the buffers are there, sizes are words of 32 bits, and writes are
to fresh bytes; what is copied comes from a buffer with another storage. -/
def Enabled (w : Buffers) : BufferCall → Prop
  | .construct dataSize _ => dataSize < 2 ^ 32
  | .copy o => ∃ s, w.slot o = some s
  | .assign b o => (∃ s, w.slot b = some s) ∧ ∃ t, w.slot o = some t
  | .destroy b => ∃ s, w.slot b = some s
  | .createFragment o start length => start < 2 ^ 32 ∧ length < 2 ^ 32 ∧ ∃ s, w.slot o = some s
  | .addAtStart b start _ => start < 2 ^ 32 ∧ ∃ s, w.slot b = some s
  | .addAtEnd b endSize _ => endSize < 2 ^ 32 ∧ ∃ s, w.slot b = some s
  | .removeAtStart b start => start < 2 ^ 32 ∧ ∃ s, w.slot b = some s
  | .removeAtEnd b endSize => endSize < 2 ^ 32 ∧ ∃ s, w.slot b = some s
  | .write b pos call => ∃ s, w.slot b = some s ∧ s.Fresh pos call.bytes.length
  | .writeFrom b pos o start len => ∃ s t, w.slot b = some s ∧ w.slot o = some t ∧
    s.Fresh pos len ∧ start + len ≤ t.ref.length ∧ s.buf.data ≠ t.buf.data

def machine : Machine Buffers BufferCall Fault where
  enabled := Enabled
  step := step

/-- Positions and the sizes of areas stay below `2 ^ 32`, and `Write (start, end)` does not write
behind a zero area. -/
def FitsInArea (w : Buffers) : BufferCall → Prop
  | .construct dataSize _ => w.store.recommendedStart + dataSize < 2 ^ 32
  | .createFragment o start _ => ∀ s, w.slot o = some s → s.buf.start + start < 2 ^ 32
  | .addAtStart b start _ => ∀ s, w.slot b = some s → s.buf.size + start + 20 ≤ 2 ^ 32
  | .addAtEnd b endSize _ => ∀ s, w.slot b = some s → s.buf.endPos + endSize + 20 ≤ 2 ^ 32
  | .removeAtStart b start => ∀ s, w.slot b = some s → s.buf.start + start < 2 ^ 32
  | .writeFrom b pos _ _ len => ∀ s, w.slot b = some s →
    s.buf.zeroAreaStart = s.buf.zeroAreaEnd ∨ pos + len ≤ s.freshStart
  | _ => True

/-- The condition of a call.  An area that gets another buffer can count it in 32 bits. -/
def Fits (w : Buffers) (c : BufferCall) : Prop :=
  (∀ p < w.store.next, (w.store.areas p).count < 2 ^ 32 - 1) ∧ w.FitsInArea c

/-- What is promised of each buffer. -/
structure BufferOk (w : Buffers) (s : Slot) : Prop where
  /-- It shows the bytes of its list. -/
  size : s.buf.getSize = s.ref.length
  bytes : ∀ i v, s.ref[i]? = some (some v) → s.buf.visible w.store i = v
  /-- The invariant that `CheckInternalState` describes. -/
  start_le : s.buf.start ≤ s.buf.zeroAreaStart
  zero_le : s.buf.zeroAreaStart ≤ s.buf.zeroAreaEnd
  le_end : s.buf.zeroAreaEnd ≤ s.buf.endPos
  dirtyStart : (w.store.areas s.buf.data).dirtyStart ≤ s.buf.start
  dirtyEnd : s.buf.endPos ≤ (w.store.areas s.buf.data).dirtyEnd
  internalEnd : s.buf.getInternalEnd ≤ (w.store.areas s.buf.data).size
  count_pos : 0 < (w.store.areas s.buf.data).count

/-- What is promised of a state that a run reaches: all this of each buffer, and that the next
call goes through. -/
structure Isolated (w : Buffers) : Prop where
  ok : ∀ b s, w.slot b = some s → w.BufferOk s
  progress : ∀ c, w.Enabled c → w.Fits c → ∃ w', w.step c = .ok w'

end Buffers

/-! ## Counts and free areas -/

/-- The counts are those of the references, and what is free has none. -/
structure Store.Owned (s : Store) (refs : ℕ → ℕ) : Prop
    extends Pool.Counted (fun p => (s.areas p).count) s.next s.freeList refs where
  capacity : ∀ p < s.next, (s.areas p).size ≤ (s.areas p).capacity

namespace Store

variable {s : Store} {refs : ℕ → ℕ}

theorem areas_setArea (s : Store) (p q : ℕ) (d : Data) :
    (s.setArea p d).areas q = if q = p then d else s.areas q := by
  unfold setArea
  exact update_apply _ _ _ _

@[simp] theorem areas_setArea_self (s : Store) (p : ℕ) (d : Data) : (s.setArea p d).areas p = d :=
  update_self _ _ _

theorem areas_setArea_of_ne (s : Store) {p q : ℕ} (d : Data) (h : q ≠ p) :
    (s.setArea p d).areas q = s.areas q :=
  update_of_ne h _ _

theorem counts_setArea (s : Store) (p : ℕ) (d : Data) :
    (fun q => ((s.setArea p d).areas q).count) =
      update (fun q => (s.areas q).count) p d.count := by
  funext q
  rw [areas_setArea, update_apply]
  split
  · rfl
  · rfl

variable {p : ℕ}

theorem Owned.capacity_setArea (h : s.Owned refs) {d : Data} (hcapacity : d.size ≤ d.capacity)
    {q : ℕ} (hq : q ≠ p → q < s.next) :
    ((s.setArea p d).areas q).size ≤ ((s.setArea p d).areas q).capacity := by
  rw [areas_setArea]
  split
  · exact hcapacity
  · rename_i hne
    exact h.capacity q (hq hne)

/-- Counts and sizes as before leave the counting as it is. -/
theorem Owned.setArea (h : s.Owned refs) {d : Data} (hcount : d.count = (s.areas p).count)
    (hcapacity : d.size ≤ d.capacity) :
    (s.setArea p d).Owned refs := by
  refine ⟨?_, fun q hq => h.capacity_setArea hcapacity fun _ => hq⟩
  rw [counts_setArea, hcount, update_eq_self p fun q => (s.areas q).count]
  exact h.toCounted

theorem Owned.capacity_setCount (h : s.Owned refs) (hp : p < s.next) (n : ℕ) {q : ℕ}
    (hq : q < s.next) : ((s.setCount p n).areas q).size ≤ ((s.setCount p n).areas q).capacity := by
  have hsize := h.capacity p hp
  exact h.capacity_setArea (d := { s.areas p with count := n }) hsize fun _ => hq

theorem Owned.recommend (h : s.Owned refs) (n : ℕ) : (s.recommend n).Owned refs :=
  { h with }

theorem Owned.retain (h : s.Owned refs) (hp : 0 < refs p) :
    (s.retain p).Owned (update refs p (refs p + 1)) := by
  refine ⟨?_, fun q hq => h.capacity_setCount (h.lt_next hp) _ hq⟩
  have hretain := h.toCounted.retain hp
  rw [← s.counts_setArea p { s.areas p with count := (s.areas p).count + 1 }] at hretain
  exact hretain

/-- What `Recycle` keeps. -/
theorem freeList_recycle (s : Store) (p : ℕ) :
    (s.recycle p).freeList = s.freeList ∨ (s.recycle p).freeList = p :: s.freeList := by
  unfold Store.recycle
  dsimp only
  split
  · exact .inl rfl
  · exact .inr rfl

theorem Owned.release (h : s.Owned refs) (hp : 0 < refs p) :
    (s.release p).Owned (update refs p (refs p - 1)) := by
  have hlt := h.lt_next hp
  unfold Store.release
  split
  · rename_i hzero
    refine ⟨?_, fun q hq => h.capacity_setCount hlt _ hq⟩
    have hone : (s.areas p).count = 1 := by
      have hcount := h.count p hlt
      omega
    have hfree := ((s.setCount p 0).freeList_recycle p).imp_right fun heq => And.intro hone heq
    have hrelease := h.toCounted.release hp hfree
    rw [hzero, ← s.counts_setArea p { s.areas p with count := 0 }] at hrelease
    exact hrelease
  · refine ⟨?_, fun q hq => h.capacity_setCount hlt _ hq⟩
    have hrelease := h.toCounted.release hp (.inl rfl)
    rw [← s.counts_setArea p { s.areas p with count := (s.areas p).count - 1 }] at hrelease
    exact hrelease

/-- Of an area that is released only the count changes. -/
theorem areas_release (s : Store) (p q : ℕ) :
    (s.release p).areas q = if q = p then { s.areas p with count := (s.areas p).count - 1 }
      else s.areas q := by
  unfold Store.release
  split
  · rename_i hzero
    show (s.setCount p 0).areas q = _
    rw [hzero]
    exact areas_setArea _ _ _ _
  · exact areas_setArea _ _ _ _

theorem areas_retain (s : Store) (p q : ℕ) :
    (s.retain p).areas q = if q = p then { s.areas p with count := (s.areas p).count + 1 }
      else s.areas q :=
  areas_setArea _ _ _ _

/-- The loop of `Create` looks for an area that is large enough. -/
theorem takeFree_eq_take (areas : ℕ → Data) (n : ℕ) (l : List ℕ) :
    takeFree areas n l = Pool.take (fun p => decide (n ≤ (areas p).size)) l := by
  induction l with
  | nil => rfl
  | cons q rest ih => simp only [takeFree, Pool.take, ih, decide_eq_true_eq]

/-- **What `Create` returns**: an area that nobody refers to, large enough, with one reference;
the other areas are as they were. -/
theorem Owned.create (h : s.Owned refs) (n : ℕ) (garbage : ℕ → Octet) (hn : n + 20 ≤ 2 ^ 32) :
    refs (s.create n garbage).1 = 0 ∧
      (s.create n garbage).2.Owned (update refs (s.create n garbage).1 1) ∧
      n ≤ ((s.create n garbage).2.areas (s.create n garbage).1).size ∧
      (s.create n garbage).2.recommendedStart = s.recommendedStart ∧
      ∀ q ≠ (s.create n garbage).1, (s.create n garbage).2.areas q = s.areas q := by
  obtain ⟨fits, hfits⟩ : ∃ f, f = fun p => decide (n ≤ (s.areas p).size) := ⟨_, rfl⟩
  unfold Store.create
  rw [takeFree_eq_take, ← hfits]
  cases htake : Pool.take fits s.freeList with
  | mk found rest =>
    have hrest : (Pool.take fits s.freeList).2 = rest := by rw [htake]
    cases found with
    | some p =>
      have hfound : (Pool.take fits s.freeList).1 = some p := by rw [htake]
      obtain ⟨hmem, hsize, -⟩ := (Pool.take_spec fits s.freeList).2 p hfound
      rw [hfits] at hsize
      obtain ⟨hzero, htaken⟩ := h.toCounted.taken fits hfound
      have hlt := (h.free p hmem).1
      rw [hrest, ← s.counts_setArea p { s.areas p with count := 1 }] at htaken
      refine ⟨hzero, ⟨htaken, fun q hq => h.capacity_setCount hlt 1 hq⟩, ?_, rfl,
        fun q hq => areas_setArea_of_ne s _ hq⟩
      show n ≤ ((s.setArea p _).areas p).size
      rw [areas_setArea_self]
      exact of_decide_eq_true hsize
    | none =>
      have hnew := h.toCounted.fresh_area fits
      have hcounts := s.counts_setArea s.next (Data.allocate n garbage)
      rw [hrest] at hnew
      refine ⟨h.fresh _ (le_refl _), ⟨hcounts ▸ hnew, fun q hq => h.capacity_setArea ?_ fun hne =>
        lt_of_le_of_ne (Nat.lt_succ_iff.mp hq) hne⟩, ?_, rfl,
        fun q hq => areas_setArea_of_ne s _ hq⟩
      · show max n 1 ≤ Data.allocated (max n 1)
        unfold Data.allocated
        rw [add_eq (by omega)]
        omega
      · show n ≤ ((s.setArea s.next _).areas s.next).size
        rw [areas_setArea_self]
        exact le_max_left _ _

end Store

/-! ## One buffer in its area -/

/-- The stored bytes are those of the list, wherever that knows them. -/
def Shows (bytes : ℕ → Octet) (b : Buffer) (ref : List (Option Octet)) : Prop :=
  ref.length = b.size ∧ ∀ i v, ref[i]? = some (some v) → (b.locate i).elim 0 bytes = v

/-- A buffer is inside the dirty area, and its fresh bytes are stored at its edges. -/
structure Sane (d : Data) (s : Slot) : Prop where
  ordered : s.buf.Ordered
  dirtyStart : d.dirtyStart ≤ s.buf.start
  dirtyEnd : s.buf.endPos ≤ d.dirtyEnd
  fits : s.buf.stop ≤ d.size
  freshStart : s.buf.start + s.freshStart ≤ s.buf.zeroAreaStart
  freshEnd : s.buf.zeroAreaEnd + s.freshEnd ≤ s.buf.endPos
  shows : Shows d.bytes s.buf s.ref

/-- Another buffer on the same area: it does not reach beyond one at the edge, and it has none of
the fresh bytes. -/
structure Apart (d : Data) (s t : Slot) : Prop where
  edge : s.buf.endPos = d.dirtyEnd → t.buf.stop ≤ s.buf.stop
  low : 0 < s.freshStart → s.buf.start + s.freshStart ≤ t.buf.start
  high : 0 < s.freshEnd → t.buf.stop + s.freshEnd ≤ s.buf.stop

/-- What a buffer needs of its area when another one changes it. -/
structure Kept (d d' : Data) (s : Slot) : Prop where
  dirtyStart : d'.dirtyStart ≤ d.dirtyStart
  dirtyEnd : d.dirtyEnd ≤ d'.dirtyEnd
  size : d'.size = d.size
  bytes : ∀ p, s.buf.start ≤ p → p < s.buf.stop → d'.bytes p = d.bytes p

/-- A buffer that lost bytes, together with its fresh ones. -/
structure SlotWithin (s' s : Slot) : Prop where
  buf : s'.buf.Within s.buf
  low : 0 < s'.freshStart → 0 < s.freshStart ∧
    s'.buf.start + s'.freshStart ≤ s.buf.start + s.freshStart
  high : 0 < s'.freshEnd → 0 < s.freshEnd ∧
    s.buf.stop + s'.freshEnd ≤ s'.buf.stop + s.freshEnd

theorem Kept.refl (d : Data) (s : Slot) : Kept d d s :=
  ⟨le_refl _, le_refl _, rfl, fun _ _ _ => rfl⟩

/-- A change of the count is none to the buffers. -/
theorem Kept.setCount (d : Data) (s : Slot) (n : ℕ) : Kept d { d with count := n } s :=
  ⟨le_refl _, le_refl _, rfl, fun _ _ _ => rfl⟩

variable {d : Data} {s : Slot}

theorem Sane.kept {d d' : Data} (h : Sane d s) (hk : Kept d d' s) : Sane d' s := by
  refine ⟨h.ordered, hk.dirtyStart.trans h.dirtyStart, h.dirtyEnd.trans hk.dirtyEnd,
    hk.size ▸ h.fits, h.freshStart, h.freshEnd, h.shows.1, fun i v hi => ?_⟩
  rw [← h.shows.2 i v hi]
  have hlt : i < s.buf.size := by
    rw [← h.shows.1]
    exact (List.getElem?_eq_some_iff.mp hi).1
  cases hlocate : s.buf.locate i with
  | none => rfl
  | some p =>
    obtain ⟨hstart, hstop⟩ := h.ordered.locate_bounds hlt hlocate
    exact hk.bytes p hstart hstop

theorem Apart.kept {d d' : Data} {s t : Slot} (h : Apart d s t) (hs : Sane d s)
    (hdirty : d.dirtyEnd ≤ d'.dirtyEnd) : Apart d' s t := by
  refine ⟨fun hedge => h.edge ?_, h.low, h.high⟩
  exact le_antisymm hs.dirtyEnd (hedge ▸ hdirty)

theorem SlotWithin.shared (s : Slot) : SlotWithin s.shared s :=
  ⟨Buffer.Within.refl _, fun h => absurd h (lt_irrefl _), fun h => absurd h (lt_irrefl _)⟩

/-- A buffer that lost bytes is as far from the others as it was. -/
theorem Apart.within_left {s s' t : Slot} (h : Apart d s t) (hs : Sane d s) (hw : SlotWithin s' s) :
    Apart d s' t := by
  refine ⟨fun hedge => ?_, fun hfresh => ?_, fun hfresh => ?_⟩
  · have hsame : s'.buf.endPos = s.buf.endPos :=
      le_antisymm hw.buf.endPos (hedge ▸ hs.dirtyEnd)
    rw [hw.buf.edge hsame]
    exact h.edge (hsame ▸ hedge)
  · obtain ⟨hpos, hle⟩ := hw.low hfresh
    exact hle.trans (h.low hpos)
  · obtain ⟨hpos, hle⟩ := hw.high hfresh
    have hhigh := h.high hpos
    omega

theorem Apart.within_right {s t t' : Slot} (h : Apart d s t) (hw : SlotWithin t' t) :
    Apart d s t' := by
  refine ⟨fun hedge => hw.buf.stop.trans (h.edge hedge),
    fun hfresh => (h.low hfresh).trans hw.buf.start, fun hfresh => ?_⟩
  have hhigh := h.high hfresh
  have hstop := hw.buf.stop
  omega

/-- A copy of a buffer that has no fresh bytes. -/
theorem Apart.copy {s t : Slot} (hbuf : t.buf.stop = s.buf.stop) (hstart : s.freshStart = 0)
    (hend : s.freshEnd = 0) : Apart d s t :=
  ⟨fun _ => hbuf.le, fun h => absurd hstart (Nat.ne_of_gt h), fun h => absurd hend (Nat.ne_of_gt h)⟩

/-! ## Removing bytes -/

/-- **Removing bytes in front.** -/
theorem Sane.removeAtStart (h : Sane d s) (n : ℕ) (hn : s.buf.start + n < 2 ^ 32) :
    ∃ b', s.buf.removeAtStart n = .ok b' ∧ Sane d (s.removedAtStart b' n) ∧
      SlotWithin (s.removedAtStart b' n) s := by
  obtain ⟨hordered, hwithin, hsize⟩ := h.ordered.cutStart n
  have hlength := h.shows.1
  have hcut := h.ordered
  refine ⟨(s.buf.cutStart (s.buf.start + n)).noteMax, ?_, ?_⟩
  · unfold Buffer.removeAtStart
    rw [add_eq hn]
    refine if_neg ?_
    rintro ⟨-, hle, hlt⟩
    omega
  -- how the fresh bytes shrink depends on the branch
  have hfresh : (s.buf.cutStart (s.buf.start + n)).start + (s.freshStart - n) ≤
        (s.buf.cutStart (s.buf.start + n)).zeroAreaStart ∧
      (s.buf.cutStart (s.buf.start + n)).zeroAreaEnd + min s.freshEnd (s.buf.size - n) ≤
        (s.buf.cutStart (s.buf.start + n)).endPos ∧
      (0 < s.freshStart - n → (s.buf.cutStart (s.buf.start + n)).start = s.buf.start + n) ∧
      (0 < s.buf.size - n → (s.buf.cutStart (s.buf.start + n)).stop = s.buf.stop) := by
    have hlow := h.freshStart
    have hhigh := h.freshEnd
    have ⟨hone, htwo, hthree, _⟩ := hcut
    unfold cutStart size stop
    split
    · dsimp only
      omega
    split
    · dsimp only
      omega
    split
    · dsimp only
      omega
    · dsimp only
      omega
  obtain ⟨hlow, hhigh, hstart, hstop⟩ := hfresh
  constructor
  · refine ⟨{ hordered with },
      h.dirtyStart.trans hwithin.start, hwithin.endPos.trans h.dirtyEnd, hwithin.stop.trans h.fits,
      hlow, ?_, ?_, fun i v hi => ?_⟩
    · show _ + min s.freshEnd (s.ref.length - n) ≤ _
      rw [hlength]
      exact hhigh
    · show (s.ref.drop n).length = _
      rw [length_drop, hlength]
      exact hsize.symm
    · have hget : s.ref[n + i]? = some (some v) := by
        rw [← getElem?_drop]
        exact hi
      have hlt : n + i < s.ref.length := (List.getElem?_eq_some_iff.mp hget).1
      rw [← h.shows.2 (n + i) v hget, ← h.ordered.locate_cutStart n i (by omega)]
      rfl
  · refine ⟨{ hwithin with },
      fun hpos => ?_, fun hpos => ?_⟩
    · have hpos' : 0 < s.freshStart - n := hpos
      refine ⟨by omega, ?_⟩
      show (s.buf.cutStart (s.buf.start + n)).start + (s.freshStart - n) ≤ _
      rw [hstart hpos']
      omega
    · have hpos' : 0 < min s.freshEnd (s.ref.length - n) := hpos
      refine ⟨by omega, ?_⟩
      show _ + min s.freshEnd (s.ref.length - n) ≤ (s.buf.cutStart (s.buf.start + n)).stop + _
      rw [hstop (by omega)]
      omega

/-- **Removing bytes behind.** -/
theorem Sane.removeAtEnd (h : Sane d s) (n : ℕ) :
    Sane d (s.removedAtEnd (s.buf.removeAtEnd n) n) ∧
      SlotWithin (s.removedAtEnd (s.buf.removeAtEnd n) n) s := by
  have hlength := h.shows.1
  have hmin : min n (sub s.buf.endPos s.buf.start) = min n s.buf.size := by
    rw [show sub s.buf.endPos s.buf.start = s.buf.size from h.ordered.getSize_eq]
  obtain ⟨k, hk⟩ : ∃ k, k = min n s.buf.size := ⟨_, rfl⟩
  have hkle : k ≤ s.buf.size := hk ▸ min_le_right _ _
  have hcount : s.buf.size - n = s.buf.size - k := by omega
  have hbuf : s.buf.removeAtEnd n = (s.buf.cutEnd (s.buf.endPos - k)).noteMax := by
    unfold Buffer.removeAtEnd
    rw [hmin, hk]
  obtain ⟨hordered, hwithin, hsize⟩ := h.ordered.cutEnd k hkle
  -- how the fresh bytes shrink depends on the branch
  have hfresh : (s.buf.cutEnd (s.buf.endPos - k)).start + min s.freshStart (s.buf.size - n) ≤
        (s.buf.cutEnd (s.buf.endPos - k)).zeroAreaStart ∧
      (s.buf.cutEnd (s.buf.endPos - k)).zeroAreaEnd + (s.freshEnd - n) ≤
        (s.buf.cutEnd (s.buf.endPos - k)).endPos ∧
      (s.buf.cutEnd (s.buf.endPos - k)).start = s.buf.start ∧
      (0 < s.freshEnd - n → (s.buf.cutEnd (s.buf.endPos - k)).stop + n = s.buf.stop) := by
    have hlow := h.freshStart
    have hhigh := h.freshEnd
    have ⟨hone, htwo, hthree, _⟩ := h.ordered
    unfold size at hk hkle ⊢
    unfold cutEnd stop
    split
    · dsimp only
      omega
    split
    · dsimp only
      omega
    split
    · dsimp only
      omega
    · dsimp only
      omega
  obtain ⟨hlow, hhigh, hstart, hstop⟩ := hfresh
  rw [hbuf]
  constructor
  · refine ⟨{ hordered with },
      h.dirtyStart.trans hwithin.start, hwithin.endPos.trans h.dirtyEnd, hwithin.stop.trans h.fits,
      ?_, hhigh, ?_, fun i v hi => ?_⟩
    · show _ + min s.freshStart (s.ref.length - n) ≤ _
      rw [hlength]
      exact hlow
    · show (s.ref.take (s.ref.length - n)).length = _
      rw [length_take, hlength, min_eq_left (Nat.sub_le _ _), hcount]
      exact hsize.symm
    · have htake : (s.ref.take (s.ref.length - n))[i]? = some (some v) := hi
      have hlt : i < s.ref.length - n := by
        have := (List.getElem?_eq_some_iff.mp htake).1
        rw [length_take] at this
        omega
      rw [List.getElem?_take_of_lt hlt] at htake
      rw [← h.shows.2 i v htake, ← h.ordered.locate_cutEnd k i (by omega)]
      rfl
  · refine ⟨{ hwithin with },
      fun hpos => ?_, fun hpos => ?_⟩
    · have hpos' : 0 < min s.freshStart (s.ref.length - n) := hpos
      refine ⟨by omega, ?_⟩
      show (s.buf.cutEnd (s.buf.endPos - k)).start + min s.freshStart (s.ref.length - n) ≤ _
      rw [hstart]
      omega
    · have hpos' : 0 < s.freshEnd - n := hpos
      refine ⟨by omega, ?_⟩
      show _ + (s.freshEnd - n) ≤ (s.buf.cutEnd (s.buf.endPos - k)).stop + _
      have hcut := hstop hpos'
      omega

/-- Removing at both ends leaves the fragment, or nothing if it is not inside. -/
theorem fragment_eq (ref : List (Option Octet)) (start length : ℕ) (hlength : length < 2 ^ 32)
    (hsmall : ref.length < 2 ^ 32) :
    (ref.drop start).take
        ((ref.drop start).length - sub ref.length (add start length)) =
      fragment ref start length := by
  unfold fragment
  rw [length_drop]
  split
  · rename_i hin
    rw [add_eq (by omega), sub_eq hin hsmall]
    congr 1
    omega
  · rename_i hout
    have hzero : ref.length - start - sub ref.length (add start length) = 0 := by
      unfold sub add
      omega
    rw [hzero, take_zero]

/-- **A fragment** of a buffer on the same area. -/
theorem Sane.createFragment (h : Sane d s) (store : Store) (start length : ℕ)
    (hlength : length < 2 ^ 32) (hn : s.buf.start + start < 2 ^ 32) :
    ∃ b', s.buf.createFragment store start length = .ok (b', store.retain s.buf.data) ∧
      Sane d ⟨b', fragment s.ref start length, 0, 0⟩ ∧ b'.Within s.buf := by
  obtain ⟨b, hb⟩ : ∃ b : Buffer, b = { s.buf with maxZeroAreaStart := s.buf.zeroAreaStart } :=
    ⟨_, rfl⟩
  have hcopy : Sane d ⟨b, s.ref, 0, 0⟩ := by
    rw [hb]
    exact ⟨{ h.ordered with },
      h.dirtyStart, h.dirtyEnd, h.fits, h.ordered.start_le, h.ordered.le_end, h.shows⟩
  obtain ⟨b', hcut, hsane, hwithin⟩ := hcopy.removeAtStart start (by rw [hb]; exact hn)
  obtain ⟨k, hk⟩ : ∃ k, k = sub s.buf.getSize (add start length) := ⟨_, rfl⟩
  obtain ⟨hsane', hwithin'⟩ := hsane.removeAtEnd k
  have hsize : s.buf.getSize = s.ref.length := h.ordered.getSize_eq.trans h.shows.1.symm
  have hsmall : s.ref.length < 2 ^ 32 := by
    rw [h.shows.1]
    exact lt_of_le_of_lt (Nat.sub_le _ _) h.ordered.small
  refine ⟨b'.removeAtEnd k, ?_, ?_, ?_⟩
  · unfold Buffer.createFragment Buffer.copy
    dsimp only
    rw [← hb, hcut, ← hk]
    rfl
  · have hshows : Shows d.bytes (b'.removeAtEnd k)
        ((s.ref.drop start).take ((s.ref.drop start).length - k)) := hsane'.shows
    rw [hk, hsize, fragment_eq s.ref start length hlength hsmall, ← hsize, ← hk] at hshows
    exact ⟨hsane'.ordered, hsane'.dirtyStart, hsane'.dirtyEnd, hsane'.fits,
      hsane'.ordered.start_le, hsane'.ordered.le_end, hshows⟩
  · have hall := hwithin'.buf.trans hwithin.buf
    rw [hb] at hall
    exact { hall with }

/-! ## Growing in place -/

/-- The buffer after it grew in front. -/
def Buffer.grownAtStart (b : Buffer) (n : ℕ) : Buffer :=
  noteMax { b with start := b.start - n }

/-- The buffer after it grew behind. -/
def Buffer.grownAtEnd (b : Buffer) (n : ℕ) : Buffer :=
  noteMax { b with endPos := add b.endPos n }

theorem Buffer.locate_grownAtStart (b : Buffer) {n i : ℕ} (hn : n ≤ b.start) (hi : n ≤ i) :
    (b.grownAtStart n).locate i = b.locate (i - n) := by
  have hplace : b.start - n + i = b.start + (i - n) := by omega
  unfold grownAtStart noteMax locate
  dsimp only
  rw [hplace]

theorem Sane.growAtStart (h : Sane d s) (n : ℕ) (hn : n ≤ s.buf.start) :
    Sane (d.setDirty (s.buf.start - n) d.dirtyEnd) (s.addedAtStart (s.buf.grownAtStart n) n) := by
  have ⟨hone, htwo, hthree, _⟩ := h.ordered
  have hlow := h.freshStart
  refine ⟨⟨(Nat.sub_le _ _).trans hone, htwo, hthree, h.ordered.small⟩, le_refl _, h.dirtyEnd,
    h.fits, ?_, h.freshEnd, ?_, fun i v hi => ?_⟩
  · show s.buf.start - n + (s.freshStart + n) ≤ s.buf.zeroAreaStart
    omega
  · show (replicate n none ++ s.ref).length = s.buf.endPos - (s.buf.start - n)
    rw [length_append, length_replicate, h.shows.1]
    unfold size
    omega
  · have happend : (replicate n none ++ s.ref)[i]? = some (some v) := hi
    by_cases hin : i < n
    · rw [getElem?_append_left (by rwa [length_replicate]),
        getElem?_replicate_of_lt hin] at happend
      cases happend
    · rw [getElem?_append_right (by rw [length_replicate]; omega),
        length_replicate] at happend
      rw [← h.shows.2 (i - n) v happend,
        ← s.buf.locate_grownAtStart hn (Nat.le_of_not_lt hin)]
      rfl

/-- The buffer that grew in front and the others. -/
theorem Apart.growAtStart {s t : Slot} (hst : Apart d s t) (hts : Apart d t s) (ht : Sane d t)
    (n : ℕ) (hn : n ≤ s.buf.start) (hedge : s.buf.start = d.dirtyStart) :
    Kept d (d.setDirty (s.buf.start - n) d.dirtyEnd) t ∧
      Apart (d.setDirty (s.buf.start - n) d.dirtyEnd) (s.addedAtStart (s.buf.grownAtStart n) n) t ∧
      Apart (d.setDirty (s.buf.start - n) d.dirtyEnd) t
        (s.addedAtStart (s.buf.grownAtStart n) n) := by
  have hstart : s.buf.start ≤ t.buf.start := hedge ▸ ht.dirtyStart
  refine ⟨⟨?_, le_refl _, rfl, fun _ _ _ => rfl⟩, ⟨hst.edge, fun _ => ?_, hst.high⟩,
    ⟨hts.edge, fun hfresh => ?_, hts.high⟩⟩
  · show s.buf.start - n ≤ d.dirtyStart
    omega
  · show s.buf.start - n + (s.freshStart + n) ≤ t.buf.start
    have hlow : s.buf.start + s.freshStart ≤ t.buf.start := by
      rcases Nat.eq_zero_or_pos s.freshStart with hzero | hpos
      · rw [hzero]
        exact hstart
      · exact hst.low hpos
    omega
  · have hlow := hts.low hfresh
    omega

theorem Sane.growAtEnd (h : Sane d s) (n : ℕ) (hn : s.buf.endPos + n < 2 ^ 32)
    (hfits : s.buf.stop + n ≤ d.size) :
    Sane (d.setDirty d.dirtyStart (s.buf.endPos + n)) (s.addedAtEnd (s.buf.grownAtEnd n) n) := by
  have ⟨hone, htwo, hthree, _⟩ := h.ordered
  have hhigh := h.freshEnd
  have hend : (s.buf.grownAtEnd n).endPos = s.buf.endPos + n := add_eq hn
  have hsize : (s.buf.grownAtEnd n).size = s.buf.size + n := by
    show (s.buf.grownAtEnd n).endPos - s.buf.start = s.buf.endPos - s.buf.start + n
    omega
  refine ⟨⟨hone, htwo, ?_, ?_⟩, h.dirtyStart, ?_, ?_, h.freshStart, ?_, ?_, fun i v hi => ?_⟩
  · show s.buf.zeroAreaEnd ≤ (s.buf.grownAtEnd n).endPos
    omega
  · exact hend ▸ hn
  · exact hend.le
  · show (s.buf.grownAtEnd n).endPos - (s.buf.zeroAreaEnd - s.buf.zeroAreaStart) ≤ d.size
    unfold stop at hfits
    omega
  · show s.buf.zeroAreaEnd + (s.freshEnd + n) ≤ (s.buf.grownAtEnd n).endPos
    omega
  · show (s.ref ++ replicate n none).length = _
    rw [length_append, length_replicate, h.shows.1]
    exact hsize.symm
  · have happend : (s.ref ++ replicate n none)[i]? = some (some v) := hi
    by_cases hin : i < s.ref.length
    · rw [getElem?_append_left hin] at happend
      exact h.shows.2 i v happend
    · rw [getElem?_append_right (Nat.le_of_not_lt hin), getElem?_replicate] at happend
      split at happend
      · cases happend
      · cases happend

/-- The buffer that grew behind and the others. -/
theorem Apart.growAtEnd {s t : Slot} (hst : Apart d s t) (hts : Apart d t s) (ht : Sane d t)
    (hs : s.buf.Ordered) (n : ℕ) (hn : s.buf.endPos + n < 2 ^ 32)
    (hedge : s.buf.endPos = d.dirtyEnd) :
    Kept d (d.setDirty d.dirtyStart (s.buf.endPos + n)) t ∧
      Apart (d.setDirty d.dirtyStart (s.buf.endPos + n)) (s.addedAtEnd (s.buf.grownAtEnd n) n) t ∧
      Apart (d.setDirty d.dirtyStart (s.buf.endPos + n)) t
        (s.addedAtEnd (s.buf.grownAtEnd n) n) := by
  have hstop : (s.buf.grownAtEnd n).stop = s.buf.stop + n := by
    have hone := hs.zero_le
    have htwo := hs.le_end
    show add s.buf.endPos n - (s.buf.zeroAreaEnd - s.buf.zeroAreaStart) = _
    rw [add_eq hn]
    unfold stop
    omega
  have hreach : t.buf.stop ≤ s.buf.stop := hst.edge hedge
  have hdirty : t.buf.endPos ≤ s.buf.endPos := hedge ▸ ht.dirtyEnd
  refine ⟨⟨le_refl _, ?_, rfl, fun _ _ _ => rfl⟩, ⟨fun _ => ?_, hst.low, fun _ => ?_⟩,
    ⟨fun hend => ?_, hts.low, fun hfresh => ?_⟩⟩
  · show d.dirtyEnd ≤ s.buf.endPos + n
    omega
  · show t.buf.stop ≤ (s.buf.grownAtEnd n).stop
    omega
  · show t.buf.stop + (s.freshEnd + n) ≤ (s.buf.grownAtEnd n).stop
    have hhigh : t.buf.stop + s.freshEnd ≤ s.buf.stop := by
      rcases Nat.eq_zero_or_pos s.freshEnd with hzero | hpos
      · rw [hzero]
        exact hreach
      · exact hst.high hpos
    omega
  · show (s.buf.grownAtEnd n).stop ≤ t.buf.stop
    have hend' : t.buf.endPos = s.buf.endPos + n := hend
    have hback := hts.edge (by omega)
    omega
  · have hhigh := hts.high hfresh
    omega

/-! ## Moving to another area -/

/-- The bytes of a buffer in another area, from a position on. -/
theorem Shows.moved {bytes bytes' : ℕ → Octet} {b b' : Buffer} (hb : b.Ordered) {pos k : ℕ}
    (hzs : b'.zeroAreaStart + b.start = b.zeroAreaStart + pos)
    (hze : b'.zeroAreaEnd + b.start = b.zeroAreaEnd + pos) (hstart : b'.start + k = pos)
    (hbytes : ∀ p, b.start ≤ p → p < b.stop → bytes' (p - b.start + pos) = bytes p) (i : ℕ)
    (hi : i < b.size) : (b'.locate (k + i)).elim 0 bytes' = (b.locate i).elim 0 bytes := by
  have ⟨hone, htwo, hthree, _⟩ := hb
  unfold size at hi
  unfold stop at hbytes
  unfold locate
  by_cases hbefore : b.start + i < b.zeroAreaStart
  · rw [if_pos hbefore, if_pos (by omega : b'.start + (k + i) < b'.zeroAreaStart)]
    show bytes' (b'.start + (k + i)) = bytes (b.start + i)
    rw [← hbytes (b.start + i) (by omega) (by omega)]
    congr 1
    omega
  rw [if_neg hbefore, if_neg (by omega : ¬ b'.start + (k + i) < b'.zeroAreaStart)]
  by_cases hzero : b.start + i < b.zeroAreaEnd
  · rw [if_pos hzero, if_pos (by omega : b'.start + (k + i) < b'.zeroAreaEnd)]
    rfl
  rw [if_neg hzero, if_neg (by omega : ¬ b'.start + (k + i) < b'.zeroAreaEnd)]
  show bytes' _ = bytes _
  rw [← hbytes (b.start + i - (b.zeroAreaEnd - b.zeroAreaStart)) (by omega) (by omega)]
  congr 1
  omega

/-- An area of which only some bytes changed. -/
structure Data.Overwritten (d d' : Data) (pos : ℕ) (bs : List Octet) : Prop where
  count : d'.count = d.count
  size : d'.size = d.size
  dirtyStart : d'.dirtyStart = d.dirtyStart
  dirtyEnd : d'.dirtyEnd = d.dirtyEnd
  capacity : d'.capacity = d.capacity
  inside : ∀ j v, bs[j]? = some v → d'.bytes (pos + j) = v
  outside : ∀ p, p < pos ∨ pos + bs.length ≤ p → d'.bytes p = d.bytes p

theorem Data.exists_overwrite (d : Data) (pos : ℕ) (bs : List Octet)
    (h : bs.length = 0 ∨ pos + bs.length ≤ d.capacity) :
    ∃ d', d.overwrite pos bs = .ok d' ∧ d.Overwritten d' pos bs := by
  refine ⟨_, if_pos h, ⟨rfl, rfl, rfl, rfl, rfl, fun j v hj => ?_, fun p hp => ?_⟩⟩
  · have hlt : j < bs.length := (List.getElem?_eq_some_iff.mp hj).1
    dsimp only
    rw [if_pos ⟨Nat.le_add_right _ _, by omega⟩, Nat.add_sub_cancel_left,
      getD_eq_getElem?_getD, hj]
    rfl
  · dsimp only
    exact if_neg (by omega)

/-- Overwriting with nothing. -/
theorem Data.Overwritten.refl (d : Data) (pos : ℕ) : d.Overwritten d pos [] :=
  ⟨rfl, rfl, rfl, rfl, rfl, (by rintro j v ⟨⟩), fun _ _ => rfl⟩

/-- Overwriting one range after the other. -/
theorem Data.Overwritten.append {d d' d'' : Data} {pos : ℕ} {bs bs' : List Octet}
    (h : d.Overwritten d' pos bs) (h' : d'.Overwritten d'' (pos + bs.length) bs') :
    d.Overwritten d'' pos (bs ++ bs') := by
  refine ⟨h'.count.trans h.count, h'.size.trans h.size, h'.dirtyStart.trans h.dirtyStart,
    h'.dirtyEnd.trans h.dirtyEnd, h'.capacity.trans h.capacity, fun j v hj => ?_, fun p hp => ?_⟩
  · by_cases hin : j < bs.length
    · rw [getElem?_append_left hin] at hj
      rw [h'.outside (pos + j) (.inl (by omega))]
      exact h.inside j v hj
    · obtain ⟨k, rfl⟩ := Nat.exists_eq_add_of_le (Nat.le_of_not_lt hin)
      rw [getElem?_append_right (Nat.le_add_right _ _), Nat.add_sub_cancel_left] at hj
      rw [← Nat.add_assoc]
      exact h'.inside k v hj
  · rw [length_append] at hp
    rw [h'.outside p (by omega), h.outside p (by omega)]

theorem Data.exists_copyFrom (d src : Data) (pos start len : ℕ)
    (hsrc : len = 0 ∨ start + len ≤ src.capacity) (hdst : len = 0 ∨ pos + len ≤ d.capacity) :
    ∃ d', d.copyFrom pos src start len = .ok d' ∧
      d.Overwritten d' pos ((range len).map fun i => src.bytes (start + i)) := by
  unfold Data.copyFrom
  by_cases hlen : len = 0
  · rw [if_pos hlen, hlen]
    exact ⟨d, rfl, Data.Overwritten.refl d pos⟩
  · rw [if_neg hlen, if_pos (hsrc.resolve_left hlen)]
    exact d.exists_overwrite pos _ (by rwa [length_map, length_range])

/-- What the copied bytes are. -/
theorem Data.Overwritten.copied {d d' src : Data} {pos start len : ℕ}
    (h : d.Overwritten d' pos ((range len).map fun i => src.bytes (start + i))) (j : ℕ)
    (hj : j < len) : d'.bytes (pos + j) = src.bytes (start + j) := by
  refine h.inside j _ ?_
  rw [getElem?_map, getElem?_range hj]
  rfl

section Moving

variable {store : Store} {refs : ℕ → ℕ} {s : Slot}

/-- **The move of a buffer to an area of its own**: nobody else refers to it, the stored bytes are
there, and the other areas only lose a reference. -/
theorem exists_reallocate (h : store.Owned refs) (hs : Sane (store.areas s.buf.data) s)
    (hrefs : 0 < refs s.buf.data) (n pos : ℕ) (hpos : pos ≤ n) (hn : s.buf.size + n + 20 ≤ 2 ^ 32)
    (garbage : ℕ → Octet) :
    ∃ p st, s.buf.reallocate store (add s.buf.getInternalSize n) pos garbage =
        .ok (p, st) ∧ p ≠ s.buf.data ∧ refs p = 0 ∧
      st.Owned (update (update refs p 1) s.buf.data (refs s.buf.data - 1)) ∧
      s.buf.stop - s.buf.start + n ≤ (st.areas p).size ∧
      (∀ q, s.buf.start ≤ q → q < s.buf.stop →
        (st.areas p).bytes (q - s.buf.start + pos) = (store.areas s.buf.data).bytes q) ∧
      ∀ q ≠ p, ∃ c, st.areas q = { store.areas q with count := c } := by
  have ⟨hone, htwo, hthree, _⟩ := hs.ordered
  have hsize : s.buf.stop - s.buf.start ≤ s.buf.size := by
    unfold stop size
    omega
  have hstop : s.buf.start ≤ s.buf.stop := by
    unfold stop
    omega
  have hnew : add s.buf.getInternalSize n = s.buf.stop - s.buf.start + n := by
    rw [hs.ordered.getInternalSize_eq]
    exact add_eq (by omega)
  obtain ⟨hzero, howned, hlarge, -, hothers⟩ :=
    h.create (s.buf.stop - s.buf.start + n) garbage (by omega)
  obtain ⟨r, hr⟩ : ∃ r, r = store.create (s.buf.stop - s.buf.start + n) garbage := ⟨_, rfl⟩
  rw [← hr] at hzero howned hlarge hothers
  have hne : s.buf.data ≠ r.1 := by
    intro heq
    rw [heq, hzero] at hrefs
    exact absurd hrefs (lt_irrefl _)
  have hold : r.2.areas s.buf.data = store.areas s.buf.data := hothers _ hne
  have hlt : r.1 < r.2.next := howned.lt_next (by rw [update_self]; exact Nat.one_pos)
  have hcapacity := howned.capacity _ hlt
  have holdcap := h.capacity _ (h.lt_next hrefs)
  obtain ⟨d, hcopy, hd⟩ := (r.2.areas r.1).exists_copyFrom (store.areas s.buf.data) pos s.buf.start
    (s.buf.stop - s.buf.start) (.inr (by have hfits := hs.fits; omega)) (.inr (by omega))
  have hset : (r.2.setArea r.1 d).Owned (update refs r.1 1) := by
    refine howned.setArea hd.count ?_
    rw [hd.size, hd.capacity]
    exact hcapacity
  have hcount : update refs r.1 1 s.buf.data = refs s.buf.data :=
    update_of_ne hne _ _
  have hrelease := hset.release (p := s.buf.data) (by rw [hcount]; exact hrefs)
  have harea : ((r.2.setArea r.1 d).release s.buf.data).areas r.1 = d := by
    rw [Store.areas_release, if_neg hne.symm, Store.areas_setArea_self]
  refine ⟨r.1, (r.2.setArea r.1 d).release s.buf.data, ?_, hne.symm, hzero, ?_, ?_, ?_, ?_⟩
  · unfold reallocate
    dsimp only
    rw [hnew, ← hr, hold, hs.ordered.getInternalSize_eq, hcopy]
    rfl
  · rwa [hcount] at hrelease
  · rw [harea, hd.size]
    exact hlarge
  · intro q hq hq'
    rw [harea]
    have hcopied := hd.copied (q - s.buf.start) (by omega)
    rwa [Nat.add_comm pos, Nat.add_sub_cancel' hq] at hcopied
  · intro q hq
    rw [Store.areas_release]
    split
    · rename_i heq
      refine ⟨(store.areas s.buf.data).count - 1, ?_⟩
      rw [heq, Store.areas_setArea_of_ne _ _ hne, hold]
    · refine ⟨(store.areas q).count, ?_⟩
      rw [Store.areas_setArea_of_ne _ _ hq, hothers q hq]

variable {b : Buffer}

/-- The positions in a new area that begins `k` octets in front of the buffer. -/
theorem Buffer.Ordered.shift (hb : b.Ordered) {k : ℕ} (hk : b.size + k < 2 ^ 32) :
    (b.shift (sub k b.start)).start = k ∧
      (b.shift (sub k b.start)).zeroAreaStart + b.start = b.zeroAreaStart + k ∧
      (b.shift (sub k b.start)).zeroAreaEnd + b.start = b.zeroAreaEnd + k ∧
      (b.shift (sub k b.start)).endPos + b.start = b.endPos + k := by
  have ⟨hone, htwo, hthree, hsmall⟩ := hb
  unfold size at hk
  have hmove (x : ℕ) (hx : b.start ≤ x) (hx' : x ≤ b.endPos) :
      add x (sub k b.start) = x + k - b.start :=
    add_sub (by omega) (by omega) (by omega)
  unfold Buffer.shift
  dsimp only
  rw [hmove _ (le_refl _) (by omega), hmove _ hone (by omega), hmove _ (hone.trans htwo) (by omega),
    hmove _ (hone.trans (htwo.trans hthree)) (le_refl _)]
  omega

/-- The positions in the new area, after bytes were added in front. -/
theorem Buffer.Ordered.movedAtStart (hb : b.Ordered) (n p : ℕ) (hn : b.size + n < 2 ^ 32) :
    (b.movedAtStart n p).start = 0 ∧
      (b.movedAtStart n p).zeroAreaStart + b.start = b.zeroAreaStart + n ∧
      (b.movedAtStart n p).zeroAreaEnd + b.start = b.zeroAreaEnd + n ∧
      (b.movedAtStart n p).endPos + b.start = b.endPos + n := by
  obtain ⟨hstart, hrest⟩ := hb.shift hn
  refine ⟨?_, hrest⟩
  show sub (b.shift _).start n = 0
  rw [hstart, sub_eq (le_refl _) (by omega), Nat.sub_self]

/-- The positions in the new area, after bytes were added behind. -/
theorem Buffer.Ordered.movedAtEnd (hb : b.Ordered) (n p : ℕ) (hn : b.size + n < 2 ^ 32) :
    (b.movedAtEnd n p).start = 0 ∧
      (b.movedAtEnd n p).zeroAreaStart + b.start = b.zeroAreaStart ∧
      (b.movedAtEnd n p).zeroAreaEnd + b.start = b.zeroAreaEnd ∧
      (b.movedAtEnd n p).endPos + b.start = b.endPos + n := by
  have hsize : b.size = b.endPos - b.start := rfl
  have ⟨hone, htwo, hthree, _⟩ := hb
  obtain ⟨hstart, hzs, hze, hend⟩ := hb.shift (k := 0) (by omega)
  refine ⟨hstart, hzs, hze, ?_⟩
  show add (b.shift _).endPos n + b.start = b.endPos + n
  rw [add_eq (by omega)]
  omega

/-- **Growing** in another area, in front or behind. -/
theorem Sane.moved {d d' : Data} (hs : Sane d s) {b' : Buffer} (front back : ℕ)
    (hn : s.buf.size + (front + back) < 2 ^ 32) (hstart : b'.start = 0)
    (hzs : b'.zeroAreaStart + s.buf.start = s.buf.zeroAreaStart + front)
    (hze : b'.zeroAreaEnd + s.buf.start = s.buf.zeroAreaEnd + front)
    (hend : b'.endPos + s.buf.start = s.buf.endPos + (front + back))
    (hsize : s.buf.stop - s.buf.start + (front + back) ≤ d'.size)
    (hbytes : ∀ q, s.buf.start ≤ q → q < s.buf.stop →
      d'.bytes (q - s.buf.start + front) = d.bytes q) :
    Sane (d'.setDirty b'.start b'.endPos) ⟨b'.noteMax,
      replicate front none ++ (s.ref ++ replicate back none), s.freshStart + front,
      s.freshEnd + back⟩ := by
  have ⟨hone, htwo, hthree, _⟩ := hs.ordered
  have hlow := hs.freshStart
  have hhigh := hs.freshEnd
  have hsz : b'.size = s.buf.size + (front + back) := by
    unfold size
    omega
  have hlength := hs.shows.1
  unfold size at hn
  unfold stop at hsize
  refine ⟨⟨?_, ?_, ?_, ?_⟩, le_refl _, le_refl _, ?_, ?_, ?_, ?_, fun i v hi => ?_⟩
  · show b'.start ≤ b'.zeroAreaStart
    omega
  · show b'.zeroAreaStart ≤ b'.zeroAreaEnd
    omega
  · show b'.zeroAreaEnd ≤ b'.endPos
    omega
  · show b'.endPos < 2 ^ 32
    omega
  · show b'.endPos - (b'.zeroAreaEnd - b'.zeroAreaStart) ≤ d'.size
    omega
  · show b'.start + (s.freshStart + front) ≤ b'.zeroAreaStart
    omega
  · show b'.zeroAreaEnd + (s.freshEnd + back) ≤ b'.endPos
    omega
  · show (replicate front none ++ (s.ref ++ replicate back none)).length = b'.size
    rw [length_append, length_append, length_replicate, length_replicate,
      hlength, hsz]
    omega
  · have happend : (replicate front none ++ (s.ref ++ replicate back none))[i]? =
      some (some v) := hi
    by_cases hin : i < front
    · rw [getElem?_append_left (by rwa [length_replicate]),
        getElem?_replicate_of_lt hin] at happend
      cases happend
    · rw [getElem?_append_right (by rw [length_replicate]; omega),
        length_replicate] at happend
      by_cases hlt : i - front < s.ref.length
      · rw [getElem?_append_left hlt] at happend
        have hmoved := Shows.moved hs.ordered hzs hze (by rw [hstart, Nat.zero_add]) hbytes
          (i - front) (by rwa [← hlength])
        rw [Nat.add_sub_cancel' (Nat.le_of_not_lt hin), hs.shows.2 _ v happend] at hmoved
        exact hmoved
      · rw [getElem?_append_right (Nat.le_of_not_lt hlt), getElem?_replicate] at happend
        split at happend
        · cases happend
        · cases happend

/-- **Growing in front**, with the room that the area has or in another one. -/
theorem Sane.movedAtStart {d : Data} (hs : Sane d s) (n p : ℕ) (hn : s.buf.size + n < 2 ^ 32)
    {d' : Data} (hsize : s.buf.stop - s.buf.start + n ≤ d'.size)
    (hbytes : ∀ q, s.buf.start ≤ q → q < s.buf.stop → d'.bytes (q - s.buf.start + n) = d.bytes q) :
    Sane (d'.setDirty (s.buf.movedAtStart n p).start (s.buf.movedAtStart n p).endPos)
      (s.addedAtStart (s.buf.movedAtStart n p).noteMax n) := by
  obtain ⟨hstart, hzs, hze, hend⟩ := hs.ordered.movedAtStart n p hn
  have hmoved := hs.moved n 0 hn hstart hzs hze hend hsize hbytes
  rw [replicate_zero, append_nil] at hmoved
  exact hmoved

/-- **Growing behind**, in another area. -/
theorem Sane.movedAtEnd {d : Data} (hs : Sane d s) (n p : ℕ) (hn : s.buf.size + n < 2 ^ 32)
    {d' : Data} (hsize : s.buf.stop - s.buf.start + n ≤ d'.size)
    (hbytes : ∀ q, s.buf.start ≤ q → q < s.buf.stop → d'.bytes (q - s.buf.start + 0) = d.bytes q) :
    Sane (d'.setDirty (s.buf.movedAtEnd n p).start (s.buf.movedAtEnd n p).endPos)
      (s.addedAtEnd (s.buf.movedAtEnd n p).noteMax n) := by
  obtain ⟨hstart, hzs, hze, hend⟩ := hs.ordered.movedAtEnd n p hn
  have hall : 0 + n = n := Nat.zero_add n
  exact hs.moved 0 n (by rwa [hall]) hstart hzs hze (by rwa [hall]) (by rwa [hall]) hbytes

end Moving

/-! ## Writing -/

section Writing

variable {d : Data} {s : Slot}

/-- The stored position of the first byte of a fresh range. -/
def Slot.place (s : Slot) (pos len : ℕ) : ℕ :=
  if pos + len ≤ s.freshStart then s.buf.start + pos
  else s.buf.start + pos - (s.buf.zeroAreaEnd - s.buf.zeroAreaStart)

variable {pos len : ℕ}

/-- The byte a write to a fresh position goes to. -/
theorem Sane.locate_fresh (h : Sane d s) (hfresh : s.Fresh pos len) {j : ℕ} (hj : j < len) :
    s.buf.locate (pos + j) = some (s.place pos len + j) := by
  have ⟨hone, htwo, hthree, _⟩ := h.ordered
  have hlow := h.freshStart
  have hhigh := h.freshEnd
  have hlength := h.shows.1
  unfold size at hlength
  unfold locate Slot.place
  by_cases hbefore : pos + len ≤ s.freshStart
  · rw [if_pos hbefore, if_pos (by omega : s.buf.start + (pos + j) < s.buf.zeroAreaStart),
      Nat.add_assoc]
  · obtain ⟨hlarge, hend⟩ := hfresh.resolve_left hbefore
    rw [if_neg hbefore, if_neg (by omega : ¬ s.buf.start + (pos + j) < s.buf.zeroAreaStart),
      if_neg (by omega : ¬ s.buf.start + (pos + j) < s.buf.zeroAreaEnd)]
    congr 1
    omega

/-- A fresh range is stored at one of the edges of the buffer. -/
theorem Sane.place_bounds (h : Sane d s) (hfresh : s.Fresh pos len) :
    s.place pos len + len ≤ s.buf.stop ∧ s.buf.start ≤ s.place pos len ∧
      (s.place pos len + len ≤ s.buf.start + s.freshStart ∧ pos + len ≤ s.freshStart ∨
        s.buf.stop ≤ s.place pos len + s.freshEnd) := by
  have ⟨hone, htwo, hthree, _⟩ := h.ordered
  have hlow := h.freshStart
  have hhigh := h.freshEnd
  have hlength := h.shows.1
  unfold size at hlength
  unfold Slot.place stop
  by_cases hbefore : pos + len ≤ s.freshStart
  · rw [if_pos hbefore]
    omega
  · obtain ⟨hlarge, hend⟩ := hfresh.resolve_left hbefore
    rw [if_neg hbefore]
    omega

/-- Where two positions of a buffer are stored, they are apart. -/
theorem Buffer.Ordered.locate_injective {b : Buffer} (hb : b.Ordered) {i j p : ℕ}
    (hi : b.locate i = some p) (hj : b.locate j = some p) : i = j := by
  have hzero := hb.zero_le
  unfold locate at hi hj
  split at hi
  · split at hj
    · cases hi
      have heq := Option.some_inj.mp hj
      omega
    · split at hj
      · cases hj
      · cases hi
        have heq := Option.some_inj.mp hj
        omega
  · split at hi
    · cases hi
    · split at hj
      · cases hi
        have heq := Option.some_inj.mp hj
        omega
      · split at hj
        · cases hj
        · cases hi
          have heq := Option.some_inj.mp hj
          omega

/-- **Writing to fresh bytes** writes them and no others. -/
theorem Sane.written (h : Sane d s) {pos : ℕ} {bs : List Octet} {rs : List (Option Octet)}
    (hfresh : s.Fresh pos bs.length) (hlen : rs.length = bs.length)
    (hrs : ∀ (j : ℕ) (v : Octet), rs[j]? = some (some v) → bs[j]? = some v) {d' : Data}
    (hd : d.Overwritten d' (s.place pos bs.length) bs) : Sane d' (s.written pos rs) := by
  have hpos : pos + bs.length ≤ s.ref.length := by
    rcases hfresh with hbefore | ⟨-, hbehind⟩
    · have hlow := h.freshStart
      have hone := h.ordered.zero_le
      have htwo := h.ordered.le_end
      have hlength := h.shows.1
      unfold size at hlength
      omega
    · exact hbehind
  refine ⟨h.ordered, hd.dirtyStart ▸ h.dirtyStart, hd.dirtyEnd ▸ h.dirtyEnd, hd.size ▸ h.fits,
    h.freshStart, h.freshEnd, ?_, fun i v hi => ?_⟩
  · show (s.ref.take pos ++ rs ++ s.ref.drop (pos + rs.length)).length = s.buf.size
    rw [length_append, length_append, length_take, length_drop, ← h.shows.1,
      hlen]
    omega
  · have hget : (s.ref.take pos ++ rs ++ s.ref.drop (pos + rs.length))[i]? = some (some v) := hi
    -- either the byte is one of those written, or it is where it was
    by_cases hin : pos ≤ i ∧ i < pos + bs.length
    · obtain ⟨j, rfl⟩ := Nat.exists_eq_add_of_le hin.1
      rw [getElem?_append_left (by
          rw [length_append, length_take, hlen]
          omega), getElem?_append_right (by rw [length_take]; omega),
        length_take, min_eq_left (by omega), Nat.add_sub_cancel_left] at hget
      show (s.buf.locate (pos + j)).elim 0 d'.bytes = v
      rw [h.locate_fresh hfresh (by omega)]
      exact hd.inside j v (hrs j v hget)
    · have hold : s.ref[i]? = some (some v) := by
        by_cases hbefore : i < pos
        · rw [append_assoc, getElem?_append_left (by rw [length_take]; omega),
            getElem?_take_of_lt hbefore] at hget
          exact hget
        · rw [getElem?_append_right (by
              rw [length_append, length_take, hlen]
              omega), getElem?_drop, length_append, length_take, hlen,
            min_eq_left (by omega), Nat.add_sub_cancel' (by omega)] at hget
          exact hget
      have hlt : i < s.buf.size := by
        rw [← h.shows.1]
        exact (List.getElem?_eq_some_iff.mp hold).1
      rw [← h.shows.2 i v hold]
      show (s.buf.locate i).elim 0 d'.bytes = (s.buf.locate i).elim 0 d.bytes
      cases hlocate : s.buf.locate i with
      | none => rfl
      | some p =>
        refine hd.outside p ?_
        by_contra hboth
        obtain ⟨j, hj⟩ : ∃ j, p = s.place pos bs.length + j :=
          Nat.exists_eq_add_of_le (by omega)
        have hsame := h.ordered.locate_injective hlocate
          ((h.locate_fresh hfresh (j := j) (by omega)).trans (congrArg some hj.symm))
        omega

/-- Fresh bytes belong to no other buffer. -/
theorem Apart.kept_written {t : Slot} (h : Sane d s) (ht : Apart d s t) {pos : ℕ} {bs : List Octet}
    (hfresh : s.Fresh pos bs.length) {d' : Data}
    (hd : d.Overwritten d' (s.place pos bs.length) bs) : Kept d d' t := by
  obtain ⟨hstop, hstart, hedge⟩ := h.place_bounds hfresh
  refine ⟨hd.dirtyStart.le, hd.dirtyEnd.ge, hd.size, fun p hp hp' => hd.outside p ?_⟩
  rcases hedge with ⟨hlow, hfits⟩ | hhigh
  · rcases Nat.eq_zero_or_pos s.freshStart with hzero | hpos
    · omega
    · have hapart := ht.low hpos
      omega
  · rcases Nat.eq_zero_or_pos s.freshEnd with hzero | hpos
    · omega
    · have hapart := ht.high hpos
      omega

/-- A fresh range is before the zero area, or behind it. -/
theorem Sane.fresh_side (h : Sane d s) (hfresh : s.Fresh pos len) :
    pos + len ≤ s.freshStart ∧ s.buf.start + pos + len ≤ s.buf.zeroAreaStart ∨
      ¬ pos + len ≤ s.freshStart ∧ s.buf.zeroAreaEnd ≤ s.buf.start + pos ∧
        s.buf.start + pos + len ≤ s.buf.endPos := by
  have ⟨hone, htwo, hthree, _⟩ := h.ordered
  have hlow := h.freshStart
  have hhigh := h.freshEnd
  have hlength := h.shows.1
  unfold size at hlength
  by_cases hbefore : pos + len ≤ s.freshStart
  · omega
  · obtain ⟨hlarge, hend⟩ := hfresh.resolve_left hbefore
    omega

/-- A test for the side of a fresh range gives its place. -/
theorem Sane.place_of_test (h : Sane d s) (hfresh : s.Fresh pos len) (before : Bool)
    (hbefore : before = true → s.buf.start + pos ≤ s.buf.zeroAreaStart)
    (hafter : before = false → s.buf.zeroAreaStart < s.buf.start + pos + len) :
    (if before then s.buf.start + pos
      else s.buf.start + pos - (s.buf.zeroAreaEnd - s.buf.zeroAreaStart)) = s.place pos len := by
  have hzero := h.ordered.zero_le
  have hside := h.fresh_side hfresh
  unfold Slot.place
  cases before with
  | true =>
    have hle := hbefore rfl
    rw [if_pos rfl]
    split
    · rfl
    · omega
  | false =>
    have hlt := hafter rfl
    rw [if_neg Bool.false_ne_true, if_neg (by omega)]

/-- A fresh range passes the test for the zero area. -/
theorem Sane.checkNoZero (h : Sane d s) (hfresh : s.Fresh pos len) {stop : ℕ}
    (hstop : stop ≤ s.buf.start + pos + len) :
    (s.buf.iteratorAt pos).checkNoZero (s.buf.start + pos) stop = true := by
  have hone := h.ordered.zero_le
  have htwo := h.ordered.le_end
  have hside := h.fresh_side hfresh
  have hnot : ¬ (s.buf.start + pos < s.buf.start ∨ s.buf.endPos < stop ∨
      (s.buf.zeroAreaStart < stop ∧ s.buf.start + pos < s.buf.zeroAreaEnd ∧
        s.buf.zeroAreaEnd ≠ s.buf.zeroAreaStart ∧ s.buf.start + pos ≠ stop)) := by
    omega
  unfold BufferIterator.checkNoZero
  rw [Bool.not_eq_true', decide_eq_false_iff_not]
  exact hnot

/-- The calls that write bytes of their own accept a fresh range and put them at its place. -/
theorem Sane.write_at (h : Sane d s) (pos : ℕ) (call : BufferIterator.WriteCall)
    (hfresh : s.Fresh pos call.bytes.length) :
    call.allowed (s.buf.iteratorAt pos) = true ∧
      (if call.isBefore (s.buf.iteratorAt pos) then s.buf.start + pos
        else s.buf.start + pos - (s.buf.zeroAreaEnd - s.buf.zeroAreaStart)) =
        s.place pos call.bytes.length := by
  have hone := h.ordered.zero_le
  have htwo := h.ordered.le_end
  have hside := h.fresh_side hfresh
  cases call with
  | writeU8 data =>
    have hin : s.buf.start ≤ s.buf.start + pos ∧ ¬ (s.buf.zeroAreaStart ≤ s.buf.start + pos ∧
        s.buf.start + pos < s.buf.zeroAreaEnd) ∧ s.buf.start + pos ≤ s.buf.endPos := by
      have hlen : (BufferIterator.WriteCall.writeU8 data).bytes.length = 1 := rfl
      omega
    refine ⟨decide_eq_true hin, h.place_of_test hfresh _ (fun hb => ?_) fun hb => ?_⟩
    · have hlt : s.buf.start + pos < s.buf.zeroAreaStart := of_decide_eq_true hb
      exact hlt.le
    · have hle : ¬ s.buf.start + pos < s.buf.zeroAreaStart := of_decide_eq_false hb
      have hlen : (BufferIterator.WriteCall.writeU8 data).bytes.length = 1 := rfl
      omega
  | writeU8Times data len =>
    have hlen : (BufferIterator.WriteCall.writeU8Times data len).bytes.length = len :=
      length_replicate
    refine ⟨h.checkNoZero hfresh (by rw [hlen]; exact le_refl _),
      h.place_of_test hfresh _ (fun hb => of_decide_eq_true hb) fun hb => ?_⟩
    have hnot : ¬ s.buf.start + pos ≤ s.buf.zeroAreaStart := of_decide_eq_false hb
    omega
  | writeHtonU16 data =>
    have hlen : (BufferIterator.WriteCall.writeHtonU16 data).bytes.length = 2 := rfl
    refine ⟨h.checkNoZero hfresh (le_refl _),
      h.place_of_test hfresh _ (fun hb => ?_) fun hb => ?_⟩
    · have hle : s.buf.start + pos + 2 ≤ s.buf.zeroAreaStart := of_decide_eq_true hb
      omega
    · have hnot : ¬ s.buf.start + pos + 2 ≤ s.buf.zeroAreaStart := of_decide_eq_false hb
      omega
  | writeHtonU32 data =>
    have hlen : (BufferIterator.WriteCall.writeHtonU32 data).bytes.length = 4 := rfl
    refine ⟨h.checkNoZero hfresh (le_refl _),
      h.place_of_test hfresh _ (fun hb => ?_) fun hb => ?_⟩
    · have hle : s.buf.start + pos + 4 ≤ s.buf.zeroAreaStart := of_decide_eq_true hb
      omega
    · have hnot : ¬ s.buf.start + pos + 4 ≤ s.buf.zeroAreaStart := of_decide_eq_false hb
      omega
  | write buffer =>
    refine ⟨h.checkNoZero hfresh (Nat.le_add_left _ _),
      h.place_of_test hfresh _ (fun hb => of_decide_eq_true hb) fun hb => ?_⟩
    have hnot : ¬ s.buf.start + pos ≤ s.buf.zeroAreaStart := of_decide_eq_false hb
    omega

end Writing

/-! ## Copying from another buffer -/

section Copying

variable {d src : Data} {s t : Slot}

/-- The three parts that are copied make up the whole. -/
theorem Buffer.Ordered.parts {b : Buffer} (hb : b.Ordered) {start len : ℕ}
    (hlen : start + len ≤ b.size) {first second third : ℕ}
    (hparts : (b.iteratorAt start).parts len = (first, second, third)) :
    first + second + third = len ∧
      (∀ j < first, b.locate (start + j) = some (b.start + start + j)) ∧
      (∀ j < second, b.locate (start + (first + j)) = none) ∧
      (∀ j < third, b.locate (start + (first + second + j)) = some (b.start + start + first +
        second - (b.zeroAreaEnd - b.zeroAreaStart) + j)) := by
  have ⟨hone, htwo, hthree, _⟩ := hb
  unfold size at hlen
  have hfirst : first = if b.start + start ≤ b.zeroAreaStart then
      min len (b.zeroAreaStart - (b.start + start)) else 0 := (congrArg Prod.fst hparts).symm
  have hsecond : second = if b.start + start + first ≤ b.zeroAreaEnd then
      min (len - first) (b.zeroAreaEnd - (b.start + start + first)) else 0 := by
    rw [hfirst]
    exact (congrArg (fun p => p.2.1) hparts).symm
  have hthird : third =
      min (len - first - second) (b.endPos - (b.start + start + first + second)) := by
    rw [hsecond, hfirst]
    exact (congrArg (fun p => p.2.2) hparts).symm
  have hf : first ≤ len ∧ (first < len → b.zeroAreaStart ≤ b.start + start + first) ∧
      (0 < first → b.start + start + first ≤ b.zeroAreaStart) := by
    rw [hfirst]
    split <;> omega
  have hs : second ≤ len - first ∧
      (second < len - first → b.zeroAreaEnd ≤ b.start + start + first + second) ∧
      (0 < second → b.start + start + first + second ≤ b.zeroAreaEnd) := by
    rw [hsecond]
    split <;> omega
  refine ⟨by omega, fun j hj => ?_, fun j hj => ?_, fun j hj => ?_⟩
  · unfold locate
    rw [if_pos (by omega : b.start + (start + j) < b.zeroAreaStart), Nat.add_assoc]
  · unfold locate
    rw [if_neg (by omega : ¬ b.start + (start + (first + j)) < b.zeroAreaStart),
      if_pos (by omega : b.start + (start + (first + j)) < b.zeroAreaEnd)]
  · unfold locate
    rw [if_neg (by omega : ¬ b.start + (start + (first + second + j)) < b.zeroAreaStart),
      if_neg (by omega : ¬ b.start + (start + (first + second + j)) < b.zeroAreaEnd)]
    congr 1
    omega

/-- The three parts that are copied show the bytes of the range. -/
theorem Sane.copied (ht : Sane src t) {start len first second third : ℕ}
    (hlen : start + len ≤ t.ref.length)
    (hparts : (t.buf.iteratorAt start).parts len = (first, second, third)) (j : ℕ) (v : Octet)
    (hj : ((t.ref.drop start).take len)[j]? = some (some v)) :
    ((range first).map (fun i => src.bytes (t.buf.start + start + i)) ++
      replicate second 0 ++ (range third).map fun i => src.bytes (t.buf.start + start +
        first + second - (t.buf.zeroAreaEnd - t.buf.zeroAreaStart) + i))[j]? = some v := by
  have hsize : start + len ≤ t.buf.size := by rwa [← ht.shows.1]
  obtain ⟨hsum, hone, htwo, hthree⟩ := ht.ordered.parts hsize hparts
  have hjlen : j < len := by
    have hlt := (List.getElem?_eq_some_iff.mp hj).1
    rw [length_take] at hlt
    omega
  rw [List.getElem?_take_of_lt hjlen, List.getElem?_drop] at hj
  have hshow := ht.shows.2 (start + j) v hj
  have hlen₁ : ((range first).map fun i =>
      src.bytes (t.buf.start + start + i)).length = first := by
    rw [length_map, length_range]
  rw [append_assoc]
  by_cases hin : j < first
  · rw [hone j hin] at hshow
    rw [getElem?_append_left (by rwa [hlen₁]), getElem?_map, getElem?_range hin,
      ← hshow]
    rfl
  obtain ⟨k, rfl⟩ := Nat.exists_eq_add_of_le (Nat.le_of_not_lt hin)
  rw [getElem?_append_right (by rw [hlen₁]; exact Nat.le_add_right _ _), hlen₁,
    Nat.add_sub_cancel_left]
  by_cases hin' : k < second
  · rw [htwo k hin'] at hshow
    rw [getElem?_append_left (by rwa [length_replicate]),
      getElem?_replicate_of_lt hin', ← hshow]
    rfl
  obtain ⟨l, rfl⟩ := Nat.exists_eq_add_of_le (Nat.le_of_not_lt hin')
  have hl : l < third := by omega
  rw [← Nat.add_assoc first, hthree l hl] at hshow
  rw [getElem?_append_right (by rw [length_replicate]; exact Nat.le_add_right _ _),
    length_replicate, Nat.add_sub_cancel_left, getElem?_map, getElem?_range hl,
    ← hshow]
  rfl

/-- **`Write (start, end)`** to a range that passes its test and is inside the area, or to no range
at all: the bytes that the other buffer shows are put at the position itself. -/
theorem exists_writeFrom_at {store : Store} {b : Buffer} (ht : Sane (store.areas t.buf.data) t)
    (hne : b.data ≠ t.buf.data) {pos start len : ℕ}
    (hcheck : (b.iteratorAt pos).checkNoZero (b.start + pos) (b.start + pos + len) = true)
    (hlen : start + len ≤ t.ref.length)
    (hcapacity : len = 0 ∨ b.start + pos + len ≤ (store.areas b.data).capacity)
    (hsrc : (store.areas t.buf.data).size ≤ (store.areas t.buf.data).capacity) :
    ∃ d' bs, (b.iteratorAt pos).writeFrom store (t.buf.iteratorAt start) len =
        .ok (store.setArea b.data d') ∧ bs.length = len ∧
      (store.areas b.data).Overwritten d' (b.start + pos) bs ∧
      ∀ (j : ℕ) (v : Octet), ((t.ref.drop start).take len)[j]? = some (some v) →
        bs[j]? = some v := by
  obtain ⟨⟨first, second, third⟩, hparts⟩ : ∃ q, (t.buf.iteratorAt start).parts len = q := ⟨_, rfl⟩
  have hsize : start + len ≤ t.buf.size := by rwa [← ht.shows.1]
  obtain ⟨hsum, hone, htwo, hthree⟩ := ht.ordered.parts hsize hparts
  have hfirst : first = 0 ∨ t.buf.start + start + first ≤ (store.areas t.buf.data).capacity := by
    rcases Nat.eq_zero_or_pos first with hzero | hpos
    · exact .inl hzero
    · obtain ⟨-, hlt⟩ := ht.ordered.locate_bounds (by omega) (hone (first - 1) (by omega))
      have hfits := ht.fits
      exact .inr (by omega)
  have hthird : third = 0 ∨ t.buf.start + start + first + second -
      (t.buf.zeroAreaEnd - t.buf.zeroAreaStart) + third ≤ (store.areas t.buf.data).capacity := by
    rcases Nat.eq_zero_or_pos third with hzero | hpos
    · exact .inl hzero
    · obtain ⟨-, hlt⟩ := ht.ordered.locate_bounds (by omega) (hthree (third - 1) (by omega))
      have hfits := ht.fits
      exact .inr (by omega)
  -- the three copies one after the other
  obtain ⟨d₁, hcopy₁, h₁⟩ := (store.areas b.data).exists_copyFrom (store.areas t.buf.data)
    (b.start + pos) (t.buf.start + start) first hfirst (by omega)
  obtain ⟨d₂, hcopy₂, h₂⟩ := d₁.exists_overwrite (b.start + pos + first)
    (replicate second 0) (by rw [length_replicate, h₁.capacity]; omega)
  obtain ⟨d₃, hcopy₃, h₃⟩ := d₂.exists_copyFrom (store.areas t.buf.data)
    (b.start + pos + first + second) (t.buf.start + start + first + second -
      (t.buf.zeroAreaEnd - t.buf.zeroAreaStart)) third hthird
    (by rw [h₂.capacity, h₁.capacity]; omega)
  have hlen₁ : ((range first).map fun i =>
      (store.areas t.buf.data).bytes (t.buf.start + start + i)).length = first := by
    rw [length_map, length_range]
  have hlen₂ : ((range first).map (fun i =>
      (store.areas t.buf.data).bytes (t.buf.start + start + i)) ++
        replicate second 0).length = first + second := by
    rw [length_append, hlen₁, length_replicate]
  rw [← hlen₁] at h₂
  have hall := h₁.append h₂
  rw [Nat.add_assoc (b.start + pos), ← hlen₂] at h₃
  have hall' := hall.append h₃
  refine ⟨d₃, _, ?_, ?_, hall', ht.copied hlen hparts⟩
  · unfold BufferIterator.writeFrom
    rw [if_neg (show ¬ (b.iteratorAt pos).data = (t.buf.iteratorAt start).data from hne),
      if_pos (by exact hcheck), hparts]
    exact (congrArg (· >>= _) hcopy₁).trans ((Program.ok_bind _ _).trans
      ((congrArg (· >>= _) hcopy₂).trans ((Program.ok_bind _ _).trans
        ((congrArg (· >>= _) hcopy₃).trans (Program.ok_bind _ _)))))
  · rw [length_append, hlen₂, length_map, length_range]
    exact hsum

/-- The same for fresh bytes, if no zero area is before the place they are at. -/
theorem exists_writeFrom {store : Store} (hs : Sane (store.areas s.buf.data) s)
    (ht : Sane (store.areas t.buf.data) t) (hne : s.buf.data ≠ t.buf.data) {pos start len : ℕ}
    (hfresh : s.Fresh pos len) (hlen : start + len ≤ t.ref.length)
    (hbefore : s.buf.zeroAreaStart = s.buf.zeroAreaEnd ∨ pos + len ≤ s.freshStart)
    (hdst : (store.areas s.buf.data).size ≤ (store.areas s.buf.data).capacity)
    (hsrc : (store.areas t.buf.data).size ≤ (store.areas t.buf.data).capacity) :
    ∃ d' bs, (s.buf.iteratorAt pos).writeFrom store (t.buf.iteratorAt start) len =
        .ok (store.setArea s.buf.data d') ∧ bs.length = len ∧
      (store.areas s.buf.data).Overwritten d' (s.place pos len) bs ∧
      ∀ (j : ℕ) (v : Octet), ((t.ref.drop start).take len)[j]? = some (some v) →
        bs[j]? = some v := by
  have hplace : s.place pos len = s.buf.start + pos := by
    unfold Slot.place
    split
    · rfl
    · rename_i hnot
      rw [hbefore.resolve_right hnot, Nat.sub_self, Nat.sub_zero]
  obtain ⟨hstop, -, -⟩ := hs.place_bounds hfresh
  rw [hplace] at hstop ⊢
  exact exists_writeFrom_at ht hne (hs.checkNoZero hfresh (le_refl _)) hlen
    (.inr (hstop.trans (hs.fits.trans hdst))) hsrc

end Copying

end Ns3Dsme.Network
