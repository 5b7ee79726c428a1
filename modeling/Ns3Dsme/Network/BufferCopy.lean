/-
# Copying the bytes of a buffer

`CreateFullCopy`, `PeekData` and `CopyData`, which reproduce the bytes that a buffer shows, and
`Write (start, end)`, which does so where no zero area is in front of the place it writes to.
-/
import Ns3Dsme.Network.BufferIsolation

open List List Program

namespace Ns3Dsme.Network

open Word32

/-! ## Operations -/

/-- The bytes that `memcpy` reads; where nothing is read, the position does not matter. -/
def Data.read (d : Data) (start len : ℕ) : Except Fault (List Octet) :=
  if len = 0 ∨ start + len ≤ d.capacity then
    .ok ((range len).map fun i => d.bytes (start + i))
  else .error .outOfRange

namespace Buffer

/-- `End`, and then `Prev`. -/
def fromEnd (b : Buffer) (delta : ℕ) : Except Fault BufferIterator :=
  if delta ≤ b.endPos then .ok { b.iteratorAt 0 with current := b.endPos - delta }
  else .error .assertFailed

/-- `CreateFullCopy`; `garbage` is what the areas that may be allocated held before. -/
def createFullCopy (s : Store) (b : Buffer) (garbage : ℕ → ℕ → Octet) :
    Except Fault (Buffer × Store) :=
  if sub b.zeroAreaEnd b.zeroAreaStart ≠ 0 then do
    let tmp := initBuffer s 0 (garbage 0)
    let zeroSize := sub b.zeroAreaEnd b.zeroAreaStart
    let r ← tmp.1.addAtStart tmp.2 zeroSize (garbage 1)
    let store ← (r.1.iteratorAt 0).write r.2 (.writeU8Times 0 zeroSize)
    let dataStart := sub b.zeroAreaStart b.start
    let r ← r.1.addAtStart store dataStart (garbage 2)
    let buffer ← (r.2.areas b.data).read b.start dataStart
    let store ← (r.1.iteratorAt 0).write r.2 (.write buffer)
    let dataEnd := sub b.endPos b.zeroAreaEnd
    let r ← r.1.addAtEnd store dataEnd (garbage 3)
    let i ← r.1.fromEnd dataEnd
    let buffer ← (r.2.areas b.data).read b.zeroAreaStart dataEnd
    let store ← i.write r.2 (.write buffer)
    return (r.1, store)
  else .ok (copy s b)

/-- `*this = tmp`, and the destructor of `tmp`. -/
def become (s : Store) (b tmp : Buffer) : Buffer × Store :=
  let r := assign s b tmp
  (r.1, tmp.destroy r.2)

/-- `PeekData`: what `TransformIntoRealBuffer` makes of the buffer, to the first byte of which the
pointer then points. -/
def peekData (s : Store) (b : Buffer) (garbage : ℕ → ℕ → Octet) : Except Fault (Buffer × Store) :=
  (b.createFullCopy s garbage).map fun r => become r.2 b r.1

/-- The loop of `CopyData`, which takes the zeroes from an array of 1000. -/
def copyZeroes (left : ℕ) : List Octet :=
  if left = 0 then []
  else
    let toWrite := min left 1000
    replicate toWrite 0 ++ copyZeroes (left - toWrite)
termination_by left

/-- `CopyData`: what is written, the number of which is returned. -/
def copyData (s : Store) (b : Buffer) (size : ℕ) : Except Fault (List Octet) :=
  if 0 < size then do
    let tmpsize := min (sub b.zeroAreaStart b.start) size
    let first ← (s.areas b.data).read b.start tmpsize
    let size := size - tmpsize
    if 0 < size then
      let tmpsize := min (sub b.zeroAreaEnd b.zeroAreaStart) size
      let second := copyZeroes tmpsize
      let size := size - tmpsize
      if 0 < size then
        let third ← (s.areas b.data).read b.zeroAreaStart
          (min (sub b.endPos b.zeroAreaEnd) size)
        return first ++ second ++ third
      else return first ++ second
    else return first
  else .ok []

/-- The bytes that the buffer shows. -/
def shown (s : Store) (b : Buffer) : List Octet := (range b.size).map (b.visible s)

/-! ## The bytes that a buffer shows -/

@[simp] theorem length_shown (s : Store) (b : Buffer) : (b.shown s).length = b.size := by
  unfold shown
  rw [length_map, length_range]

variable {b : Buffer} {s : Store}

/-- They are the stored bytes, with the zeroes in between. -/
theorem Ordered.shown_eq (hb : b.Ordered) (s : Store) :
    b.shown s = (range (b.zeroAreaStart - b.start)).map
        (fun i => (s.areas b.data).bytes (b.start + i))
      ++ replicate (b.zeroAreaEnd - b.zeroAreaStart) 0
      ++ (range (b.endPos - b.zeroAreaEnd)).map
        (fun i => (s.areas b.data).bytes (b.zeroAreaStart + i)) := by
  have ⟨hone, htwo, hthree, _⟩ := hb
  have hsize : b.size = (b.zeroAreaStart - b.start) + (b.zeroAreaEnd - b.zeroAreaStart)
      + (b.endPos - b.zeroAreaEnd) := by
    unfold size
    omega
  have hfirst : ∀ i ∈ range (b.zeroAreaStart - b.start), b.visible s i
      = (s.areas b.data).bytes (b.start + i) := by
    intro i hi
    have hlt := mem_range.mp hi
    rw [visible_eq]
    unfold locate
    rw [if_pos (by omega)]
    rfl
  have hsecond : ∀ i ∈ range (b.zeroAreaEnd - b.zeroAreaStart),
      b.visible s (b.zeroAreaStart - b.start + i) = 0 := by
    intro i hi
    have hlt := mem_range.mp hi
    rw [visible_eq]
    unfold locate
    rw [if_neg (by omega), if_pos (by omega)]
    rfl
  have hthird : ∀ i ∈ range (b.endPos - b.zeroAreaEnd),
      b.visible s (b.zeroAreaStart - b.start + (b.zeroAreaEnd - b.zeroAreaStart) + i)
        = (s.areas b.data).bytes (b.zeroAreaStart + i) := by
    intro i hi
    have hlt := mem_range.mp hi
    rw [visible_eq]
    unfold locate
    rw [if_neg (by omega), if_neg (by omega)]
    show (s.areas b.data).bytes _ = _
    congr 1
    omega
  have hzeroes : (range (b.zeroAreaEnd - b.zeroAreaStart)).map
      (fun i => b.visible s (b.zeroAreaStart - b.start + i))
      = replicate (b.zeroAreaEnd - b.zeroAreaStart) 0 := by
    rw [map_congr_left hsecond, map_const', length_range]
  unfold shown
  rw [hsize, range_add, range_add, map_append, map_append, map_map,
    map_map, map_congr_left hfirst, ← hzeroes, ← map_congr_left hthird]
  rfl

/-- Where the list of a buffer knows every byte, it is what the buffer shows. -/
theorem shown_of_shows {bs : List Octet} (h : Shows (s.areas b.data).bytes b (bs.map some)) :
    b.shown s = bs := by
  have hlength : bs.length = b.size := by
    rw [← h.1, length_map]
  refine ext_getElem? fun i => ?_
  unfold shown
  rw [getElem?_map]
  by_cases hi : i < b.size
  · have hin : i < bs.length := by omega
    have hget : bs[i]? = some bs[i] := getElem?_eq_getElem hin
    rw [getElem?_range hi, hget]
    refine congrArg some ?_
    rw [visible_eq]
    refine h.2 i _ ?_
    rw [getElem?_map, hget]
    rfl
  · rw [getElem?_eq_none (by rw [length_range]; omega),
      getElem?_eq_none (by omega)]
    rfl

theorem shows_shown (s : Store) (b : Buffer) :
    Shows (s.areas b.data).bytes b ((b.shown s).map some) := by
  refine ⟨?_, fun i v hi => ?_⟩
  · rw [length_map, length_shown]
  · unfold shown at hi
    rw [map_map, getElem?_map, Option.map_eq_some_iff] at hi
    obtain ⟨j, hj, hv⟩ := hi
    have hij : i = j := by
      obtain ⟨hlt, heq⟩ := List.getElem?_eq_some_iff.mp hj
      rw [getElem_range] at heq
      exact heq
    rw [← visible_eq, hij]
    exact Option.some.inj hv

/-- The bytes in front of the zero area, the zero area, and the bytes behind it. -/
theorem Ordered.shown_split (hb : b.Ordered) (s : Store) :
    b.shown s = (b.shown s).take (b.zeroAreaStart - b.start)
      ++ replicate (b.zeroAreaEnd - b.zeroAreaStart) 0
      ++ (b.shown s).drop (b.zeroAreaEnd - b.start) := by
  have hone := hb.start_le
  have htwo := hb.zero_le
  have hlength : b.zeroAreaEnd - b.start
      = (b.zeroAreaStart - b.start) + (b.zeroAreaEnd - b.zeroAreaStart) := by omega
  conv_lhs => rw [hb.shown_eq]
  rw [hb.shown_eq, hlength, append_assoc, take_left' (by simp), append_assoc,
    ← append_assoc (map _ _) (replicate _ _), drop_left' (by simp),
    append_assoc]

/-- What is read in front of the zero area. -/
theorem Ordered.read_start (hb : b.Ordered) (hcapacity : b.stop ≤ (s.areas b.data).capacity) :
    (s.areas b.data).read b.start (b.zeroAreaStart - b.start)
      = .ok ((b.shown s).take (b.zeroAreaStart - b.start)) := by
  have ⟨hone, htwo, hthree, _⟩ := hb
  unfold stop at hcapacity
  unfold Data.read
  rw [if_pos (.inr (by omega)), hb.shown_eq, append_assoc, take_left' (by simp)]

/-- What is read behind it. -/
theorem Ordered.read_end (hb : b.Ordered) (hcapacity : b.stop ≤ (s.areas b.data).capacity) :
    (s.areas b.data).read b.zeroAreaStart (b.endPos - b.zeroAreaEnd)
      = .ok ((b.shown s).drop (b.zeroAreaEnd - b.start)) := by
  have ⟨hone, htwo, hthree, _⟩ := hb
  unfold stop at hcapacity
  have hlength : b.zeroAreaEnd - b.start
      = (b.zeroAreaStart - b.start) + (b.zeroAreaEnd - b.zeroAreaStart) := by omega
  unfold Data.read
  rw [if_pos (.inr (by omega)), hb.shown_eq, hlength, drop_left' (by simp)]

/-! ## `CopyData` -/

theorem copyZeroes_eq (left : ℕ) : copyZeroes left = replicate left 0 := by
  induction left using Nat.strong_induction_on with
  | _ left ih =>
    unfold copyZeroes
    split
    · rename_i hzero
      rw [hzero]
      rfl
    · rename_i hpos
      dsimp only
      rw [ih (left - min left 1000) (by omega), replicate_append_replicate]
      congr 1
      omega

/-- **`CopyData`** writes the bytes that the buffer shows, up to the size. -/
theorem Ordered.copyData_eq (hb : b.Ordered) (hcapacity : b.stop ≤ (s.areas b.data).capacity)
    (size : ℕ) :
    b.copyData s size = .ok ((b.shown s).take size) := by
  have ⟨hone, htwo, hthree, hsmall⟩ := hb
  unfold stop at hcapacity
  have hread (start len : ℕ) (hlen : start + len ≤ (s.areas b.data).capacity) :
      (s.areas b.data).read start len
        = .ok ((range len).map fun i => (s.areas b.data).bytes (start + i)) :=
    if_pos (.inr hlen)
  -- what the three parts contribute
  have htake : (b.shown s).take size
      = (range (min (b.zeroAreaStart - b.start) size)).map
          (fun i => (s.areas b.data).bytes (b.start + i))
        ++ replicate (min (b.zeroAreaEnd - b.zeroAreaStart)
          (size - (b.zeroAreaStart - b.start))) 0
        ++ (range (min (b.endPos - b.zeroAreaEnd)
            (size - (b.zeroAreaStart - b.start + (b.zeroAreaEnd - b.zeroAreaStart))))).map
          (fun i => (s.areas b.data).bytes (b.zeroAreaStart + i)) := by
    rw [hb.shown_eq, take_append, take_append, length_append, length_map,
      length_range, length_replicate, ← map_take, ← map_take,
      take_replicate, take_range, take_range]
    simp only [Nat.min_comm]
  rw [htake]
  unfold copyData
  rw [sub_eq hone (by omega), sub_eq htwo (by omega), sub_eq hthree hsmall]
  dsimp only
  by_cases hsize : 0 < size
  · rw [if_pos hsize, hread _ _ (by omega), Program.ok_bind]
    by_cases hzeroes : 0 < size - min (b.zeroAreaStart - b.start) size
    · have hfirst : size - min (b.zeroAreaStart - b.start) size
          = size - (b.zeroAreaStart - b.start) := by omega
      rw [if_pos hzeroes, copyZeroes_eq, hfirst]
      by_cases hrest : 0 < size - (b.zeroAreaStart - b.start)
          - min (b.zeroAreaEnd - b.zeroAreaStart) (size - (b.zeroAreaStart - b.start))
      · have hsecond : size - (b.zeroAreaStart - b.start)
            - min (b.zeroAreaEnd - b.zeroAreaStart) (size - (b.zeroAreaStart - b.start))
            = size - (b.zeroAreaStart - b.start + (b.zeroAreaEnd - b.zeroAreaStart)) := by omega
        rw [if_pos hrest, hread _ _ (by omega), Program.ok_bind, hsecond]
        rfl
      · rw [if_neg hrest, show size - (b.zeroAreaStart - b.start
          + (b.zeroAreaEnd - b.zeroAreaStart)) = 0 by omega, Nat.min_zero, range_zero,
          map_nil, append_nil]
        rfl
    · rw [if_neg hzeroes, show size - (b.zeroAreaStart - b.start
          + (b.zeroAreaEnd - b.zeroAreaStart)) = 0 by omega,
        show size - (b.zeroAreaStart - b.start) = 0 by omega, Nat.min_zero, Nat.min_zero,
        range_zero, map_nil, append_nil, replicate_zero, append_nil]
      rfl
  · obtain rfl : size = 0 := by omega
    rw [if_neg hsize]
    simp

/-! ## Where growing takes a buffer -/

section Growing

variable {b : Buffer} {s : Store} {refs : ℕ → ℕ} {n : ℕ} {garbage : ℕ → Octet} {r : Buffer × Store}

/-- The new area of a buffer that moves was nobody's. -/
theorem refs_reallocate (howned : s.Owned refs) {newSize pos p : ℕ} {s' : Store}
    (hsize : newSize + 20 ≤ 2 ^ 32) (h : b.reallocate s newSize pos garbage = .ok (p, s')) :
    refs p = 0 := by
  unfold reallocate at h
  dsimp only at h
  cases hcopy : ((s.create newSize garbage).2.areas (s.create newSize garbage).1).copyFrom pos
      ((s.create newSize garbage).2.areas b.data) b.start b.getInternalSize with
  | error fault =>
    rw [hcopy] at h
    cases h
  | ok d =>
    rw [hcopy] at h
    cases h
    exact (howned.create newSize garbage hsize).1

/-- What `AddAtStart` does to the positions, and that the area is the old one or a new one. -/
theorem Ordered.addAtStart_spec (hb : b.Ordered) (howned : s.Owned refs)
    (hn : b.size + n + 20 ≤ 2 ^ 32) (h : b.addAtStart s n garbage = .ok r) :
    (r.1.data = b.data ∨ refs r.1.data = 0)
      ∧ r.1.zeroAreaStart + b.start = b.zeroAreaStart + (r.1.start + n)
      ∧ r.1.zeroAreaEnd + b.start = b.zeroAreaEnd + (r.1.start + n)
      ∧ r.1.endPos + b.start = b.endPos + (r.1.start + n)
      ∧ r.1.start ≤ b.start := by
  have hstop : b.stop - b.start ≤ b.size := Nat.sub_le_sub_right (Nat.sub_le _ _) _
  unfold Buffer.addAtStart at h
  dsimp only at h
  split at h
  · rename_i hplace
    split at h
    · cases h
      refine ⟨.inl rfl, ?_, ?_, ?_, Nat.sub_le _ _⟩
      · show b.zeroAreaStart + b.start = b.zeroAreaStart + (b.start - n + n)
        omega
      · show b.zeroAreaEnd + b.start = b.zeroAreaEnd + (b.start - n + n)
        omega
      · show b.endPos + b.start = b.endPos + (b.start - n + n)
        omega
    · cases h
  · have hnew : add b.getInternalSize n = b.stop - b.start + n := by
      rw [hb.getInternalSize_eq]
      exact add_eq (by omega)
    cases hmove : b.reallocate s (add b.getInternalSize n) n garbage with
    | error fault =>
      rw [hmove] at h
      cases h
    | ok q =>
      obtain ⟨p, s'⟩ := q
      rw [hmove] at h
      cases h
      obtain ⟨hstart, hzs, hze, hend⟩ := hb.movedAtStart n p (by omega)
      refine ⟨.inr (refs_reallocate howned (by omega) hmove), ?_, ?_, ?_, ?_⟩
      · show (b.movedAtStart n p).zeroAreaStart + b.start
          = b.zeroAreaStart + ((b.movedAtStart n p).start + n)
        omega
      · show (b.movedAtStart n p).zeroAreaEnd + b.start
          = b.zeroAreaEnd + ((b.movedAtStart n p).start + n)
        omega
      · show (b.movedAtStart n p).endPos + b.start = b.endPos + ((b.movedAtStart n p).start + n)
        omega
      · show (b.movedAtStart n p).start ≤ b.start
        omega

/-- What `AddAtEnd` does to the positions, and that the area is the old one, which then had the
room, or a new one. -/
theorem Ordered.addAtEnd_spec (hb : b.Ordered) (howned : s.Owned refs)
    (hn : b.endPos + n + 20 ≤ 2 ^ 32) (h : b.addAtEnd s n garbage = .ok r) :
    (r.1.data = b.data ∧ b.stop + n ≤ (s.areas b.data).size
        ∧ ¬ (1 < (s.areas b.data).count ∧ b.endPos < (s.areas b.data).dirtyEnd)
        ∨ refs r.1.data = 0)
      ∧ r.1.zeroAreaStart + b.start = b.zeroAreaStart + r.1.start
      ∧ r.1.zeroAreaEnd + b.start = b.zeroAreaEnd + r.1.start
      ∧ r.1.endPos + b.start = b.endPos + n + r.1.start
      ∧ r.1.start ≤ b.start := by
  have hstop : b.stop ≤ b.endPos := Nat.sub_le _ _
  have hsize : b.size ≤ b.endPos := Nat.sub_le _ _
  have hinternal : add b.getInternalEnd n = b.stop + n := by
    rw [hb.getInternalEnd_eq]
    exact add_eq (by omega)
  have hend : add b.endPos n = b.endPos + n := add_eq (by omega)
  unfold Buffer.addAtEnd at h
  dsimp only at h
  rw [hinternal, hend] at h
  split at h
  · rename_i hplace
    split at h
    · cases h
      refine ⟨.inl ⟨rfl, hplace⟩, rfl, rfl, rfl, le_refl _⟩
    · cases h
  · have hnew : add b.getInternalSize n = b.stop - b.start + n := by
      rw [hb.getInternalSize_eq]
      exact add_eq (by omega)
    cases hmove : b.reallocate s (add b.getInternalSize n) 0 garbage with
    | error fault =>
      rw [hmove] at h
      cases h
    | ok q =>
      obtain ⟨p, s'⟩ := q
      rw [hmove] at h
      cases h
      obtain ⟨hstart, hzs, hze, hend⟩ := hb.movedAtEnd n p (by omega)
      refine ⟨.inr (refs_reallocate howned (by omega) hmove), ?_, ?_, ?_, ?_⟩
      · show (b.movedAtEnd n p).zeroAreaStart + b.start
          = b.zeroAreaStart + (b.movedAtEnd n p).start
        omega
      · show (b.movedAtEnd n p).zeroAreaEnd + b.start = b.zeroAreaEnd + (b.movedAtEnd n p).start
        omega
      · show (b.movedAtEnd n p).endPos + b.start = b.endPos + n + (b.movedAtEnd n p).start
        omega
      · show (b.movedAtEnd n p).start ≤ b.start
        omega

end Growing

theorem Ordered.fromEnd_eq (hb : b.Ordered) {n : ℕ} (hn : n ≤ b.size) :
    b.fromEnd n = .ok (b.iteratorAt (b.size - n)) := by
  have ⟨hone, htwo, hthree, _⟩ := hb
  unfold size at hn
  have hcurrent : b.endPos - n = b.start + (b.size - n) := by
    unfold size
    omega
  unfold fromEnd
  rw [if_pos (by omega), hcurrent]
  rfl

end Buffer

namespace Slot

/-- What is written to the bytes that were added in front stands there. -/
theorem ref_written_front (s : Slot) (b : Buffer) {n : ℕ} {rs : List (Option Octet)}
    (h : rs.length = n) : ((s.addedAtStart b n).written 0 rs).ref = rs ++ s.ref := by
  show (replicate n none ++ s.ref).take 0 ++ rs
    ++ (replicate n none ++ s.ref).drop (0 + rs.length) = _
  rw [take_zero, nil_append, Nat.zero_add, h, drop_left' length_replicate]

/-- What is written to the bytes that were added behind stands there. -/
theorem ref_written_back (s : Slot) (b : Buffer) {n : ℕ} {rs : List (Option Octet)}
    (h : rs.length = n) : ((s.addedAtEnd b n).written s.ref.length rs).ref = s.ref ++ rs := by
  show (s.ref ++ replicate n none).take s.ref.length ++ rs
    ++ (s.ref ++ replicate n none).drop (s.ref.length + rs.length) = _
  rw [take_left' rfl, drop_of_length_le (by
    rw [length_append, length_replicate, h]), append_nil]

end Slot

namespace Buffers

variable {w : Buffers}

/-! ## A buffer that is being filled -/

theorem slot_addSlot_last (s : Slot) (store : Store) :
    (w.addSlot s store).slot w.slots.length = some s := by
  unfold slot addSlot
  dsimp only
  rw [getElem?_append_right (le_refl _), Nat.sub_self]
  rfl

theorem lt_length_of_slot {b : ℕ} {t : Slot} (h : w.slot b = some t) : b < w.slots.length :=
  (List.getElem?_eq_some_iff.mp (getElem?_of_slot h)).1

theorem slot_addSlot_of_slot {b : ℕ} {t : Slot} (h : w.slot b = some t) (s : Slot) (store : Store) :
    (w.addSlot s store).slot b = some t := by
  unfold slot addSlot
  dsimp only
  rw [getElem?_append_left (lt_length_of_slot h)]
  exact h

theorem setSlot_addSlot_last (s s' : Slot) (store store' : Store) :
    (w.addSlot s store).setSlot w.slots.length (some s') store' = w.addSlot s' store' := by
  unfold setSlot addSlot
  dsimp only
  rw [set_append_right _ _ (le_refl _), Nat.sub_self]
  rfl

/-- A new buffer without a zero area, in an area of its own, and at least as large as its end. -/
structure Filling (w : Buffers) (tmp : Slot) (store : Store) (bound : ℕ) : Prop where
  inv : (w.addSlot tmp store).Inv
  plain : tmp.buf.zeroAreaStart = tmp.buf.zeroAreaEnd
  own : w.refs tmp.buf.data = 0
  endPos_le : tmp.buf.endPos ≤ bound

section Filling

variable {tmp : Slot} {store : Store} {bound : ℕ}

theorem refs_of_addSlot {p : ℕ} (h : (w.addSlot tmp store).refs p = 0) : w.refs p = 0 := by
  rw [refs_addSlot, Function.update_apply] at h
  split at h
  · cases h
  · exact h

variable (h : w.Filling tmp store bound)
include h

theorem Filling.ordered : tmp.buf.Ordered :=
  (h.inv.sane _ _ (slot_addSlot_last tmp store)).ordered

omit h in
/-- A new buffer. -/
theorem Inv.filling (h : w.Inv) (garbage : ℕ → Octet) (hsmall : w.store.recommendedStart < 2 ^ 32) :
    w.Filling ⟨(Buffer.initBuffer w.store 0 garbage).1, [], 0, 0⟩
      (Buffer.initBuffer w.store 0 garbage).2 w.store.recommendedStart := by
  obtain ⟨hzero, -, -, hrecommended, -⟩ := h.owned.create 0 garbage (by decide)
  have hstart : min ((w.store.create 0 garbage).2.areas (w.store.create 0 garbage).1).size
      (w.store.create 0 garbage).2.recommendedStart ≤ w.store.recommendedStart := by
    rw [hrecommended]
    exact Nat.min_le_right _ _
  have hend : add (min ((w.store.create 0 garbage).2.areas
      (w.store.create 0 garbage).1).size (w.store.create 0 garbage).2.recommendedStart) 0
      = min ((w.store.create 0 garbage).2.areas (w.store.create 0 garbage).1).size
        (w.store.create 0 garbage).2.recommendedStart := add_eq (by omega)
  refine ⟨h.construct 0 garbage (by omega), hend.symm, hzero, ?_⟩
  show add _ 0 ≤ _
  rw [hend]
  exact hstart

theorem Filling.addAtStart (n : ℕ) (garbage : ℕ → Octet) (hn : bound + n + 20 ≤ 2 ^ 32) :
    ∃ r, tmp.buf.addAtStart store n garbage = .ok r
      ∧ w.Filling (tmp.addedAtStart r.1 n) r.2 (bound + n) := by
  have hle := h.endPos_le
  have hsize : tmp.buf.size ≤ tmp.buf.endPos := Nat.sub_le _ _
  obtain ⟨r, hadd, hinv⟩ := h.inv.addAtStart (slot_addSlot_last tmp store) n garbage (by omega)
  obtain ⟨hdata, hzs, hze, hend, hstart⟩ :=
    h.ordered.addAtStart_spec h.inv.owned (by omega) hadd
  have hplain := h.plain
  rw [setSlot_addSlot_last] at hinv
  refine ⟨r, hadd, hinv, ?_, ?_, ?_⟩
  · show r.1.zeroAreaStart = r.1.zeroAreaEnd
    omega
  · rcases hdata with hsame | hnew
    · exact (congrArg w.refs hsame).trans h.own
    · exact refs_of_addSlot hnew
  · show r.1.endPos ≤ bound + n
    omega

theorem Filling.addAtEnd (n : ℕ) (garbage : ℕ → Octet) (hn : bound + n + 20 ≤ 2 ^ 32) :
    ∃ r, tmp.buf.addAtEnd store n garbage = .ok r
      ∧ w.Filling (tmp.addedAtEnd r.1 n) r.2 (bound + n) := by
  have hle := h.endPos_le
  obtain ⟨r, hadd, hinv⟩ := h.inv.addAtEnd (slot_addSlot_last tmp store) n garbage (by omega)
  obtain ⟨hdata, hzs, hze, hend, hstart⟩ := h.ordered.addAtEnd_spec h.inv.owned (by omega) hadd
  have hplain := h.plain
  rw [setSlot_addSlot_last] at hinv
  refine ⟨r, hadd, hinv, ?_, ?_, ?_⟩
  · show r.1.zeroAreaStart = r.1.zeroAreaEnd
    omega
  · rcases hdata with ⟨hsame, -⟩ | hnew
    · exact (congrArg w.refs hsame).trans h.own
    · exact refs_of_addSlot hnew
  · show r.1.endPos ≤ bound + n
    omega

theorem Filling.write (pos : ℕ) (call : BufferIterator.WriteCall)
    (hfresh : tmp.Fresh pos call.bytes.length) :
    ∃ store', (tmp.buf.iteratorAt pos).write store call = .ok store'
      ∧ w.Filling (tmp.written pos (call.bytes.map some)) store' bound := by
  obtain ⟨store', hwrite, hinv⟩ := h.inv.write (slot_addSlot_last tmp store) pos call hfresh
  rw [setSlot_addSlot_last] at hinv
  exact ⟨store', hwrite, hinv, h.plain, h.own, h.endPos_le⟩

/-- The stored bytes of a buffer that is not being filled stay where they are. -/
theorem Filling.kept {a : ℕ} {s : Slot} (ha : w.slot a = some s) {bs : List Octet}
    (href : s.ref = bs.map some) :
    s.buf.shown store = bs ∧ s.buf.stop ≤ (store.areas s.buf.data).capacity := by
  have hslot := slot_addSlot_of_slot ha tmp store
  have hsane := h.inv.sane a s hslot
  refine ⟨Buffer.shown_of_shows (href ▸ hsane.shows), hsane.fits.trans ?_⟩
  exact h.inv.owned.capacity _ (h.inv.owned.lt_next (refs_pos hslot))

/-- **Bytes are added in front and written.** -/
theorem Filling.prepend (garbage : ℕ → Octet) (call : BufferIterator.WriteCall)
    (hn : bound + call.bytes.length + 20 ≤ 2 ^ 32) :
    ∃ r store' tmp', tmp.buf.addAtStart store call.bytes.length garbage = .ok r
      ∧ (r.1.iteratorAt 0).write r.2 call = .ok store' ∧ tmp'.buf = r.1
      ∧ tmp'.ref = call.bytes.map some ++ tmp.ref
      ∧ w.Filling tmp' store' (bound + call.bytes.length)
      ∧ w.Filling (tmp.addedAtStart r.1 call.bytes.length) r.2 (bound + call.bytes.length) := by
  obtain ⟨r, hadd, hadded⟩ := h.addAtStart call.bytes.length garbage hn
  obtain ⟨store', hwrite, hwritten⟩ := hadded.write 0 call (.inl (by
    show 0 + call.bytes.length ≤ tmp.freshStart + call.bytes.length
    omega))
  exact ⟨r, store', _, hadd, hwrite, rfl,
    tmp.ref_written_front r.1 (by rw [length_map]), hwritten, hadded⟩

/-- **Bytes are added behind and written.** -/
theorem Filling.append (garbage : ℕ → Octet) (call : BufferIterator.WriteCall)
    (hn : bound + call.bytes.length + 20 ≤ 2 ^ 32) :
    ∃ r store' tmp', tmp.buf.addAtEnd store call.bytes.length garbage = .ok r
      ∧ r.1.fromEnd call.bytes.length = .ok (r.1.iteratorAt tmp.ref.length)
      ∧ (r.1.iteratorAt tmp.ref.length).write r.2 call = .ok store' ∧ tmp'.buf = r.1
      ∧ tmp'.ref = tmp.ref ++ call.bytes.map some
      ∧ w.Filling tmp' store' (bound + call.bytes.length)
      ∧ w.Filling (tmp.addedAtEnd r.1 call.bytes.length) r.2 (bound + call.bytes.length) := by
  obtain ⟨r, hadd, hadded⟩ := h.addAtEnd call.bytes.length garbage hn
  have hlength : (tmp.ref ++ replicate call.bytes.length none).length = r.1.size :=
    (hadded.inv.sane _ _ (slot_addSlot_last _ _)).shows.1
  rw [length_append, length_replicate] at hlength
  obtain ⟨store', hwrite, hwritten⟩ := hadded.write tmp.ref.length call (.inr (by
    show (tmp.ref ++ replicate call.bytes.length none).length
        - (tmp.freshEnd + call.bytes.length) ≤ tmp.ref.length
      ∧ tmp.ref.length + call.bytes.length
        ≤ (tmp.ref ++ replicate call.bytes.length none).length
    rw [length_append, length_replicate]
    omega))
  refine ⟨r, store', _, hadd, ?_, hwrite, rfl,
    tmp.ref_written_back r.1 (by rw [length_map]), hwritten, hadded⟩
  have hordered : r.1.Ordered := hadded.ordered
  rw [hordered.fromEnd_eq (by omega), show r.1.size - call.bytes.length = tmp.ref.length by omega]

end Filling

/-- **`CreateFullCopy`** of a buffer with a zero area: a buffer without one, in an area of its
own, that shows the same bytes. -/
theorem Inv.createFullCopy (h : w.Inv) {a : ℕ} {s : Slot} (ha : w.slot a = some s) {bs : List Octet}
    (href : s.ref = bs.map some) (hzero : s.buf.zeroAreaStart ≠ s.buf.zeroAreaEnd)
    (hsmall : w.store.recommendedStart + s.buf.size + 20 ≤ 2 ^ 32) (garbage : ℕ → ℕ → Octet) :
    ∃ r tmp, s.buf.createFullCopy w.store garbage = .ok r ∧ tmp.buf = r.1 ∧ tmp.ref = s.ref
      ∧ w.Filling tmp r.2 (w.store.recommendedStart + s.buf.size) := by
  have hs := h.sane a s ha
  have ⟨hone, htwo, hthree, hlast⟩ := hs.ordered
  -- the sizes of the three parts
  obtain ⟨z, hz⟩ : ∃ z, z = s.buf.zeroAreaEnd - s.buf.zeroAreaStart := ⟨_, rfl⟩
  obtain ⟨m, hm⟩ : ∃ m, m = s.buf.zeroAreaStart - s.buf.start := ⟨_, rfl⟩
  obtain ⟨n, hn⟩ : ∃ n, n = s.buf.endPos - s.buf.zeroAreaEnd := ⟨_, rfl⟩
  have hsize : s.buf.size = z + m + n := by
    unfold Buffer.size
    omega
  have hlength : bs.length = s.buf.size := by
    have hlen := hs.shows.1
    rwa [href, length_map] at hlen
  have hbehind : s.buf.zeroAreaEnd - s.buf.start = m + z := by omega
  have hzeroes : (BufferIterator.WriteCall.writeU8Times 0 z).bytes.length = z :=
    length_replicate
  have htake : (BufferIterator.WriteCall.write (bs.take m)).bytes.length = m := by
    show (bs.take m).length = m
    rw [length_take, hlength]
    omega
  have hdrop : (BufferIterator.WriteCall.write (bs.drop (m + z))).bytes.length = n := by
    show (bs.drop (m + z)).length = n
    rw [length_drop, hlength]
    omega
  -- first the zeroes, then the bytes in front of them, then those behind them
  obtain ⟨r₁, st₁, tmp₁, hadd₁, hwrite₁, hbuf₁, href₁, h₁, -⟩ :=
    (h.filling (garbage 0) (by omega)).prepend (garbage 1) (.writeU8Times 0 z) (by omega)
  rw [hzeroes] at hadd₁ h₁
  obtain ⟨r₂, st₂, tmp₂, hadd₂, hwrite₂, hbuf₂, href₂, h₂, hadded₂⟩ :=
    h₁.prepend (garbage 2) (.write (bs.take m)) (by omega)
  rw [htake] at hadd₂ h₂ hadded₂
  obtain ⟨r₃, st₃, tmp₃, hadd₃, hend₃, hwrite₃, hbuf₃, href₃, h₃, hadded₃⟩ :=
    h₂.append (garbage 3) (.write (bs.drop (m + z))) (by omega)
  rw [hdrop] at hadd₃ hend₃ h₃ hadded₃
  -- what is read in between
  obtain ⟨hkept₂, hcap₂⟩ := hadded₂.kept ha href
  obtain ⟨hkept₃, hcap₃⟩ := hadded₃.kept ha href
  have hread₂ : (r₂.2.areas s.buf.data).read s.buf.start m = .ok (bs.take m) := by
    rw [hm, hs.ordered.read_start hcap₂, hkept₂]
  have hread₃ : (r₃.2.areas s.buf.data).read s.buf.zeroAreaStart n = .ok (bs.drop (m + z)) := by
    rw [hn, hs.ordered.read_end hcap₃, hkept₃, hbehind]
  refine ⟨(r₃.1, st₃), tmp₃, ?_, hbuf₃, ?_, ?_⟩
  · unfold Buffer.createFullCopy
    rw [sub_eq htwo (by omega), sub_eq hone (by omega), sub_eq hthree hlast,
      ← hz, ← hm, ← hn, if_pos (by omega)]
    dsimp only
    rw [show _ = _ from hadd₁, Program.ok_bind, hwrite₁, Program.ok_bind, ← hbuf₁, hadd₂,
      Program.ok_bind, hread₂, Program.ok_bind, hwrite₂, Program.ok_bind, ← hbuf₂, hadd₃,
      Program.ok_bind, hend₃, Program.ok_bind, hread₃, Program.ok_bind, hwrite₃]
    rfl
  · have hbs : bs = bs.take m ++ replicate z 0 ++ bs.drop (m + z) := by
      have hsplit := hs.ordered.shown_split w.store
      rwa [Buffer.shown_of_shows (href ▸ hs.shows), ← hm, ← hz, hbehind] at hsplit
    rw [href₃, href₂, href₁, href]
    conv_rhs => rw [hbs]
    rw [map_append, map_append, append_nil]
    rfl
  · show w.Filling tmp₃ st₃ (w.store.recommendedStart + s.buf.size)
    rw [hsize, ← Nat.add_assoc, ← Nat.add_assoc]
    exact h₃

end Buffers

end Ns3Dsme.Network
