/-
# Memory as a function of the position

Reading a range gives a list; writing a list changes the range it fills and nothing else.
-/
import Mathlib.Data.List.Basic

open List

namespace Memory

variable {α : Type*}

/-- What is in a range. -/
def span (m : ℕ → α) (pos len : ℕ) : List α := (List.range len).map fun i => m (pos + i)

/-- A list is written from a position on. -/
def write (m : ℕ → α) (pos : ℕ) (bs : List α) (p : ℕ) : α :=
  if p < pos then m p else (bs[p - pos]?).getD (m p)

@[simp] theorem length_span (m : ℕ → α) (pos len : ℕ) : (span m pos len).length = len := by
  unfold span
  rw [length_map, length_range]

theorem getElem?_span (m : ℕ → α) (pos : ℕ) {len i : ℕ} (hi : i < len) :
    (span m pos len)[i]? = some (m (pos + i)) := by
  unfold span
  rw [List.getElem?_map, List.getElem?_range hi]
  rfl

theorem span_congr {m m' : ℕ → α} {pos len : ℕ} (h : ∀ i < len, m (pos + i) = m' (pos + i)) :
    span m pos len = span m' pos len :=
  map_congr_left fun i hi => h i (mem_range.mp hi)

/-- Two ranges one after the other. -/
theorem span_add (m : ℕ → α) (pos a b : ℕ) :
    span m pos (a + b) = span m pos a ++ span m (pos + a) b := by
  unfold span
  rw [range_add, map_append, map_map]
  congr 1
  refine map_congr_left fun i _ => ?_
  show m (pos + (a + i)) = m (pos + a + i)
  rw [Nat.add_assoc]

/-- The parts of a range that is known as a whole. -/
theorem span_of_append {m : ℕ → α} {pos : ℕ} {as bs : List α}
    (h : span m pos (as.length + bs.length) = as ++ bs) :
    span m pos as.length = as ∧ span m (pos + as.length) bs.length = bs := by
  rw [span_add] at h
  exact append_inj h (length_span m pos as.length)

/-- What was written before the range is not in it. -/
theorem write_of_lt (m : ℕ → α) {pos p : ℕ} (bs : List α) (h : p < pos) : write m pos bs p = m p :=
  if_pos h

theorem write_add (m : ℕ → α) (pos : ℕ) {bs : List α} {i : ℕ} {b : α} (h : bs[i]? = some b) :
    write m pos bs (pos + i) = b := by
  unfold write
  rw [if_neg (Nat.not_lt.mpr (Nat.le_add_right _ _)), Nat.add_sub_cancel_left, h]
  rfl

theorem span_write_self (m : ℕ → α) (pos : ℕ) (bs : List α) :
    span (write m pos bs) pos bs.length = bs := by
  refine ext_getElem? fun i => ?_
  by_cases hi : i < bs.length
  · rw [getElem?_span _ _ hi, List.getElem?_eq_getElem hi]
    exact congrArg some (write_add m pos (List.getElem?_eq_getElem hi))
  · rw [List.getElem?_eq_none (by rw [length_span]; omega), List.getElem?_eq_none (by omega)]

/-- A range before what is written. -/
theorem span_write_of_le (m : ℕ → α) {pos start len : ℕ} (bs : List α) (h : start + len ≤ pos) :
    span (write m pos bs) start len = span m start len :=
  span_congr fun i hi => write_of_lt m bs (by omega)

end Memory
