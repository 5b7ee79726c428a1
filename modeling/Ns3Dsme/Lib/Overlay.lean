/-
# Images with holes

A program that lays out data in memory leaves the padding as it finds it.  What it writes is a list
with holes: `overlay` puts it over a memory, `extent` is where the last thing written ends, and
`Fills` says what is read back.
-/
import Ns3Dsme.Lib.Memory
import Mathlib.Logic.Nontrivial.Basic

open List List

namespace Memory

variable {α : Type*}

/-- An image is put over a memory; where it has a hole, what was there stays. -/
def overlay (m : ℕ → α) (pos : ℕ) (image : List (Option α)) (p : ℕ) : α :=
  if p < pos then m p else ((image[p - pos]?).join).getD (m p)

/-- Where the last thing written ends. -/
def extent : List (Option α) → ℕ
  | [] => 0
  | x :: rest => if extent rest = 0 then (if x.isSome then 1 else 0) else extent rest + 1

/-- The list agrees with the image where the image has no hole. -/
structure Fills (os : List α) (image : List (Option α)) : Prop where
  length : os.length = image.length
  get : ∀ (i : ℕ) (v : α), image[i]? = some (some v) → os[i]? = some v

/-! ## Writing -/

@[simp] theorem overlay_nil (m : ℕ → α) (pos : ℕ) : overlay m pos [] = m := by
  funext p
  unfold overlay
  split
  · rfl
  · rfl

theorem overlay_append (m : ℕ → α) (pos : ℕ) (as bs : List (Option α)) :
    overlay (overlay m pos as) (pos + as.length) bs = overlay m pos (as ++ bs) := by
  funext p
  unfold overlay
  by_cases hlt : p < pos
  · rw [if_pos (by omega : p < pos + as.length), if_pos hlt, if_pos hlt]
  rw [if_neg hlt, if_neg hlt]
  by_cases hin : p < pos + as.length
  · rw [if_pos hin, getElem?_append_left (by omega)]
  · rw [if_neg hin, getElem?_append_right (by omega), Nat.sub_sub,
      getElem?_eq_none (by omega : as.length ≤ p - pos)]
    rfl

/-- A list is an image without holes. -/
theorem write_eq_overlay (m : ℕ → α) (pos : ℕ) (bs : List α) :
    write m pos bs = overlay m pos (bs.map some) := by
  funext p
  unfold write overlay
  rw [getElem?_map]
  cases bs[p - pos]? with
  | none => rfl
  | some b => rfl

/-- Writing one list after the other. -/
theorem write_write (m : ℕ → α) (pos : ℕ) (as bs : List α) :
    write (write m pos as) (pos + as.length) bs = write m pos (as ++ bs) := by
  have happend := overlay_append m pos (as.map some) (bs.map some)
  rw [length_map] at happend
  rw [write_eq_overlay, write_eq_overlay, write_eq_overlay, happend, map_append]

theorem overlay_holes (m : ℕ → α) (pos n : ℕ) : overlay m pos (replicate n none) = m := by
  funext p
  unfold overlay
  rw [getElem?_replicate]
  split
  · rfl
  · split
    · rfl
    · rfl

/-- The front of an image is written once more. -/
theorem write_overlay (m : ℕ → α) (pos : ℕ) {as bs : List α} (rest : List (Option α))
    (h : as.length = bs.length) :
    write (overlay m pos (as.map some ++ rest)) pos bs = overlay m pos (bs.map some ++ rest) := by
  funext p
  unfold write overlay
  by_cases hlt : p < pos
  · rw [if_pos hlt, if_pos hlt, if_pos hlt]
  rw [if_neg hlt, if_neg hlt, if_neg hlt]
  by_cases hin : p - pos < bs.length
  · have hfront : p - pos < (bs.map some).length := by
      rw [length_map]
      exact hin
    rw [getElem?_append_left hfront, getElem?_map, getElem?_eq_getElem hin]
    rfl
  · rw [getElem?_eq_none (by omega),
      getElem?_append_right (by rw [length_map]; omega),
      getElem?_append_right (by rw [length_map]; omega), length_map,
      length_map, h]
    rfl

/-! ## What is changed -/

theorem extent_le_iff (image : List (Option α)) (k : ℕ) :
    extent image ≤ k ↔ ∀ i, k ≤ i → (image[i]?).join = none := by
  induction image generalizing k with
  | nil => exact ⟨fun _ i _ => rfl, fun _ => Nat.zero_le _⟩
  | cons x rest ih =>
    unfold extent
    cases k with
    | zero =>
      have hrest := ih 0
      constructor
      · intro hle i _
        have hzero : extent rest = 0 := by
          by_contra hne
          rw [if_neg hne] at hle
          omega
        rw [if_pos hzero] at hle
        cases i with
        | zero =>
          cases x with
          | none => rfl
          | some v => exact absurd hle (by simp)
        | succ i => exact hrest.mp (Nat.le_of_eq hzero) i (Nat.zero_le _)
      · intro hall
        have hzero : extent rest = 0 :=
          Nat.le_zero.mp (hrest.mpr fun i _ => hall (i + 1) (Nat.zero_le _))
        have hx : x = none := hall 0 (Nat.le_refl _)
        rw [if_pos hzero, hx]
        exact Nat.le_refl _
    | succ k =>
      have hrest := ih k
      have hle : (if extent rest = 0 then (if x.isSome then 1 else 0) else extent rest + 1) ≤ k + 1
          ↔ extent rest ≤ k := by
        split
        · rename_i hzero
          rw [hzero]
          split <;> omega
        · omega
      rw [hle, hrest]
      constructor
      · intro hall i hi
        cases i with
        | zero => exact absurd hi (by omega)
        | succ i => exact hall i (by omega)
      · intro hall i hi
        exact hall (i + 1) (by omega)

theorem extent_le_length (image : List (Option α)) : extent image ≤ image.length := by
  rw [extent_le_iff]
  intro i hi
  rw [getElem?_eq_none hi]
  rfl

theorem extent_append (as bs : List (Option α)) :
    extent (as ++ bs) = if extent bs = 0 then extent as else as.length + extent bs := by
  induction as with
  | nil =>
    split
    · rename_i hzero
      exact hzero
    · exact (Nat.zero_add _).symm
  | cons x rest ih =>
    rw [cons_append, extent, ih, extent]
    by_cases hzero : extent bs = 0
    · rw [if_pos hzero, if_pos hzero]
    · rw [if_neg hzero, if_neg hzero, if_neg (by omega), length_cons]
      omega

/-- What follows a list without an open end. -/
theorem extent_append_of_full {as : List (Option α)} (h : extent as = as.length)
    (bs : List (Option α)) : extent (as ++ bs) = as.length + extent bs := by
  rw [extent_append]
  split
  · rename_i hzero
    rw [hzero, h, Nat.add_zero]
  · rfl

theorem extent_append_of_pos (as : List (Option α)) {bs : List (Option α)} (h : 0 < extent bs) :
    extent (as ++ bs) = as.length + extent bs := by
  rw [extent_append, if_neg (Nat.ne_of_gt h)]

/-- Of several images in a row, the last one decides how much is open at the end. -/
theorem extent_flatMap {β : Type*} (f : β → List (Option α)) (unwritten : β → ℕ)
    (hf : ∀ x, 0 < extent (f x) ∧ extent (f x) + unwritten x = (f x).length) (xs : List β) :
    extent (xs.flatMap f) + (xs.getLast?).elim 0 unwritten = (xs.flatMap f).length := by
  rcases eq_nil_or_concat xs with rfl | ⟨ys, x, rfl⟩
  · rfl
  · obtain ⟨hpos, hx⟩ := hf x
    rw [concat_eq_append, flatMap_append, flatMap_singleton,
      getLast?_append_of_ne_nil _ (cons_ne_nil x []), extent_append_of_pos _ hpos,
      length_append, ← hx, Nat.add_assoc]
    rfl

theorem extent_map_some (bs : List α) : extent (bs.map some) = bs.length := by
  induction bs with
  | nil => rfl
  | cons b rest ih =>
    rw [map_cons, extent, ih, length_cons]
    split
    · rename_i hzero
      rw [hzero]
      rfl
    · rfl

theorem extent_holes (n : ℕ) : extent (replicate n (none : Option α)) = 0 := by
  refine Nat.le_zero.mp ((extent_le_iff _ _).mpr fun i _ => ?_)
  rw [getElem?_replicate]
  split
  · rfl
  · rfl

/-- From a position on nothing is changed, whatever the memory holds. -/
theorem overlay_eq_iff [Nontrivial α] (pos k : ℕ) (image : List (Option α)) :
    (∀ (m : ℕ → α) (p : ℕ), k ≤ p → overlay m pos image p = m p)
      ↔ ∀ i, k ≤ pos + i → (image[i]?).join = none := by
  constructor
  · intro hall i hi
    cases hv : (image[i]?).join with
    | none => rfl
    | some v =>
      obtain ⟨u, hu⟩ := exists_ne v
      have hsame := hall (fun _ => u) (pos + i) hi
      unfold overlay at hsame
      rw [if_neg (Nat.not_lt.mpr (Nat.le_add_right _ _)), Nat.add_sub_cancel_left, hv] at hsame
      exact absurd hsame.symm hu
  · intro hall m p hp
    unfold overlay
    split
    · rfl
    · rename_i hlt
      rw [hall (p - pos) (by omega)]
      rfl

/-! ## Reading back -/

theorem fills_span (m : ℕ → α) (pos : ℕ) (image : List (Option α)) :
    Fills (span (overlay m pos image) pos image.length) image := by
  refine ⟨length_span _ _ _, fun i v hi => ?_⟩
  have hlt : i < image.length := (List.getElem?_eq_some_iff.mp hi).1
  rw [getElem?_span _ _ hlt]
  unfold overlay
  rw [if_neg (Nat.not_lt.mpr (Nat.le_add_right _ _)), Nat.add_sub_cancel_left, hi]
  rfl

/-- What is read back of two images one after the other. -/
theorem Fills.of_append {os : List α} {as bs : List (Option α)} (h : Fills os (as ++ bs)) :
    ∃ xs ys, os = xs ++ ys ∧ Fills xs as ∧ Fills ys bs := by
  have hlength := h.length
  rw [length_append] at hlength
  refine ⟨os.take as.length, os.drop as.length, (take_append_drop _ _).symm, ⟨?_, ?_⟩,
    ⟨?_, ?_⟩⟩
  · rw [length_take]
    omega
  · intro i v hi
    have hlt : i < as.length := (List.getElem?_eq_some_iff.mp hi).1
    rw [List.getElem?_take_of_lt hlt]
    refine h.get i v ?_
    rw [List.getElem?_append_left hlt]
    exact hi
  · rw [length_drop]
    omega
  · intro i v hi
    rw [getElem?_drop]
    refine h.get _ v ?_
    rw [getElem?_append_right (Nat.le_add_right _ _), Nat.add_sub_cancel_left]
    exact hi

theorem Fills.eq {os bs : List α} (h : Fills os (bs.map some)) : os = bs := by
  have hlength := h.length
  rw [length_map] at hlength
  refine ext_getElem? fun i => ?_
  by_cases hi : i < bs.length
  · rw [getElem?_eq_getElem hi]
    refine h.get i _ ?_
    rw [getElem?_map, getElem?_eq_getElem hi]
    rfl
  · rw [getElem?_eq_none (by omega), getElem?_eq_none (by omega)]

end Memory
