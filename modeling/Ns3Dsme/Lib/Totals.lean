/-
# Totals over places

What all the places of a finite index type hold together, and how the total changes when one
place changes.  A value that moves between two sets of places is still in one of them.
-/
import Mathlib.Algebra.BigOperators.Group.Finset.Basic
import Mathlib.Algebra.Order.BigOperators.Group.Finset

open Function

namespace Totals

variable {ι β : Type*} [Fintype ι] (size : β → ℕ)

/-- What a place holds. -/
def amount : Option β → ℕ
  | none => 0
  | some v => size v

/-- What all places hold. -/
def total (places : ι → Option β) : ℕ := ∑ i, amount size (places i)

variable {size} {places : ι → Option β} {i : ι}

/-- Where nothing is, there is no total. -/
theorem total_empty : total size (fun _ : ι => none) = 0 := by
  unfold total
  exact Finset.sum_eq_zero fun i _ => rfl

/-- A total comes from somewhere. -/
theorem exists_of_total_pos (h : 0 < total size places) : ∃ i v, places i = some v := by
  by_contra hnone
  have hempty : ∀ i, places i = none := by
    intro i
    cases hi : places i with
    | none => rfl
    | some v => exact absurd ⟨i, v, hi⟩ hnone
  rw [show places = fun _ => none from funext hempty, total_empty] at h
  exact absurd h (lt_irrefl 0)

variable [DecidableEq ι]

/-- A place changes. -/
theorem total_update (size : β → ℕ) (places : ι → Option β) (i : ι) (o : Option β) :
    total size (update places i o) + amount size (places i)
      = total size places + amount size o := by
  unfold total
  have hrest : ∑ j ∈ Finset.univ.erase i, amount size (update places i o j)
      = ∑ j ∈ Finset.univ.erase i, amount size (places j) := by
    apply Finset.sum_congr rfl
    intro j hj
    rw [update_of_ne (Finset.ne_of_mem_erase hj)]
  rw [← Finset.sum_erase_add _ _ (Finset.mem_univ i),
    ← Finset.sum_erase_add Finset.univ (fun j => amount size (places j)) (Finset.mem_univ i),
    hrest, update_self]
  omega

/-- A value is put into an empty place. -/
theorem total_put (size : β → ℕ) (h : places i = none) (v : β) :
    total size (update places i (some v)) = total size places + size v := by
  have hchange := total_update size places i (some v)
  rwa [h] at hchange

/-- A value is taken out of its place. -/
theorem total_clear (size : β → ℕ) {v : β} (h : places i = some v) :
    total size (update places i none) + size v = total size places := by
  have hchange := total_update size places i none
  rwa [h] at hchange

/-! ## Two sets of places -/

variable {other : ι → Option β} {v : β}

omit [Fintype ι] in
/-- A value moves to the other set: at each index the two hold the same together. -/
theorem or_move (h : places i = some v) (hother : other i = none) (j : ι) :
    (update places i none j).or (update other i (some v) j)
      = (places j).or (other j) := by
  by_cases hj : j = i
  · subst hj
    rw [update_self, update_self, h, hother]
    rfl
  · rw [update_of_ne hj, update_of_ne hj]

omit [Fintype ι] in
/-- A value moves back from the other set. -/
theorem or_move_back (h : other i = some v) (hplaces : places i = none) (j : ι) :
    (update places i (some v) j).or (update other i none j)
      = (places j).or (other j) := by
  by_cases hj : j = i
  · subst hj
    rw [update_self, update_self, h, hplaces]
    rfl
  · rw [update_of_ne hj, update_of_ne hj]

omit [Fintype ι] in
/-- A value leaves a set: no index has two values. -/
theorem apart_clear (h : ∀ j, places j = none ∨ other j = none) (i j : ι) :
    update places i none j = none ∨ other j = none := by
  by_cases hj : j = i
  · subst hj
    exact .inl (update_self ..)
  · rw [update_of_ne hj]
    exact h j

omit [Fintype ι] in
/-- A value moves to the other set: no index has two values. -/
theorem apart_move (h : ∀ j, places j = none ∨ other j = none) (i : ι) (v : β) (j : ι) :
    update places i none j = none ∨ update other i (some v) j = none := by
  by_cases hj : j = i
  · subst hj
    exact .inl (update_self ..)
  · rw [update_of_ne hj, update_of_ne hj]
    exact h j

end Totals
