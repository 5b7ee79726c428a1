/-
# Counting references

Owners hold at most one pointer each; how many of them point to a place, and how the number
changes when an owner is added or replaced.
-/
import Mathlib.Data.List.Count

namespace RefCount

variable {σ : Type*} (ptr : σ → Option ℕ)

/-- How many owners point to a place. -/
def refs (owners : List σ) (p : ℕ) : ℕ := owners.countP fun o => ptr o == some p

/-- The share of one owner. -/
def share (o : σ) (p : ℕ) : ℕ := if ptr o = some p then 1 else 0

theorem refs_cons (o : σ) (owners : List σ) (p : ℕ) :
    refs ptr (o :: owners) p = refs ptr owners p + share ptr o p := by
  unfold refs share
  rw [List.countP_cons]
  simp only [beq_iff_eq]

theorem refs_append (owners : List σ) (o : σ) (p : ℕ) :
    refs ptr (owners ++ [o]) p = refs ptr owners p + share ptr o p := by
  induction owners with
  | nil => exact refs_cons ptr o [] p
  | cons o' owners ih =>
    rw [List.cons_append, refs_cons, refs_cons, ih]
    omega

/-- Replacing an owner trades its share for that of the new one. -/
theorem refs_set (owners : List σ) (i : ℕ) (o x : σ) (hi : owners[i]? = some o) (p : ℕ) :
    refs ptr (owners.set i x) p + share ptr o p = refs ptr owners p + share ptr x p := by
  induction owners generalizing i with
  | nil => cases hi
  | cons o' owners ih =>
    cases i with
    | zero =>
      cases hi
      rw [List.set_cons_zero, refs_cons, refs_cons]
      omega
    | succ i =>
      rw [List.set_cons_succ, refs_cons, refs_cons]
      have hrest := ih i hi
      omega

/-- An owner that points to the place counts. -/
theorem share_le_refs (owners : List σ) (i : ℕ) (o : σ) (hi : owners[i]? = some o) (p : ℕ) :
    share ptr o p ≤ refs ptr owners p := by
  induction owners generalizing i with
  | nil => cases hi
  | cons o' owners ih =>
    rw [refs_cons]
    cases i with
    | zero =>
      cases hi
      omega
    | succ i =>
      have hrest := ih i hi
      omega

/-- **The only reference.**  If the count is one, no two owners point to the place. -/
theorem eq_of_refs_le_one (owners : List σ) (p : ℕ) (hone : refs ptr owners p ≤ 1) (i j : ℕ)
    (o o' : σ) (hi : owners[i]? = some o) (hj : owners[j]? = some o') (ho : ptr o = some p)
    (ho' : ptr o' = some p) : i = j := by
  have hshare {o : σ} (ho : ptr o = some p) : share ptr o p = 1 := if_pos ho
  induction owners generalizing i j with
  | nil => cases hi
  | cons head owners ih =>
    rw [refs_cons] at hone
    cases i with
    | zero =>
      cases j with
      | zero => rfl
      | succ j =>
        have hrest := share_le_refs ptr owners j o' hj p
        cases hi
        rw [hshare ho'] at hrest
        rw [hshare ho] at hone
        omega
    | succ i =>
      cases j with
      | zero =>
        have hrest := share_le_refs ptr owners i o hi p
        cases hj
        rw [hshare ho] at hrest
        rw [hshare ho'] at hone
        omega
      | succ j => exact congrArg Nat.succ (ih (by omega) i j hi hj)

end RefCount
