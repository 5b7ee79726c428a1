/-
# Calendars

A calendar cuts time into days of one width and writes the days on its pages in turn, so that
a page holds a day of every year.  Whoever looks for the next entry starts on the page of a day
before which nothing is left, and turns the pages from there.  The first part is about days and
pages, the second about pages as sorted lists.
-/
import Mathlib.Data.List.Sort
import Mathlib.Data.Nat.ModEq

open List

namespace Calendar

/-! ## Days and pages -/

/-- Every day from `q` on is on one of the pages of a year. -/
theorem exists_page {d n q : ℕ} (hn : 0 < n) (hq : q ≤ d) : ∃ k, k < n ∧ d % n = (q + k) % n := by
  refine ⟨(d - q) % n, Nat.mod_lt _ hn, ?_⟩
  rw [Nat.add_mod_mod, Nat.add_sub_cancel' hq]

/-- A year later the page of day `q` is back, and not earlier. -/
theorem page_back_iff {n q k : ℕ} (hk : k < n) : (q + (k + 1)) % n = q % n ↔ k + 1 = n := by
  constructor
  · intro hback
    have hmod : k + 1 ≡ 0 [MOD n] := Nat.ModEq.add_left_cancel' q hback
    have hdvd : n ∣ k + 1 := (Nat.modEq_zero_iff_dvd).mp hmod
    exact le_antisymm hk (Nat.le_of_dvd (Nat.succ_pos k) hdvd)
  · intro hyear
    rw [hyear, Nat.add_mod_right]

/-- Day `q` is over at the start of the next one. -/
theorem lt_top_iff {t w q : ℕ} (hw : 0 < w) (hq : q ≤ t / w) : t < (q + 1) * w ↔ t / w = q := by
  rw [← Nat.div_lt_iff_lt_mul hw]
  omega

/-- The end of a day that some time has reached is at most twice as far. -/
theorem top_lt {t w q b : ℕ} (hq : q ≤ t / w) (ht : t < b) (hw : w < 2 * b) :
    (q + 1) * w < 2 * b := by
  have hstart : q * w ≤ t := (Nat.mul_le_mul_right w hq).trans (Nat.div_mul_le_self t w)
  rw [Nat.add_mul, Nat.one_mul]
  rcases Nat.eq_zero_or_pos q with rfl | hpos
  · omega
  · have hday : w ≤ q * w := Nat.le_mul_of_pos_left w hpos
    omega

/-! ## Entries on pages -/

variable {α : Type*}

/-- What changes on one page changes in the whole calendar. -/
theorem perm_flatten_modify (pages : List (List α)) (i : ℕ) (hi : i < pages.length)
    (f : List α → List α) (added taken : List α)
    (hf : (taken ++ f (pages.getD i [])).Perm (added ++ pages.getD i [])) :
    (taken ++ (pages.modify i f).flatten).Perm (added ++ pages.flatten) := by
  induction pages generalizing i with
  | nil => exact absurd hi (Nat.not_lt_zero i)
  | cons page rest ih =>
    cases i with
    | zero =>
      rw [modify_zero_cons, flatten_cons, flatten_cons, ← append_assoc,
        ← append_assoc]
      exact hf.append_right _
    | succ i =>
      rw [modify_succ_cons, flatten_cons, flatten_cons]
      have hrest := ih i (Nat.lt_of_succ_lt_succ hi) hf
      refine (perm_append_comm_assoc _ _ _).trans ?_
      refine ((List.Perm.refl page).append hrest).trans ?_
      exact perm_append_comm_assoc _ _ _

/-- The entries of the other pages stay as they are. -/
theorem getD_modify (pages : List (List α)) (i j : ℕ) (hi : i < pages.length)
    (f : List α → List α) :
    (pages.modify i f).getD j [] = if i = j then f (pages.getD i []) else pages.getD j [] := by
  rw [getD_eq_getElem?_getD, getD_eq_getElem?_getD, getD_eq_getElem?_getD]
  split
  · rename_i heq
    subst heq
    rw [List.getElem?_modify_eq, List.getElem?_eq_getElem hi]
    rfl
  · rename_i hne
    rw [List.getElem?_modify_ne _ _ hne]

end Calendar
