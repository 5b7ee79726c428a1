/-
# Pieces of a message that may overlap

Each piece comes with the offset at which it starts.  Sorted by offset, the pieces are swept from
one end to the other: the sweep meets no gap exactly if they cover what they should, and then each
piece adds the part of it that reaches beyond the ones before.
-/
import Mathlib.Data.List.Basic
import Mathlib.Algebra.Order.Group.Nat

open List

namespace Overlaps

variable {α : Type*}

/-- The piece is what stands in the message at its offset. -/
structure IsPiece (message : List α) (x : List α × ℕ) : Prop where
  le : x.2 + x.1.length ≤ message.length
  eq : x.1 = (message.drop x.2).take x.1.length

/-- A piece reaches over the position. -/
def Covers (pieces : List (List α × ℕ)) (n : ℕ) : Prop :=
  ∃ x ∈ pieces, x.2 ≤ n ∧ n < x.2 + x.1.length

/-- Every piece starts where those before it have reached, or earlier. -/
def NoGap : ℕ → List (List α × ℕ) → Prop
  | _, [] => True
  | last, x :: rest => x.2 ≤ last ∧ NoGap (max last (x.1.length + x.2)) rest

/-- How far the pieces reach. -/
def reach : ℕ → List (List α × ℕ) → ℕ
  | last, [] => last
  | last, x :: rest => reach (max last (x.1.length + x.2)) rest

variable {message : List α} {pieces rest : List (List α × ℕ)} {x : List α × ℕ} {last n : ℕ}

theorem covers_cons : Covers (x :: rest) n ↔ (x.2 ≤ n ∧ n < x.2 + x.1.length) ∨ Covers rest n := by
  unfold Covers
  rw [exists_mem_cons_iff]

theorem le_reach (pieces : List (List α × ℕ)) (last : ℕ) : last ≤ reach last pieces := by
  induction pieces generalizing last with
  | nil => exact Nat.le_refl _
  | cons x rest ih => exact (Nat.le_max_left _ _).trans (ih _)

theorem end_le_reach (h : x ∈ pieces) : x.2 + x.1.length ≤ reach last pieces := by
  induction pieces generalizing last with
  | nil => exact absurd h not_mem_nil
  | cons y rest ih =>
    rcases mem_cons.mp h with rfl | h
    · refine le_trans ?_ (le_reach rest _)
      rw [Nat.add_comm]
      exact Nat.le_max_right _ _
    · exact ih h

theorem reach_le (hlast : last ≤ n) (h : ∀ x ∈ pieces, x.2 + x.1.length ≤ n) :
    reach last pieces ≤ n := by
  induction pieces generalizing last with
  | nil => exact hlast
  | cons y rest ih =>
    have hy := h y mem_cons_self
    exact ih (max_le hlast (by omega)) fun x hx => h x (mem_cons_of_mem _ hx)

/-- **The sweep.**  Sorted pieces leave no gap exactly if they cover all they reach over. -/
theorem noGap_iff (hsorted : pieces.Pairwise fun x y => x.2 ≤ y.2)
    (hne : ∀ x ∈ pieces, 0 < x.1.length) :
    NoGap last pieces ↔ ∀ n, last ≤ n → n < reach last pieces → Covers pieces n := by
  induction pieces generalizing last with
  | nil =>
    refine iff_of_true trivial fun n hle hlt => ?_
    exact absurd (Nat.lt_of_le_of_lt hle hlt) (Nat.lt_irrefl _)
  | cons x rest ih =>
    obtain ⟨hfirst, hrest⟩ := pairwise_cons.mp hsorted
    have hx := hne x mem_cons_self
    have hnext : NoGap (max last (x.1.length + x.2)) rest ↔ _ :=
      ih hrest fun y hy => hne y (mem_cons_of_mem _ hy)
    have hreach := le_reach rest (max last (x.1.length + x.2))
    constructor
    · rintro ⟨hstart, hgo⟩ n hle hlt
      rw [covers_cons]
      by_cases hin : n < x.2 + x.1.length
      · exact .inl ⟨hstart.trans hle, hin⟩
      · refine .inr (hnext.mp hgo n (max_le hle ?_) hlt)
        omega
    · intro hcovers
      constructor
      · -- nothing that starts behind `last` covers it
        by_contra hgap
        obtain ⟨y, hy, hle, -⟩ := hcovers last (Nat.le_refl _) (by
          show last < reach (max last (x.1.length + x.2)) rest
          omega)
        rcases mem_cons.mp hy with rfl | hy
        · exact hgap hle
        · exact hgap ((hfirst y hy).trans hle)
      · refine hnext.mpr fun n hle hlt => ?_
        have hn := hcovers n ((Nat.le_max_left _ _).trans hle) hlt
        rcases covers_cons.mp hn with hin | hin
        · have := (Nat.le_max_right last (x.1.length + x.2)).trans hle
          omega
        · exact hin

/-- What a piece adds to what is there up to `last`. -/
theorem IsPiece.extend (h : IsPiece message x) (hle : x.2 ≤ last)
    (hlast : last ≤ x.2 + x.1.length) :
    message.take last ++ x.1.drop (last - x.2) = message.take (x.2 + x.1.length) := by
  have hdrop : x.1.drop (last - x.2)
      = (message.drop last).take (x.2 + x.1.length - last) := by
    conv_lhs => rw [h.eq]
    rw [drop_take, drop_drop, Nat.add_sub_of_le hle]
    congr 1
    omega
  rw [hdrop, ← take_add, Nat.add_sub_of_le hlast]

/-! ## Without the pieces behind a gap -/

/-- How far the pieces reach before the first gap. -/
def extent : ℕ → List (List α × ℕ) → ℕ
  | last, [] => last
  | last, x :: rest => if x.2 ≤ last then extent (max last (x.2 + x.1.length)) rest else last

theorem le_extent (pieces : List (List α × ℕ)) (last : ℕ) : last ≤ extent last pieces := by
  induction pieces generalizing last with
  | nil => exact Nat.le_refl _
  | cons x rest ih =>
    unfold extent
    split
    · exact (Nat.le_max_left _ _).trans (ih _)
    · exact Nat.le_refl _

/-- Behind a gap nothing counts. -/
theorem extent_of_gap (h : ∀ x ∈ pieces, last < x.2) : extent last pieces = last := by
  cases pieces with
  | nil => rfl
  | cons x rest => exact if_neg (Nat.not_le.mpr (h x mem_cons_self))

/-- Where all pieces start before, none goes on exactly if all end before. -/
theorem extent_eq_self_iff (h : ∀ x ∈ pieces, x.2 ≤ last) :
    extent last pieces = last ↔ ∀ x ∈ pieces, x.2 + x.1.length ≤ last := by
  induction pieces generalizing last with
  | nil => exact iff_of_true rfl fun _ hx => absurd hx not_mem_nil
  | cons x rest ih =>
    unfold extent
    rw [if_pos (h x mem_cons_self), forall_mem_cons]
    by_cases hx : x.2 + x.1.length ≤ last
    · rw [Nat.max_eq_left hx, ih fun y hy => h y (mem_cons_of_mem _ hy)]
      exact (and_iff_right hx).symm
    · have hle := le_extent rest (max last (x.2 + x.1.length))
      exact iff_of_false (by omega) fun hall => hx hall.1

/-- **Before the first gap** all is covered. -/
theorem covers_of_lt_extent (hle : last ≤ n) (hlt : n < extent last pieces) : Covers pieces n := by
  induction pieces generalizing last with
  | nil => exact absurd (Nat.lt_of_le_of_lt hle hlt) (Nat.lt_irrefl _)
  | cons x rest ih =>
    unfold extent at hlt
    rw [covers_cons]
    split at hlt
    · rename_i hstart
      by_cases hin : n < x.2 + x.1.length
      · exact .inl ⟨hstart.trans hle, hin⟩
      · exact .inr (ih (max_le hle (Nat.le_of_not_lt hin)) hlt)
    · exact absurd (Nat.lt_of_le_of_lt hle hlt) (Nat.lt_irrefl _)

/-- **At the first gap** nothing is. -/
theorem not_covers_extent (hsorted : pieces.Pairwise fun x y => x.2 ≤ y.2) :
    ¬ Covers pieces (extent last pieces) := by
  induction pieces generalizing last with
  | nil =>
    rintro ⟨x, hx, -⟩
    cases hx
  | cons x rest ih =>
    obtain ⟨hfirst, hrest⟩ := pairwise_cons.mp hsorted
    unfold extent
    rw [covers_cons]
    split
    · have hle := le_extent rest (max last (x.2 + x.1.length))
      rintro (hin | hin)
      · omega
      · exact ih hrest hin
    · rename_i hgap
      rintro (hin | ⟨y, hy, hstart, -⟩)
      · exact hgap hin.1
      · exact hgap ((hfirst y hy).trans hstart)

end Overlaps
