/-
# Pieces of a message

A message is cut into pieces that follow each other without a gap; each comes with the offset at
which it starts.  Whoever collects the pieces keeps them sorted by offset, whatever the order in
which they arrive, so that what is collected is always a sublist of all pieces.  It is complete
exactly if it has no gap and reaches the end.
-/
import Mathlib.Data.List.Perm.Subperm
import Mathlib.Order.Basic

namespace Reassembly

variable {α : Type*}

/-- The pieces follow each other from one offset to another, and none is empty. -/
inductive Consecutive : ℕ → List (List α × ℕ) → ℕ → Prop
  | nil (b : ℕ) : Consecutive b [] b
  | cons (p : List α) (b : ℕ) (rest : List (List α × ℕ)) (e : ℕ) (hp : p ≠ [])
      (hrest : Consecutive (b + p.length) rest e) : Consecutive b ((p, b) :: rest) e

variable {pieces : List (List α × ℕ)} {b e : ℕ}

theorem Consecutive.le (h : Consecutive b pieces e) :
    b ≤ e := by
  induction h with
  | nil b => exact Nat.le_refl b
  | cons p b rest e hp hrest ih => exact Nat.le_trans (Nat.le_add_right b p.length) ih

/-- Every piece lies between the two offsets. -/
theorem Consecutive.bounds (h : Consecutive b pieces e) :
    ∀ y ∈ pieces, b ≤ y.2 ∧ y.2 < e ∧ y.2 + y.1.length ≤ e := by
  induction h with
  | nil b =>
    intro y hy
    exact absurd hy List.not_mem_nil
  | cons p b rest e hp hrest ih =>
    have hpos : 0 < p.length := List.length_pos_of_ne_nil hp
    have hle := hrest.le
    intro y hy
    rcases List.mem_cons.mp hy with rfl | hy
    · exact ⟨Nat.le_refl _, by omega, hle⟩
    · obtain ⟨hstart, hlt, hend⟩ := ih y hy
      exact ⟨by omega, hlt, hend⟩

/-- The offsets grow from piece to piece. -/
theorem Consecutive.pairwise (h : Consecutive b pieces e) :
    pieces.Pairwise fun y z => y.2 < z.2 := by
  induction h with
  | nil b => exact List.Pairwise.nil
  | cons p b rest e hp hrest ih =>
    have hpos : 0 < p.length := List.length_pos_of_ne_nil hp
    refine List.pairwise_cons.mpr ⟨fun z hz => ?_, ih⟩
    have hstart := (hrest.bounds z hz).1
    show b < z.2
    omega

theorem Consecutive.nodup (h : Consecutive b pieces e) :
    pieces.Nodup := by
  refine h.pairwise.imp fun {y z} hlt heq => ?_
  rw [heq] at hlt
  exact Nat.lt_irrefl _ hlt

/-- Where all pieces have been collected, there is nothing else to be had. -/
theorem Consecutive.eq_of_subset {pieces l : List (List α × ℕ)} (h : Consecutive b pieces e)
    (hl : l.Sublist pieces) (hall : ∀ y ∈ pieces, y ∈ l) :
    l = pieces :=
  hl.eq_of_length_le (List.subperm_of_subset h.nodup hall).length_le

end Reassembly
