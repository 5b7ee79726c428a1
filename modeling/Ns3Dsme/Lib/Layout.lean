/-
# Pieces written one after the other under a limit

A program writes pieces and stops at the first one that is too much for a running count.  The count
need not be the number of octets that were written: `Room` says when the pieces that pass end within
the limit nevertheless.
-/
import Ns3Dsme.Lib.Overlay
import Mathlib.Algebra.GroupWithZero.Nat

open List

namespace Layout

open Memory

variable {α : Type*}

/-- What the running count takes of a piece, how long it is, and where the last thing written of it
ends. -/
structure Part where
  counted : ℕ
  length : ℕ
  written : ℕ
  deriving DecidableEq

/-- A piece as it is written, and what the running count takes of it. -/
structure Piece (α : Type*) where
  counted : ℕ
  image : List (Option α)

def Piece.part (x : Piece α) : Part := ⟨x.counted, x.image.length, extent x.image⟩

/-- Whether all pieces pass, and what is written. -/
def place (limit : ℕ) : ℕ → List (Piece α) → Bool × List (Option α)
  | _, [] => (true, [])
  | count, x :: rest =>
    if count + x.counted ≤ limit then
      ((place limit (count + x.counted) rest).1,
        x.image ++ (place limit (count + x.counted) rest).2)
    else (false, [])

/-- Each piece that passes ends within the limit. -/
def Room (limit : ℕ) : ℕ → ℕ → List Part → Prop
  | _, _, [] => True
  | count, pos, x :: rest =>
    count + x.counted ≤ limit →
      pos + x.written ≤ limit ∧ Room limit (count + x.counted) (pos + x.length) rest

/-- What the running count comes to. -/
def counted (ps : List Part) : ℕ := (ps.map Part.counted).sum

/-- How long the pieces are. -/
def total (ps : List Part) : ℕ := (ps.map Part.length).sum

@[simp] theorem counted_nil : counted [] = 0 := rfl

@[simp] theorem counted_cons (x : Part) (rest : List Part) :
    counted (x :: rest) = x.counted + counted rest := by
  unfold counted
  rw [map_cons, sum_cons]

@[simp] theorem total_nil : total [] = 0 := rfl

@[simp] theorem total_cons (x : Part) (rest : List Part) :
    total (x :: rest) = x.length + total rest := by
  unfold total
  rw [map_cons, sum_cons]

theorem counted_le_total (ps : List Part) (hps : ∀ x ∈ ps, x.counted ≤ x.length) :
    counted ps ≤ total ps := by
  induction ps with
  | nil => exact Nat.le_refl _
  | cons x rest ih =>
    rw [counted_cons, total_cons]
    exact Nat.add_le_add (hps x mem_cons_self)
      (ih fun y hy => hps y (mem_cons_of_mem x hy))

/-! ## What is written -/

theorem place_cons_of_le {limit count : ℕ} {x : Piece α} (rest : List (Piece α))
    (h : count + x.counted ≤ limit) : place limit count (x :: rest) =
      ((place limit (count + x.counted) rest).1,
        x.image ++ (place limit (count + x.counted) rest).2) :=
  if_pos h

theorem place_cons_of_lt {limit count : ℕ} {x : Piece α} (rest : List (Piece α))
    (h : limit < count + x.counted) : place limit count (x :: rest) = (false, []) :=
  if_neg (Nat.not_le.mpr h)

/-- All pieces pass exactly if the count stays within the limit. -/
theorem place_fst_iff (limit : ℕ) (ps : List (Piece α)) (count : ℕ) (h : count ≤ limit) :
    (place limit count ps).1 = true ↔ count + counted (ps.map Piece.part) ≤ limit := by
  induction ps generalizing count with
  | nil =>
    rw [map_nil, counted_nil, Nat.add_zero]
    exact ⟨fun _ => h, fun _ => rfl⟩
  | cons x rest ih =>
    rw [map_cons, counted_cons, ← Nat.add_assoc]
    show _ ↔ count + x.counted + _ ≤ limit
    by_cases hpass : count + x.counted ≤ limit
    · rw [place_cons_of_le rest hpass]
      exact ih (count + x.counted) hpass
    · rw [place_cons_of_lt rest (Nat.not_le.mp hpass)]
      constructor
      · intro hfalse
        exact absurd hfalse Bool.false_ne_true
      · intro hle
        omega

/-- If all pieces pass, all are written. -/
theorem place_snd (limit : ℕ) (ps : List (Piece α)) (count : ℕ)
    (h : (place limit count ps).1 = true) :
    (place limit count ps).2 = ps.flatMap Piece.image := by
  induction ps generalizing count with
  | nil => rfl
  | cons x rest ih =>
    by_cases hpass : count + x.counted ≤ limit
    · rw [place_cons_of_le rest hpass] at h ⊢
      rw [flatMap_cons]
      exact congrArg (x.image ++ ·) (ih _ h)
    · rw [place_cons_of_lt rest (Nat.not_le.mp hpass)] at h
      exact absurd h Bool.false_ne_true

theorem length_flatMap_image (ps : List (Piece α)) :
    (ps.flatMap Piece.image).length = total (ps.map Piece.part) := by
  induction ps with
  | nil => rfl
  | cons x rest ih =>
    rw [flatMap_cons, length_append, ih, map_cons, total_cons]
    rfl

/-- **What is written ends within the limit exactly if there is room.** -/
theorem room_iff (limit : ℕ) (ps : List (Piece α)) (hps : ∀ x ∈ ps, 0 < extent x.image)
    (count pos : ℕ) : Room limit count pos (ps.map Piece.part) ↔
      (extent (place limit count ps).2 = 0 ∨ pos + extent (place limit count ps).2 ≤ limit) := by
  induction ps generalizing count pos with
  | nil => exact ⟨fun _ => Or.inl rfl, fun _ => trivial⟩
  | cons x rest ih =>
    have hx : 0 < extent x.image := hps x mem_cons_self
    have hle := extent_le_length x.image
    have hrest := ih (fun y hy => hps y (mem_cons_of_mem x hy)) (count + x.counted)
      (pos + x.image.length)
    by_cases hpass : count + x.counted ≤ limit
    · rw [place_cons_of_le rest hpass]
      dsimp only
      rw [extent_append]
      -- the piece itself, and then what is behind it
      have hroom : Room limit count pos ((x :: rest).map Piece.part) ↔
          pos + extent x.image ≤ limit ∧
            Room limit (count + x.counted) (pos + x.image.length) (rest.map Piece.part) :=
        ⟨fun h => h hpass, fun h _ => h⟩
      rw [hroom, hrest]
      split
      · rename_i hnone
        rw [hnone]
        constructor
        · intro h
          exact Or.inr h.1
        · intro h
          exact ⟨by omega, Or.inl rfl⟩
      · rename_i hsome
        constructor
        · intro h
          right
          omega
        · intro h
          exact ⟨by omega, Or.inr (by omega)⟩
    · rw [place_cons_of_lt rest (Nat.not_le.mp hpass)]
      constructor
      · intro _
        exact Or.inl rfl
      · intro _ hcontra
        exact absurd hcontra hpass

/-- Where the limit is not below the length of the pieces there is room. -/
theorem room_of_total_le {limit : ℕ} (ps : List Part) (hps : ∀ x ∈ ps, x.written ≤ x.length)
    (count pos : ℕ) (h : pos + total ps ≤ limit) : Room limit count pos ps := by
  induction ps generalizing count pos with
  | nil => trivial
  | cons x rest ih =>
    rw [total_cons] at h
    have hx := hps x mem_cons_self
    intro _
    refine ⟨by omega, ih (fun y hy => hps y (mem_cons_of_mem x hy)) _ _ ?_⟩
    omega

end Layout
