/-
# The window of a block ack scoreboard

`BlockAckWindow`: a ring of flags, of which the one at `m_head` belongs to the sequence number
`m_winStart`.  Next to each operation stands what it does to the flags by their distance from
the start of the window.
-/
import Mathlib.Data.List.Basic
import Mathlib.Data.Nat.ModEq
import Ns3Dsme.Lib.Circular
import Ns3Dsme.Lib.Program

open List Program

namespace Ns3Dsme.Wifi

/-- `SEQNO_SPACE_SIZE`. -/
def seqnoSpaceSize : ℕ := 4096

/-- `SEQNO_SPACE_HALF_SIZE`. -/
def seqnoSpaceHalfSize : ℕ := seqnoSpaceSize / 2

/-- The ways in which a block ack operation does not return. -/
inductive BlockAckFault
  | assertFailed
  deriving DecidableEq, Repr

/-- `BlockAckAgreement::GetDistance`. -/
def getDistance (seqNumber startingSeqNumber : ℕ) : Except BlockAckFault ℕ :=
  if seqNumber < seqnoSpaceSize ∧ startingSeqNumber < seqnoSpaceSize then
    .ok ((seqNumber + seqnoSpaceSize - startingSeqNumber) % seqnoSpaceSize)
  else .error .assertFailed

theorem getDistance_eq {a b : ℕ} (ha : a < seqnoSpaceSize) (hb : b < seqnoSpaceSize) :
    getDistance a b = .ok (Circular.distance seqnoSpaceSize a b) := by
  unfold getDistance
  rw [if_pos ⟨ha, hb⟩]
  rfl

/-- `BlockAckWindow`, which is not empty once it is initialized. -/
structure BlockAckWindow where
  winStart : ℕ
  window : List Bool
  head : ℕ
  head_lt : head < window.length

namespace BlockAckWindow

/-- `Init`. -/
def init (winStart winSize : ℕ) (h : 0 < winSize) : BlockAckWindow where
  winStart := winStart
  window := List.replicate winSize false
  head := 0
  head_lt := by rw [length_replicate]; exact h

/-- `GetWinSize`. -/
def winSize (w : BlockAckWindow) : ℕ := w.window.length

theorem winSize_pos (w : BlockAckWindow) : 0 < w.winSize :=
  Nat.zero_lt_of_lt w.head_lt

/-- `Reset`. -/
def reset (winStart : ℕ) (w : BlockAckWindow) : BlockAckWindow :=
  init winStart w.winSize w.winSize_pos

/-- Where `At` looks. -/
def index (distance : ℕ) (w : BlockAckWindow) : ℕ := (w.head + distance) % w.window.length

theorem index_lt (distance : ℕ) (w : BlockAckWindow) : w.index distance < w.window.length :=
  Nat.mod_lt _ w.winSize_pos

/-- What `At` reads. -/
def flag (distance : ℕ) (w : BlockAckWindow) : Bool := w.window.getD (w.index distance) false

/-- `At(distance) = true`. -/
def mark (distance : ℕ) (w : BlockAckWindow) : Except BlockAckFault BlockAckWindow :=
  if distance < w.winSize then
    .ok { w with
      window := w.window.set (w.index distance) true
      head_lt := by rw [length_set]; exact w.head_lt }
  else .error .assertFailed

/-- The body of the loop in `Advance`. -/
def dropFront (w : BlockAckWindow) : BlockAckWindow where
  winStart := w.winStart
  window := w.window.set w.head false
  head := (w.head + 1) % w.window.length
  head_lt := by rw [length_set]; exact Nat.mod_lt _ w.winSize_pos

/-- The loop. -/
def dropFronts : ℕ → BlockAckWindow → BlockAckWindow
  | 0, w => w
  | count + 1, w => dropFronts count w.dropFront

/-- `Advance`. -/
def advance (count : ℕ) (w : BlockAckWindow) : BlockAckWindow :=
  if count ≥ w.winSize then w.reset ((w.winStart + count) % seqnoSpaceSize)
  else { dropFronts count w with winStart := (w.winStart + count) % seqnoSpaceSize }

/-! ## The flags -/

@[simp] theorem winSize_init (winStart n : ℕ) (h : 0 < n) : (init winStart n h).winSize = n :=
  length_replicate

@[simp] theorem flag_init (winStart n : ℕ) (h : 0 < n) (d : ℕ) :
    (init winStart n h).flag d = false := by
  unfold flag init
  rw [getD_eq_getElem?_getD, List.getElem?_replicate]
  split <;> rfl

/-- Different distances inside the window have different places. -/
theorem index_inj {w : BlockAckWindow} {d e : ℕ} (hd : d < w.winSize) (he : e < w.winSize)
    (h : w.index d = w.index e) : d = e := by
  have hmod : (w.head + d) % w.winSize = (w.head + e) % w.winSize := h
  have hcancel := Nat.ModEq.add_left_cancel' w.head hmod
  rwa [Nat.ModEq, Nat.mod_eq_of_lt hd, Nat.mod_eq_of_lt he] at hcancel

/-- A mark inside the window. -/
theorem exists_mark {w : BlockAckWindow} {d : ℕ} (hd : d < w.winSize) :
    ∃ w', w.mark d = .ok w' ∧ w'.winStart = w.winStart ∧ w'.winSize = w.winSize
      ∧ ∀ e, e < w.winSize → (w'.flag e = true ↔ e = d ∨ w.flag e = true) := by
  unfold mark
  rw [if_pos hd]
  refine ⟨_, rfl, rfl, length_set, ?_⟩
  intro e he
  unfold flag index
  dsimp only
  rw [length_set, getD_eq_getElem?_getD, getD_eq_getElem?_getD, List.getElem?_set]
  by_cases hsame : e = d
  · rw [hsame, if_pos rfl, if_pos (by exact w.index_lt d)]
    simp
  · rw [if_neg fun hplace => hsame (index_inj he hd hplace.symm)]
    simp [hsame]

/-- One step of the window: the flags move up by one, and the last one is cleared. -/
theorem flag_dropFront {w : BlockAckWindow} {d : ℕ} (hd : d < w.winSize) :
    w.dropFront.flag d = if d + 1 < w.winSize then w.flag (d + 1) else false := by
  unfold flag index dropFront
  dsimp only
  rw [length_set, getD_eq_getElem?_getD, List.getElem?_set,
    show (w.head + 1) % w.window.length + d = _ from rfl, Nat.mod_add_mod]
  have hplace : (w.head + 1 + d) % w.window.length = w.index (d + 1) := by
    unfold index
    rw [Nat.add_assoc, Nat.add_comm 1 d]
  rw [hplace]
  have hfront : w.head = w.index 0 := (Nat.mod_eq_of_lt w.head_lt).symm
  by_cases hlast : d + 1 < w.winSize
  · rw [if_pos hlast, if_neg, ← getD_eq_getElem?_getD]
    · rfl
    · intro hhead
      have hzero := index_inj w.winSize_pos hlast (hfront.symm.trans hhead)
      omega
  · have hround : w.index (d + 1) = w.head := by
      unfold index
      rw [show d + 1 = w.window.length from Nat.le_antisymm hd (Nat.le_of_not_lt hlast),
        Nat.add_mod_right, Nat.mod_eq_of_lt w.head_lt]
    rw [if_neg hlast, hround, if_pos rfl, if_pos w.head_lt]
    rfl

@[simp] theorem winSize_dropFront (w : BlockAckWindow) : w.dropFront.winSize = w.winSize :=
  length_set

/-- The loop moves the flags up by the number of its turns. -/
theorem flag_dropFronts (count : ℕ) (w : BlockAckWindow) : (dropFronts count w).winSize = w.winSize
    ∧ ∀ d, d < w.winSize → (dropFronts count w).flag d
      = if d + count < w.winSize then w.flag (d + count) else false := by
  induction count generalizing w with
  | zero =>
    refine ⟨rfl, fun d hd => ?_⟩
    rw [Nat.add_zero, if_pos hd]
    rfl
  | succ count ih =>
    obtain ⟨hsize, hflag⟩ := ih w.dropFront
    rw [winSize_dropFront] at hsize hflag
    refine ⟨hsize, fun d hd => ?_⟩
    show (dropFronts count w.dropFront).flag d = _
    rw [hflag d hd]
    by_cases hin : d + count < w.winSize
    · rw [if_pos hin, flag_dropFront hin]
      rfl
    · rw [if_neg hin, if_neg (by omega)]

/-- `Advance` moves the flags up, and clears what comes in from beyond the window. -/
theorem flag_advance (count : ℕ) (w : BlockAckWindow) :
    (w.advance count).winStart = (w.winStart + count) % seqnoSpaceSize
      ∧ (w.advance count).winSize = w.winSize
      ∧ ∀ d, d < w.winSize → (w.advance count).flag d
        = if d + count < w.winSize then w.flag (d + count) else false := by
  unfold advance
  split
  · rename_i hfar
    refine ⟨rfl, winSize_init _ _ _, fun d hd => ?_⟩
    rw [if_neg (by omega)]
    exact flag_init _ _ _ d
  · exact ⟨rfl, (flag_dropFronts count w).1, (flag_dropFronts count w).2⟩

end BlockAckWindow

end Ns3Dsme.Wifi
