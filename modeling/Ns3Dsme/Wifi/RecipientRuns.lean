/-
# Runs of a block ack recipient

What is watched in a run: the numbers without wrapping of the MPDUs that are heard, accepted and
passed up, and how far the windows move.  In every run without an underflow nothing is lost,
nothing comes twice and nothing comes out of order.
-/
import Ns3Dsme.Wifi.ReorderingBuffer

open Program List

namespace Ns3Dsme.Wifi.RecipientBlockAckAgreement

variable {π : Type} {start : ℕ} {heard : List ℕ} {s : RecipientBlockAckAgreement π}

/-! ## The scoreboard -/

/-- The scoreboard shows the numbers heard inside its window, and none has been heard beyond. -/
structure Scored (start : ℕ) (heard : List ℕ) (w : BlockAckWindow) : Prop where
  win : w.winStart = start % seqnoSpaceSize
  flags : ∀ d, d < w.winSize → (w.flag d = true ↔ start + d ∈ heard)
  bound : ∀ n ∈ heard, n < start + w.winSize

/-- A number heard inside the window. -/
theorem exists_scored_mark {w : BlockAckWindow} (h : Scored start heard w) {n : ℕ} (hle : start ≤ n)
    (hlt : n < start + w.winSize) :
    ∃ w', w.mark (n - start) = .ok w' ∧ w'.winSize = w.winSize ∧ Scored start (n :: heard) w' := by
  obtain ⟨w', hmark, hwin, hsize, hflags⟩ :=
    BlockAckWindow.exists_mark (w := w) (d := n - start) (by omega)
  refine ⟨w', hmark, hsize, hwin.trans h.win, ?_, ?_⟩
  · intro d hd
    rw [hsize] at hd
    rw [hflags d hd, h.flags d hd, mem_cons]
    have hsame : d = n - start ↔ start + d = n := by omega
    rw [hsame]
  · intro x hx
    rw [hsize]
    rcases mem_cons.mp hx with rfl | hx
    · exact hlt
    · exact h.bound x hx

/-- The window moves up. -/
theorem Scored.advance {w : BlockAckWindow} (h : Scored start heard w) (count : ℕ) :
    Scored (start + count) heard (w.advance count) := by
  obtain ⟨hwin, hsize, hflags⟩ := BlockAckWindow.flag_advance count w
  constructor
  · rw [hwin, h.win, Nat.mod_add_mod]
  · intro d hd
    rw [hsize] at hd
    rw [hflags d hd]
    by_cases hin : d + count < w.winSize
    · rw [if_pos hin, h.flags _ hin, Nat.add_comm d count, Nat.add_assoc]
    · rw [if_neg hin]
      refine iff_of_false Bool.false_ne_true fun hmem => ?_
      have := h.bound _ hmem
      omega
  · intro n hn
    have := h.bound n hn
    rw [hsize]
    omega

/-- The window starts again behind all that has been heard. -/
theorem Scored.reset {w : BlockAckWindow} (h : Scored start heard w) {n : ℕ}
    (hn : start + w.winSize ≤ n) : Scored n heard (w.reset (n % seqnoSpaceSize)) where
  win := rfl
  flags d _ := by
    unfold BlockAckWindow.reset
    rw [BlockAckWindow.flag_init]
    refine iff_of_false Bool.false_ne_true fun hmem => ?_
    have := h.bound _ hmem
    omega
  bound x hx := by
    have := h.bound x hx
    omega

/-- What an MPDU adds to what has been heard. -/
def hear (start : ℕ) (m : Mpdu π) (heard : List ℕ) : List ℕ :=
  if number start m < start + seqnoSpaceHalfSize then number start m :: heard else heard

/-- **An MPDU in the scoreboard.** -/
theorem exists_scored_mpdu (h : Scored start heard s.scoreboard)
    (hsize : s.scoreboard.winSize ≤ seqnoSpaceHalfSize) (m : Mpdu π) :
    ∃ start' w, s.noteMpdu m = .ok { s with scoreboard := w } ∧ w.winSize = s.scoreboard.winSize
      ∧ start ≤ start' ∧ start' < start + seqnoSpaceHalfSize
      ∧ Scored start' (hear start m heard) w := by
  have hle : start ≤ number start m := le_number m
  have hpos := s.scoreboard.winSize_pos
  have hget : getDistance m.seqNumber s.scoreboard.winStart = .ok (number start m - start) := by
    rw [h.win]
    exact getDistance_number hle (number_lt m)
  unfold noteMpdu hear
  rw [hget, ok_bind]
  by_cases hin : number start m - start < s.scoreboard.winSize
  · obtain ⟨w, hmark, hwsize, hscored⟩ := exists_scored_mark h hle (by omega)
    rw [if_pos hin, hmark, ok_bind, if_pos (by omega)]
    exact ⟨start, w, rfl, hwsize, Nat.le.refl, by omega, hscored⟩
  rw [if_neg hin]
  by_cases hnear : number start m - start < seqnoSpaceHalfSize
  · -- the window moves up so that the MPDU is its last one
    let count := number start m - start - s.scoreboard.winSize + 1
    have hmoved : Scored (start + count) heard (s.scoreboard.advance count) := h.advance count
    have hsame : (s.scoreboard.advance count).winSize = s.scoreboard.winSize :=
      (BlockAckWindow.flag_advance count s.scoreboard).2.1
    obtain ⟨w, hmark, hwsize, hscored⟩ := exists_scored_mark hmoved (n := number start m)
      (by omega) (by omega)
    have hlast : number start m - (start + count) = s.scoreboard.winSize - 1 := by omega
    rw [hlast] at hmark
    rw [if_pos hnear, hmark, ok_bind, if_pos (by omega)]
    exact ⟨start + count, w, rfl, hwsize.trans hsame, by omega, by omega, hscored⟩
  · rw [if_neg hnear, if_neg (by omega)]
    exact ⟨start, s.scoreboard, rfl, rfl, Nat.le.refl, by omega, h⟩

/-- **A BlockAckReq in the scoreboard.** -/
theorem exists_scored_bar (h : Scored start heard s.scoreboard)
    (hsize : s.scoreboard.winSize ≤ seqnoSpaceHalfSize) (ssn : Fin seqnoSpaceSize) :
    ∃ start' w, s.noteBar ssn = .ok { s with scoreboard := w }
      ∧ w.winSize = s.scoreboard.winSize ∧ start ≤ start' ∧ start' < start + seqnoSpaceHalfSize
      ∧ Scored start' heard w := by
  have hle : start ≤ Circular.number seqnoSpaceSize start ssn := Circular.le_number
  have hlt : Circular.number seqnoSpaceSize start ssn < start + seqnoSpaceSize :=
    Circular.number_lt (by decide)
  have hpos := s.scoreboard.winSize_pos
  have hmod : Circular.number seqnoSpaceSize start ssn % seqnoSpaceSize = ssn :=
    Circular.number_mod ssn.isLt
  generalize hn : Circular.number seqnoSpaceSize start ssn = n at hle hlt hmod
  have hget : getDistance ssn s.scoreboard.winStart = .ok (n - start) := by
    rw [h.win, ← getDistance_mod hle hlt, hmod]
  unfold noteBar
  rw [hget, ok_bind]
  by_cases hin : 0 < n - start ∧ n - start < s.scoreboard.winSize
  · have hmoved : Scored (start + (n - start)) heard (s.scoreboard.advance (n - start)) :=
      h.advance _
    have hwin : (s.scoreboard.advance (n - start)).winStart = ssn := by
      rw [hmoved.win, Nat.add_sub_of_le hle, hmod]
    rw [if_pos hin, if_pos hwin, ok_bind]
    exact ⟨start + (n - start), _, rfl, (BlockAckWindow.flag_advance _ _).2.1, by omega, by omega,
      hmoved⟩
  rw [if_neg hin]
  by_cases hnear : 0 < n - start ∧ n - start < seqnoSpaceHalfSize
  · rw [if_pos hnear, ok_bind, ← hmod]
    exact ⟨n, _, rfl, BlockAckWindow.winSize_init _ _ _, hle, by omega, h.reset (by omega)⟩
  · rw [if_neg hnear]
    exact ⟨start, s.scoreboard, rfl, rfl, Nat.le.refl, by omega, h⟩

/-! ## What is watched -/

/-- What happened in a run, in numbers that do not wrap. -/
structure Log (π : Type) where
  /-- `WinStartB`. -/
  startB : ℕ
  /-- The start of the scoreboard. -/
  startR : ℕ
  /-- How far the two windows moved in each call. -/
  moves : List ℕ := []
  heard : List ℕ := []
  /-- The MPDUs that were not old and not there already. -/
  accepted : List (ℕ × Mpdu π) := []
  passedUp : List (ℕ × Mpdu π) := []

/-- An MPDU with its number. -/
def numbered (start : ℕ) (m : Mpdu π) : ℕ × Mpdu π := (number start m, m)

/-- How far the window starting at `w` moved when it starts at `w'`. -/
def move (w w' : ℕ) : ℕ := Circular.distance seqnoSpaceSize w' w

/-- What a call adds.  Numbers are counted from the starts of the windows before the call. -/
def Log.record (b : Log π) (s : RecipientBlockAckAgreement π) (i : BlockAckCall π)
    (t : RecipientBlockAckAgreement π) : Log π where
  startB := b.startB + move s.winStartB t.winStartB
  startR := b.startR + move s.scoreboard.winStart t.scoreboard.winStart
  moves := b.moves ++ [move s.winStartB t.winStartB, move s.scoreboard.winStart t.scoreboard.winStart]
  heard :=
    match i with
    | .notifyReceivedMpdu m => hear b.startR m b.heard
    | .notifyReceivedBar _ => b.heard
  accepted :=
    match i with
    | .notifyReceivedMpdu m =>
      if number b.startB m < b.startB + seqnoSpaceHalfSize
        ∧ ∀ x ∈ s.bufferedMpdus, x.seqNumber ≠ m.seqNumber then b.accepted ++ [numbered b.startB m]
      else b.accepted
    | .notifyReceivedBar _ => b.accepted
  passedUp := b.passedUp ++ (t.passedUp.drop s.passedUp.length).map (numbered b.startB)

/-- **A recipient in order.**  Numbers below are those of a window that does not wrap. -/
structure InOrder (size : ℕ) (b : Log π) (s : RecipientBlockAckAgreement π) : Prop where
  /-- `WinStartB` stays below 4096 and is the one that the moves lead to. -/
  win : s.winStartB = b.startB % seqnoSpaceSize
  /-- No window ever moved by more than half the sequence number space, thus not backwards. -/
  moves : ∀ k ∈ b.moves, k ≤ seqnoSpaceHalfSize
  /-- What is buffered lies in the window, behind its start. -/
  buffered : ∀ m ∈ s.bufferedMpdus,
    0 < Circular.distance seqnoSpaceSize m.seqNumber s.winStartB
      ∧ Circular.distance seqnoSpaceSize m.seqNumber s.winStartB < size
  /-- MPDUs are passed up in increasing order, none twice. -/
  ordered : (b.passedUp.map Prod.fst).Pairwise (· < ·)
  passed : s.passedUp = b.passedUp.map Prod.snd
  counted : ∀ x ∈ b.passedUp, x.1 % seqnoSpaceSize = x.2.seqNumber ∧ x.1 < b.startB
  /-- What was accepted has been passed up or is buffered. -/
  complete : b.accepted.Perm (b.passedUp ++ s.bufferedMpdus.map (numbered b.startB))
  /-- The scoreboard shows what was heard inside its window. -/
  scoreWin : s.scoreboard.winStart = b.startR % seqnoSpaceSize
  scoreSize : s.scoreboard.winSize = size
  scoreboard : ∀ d, d < size → (s.scoreboard.flag d = true ↔ b.startR + d ∈ b.heard)

/-- The invariant behind it. -/
structure Keeps (size : ℕ) (b : Log π) (s : RecipientBlockAckAgreement π) : Prop where
  buffered : s.Buffered b.startB
  sizeB : s.winSizeB = size
  scored : Scored b.startR b.heard s.scoreboard
  sizeR : s.scoreboard.winSize = size
  moves : ∀ k ∈ b.moves, k ≤ seqnoSpaceHalfSize
  ordered : (b.passedUp.map Prod.fst).Pairwise (· < ·)
  passed : s.passedUp = b.passedUp.map Prod.snd
  counted : ∀ x ∈ b.passedUp, x.1 % seqnoSpaceSize = x.2.seqNumber ∧ x.1 < b.startB
  complete : b.accepted.Perm (b.passedUp ++ s.bufferedMpdus.map (numbered b.startB))

theorem Keeps.inOrder {size : ℕ} {b : Log π} (h : Keeps size b s) : InOrder size b s where
  win := h.buffered.win
  moves := h.moves
  buffered m hm := by
    have habove := h.buffered.above m hm
    have hbelow := h.buffered.below m hm
    rw [h.sizeB] at hbelow
    unfold number Circular.number at habove hbelow
    rw [h.buffered.win]
    omega
  ordered := h.ordered
  passed := h.passed
  counted := h.counted
  complete := h.complete
  scoreWin := h.scored.win
  scoreSize := h.sizeR
  scoreboard d hd := h.scored.flags d (by rw [h.sizeR]; exact hd)

/-- The move of a window that went from one number to another not far ahead. -/
theorem move_eq {start' : ℕ} (hle : start ≤ start') (hlt : start' ≤ start + seqnoSpaceHalfSize) :
    move (start % seqnoSpaceSize) (start' % seqnoSpaceSize) = start' - start :=
  Circular.distance_mod hle (hlt.trans_lt (Nat.add_lt_add_left (by decide) start))

/-- Behind the window of another start the numbers are the same. -/
theorem number_of_moved {start' : ℕ} (hle : start ≤ start') {m : Mpdu π}
    (hm : start' < number start m) : number start' m = number start m :=
  Circular.number_rebase m.seqNumber_lt (Nat.le_of_lt hm)
    ((number_lt m).trans_le (Nat.add_le_add_right hle _))

/-- **One call.**  The scoreboard and the buffer have moved, and the MPDUs `added` are new in the
buffer. -/
theorem Keeps.of_moved {size : ℕ} {b : Log π} {t : RecipientBlockAckAgreement π}
    {i : BlockAckCall π} {start' startR' : ℕ} {ms p added : List (Mpdu π)} {heard' : List ℕ}
    {w : BlockAckWindow} (h : Keeps size b s)
    (hmoved : Moved b.startB start' ms p { s with scoreboard := w } t)
    (hsorted : Sorted b.startB ms) (hms : ms.Perm (s.bufferedMpdus ++ added))
    (haccepted : (b.record s i t).accepted = b.accepted ++ added.map (numbered b.startB))
    (hforward : b.startR ≤ startR') (hhalf : startR' < b.startR + seqnoSpaceHalfSize)
    (hscored : Scored startR' heard' w) (hsize : w.winSize = size)
    (hheard : (b.record s i t).heard = heard') : Keeps size (b.record s i t) t := by
  have hmoveB : move s.winStartB t.winStartB = start' - b.startB := by
    rw [h.buffered.win, hmoved.win, move_eq hmoved.forward hmoved.half]
  have hmoveR : move s.scoreboard.winStart t.scoreboard.winStart = startR' - b.startR := by
    rw [h.scored.win, hmoved.scoreboard, hscored.win, move_eq hforward hhalf.le]
  have hstartB : (b.record s i t).startB = start' := by
    show b.startB + move s.winStartB t.winStartB = start'
    rw [hmoveB, Nat.add_sub_of_le hmoved.forward]
  have hstartR : (b.record s i t).startR = startR' := by
    show b.startR + move s.scoreboard.winStart t.scoreboard.winStart = startR'
    rw [hmoveR, Nat.add_sub_of_le hforward]
  have hpassedUp : (b.record s i t).passedUp = b.passedUp ++ p.map (numbered b.startB) := by
    show b.passedUp ++ (t.passedUp.drop s.passedUp.length).map (numbered b.startB) = _
    rw [hmoved.passed, drop_left]
  -- what stays in the buffer keeps its number
  have hnumber (m : Mpdu π) (hm : m ∈ t.bufferedMpdus) : number start' m = number b.startB m :=
    number_of_moved hmoved.forward (hmoved.above m hm)
  have hsplit : Sorted b.startB (p ++ t.bufferedMpdus) := hmoved.split ▸ hsorted
  obtain ⟨hp, hrest, -⟩ := pairwise_append.mp hsplit
  constructor
  · rw [hstartB]
    constructor
    · exact hmoved.win
    · refine hrest.imp_of_mem fun {x y} hx hy hxy => ?_
      rw [hnumber x hx, hnumber y hy]
      exact hxy
    · intro m hm
      rw [hnumber m hm]
      exact hmoved.above m hm
    · intro m hm
      rw [hnumber m hm, hmoved.sizeB]
      exact hmoved.below m hm
  · rw [hmoved.sizeB]
    exact h.sizeB
  · rw [hstartR, hheard, hmoved.scoreboard]
    exact hscored
  · rw [hmoved.scoreboard]
    exact hsize
  · intro k hk
    rcases mem_append.mp hk with hk | hk
    · exact h.moves k hk
    · rw [hmoveB, hmoveR] at hk
      have hhalfB := hmoved.half
      rcases mem_cons.mp hk with rfl | hk
      · omega
      · rw [mem_singleton.mp hk]
        omega
  · rw [hpassedUp, map_append, map_map]
    refine pairwise_append.mpr ⟨h.ordered, ?_, ?_⟩
    · exact pairwise_map.mpr hp
    · intro n hn k hk
      obtain ⟨x, hx, rfl⟩ := mem_map.mp hn
      obtain ⟨m, -, rfl⟩ := mem_map.mp hk
      exact (h.counted x hx).2.trans_le (le_number m)
  · rw [hpassedUp, hmoved.passed, h.passed, map_append, map_map]
    exact congrArg _ (map_id p).symm
  · intro x hx
    rw [hpassedUp] at hx
    rw [hstartB]
    rcases mem_append.mp hx with hx | hx
    · exact ⟨(h.counted x hx).1, (h.counted x hx).2.trans_le hmoved.forward⟩
    · obtain ⟨m, hm, rfl⟩ := mem_map.mp hx
      exact ⟨number_mod m, hmoved.behind m hm⟩
  · rw [haccepted, hpassedUp, hstartB]
    have hkept : t.bufferedMpdus.map (numbered start')
        = t.bufferedMpdus.map (numbered b.startB) := by
      refine map_congr_left fun m hm => ?_
      unfold numbered
      rw [hnumber m hm]
    calc b.accepted ++ added.map (numbered b.startB)
        ~ (b.passedUp ++ s.bufferedMpdus.map (numbered b.startB))
            ++ added.map (numbered b.startB) := h.complete.append_right _
      _ = b.passedUp ++ (s.bufferedMpdus ++ added).map (numbered b.startB) := by
        rw [append_assoc, map_append]
      _ ~ b.passedUp ++ ms.map (numbered b.startB) :=
        (hms.symm.map (numbered b.startB)).append_left _
      _ = (b.passedUp ++ p.map (numbered b.startB))
            ++ t.bufferedMpdus.map (numbered start') := by
        rw [hkept, hmoved.split, map_append, append_assoc]

/-! ## Runs -/

/-- A call that does not lead to a window start below zero. -/
def Safe (s : RecipientBlockAckAgreement π) (i : BlockAckCall π) : Prop :=
  match i with
  | .notifyReceivedMpdu m => s.NoUnderflow m
  | .notifyReceivedBar _ => True

/-- The MPDU is new in the buffer, or the buffer stays as it is. -/
theorem exists_added {b : Log π} (h : s.Buffered b.startB) (m : Mpdu π)
    (t : RecipientBlockAckAgreement π) :
    ∃ added, (s.insertedMpdus m).Perm (s.bufferedMpdus ++ added)
      ∧ (b.record s (.notifyReceivedMpdu m) t).accepted
        = b.accepted ++ added.map (numbered b.startB) := by
  have hdistance : number b.startB m < b.startB + seqnoSpaceHalfSize
      ↔ Circular.distance seqnoSpaceSize m.seqNumber s.winStartB < seqnoSpaceHalfSize := by
    unfold number Circular.number
    rw [h.win]
    omega
  unfold insertedMpdus Log.record
  dsimp only
  by_cases hnear : Circular.distance seqnoSpaceSize m.seqNumber s.winStartB < seqnoSpaceHalfSize
  · rw [if_pos hnear, h.win]
    by_cases hnew : ∀ x ∈ s.bufferedMpdus, x.seqNumber ≠ m.seqNumber
    · rw [if_pos ⟨hdistance.mpr hnear, hnew⟩]
      exact ⟨[m], (perm_insertMpdu hnew).trans (perm_append_singleton m _).symm, rfl⟩
    · rw [if_neg fun hboth => hnew hboth.2]
      push Not at hnew
      obtain ⟨x, hx, hseq⟩ := hnew
      rw [insertMpdu_of_mem h.sorted hx hseq]
      exact ⟨[], by rw [append_nil], (append_nil _).symm⟩
  · rw [if_neg hnear, if_neg fun hboth => hnear (hdistance.mp hboth.1)]
    exact ⟨[], by rw [append_nil], (append_nil _).symm⟩

theorem Buffered.sorted_insertedMpdus (h : s.Buffered start) (m : Mpdu π) :
    Sorted start (s.insertedMpdus m) := by
  unfold insertedMpdus
  split
  · rw [h.win]
    exact h.sorted.insertMpdu m
  · exact h.sorted

/-- **Every safe call.** -/
theorem Keeps.step {size : ℕ} {b : Log π} (h : Keeps size b s) (hpos : 0 < size)
    (hle : size ≤ seqnoSpaceHalfSize) {i : BlockAckCall π} (hi : s.Safe i) :
    ∃ t, machine.step s i = .ok t ∧ Keeps size (b.record s i t) t := by
  have hsizeR : s.scoreboard.winSize ≤ seqnoSpaceHalfSize := h.sizeR.symm ▸ hle
  cases i with
  | notifyReceivedMpdu m =>
    obtain ⟨startR', w, hnote, hw, hforward, hhalf, hscored⟩ := exists_scored_mpdu h.scored hsizeR m
    have hbuffered : Buffered b.startB { s with scoreboard := w } :=
      { h.buffered with }
    obtain ⟨start', p, t, ht, hmoved⟩ := exists_moved_mpdu hbuffered
      (hpos.trans_eq h.sizeB.symm) (h.sizeB.le.trans hle) (m := m) hi
    obtain ⟨added, hadded, haccepted⟩ := exists_added h.buffered m t
    refine ⟨t, ?_, h.of_moved hmoved (h.buffered.sorted_insertedMpdus m) hadded haccepted hforward
      hhalf hscored (hw.trans h.sizeR) rfl⟩
    show s.notifyReceivedMpdu m = _
    unfold notifyReceivedMpdu
    rw [hnote, ok_bind, ht]
  | notifyReceivedBar ssn =>
    obtain ⟨startR', w, hnote, hw, hforward, hhalf, hscored⟩ :=
      exists_scored_bar h.scored hsizeR ssn
    have hbuffered : Buffered b.startB { s with scoreboard := w } :=
      { h.buffered with }
    obtain ⟨start', p, t, ht, hmoved⟩ := exists_moved_bar hbuffered (h.sizeB.le.trans hle) ssn
    have hnone : s.bufferedMpdus.Perm (s.bufferedMpdus ++ []) := by rw [append_nil]
    refine ⟨t, ?_, h.of_moved hmoved h.buffered.sorted hnone (append_nil _).symm hforward
      hhalf hscored (hw.trans h.sizeR) rfl⟩
    show s.notifyReceivedBar ssn = _
    unfold notifyReceivedBar
    rw [hnote, ok_bind, ht]

/-- A call that is not safe does not return. -/
theorem Keeps.step_of_not_safe {size : ℕ} {b : Log π} (h : Keeps size b s)
    (hle : size ≤ seqnoSpaceHalfSize) {i : BlockAckCall π} (hi : ¬ s.Safe i) :
    machine.step s i = .error .assertFailed := by
  cases i with
  | notifyReceivedMpdu m =>
    obtain ⟨startR', w, hnote, -, -, -, -⟩ :=
      exists_scored_mpdu h.scored (h.sizeR.symm ▸ hle) m
    have hbuffered : Buffered b.startB { s with scoreboard := w } :=
      { h.buffered with }
    show s.notifyReceivedMpdu m = _
    unfold notifyReceivedMpdu
    rw [hnote, ok_bind]
    exact reorderMpdu_underflow hbuffered (h.sizeB.le.trans hle) hi
  | notifyReceivedBar ssn => exact absurd trivial hi

/-- A new agreement. -/
theorem keeps_new {startingSeq size : ℕ} (hseq : startingSeq < seqnoSpaceSize) (hpos : 0 < size) :
    Keeps size (π := π) { startB := startingSeq, startR := startingSeq }
      (new startingSeq size hpos) where
  buffered := ⟨(Nat.mod_eq_of_lt hseq).symm, List.Pairwise.nil, nofun, nofun⟩
  sizeB := rfl
  scored :=
    { win := (Nat.mod_eq_of_lt hseq).symm
      flags := fun d _ => by
        unfold new
        rw [BlockAckWindow.flag_init]
        exact iff_of_false Bool.false_ne_true nofun
      bound := nofun }
  sizeR := BlockAckWindow.winSize_init _ _ hpos
  moves := nofun
  ordered := List.Pairwise.nil
  passed := rfl
  counted := nofun
  complete := List.Perm.refl _

/-- **Reordering.**  In every run of safe calls the recipient stays in order, and what is called
next returns exactly if it is safe. -/
theorem passedUpInOrder_of_run {startingSeq size : ℕ} (hseq : startingSeq < seqnoSpaceSize)
    (hpos : 0 < size) (hle : size ≤ seqnoSpaceHalfSize) {is : List (BlockAckCall π)} {b : Log π}
    {t : RecipientBlockAckAgreement π}
    (h : (machine.recording Log.record).Run (fun c i => c.2.Safe i)
      ({ startB := startingSeq, startR := startingSeq }, new startingSeq size hpos) is (b, t)) :
    InOrder size b t ∧ ∀ i, (∃ u, machine.step t i = .ok u) ↔ t.Safe i := by
  have hkeeps : Keeps size b t := h.recorded (Keeps size)
    (fun b s i hb _ hi => by
      obtain ⟨u, hu, hkeeps⟩ := hb.step hpos hle hi
      rw [hu]
      exact hkeeps)
    (keeps_new hseq hpos)
  refine ⟨hkeeps.inOrder, fun i => ⟨fun hreturns => ?_, fun hi => ?_⟩⟩
  · by_contra hunsafe
    obtain ⟨u, hu⟩ := hreturns
    rw [hkeeps.step_of_not_safe hle hunsafe] at hu
    cases hu
  · obtain ⟨u, hu, -⟩ := hkeeps.step hpos hle hi
    exact ⟨u, hu⟩

instance (s : RecipientBlockAckAgreement π) (m : Mpdu π) : Decidable (s.NoUnderflow m) :=
  inferInstanceAs (Decidable (_ → _ → _))

/-- The test for safe calls. -/
def isSafe (s : RecipientBlockAckAgreement π) (i : BlockAckCall π) : Bool :=
  match i with
  | .notifyReceivedMpdu m => decide (s.NoUnderflow m)
  | .notifyReceivedBar _ => true

theorem safe_of_isSafe {i : BlockAckCall π} (h : s.isSafe i = true) : s.Safe i := by
  cases i with
  | notifyReceivedMpdu m => exact of_decide_eq_true (p := s.NoUnderflow m) h
  | notifyReceivedBar ssn => trivial

/-- An MPDU without a payload. -/
def sample (seqNumber : Fin 4096) : BlockAckCall Unit :=
  .notifyReceivedMpdu ⟨seqNumber, seqNumber.isLt, ()⟩

/-- Out of order and around the end of the sequence number space, with a duplicate, a
BlockAckReq and a jump beyond the window. -/
theorem passedUpInOrder_wrapping : ∃ b t, (machine.recording Log.record).Run (fun c i => c.2.Safe i)
        ({ startB := 4094, startR := 4094 }, new 4094 10 (by decide))
        [sample 4095, sample 1, sample 4095, sample 4094, .notifyReceivedBar ⟨1, by decide⟩,
          sample 14] (b, t)
      ∧ b.passedUp.map Prod.fst = [4094, 4095, 4097] ∧ t.winStartB = 5 ∧ InOrder 10 b t := by
  obtain ⟨⟨b, t⟩, hrun, htest⟩ := Machine.exists_run_of_exec
    (m := (machine (π := Unit)).recording Log.record) (fun c i => c.2.isSafe i)
    (fun c => c.1.passedUp.map Prod.fst == [4094, 4095, 4097] && c.2.winStartB == 5)
    ({ startB := 4094, startR := 4094 }, new 4094 10 (by decide))
    [sample 4095, sample 1, sample 4095, sample 4094, .notifyReceivedBar ⟨1, by decide⟩, sample 14]
    (by decide +kernel)
  obtain ⟨hpassed, hwin⟩ := Bool.and_eq_true_iff.mp htest
  have hsafe := hrun.mono fun c i => safe_of_isSafe
  exact ⟨b, t, hsafe, beq_iff_eq.mp hpassed, beq_iff_eq.mp hwin,
    (passedUpInOrder_of_run (by decide) (by decide) (by decide) hsafe).1⟩

/-- Sequence number 10 comes in beyond a window of 64 that starts at 4000. -/
theorem not_passedUpInOrder : ¬ ∀ (startingSeq size : ℕ) (hpos : 0 < size),
    startingSeq < seqnoSpaceSize →
    size ≤ 256 → ∀ (is : List (BlockAckCall Unit)) (b : Log Unit)
      (t : RecipientBlockAckAgreement Unit), (machine.recording Log.record).Run (fun _ _ => True)
        ({ startB := startingSeq, startR := startingSeq }, new startingSeq size hpos) is (b, t) →
      InOrder size b t ∧ ∀ i, ∃ u, machine.step t i = .ok u := by
  intro hall
  obtain ⟨-, hreturns⟩ := hall 4000 64 (by decide) (by decide) (by decide) [] _ _ (.nil _)
  obtain ⟨u, hu⟩ := hreturns (sample 10)
  have hfails : machine.step (new 4000 64 (by decide)) (sample 10) = .error .assertFailed :=
    (keeps_new (by decide) (by decide)).step_of_not_safe (by decide) (by
      intro hsafe
      have hno : ¬ NoUnderflow ⟨10, by decide, ()⟩
        (new (π := Unit) 4000 64 (by decide)) := by decide +kernel
      exact hno hsafe)
  rw [hfails] at hu
  cases hu

end Ns3Dsme.Wifi.RecipientBlockAckAgreement
