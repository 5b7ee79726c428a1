/-
# The reordering buffer without wrapping

The numbers that the windows of a recipient would have without wrapping.  In terms of these the
buffer is sorted, both windows only move forward, and what is passed up comes in increasing order.
-/
import Mathlib.Data.List.Pairwise
import Ns3Dsme.Wifi.RecipientBlockAckAgreement

open List Program

namespace Ns3Dsme.Wifi

open Circular

namespace RecipientBlockAckAgreement

variable {π : Type} {start : ℕ} {s t : RecipientBlockAckAgreement π}

/-- The number of an MPDU, counted from `start` on without wrapping. -/
def number (start : ℕ) (m : Mpdu π) : ℕ := Circular.number seqnoSpaceSize start m.seqNumber

theorem le_number (m : Mpdu π) : start ≤ number start m := Circular.le_number

theorem number_lt (m : Mpdu π) : number start m < start + seqnoSpaceSize :=
  Circular.number_lt (by decide)

variable {m : Mpdu π} {ms : List (Mpdu π)}

theorem number_eq_iff {n : ℕ} (hle : start ≤ n) (hlt : n < start + seqnoSpaceSize) :
    number start m = n ↔ m.seqNumber = n % seqnoSpaceSize := by
  constructor
  · rintro rfl
    exact (Circular.number_mod m.seqNumber_lt).symm
  · intro hseq
    unfold number
    rw [hseq, Circular.number_eq hle hlt]

@[simp] theorem number_mod (m : Mpdu π) : number start m % seqnoSpaceSize = m.seqNumber :=
  Circular.number_mod m.seqNumber_lt

/-- The distance of a number that is not far ahead. -/
theorem getDistance_mod {c n : ℕ} (hle : c ≤ n) (hlt : n < c + seqnoSpaceSize) :
    getDistance (n % seqnoSpaceSize) (c % seqnoSpaceSize) = .ok (n - c) := by
  rw [getDistance_eq (Nat.mod_lt _ (by decide)) (Nat.mod_lt _ (by decide)),
    distance_mod hle hlt]

/-- The distance of an MPDU that the window has not passed. -/
theorem getDistance_number {c : ℕ} (hle : c ≤ number start m)
    (hlt : number start m < c + seqnoSpaceSize) :
    getDistance m.seqNumber (c % seqnoSpaceSize) = .ok (number start m - c) := by
  rw [← getDistance_mod hle hlt, number_mod]

/-- `Compare` goes by the numbers. -/
theorem position_eq (start : ℕ) (m : Mpdu π) :
    position (start % seqnoSpaceSize) m.seqNumber = ((number start m - start : ℕ) : ℤ) := by
  have hstart : start % seqnoSpaceSize < seqnoSpaceSize := Nat.mod_lt _ (by decide)
  unfold position number Circular.number Circular.distance
  rw [Nat.add_sub_cancel_left]
  have hnat : (m.seqNumber : ℤ) - (start % seqnoSpaceSize : ℕ) + (seqnoSpaceSize : ℕ)
      = ((m.seqNumber + seqnoSpaceSize - start % seqnoSpaceSize : ℕ) : ℤ) := by
    omega
  rw [hnat, Int.tmod_eq_emod_of_nonneg (Int.natCast_nonneg _)]
  rfl

theorem position_lt_iff (m m' : Mpdu π) :
    position (start % seqnoSpaceSize) m.seqNumber < position (start % seqnoSpaceSize) m'.seqNumber
      ↔ number start m < number start m' := by
  rw [position_eq, position_eq]
  have hm : start ≤ number start m := le_number m
  have hm' : start ≤ number start m' := le_number m'
  omega

/-! ## Inserting -/

/-- The buffer is sorted by the numbers. -/
def Sorted (start : ℕ) (ms : List (Mpdu π)) : Prop :=
  ms.Pairwise fun m m' => number start m < number start m'

theorem insertMpdu_cons (m m' : Mpdu π) (ms : List (Mpdu π)) :
    insertMpdu (start % seqnoSpaceSize) m (m' :: ms)
      = if number start m < number start m' then m :: m' :: ms
        else if number start m' < number start m then
          m' :: insertMpdu (start % seqnoSpaceSize) m ms
        else m' :: ms := by
  simp only [insertMpdu, position_lt_iff]

theorem mem_insertMpdu {w : ℕ} {m x : Mpdu π} (h : x ∈ insertMpdu w m ms) :
    x = m ∨ x ∈ ms := by
  induction ms with
  | nil => exact Or.inl (mem_singleton.mp h)
  | cons m' ms ih =>
    unfold insertMpdu at h
    split at h
    · exact mem_cons.mp h
    · split at h
      · rcases mem_cons.mp h with rfl | h
        · exact Or.inr mem_cons_self
        · exact (ih h).imp_right (mem_cons_of_mem m')
      · exact Or.inr h

/-- Inserting keeps the buffer sorted. -/
theorem Sorted.insertMpdu (h : Sorted start ms) (m : Mpdu π) :
    Sorted start (insertMpdu (start % seqnoSpaceSize) m ms) := by
  induction ms with
  | nil => exact pairwise_singleton _ _
  | cons m' ms ih =>
    obtain ⟨hfirst, hrest⟩ := pairwise_cons.mp h
    rw [insertMpdu_cons]
    split
    · rename_i hbefore
      refine pairwise_cons.mpr ⟨fun x hx => ?_, h⟩
      rcases mem_cons.mp hx with rfl | hx
      · exact hbefore
      · exact hbefore.trans (hfirst x hx)
    · split
      · rename_i hbehind
        refine pairwise_cons.mpr ⟨fun x hx => ?_, ih hrest⟩
        rcases mem_insertMpdu hx with rfl | hx
        · exact hbehind
        · exact hfirst x hx
      · exact h

/-- An MPDU whose sequence number is not there yet is added. -/
theorem perm_insertMpdu (hnew : ∀ x ∈ ms, x.seqNumber ≠ m.seqNumber) :
    (insertMpdu (start % seqnoSpaceSize) m ms).Perm (m :: ms) := by
  induction ms with
  | nil => exact List.Perm.refl _
  | cons m' ms ih =>
    have hother : number start m' ≠ number start m := fun hsame =>
      hnew m' mem_cons_self (Circular.number_inj m'.seqNumber_lt m.seqNumber_lt hsame)
    rw [insertMpdu_cons]
    split
    · exact List.Perm.refl _
    · rw [if_pos (by omega)]
      exact ((ih fun x hx => hnew x (mem_cons_of_mem m' hx)).cons m').trans
        (List.Perm.swap m m' ms)

/-- An MPDU whose sequence number is there is not. -/
theorem insertMpdu_of_mem {m x : Mpdu π} (h : Sorted start ms) (hx : x ∈ ms)
    (hseq : x.seqNumber = m.seqNumber) : insertMpdu (start % seqnoSpaceSize) m ms = ms := by
  have hsame : number start x = number start m := by
    unfold number
    rw [hseq]
  induction ms with
  | nil => cases hx
  | cons m' ms ih =>
    obtain ⟨hfirst, hrest⟩ := pairwise_cons.mp h
    rw [insertMpdu_cons]
    rcases mem_cons.mp hx with rfl | hx
    · rw [if_neg (by omega), if_neg (by omega)]
    · have hlt := hfirst x hx
      rw [if_neg (by omega), if_pos (by omega), ih hrest hx]

/-! ## Passing up -/

/-- No buffered MPDU is taken for an old one. -/
theorem checkLast_ok {c : ℕ} (hwin : s.winStartB = c % seqnoSpaceSize)
    (hbuffer : ∀ m ∈ s.bufferedMpdus,
      c ≤ number start m ∧ number start m < c + seqnoSpaceHalfSize) :
    s.checkLast = .ok () := by
  unfold checkLast
  cases hlast : s.bufferedMpdus.getLast? with
  | none => rfl
  | some m =>
    obtain ⟨hle, hlt⟩ := hbuffer m (mem_of_getLast? hlast)
    dsimp only
    rw [hwin, getDistance_number hle (hlt.trans (Nat.add_lt_add_left (by decide) c)), ok_bind,
      if_pos (by omega)]

/-- The first loop passes up consecutive numbers from `c` on, and stops at a gap. -/
theorem passInOrder_spec (ms : List (Mpdu π)) (c : ℕ) (hc : start ≤ c)
    (hle : ∀ m ∈ ms, c ≤ number start m) (hsorted : Sorted start ms)
    (hwin : s.winStartB = c % seqnoSpaceSize) (hms : s.bufferedMpdus = ms) :
    ∃ p r, ms = p ++ r ∧ passInOrder ms s = { s with
        bufferedMpdus := r
        passedUp := s.passedUp ++ p
        winStartB := (c + p.length) % seqnoSpaceSize }
      ∧ (∀ m ∈ p, number start m < c + p.length)
      ∧ (∀ m ∈ r, c + p.length < number start m)
      ∧ ∀ n, n < p.length → ∃ m ∈ p, number start m = c + n := by
  induction ms generalizing s c with
  | nil =>
    refine ⟨[], [], rfl, ?_, nofun, nofun, nofun⟩
    show s = _
    rw [append_nil, length_nil, Nat.add_zero, ← hwin, ← hms]
  | cons m ms ih =>
    obtain ⟨hfirst, hrest⟩ := pairwise_cons.mp hsorted
    have hcm : c ≤ number start m := hle m mem_cons_self
    have hmlt : number start m < start + seqnoSpaceSize := number_lt m
    have hseq : m.seqNumber = s.winStartB ↔ number start m = c := by
      rw [hwin]
      exact (number_eq_iff hc (by omega)).symm
    unfold passInOrder
    by_cases hnext : number start m = c
    · rw [if_pos (hseq.mpr hnext)]
      obtain ⟨p, r, hsplit, hpass, hbelow, habove, hcover⟩ := ih (s := { s with
          bufferedMpdus := ms
          passedUp := s.passedUp ++ [m]
          winStartB := (s.winStartB + 1) % seqnoSpaceSize }) (c + 1) (by omega)
        (fun x hx => by have := hfirst x hx; omega) hrest
        (by show (s.winStartB + 1) % seqnoSpaceSize = _; rw [hwin, Nat.mod_add_mod]) rfl
      have hlength : c + 1 + p.length = c + (m :: p).length := by
        rw [length_cons]
        omega
      refine ⟨m :: p, r, by rw [hsplit]; rfl, ?_, ?_, ?_, ?_⟩
      · rw [hpass, hlength]
        simp
      · intro x hx
        rw [← hlength]
        rcases mem_cons.mp hx with rfl | hx
        · omega
        · exact hbelow x hx
      · intro x hx
        rw [← hlength]
        exact habove x hx
      · intro n hn
        cases n with
        | zero => exact ⟨m, mem_cons_self, hnext⟩
        | succ n =>
          obtain ⟨x, hx, hxn⟩ := hcover n (Nat.lt_of_succ_lt_succ hn)
          exact ⟨x, mem_cons_of_mem m hx, by omega⟩
    · rw [if_neg fun hsame => hnext (hseq.mp hsame)]
      refine ⟨[], m :: ms, rfl, ?_, nofun, ?_, nofun⟩
      · rw [append_nil, length_nil, Nat.add_zero, ← hwin, ← hms]
      · intro x hx
        rw [length_nil, Nat.add_zero]
        rcases mem_cons.mp hx with rfl | hx
        · omega
        · have := hfirst x hx
          omega

/-- The second loop passes up the numbers below `n`. -/
theorem passBelow_spec {n : ℕ} (ms : List (Mpdu π)) (hn : start ≤ n)
    (hlt : n < start + seqnoSpaceSize) (hsorted : Sorted start ms)
    (hwin : s.winStartB = start % seqnoSpaceSize) (hms : s.bufferedMpdus = ms) :
    ∃ p r, ms = p ++ r ∧ passBelow (n % seqnoSpaceSize) ms s
        = .ok { s with bufferedMpdus := r, passedUp := s.passedUp ++ p }
      ∧ (∀ m ∈ p, number start m < n) ∧ ∀ m ∈ r, n ≤ number start m := by
  induction ms generalizing s with
  | nil =>
    refine ⟨[], [], rfl, ?_, nofun, nofun⟩
    show Except.ok s = _
    rw [append_nil, ← hms]
  | cons m ms ih =>
    obtain ⟨hfirst, hrest⟩ := pairwise_cons.mp hsorted
    have hle : start ≤ number start m := le_number m
    have hm : getDistance m.seqNumber s.winStartB = .ok (number start m - start) := by
      rw [hwin]
      exact getDistance_number hle (number_lt m)
    have hnew : getDistance (n % seqnoSpaceSize) s.winStartB = .ok (n - start) := by
      rw [hwin]
      exact getDistance_mod hn hlt
    unfold passBelow
    rw [hm, ok_bind, hnew, ok_bind]
    by_cases hbelow : number start m < n
    · rw [if_pos (by omega)]
      obtain ⟨p, r, hsplit, hpass, hp, hr⟩ := ih (s := { s with
        bufferedMpdus := ms, passedUp := s.passedUp ++ [m] }) hrest hwin rfl
      refine ⟨m :: p, r, by rw [hsplit]; rfl, ?_, ?_, hr⟩
      · rw [hpass]
        simp
      · intro x hx
        rcases mem_cons.mp hx with rfl | hx
        · exact hbelow
        · exact hp x hx
    · rw [if_neg (by omega)]
      refine ⟨[], m :: ms, rfl, ?_, nofun, ?_⟩
      · rw [append_nil, ← hms]
      · intro x hx
        rcases mem_cons.mp hx with rfl | hx
        · omega
        · have := hfirst x hx
          omega

/-- `PassBufferedMpdusUntilFirstLost`, when no number is below the start `c` of the window. -/
theorem untilFirstLost_spec {c : ℕ} (hc : start ≤ c) (hwin : s.winStartB = c % seqnoSpaceSize)
    (hsorted : Sorted start s.bufferedMpdus)
    (hbuffer : ∀ m ∈ s.bufferedMpdus,
      c ≤ number start m ∧ number start m < c + seqnoSpaceHalfSize) :
    ∃ p r c', s.bufferedMpdus = p ++ r
      ∧ s.passBufferedMpdusUntilFirstLost = .ok { s with
          bufferedMpdus := r, passedUp := s.passedUp ++ p, winStartB := c' % seqnoSpaceSize }
      ∧ (c' = c ∨ c < c' ∧ ∃ m ∈ p, number start m + 1 = c')
      ∧ (∀ m ∈ p, number start m < c') ∧ ∀ m ∈ r, c' < number start m := by
  obtain ⟨p, r, hsplit, hpass, hp, hr, hcover⟩ :=
    passInOrder_spec s.bufferedMpdus c hc (fun m hm => (hbuffer m hm).1) hsorted hwin rfl
  refine ⟨p, r, c + p.length, hsplit, ?_, ?_, hp, hr⟩
  · unfold passBufferedMpdusUntilFirstLost
    rw [checkLast_ok hwin hbuffer, ok_bind, hpass]
  · cases hlength : p.length with
    | zero => exact Or.inl rfl
    | succ n =>
      obtain ⟨m, hm, hnumber⟩ := hcover n (by omega)
      exact Or.inr ⟨by omega, m, hm, by omega⟩

/-- `PassBufferedMpdusWithSeqNumberLessThan(n)`. -/
theorem lessThan_spec {n : ℕ} (hn : start ≤ n) (hlt : n < start + seqnoSpaceSize)
    (hwin : s.winStartB = start % seqnoSpaceSize) (hsorted : Sorted start s.bufferedMpdus)
    (hbuffer : ∀ m ∈ s.bufferedMpdus, number start m < start + seqnoSpaceHalfSize) :
    ∃ p r, s.bufferedMpdus = p ++ r
      ∧ s.passBufferedMpdusWithSeqNumberLessThan (n % seqnoSpaceSize) = .ok { s with
          bufferedMpdus := r, passedUp := s.passedUp ++ p, winStartB := n % seqnoSpaceSize }
      ∧ (∀ m ∈ p, number start m < n) ∧ ∀ m ∈ r, n ≤ number start m := by
  obtain ⟨p, r, hsplit, hpass, hp, hr⟩ := passBelow_spec s.bufferedMpdus hn hlt hsorted hwin rfl
  refine ⟨p, r, hsplit, ?_, hp, hr⟩
  unfold passBufferedMpdusWithSeqNumberLessThan
  rw [checkLast_ok hwin fun m hm => ⟨le_number m, hbuffer m hm⟩, ok_bind, hpass, ok_bind]

/-! ## One call -/

/-- The reordering buffer between two calls, when its window starts at `start`. -/
structure Buffered (start : ℕ) (s : RecipientBlockAckAgreement π) : Prop where
  win : s.winStartB = start % seqnoSpaceSize
  sorted : Sorted start s.bufferedMpdus
  above : ∀ m ∈ s.bufferedMpdus, start < number start m
  below : ∀ m ∈ s.bufferedMpdus, number start m < start + s.winSizeB

/-- From `s` with the buffer `ms`, a call moves the window from `start` to `start'`, passes up `p`
and ends in `t`. -/
structure Moved (start start' : ℕ) (ms p : List (Mpdu π)) (s t : RecipientBlockAckAgreement π) :
    Prop where
  forward : start ≤ start'
  half : start' ≤ start + seqnoSpaceHalfSize
  win : t.winStartB = start' % seqnoSpaceSize
  split : ms = p ++ t.bufferedMpdus
  passed : t.passedUp = s.passedUp ++ p
  behind : ∀ m ∈ p, number start m < start'
  above : ∀ m ∈ t.bufferedMpdus, start' < number start m
  below : ∀ m ∈ t.bufferedMpdus, number start m < start' + s.winSizeB
  sizeB : t.winSizeB = s.winSizeB
  scoreboard : t.scoreboard = s.scoreboard

/-- The window after a jump to `n`: what lies below is passed up, and so is what follows from `n`
on without a gap. -/
theorem exists_moved_of_jump {n size : ℕ} (hn : start < n) (hhalf : n < start + seqnoSpaceHalfSize)
    (hwin : s.winStartB = start % seqnoSpaceSize) (hsorted : Sorted start s.bufferedMpdus)
    (hsize : s.winSizeB = size) (hle : size ≤ seqnoSpaceHalfSize)
    (hbuffer : ∀ m ∈ s.bufferedMpdus, number start m < start + seqnoSpaceHalfSize)
    (hbelow : ∀ m ∈ s.bufferedMpdus, number start m < n + size) :
    ∃ start' p t, (do
        let s ← s.passBufferedMpdusWithSeqNumberLessThan (n % seqnoSpaceSize)
        s.passBufferedMpdusUntilFirstLost) = .ok t ∧ Moved start start' s.bufferedMpdus p s t := by
  have hspace : seqnoSpaceHalfSize < seqnoSpaceSize := by decide
  obtain ⟨p, r, hsplit, hless, hp, hr⟩ :=
    lessThan_spec (Nat.le_of_lt hn) (by omega) hwin hsorted hbuffer
  have hmem (m : Mpdu π) (hm : m ∈ r) : m ∈ s.bufferedMpdus := by
    rw [hsplit]
    exact mem_append_right p hm
  have hrest : Sorted start r := by
    rw [hsplit] at hsorted
    exact (pairwise_append.mp hsorted).2.1
  obtain ⟨q, r', c', hsplit', huntil, hc', hq, hr'⟩ := untilFirstLost_spec (s := { s with
      bufferedMpdus := r, passedUp := s.passedUp ++ p, winStartB := n % seqnoSpaceSize })
    (Nat.le_of_lt hn) rfl hrest fun m hm => by
      have := hbelow m (hmem m hm)
      exact ⟨hr m hm, by omega⟩
  have hsplit' : r = q ++ r' := hsplit'
  refine ⟨c', p ++ q, { s with
    bufferedMpdus := r'
    passedUp := s.passedUp ++ p ++ q
    winStartB := c' % seqnoSpaceSize }, ?_, ?_⟩
  · rw [hless, ok_bind, huntil]
  · refine ⟨?_, ?_, rfl, ?_, ?_, ?_, hr', ?_, rfl, rfl⟩
    · rcases hc' with rfl | ⟨hlt, -⟩
      · omega
      · omega
    · rcases hc' with rfl | ⟨-, m, hm, rfl⟩
      · omega
      · have := hbuffer m (hmem m (by rw [hsplit']; exact mem_append_left r' hm))
        omega
    · rw [hsplit, hsplit', append_assoc]
    · exact append_assoc _ _ _
    · intro m hm
      rcases mem_append.mp hm with hm | hm
      · have := hp m hm
        rcases hc' with rfl | ⟨hlt, -⟩
        · omega
        · omega
      · exact hq m hm
    · intro m hm
      have := hbelow m (hmem m (by rw [hsplit']; exact mem_append_right q hm))
      show number start m < c' + s.winSizeB
      rcases hc' with rfl | ⟨hlt, -⟩
      · omega
      · omega

/-- The start that a number beyond the window leads to, if it is not negative. -/
theorem startBefore_eq {size : ℕ} (hpos : 0 < size) (hsize : size ≤ m.seqNumber + 1)
    (hn : size ≤ number start m) :
    startBefore m.seqNumber size = (number start m + 1 - size) % seqnoSpaceSize := by
  have hseq : number start m % seqnoSpaceSize = m.seqNumber := number_mod m
  have hlt := m.seqNumber_lt
  unfold startBefore
  unfold seqnoSpaceSize at *
  omega

/-- If it is negative it is no sequence number. -/
theorem le_startBefore {size : ℕ} (hsize : m.seqNumber + 1 < size)
    (hle : size ≤ seqnoSpaceHalfSize) : seqnoSpaceSize ≤ startBefore m.seqNumber size := by
  unfold startBefore
  unfold seqnoSpaceHalfSize seqnoSpaceSize at *
  omega

/-- An MPDU beyond the window does not lead to a start below zero. -/
def NoUnderflow (mpdu : Mpdu π) (s : RecipientBlockAckAgreement π) : Prop :=
  s.winSizeB ≤ distance seqnoSpaceSize mpdu.seqNumber s.winStartB →
    distance seqnoSpaceSize mpdu.seqNumber s.winStartB < seqnoSpaceHalfSize →
    s.winSizeB ≤ mpdu.seqNumber + 1

/-- What an MPDU leaves in the buffer before anything is passed up. -/
def insertedMpdus (mpdu : Mpdu π) (s : RecipientBlockAckAgreement π) : List (Mpdu π) :=
  if distance seqnoSpaceSize mpdu.seqNumber s.winStartB < seqnoSpaceHalfSize then
    insertMpdu s.winStartB mpdu s.bufferedMpdus
  else s.bufferedMpdus

/-- Nothing is passed up. -/
theorem Buffered.moved (h : s.Buffered start) : Moved start start s.bufferedMpdus [] s s where
  forward := Nat.le.refl
  half := Nat.le_add_right _ _
  win := h.win
  split := rfl
  passed := (append_nil _).symm
  behind := nofun
  above := h.above
  below := h.below
  sizeB := rfl
  scoreboard := rfl

/-- **An MPDU in the reordering buffer.** -/
theorem exists_moved_mpdu (h : s.Buffered start) (hpos : 0 < s.winSizeB)
    (hle : s.winSizeB ≤ seqnoSpaceHalfSize) (hm : s.NoUnderflow m) :
    ∃ start' p t, s.reorderMpdu m = .ok t ∧ Moved start start' (s.insertedMpdus m) p s t := by
  have hspace : seqnoSpaceHalfSize < seqnoSpaceSize := by decide
  have hstart : start ≤ number start m := le_number m
  have hdistance : distance seqnoSpaceSize m.seqNumber s.winStartB
      = number start m - start := by
    unfold number Circular.number
    rw [h.win, Nat.add_sub_cancel_left]
  have hget : getDistance m.seqNumber s.winStartB = .ok (number start m - start) := by
    rw [h.win]
    exact getDistance_number hstart (number_lt m)
  unfold NoUnderflow at hm
  rw [hdistance] at hm
  unfold insertedMpdus reorderMpdu
  rw [hdistance, hget, ok_bind]
  dsimp only
  have hsorted : Sorted start (insertMpdu s.winStartB m s.bufferedMpdus) := by
    rw [h.win]
    exact h.sorted.insertMpdu m
  by_cases hin : number start m - start < s.winSizeB
  · -- inside the window
    rw [if_pos hin, if_pos (by omega)]
    have hbelow (x : Mpdu π) (hx : x ∈ insertMpdu s.winStartB m s.bufferedMpdus) :
        number start x < start + s.winSizeB := by
      rcases mem_insertMpdu hx with rfl | hx
      · omega
      · exact h.below x hx
    obtain ⟨p, r, c, hsplit, huntil, hc, hp, hr⟩ := untilFirstLost_spec (s := { s with
        bufferedMpdus := insertMpdu s.winStartB m s.bufferedMpdus }) Nat.le.refl h.win hsorted
      fun x hx => ⟨le_number x, (hbelow x hx).trans_le (Nat.add_le_add_left hle start)⟩
    have hsplit : insertMpdu s.winStartB m s.bufferedMpdus = p ++ r := hsplit
    have hforward : start ≤ c := by
      rcases hc with rfl | ⟨hlt, -⟩
      · exact Nat.le.refl
      · exact Nat.le_of_lt hlt
    refine ⟨c, p, _, huntil, hforward, ?_, rfl, hsplit, rfl, hp, hr, ?_, rfl, rfl⟩
    · rcases hc with rfl | ⟨-, x, hx, rfl⟩
      · omega
      · have := hbelow x (by rw [hsplit]; exact mem_append_left r hx)
        omega
    · intro x hx
      have := hbelow x (by rw [hsplit]; exact mem_append_right p hx)
      show number start x < c + s.winSizeB
      omega
  · rw [if_neg hin]
    by_cases hnear : number start m - start < seqnoSpaceHalfSize
    · -- beyond the window: it jumps so that the MPDU is its last one
      rw [if_pos hnear, if_pos hnear]
      have hbefore : startBefore m.seqNumber s.winSizeB
          = (number start m + 1 - s.winSizeB) % seqnoSpaceSize :=
        startBefore_eq hpos (hm (by omega) hnear) (by omega)
      rw [hbefore]
      obtain ⟨start', p, t, ht, hmoved⟩ := exists_moved_of_jump
        (n := number start m + 1 - s.winSizeB) (s := { s with
          bufferedMpdus := insertMpdu s.winStartB m s.bufferedMpdus }) (by omega) (by omega) h.win
        hsorted rfl hle
        (fun x hx => by
          rcases mem_insertMpdu hx with rfl | hx
          · omega
          · exact (h.below x hx).trans_le (Nat.add_le_add_left hle start))
        (fun x hx => by
          show number start x < number start m + 1 - s.winSizeB + s.winSizeB
          rcases mem_insertMpdu hx with rfl | hx
          · omega
          · have := h.below x hx
            omega)
      exact ⟨start', p, t, ht, { hmoved with }⟩
    · rw [if_neg hnear, if_neg hnear]
      exact ⟨start, [], s, rfl, h.moved⟩

/-- **A BlockAckReq in the reordering buffer.** -/
theorem exists_moved_bar (h : s.Buffered start) (hle : s.winSizeB ≤ seqnoSpaceHalfSize)
    (ssn : Fin seqnoSpaceSize) :
    ∃ start' p t, s.reorderBar ssn = .ok t ∧ Moved start start' s.bufferedMpdus p s t := by
  have hspace : seqnoSpaceHalfSize < seqnoSpaceSize := by decide
  have hstart : start ≤ Circular.number seqnoSpaceSize start ssn := Circular.le_number
  have hlt : Circular.number seqnoSpaceSize start ssn < start + seqnoSpaceSize :=
    Circular.number_lt (by decide)
  have hget : getDistance ssn s.winStartB
      = .ok (Circular.number seqnoSpaceSize start ssn - start) := by
    rw [h.win, ← getDistance_mod hstart hlt, Circular.number_mod ssn.isLt]
  unfold reorderBar
  rw [hget, ok_bind]
  split
  · rename_i hnear
    have hmod : Circular.number seqnoSpaceSize start ssn % seqnoSpaceSize = ssn :=
      Circular.number_mod ssn.isLt
    rw [← hmod]
    refine exists_moved_of_jump (n := Circular.number seqnoSpaceSize start ssn) (by omega)
      (by omega) h.win h.sorted rfl hle ?_ ?_
    · intro x hx
      exact (h.below x hx).trans_le (Nat.add_le_add_left hle start)
    · intro x hx
      have := h.below x hx
      omega
  · exact ⟨start, [], s, rfl, h.moved⟩

/-- **The wrapping start.**  An MPDU beyond the window whose number is too small makes the
assertion of `GetDistance` fail. -/
theorem reorderMpdu_underflow (h : s.Buffered start) (hle : s.winSizeB ≤ seqnoSpaceHalfSize) (hm : ¬ s.NoUnderflow m) : s.reorderMpdu m = .error .assertFailed := by
  unfold NoUnderflow at hm
  push Not at hm
  obtain ⟨hbeyond, hnear, hunder⟩ := hm
  have hwin : s.winStartB < seqnoSpaceSize := by
    rw [h.win]
    exact Nat.mod_lt _ (by decide)
  have hget : getDistance m.seqNumber s.winStartB
      = .ok (distance seqnoSpaceSize m.seqNumber s.winStartB) :=
    getDistance_eq m.seqNumber_lt hwin
  have hnew (a : ℕ) : getDistance (startBefore m.seqNumber s.winSizeB) a
      = .error .assertFailed := by
    have := le_startBefore hunder hle
    unfold getDistance
    rw [if_neg (by omega)]
  have hsorted : Sorted start (insertMpdu s.winStartB m s.bufferedMpdus) := by
    rw [h.win]
    exact h.sorted.insertMpdu m
  have hnumber : number start m < start + seqnoSpaceHalfSize := by
    unfold number Circular.number
    rw [← h.win]
    omega
  unfold reorderMpdu
  rw [hget, ok_bind]
  dsimp only
  rw [if_neg (by omega), if_pos hnear]
  have hcheck : checkLast { s with
      bufferedMpdus := insertMpdu s.winStartB m s.bufferedMpdus } = .ok () := by
    refine checkLast_ok h.win fun x hx => ⟨le_number x, ?_⟩
    rcases mem_insertMpdu hx with rfl | hx
    · exact hnumber
    · exact (h.below x hx).trans_le (Nat.add_le_add_left hle start)
  unfold passBufferedMpdusWithSeqNumberLessThan
  rw [hcheck, ok_bind]
  -- the loop asks for the distance of the new start before it looks at anything
  dsimp only
  cases hinserted : insertMpdu s.winStartB m s.bufferedMpdus with
  | nil =>
    unfold insertMpdu at hinserted
    split at hinserted
    · cases hinserted
    · split at hinserted
      · cases hinserted
      · split at hinserted
        · cases hinserted
        · cases hinserted
  | cons x xs =>
    have hx : getDistance x.seqNumber s.winStartB
        = .ok (distance seqnoSpaceSize x.seqNumber s.winStartB) :=
      getDistance_eq x.seqNumber_lt hwin
    unfold passBelow
    dsimp only
    rw [hx, ok_bind, hnew]
    rfl

end RecipientBlockAckAgreement

end Ns3Dsme.Wifi
