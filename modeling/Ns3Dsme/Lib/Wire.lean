/-
# Readers of octets

A reader takes octets from the front of a list and gives a value; it gives none where the octets
end too early.  `Reads r octets a` says that `r` takes exactly these octets, whatever comes behind
them, and gives `a`.  `Yields r Q` says what holds of every value that `r` gives and of the octets
it takes for it.
-/
import Mathlib.Algebra.Group.Nat.Defs
import Ns3Dsme.Lib.Octets

abbrev Reader := StateT (List Octet) Option

open List BitVec

namespace Reader

variable {α β : Type}

/-! ## What a reader takes -/

def Reads (r : Reader α) (octets : List Octet) (a : α) : Prop :=
  ∀ rest, r.run (octets ++ rest) = some (a, rest)

/-- Every value that the reader gives meets `Q`, with the octets taken. -/
def Yields (r : Reader α) (Q : α → List Octet → Prop) : Prop :=
  ∀ octets a rest, r.run octets = some (a, rest) → ∃ xs, octets = xs ++ rest ∧ Q a xs

theorem reads_pure (a : α) : Reads (pure a) [] a := fun _ => rfl

variable {r : Reader α} {f : α → Reader β} {a : α}

/-- Nothing is read behind a last value. -/
theorem Reads.bind_pure {xs : List Octet} {b : β} (hr : Reads r xs a) (hf : f a = pure b) :
    Reads (r >>= f) xs b := by
  intro rest
  rw [StateT.run_bind, hr]
  show (f a).run rest = _
  rw [hf]
  rfl

theorem Reads.bind {xs ys : List Octet} {b : β} (hr : Reads r xs a) (hf : Reads (f a) ys b) :
    Reads (r >>= f) (xs ++ ys) b := by
  intro rest
  rw [StateT.run_bind, List.append_assoc, hr]
  exact hf rest

theorem yields_pure {Q : α → List Octet → Prop} (h : Q a []) : Yields (pure a) Q := by
  intro octets b rest hrun
  cases hrun
  exact ⟨[], rfl, h⟩

theorem Yields.mono {Q Q' : α → List Octet → Prop} (hr : Yields r Q)
    (hQ : ∀ a xs, Q a xs → Q' a xs) : Yields r Q' := by
  intro octets a rest hrun
  obtain ⟨xs, hxs, hq⟩ := hr octets a rest hrun
  exact ⟨xs, hxs, hQ a xs hq⟩

/-- Sequencing: the octets come one behind the other. -/
theorem Yields.bind {P : α → List Octet → Prop} {Q : β → List Octet → Prop} (hr : Yields r P)
    (hf : ∀ a xs, P a xs → Yields (f a) fun b ys => Q b (xs ++ ys)) : Yields (r >>= f) Q := by
  intro octets b rest hrun
  rw [StateT.run_bind] at hrun
  obtain ⟨⟨a, mid⟩, ha, hb⟩ := Option.bind_eq_some_iff.mp hrun
  obtain ⟨xs, hxs, hP⟩ := hr octets a mid ha
  obtain ⟨ys, hys, hQ⟩ := hf a xs hP mid b rest hb
  exact ⟨xs ++ ys, by rw [hxs, hys, List.append_assoc], hQ⟩

/-- Where all octets but the given rest are taken, the postcondition is about all of them. -/
theorem Yields.of_run {Q : α → List Octet → Prop} (hr : Yields r Q) {octets rest : List Octet}
    (h : r.run (octets ++ rest) = some (a, rest)) :
    Q a octets := by
  obtain ⟨xs, hxs, hQ⟩ := hr _ a rest h
  rw [append_cancel_right hxs]
  exact hQ

/-- Octets that are taken are taken only once. -/
theorem Reads.unique {xs rest rest' : List Octet} {a b : α} (hr : Reads r xs a)
    (hrun : r.run (xs ++ rest) = some (b, rest')) : b = a ∧ rest' = rest := by
  rw [hr rest] at hrun
  cases hrun
  exact ⟨rfl, rfl⟩

/-- Read without going on. -/
def peek (r : Reader α) : Reader α := fun octets => (r.run octets).map fun p => (p.1, octets)

theorem yields_peek (r : Reader α) : Yields (peek r) fun _ xs => xs = [] := by
  intro octets a rest hrun
  obtain ⟨p, -, hp⟩ := Option.map_eq_some_iff.mp hrun
  cases hp
  exact ⟨[], rfl, rfl⟩

/-! ## Octets and words -/

/-- One octet. -/
def octet : Reader Octet
  | [] => none
  | a :: rest => some (a, rest)

theorem reads_octet (a : Octet) : Reads octet [a] a := fun _ => rfl

theorem yields_octet : Yields octet fun a xs => xs = [a] := by
  intro octets a rest hrun
  cases octets with
  | nil => cases hrun
  | cons b octets =>
    cases hrun
    exact ⟨[a], rfl, rfl⟩

/-- The lowest `k` octets of a word, the low one first. -/
def lowFirst {n : ℕ} (w : BitVec n) : ℕ → List Octet
  | 0 => []
  | k + 1 => w.setWidth 8 :: lowFirst (w >>> 8) k

theorem length_lowFirst {n : ℕ} (w : BitVec n) (k : ℕ) : (lowFirst w k).length = k := by
  induction k generalizing w with
  | zero => rfl
  | succ k ih => exact congrArg (· + 1) (ih (w >>> 8))

theorem length_flatMap_lowFirst {n : ℕ} (ws : List (BitVec n)) (k : ℕ) :
    (ws.flatMap fun w => lowFirst w k).length = ws.length * k := by
  induction ws with
  | nil => exact (Nat.zero_mul k).symm
  | cons w ws ih =>
    rw [flatMap_cons, length_append, length_lowFirst, ih, length_cons, Nat.succ_mul,
      Nat.add_comm]

/-- A word of `k` octets, the low one first. -/
def word (n : ℕ) : ℕ → Reader (BitVec n)
  | 0 => pure 0
  | k + 1 => do
    let a ← octet
    let w ← word n k
    return a.setWidth n ||| w <<< 8

/-- Reading gives the bits that were written. -/
theorem reads_word_and {n : ℕ} (w : BitVec n) (k : ℕ) :
    Reads (word n k) (lowFirst w k) ((w.setWidth (8 * k)).setWidth n) := by
  induction k generalizing w with
  | zero =>
    intro rest
    have hzero : (w.setWidth (8 * 0)).setWidth n = 0 := by
      apply eq_of_getLsbD_eq
      intro i hi
      rw [getLsbD_setWidth, getLsbD_setWidth]
      simp
    rw [hzero]
    rfl
  | succ k ih =>
    have hbits : (w.setWidth (8 * (k + 1))).setWidth n =
        (w.setWidth 8).setWidth n ||| (((w >>> 8).setWidth (8 * k)).setWidth n) <<< 8 := by
      apply eq_of_getLsbD_eq
      intro i hi
      simp only [getLsbD_setWidth, getLsbD_or, getLsbD_shiftLeft,
        getLsbD_ushiftRight]
      by_cases hlow : i < 8
      · simp only [hi, hlow, decide_true, Bool.true_and, Bool.not_true, Bool.false_and,
          Bool.or_false, decide_eq_true (show i < 8 * (k + 1) by omega)]
      · have hadd : 8 + (i - 8) = i := by omega
        have hiff : decide (i < 8 * (k + 1)) = decide (i - 8 < 8 * k) :=
          decide_eq_decide.mpr (by omega)
        simp only [hi, hlow, decide_true, decide_false, Bool.true_and, Bool.not_false,
          Bool.false_and, Bool.false_or, hadd, hiff, decide_eq_true (show i - 8 < n by omega)]
    rw [hbits]
    exact (reads_octet (w.setWidth 8)).bind ((ih (w >>> 8)).bind_pure rfl)

theorem reads_word {n k : ℕ} (w : BitVec n) (hn : n = 8 * k) :
    Reads (word n k) (lowFirst w k) w := by
  have h := reads_word_and w k
  have hsame : (w.setWidth (8 * k)).setWidth n = w := by
    rw [← hn, setWidth_eq, setWidth_eq]
  rw [hsame] at h
  exact h

/-- What is read is the word with these octets. -/
theorem yields_word_of_le {n k : ℕ} (hn : 8 * k ≤ n) :
    Yields (word n k) fun w xs => xs = lowFirst w k ∧ ∀ i, 8 * k ≤ i → w.getLsbD i = false := by
  induction k with
  | zero => exact yields_pure ⟨rfl, fun i _ => getLsbD_zero⟩
  | succ k ih =>
    refine yields_octet.bind fun a xs hxs =>
      (ih (by omega)).bind fun w ys h => yields_pure ?_
    obtain ⟨hys, hhigh⟩ := h
    have hlow : (a.setWidth n ||| w <<< 8).setWidth 8 = a := by
      apply eq_of_getLsbD_eq
      intro i hi
      simp only [getLsbD_setWidth, getLsbD_or, getLsbD_shiftLeft, hi,
        decide_true, Bool.true_and, Bool.not_true, Bool.and_false, Bool.false_and, Bool.or_false,
        decide_eq_true (show i < n by omega)]
    have hrest : (a.setWidth n ||| w <<< 8) >>> 8 = w := by
      apply eq_of_getLsbD_eq
      intro i hi
      have hbit : a.getLsbD (8 + i) = false := getLsbD_of_ge a (8 + i) (by omega)
      simp only [getLsbD_ushiftRight, getLsbD_setWidth, getLsbD_or,
        getLsbD_shiftLeft, hbit, Bool.and_false, Bool.false_or,
        decide_eq_false (show ¬ 8 + i < 8 by omega), Bool.not_false, Nat.add_sub_cancel_left]
      by_cases hin : 8 + i < n
      · rw [decide_eq_true hin, Bool.true_and, Bool.true_and]
      · rw [decide_eq_false hin, Bool.false_and, Bool.false_and, hhigh i (by omega)]
    refine ⟨?_, fun i hi => ?_⟩
    · unfold lowFirst
      rw [hlow, hrest, ← hys, hxs, append_nil]
      rfl
    · have hbit : a.getLsbD i = false := getLsbD_of_ge a i (by omega)
      simp only [getLsbD_setWidth, getLsbD_or, getLsbD_shiftLeft, hbit,
        Bool.and_false, Bool.false_or, hhigh (i - 8) (by omega)]

theorem yields_word {n k : ℕ} (hn : n = 8 * k) :
    Yields (word n k) fun w xs => xs = lowFirst w k :=
  (yields_word_of_le (by omega)).mono fun _ _ h => h.1

/-- A word of two octets, the high one first. -/
def netWord16 : Reader (BitVec 16) := do
  let a ← octet
  let b ← octet
  return Octet.word16 a b

theorem reads_netWord16 (w : BitVec 16) : Reads netWord16 (Octet.octets16 w) w := by
  refine (reads_octet _).bind ((reads_octet _).bind_pure ?_)
  rw [Octet.word16_octets16]

/-- A word of four octets, the high one first. -/
def netWord32 : Reader (BitVec 32) := do
  let a ← octet
  let b ← octet
  let c ← octet
  let d ← octet
  return Octet.word32 a b c d

theorem reads_netWord32 (w : BitVec 32) : Reads netWord32 (Octet.octets32 w) w := by
  refine (reads_octet _).bind ((reads_octet _).bind ((reads_octet _).bind
    ((reads_octet _).bind_pure ?_)))
  rw [Octet.word32_octets32]

/-! ## Lists -/

/-- A number of values, one behind the other. -/
def many (r : Reader α) : ℕ → Reader (List α)
  | 0 => pure []
  | k + 1 => do
    let a ← r
    let as ← many r k
    return a :: as

/-- Reading gives what each of the written values becomes. -/
theorem reads_many_map {e : β → List Octet} {f : β → α} (hr : ∀ b, Reads r (e b) (f b))
    (bs : List β) :
    Reads (many r bs.length) (bs.flatMap e) (bs.map f) := by
  induction bs with
  | nil => exact reads_pure []
  | cons b bs ih =>
    exact (hr b).bind (ih.bind_pure rfl)

theorem reads_many {e : α → List Octet} (hr : ∀ a, Reads r (e a) a) (as : List α) :
    Reads (many r as.length) (as.flatMap e) as := by
  have h := reads_many_map (f := id) hr as
  rw [map_id] at h
  exact h

theorem yields_many {e : α → List Octet} (hr : Yields r fun a xs => xs = e a) (k : ℕ) :
    Yields (many r k) fun as xs => as.length = k ∧ xs = as.flatMap e := by
  induction k with
  | zero => exact yields_pure ⟨rfl, rfl⟩
  | succ k ih =>
    refine hr.bind fun a xs hxs => ih.bind fun as ys h => yields_pure ?_
    obtain ⟨hlen, hys⟩ := h
    refine ⟨congrArg (· + 1) hlen, ?_⟩
    rw [hxs, hys, append_nil, flatMap_cons]

end Reader
