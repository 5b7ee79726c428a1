/-
# The order and the difference of sequence numbers

`SequenceNumber` counts modulo `2 ^ w`.  Its comparisons and its difference decide by conditions of
their own which way around is the shorter one.  They cannot agree on two numbers that are exactly
half the sequence space apart: a signed number of `w` bits has no positive value for that distance.
In one of the two orders the difference is the negation of the least signed number, which only the
types narrower than `int` define.
-/
import Ns3Dsme.Network.SequenceNumber
import Mathlib.Algebra.Ring.Int.Defs
import Mathlib.Order.Lattice

open BitVec

namespace Ns3Dsme.Network

/-- `SequenceNumber`, for unsigned numbers of `w` bits. -/
abbrev SequenceNumber (w : ℕ) := BitVec w

namespace SequenceNumber

/-- `std::numeric_limits<NUMERIC_TYPE>::max()`. -/
def maxValue (w : ℕ) : ℕ := 2 ^ w - 1

/-- `std::numeric_limits<NUMERIC_TYPE>::max() / 2`. -/
def halfMaxValue (w : ℕ) : ℕ := maxValue w / 2

variable {w : ℕ}

/-- `operator >`. -/
def gt (a b : SequenceNumber w) : Bool :=
  decide (b.toNat < a.toNat ∧ a.toNat - b.toNat ≤ halfMaxValue w ∨
    a.toNat < b.toNat ∧ halfMaxValue w < b.toNat - a.toNat)

/-- `operator <=`. -/
def le (a b : SequenceNumber w) : Bool := !gt a b

/-- `operator >=`. -/
def ge (a b : SequenceNumber w) : Bool := gt a b || a == b

/-- `operator <`. -/
def lt (a b : SequenceNumber w) : Bool := !gt a b && a != b

/-- What `SIGNED_TYPE` keeps of a number. -/
def signed (w : ℕ) (x : ℤ) : ℤ := x.bmod (2 ^ w)

/-- Unary `-` on a `SIGNED_TYPE`.  A type narrower than `int` is promoted to it and cut back; in
any other type the negation of the least value overflows, which is undefined. -/
def negate (w : ℕ) (x : ℤ) : Option ℤ :=
  if 32 ≤ w ∧ x = -2 ^ (w - 1) then none else some (signed w (-x))

/-- `operator -` of two sequence numbers, where it is defined. -/
def sub (a b : SequenceNumber w) : Option ℤ :=
  if b.toNat < a.toNat then
    let diff := a.toNat - b.toNat
    if diff < halfMaxValue w then some (signed w diff)
    else negate w (signed w ((maxValue w - a.toNat + 1 + b.toNat : ℕ) : ℤ))
  else
    let diff := b.toNat - a.toNat
    if diff < halfMaxValue w then negate w (signed w diff)
    else some (signed w ((maxValue w - b.toNat + 1 + a.toNat : ℕ) : ℤ))

/-- `operator +`, for a signed number. -/
def add (a : SequenceNumber w) (delta : ℤ) : SequenceNumber w := a + BitVec.ofInt w delta

/-! ## What is promised -/

/-- Exactly one of three propositions holds. -/
def ExactlyOne (p q r : Prop) : Prop := p ∧ ¬q ∧ ¬r ∨ ¬p ∧ q ∧ ¬r ∨ ¬p ∧ ¬q ∧ r

/-- The numbers of a window from a first one on. -/
def InWindow (first : SequenceNumber w) (length : ℕ) (a : SequenceNumber w) : Prop :=
  (a - first).toNat < length

/-- The numbers of a window are in a transitive order, which an offset does not change. -/
structure OrderedWindow (first : SequenceNumber w) (length : ℕ) : Prop where
  trans : ∀ a b c, InWindow first length a → InWindow first length b → InWindow first length c →
    lt a b = true → lt b c = true → lt a c = true
  shift : ∀ a b delta, InWindow first length a → InWindow first length b →
    lt (add a delta) (add b delta) = lt a b ∧ gt (add a delta) (add b delta) = gt a b ∧
      (add a delta == add b delta) = (a == b)

/-- **The order and the difference agree**, but for numbers that are as far apart as can be: of
these, the smaller one counts as the greater one although the difference is negative, and the
difference in the other order is undefined unless `int` is wider. -/
structure Coherent (w : ℕ) : Prop where
  trichotomy : ∀ a b : SequenceNumber w,
    ExactlyOne (lt a b = true) ((a == b) = true) (gt a b = true)
  lt_iff_gt : ∀ a b : SequenceNumber w, lt a b = true ↔ gt b a = true
  undefined : ∀ a b : SequenceNumber w,
    sub a b = none ↔ 32 ≤ w ∧ a.toNat = b.toNat + 2 ^ (w - 1)
  gt_iff_pos : ∀ (a b : SequenceNumber w) (d : ℤ), sub a b = some d →
    ((gt a b = true ↔ 0 < d) ↔ a.toNat + 2 ^ (w - 1) ≠ b.toNat)
  lt_iff_neg : ∀ (a b : SequenceNumber w) (d : ℤ), sub a b = some d →
    ((lt a b = true ↔ d < 0) ↔ a.toNat + 2 ^ (w - 1) ≠ b.toNat)
  add_sub : ∀ (a b : SequenceNumber w) (d : ℤ), sub a b = some d → add b d = a
  window : ∀ (first : SequenceNumber w) (length : ℕ), length ≤ 2 ^ (w - 1) →
    OrderedWindow first length

/-! ## Distances -/

theorem two_pow_eq (hw : 2 ≤ w) : 2 ^ w = 2 * 2 ^ (w - 1) := by
  rw [← Nat.pow_succ']
  congr 1
  omega

theorem two_le_half (hw : 2 ≤ w) : 2 ≤ 2 ^ (w - 1) := by
  have hpow : 2 ^ 1 ≤ 2 ^ (w - 1) := Nat.pow_le_pow_right (by decide) (by omega)
  exact hpow

theorem halfMaxValue_eq (hw : 2 ≤ w) : halfMaxValue w = 2 ^ (w - 1) - 1 := by
  unfold halfMaxValue maxValue
  have hpow := two_pow_eq hw
  omega

variable {a b c first : SequenceNumber w}

theorem toNat_sub_of_le (h : b.toNat ≤ a.toNat) : (a - b).toNat = a.toNat - b.toNat :=
  BitVec.toNat_sub_of_le (BitVec.le_def.mpr h)

theorem toNat_sub_of_lt (h : a.toNat < b.toNat) :
    (a - b).toNat = 2 ^ w - (b.toNat - a.toNat) := by
  have hb := b.isLt
  rw [toNat_sub, Nat.mod_eq_of_lt (by omega)]
  omega

/-- The way around is the negative distance. -/
theorem signed_way {x : ℕ} (h : x ≤ 2 ^ w) : signed w ((2 ^ w - x : ℕ) : ℤ) = signed w (-x) := by
  unfold signed
  rw [Int.ofNat_sub h, Int.sub_bmod_left]

theorem signed_neg_signed (x : ℤ) : signed w (-signed w x) = signed w (-x) := Int.bmod_neg_bmod

theorem cast_half (w : ℕ) : ((2 ^ (w - 1) : ℕ) : ℤ) = 2 ^ (w - 1) := by
  push_cast
  rfl

/-- Only half the sequence space is the least value. -/
theorem signed_neg_eq_least_iff (hw : 2 ≤ w) {x : ℕ} (hx : x < 2 ^ w) :
    signed w (-x) = -2 ^ (w - 1) ↔ x = 2 ^ (w - 1) := by
  have hpow := two_pow_eq hw
  rw [← signed_way (Nat.le_of_lt hx), ← cast_half]
  unfold signed
  rw [Int.bmod_def]
  rcases Nat.eq_zero_or_pos x with rfl | hpos
  · rw [Nat.sub_zero, Int.emod_self]
    omega
  · rw [Int.emod_eq_of_lt (Int.natCast_nonneg _) (by omega)]
    omega

/-- The negation of a way around. -/
theorem negate_signed_neg (hw : 2 ≤ w) {x : ℕ} (hx : x < 2 ^ w) :
    negate w (signed w (-x)) =
      if 32 ≤ w ∧ x = 2 ^ (w - 1) then none else some (signed w x) := by
  unfold negate
  simp only [signed_neg_eq_least_iff hw hx, signed_neg_signed, Int.neg_neg]

/-- The negation of a distance that is less than half the sequence space. -/
theorem negate_signed (hw : 2 ≤ w) {x : ℕ} (hx : x < 2 ^ (w - 1)) :
    negate w (signed w x) = some (signed w (-x)) := by
  have hpow := two_pow_eq hw
  have hcast := cast_half w
  unfold negate
  rw [signed_neg_signed, if_neg]
  unfold signed
  rw [Int.bmod_def, Int.emod_eq_of_lt (Int.natCast_nonneg _) (by omega)]
  omega

/-- **The difference is the distance as a signed number**: the conditions of `operator -` choose
between ways to compute the same. -/
theorem sub_eq_toInt (hw : 2 ≤ w) (a b : SequenceNumber w) :
    sub a b = if 32 ≤ w ∧ a.toNat = b.toNat + 2 ^ (w - 1) then none else some (a - b).toInt := by
  have ha := a.isLt
  have hb := b.isLt
  have hpow := two_pow_eq hw
  have hhalf := two_le_half hw
  rw [toInt_eq_toNat_bmod]
  show sub a b = if _ then none else some (signed w ((a - b).toNat : ℤ))
  unfold sub
  rw [halfMaxValue_eq hw]
  by_cases hlt : b.toNat < a.toNat
  · rw [if_pos hlt, toNat_sub_of_le (Nat.le_of_lt hlt)]
    dsimp only
    split
    · rw [if_neg (by omega)]
    · have hway : maxValue w - a.toNat + 1 + b.toNat = 2 ^ w - (a.toNat - b.toNat) := by
        unfold maxValue
        omega
      rw [hway, signed_way (by omega), negate_signed_neg hw (by omega)]
      congr 1
      rw [eq_iff_iff]
      omega
  · have hdefined : ¬(32 ≤ w ∧ a.toNat = b.toNat + 2 ^ (w - 1)) := by omega
    rw [if_neg hlt, if_neg hdefined]
    dsimp only
    have hway : maxValue w - b.toNat + 1 + a.toNat = 2 ^ w - (b.toNat - a.toNat) := by
      unfold maxValue
      omega
    have hdistance : signed w (-(b.toNat - a.toNat : ℕ)) = signed w ((a - b).toNat : ℤ) := by
      rcases Nat.lt_or_eq_of_le (Nat.le_of_not_lt hlt) with hlt' | heq
      · rw [toNat_sub_of_lt hlt', signed_way (by omega)]
      · rw [toNat_sub_of_le (Nat.le_of_eq heq.symm), heq, Nat.sub_self]
        rfl
    split
    · rw [negate_signed hw (by omega), hdistance]
    · rw [hway, signed_way (by omega), hdistance]

/-- Where the difference is defined, it is the distance. -/
theorem eq_toInt_of_sub (hw : 2 ≤ w) {d : ℤ} (h : sub a b = some d) : d = (a - b).toInt := by
  rw [sub_eq_toInt hw] at h
  split at h
  · cases h
  · exact (Option.some.inj h).symm

theorem sub_eq_none_iff (hw : 2 ≤ w) (a b : SequenceNumber w) :
    sub a b = none ↔ 32 ≤ w ∧ a.toNat = b.toNat + 2 ^ (w - 1) := by
  rw [sub_eq_toInt hw]
  split
  · rename_i h
    exact ⟨fun _ => h, fun _ => rfl⟩
  · rename_i h
    exact ⟨nofun, fun h' => absurd h' h⟩

/-- The sign of a distance. -/
theorem toInt_pos_iff (hw : 2 ≤ w) : 0 < (a - b).toInt ↔
    0 < (a - b).toNat ∧ (a - b).toNat < 2 ^ (w - 1) := by
  have hpow := two_pow_eq hw
  have hlt := (a - b).isLt
  rw [toInt_eq_toNat_cond]
  split
  · omega
  · omega

theorem toInt_neg_iff (hw : 2 ≤ w) : (a - b).toInt < 0 ↔ 2 ^ (w - 1) ≤ (a - b).toNat := by
  have hpow := two_pow_eq hw
  have hlt := (a - b).isLt
  rw [toInt_eq_toNat_cond]
  split
  · omega
  · omega

theorem gt_iff (hw : 2 ≤ w) : gt a b = true ↔
    b.toNat < a.toNat ∧ a.toNat < b.toNat + 2 ^ (w - 1) ∨
      a.toNat + 2 ^ (w - 1) ≤ b.toNat := by
  have hhalf := two_le_half hw
  unfold gt
  rw [decide_eq_true_iff, halfMaxValue_eq hw]
  omega

theorem lt_iff : lt a b = true ↔ ¬gt a b = true ∧ a ≠ b := by
  unfold lt
  rw [Bool.and_eq_true, Bool.not_eq_true', Bool.not_eq_true, bne_iff_ne]

theorem ne_iff : a ≠ b ↔ a.toNat ≠ b.toNat := not_congr toNat_inj.symm

theorem lt_iff_gt (hw : 2 ≤ w) (a b : SequenceNumber w) : lt a b = true ↔ gt b a = true := by
  have hhalf := two_le_half hw
  rw [lt_iff, gt_iff hw, gt_iff hw, ne_iff]
  omega

theorem exactlyOne (hw : 2 ≤ w) (a b : SequenceNumber w) :
    ExactlyOne (lt a b = true) ((a == b) = true) (gt a b = true) := by
  have hhalf := two_le_half hw
  unfold ExactlyOne
  rw [lt_iff_gt hw, gt_iff hw, gt_iff hw, beq_iff_eq, ← toNat_inj]
  omega

theorem gt_iff_pos (hw : 2 ≤ w) (a b : SequenceNumber w) (d : ℤ) (hd : sub a b = some d) :
    (gt a b = true ↔ 0 < d) ↔ a.toNat + 2 ^ (w - 1) ≠ b.toNat := by
  have hpow := two_pow_eq hw
  have hhalf := two_le_half hw
  have hb := b.isLt
  rw [eq_toInt_of_sub hw hd, toInt_pos_iff hw, gt_iff hw]
  rcases Nat.lt_or_ge a.toNat b.toNat with hlt | hle
  · rw [toNat_sub_of_lt hlt]
    omega
  · rw [toNat_sub_of_le hle]
    omega

theorem lt_iff_neg (hw : 2 ≤ w) (a b : SequenceNumber w) (d : ℤ) (hd : sub a b = some d) :
    (lt a b = true ↔ d < 0) ↔ a.toNat + 2 ^ (w - 1) ≠ b.toNat := by
  have hpow := two_pow_eq hw
  have hhalf := two_le_half hw
  have ha := a.isLt
  have hb := b.isLt
  rw [eq_toInt_of_sub hw hd, toInt_neg_iff hw, lt_iff_gt hw, gt_iff hw]
  rcases Nat.lt_or_ge a.toNat b.toNat with hlt | hle
  · rw [toNat_sub_of_lt hlt]
    omega
  · rw [toNat_sub_of_le hle]
    omega

theorem add_sub (hw : 2 ≤ w) (a b : SequenceNumber w) (d : ℤ) (hd : sub a b = some d) :
    add b d = a := by
  unfold add
  rw [eq_toInt_of_sub hw hd, BitVec.ofInt_toInt, BitVec.add_comm, BitVec.sub_add_cancel]

/-! ## Windows -/

/-- In a window the places tell the order. -/
theorem gt_iff_of_window (hw : 2 ≤ w) {length : ℕ} (hlength : length ≤ 2 ^ (w - 1))
    (ha : InWindow first length a) (hb : InWindow first length b) :
    gt a b = true ↔ (b - first).toNat < (a - first).toNat := by
  have hpow := two_pow_eq hw
  unfold InWindow at ha hb
  rw [gt_iff hw]
  rcases Nat.lt_or_ge a.toNat first.toNat with hfa | hfa
  · rw [toNat_sub_of_lt hfa] at ha ⊢
    rcases Nat.lt_or_ge b.toNat first.toNat with hfb | hfb
    · rw [toNat_sub_of_lt hfb] at hb ⊢
      omega
    · rw [toNat_sub_of_le hfb] at hb ⊢
      omega
  · rw [toNat_sub_of_le hfa] at ha ⊢
    rcases Nat.lt_or_ge b.toNat first.toNat with hfb | hfb
    · rw [toNat_sub_of_lt hfb] at hb ⊢
      omega
    · rw [toNat_sub_of_le hfb] at hb ⊢
      omega

/-- An offset moves the window. -/
theorem add_sub_add (a first : SequenceNumber w) (delta : ℤ) :
    add a delta - add first delta = a - first := by
  unfold add
  grind

theorem InWindow.add {length : ℕ} (h : InWindow first length a) (delta : ℤ) :
    InWindow (add first delta) length (SequenceNumber.add a delta) := by
  unfold InWindow
  rw [add_sub_add]
  exact h

theorem orderedWindow (hw : 2 ≤ w) (first : SequenceNumber w) (length : ℕ)
    (hlength : length ≤ 2 ^ (w - 1)) : OrderedWindow first length where
  trans := by
    intro a b c ha hb hc hab hbc
    rw [lt_iff_gt hw, gt_iff_of_window hw hlength hb ha] at hab
    rw [lt_iff_gt hw, gt_iff_of_window hw hlength hc hb] at hbc
    rw [lt_iff_gt hw, gt_iff_of_window hw hlength hc ha]
    exact hab.trans hbc
  shift := by
    intro a b delta ha hb
    have hgt : ∀ {x y : SequenceNumber w}, InWindow first length x → InWindow first length y →
        gt (add x delta) (add y delta) = gt x y := by
      intro x y hx hy
      rw [Bool.eq_iff_iff, gt_iff_of_window hw hlength (hx.add delta) (hy.add delta),
        gt_iff_of_window hw hlength hx hy, add_sub_add, add_sub_add]
    refine ⟨?_, hgt ha hb, ?_⟩
    · rw [Bool.eq_iff_iff, lt_iff_gt hw, lt_iff_gt hw, hgt hb ha]
    · rw [Bool.eq_iff_iff, beq_iff_eq, beq_iff_eq]
      exact BitVec.add_left_inj _

/-- **The order and the difference of sequence numbers agree** but at half the sequence space. -/
theorem coherent (w : ℕ) (hw : 2 ≤ w) : Coherent w where
  trichotomy := exactlyOne hw
  lt_iff_gt := lt_iff_gt hw
  undefined := sub_eq_none_iff hw
  gt_iff_pos := gt_iff_pos hw
  lt_iff_neg := lt_iff_neg hw
  add_sub := add_sub hw
  window := orderedWindow hw

theorem coherent_sample : 2 ≤ 32 ∧ Coherent 32 := ⟨by decide, coherent 32 (by decide)⟩

/-- At half the sequence space the greater number is the one with a negative difference. -/
theorem not_gt_iff_pos :
    ¬∀ (a b : SequenceNumber 32) (d : ℤ), sub a b = some d → (gt a b = true ↔ 0 < d) := by
  intro h
  have hpos := (h 0 0x80000000 (-0x80000000) (by decide)).mp (by decide)
  exact absurd hpos (by decide)

end SequenceNumber

/-! ## The numbers of 32 bits -/

namespace SequenceNumber32

/-- The comparison of the numbers of 32 bits is an instance. -/
theorem gt_eq (a b : SequenceNumber32) : gt a b = SequenceNumber.gt (w := 32) a b := rfl

/-- And their difference, where it is defined, is the other one, cast to `uint32_t`. -/
theorem minus_eq (a b : SequenceNumber32) {d : ℤ} (hd : SequenceNumber.sub (w := 32) a b = some d) :
    minus a b = (BitVec.ofInt 32 d).toNat := by
  unfold minus
  rw [SequenceNumber.eq_toInt_of_sub (by decide) hd, ofInt_toInt]

end SequenceNumber32

end Ns3Dsme.Network
