/-
# Sequence numbers

`SequenceNumber32` counts modulo `2 ^ 32`, and its comparisons take the shorter way around.  Of two
positions of a stream that are less than half the sequence space apart, they tell the order.
-/
import Mathlib.Algebra.Group.Nat.Defs
import Mathlib.Algebra.Order.Group.Nat

namespace Ns3Dsme.Network

abbrev SequenceNumber32 := BitVec 32

namespace SequenceNumber32

/-- `std::numeric_limits<NUMERIC_TYPE>::max() / 2`. -/
def halfMaxValue : ℕ := (2 ^ 32 - 1) / 2

/-- `operator >`. -/
def gt (a b : SequenceNumber32) : Bool :=
  decide (b.toNat < a.toNat ∧ a.toNat - b.toNat ≤ halfMaxValue ∨
    a.toNat < b.toNat ∧ halfMaxValue < b.toNat - a.toNat)

/-- `operator <=`. -/
def le (a b : SequenceNumber32) : Bool := !gt a b

/-- `operator >=`. -/
def ge (a b : SequenceNumber32) : Bool := gt a b || a == b

/-- `operator <`. -/
def lt (a b : SequenceNumber32) : Bool := !gt a b && a != b

/-- `+`, for a number of octets. -/
def plus (a : SequenceNumber32) (n : ℕ) : SequenceNumber32 := a + BitVec.ofNat 32 n

/-- `-`, as the `uint32_t` that it is cast to. -/
def minus (a b : SequenceNumber32) : ℕ := (a - b).toNat

/-- The sequence number of a position of the stream. -/
def ofPos (isn : SequenceNumber32) (x : ℕ) : SequenceNumber32 := isn.plus x

/-- Two positions are less than half the sequence space apart. -/
def Near (x y : ℕ) : Prop := x < y + 2 ^ 31 ∧ y < x + 2 ^ 31

instance (x y : ℕ) : Decidable (Near x y) := inferInstanceAs (Decidable (_ ∧ _))

variable {isn : SequenceNumber32} {x y : ℕ}

theorem Near.symm (h : Near x y) : Near y x := ⟨h.2, h.1⟩

theorem toNat_ofPos (isn : SequenceNumber32) (x : ℕ) :
    (isn.ofPos x).toNat = (isn.toNat + x) % 2 ^ 32 := by
  show (isn + BitVec.ofNat 32 x).toNat = _
  rw [BitVec.toNat_add, BitVec.toNat_ofNat, Nat.add_mod_mod]

theorem plus_ofPos (isn : SequenceNumber32) (x n : ℕ) :
    (isn.ofPos x).plus n = isn.ofPos (x + n) := by
  show isn + BitVec.ofNat 32 x + BitVec.ofNat 32 n = isn + BitVec.ofNat 32 (x + n)
  rw [BitVec.ofNat_add, BitVec.add_assoc]

/-- **The order of near positions.** -/
theorem gt_ofPos (h : Near x y) : gt (isn.ofPos x) (isn.ofPos y) = decide (y < x) := by
  unfold gt
  rw [decide_eq_decide, toNat_ofPos, toNat_ofPos]
  have hisn := isn.isLt
  obtain ⟨hlow, hhigh⟩ := h
  unfold halfMaxValue
  omega

theorem ofPos_inj (h : Near x y) : isn.ofPos x = isn.ofPos y ↔ x = y := by
  constructor
  · intro heq
    have hnat := congrArg BitVec.toNat heq
    rw [toNat_ofPos, toNat_ofPos] at hnat
    have hisn := isn.isLt
    obtain ⟨hlow, hhigh⟩ := h
    omega
  · exact congrArg _

theorem le_ofPos (h : Near x y) : le (isn.ofPos x) (isn.ofPos y) = decide (x ≤ y) := by
  unfold le
  rw [gt_ofPos h]
  by_cases hxy : x ≤ y
  · rw [decide_eq_false (Nat.not_lt.mpr hxy), decide_eq_true hxy]
    rfl
  · rw [decide_eq_true (Nat.lt_of_not_le hxy), decide_eq_false hxy]
    rfl

theorem lt_ofPos (h : Near x y) : lt (isn.ofPos x) (isn.ofPos y) = decide (x < y) := by
  unfold lt
  rw [gt_ofPos h, Bool.eq_iff_iff, Bool.and_eq_true, Bool.not_eq_true', decide_eq_false_iff_not,
    bne_iff_ne, decide_eq_true_iff, ne_eq, ofPos_inj h]
  omega

theorem ge_ofPos (h : Near x y) : ge (isn.ofPos x) (isn.ofPos y) = decide (y ≤ x) := by
  unfold ge
  rw [gt_ofPos h, Bool.eq_iff_iff, Bool.or_eq_true, decide_eq_true_iff, beq_iff_eq,
    decide_eq_true_iff, ofPos_inj h]
  omega

theorem minus_ofPos (hle : y ≤ x) (hlt : x < y + 2 ^ 32) :
    minus (isn.ofPos x) (isn.ofPos y) = x - y := by
  unfold minus
  rw [BitVec.toNat_sub, toNat_ofPos, toNat_ofPos]
  have hisn := isn.isLt
  omega

end SequenceNumber32

end Ns3Dsme.Network
