/-
# Sequence numbers of ten bits

The counters of the RLC acknowledged mode wrap around at 1024.  They compare by their distance
from a modulus base that both sides must share.
-/
import Ns3Dsme.Lib.Program
import Mathlib.Algebra.Group.Fin.Basic
import Mathlib.Data.Int.ModEq

open Program

namespace Ns3Dsme.Lte

/-- What stops the transmitter: a failed assertion, or a value read where there is none. -/
inductive Fault
  /-- The transmit opportunity is too small. -/
  | stingyMac
  /-- The data field of a new PDU holds no segment. -/
  | noSegment
  /-- The header of a new PDU is written across the end of the packet. -/
  | overrun
  /-- Two numbers with different modulus bases are compared. -/
  | unequalBases
  /-- A PDU is to be sent again, but `VT(A) < VT(S)` fails. -/
  | emptyWindow
  /-- The retransmission buffer has a size, but no PDU. -/
  | noPduForRetx
  /-- A number is NACKed whose PDU is not in the retransmission buffer. -/
  | retxPduMissing
  /-- An acknowledged PDU is in both buffers. -/
  | retxPduPresent
  /-- A new PDU has a number outside of the window. -/
  | outsideWindow
  /-- A loop does not end. -/
  | endless
  deriving DecidableEq, Repr

/-- What ten bits keep of a number. -/
def tenBits (n : ℕ) : Fin 1024 := ⟨n % 1024, Nat.mod_lt n (by decide)⟩

/-- A sequence number, and the base from which it is compared. -/
structure SequenceNumber10 where
  value : Fin 1024 := tenBits 0
  modulusBase : Fin 1024 := tenBits 0
  deriving DecidableEq, Repr

namespace SequenceNumber10

def setModulusBase (s base : SequenceNumber10) : SequenceNumber10 :=
  { s with modulusBase := base.value }

/-- `operator++`. -/
def next (s : SequenceNumber10) : SequenceNumber10 :=
  { s with value := tenBits (s.value + 1) }

/-- `operator+`. -/
def add (s : SequenceNumber10) (delta : ℕ) : SequenceNumber10 :=
  { s with value := tenBits (s.value + delta) }

/-- `operator-` with a number: a negative remainder wraps around as `uint16_t`. -/
def sub (s : SequenceNumber10) (delta : ℕ) : SequenceNumber10 :=
  { s with value := tenBits (((s.value : ℤ) - delta).tmod 1024 % 65536).toNat }

/-- `(m_value - m_modulusBase) % 1024`, kept as `uint16_t`. -/
def offset (s : SequenceNumber10) : ℕ :=
  (((s.value : ℤ) - s.modulusBase).tmod 1024 % 65536).toNat

/-- `operator>`. -/
def gt (s other : SequenceNumber10) : Except Fault Bool :=
  if s.modulusBase = other.modulusBase then .ok (decide (other.offset < s.offset))
  else .error .unequalBases

/-- `operator<=`. -/
def le (s other : SequenceNumber10) : Except Fault Bool := (s.gt other).map not

/-- `operator>=`. -/
def ge (s other : SequenceNumber10) : Except Fault Bool :=
  (s.gt other).map fun above => above || s.value == other.value

/-- `operator<`. -/
def lt (s other : SequenceNumber10) : Except Fault Bool :=
  (s.gt other).map fun above => !above && s.value != other.value

variable {s other : SequenceNumber10}

theorem setModulusBase_of_eq {base : SequenceNumber10} (h : s.modulusBase = base.value) :
    s.setModulusBase base = s := by
  unfold setModulusBase
  rw [← h]

/-- How far a number is from `base` on. -/
def ahead (base v : Fin 1024) : ℕ := (v - base).val

theorem ahead_lt (base v : Fin 1024) : ahead base v < 1024 := (v - base).isLt

theorem ahead_self (base : Fin 1024) : ahead base base = 0 := by
  unfold ahead
  rw [sub_self]
  rfl

theorem ahead_inj (base : Fin 1024) {v w : Fin 1024} (h : ahead base v = ahead base w) : v = w :=
  sub_left_injective (Fin.ext h)

theorem ahead_eq (base v : Fin 1024) : ahead base v = (1024 - base.val + v.val) % 1024 := rfl

/-- The next number is one further, unless it comes around to the base. -/
theorem ahead_next {base v : Fin 1024} (h : ahead base v < 1023) :
    ahead base (tenBits (v.val + 1)) = ahead base v + 1 := by
  rw [ahead_eq] at h ⊢
  rw [ahead_eq]
  have hval : (tenBits (v.val + 1)).val = (v.val + 1) % 1024 := rfl
  rw [hval]
  omega

/-- From the next base, every other number is one nearer. -/
theorem ahead_of_next_base {base v : Fin 1024} (h : 0 < ahead base v) :
    ahead (tenBits (base.val + 1)) v + 1 = ahead base v := by
  rw [ahead_eq] at h ⊢
  rw [ahead_eq]
  have hval : (tenBits (base.val + 1)).val = (base.val + 1) % 1024 := rfl
  rw [hval]
  omega

/-- The next base is as far from the one before it as a number can be. -/
theorem ahead_next_base_self (base : Fin 1024) :
    ahead (tenBits (base.val + 1)) base = 1023 := by
  rw [ahead_eq]
  have hval : (tenBits (base.val + 1)).val = (base.val + 1) % 1024 := rfl
  rw [hval]
  omega

theorem ahead_add (base : Fin 1024) {delta : ℕ} (h : delta < 1024) :
    ahead base (tenBits (base.val + delta)) = delta := by
  rw [ahead_eq]
  have hval : (tenBits (base.val + delta)).val = (base.val + delta) % 1024 := rfl
  rw [hval]
  omega

theorem offset_of_le (h : s.modulusBase.val ≤ s.value.val) :
    s.offset = s.value.val - s.modulusBase.val := by
  have hlt := s.value.isLt
  have hdiff : (s.value : ℤ) - s.modulusBase = ((s.value.val - s.modulusBase.val : ℕ) : ℤ) := by
    omega
  unfold offset
  rw [hdiff, Int.tmod_eq_of_lt (by omega) (by omega)]
  omega

theorem offset_of_lt (h : s.value.val < s.modulusBase.val) :
    s.offset = 65536 - (s.modulusBase.val - s.value.val) := by
  have hlt := s.modulusBase.isLt
  have hdiff : (s.value : ℤ) - s.modulusBase = -((s.modulusBase.val - s.value.val : ℕ) : ℤ) := by
    omega
  unfold offset
  rw [hdiff, Int.neg_tmod, Int.tmod_eq_of_lt (by omega) (by omega)]
  omega

variable (h : s.modulusBase = other.modulusBase)
include h

/-- The two remainders order the numbers in the same way. -/
theorem offset_lt_iff :
    s.offset < other.offset ↔ ahead s.modulusBase s.value < ahead s.modulusBase other.value := by
  rw [ahead_eq, ahead_eq]
  have hs := s.value.isLt
  have ho := other.value.isLt
  have hb := s.modulusBase.isLt
  rcases Nat.lt_or_ge s.value.val s.modulusBase.val with hlow | hhigh <;>
    rcases Nat.lt_or_ge other.value.val s.modulusBase.val with hlow' | hhigh'
  · rw [offset_of_lt hlow, offset_of_lt (h ▸ hlow'), ← h]
    omega
  · rw [offset_of_lt hlow, offset_of_le (h ▸ hhigh'), ← h]
    omega
  · rw [offset_of_le hhigh, offset_of_lt (h ▸ hlow'), ← h]
    omega
  · rw [offset_of_le hhigh, offset_of_le (h ▸ hhigh'), ← h]
    omega

theorem gt_eq : s.gt other
      = .ok (decide (ahead s.modulusBase other.value < ahead s.modulusBase s.value)) := by
  unfold gt
  rw [if_pos h, decide_eq_decide.mpr (offset_lt_iff h.symm), h]

theorem le_eq : s.le other
      = .ok (decide (ahead s.modulusBase s.value ≤ ahead s.modulusBase other.value)) := by
  unfold le
  rw [gt_eq h]
  refine congrArg Except.ok ?_
  rw [← decide_not, decide_eq_decide]
  exact not_lt

omit h in
theorem value_eq_iff (base : Fin 1024) :
    s.value = other.value ↔ ahead base s.value = ahead base other.value :=
  ⟨fun heq => heq ▸ rfl, ahead_inj _⟩

theorem lt_eq : s.lt other
      = .ok (decide (ahead s.modulusBase s.value < ahead s.modulusBase other.value)) := by
  unfold lt
  rw [gt_eq h]
  refine congrArg Except.ok ?_
  rw [Bool.eq_iff_iff]
  simp only [Bool.and_eq_true, Bool.not_eq_true', decide_eq_false_iff_not, bne_iff_ne, ne_eq,
    decide_eq_true_eq, value_eq_iff s.modulusBase]
  omega

theorem ge_eq : s.ge other
      = .ok (decide (ahead s.modulusBase other.value ≤ ahead s.modulusBase s.value)) := by
  unfold ge
  rw [gt_eq h]
  refine congrArg Except.ok ?_
  rw [Bool.eq_iff_iff]
  simp only [Bool.or_eq_true, beq_iff_eq, decide_eq_true_eq, value_eq_iff s.modulusBase]
  omega

end SequenceNumber10

end Ns3Dsme.Lte
