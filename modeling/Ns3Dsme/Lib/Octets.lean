/-
# Octets

Words in network byte order and blocks of eight octets, with what reading gives back of what was
written.
-/
import Mathlib.Data.Nat.Notation
import Mathlib.Tactic.IntervalCases

/-- Two words agree in their lowest bits, bit after bit. -/
@[simp] def SameBits {n : ℕ} (x y : BitVec n) : ℕ → Prop
  | 0 => True
  | k + 1 => SameBits x y k ∧ x.getLsbD k = y.getLsbD k

theorem SameBits.getLsbD_eq {n k : ℕ} {x y : BitVec n} (h : SameBits x y k) {i : ℕ} (hi : i < k) :
    x.getLsbD i = y.getLsbD i := by
  induction k with
  | zero => exact absurd hi (Nat.not_lt_zero i)
  | succ k ih =>
    rcases Nat.lt_succ_iff_lt_or_eq.mp hi with hlt | rfl
    · exact ih h.1 hlt
    · exact h.2

theorem eq_of_sameBits {n : ℕ} {x y : BitVec n} (h : SameBits x y n) : x = y :=
  BitVec.eq_of_getLsbD_eq fun _ hi => h.getLsbD_eq hi

abbrev Octet := BitVec 8

namespace Octet

/-! ## Words -/

/-- Two octets as a word, the high one first. -/
def word16 (a b : Octet) : BitVec 16 := a.setWidth 16 <<< 8 ||| b.setWidth 16

/-- The octets of a word, the high one first. -/
def octets16 (w : BitVec 16) : List Octet := [(w >>> 8).setWidth 8, w.setWidth 8]

/-- Four octets as a word, the high one first. -/
def word32 (a b c d : Octet) : BitVec 32 :=
  a.setWidth 32 <<< 24 ||| b.setWidth 32 <<< 16 ||| c.setWidth 32 <<< 8 ||| d.setWidth 32

/-- The octets of a word, the high one first. -/
def octets32 (w : BitVec 32) : List Octet :=
  [(w >>> 24).setWidth 8, (w >>> 16).setWidth 8, (w >>> 8).setWidth 8, w.setWidth 8]

theorem octets16_word16 (a b : Octet) : octets16 (word16 a b) = [a, b] := by
  unfold octets16 word16
  congr 1
  · exact eq_of_sameBits (by simp)
  · congr 1
    exact eq_of_sameBits (by simp)

theorem word16_octets16 (w : BitVec 16) :
    word16 ((w >>> 8).setWidth 8) (w.setWidth 8) = w := by
  unfold word16
  exact eq_of_sameBits (by simp)

theorem octets16_injective {v w : BitVec 16} (h : octets16 v = octets16 w) : v = w := by
  obtain ⟨hhigh, hlow⟩ := List.cons.inj h
  rw [← word16_octets16 v, ← word16_octets16 w, hhigh, (List.cons.inj hlow).1]

theorem octets32_word32 (a b c d : Octet) : octets32 (word32 a b c d) = [a, b, c, d] := by
  have hbits (w : BitVec 8) (v : BitVec 8) (h : ∀ i < 8, w.getLsbD i = v.getLsbD i) : w = v :=
    BitVec.eq_of_getLsbD_eq fun i hi => h i hi
  unfold octets32 word32
  rw [List.cons.injEq, List.cons.injEq, List.cons.injEq, List.cons.injEq]
  refine ⟨hbits _ _ ?_, hbits _ _ ?_, hbits _ _ ?_, hbits _ _ ?_, rfl⟩
  all_goals
    intro i hi
    interval_cases i <;> simp

theorem word32_octets32 (w : BitVec 32) :
    word32 ((w >>> 24).setWidth 8) ((w >>> 16).setWidth 8) ((w >>> 8).setWidth 8) (w.setWidth 8) =
      w := by
  unfold word32
  exact eq_of_sameBits (by simp)

/-- The octets of a word, the low one first. -/
def lowFirst32 (w : BitVec 32) : List Octet :=
  [w.setWidth 8, (w >>> 8).setWidth 8, (w >>> 16).setWidth 8, (w >>> 24).setWidth 8]

end Octet

/-! ## Blocks -/

/-- Eight octets: half an IPv6 address, or an extended MAC address. -/
structure Octets8 where
  (b₀ b₁ b₂ b₃ b₄ b₅ b₆ b₇ : Octet)
  deriving DecidableEq

namespace Octets8

def zero : Octets8 := ⟨0, 0, 0, 0, 0, 0, 0, 0⟩

def toList (o : Octets8) : List Octet := [o.b₀, o.b₁, o.b₂, o.b₃, o.b₄, o.b₅, o.b₆, o.b₇]

/-- Take a block from the front of a list that is long enough. -/
def take? : List Octet → Option (Octets8 × List Octet)
  | a :: b :: c :: d :: e :: f :: g :: h :: rest => some (⟨a, b, c, d, e, f, g, h⟩, rest)
  | _ => none

@[simp] theorem take?_append (o : Octets8) (rest : List Octet) :
    take? (o.toList ++ rest) = some (o, rest) := rfl

theorem eq_append_of_take? {octets rest : List Octet} {o : Octets8}
    (h : take? octets = some (o, rest)) : octets = o.toList ++ rest := by
  unfold take? at h
  split at h
  · cases h
    rfl
  · cases h

theorem append_inj {o o' : Octets8} {rest rest' : List Octet}
    (h : o.toList ++ rest = o'.toList ++ rest') : o = o' ∧ rest = rest' := by
  have htake : take? (o.toList ++ rest) = take? (o'.toList ++ rest') := by rw [h]
  rw [take?_append, take?_append, Option.some.injEq, Prod.mk.injEq] at htake
  exact htake

end Octets8
