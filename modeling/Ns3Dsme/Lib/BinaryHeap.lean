/-
# Binary heaps

A binary heap of `n` elements occupies the positions from 1 to `n`; the parent of position `j`
is `j / 2`.  The heap is looked at through the keys at its positions.  An operation disturbs
the order around one position only, the hole, and moves the hole up or down by exchanges until
the order holds everywhere.
-/
import Mathlib.Logic.Equiv.Basic
import Mathlib.Order.Lattice

open Function

namespace BinaryHeap

variable {κ : Type*} [LinearOrder κ] {n i c : ℕ} {k : ℕ → κ}

/-- No position has a smaller key than its parent. -/
def Ordered (n : ℕ) (k : ℕ → κ) : Prop :=
  ∀ j, 2 ≤ j → j ≤ n → k (j / 2) ≤ k j

/-- The root has the smallest key. -/
theorem Ordered.root_le (h : Ordered n k) : ∀ j, 1 ≤ j → j ≤ n → k 1 ≤ k j := by
  intro j
  induction j using Nat.strong_induction_on with
  | _ j ih =>
    intro hj hjn
    by_cases hroot : j = 1
    · rw [hroot]
    · exact (ih (j / 2) (by omega) (by omega) (by omega)).trans (h j (by omega) hjn)

/-! ## Moving up -/

/-- The order holds but between the hole and its parent, and the children of the hole fit
below that parent. -/
structure UpReady (n : ℕ) (k : ℕ → κ) (i : ℕ) : Prop where
  except : ∀ j, 2 ≤ j → j ≤ n → j ≠ i → k (j / 2) ≤ k j
  grand : ∀ j, j ≤ n → j / 2 = i → 2 ≤ i → k (i / 2) ≤ k j

/-- An element may be added behind the last one. -/
theorem Ordered.upReady (h : Ordered n k) : UpReady (n + 1) k (n + 1) := by
  constructor
  · intro j hj hjn hne
    exact h j hj (by omega)
  · intro j hjn hji _
    omega

/-- Only the keys at the positions of the heap matter. -/
theorem Ordered.congr {k' : ℕ → κ} (h : Ordered n k) (heq : ∀ j ≤ n, k' j = k j) :
    Ordered n k' := by
  intro j hj hjn
  rw [heq j hjn, heq (j / 2) (by omega)]
  exact h j hj hjn

theorem UpReady.ordered (h : UpReady n k i) (hstop : i ≤ 1 ∨ k (i / 2) ≤ k i) :
    Ordered n k := by
  intro j hj hjn
  by_cases hji : j = i
  · rcases hstop with hroot | hle
    · omega
    · rw [hji]
      exact hle
  · exact h.except j hj hjn hji

/-- An exchange of the hole with its parent moves the hole up. -/
theorem UpReady.exch (h : UpReady n k i) (hi : 2 ≤ i) (hin : i ≤ n) (hlt : k i < k (i / 2)) :
    UpReady n (k ∘ Equiv.swap i (i / 2)) (i / 2) := by
  have hne : i / 2 ≠ i := by omega
  have hkeep (j : ℕ) (hji : j ≠ i) (hjp : j ≠ i / 2) :
      (k ∘ Equiv.swap i (i / 2)) j = k j := by
    rw [comp_apply, Equiv.swap_apply_of_ne_of_ne hji hjp]
  have hhole : (k ∘ Equiv.swap i (i / 2)) i = k (i / 2) := by
    rw [comp_apply, Equiv.swap_apply_left]
  have hparent : (k ∘ Equiv.swap i (i / 2)) (i / 2) = k i := by
    rw [comp_apply, Equiv.swap_apply_right]
  constructor
  · intro j hj hjn hjp
    by_cases hji : j = i
    · subst hji
      rw [hhole, hparent]
      exact hlt.le
    · rw [hkeep j hji hjp]
      -- the parent of `j` may be one of the two exchanged positions
      by_cases hchild : j / 2 = i
      · rw [hchild, hhole]
        exact h.grand j hjn hchild hi
      · by_cases hsibling : j / 2 = i / 2
        · rw [hsibling, hparent]
          have hle := h.except j hj hjn hji
          rw [hsibling] at hle
          exact hlt.le.trans hle
        · rw [hkeep _ hchild hsibling]
          exact h.except j hj hjn hji
  · intro j hjn hjp hp
    have hup : k (i / 2 / 2) ≤ k (i / 2) := h.except (i / 2) hp (by omega) hne
    rw [hkeep (i / 2 / 2) (by omega) (by omega)]
    by_cases hji : j = i
    · rw [hji, hhole]
      exact hup
    · rw [hkeep j hji (by omega)]
      have hle := h.except j (by omega) hjn hji
      rw [hjp] at hle
      exact hup.trans hle

/-! ## Moving down -/

/-- The order holds but between the hole and its children, and those fit below the parent of the
hole. -/
structure DownReady (n : ℕ) (k : ℕ → κ) (i : ℕ) : Prop where
  except : ∀ j, 2 ≤ j → j ≤ n → j / 2 ≠ i → k (j / 2) ≤ k j
  grand : ∀ j, j ≤ n → j / 2 = i → 2 ≤ i → k (i / 2) ≤ k j

theorem DownReady.ordered (h : DownReady n k i)
    (hstop : ∀ j, 2 ≤ j → j ≤ n → j / 2 = i → k i ≤ k j) : Ordered n k := by
  intro j hj hjn
  by_cases hji : j / 2 = i
  · rw [hji]
    exact hstop j hj hjn hji
  · exact h.except j hj hjn hji

/-- An exchange of the hole with its smaller child moves the hole down. -/
theorem DownReady.exch (h : DownReady n k i) (hi : 1 ≤ i) (hc : c / 2 = i) (hcn : c ≤ n)
    (hmin : ∀ j, 2 ≤ j → j ≤ n → j / 2 = i → k c ≤ k j) (hle : k c ≤ k i) :
    DownReady n (k ∘ Equiv.swap i c) c := by
  have hne : i ≠ c := by omega
  have hkeep (j : ℕ) (hji : j ≠ i) (hjc : j ≠ c) : (k ∘ Equiv.swap i c) j = k j := by
    rw [comp_apply, Equiv.swap_apply_of_ne_of_ne hji hjc]
  have hhole : (k ∘ Equiv.swap i c) i = k c := by
    rw [comp_apply, Equiv.swap_apply_left]
  have hchild : (k ∘ Equiv.swap i c) c = k i := by
    rw [comp_apply, Equiv.swap_apply_right]
  constructor
  · intro j hj hjn hjc
    by_cases hji : j = i
    · subst hji
      rw [hhole, hkeep (j / 2) (by omega) (by omega)]
      exact h.grand c hcn hc hj
    · by_cases hparent : j / 2 = i
      · rw [hparent, hhole]
        by_cases hself : j = c
        · rw [hself, hchild]
          exact hle
        · rw [hkeep j hji hself]
          exact hmin j hj hjn hparent
      · rw [hkeep j hji (by omega), hkeep (j / 2) hparent hjc]
        exact h.except j hj hjn hparent
  · intro j hjn hjc _
    rw [hc, hhole, hkeep j (by omega) (by omega)]
    have hle := h.except j (by omega) hjn (by omega)
    rw [hjc] at hle
    exact hle

/-- The last element may take the place of another one that it does not precede the parent of. -/
theorem Ordered.downReady (h : Ordered (n + 1) k) (hi : 1 ≤ i)
    (hfits : 2 ≤ i → i ≤ n → k (i / 2) ≤ k (n + 1)) (hin : i ≤ n + 1) :
    DownReady n (k ∘ Equiv.swap i (n + 1)) i := by
  have hkeep (j : ℕ) (hji : j ≠ i) (hjn : j ≠ n + 1) :
      (k ∘ Equiv.swap i (n + 1)) j = k j := by
    rw [comp_apply, Equiv.swap_apply_of_ne_of_ne hji hjn]
  constructor
  · intro j hj hjn hparent
    rw [hkeep (j / 2) hparent (by omega)]
    by_cases hji : j = i
    · subst hji
      rw [comp_apply, Equiv.swap_apply_left]
      exact hfits hj hjn
    · rw [hkeep j hji (by omega)]
      exact h j hj (by omega)
  · intro j hjn hji hi2
    rw [hkeep (i / 2) (by omega) (by omega), hkeep j (by omega) (by omega)]
    have hup : k (i / 2) ≤ k i := h i hi2 hin
    have hle := h j (by omega) (by omega)
    rw [hji] at hle
    exact hup.trans hle

/-- Only the keys at the positions of the heap matter. -/
theorem DownReady.congr {k' : ℕ → κ} (h : DownReady n k i) (heq : ∀ j ≤ n, k' j = k j)
    (hin : i ≤ n + 1) : DownReady n k' i := by
  constructor
  · intro j hj hjn hji
    rw [heq j hjn, heq (j / 2) (by omega)]
    exact h.except j hj hjn hji
  · intro j hjn hji hi
    rw [heq j hjn, heq (i / 2) (by omega)]
    exact h.grand j hjn hji hi

end BinaryHeap
