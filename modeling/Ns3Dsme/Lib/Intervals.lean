/-
# Lists of disjoint intervals

Half-open intervals of numbers, one after the other.  A new interval loses what the others cover at
its ends, and swallows those inside it; after that it is put into its place.
-/
import Mathlib.Algebra.BigOperators.Group.List.Basic
import Mathlib.Algebra.GroupWithZero.Nat
import Mathlib.Algebra.Order.Group.Nat

open List

namespace Intervals

/-- The intervals come one after the other from `lo` on, and none is empty. -/
def Ordered : ℕ → List (ℕ × ℕ) → Prop
  | _, [] => True
  | lo, p :: ps => lo ≤ p.1 ∧ p.1 < p.2 ∧ Ordered p.2 ps

def Covers (ps : List (ℕ × ℕ)) (x : ℕ) : Prop := ∃ p ∈ ps, p.1 ≤ x ∧ x < p.2

/-- How many numbers are covered. -/
def total (ps : List (ℕ × ℕ)) : ℕ := (ps.map fun p => p.2 - p.1).sum

variable {lo h t n m : ℕ} {p q : ℕ × ℕ} {ps : List (ℕ × ℕ)}

theorem not_covers_nil (x : ℕ) : ¬ Covers [] x := by
  rintro ⟨p, hp, -⟩
  exact not_mem_nil hp

theorem covers_cons (p : ℕ × ℕ) (ps : List (ℕ × ℕ)) (x : ℕ) :
    Covers (p :: ps) x ↔ p.1 ≤ x ∧ x < p.2 ∨ Covers ps x := by
  constructor
  · rintro ⟨q, hq, hx⟩
    rcases mem_cons.mp hq with rfl | hq
    · exact .inl hx
    · exact .inr ⟨q, hq, hx⟩
  · rintro (hx | ⟨q, hq, hx⟩)
    · exact ⟨p, mem_cons_self, hx⟩
    · exact ⟨q, mem_cons_of_mem _ hq, hx⟩

theorem total_cons (p : ℕ × ℕ) (ps : List (ℕ × ℕ)) :
    total (p :: ps) = (p.2 - p.1) + total ps := rfl

theorem Ordered.mono (ho : Ordered lo ps) {lo' : ℕ} (hle : lo' ≤ lo) : Ordered lo' ps := by
  cases ps with
  | nil => trivial
  | cons p ps => exact ⟨hle.trans ho.1, ho.2⟩

theorem Ordered.bounds (ho : Ordered lo ps) : ∀ p ∈ ps, lo ≤ p.1 ∧ p.1 < p.2 := by
  induction ps generalizing lo with
  | nil => exact fun p hp => absurd hp not_mem_nil
  | cons q ps ih =>
    intro p hp
    rcases mem_cons.mp hp with rfl | hp
    · exact ⟨ho.1, ho.2.1⟩
    · have hrest := ih ho.2.2 p hp
      have hfirst := ho.1
      have hlt := ho.2.1
      omega

theorem Ordered.le_of_covers (ho : Ordered lo ps) {x : ℕ} (hx : Covers ps x) : lo ≤ x := by
  obtain ⟨p, hp, hle, -⟩ := hx
  exact (ho.bounds p hp).1.trans hle

/-- Different intervals are apart. -/
theorem Ordered.pairwise (ho : Ordered lo ps) : ps.Pairwise fun p q => p.2 ≤ q.1 := by
  induction ps generalizing lo with
  | nil => exact List.Pairwise.nil
  | cons p ps ih =>
    rw [pairwise_cons]
    exact ⟨fun q hq => (ho.2.2.bounds q hq).1, ih ho.2.2⟩

/-- What is covered lies between the ends, so there is not more of it. -/
theorem Ordered.total_le (ho : Ordered lo ps) {z : ℕ} (hlo : lo ≤ z) (hhi : ∀ p ∈ ps, p.2 ≤ z) :
    total ps ≤ z - lo := by
  induction ps generalizing lo with
  | nil => exact Nat.zero_le _
  | cons p ps ih =>
    have hp := hhi p mem_cons_self
    have hrest := ih ho.2.2 hp fun q hq => hhi q (mem_cons_of_mem _ hq)
    have hfirst := ho.1
    have hlt := ho.2.1
    rw [total_cons]
    omega

/-! ## A new interval -/

/-- The intervals that stay, and what is left of the new one `[h, t)`. -/
def trim : List (ℕ × ℕ) → ℕ → ℕ → List (ℕ × ℕ) × ℕ × ℕ
  | [], h, t => ([], h, t)
  | p :: ps, h, t =>
    if t < p.1 then (p :: ps, h, t)
    else if h < p.2 then
      if h < p.1 ∧ p.2 < t then trim ps h t
      else
        let r := trim ps (if p.1 ≤ h then p.2 else h) (if t ≤ p.2 then p.1 else t)
        (p :: r.1, r.2)
    else
      let r := trim ps h t
      (p :: r.1, r.2)

/-- What is promised of the result of `trim`. -/
structure Trimmed (lo : ℕ) (ps : List (ℕ × ℕ)) (h t : ℕ) (r : List (ℕ × ℕ) × ℕ × ℕ) : Prop where
  ordered : Ordered lo r.1
  sublist : r.1.Sublist ps
  covers : ∀ x, Covers ps x ∨ h ≤ x ∧ x < t ↔ Covers r.1 x ∨ r.2.1 ≤ x ∧ x < r.2.2
  inside : r.2.1 < r.2.2 → h ≤ r.2.1 ∧ r.2.2 ≤ t
  apart : r.2.1 < r.2.2 → ∀ p ∈ r.1, p.2 ≤ r.2.1 ∨ r.2.2 ≤ p.1

/-- An interval that stays. -/
theorem Trimmed.cons {h' t' : ℕ} {r : List (ℕ × ℕ) × ℕ × ℕ} (hr : Trimmed p.2 ps h' t' r)
    (hlo : lo ≤ p.1) (hne : p.1 < p.2)
    (hcovers : ∀ x, p.1 ≤ x ∧ x < p.2 ∨ h ≤ x ∧ x < t ↔ p.1 ≤ x ∧ x < p.2 ∨ h' ≤ x ∧ x < t')
    (hinside : h' < t' → h ≤ h' ∧ t' ≤ t) (hapart : p.2 ≤ h' ∨ t' ≤ p.1) :
    Trimmed lo (p :: ps) h t (p :: r.1, r.2) := by
  refine ⟨⟨hlo, hne, hr.ordered⟩, hr.sublist.cons_cons p, fun x => ?_, fun hlt => ?_,
    fun hlt q hq => ?_⟩
  · rw [covers_cons, covers_cons]
    calc (p.1 ≤ x ∧ x < p.2 ∨ Covers ps x) ∨ h ≤ x ∧ x < t
        ↔ (p.1 ≤ x ∧ x < p.2 ∨ h ≤ x ∧ x < t) ∨ Covers ps x := or_right_comm
      _ ↔ (p.1 ≤ x ∧ x < p.2 ∨ h' ≤ x ∧ x < t') ∨ Covers ps x := or_congr_left (hcovers x)
      _ ↔ p.1 ≤ x ∧ x < p.2 ∨ (Covers ps x ∨ h' ≤ x ∧ x < t') := by
        rw [or_assoc]
        exact or_congr_right or_comm
      _ ↔ p.1 ≤ x ∧ x < p.2 ∨ (Covers r.1 x ∨ r.2.1 ≤ x ∧ x < r.2.2) :=
        or_congr_right (hr.covers x)
      _ ↔ (p.1 ≤ x ∧ x < p.2 ∨ Covers r.1 x) ∨ r.2.1 ≤ x ∧ x < r.2.2 := or_assoc.symm
  · obtain ⟨hlow, hhigh⟩ := hr.inside hlt
    have hin := hinside (by dsimp only at hlt; omega)
    dsimp only
    omega
  · rcases mem_cons.mp hq with rfl | hq
    · obtain ⟨hlow, hhigh⟩ := hr.inside hlt
      dsimp only
      omega
    · exact hr.apart hlt q hq

/-- **Trimming a new interval.**  Together, what stays and what is left of the new interval cover
the same as before, and they are apart. -/
theorem trim_spec (ho : Ordered lo ps) (h t : ℕ) : Trimmed lo ps h t (trim ps h t) := by
  induction ps generalizing lo h t with
  | nil => exact ⟨trivial, List.Sublist.refl _, fun x => Iff.rfl, fun _ => ⟨le_rfl, le_rfl⟩,
      fun _ q hq => absurd hq not_mem_nil⟩
  | cons p ps ih =>
    obtain ⟨hlo, hne, hrest⟩ := ho
    unfold trim
    by_cases hbehind : t < p.1
    · -- the others all start behind it
      rw [if_pos hbehind]
      refine ⟨⟨hlo, hne, hrest⟩, List.Sublist.refl _, fun x => Iff.rfl,
        fun _ => ⟨le_rfl, le_rfl⟩, fun _ q hq => .inr ?_⟩
      rcases mem_cons.mp hq with rfl | hq
      · exact hbehind.le
      · have hq' := hrest.bounds q hq
        dsimp only
        omega
    · rw [if_neg hbehind]
      by_cases hmeets : h < p.2
      · rw [if_pos hmeets]
        by_cases hswallow : h < p.1 ∧ p.2 < t
        · rw [if_pos hswallow]
          have hr := ih hrest h t
          refine ⟨hr.ordered.mono (by omega), hr.sublist.cons p, fun x => ?_, hr.inside, hr.apart⟩
          rw [← hr.covers x, covers_cons]
          constructor
          · rintro ((hx | hx) | hx)
            · exact .inr ⟨by omega, by omega⟩
            · exact .inl hx
            · exact .inr hx
          · rintro (hx | hx)
            · exact .inl (.inr hx)
            · exact .inr hx
        · rw [if_neg hswallow]
          refine (ih hrest _ _).cons hlo hne (fun x => ?_) ?_ ?_
          · split <;> split <;> omega
          · split <;> split <;> omega
          · split <;> split <;> omega
      · rw [if_neg hmeets]
        exact (ih hrest h t).cons hlo hne (fun x => Iff.rfl) (fun _ => ⟨le_rfl, le_rfl⟩)
          (.inl (by omega))

/-- What is taken out lies strictly inside. -/
theorem trim_removed (hp : p ∈ ps) (hout : p ∉ (trim ps h t).1) : h < p.1 ∧ p.2 < t := by
  induction ps generalizing h t with
  | nil => exact absurd hp not_mem_nil
  | cons q ps ih =>
    unfold trim at hout
    by_cases hbehind : t < q.1
    · rw [if_pos hbehind] at hout
      exact absurd hp hout
    · rw [if_neg hbehind] at hout
      by_cases hmeets : h < q.2
      · rw [if_pos hmeets] at hout
        by_cases hswallow : h < q.1 ∧ q.2 < t
        · rw [if_pos hswallow] at hout
          rcases mem_cons.mp hp with rfl | hp
          · exact hswallow
          · exact ih hp hout
        · rw [if_neg hswallow, mem_cons, not_or] at hout
          -- the new interval has become smaller
          obtain ⟨hlow, hhigh⟩ := ih ((mem_cons.mp hp).resolve_left hout.1) hout.2
          constructor
          · refine lt_of_le_of_lt ?_ hlow
            split <;> omega
          · refine lt_of_lt_of_le hhigh ?_
            split <;> omega
      · rw [if_neg hmeets, mem_cons, not_or] at hout
        exact ih ((mem_cons.mp hp).resolve_left hout.1) hout.2

/-- Where nothing is left of the new interval, all others stay. -/
theorem trim_eq_self (ho : Ordered lo ps) (hr : (trim ps h t).2.2 ≤ (trim ps h t).2.1) :
    (trim ps h t).1 = ps := by
  induction ps generalizing lo h t with
  | nil => rfl
  | cons p ps ih =>
    obtain ⟨hlo, hne, hrest⟩ := ho
    unfold trim at hr ⊢
    by_cases hbehind : t < p.1
    · rw [if_pos hbehind]
    · rw [if_neg hbehind] at hr ⊢
      by_cases hmeets : h < p.2
      · rw [if_pos hmeets] at hr ⊢
        by_cases hswallow : h < p.1 ∧ p.2 < t
        · -- a swallowed interval would have to be covered by the others
          rw [if_pos hswallow] at hr
          exfalso
          have hspec := trim_spec hrest h t
          rcases (hspec.covers p.1).mp (.inr ⟨by omega, by omega⟩) with hcov | hnew
          · obtain ⟨q, hq, hlow, -⟩ := hcov
            have hq' := hrest.bounds q (hspec.sublist.subset hq)
            omega
          · omega
        · rw [if_neg hswallow] at hr ⊢
          exact congrArg (p :: ·) (ih hrest hr)
      · rw [if_neg hmeets] at hr ⊢
        exact congrArg (p :: ·) (ih hrest hr)

/-- What is left of the new interval ends where something ended before. -/
theorem trim_ends (P : ℕ → Prop) (hh : P h) (ht : P t) (hps : ∀ p ∈ ps, P p.1 ∧ P p.2) :
    P (trim ps h t).2.1 ∧ P (trim ps h t).2.2 := by
  induction ps generalizing h t with
  | nil => exact ⟨hh, ht⟩
  | cons p ps ih =>
    obtain ⟨hstart, hend⟩ := hps p mem_cons_self
    have hrest : ∀ q ∈ ps, P q.1 ∧ P q.2 := fun q hq => hps q (mem_cons_of_mem _ hq)
    unfold trim
    split
    · exact ⟨hh, ht⟩
    · split
      · split
        · exact ih hh ht hrest
        · refine ih ?_ ?_ hrest
          · split
            · exact hend
            · exact hh
          · split
            · exact hstart
            · exact ht
      · exact ih hh ht hrest

/-! ## Putting an interval into its place -/

def insert (q : ℕ × ℕ) : List (ℕ × ℕ) → List (ℕ × ℕ)
  | [] => [q]
  | p :: ps => if q.1 < p.1 then q :: p :: ps else p :: insert q ps

theorem perm_insert (q : ℕ × ℕ) (ps : List (ℕ × ℕ)) : (insert q ps).Perm (q :: ps) := by
  induction ps with
  | nil => exact List.Perm.refl _
  | cons p ps ih =>
    unfold insert
    split
    · exact List.Perm.refl _
    · exact (ih.cons p).trans (List.Perm.swap q p ps)

theorem covers_insert (q : ℕ × ℕ) (ps : List (ℕ × ℕ)) (x : ℕ) :
    Covers (insert q ps) x ↔ q.1 ≤ x ∧ x < q.2 ∨ Covers ps x := by
  rw [← covers_cons]
  constructor
  · rintro ⟨p, hp, hx⟩
    exact ⟨p, (perm_insert q ps).subset hp, hx⟩
  · rintro ⟨p, hp, hx⟩
    exact ⟨p, (perm_insert q ps).symm.subset hp, hx⟩

theorem total_insert (q : ℕ × ℕ) (ps : List (ℕ × ℕ)) :
    total (insert q ps) = (q.2 - q.1) + total ps := by
  rw [← total_cons]
  exact ((perm_insert q ps).map _).sum_eq

theorem Ordered.insert (ho : Ordered lo ps) (hlo : lo ≤ q.1) (hne : q.1 < q.2)
    (hapart : ∀ p ∈ ps, p.2 ≤ q.1 ∨ q.2 ≤ p.1) : Ordered lo (insert q ps) := by
  induction ps generalizing lo with
  | nil => exact ⟨hlo, hne, trivial⟩
  | cons p ps ih =>
    obtain ⟨hp, hpne, hrest⟩ := ho
    have hfirst := hapart p mem_cons_self
    unfold Intervals.insert
    split
    · exact ⟨hlo, hne, by omega, hpne, hrest⟩
    · refine ⟨hp, hpne, ih hrest (by omega) ?_⟩
      exact fun q' hq' => hapart q' (mem_cons_of_mem _ hq')

/-! ## How far the numbers are covered -/

/-- From `n` on, how far the intervals reach without a gap. -/
def reach : List (ℕ × ℕ) → ℕ → ℕ
  | [], n => n
  | p :: ps, n => if p.1 < n then reach ps n else if n < p.1 then n else reach ps p.2

/-- **Everything up to there is covered, and the next number is not.** -/
theorem reach_spec (ho : Ordered lo ps) (hn : ∀ p ∈ ps, ¬ (p.1 < n ∧ n < p.2)) :
    n ≤ reach ps n ∧ (∀ x, n ≤ x → x < reach ps n → Covers ps x) ∧ ¬ Covers ps (reach ps n) := by
  induction ps generalizing lo n with
  | nil => exact ⟨le_rfl, fun x hx hx' => absurd hx' (by unfold reach; omega), not_covers_nil _⟩
  | cons p ps ih =>
    obtain ⟨hlo, hne, hrest⟩ := ho
    have hfirst := hn p mem_cons_self
    have hothers : ∀ q ∈ ps, ¬ (q.1 < n ∧ n < q.2) := fun q hq => hn q (mem_cons_of_mem _ hq)
    unfold reach
    by_cases hbefore : p.1 < n
    · rw [if_pos hbefore]
      obtain ⟨hle, hcov, hend⟩ := ih hrest hothers
      refine ⟨hle, fun x hx hx' => (covers_cons p ps x).mpr (.inr (hcov x hx hx')), ?_⟩
      rw [covers_cons]
      rintro (hx | hx)
      · omega
      · exact hend hx
    · rw [if_neg hbefore]
      by_cases hgap : n < p.1
      · rw [if_pos hgap]
        refine ⟨le_rfl, fun x hx hx' => absurd hx' (by omega), ?_⟩
        rw [covers_cons]
        rintro (hx | hx)
        · omega
        · have hx' := hrest.le_of_covers hx
          omega
      · rw [if_neg hgap]
        have hinside : ∀ q ∈ ps, ¬ (q.1 < p.2 ∧ p.2 < q.2) := by
          intro q hq
          have hq' := hrest.bounds q hq
          omega
        obtain ⟨hle, hcov, hend⟩ := ih hrest hinside
        refine ⟨by omega, fun x hx hx' => ?_, ?_⟩
        · rw [covers_cons]
          by_cases hin : x < p.2
          · exact .inl ⟨by omega, hin⟩
          · exact .inr (hcov x (by omega) hx')
        · rw [covers_cons]
          rintro (hx | hx)
          · omega
          · exact hend hx

/-! ## Taking from the front -/

/-- What is left from `m` on. -/
def cut : List (ℕ × ℕ) → ℕ → List (ℕ × ℕ)
  | [], _ => []
  | p :: ps, m => if p.2 ≤ m then cut ps m else (max p.1 m, p.2) :: ps

theorem cut_eq_self (ho : Ordered lo ps) (hm : m ≤ lo) : cut ps m = ps := by
  cases ps with
  | nil => rfl
  | cons p ps =>
    have hfirst := ho.1
    have hlt := ho.2.1
    unfold cut
    rw [if_neg (by omega), max_eq_left (by omega)]

/-- What is left of an interval ends where the interval did. -/
theorem mem_cut (hp : p ∈ cut ps m) : ∃ q ∈ ps, p.2 = q.2 := by
  induction ps with
  | nil => exact absurd hp not_mem_nil
  | cons q ps ih =>
    unfold cut at hp
    split at hp
    · obtain ⟨r, hr, heq⟩ := ih hp
      exact ⟨r, mem_cons_of_mem _ hr, heq⟩
    · rcases mem_cons.mp hp with rfl | hp
      · exact ⟨q, mem_cons_self, rfl⟩
      · exact ⟨p, mem_cons_of_mem _ hp, rfl⟩

theorem Ordered.cut (ho : Ordered lo ps) (m : ℕ) : Ordered m (cut ps m) := by
  induction ps generalizing lo with
  | nil => trivial
  | cons p ps ih =>
    obtain ⟨hlo, hne, hrest⟩ := ho
    unfold Intervals.cut
    split
    · exact ih hrest
    · refine ⟨le_max_right _ _, ?_, hrest⟩
      rw [max_lt_iff]
      omega

theorem covers_cut (ho : Ordered lo ps) (m x : ℕ) :
    Covers (cut ps m) x ↔ Covers ps x ∧ m ≤ x := by
  induction ps generalizing lo with
  | nil => exact ⟨fun hx => absurd hx (not_covers_nil x), fun hx => hx.1⟩
  | cons p ps ih =>
    obtain ⟨hlo, hne, hrest⟩ := ho
    unfold Intervals.cut
    rw [covers_cons]
    split
    · rw [ih hrest]
      constructor
      · exact fun hx => ⟨.inr hx.1, hx.2⟩
      · rintro ⟨hx | hx, hm⟩
        · omega
        · exact ⟨hx, hm⟩
    · rw [covers_cons, max_le_iff]
      constructor
      · rintro (hx | hx)
        · exact ⟨.inl ⟨hx.1.1, hx.2⟩, hx.1.2⟩
        · have hx' := hrest.le_of_covers hx
          exact ⟨.inr hx, by omega⟩
      · rintro ⟨hx | hx, hm⟩
        · exact .inl ⟨⟨hx.1, hm⟩, hx.2⟩
        · exact .inr hx

end Intervals
