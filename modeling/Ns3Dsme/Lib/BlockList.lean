/-
# Lists of blocks, the latest first

A new block is put in front of a list of blocks and takes in those that it touches, one after the
other.  What was apart stays apart, as long as the new block does not overlap the others.
-/
import Mathlib.Order.Lattice
import Mathlib.Data.List.Basic

open List

namespace BlockList

variable {α : Type*} [LinearOrder α]

/-- The blocks have nothing in common, and do not touch. -/
def Apart (p q : α × α) : Prop := p.2 < q.1 ∨ q.2 < p.1

/-- The blocks have nothing in common. -/
def Clear (p q : α × α) : Prop := p.2 ≤ q.1 ∨ q.2 ≤ p.1

/-- The first block that touches the one in front, joined with it, and the others. -/
def absorb (b : α × α) : List (α × α) → Option ((α × α) × List (α × α))
  | [] => none
  | p :: ps =>
    if b.1 = p.2 then some ((p.1, b.2), ps)
    else if b.2 = p.1 then some ((b.1, p.2), ps)
    else (absorb b ps).map fun r => (r.1, p :: r.2)

/-- The block in front takes in all that it touches. -/
def gather : ℕ → α × α → List (α × α) → List (α × α)
  | 0, b, ps => b :: ps
  | fuel + 1, b, ps =>
    match absorb b ps with
    | none => b :: ps
    | some (b', ps') => gather fuel b' ps'

variable {b b' p q : α × α} {ps ps' : List (α × α)}

/-- What joining two blocks that touch keeps. -/
def Joins (Q : α × α → Prop) : Prop := ∀ x y z, Q (x, y) → Q (y, z) → Q (x, z)

/-- One block is taken in. -/
structure Absorbed (b : α × α) (ps : List (α × α)) (b' : α × α) (ps' : List (α × α)) : Prop where
  length : ps.length = ps'.length + 1
  sublist : ps'.Sublist ps
  joined : ∃ p ∈ ps, b.1 = p.2 ∧ b' = (p.1, b.2) ∨ b.2 = p.1 ∧ b' = (b.1, p.2)
  apart : ps.Pairwise Apart → ∃ p ∈ ps,
    (b.1 = p.2 ∧ b' = (p.1, b.2) ∨ b.2 = p.1 ∧ b' = (b.1, p.2)) ∧ ∀ q ∈ ps', Apart p q

theorem Apart.symm (h : Apart p q) : Apart q p := Or.symm h

theorem absorb_spec (h : absorb b ps = some (b', ps')) : Absorbed b ps b' ps' := by
  induction ps generalizing ps' with
  | nil => cases h
  | cons p ps ih =>
    unfold absorb at h
    split at h
    · rename_i hleft
      cases h
      refine ⟨rfl, sublist_cons_self _ _, ⟨p, mem_cons_self, .inl ⟨hleft, rfl⟩⟩,
        fun hapart => ⟨p, mem_cons_self, .inl ⟨hleft, rfl⟩, ?_⟩⟩
      exact (pairwise_cons.mp hapart).1
    · split at h
      · rename_i hright
        cases h
        refine ⟨rfl, sublist_cons_self _ _, ⟨p, mem_cons_self, .inr ⟨hright, rfl⟩⟩,
          fun hapart => ⟨p, mem_cons_self, .inr ⟨hright, rfl⟩, ?_⟩⟩
        exact (pairwise_cons.mp hapart).1
      · obtain ⟨⟨c, rest⟩, hrest, heq⟩ := Option.map_eq_some_iff.mp h
        cases heq
        have hspec := ih hrest
        refine ⟨congrArg (· + 1) hspec.length, hspec.sublist.cons_cons p, ?_, fun hapart => ?_⟩
        · obtain ⟨q, hq, hjoin⟩ := hspec.joined
          exact ⟨q, mem_cons_of_mem _ hq, hjoin⟩
        · obtain ⟨hfirst, hothers⟩ := pairwise_cons.mp hapart
          obtain ⟨q, hq, hjoin, hclear⟩ := hspec.apart hothers
          refine ⟨q, mem_cons_of_mem _ hq, hjoin, fun r hr => ?_⟩
          rcases mem_cons.mp hr with rfl | hr
          · exact (hfirst q hq).symm
          · exact hclear r hr

/-- Where nothing is taken in, nothing touches the block. -/
theorem absorb_eq_none (h : absorb b ps = none) : ∀ p ∈ ps, b.1 ≠ p.2 ∧ b.2 ≠ p.1 := by
  induction ps with
  | nil => exact fun p hp => absurd hp not_mem_nil
  | cons q ps ih =>
    unfold absorb at h
    split at h
    · cases h
    · rename_i hleft
      split at h
      · cases h
      · rename_i hright
        intro p hp
        rcases mem_cons.mp hp with rfl | hp
        · exact ⟨hleft, hright⟩
        · exact ih (Option.map_eq_none_iff.mp h) p hp

/-! ## All blocks of a list -/

/-- **What all blocks have in common** is kept. -/
theorem forall_gather {Q : α × α → Prop} (hQ : Joins Q) (fuel : ℕ) (hb : Q b)
    (hps : ∀ p ∈ ps, Q p) : ∀ p ∈ gather fuel b ps, Q p := by
  induction fuel generalizing b ps with
  | zero => exact forall_mem_cons.mpr ⟨hb, hps⟩
  | succ fuel ih =>
    unfold gather
    cases hfound : absorb b ps with
    | none => exact forall_mem_cons.mpr ⟨hb, hps⟩
    | some r =>
      obtain ⟨b', ps'⟩ := r
      have hspec := absorb_spec hfound
      refine ih ?_ fun p hp => hps p (hspec.sublist.subset hp)
      obtain ⟨p, hp, ⟨hmeet, rfl⟩ | ⟨hmeet, rfl⟩⟩ := hspec.joined
      · exact hQ p.1 p.2 b.2 (hps p hp) (hmeet ▸ hb)
      · exact hQ b.1 b.2 p.2 hb (hmeet ▸ hps p hp)

theorem length_gather (fuel : ℕ) : (gather fuel b ps).length ≤ ps.length + 1 := by
  induction fuel generalizing b ps with
  | zero => exact Nat.le_refl _
  | succ fuel ih =>
    unfold gather
    cases hfound : absorb b ps with
    | none => exact Nat.le_refl _
    | some r =>
      obtain ⟨b', ps'⟩ := r
      have hrest : (gather fuel b' ps').length ≤ ps'.length + 1 := ih
      rw [(absorb_spec hfound).length]
      exact Nat.le_succ_of_le hrest

/-- **The new block** is part of the one in front. -/
theorem head_gather (fuel : ℕ) (hb : b.1 < b.2) (hps : ∀ p ∈ ps, p.1 < p.2) :
    ∃ c rest, gather fuel b ps = c :: rest ∧ c.1 ≤ b.1 ∧ b.2 ≤ c.2 := by
  induction fuel generalizing b ps with
  | zero => exact ⟨b, ps, rfl, le_refl _, le_refl _⟩
  | succ fuel ih =>
    unfold gather
    cases hfound : absorb b ps with
    | none => exact ⟨b, ps, rfl, le_refl _, le_refl _⟩
    | some r =>
      obtain ⟨b', ps'⟩ := r
      have hspec := absorb_spec hfound
      have hothers : ∀ p ∈ ps', p.1 < p.2 := fun p hp => hps p (hspec.sublist.subset hp)
      obtain ⟨p, hp, ⟨hmeet, rfl⟩ | ⟨hmeet, rfl⟩⟩ := hspec.joined
      · have hlt := hps p hp
        have hle : p.1 ≤ b.1 := hmeet ▸ hlt.le
        obtain ⟨c, rest, heq, hlow, hhigh⟩ := ih (b := (p.1, b.2)) (hle.trans_lt hb) hothers
        exact ⟨c, rest, heq, hlow.trans hle, hhigh⟩
      · have hlt := hps p hp
        have hle : b.2 ≤ p.2 := hmeet ▸ hlt.le
        obtain ⟨c, rest, heq, hlow, hhigh⟩ := ih (b := (b.1, p.2)) (hb.trans_le hle) hothers
        exact ⟨c, rest, heq, hlow, hle.trans hhigh⟩

/-- **Blocks that are apart** stay so. -/
theorem pairwise_gather (fuel : ℕ) (hfuel : ps.length ≤ fuel) (hb : b.1 < b.2)
    (hps : ∀ p ∈ ps, p.1 < p.2) (hapart : ps.Pairwise Apart) (hclear : ∀ p ∈ ps, Clear b p) :
    (gather fuel b ps).Pairwise Apart := by
  induction fuel generalizing b ps with
  | zero =>
    rw [eq_nil_of_length_eq_zero (Nat.le_zero.mp hfuel)]
    exact pairwise_singleton _ _
  | succ fuel ih =>
    unfold gather
    cases hfound : absorb b ps with
    | none =>
      -- nothing touches the block, so that all are apart from it
      have hnone := absorb_eq_none hfound
      refine pairwise_cons.mpr ⟨fun p hp => ?_, hapart⟩
      obtain ⟨hleft, hright⟩ := hnone p hp
      rcases hclear p hp with hle | hle
      · exact .inl (lt_of_le_of_ne hle hright)
      · exact .inr (lt_of_le_of_ne hle hleft.symm)
    | some r =>
      obtain ⟨b', ps'⟩ := r
      have hspec := absorb_spec hfound
      have hothers : ∀ p ∈ ps', p.1 < p.2 := fun p hp => hps p (hspec.sublist.subset hp)
      obtain ⟨p, hp, hjoin, hfar⟩ := hspec.apart hapart
      have hlt := hps p hp
      have hlength : ps'.length ≤ fuel := by
        rw [hspec.length] at hfuel
        exact Nat.le_of_succ_le_succ hfuel
      have hrest := hapart.sublist hspec.sublist
      -- the others are clear of both parts
      rcases hjoin with ⟨hmeet, rfl⟩ | ⟨hmeet, rfl⟩
      · have hle : p.1 ≤ b.1 := hmeet ▸ hlt.le
        refine ih hlength (hle.trans_lt hb) hothers hrest fun q hq => ?_
        have hq' := hothers q hq
        rcases hclear q (hspec.sublist.subset hq) with hbehind | hbefore
        · exact .inl hbehind
        · rcases hfar q hq with hgap | hgap
          · exact absurd (hgap.trans hq') (not_lt.mpr (hmeet ▸ hbefore))
          · exact .inr hgap.le
      · have hle : b.2 ≤ p.2 := hmeet ▸ hlt.le
        refine ih hlength (hb.trans_le hle) hothers hrest fun q hq => ?_
        have hq' := hothers q hq
        rcases hclear q (hspec.sublist.subset hq) with hbehind | hbefore
        · rcases hfar q hq with hgap | hgap
          · exact .inl hgap.le
          · exact absurd (hq'.trans hgap) (not_lt.mpr (hmeet ▸ hbehind))
        · exact .inr hbefore

end BlockList
