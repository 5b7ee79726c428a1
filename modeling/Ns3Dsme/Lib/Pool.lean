/-
# A pool of counted areas

Areas are handed out to owners, which count how many they are.  An area that nobody refers to any
more may go to a free list, from which it is taken again.
-/
import Ns3Dsme.Lib.RefCount
import Mathlib.Data.List.Nodup
import Mathlib.Data.List.Perm.Basic
import Mathlib.Logic.Function.Basic

open List Function

namespace Pool

/-! ## Areas and references -/

/-- The counts are those of the references, and what is free has none. -/
structure Counted (count : ℕ → ℕ) (next : ℕ) (freeList : List ℕ) (refs : ℕ → ℕ) : Prop where
  count : ∀ p < next, count p = refs p
  fresh : ∀ p, next ≤ p → refs p = 0
  free : ∀ p ∈ freeList, p < next ∧ refs p = 0
  free_nodup : freeList.Nodup

/-- Look for an area that fits; those before it are given up. -/
def take (fits : ℕ → Bool) : List ℕ → Option ℕ × List ℕ
  | [] => (none, [])
  | p :: rest => if fits p then (some p, rest) else take fits rest

theorem take_spec (fits : ℕ → Bool) (l : List ℕ) :
    (take fits l).2.Sublist l ∧ ∀ p, (take fits l).1 = some p → p ∈ l ∧ fits p = true ∧
      (l.Nodup → p ∉ (take fits l).2) := by
  induction l with
  | nil => exact ⟨List.Sublist.refl _, fun p hp => by cases hp⟩
  | cons q rest ih =>
    unfold take
    split
    · rename_i hfits
      refine ⟨sublist_cons_self _ _, fun p hp => ?_⟩
      cases hp
      exact ⟨mem_cons_self, hfits, fun hnodup => (nodup_cons.mp hnodup).1⟩
    · obtain ⟨hsub, hfound⟩ := ih
      refine ⟨hsub.cons _, fun p hp => ?_⟩
      obtain ⟨hmem, hfits, hnot⟩ := hfound p hp
      exact ⟨mem_cons_of_mem _ hmem, hfits,
        fun hnodup => hnot (nodup_cons.mp hnodup).2⟩

variable {count : ℕ → ℕ} {next : ℕ} {freeList : List ℕ} {p : ℕ}

namespace Counted

variable {refs : ℕ → ℕ}

variable (h : Counted count next freeList refs) (hp : 0 < refs p)
include h hp

theorem lt_next : p < next := by
  by_contra hle
  have hzero := h.fresh p (Nat.le_of_not_lt hle)
  omega

theorem not_free : p ∉ freeList := by
  intro hmem
  have hzero := (h.free p hmem).2
  omega

omit h hp in
/-- Areas may be given up. -/
theorem sublist (h : Counted count next freeList refs) {rest : List ℕ} (hsub : rest.Sublist freeList) :
    Counted count next rest refs :=
  ⟨h.count, h.fresh, fun q hq => h.free q (hsub.subset hq), h.free_nodup.sublist hsub⟩

omit h hp in
/-- A count and the references change together. -/
theorem set (h : Counted count next freeList refs) (hp : p < next) (n : ℕ)
    (hfree : p ∈ freeList → n = 0) :
    Counted (update count p n) next freeList (update refs p n) := by
  refine ⟨fun q hq => ?_, fun q hq => ?_, fun q hq => ⟨(h.free q hq).1, ?_⟩, h.free_nodup⟩
  · rw [update_apply, update_apply, h.count q hq]
  · rw [update_of_ne (by omega)]
    exact h.fresh q hq
  · rw [update_apply]
    split
    · rename_i heq
      exact hfree (heq ▸ hq)
    · exact (h.free q hq).2

/-- **One more reference** to an area that has one. -/
theorem retain : Counted (update count p (count p + 1)) next freeList
      (update refs p (refs p + 1)) := by
  rw [h.count p (h.lt_next hp)]
  exact h.set (h.lt_next hp) _ fun hmem => absurd hmem (h.not_free hp)

/-- **One reference less**; the area may be kept in the free list when it was the last. -/
theorem release {freeList' : List ℕ}
    (hfree : freeList' = freeList ∨ count p = 1 ∧ freeList' = p :: freeList) :
    Counted (update count p (count p - 1)) next freeList'
      (update refs p (refs p - 1)) := by
  have hlt := h.lt_next hp
  have hcount := h.count p hlt
  have hset := h.set hlt (refs p - 1) fun hmem => absurd hmem (h.not_free hp)
  rw [hcount]
  rcases hfree with rfl | ⟨hone, rfl⟩
  · exact hset
  · refine ⟨hset.count, hset.fresh, fun q hq => ?_,
      nodup_cons.mpr ⟨h.not_free hp, h.free_nodup⟩⟩
    rcases mem_cons.mp hq with rfl | hq
    · refine ⟨hlt, ?_⟩
      rw [update_self]
      omega
    · exact hset.free q hq

omit h hp

/-- **A free area is taken.** -/
theorem taken (h : Counted count next freeList refs) (fits : ℕ → Bool)
    (hfound : (take fits freeList).1 = some p) :
    refs p = 0 ∧
      Counted (update count p 1) next (take fits freeList).2 (update refs p 1) := by
  obtain ⟨hsub, hspec⟩ := take_spec fits freeList
  obtain ⟨hmem, -, hnot⟩ := hspec p hfound
  obtain ⟨hlt, hzero⟩ := h.free p hmem
  exact ⟨hzero, (h.sublist hsub).set hlt 1 fun hrest => absurd hrest (hnot h.free_nodup)⟩

/-- **A new area.** -/
theorem fresh_area (h : Counted count next freeList refs) (fits : ℕ → Bool) :
    Counted (update count next 1) (next + 1) (take fits freeList).2
      (update refs next 1) := by
  have hrest := h.sublist (take_spec fits freeList).1
  refine ⟨fun q hq => ?_, fun q hq => ?_, fun q hq => ?_, hrest.free_nodup⟩
  · rw [update_apply, update_apply]
    split
    · rfl
    · exact h.count q (by omega)
  · rw [update_of_ne (by omega)]
    exact h.fresh q (by omega)
  · obtain ⟨hlt, hzero⟩ := hrest.free q hq
    rw [update_of_ne (by omega)]
    exact ⟨by omega, hzero⟩

end Counted

/-! ## Areas and their owners -/

variable {σ : Type*} {ptr : σ → Option ℕ} {owners : List σ} {o : σ}

/-- The references are those of the owners. -/
def Owned (ptr : σ → Option ℕ) (count : ℕ → ℕ) (next : ℕ) (freeList : List ℕ)
    (owners : List σ) : Prop :=
  Counted count next freeList (RefCount.refs ptr owners)

namespace Owned

theorem refs_pos (ho : o ∈ owners) (hp : ptr o = some p) :
    0 < RefCount.refs ptr owners p := by
  unfold RefCount.refs
  rw [countP_pos_iff]
  exact ⟨o, ho, by rw [hp, beq_self_eq_true]⟩

theorem lt_next (h : Owned ptr count next freeList owners) (ho : o ∈ owners) (hp : ptr o = some p) :
    p < next :=
  Counted.lt_next h (refs_pos ho hp)

/-- Only how often an area is referred to matters. -/
theorem of_refs (h : Owned ptr count next freeList owners) {owners' : List σ}
    (hrefs : ∀ p, RefCount.refs ptr owners' p = RefCount.refs ptr owners p) :
    Owned ptr count next freeList owners' := by
  unfold Owned
  rw [funext hrefs]
  exact h

/-- The order of the owners does not matter. -/
theorem perm (h : Owned ptr count next freeList owners) {owners' : List σ}
    (hperm : owners'.Perm owners) : Owned ptr count next freeList owners' :=
  h.of_refs fun _ => hperm.countP_eq _

/-- An owner is replaced by one that points to the same area. -/
theorem congr_head {o o' : σ} (h : Owned ptr count next freeList (o :: owners))
    (ho : ptr o' = ptr o) : Owned ptr count next freeList (o' :: owners) := by
  refine h.of_refs fun p => ?_
  rw [RefCount.refs_cons, RefCount.refs_cons]
  unfold RefCount.share
  rw [ho]

/-- An owner without an area does not count. -/
theorem cons_none (ho : ptr o = none) :
    Owned ptr count next freeList (o :: owners) ↔ Owned ptr count next freeList owners := by
  have hrefs (p : ℕ) : RefCount.refs ptr (o :: owners) p = RefCount.refs ptr owners p := by
    rw [RefCount.refs_cons]
    unfold RefCount.share
    rw [ho]
    rfl
  exact ⟨fun h => h.of_refs fun p => (hrefs p).symm, fun h => h.of_refs hrefs⟩

/-- The references after an owner of `p` came. -/
theorem refs_cons_some (ho : ptr o = some p) :
    RefCount.refs ptr (o :: owners) =
      update (RefCount.refs ptr owners) p (RefCount.refs ptr owners p + 1) := by
  funext q
  rw [RefCount.refs_cons, update_apply]
  unfold RefCount.share
  rw [ho]
  split
  · rename_i heq
    rw [if_pos (Option.some_inj.mp heq).symm, Option.some_inj.mp heq]
  · rename_i hne
    rw [if_neg fun h => hne (congrArg some h.symm), Nat.add_zero]

/-- **One more owner** of an area that has one. -/
theorem retain (h : Owned ptr count next freeList owners) {o o' : σ} (ho' : o' ∈ owners)
    (hp' : ptr o' = some p) (hp : ptr o = some p) :
    Owned ptr (update count p (count p + 1)) next freeList (o :: owners) := by
  unfold Owned
  rw [refs_cons_some hp]
  exact Counted.retain h (refs_pos ho' hp')

/-- **One owner less**; the area may be kept in the free list when it was the last. -/
theorem release (h : Owned ptr count next freeList (o :: owners)) (hp : ptr o = some p)
    {freeList' : List ℕ} (hfree : freeList' = freeList ∨ count p = 1 ∧ freeList' = p :: freeList) :
    Owned ptr (update count p (count p - 1)) next freeList' owners := by
  have hleft := Counted.release h (refs_pos mem_cons_self hp) hfree
  rw [refs_cons_some hp, update_self, update_idem, Nat.add_sub_cancel,
    update_eq_self] at hleft
  exact hleft

/-- **A free area is taken.** -/
theorem taken (h : Owned ptr count next freeList owners) (fits : ℕ → Bool)
    (hfound : (take fits freeList).1 = some p) (hp : ptr o = some p) :
    Owned ptr (update count p 1) next (take fits freeList).2 (o :: owners) := by
  obtain ⟨hzero, htaken⟩ := Counted.taken h fits hfound
  unfold Owned
  rw [refs_cons_some hp, hzero]
  exact htaken

/-- **A new area.** -/
theorem fresh_area (h : Owned ptr count next freeList owners) (fits : ℕ → Bool)
    (hp : ptr o = some next) :
    Owned ptr (update count next 1) (next + 1) (take fits freeList).2 (o :: owners) := by
  unfold Owned
  rw [refs_cons_some hp, Counted.fresh h next (Nat.le_refl _)]
  exact Counted.fresh_area h fits

/-- The only owner of an area. -/
theorem ne_of_count_one {o o' : σ} (h : Owned ptr count next freeList (o :: owners))
    (hp : ptr o = some p) (hcount : count p = 1) (ho' : o' ∈ owners) : ptr o' ≠ some p := by
  intro hp'
  have hpos := refs_pos ho' hp'
  rw [Counted.count h p (h.lt_next mem_cons_self hp), refs_cons_some hp,
    update_self] at hcount
  omega

end Owned

end Pool
