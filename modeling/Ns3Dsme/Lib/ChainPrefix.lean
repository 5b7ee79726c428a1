/-
# The part of a chain that nobody else points to

A chain is walked from its head: the cells that were passed have one pointer each, and the heap
without them is what the others share.  Put back, they make the whole chain again.
-/
import Ns3Dsme.Lib.SharedChain

namespace SharedChain

variable {α : Type*}

/-- The cells from `head` to `o` are the chain's own; without them the heap is `k`. -/
inductive Held (k : Heap α) : Heap α → List (ℕ × α) → Option ℕ → Option ℕ → Prop
  | nil (o : Option ℕ) : Held k k [] o o
  | cons {h : Heap α} {p : ℕ} {a : α} {next o : Option ℕ} {ps : List (ℕ × α)}
      (hc : h.cells p = some ⟨next, 1, a⟩) (hlt : p < h.top)
      (hrest : Held k (h.set p none) ps next o) : Held k h ((p, a) :: ps) (some p) o

namespace Held

variable {h k : Heap α} {ps : List (ℕ × α)} {head o : Option ℕ} {p q : ℕ}

theorem top_eq (hh : Held k h ps head o) : h.top = k.top := by
  induction hh with
  | nil o => rfl
  | cons hc hlt hrest ih => exact ih

/-- The other cells are as they were. -/
theorem cells_of_some (hh : Held k h ps head o) {c : Cell α} (hc : k.cells p = some c) :
    h.cells p = some c := by
  induction hh with
  | nil o => exact hc
  | cons hc' hlt hrest ih =>
    rw [Heap.cells_set] at ih
    split at ih
    · cases ih
    · exact ih

theorem not_mem_of_some (hh : Held k h ps head o) {c : Cell α} (hc : k.cells p = some c) :
    p ∉ ps.map Prod.fst := by
  induction hh with
  | nil o => exact List.not_mem_nil
  | cons hc' hlt hrest ih =>
    rename_i h q a next o ps
    refine fun hmem => (List.mem_cons.mp hmem).elim (fun heq => ?_) ih
    have hcell := hrest.cells_of_some hc
    rw [heq, Heap.cells_set_self] at hcell
    cases hcell

theorem not_mem_of_none (hh : Held k h ps head o) (hc : h.cells p = none) :
    p ∉ ps.map Prod.fst := by
  induction hh with
  | nil o => exact List.not_mem_nil
  | cons hc' hlt hrest ih =>
    rename_i h q a next o ps
    have hne : p ≠ q := fun heq => by
      rw [heq, hc'] at hc
      cases hc
    refine fun hmem => (List.mem_cons.mp hmem).elim hne (ih ?_)
    rw [h.cells_set_of_ne _ hne]
    exact hc

/-- A change of another cell. -/
theorem set (hh : Held k h ps head o) (hq : q ∉ ps.map Prod.fst) (c : Option (Cell α)) :
    Held (k.set q c) (h.set q c) ps head o := by
  induction hh with
  | nil o => exact nil o
  | cons hc hlt hrest ih =>
    rename_i h p a next o ps
    have hne : p ≠ q := fun heq => hq (List.mem_cons.mpr (Or.inl heq.symm))
    refine cons ((h.cells_set_of_ne c hne).trans hc) hlt ?_
    rw [h.set_comm hne.symm c none]
    exact ih fun hmem => hq (List.mem_cons_of_mem _ hmem)

/-- The pointer to another cell counts once more. -/
theorem retain (hh : Held k h ps head o) {o' : Option ℕ} {as : List α} (hs : Spells k o' as) :
    Held (k.retain o') (h.retain o') ps head o := by
  cases hs with
  | nil => exact hh
  | cons hc hrest =>
    unfold Heap.retain
    dsimp only
    rw [hc, hh.cells_of_some hc]
    exact hh.set (hh.not_mem_of_some hc) _

/-- More room. -/
theorem grow (hh : Held k h ps head o) :
    Held { k with top := k.top + 1 } { h with top := h.top + 1 } ps head o := by
  induction hh with
  | nil o => exact nil o
  | cons hc hlt hrest ih => exact cons hc (Nat.lt_succ_of_lt hlt) ih

/-- **One cell further.** -/
theorem snoc (hh : Held k h ps head (some p)) {a : α} {next : Option ℕ}
    (hc : k.cells p = some ⟨next, 1, a⟩) (hlt : p < k.top) :
    Held (k.set p none) h (ps ++ [(p, a)]) head next := by
  obtain ⟨o, ho⟩ : ∃ o, o = some p := ⟨_, rfl⟩
  rw [← ho] at hh
  induction hh with
  | nil o' =>
    rw [ho]
    exact cons hc hlt (nil next)
  | cons hc' hlt' hrest ih => exact cons hc' hlt' (ih ho)

/-- The last pointer of an empty part is the head. -/
theorem relink_nil (hh : Held k h [] head o) (target : Option ℕ) : Held k h [] target target := by
  cases hh with
  | nil => exact nil target

/-- **The last cell gets another pointer.** -/
theorem relink (a : α) (hh : Held k h (ps ++ [(p, a)]) head o) (target : Option ℕ) :
    h.cells p = some ⟨o, 1, a⟩ ∧
      Held k (h.set p (some ⟨target, 1, a⟩)) (ps ++ [(p, a)]) head target := by
  induction ps generalizing h head with
  | nil =>
    cases hh with
    | cons hc hlt hrest =>
      cases hrest with
      | nil =>
        refine ⟨hc, cons (Heap.cells_set_self _ _ _) hlt ?_⟩
        rw [Heap.set_set]
        exact nil target
  | cons q ps ih =>
    cases hh with
    | cons hc hlt hrest =>
      rename_i q a' next
      obtain ⟨hcell, hlink⟩ := ih hrest
      rw [Heap.cells_set] at hcell
      split at hcell
      · cases hcell
      · rename_i hne
        refine ⟨hcell, cons ((h.cells_set_of_ne _ (Ne.symm hne)).trans hc) hlt ?_⟩
        rw [h.set_comm hne]
        exact hlink

/-- **The whole chain again.** -/
theorem attach (hh : Held k h ps head o) {as : List α} {roots : List (Option ℕ × List α)}
    (hs : Sound k ((o, as) :: roots)) : Sound h ((head, ps.map Prod.snd ++ as) :: roots) := by
  induction hh with
  | nil o => exact hs
  | cons hc hlt hrest ih =>
    rename_i h p a next o ps
    have hpush := (ih hs).push (h.cells_set_self p none) hlt a
    rw [Heap.set_set, ← hc, Heap.set_same] at hpush
    exact hpush

end Held

end SharedChain
