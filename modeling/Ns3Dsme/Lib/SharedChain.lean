/-
# Chains of counted cells that share their tails

Cells point to each other, and each counts how many pointers there are to it: from roots and from
other cells.  What is needed to change one chain without the others: a cell is taken off when it
has no other pointer, left to the others when it has, and put on again.
-/
import Ns3Dsme.Lib.RefCount
import Mathlib.Algebra.BigOperators.Group.Finset.Basic
import Mathlib.Algebra.Order.BigOperators.Group.Finset
import Mathlib.Data.List.Perm.Basic

open Function Option List

namespace SharedChain

/-- A cell, the pointer to the next one, and how many pointers there are to it. -/
structure Cell (α : Type*) where
  next : Option ℕ
  count : ℕ
  value : α

/-- The cells that are allocated, all below `top`. -/
structure Heap (α : Type*) where
  cells : ℕ → Option (Cell α)
  top : ℕ

variable {α : Type*}

namespace Heap

def set (h : Heap α) (p : ℕ) (c : Option (Cell α)) : Heap α :=
  { h with cells := update h.cells p c }

/-- The pointer to a cell counts once more. -/
def retain (h : Heap α) (o : Option ℕ) : Heap α :=
  match o with
  | none => h
  | some p => h.set p ((h.cells p).map fun c => { c with count := c.count + 1 })

theorem cells_set (h : Heap α) (p q : ℕ) (c : Option (Cell α)) :
    (h.set p c).cells q = if q = p then c else h.cells q :=
  update_apply _ _ _ _

@[simp] theorem cells_set_self (h : Heap α) (p : ℕ) (c : Option (Cell α)) :
    (h.set p c).cells p = c :=
  update_self _ _ _

theorem cells_set_of_ne (h : Heap α) {p q : ℕ} (c : Option (Cell α)) (hne : q ≠ p) :
    (h.set p c).cells q = h.cells q :=
  update_of_ne hne _ _

theorem set_set (h : Heap α) (p : ℕ) (c c' : Option (Cell α)) :
    (h.set p c).set p c' = h.set p c' := by
  unfold set
  dsimp only
  rw [update_idem]

theorem set_comm (h : Heap α) {p q : ℕ} (hne : p ≠ q) (c c' : Option (Cell α)) :
    (h.set p c).set q c' = (h.set q c').set p c := by
  unfold set
  dsimp only
  rw [update_comm hne]

theorem set_same (h : Heap α) (p : ℕ) : h.set p (h.cells p) = h := by
  unfold set
  rw [update_eq_self]

theorem retain_set (h : Heap α) {o : Option ℕ} {q : ℕ} (hne : o ≠ some q) (c : Option (Cell α)) :
    (h.set q c).retain o = (h.retain o).set q c := by
  cases o with
  | none => rfl
  | some p =>
    have hpq : p ≠ q := fun heq => hne (congrArg some heq)
    unfold retain
    dsimp only
    rw [h.cells_set_of_ne c hpq, h.set_comm hpq.symm]

theorem top_retain (h : Heap α) (o : Option ℕ) : (h.retain o).top = h.top := by
  cases o <;> rfl

theorem cells_retain_of_ne (h : Heap α) {o : Option ℕ} {q : ℕ} (hne : o ≠ some q) :
    (h.retain o).cells q = h.cells q := by
  cases o with
  | none => rfl
  | some p => exact h.cells_set_of_ne _ fun heq => hne (congrArg some heq.symm)

end Heap

/-- Following the pointers from `o` spells these values, and ends. -/
inductive Spells (h : Heap α) : Option ℕ → List α → Prop
  | nil : Spells h none []
  | cons {p : ℕ} {c : Cell α} {as : List α} (hc : h.cells p = some c) (hrest : Spells h c.next as) :
      Spells h (some p) (c.value :: as)

/-- Following the pointers from `o` leads to `p`. -/
inductive Reaches (h : Heap α) : Option ℕ → ℕ → Prop
  | here (p : ℕ) : Reaches h (some p) p
  | step {q p : ℕ} {c : Cell α} (hc : h.cells q = some c) (hrest : Reaches h c.next p) :
      Reaches h (some q) p

/-- Whether a cell points to `p`. -/
def link (c : Option (Cell α)) (p : ℕ) : ℕ := if c.bind Cell.next = some p then 1 else 0

/-- How many cells point to `p`. -/
def links (h : Heap α) (p : ℕ) : ℕ := ∑ q ∈ Finset.range h.top, link (h.cells q) p

/-- All roots show their values, every cell is reached from a root, and the counts are right. -/
structure Sound (h : Heap α) (roots : List (Option ℕ × List α)) : Prop where
  bounded : ∀ p c, h.cells p = some c → p < h.top
  shows : ∀ r ∈ roots, Spells h r.1 r.2
  reached : ∀ p c, h.cells p = some c → ∃ r ∈ roots, Reaches h r.1 p
  count : ∀ p c, h.cells p = some c → c.count = RefCount.refs Prod.fst roots p + links h p

variable {h h' : Heap α} {o : Option ℕ} {p : ℕ} {as : List α}
  {roots : List (Option ℕ × List α)}

/-! ## Pointers -/

/-- A cell is replaced: its pointer goes and that of the new one comes. -/
theorem links_set (hp : p < h.top) (c : Option (Cell α)) (q : ℕ) :
    links (h.set p c) q + link (h.cells p) q = links h q + link c q := by
  have hmem : p ∈ Finset.range h.top := Finset.mem_range.mpr hp
  have hrest : ∑ r ∈ (Finset.range h.top).erase p, link ((h.set p c).cells r) q =
      ∑ r ∈ (Finset.range h.top).erase p, link (h.cells r) q :=
    Finset.sum_congr rfl fun r hr => by rw [h.cells_set_of_ne c (Finset.ne_of_mem_erase hr)]
  have hnew : link c q + ∑ r ∈ (Finset.range h.top).erase p, link ((h.set p c).cells r) q =
      links (h.set p c) q := by
    have hadd := Finset.add_sum_erase (Finset.range h.top) (fun r => link ((h.set p c).cells r) q)
      hmem
    rw [Heap.cells_set_self] at hadd
    exact hadd
  have hold : link (h.cells p) q + ∑ r ∈ (Finset.range h.top).erase p, link (h.cells r) q =
      links h q :=
    Finset.add_sum_erase (Finset.range h.top) (fun r => link (h.cells r) q) hmem
  omega

/-- A change that leaves the pointer as it is. -/
theorem links_set_same (hp : p < h.top) {c : Option (Cell α)}
    (hc : c.bind Cell.next = (h.cells p).bind Cell.next) : links (h.set p c) = links h := by
  funext q
  have hset := links_set hp c q
  unfold link at hset
  rw [hc] at hset
  omega

/-- More room for cells. -/
theorem links_top (hcells : h'.cells = h.cells) (htop : h'.top = h.top + 1)
    (hfree : h.cells h.top = none) : links h' = links h := by
  funext q
  unfold links
  rw [hcells, htop, Finset.sum_range_succ, hfree]
  rfl

variable {c : Cell α} {q : ℕ}

theorem pos_links (hq : q < h.top) (hc : h.cells q = some c) (hnext : c.next = some p) :
    0 < links h p := by
  have hle : link (h.cells q) p ≤ links h p :=
    Finset.single_le_sum (f := fun q => link (h.cells q) p) (fun _ _ => Nat.zero_le _)
      (Finset.mem_range.mpr hq)
  have hone : link (h.cells q) p = 1 := by
    rw [hc]
    exact if_pos hnext
  omega

/-! ## Chains -/

theorem Spells.unique {as' : List α} (hs : Spells h o as) (hs' : Spells h o as') : as = as' := by
  induction hs generalizing as' with
  | nil =>
    cases hs'
    rfl
  | cons hc hrest ih =>
    cases hs' with
    | cons hc' hrest' =>
      rw [hc] at hc'
      cases hc'
      rw [ih hrest']

/-- Where a chain starts there is a cell. -/
theorem Spells.exists_cell (hs : Spells h (some p) as) : ∃ c, h.cells p = some c := by
  cases hs with
  | cons hc _ => exact ⟨_, hc⟩

theorem Spells.exists_cell_of_eq (hs : Spells h o as) (ho : o = some p) :
    ∃ c, h.cells p = some c := by
  subst ho
  exact hs.exists_cell

/-- The first cell of a chain, and what follows. -/
theorem Spells.uncons (hs : Spells h (some p) as) (hc : h.cells p = some c) :
    ∃ as', as = c.value :: as' ∧ Spells h c.next as' := by
  cases hs with
  | cons hc' hrest =>
    rw [hc] at hc'
    cases hc'
    exact ⟨_, rfl, hrest⟩

/-- What is reached shows a part of the values. -/
theorem Spells.suffix (hs : Spells h o as) (hr : Reaches h o p) :
    ∃ as', Spells h (some p) as' ∧ as' <:+ as := by
  induction hr generalizing as with
  | here p => exact ⟨as, hs, suffix_refl _⟩
  | step hc _ ih =>
    cases hs with
    | cons hc' hrest =>
      rw [hc] at hc'
      cases hc'
      obtain ⟨as', hs', hsuffix⟩ := ih hrest
      exact ⟨as', hs', hsuffix.trans (suffix_cons _ _)⟩

/-- **No cell leads back to itself.** -/
theorem Spells.not_reaches (hs : Spells h (some p) as) (hc : h.cells p = some c) :
    ¬ Reaches h c.next p := by
  intro hr
  cases hs with
  | cons hc' hrest =>
    rw [hc] at hc'
    cases hc'
    obtain ⟨as', hs', hsuffix⟩ := hrest.suffix hr
    have hsame := hs'.unique (Spells.cons hc hrest)
    have hlen := hsuffix.length_le
    rw [hsame, length_cons] at hlen
    omega

theorem Reaches.snoc (hr : Reaches h o q) (hc : h.cells q = some c) (hnext : c.next = some p) :
    Reaches h o p := by
  induction hr with
  | here q =>
    refine Reaches.step hc ?_
    rw [hnext]
    exact Reaches.here p
  | step hc' _ ih => exact Reaches.step hc' (ih hc)

theorem Reaches.trans (hr : Reaches h o p) (hr' : Reaches h (some p) q) :
    Reaches h o q := by
  induction hr with
  | here p => exact hr'
  | step hc _ ih => exact Reaches.step hc (ih hr')

theorem Reaches.ne_none (hr : Reaches h o p) : o ≠ none := by
  cases hr with
  | here => exact some_ne_none _
  | step => exact some_ne_none _

/-- Chains do not look at counts. -/
theorem Spells.congr (hs : Spells h o as)
    (hcells : ∀ q c, h.cells q = some c →
      ∃ c', h'.cells q = some c' ∧ c'.next = c.next ∧ c'.value = c.value) : Spells h' o as := by
  induction hs with
  | nil => exact Spells.nil
  | cons hc hrest ih =>
    obtain ⟨c', hc', hnext, hvalue⟩ := hcells _ _ hc
    rw [← hvalue]
    exact Spells.cons hc' (hnext ▸ ih)

theorem Reaches.congr (hr : Reaches h o p)
    (hcells : ∀ q c, h.cells q = some c → ∃ c', h'.cells q = some c' ∧ c'.next = c.next) :
    Reaches h' o p := by
  induction hr with
  | here p => exact Reaches.here p
  | step hc _ ih =>
    obtain ⟨c', hc', hnext⟩ := hcells _ _ hc
    exact Reaches.step hc' (hnext ▸ ih)

/-- A cell that nothing points to can go. -/
theorem Spells.erase (hs : Spells h o as) (ho : o ≠ some p)
    (hfree : ∀ q c, h.cells q = some c → c.next ≠ some p) : Spells (h.set p none) o as := by
  induction hs with
  | nil => exact Spells.nil
  | cons hc hrest ih =>
    rename_i q c as
    have hne : q ≠ p := fun heq => ho (congrArg some heq)
    exact Spells.cons ((h.cells_set_of_ne _ hne).trans hc) (ih (hfree q c hc))

theorem Reaches.erase (hr : Reaches h o q) (ho : o ≠ some p)
    (hfree : ∀ q c, h.cells q = some c → c.next ≠ some p) : Reaches (h.set p none) o q := by
  induction hr with
  | here q => exact Reaches.here q
  | step hc hrest ih =>
    rename_i q' r c
    have hne : q' ≠ p := fun heq => ho (congrArg some heq)
    exact Reaches.step ((h.cells_set_of_ne _ hne).trans hc) (ih (hfree q' c hc))

/-- A new cell disturbs no chain. -/
theorem Spells.insert (hs : Spells h o as) (hp : h.cells p = none) (c : Option (Cell α)) :
    Spells (h.set p c) o as := by
  induction hs with
  | nil => exact Spells.nil
  | cons hc hrest ih =>
    rename_i q c' as
    have hne : q ≠ p := fun heq => by
      rw [heq, hp] at hc
      cases hc
    exact Spells.cons ((h.cells_set_of_ne _ hne).trans hc) ih

theorem Reaches.insert (hr : Reaches h o q) (hp : h.cells p = none) (c : Option (Cell α)) :
    Reaches (h.set p c) o q := by
  induction hr with
  | here q => exact Reaches.here q
  | step hc hrest ih =>
    rename_i q' r c'
    have hne : q' ≠ p := fun heq => by
      rw [heq, hp] at hc
      cases hc
    exact Reaches.step ((h.cells_set_of_ne _ hne).trans hc) ih

/-- A cell whose count changes. -/
theorem cells_recount (hc : h.cells p = some c) (n q : ℕ) (d : Cell α) (hd : h.cells q = some d) :
    ∃ d', (h.set p (some { c with count := n })).cells q = some d' ∧
      d'.next = d.next ∧ d'.value = d.value := by
  by_cases heq : q = p
  · subst heq
    rw [hc] at hd
    cases hd
    exact ⟨_, h.cells_set_self q _, rfl, rfl⟩
  · exact ⟨d, (h.cells_set_of_ne _ heq).trans hd, rfl, rfl⟩

/-! ## Roots that move -/

namespace Sound

theorem refs_pos {r : Option ℕ × List α} (hr : r ∈ roots) (hp : r.1 = some p) :
    0 < RefCount.refs Prod.fst roots p := by
  unfold RefCount.refs
  rw [countP_pos_iff]
  exact ⟨r, hr, by rw [hp, beq_self_eq_true]⟩

theorem refs_cons (r : Option ℕ × List α) (q : ℕ) :
    RefCount.refs Prod.fst (r :: roots) q =
      RefCount.refs Prod.fst roots q + if r.1 = some q then 1 else 0 :=
  RefCount.refs_cons _ _ _ _

theorem perm (hs : Sound h roots) {roots' : List (Option ℕ × List α)} (hperm : roots'.Perm roots) :
    Sound h roots' := by
  refine ⟨hs.bounded, fun r hr => hs.shows r (hperm.subset hr), fun p c hc => ?_, fun p c hc => ?_⟩
  · obtain ⟨r, hr, hreach⟩ := hs.reached p c hc
    exact ⟨r, hperm.symm.subset hr, hreach⟩
  · rw [hs.count p c hc]
    exact congrArg (· + _) (hperm.countP_eq _).symm

variable {c : Cell α}

/-- What a root points to has a pointer. -/
theorem count_pos (hs : Sound h ((some p, as) :: roots)) (hc : h.cells p = some c) :
    0 < c.count := by
  have hcount := hs.count p c hc
  rw [refs_cons, if_pos rfl] at hcount
  omega

/-- What a root and a cell point to has two. -/
theorem one_lt_count (hs : Sound h ((o, as) :: roots)) (ho : o = some p) {c d : Cell α} {q : ℕ}
    (hc : h.cells p = some c) (hd : h.cells q = some d) (hnext : d.next = some p) :
    1 < c.count := by
  subst ho
  have hcount := hs.count p c hc
  have hpos := pos_links (hs.bounded q d hd) hd hnext
  rw [refs_cons, if_pos rfl] at hcount
  omega

theorem cells_top (hs : Sound h roots) : h.cells h.top = none := by
  cases hc : h.cells h.top with
  | none => rfl
  | some c => exact absurd (hs.bounded _ c hc) (lt_irrefl _)

/-- A root that points nowhere comes or goes. -/
theorem cons_nil (hs : Sound h roots) : Sound h ((none, []) :: roots) := by
  refine ⟨hs.bounded, fun r hr => ?_, fun p c hc => ?_, fun p c hc => ?_⟩
  · rcases mem_cons.mp hr with rfl | hr
    · exact Spells.nil
    · exact hs.shows r hr
  · obtain ⟨r, hr, hreach⟩ := hs.reached p c hc
    exact ⟨r, mem_cons_of_mem _ hr, hreach⟩
  · rw [hs.count p c hc, refs_cons]
    rfl

theorem of_cons_none (hs : Sound h ((none, as) :: roots)) : Sound h roots := by
  refine ⟨hs.bounded, fun r hr => hs.shows r (mem_cons_of_mem _ hr), fun p c hc => ?_,
    fun p c hc => ?_⟩
  · obtain ⟨r, hr, hreach⟩ := hs.reached p c hc
    rcases mem_cons.mp hr with rfl | hr
    · exact absurd rfl hreach.ne_none
    · exact ⟨r, hr, hreach⟩
  · rw [hs.count p c hc, refs_cons]
    rfl

/-- **The only pointer to a cell is that of a root**: the cell can go, and the root moves on. -/
theorem pop (hs : Sound h ((some p, as) :: roots)) (hc : h.cells p = some c) (hone : c.count = 1) :
    ∃ as', as = c.value :: as' ∧ Sound (h.set p none) ((c.next, as') :: roots) := by
  have hp := hs.bounded p c hc
  have hcount := hs.count p c hc
  rw [refs_cons, if_pos rfl] at hcount
  -- nobody else points to it
  have hroots : ∀ r ∈ roots, r.1 ≠ some p := by
    intro r hr heq
    have hpos := refs_pos hr heq
    omega
  have hcells : ∀ q d, h.cells q = some d → d.next ≠ some p := by
    intro q d hd heq
    have hpos := pos_links (hs.bounded q d hd) hd heq
    omega
  have hshow := hs.shows _ mem_cons_self
  dsimp only at hshow
  cases hshow with
  | cons hc' hrest =>
    rename_i c' as'
    rw [hc] at hc'
    cases hc'
    refine ⟨as', rfl, fun q d hd => ?_, fun r hr => ?_, fun q d hd => ?_, fun q d hd => ?_⟩
    · rw [Heap.cells_set] at hd
      split at hd
      · cases hd
      · exact hs.bounded q d hd
    · rcases mem_cons.mp hr with rfl | hr
      · exact hrest.erase (hcells p c hc) hcells
      · exact (hs.shows r (mem_cons_of_mem _ hr)).erase (hroots r hr) hcells
    · rw [Heap.cells_set] at hd
      split at hd
      · cases hd
      · rename_i hne
        obtain ⟨r, hr, hreach⟩ := hs.reached q d hd
        rcases mem_cons.mp hr with rfl | hr
        · dsimp only at hreach
          cases hreach with
          | here => exact absurd rfl hne
          | step hc' hrest' =>
            rw [hc] at hc'
            cases hc'
            exact ⟨_, mem_cons_self, hrest'.erase (hcells p c hc) hcells⟩
        · exact ⟨r, mem_cons_of_mem _ hr, hreach.erase (hroots r hr) hcells⟩
    · rw [Heap.cells_set] at hd
      split at hd
      · cases hd
      · rename_i hne
        have hq := hs.count q d hd
        have hlinks := links_set hp (none : Option (Cell α)) q
        rw [refs_cons, if_neg fun heq => hne (some_inj.mp heq).symm] at hq
        rw [refs_cons]
        have hnone : link (none : Option (Cell α)) q = 0 := rfl
        rw [hnone, hc] at hlinks
        unfold link at hlinks
        rw [bind_some] at hlinks
        dsimp only
        omega

/-- **Others point to the cell as well**: the root leaves it to them. -/
theorem unshare (hs : Sound h ((some p, as) :: roots)) (hc : h.cells p = some c)
    (hmany : 1 < c.count) :
    Sound (h.set p (some { c with count := c.count - 1 })) roots := by
  have hp := hs.bounded p c hc
  have hrecount := cells_recount hc (c.count - 1)
  have hcount := hs.count p c hc
  rw [refs_cons, if_pos rfl] at hcount
  have hshow := hs.shows _ mem_cons_self
  dsimp only at hshow
  have hreaches : ∀ {r : Option ℕ} {q : ℕ}, Reaches h r q →
      Reaches (h.set p (some { c with count := c.count - 1 })) r q := fun hr =>
    hr.congr fun q d hd => by
      obtain ⟨d', hd', hnext, -⟩ := hrecount q d hd
      exact ⟨d', hd', hnext⟩
  -- the cell itself is reached from another root
  have hother : ∃ r ∈ roots, Reaches h r.1 p := by
    by_cases hzero : RefCount.refs Prod.fst roots p = 0
    · have hpos : links h p ≠ 0 := by omega
      obtain ⟨q, hq, hlink⟩ := Finset.exists_ne_zero_of_sum_ne_zero hpos
      unfold link at hlink
      split at hlink
      · rename_i hnext
        obtain ⟨d, hd, hnext⟩ := bind_eq_some_iff.mp hnext
        obtain ⟨r, hr, hreach⟩ := hs.reached q d hd
        rcases mem_cons.mp hr with rfl | hr
        · -- it would lead back to itself
          exfalso
          refine hshow.not_reaches hc ?_
          dsimp only at hreach
          cases hreach with
          | here =>
            rw [hc] at hd
            cases hd
            rw [hnext]
            exact Reaches.here p
          | step hc' hrest' =>
            rw [hc] at hc'
            cases hc'
            exact hrest'.snoc hd hnext
        · exact ⟨r, hr, hreach.snoc hd hnext⟩
      · exact absurd rfl hlink
    · have hpos := Nat.pos_of_ne_zero hzero
      unfold RefCount.refs at hpos
      rw [countP_pos_iff] at hpos
      obtain ⟨r, hr, hbeq⟩ := hpos
      refine ⟨r, hr, ?_⟩
      rw [eq_of_beq hbeq]
      exact Reaches.here p
  refine ⟨fun q d hd => ?_, fun r hr => ?_, fun q d hd => ?_, fun q d hd => ?_⟩
  · rw [Heap.cells_set] at hd
    split at hd
    · rename_i heq
      rw [heq]
      exact hp
    · exact hs.bounded q d hd
  · exact (hs.shows r (mem_cons_of_mem _ hr)).congr hrecount
  · have hold : ∃ d, h.cells q = some d := by
      rw [Heap.cells_set] at hd
      split at hd
      · rename_i heq
        exact ⟨c, heq ▸ hc⟩
      · exact ⟨d, hd⟩
    obtain ⟨d', hd'⟩ := hold
    obtain ⟨r, hr, hreach⟩ := hs.reached q d' hd'
    rcases mem_cons.mp hr with rfl | hr
    · -- what the root reached is reached through the cell
      obtain ⟨r', hr', hreach'⟩ := hother
      exact ⟨r', hr', hreaches (hreach'.trans hreach)⟩
    · exact ⟨r, hr, hreaches hreach⟩
  · have hlinks := links_set_same hp
      (c := some { c with count := c.count - 1 }) (by rw [hc]; rfl)
    rw [hlinks]
    rw [Heap.cells_set] at hd
    split at hd
    · rename_i heq
      cases hd
      rw [heq]
      dsimp only
      omega
    · rename_i hne
      have hq := hs.count q d hd
      rw [refs_cons, if_neg fun heq => hne (some_inj.mp heq).symm] at hq
      exact hq

/-- **One more root** at a place whose values are known. -/
theorem retain (hs : Sound h roots) (ho : Spells h o as) :
    Sound (h.retain o) ((o, as) :: roots) := by
  cases ho with
  | nil => exact hs.cons_nil
  | cons hc hrest =>
    rename_i p c as
    have hp := hs.bounded p c hc
    have hretain : h.retain (some p) = h.set p (some { c with count := c.count + 1 }) := by
      unfold Heap.retain
      dsimp only
      rw [hc, map_some]
    have hrecount := cells_recount hc (c.count + 1)
    have hreaches : ∀ {r : Option ℕ} {q : ℕ}, Reaches h r q →
        Reaches (h.set p (some { c with count := c.count + 1 })) r q := fun hr =>
      hr.congr fun q d hd => by
        obtain ⟨d', hd', hnext, -⟩ := hrecount q d hd
        exact ⟨d', hd', hnext⟩
    rw [hretain]
    refine ⟨fun q d hd => ?_, fun r hr => ?_, fun q d hd => ?_, fun q d hd => ?_⟩
    · rw [Heap.cells_set] at hd
      split at hd
      · rename_i heq
        rw [heq]
        exact hp
      · exact hs.bounded q d hd
    · rcases mem_cons.mp hr with rfl | hr
      · exact (Spells.cons hc hrest).congr hrecount
      · exact (hs.shows r hr).congr hrecount
    · have hold : ∃ d, h.cells q = some d := by
        rw [Heap.cells_set] at hd
        split at hd
        · rename_i heq
          exact ⟨c, heq ▸ hc⟩
        · exact ⟨d, hd⟩
      obtain ⟨d', hd'⟩ := hold
      obtain ⟨r, hr, hreach⟩ := hs.reached q d' hd'
      exact ⟨r, mem_cons_of_mem _ hr, hreaches hreach⟩
    · have hlinks := links_set_same hp
        (c := some { c with count := c.count + 1 }) (by rw [hc]; rfl)
      rw [hlinks, refs_cons]
      dsimp only
      rw [Heap.cells_set] at hd
      split at hd
      · rename_i heq
        cases hd
        have hq := hs.count p c hc
        rw [heq, if_pos rfl]
        dsimp only
        omega
      · rename_i hne
        rw [if_neg fun heq => hne (some_inj.mp heq).symm]
        exact hs.count q d hd

/-- **A cell is put before a root.** -/
theorem push (hs : Sound h ((o, as) :: roots)) {q : ℕ} (hq : h.cells q = none) (hlt : q < h.top)
    (a : α) : Sound (h.set q (some ⟨o, 1, a⟩)) ((some q, a :: as) :: roots) := by
  have hshow := hs.shows _ mem_cons_self
  dsimp only at hshow
  have hself := h.cells_set_self q (some ⟨o, 1, a⟩)
  -- nothing pointed to the cell before
  have hcells : ∀ r d, h.cells r = some d → d.next ≠ some q := by
    intro r d hd heq
    obtain ⟨r', hr', hreach⟩ := hs.reached r d hd
    have hreach' := hreach.snoc hd heq
    obtain ⟨as', hs', -⟩ := (hs.shows r' hr').suffix hreach'
    obtain ⟨c, hc⟩ := hs'.exists_cell
    rw [hq] at hc
    cases hc
  have hroots : ∀ r ∈ (o, as) :: roots, r.1 ≠ some q := by
    intro r hr heq
    have hs' := hs.shows r hr
    rw [heq] at hs'
    obtain ⟨c, hc⟩ := hs'.exists_cell
    rw [hq] at hc
    cases hc
  refine ⟨fun p c hc => ?_, fun r hr => ?_, fun p c hc => ?_, fun p c hc => ?_⟩
  · rw [Heap.cells_set] at hc
    split at hc
    · rename_i heq
      rw [heq]
      exact hlt
    · exact hs.bounded p c hc
  · rcases mem_cons.mp hr with rfl | hr
    · exact Spells.cons hself (hshow.insert hq _)
    · exact (hs.shows r (mem_cons_of_mem _ hr)).insert hq _
  · rw [Heap.cells_set] at hc
    split at hc
    · rename_i heq
      rw [heq]
      exact ⟨_, mem_cons_self, Reaches.here q⟩
    · obtain ⟨r, hr, hreach⟩ := hs.reached p c hc
      rcases mem_cons.mp hr with rfl | hr
      · exact ⟨_, mem_cons_self, Reaches.step hself (hreach.insert hq _)⟩
      · exact ⟨r, mem_cons_of_mem _ hr, hreach.insert hq _⟩
  · have hlinks := links_set hlt (some ⟨o, 1, a⟩) p
    have hnone : link (none : Option (Cell α)) p = 0 := rfl
    have hsome : link (some (⟨o, 1, a⟩ : Cell α)) p = if o = some p then 1 else 0 := rfl
    rw [hq, hnone, hsome] at hlinks
    rw [refs_cons]
    dsimp only
    rw [Heap.cells_set] at hc
    split at hc
    · rename_i heq
      cases hc
      subst heq
      have hzero : RefCount.refs Prod.fst roots p = 0 := by
        by_contra hne
        have hpos := Nat.pos_of_ne_zero hne
        unfold RefCount.refs at hpos
        rw [countP_pos_iff] at hpos
        obtain ⟨r, hr, hbeq⟩ := hpos
        exact hroots r (mem_cons_of_mem _ hr) (eq_of_beq hbeq)
      have hnolinks : links h p = 0 := by
        refine Finset.sum_eq_zero fun r _ => ?_
        refine if_neg fun hnext => ?_
        obtain ⟨d, hd, hnext⟩ := bind_eq_some_iff.mp hnext
        exact hcells r d hd hnext
      rw [if_neg (hroots _ mem_cons_self)] at hlinks
      rw [if_pos rfl]
      dsimp only
      omega
    · rename_i hne
      have hp := hs.count p c hc
      rw [refs_cons] at hp
      rw [if_neg fun heq => hne (some_inj.mp heq).symm]
      dsimp only at hp
      omega

/-- **There is room for one cell more.** -/
theorem grow (hs : Sound h roots) : Sound { h with top := h.top + 1 } roots := by
  have hfree := hs.cells_top
  have hsame : ∀ q c, h.cells q = some c →
      ∃ c', ({ h with top := h.top + 1 } : Heap α).cells q = some c' ∧ c'.next = c.next ∧
        c'.value = c.value := fun q c hc => ⟨c, hc, rfl, rfl⟩
  refine ⟨fun p c hc => (hs.bounded p c hc).trans (Nat.lt_succ_self _),
    fun r hr => (hs.shows r hr).congr hsame, fun p c hc => ?_, fun p c hc => ?_⟩
  · obtain ⟨r, hr, hreach⟩ := hs.reached p c hc
    refine ⟨r, hr, hreach.congr fun q d hd => ⟨d, hd, rfl⟩⟩
  · have hlinks : links ({ h with top := h.top + 1 } : Heap α) = links h := links_top rfl rfl hfree
    rw [hlinks]
    exact hs.count p c hc

end Sound

/-! ## How long a chain can be -/

/-- The cells of a chain. -/
theorem Spells.exists_path (hs : Spells h o as) :
    ∃ ps : List ℕ, ps.length = as.length ∧ ps.Nodup ∧ ∀ p ∈ ps, Reaches h o p ∧
      ∃ c, h.cells p = some c := by
  induction hs with
  | nil => exact ⟨[], rfl, nodup_nil, fun p hp => absurd hp not_mem_nil⟩
  | cons hc hrest ih =>
    rename_i p c as
    obtain ⟨ps, hlen, hnodup, hreach⟩ := ih
    refine ⟨p :: ps, by rw [length_cons, length_cons, hlen],
      nodup_cons.mpr ⟨fun hmem => ?_, hnodup⟩, fun q hq => ?_⟩
    · exact (Spells.cons hc hrest).not_reaches hc (hreach p hmem).1
    · rcases mem_cons.mp hq with rfl | hq
      · exact ⟨Reaches.here q, c, hc⟩
      · exact ⟨Reaches.step hc (hreach q hq).1, (hreach q hq).2⟩

/-- **A chain is no longer than there are cells.** -/
theorem Sound.length_le (hs : Sound h roots) (ho : Spells h o as) : as.length ≤ h.top := by
  obtain ⟨ps, hlen, hnodup, hps⟩ := ho.exists_path
  have hsub : ps ⊆ List.range h.top := by
    intro p hp
    obtain ⟨-, c, hc⟩ := hps p hp
    exact mem_range.mpr (hs.bounded p c hc)
  have hle := (subperm_of_subset hnodup hsub).length_le
  rwa [length_range, hlen] at hle

end SharedChain
