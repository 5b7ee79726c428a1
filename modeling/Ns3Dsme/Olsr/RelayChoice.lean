/-
# Which neighbours become relays

`MprComputation` ends, and what it ends with is what a set of multipoint relays should be: symmetric
neighbours that are willing, which have something to relay and which cover the two-hop neighbours.
-/
import Ns3Dsme.Olsr.RelayCover

open Bool List

namespace Ns3Dsme.Olsr

/-- Not this node, and not a symmetric neighbour. -/
def OlsrState.IsStrict (s : OlsrState) (mainAddress addr : Ipv4Address) : Prop :=
  addr ≠ mainAddress ∧ ∀ nb ∈ s.neighborSet, nb.status = .sym → nb.neighborMainAddr ≠ addr

/-- A symmetric neighbour with this address that is not `WILL_NEVER`. -/
structure OlsrState.WillingNeighbor (s : OlsrState) (addr : Ipv4Address) (nb : NeighborTuple) :
    Prop where
  mem : nb ∈ s.neighborSet
  main : nb.neighborMainAddr = addr
  sym : nb.status = .sym
  willing : nb.willingness ≠ willNever

/-- A willing neighbour that is `WILL_ALWAYS` or reaches a strict two-hop neighbour. -/
def OlsrState.IsRelay (s : OlsrState) (mainAddress addr : Ipv4Address) : Prop :=
  ∃ nb, s.WillingNeighbor addr nb ∧ (nb.willingness = willAlways ∨
    ∃ t ∈ s.twoHopNeighborSet, t.neighborMainAddr = addr ∧
      s.IsStrict mainAddress t.twoHopNeighborAddr)

/-- What the relays should be. -/
structure OlsrState.Relays (s : OlsrState) (mainAddress : Ipv4Address)
    (mprSet : List Ipv4Address) : Prop where
  isRelay : ∀ addr ∈ mprSet, s.IsRelay mainAddress addr
  covers : ∀ addr, s.IsStrict mainAddress addr →
    (∃ t ∈ s.twoHopNeighborSet, t.twoHopNeighborAddr = addr ∧
      ∃ nb, s.WillingNeighbor t.neighborMainAddr nb) →
    ∃ t ∈ s.twoHopNeighborSet, t.twoHopNeighborAddr = addr ∧ t.neighborMainAddr ∈ mprSet

namespace MprComputation

variable {s : OlsrState} {mainAddress addr : Ipv4Address}

/-! ## The two-hop neighbours -/

variable {n2 : List TwoHopNeighborTuple} {nb : NeighborTuple}

theorem mem_symNeighbors : nb ∈ symNeighbors s ↔ nb ∈ s.neighborSet ∧ nb.status = .sym := by
  unfold symNeighbors
  rw [mem_filter, beq_iff_eq]

theorem exists_of_willing (h : willing (symNeighbors s) addr = true) :
    ∃ nb, s.WillingNeighbor addr nb := by
  unfold willing at h
  split at h
  · rename_i nb hfind
    obtain ⟨hmem, hsym⟩ := mem_symNeighbors.mp (mem_of_find?_eq_some hfind)
    have hmain := List.find?_some hfind
    refine ⟨nb, hmem, beq_iff_eq.mp hmain, hsym, ?_⟩
    rw [not_eq_true', beq_eq_false_iff_ne] at h
    exact h
  · cases h

/-- Where no two neighbours have the same address, the first tuple is the only one. -/
theorem willing_of_willingNeighbor (hnodup : (s.neighborSet.map (·.neighborMainAddr)).Nodup) (h : s.WillingNeighbor addr nb) :
    willing (symNeighbors s) addr = true := by
  have hmem : nb ∈ symNeighbors s := mem_symNeighbors.mpr ⟨h.mem, h.sym⟩
  unfold willing
  split
  · rename_i nb' hfind
    obtain ⟨hmem', -⟩ := mem_symNeighbors.mp (mem_of_find?_eq_some hfind)
    have hmain := List.find?_some hfind
    have hsame : nb' = nb :=
      inj_on_of_nodup_map hnodup hmem' h.mem ((beq_iff_eq.mp hmain).trans h.main.symm)
    rw [hsame, not_eq_true', beq_eq_false_iff_ne]
    exact h.willing
  · rename_i hnone
    have hnot := List.find?_eq_none.mp hnone nb hmem
    exact absurd (beq_iff_eq.mpr h.main) hnot

theorem mem_twoHopNeighbors {t : TwoHopNeighborTuple} :
    t ∈ twoHopNeighbors s mainAddress ↔ t ∈ s.twoHopNeighborSet ∧
      s.IsStrict mainAddress t.twoHopNeighborAddr ∧
        willing (symNeighbors s) t.neighborMainAddr = true := by
  unfold twoHopNeighbors OlsrState.IsStrict
  rw [mem_filter, and_eq_true, and_eq_true, not_eq_true', not_eq_true',
    beq_eq_false_iff_ne, any_eq_false]
  constructor
  · rintro ⟨hmem, ⟨hself, hwilling⟩, hnone⟩
    refine ⟨hmem, ⟨hself, fun nb hnb hsym hmain => ?_⟩, hwilling⟩
    exact hnone nb (mem_symNeighbors.mpr ⟨hnb, hsym⟩) (beq_iff_eq.mpr hmain)
  · rintro ⟨hmem, ⟨hself, hnone⟩, hwilling⟩
    refine ⟨hmem, ⟨hself, hwilling⟩, fun nb hnb hmain => ?_⟩
    obtain ⟨hnb', hsym⟩ := mem_symNeighbors.mp hnb
    exact hnone nb hnb' hsym (beq_iff_eq.mp hmain)

/-- The neighbour of a tuple of `N2` may become a relay. -/
theorem isRelay_of_mem {t : TwoHopNeighborTuple} (ht : t ∈ twoHopNeighbors s mainAddress) :
    s.IsRelay mainAddress t.neighborMainAddr := by
  obtain ⟨hmem, hstrict, hwilling⟩ := mem_twoHopNeighbors.mp ht
  obtain ⟨nb, hnb⟩ := exists_of_willing hwilling
  exact ⟨nb, hnb, .inr ⟨t, hmem, rfl, hstrict⟩⟩

/-! ## What is chosen -/

/-- The relays are relays, and what is left belongs to `N2`. -/
structure Choice.Sound (s : OlsrState) (mainAddress : Ipv4Address) (c : Choice) : Prop where
  isRelay : ∀ addr ∈ c.mprSet, s.IsRelay mainAddress addr
  subset : c.n2 ⊆ twoHopNeighbors s mainAddress

variable {c : Choice}

/-- A relay is added. -/
theorem Choice.Sound.choose (h : c.Sound s mainAddress) (hrelay : s.IsRelay mainAddress addr) :
    Choice.Sound s mainAddress ⟨c.mprSet.insert addr, coverTwoHopNeighbors addr c.n2⟩ := by
  constructor
  · intro a ha
    rcases mem_insert_iff.mp ha with rfl | ha
    · exact hrelay
    · exact h.isRelay a ha
  · intro t ht
    exact h.subset (mem_filter.mp ht).1

/-- Step 1. -/
theorem sound_chooseAlways :
    (chooseAlways (symNeighbors s) (twoHopNeighbors s mainAddress)).Sound s mainAddress := by
  apply List.foldlRecOn (motive := Choice.Sound s mainAddress)
  · exact ⟨fun a ha => absurd ha not_mem_nil, List.Subset.refl _⟩
  · intro c h nb hnb
    split
    · rename_i halways
      obtain ⟨hmem, hsym⟩ := mem_symNeighbors.mp hnb
      have hwillingness := beq_iff_eq.mp halways
      refine h.choose ⟨nb, ⟨hmem, rfl, hsym, ?_⟩, .inl hwillingness⟩
      rw [hwillingness]
      decide
    · exact h

/-- Step 3. -/
theorem Choice.Sound.chooseOnly (h : c.Sound s mainAddress) :
    (chooseOnly c).Sound s mainAddress := by
  constructor
  · intro a ha
    rcases mem_foldl_insert.mp ha with ha | ⟨t, ht, rfl⟩
    · exact h.isRelay a ha
    · exact isRelay_of_mem (h.subset (mem_filter.mp ht).1)
  · intro t ht
    exact h.subset (mem_filter.mp ht).1

/-! ## A turn of the loop -/

theorem reachability_ne_zero :
    reachability n2 nb ≠ 0 ↔ ∃ t ∈ n2, t.neighborMainAddr = nb.neighborMainAddr := by
  unfold reachability
  rw [← Nat.pos_iff_ne_zero, countP_pos_iff]
  constructor
  · rintro ⟨t, ht, hmain⟩
    exact ⟨t, ht, (beq_iff_eq.mp hmain).symm⟩
  · rintro ⟨t, ht, hmain⟩
    exact ⟨t, ht, beq_iff_eq.mpr hmain.symm⟩

theorem mem_candidates {n : List NeighborTuple} : nb ∈ candidates n n2 ↔ nb ∈ n ∧ reachability n2 nb ≠ 0 := by
  unfold candidates
  rw [mem_flatMap]
  constructor
  · rintro ⟨r, hr, hnb⟩
    obtain ⟨hmem, hreach⟩ := mem_filter.mp hnb
    rw [mem_insertionSort] at hr
    obtain ⟨-, hzero⟩ := mem_filter.mp hr
    rw [not_eq_true', beq_eq_false_iff_ne] at hzero
    rw [beq_iff_eq.mp hreach]
    exact ⟨hmem, hzero⟩
  · rintro ⟨hmem, hne⟩
    refine ⟨reachability n2 nb, ?_, mem_filter.mpr ⟨hmem, beq_iff_eq.mpr rfl⟩⟩
    rw [mem_insertionSort]
    refine mem_filter.mpr ⟨mem_dedup.mpr (mem_map_of_mem hmem), ?_⟩
    rw [not_eq_true', beq_eq_false_iff_ne]
    exact hne

/-- The better one of two is one of them. -/
theorem better_cases (s : OlsrState) (n2 : List TwoHopNeighborTuple) (max : Option NeighborTuple)
    (nb : NeighborTuple) :
    better s n2 max nb = some nb ∨ ∃ m, max = some m ∧ better s n2 max nb = some m := by
  unfold better
  cases max with
  | none => exact .inl rfl
  | some m =>
    dsimp only
    split_ifs
    · exact .inl rfl
    · exact .inl rfl
    · exact .inl rfl
    · exact .inr ⟨m, rfl, rfl⟩
    · exact .inr ⟨m, rfl, rfl⟩

/-- The best neighbour is one of the candidates, and there is one as long as there are any. -/
theorem mem_of_foldl_better (s : OlsrState) (n2 : List TwoHopNeighborTuple)
    (nbs : List NeighborTuple) (max : Option NeighborTuple) (hmax : max ≠ none ∨ nbs ≠ []) :
    ∃ m, nbs.foldl (better s n2) max = some m ∧ (m ∈ nbs ∨ max = some m) := by
  induction nbs generalizing max with
  | nil =>
    obtain ⟨m, hm⟩ := Option.ne_none_iff_exists'.mp (hmax.resolve_right fun h => h rfl)
    exact ⟨m, hm, .inr hm⟩
  | cons nb nbs ih =>
    rw [foldl_cons]
    rcases better_cases s n2 max nb with hnew | ⟨old, hold, hkeep⟩
    · rw [hnew]
      obtain ⟨m, hm, hmem⟩ := ih (some nb) (.inl (Option.some_ne_none nb))
      refine ⟨m, hm, .inl ?_⟩
      rcases hmem with hmem | heq
      · exact mem_cons_of_mem _ hmem
      · rw [Option.some.inj heq]
        exact mem_cons_self
    · rw [hkeep, hold]
      obtain ⟨m, hm, hmem⟩ := ih (some old) (.inl (Option.some_ne_none old))
      exact ⟨m, hm, hmem.imp_left (mem_cons_of_mem _)⟩

/-- **A turn of the loop**: as long as something is left, there is a neighbour to choose, and it
reaches some of what is left. -/
theorem Choice.Sound.exists_best (h : c.Sound s mainAddress) (hn2 : c.n2 ≠ []) :
    ∃ max, (candidates (symNeighbors s) c.n2).foldl (better s c.n2) none = some max ∧
      max ∈ symNeighbors s ∧ ∃ t ∈ c.n2, t.neighborMainAddr = max.neighborMainAddr := by
  obtain ⟨t, ht⟩ := exists_mem_of_ne_nil _ hn2
  obtain ⟨-, -, hwilling⟩ := mem_twoHopNeighbors.mp (h.subset ht)
  obtain ⟨nb, hnb⟩ := exists_of_willing hwilling
  have hcandidate : nb ∈ candidates (symNeighbors s) c.n2 :=
    mem_candidates.mpr ⟨mem_symNeighbors.mpr ⟨hnb.mem, hnb.sym⟩,
      reachability_ne_zero.mpr ⟨t, ht, hnb.main.symm⟩⟩
  obtain ⟨max, hmax, hmem⟩ := mem_of_foldl_better s c.n2 _ none
    (.inr (ne_nil_of_mem hcandidate))
  rcases hmem with hmem | hnone
  · obtain ⟨hsym, hreach⟩ := mem_candidates.mp hmem
    exact ⟨max, hmax, hsym, reachability_ne_zero.mp hreach⟩
  · cases hnone

/-- A neighbour that reaches something covers at least one tuple. -/
theorem length_coverTwoHopNeighbors (h : ∃ t ∈ n2, t.neighborMainAddr = addr) :
    (coverTwoHopNeighbors addr n2).length < n2.length := by
  obtain ⟨t, ht, hmain⟩ := h
  unfold coverTwoHopNeighbors
  apply length_filter_lt_length_iff_exists.mpr
  refine ⟨t, ht, ?_⟩
  rw [not_eq_true, not_eq_false', contains_iff_mem]
  exact mem_map_of_mem (mem_filter.mpr ⟨ht, beq_iff_eq.mpr hmain⟩)

/-- **The loop ends**, and it adds relays. -/
theorem Choice.Sound.chooseBest (h : c.Sound s mainAddress) {fuel : ℕ}
    (hfuel : c.n2.length ≤ fuel) :
    ∃ mprSet, chooseBest s (symNeighbors s) fuel c = some mprSet ∧
      ∀ addr ∈ mprSet, s.IsRelay mainAddress addr := by
  induction fuel generalizing c with
  | zero =>
    have hempty := eq_nil_of_length_eq_zero (Nat.le_zero.mp hfuel)
    exact ⟨c.mprSet, if_pos hempty, h.isRelay⟩
  | succ fuel ih =>
    unfold MprComputation.chooseBest
    by_cases hempty : c.n2 = []
    · rw [if_pos hempty]
      exact ⟨c.mprSet, rfl, h.isRelay⟩
    · obtain ⟨max, hmax, -, t, ht, hmain⟩ := h.exists_best hempty
      rw [if_neg hempty, hmax]
      -- the turn covers a tuple
      have hless := length_coverTwoHopNeighbors ⟨t, ht, hmain⟩
      have hrelay := isRelay_of_mem (h.subset ht)
      rw [hmain] at hrelay
      exact ih (h.choose hrelay) (by dsimp only; omega)

end MprComputation

open MprComputation in
/-- **The computation ends with a set of relays** that are willing, of use, and cover the two-hop
neighbours. -/
theorem OlsrState.relays_mprComputation (s : OlsrState) (mainAddress : Ipv4Address)
    (hnodup : (s.neighborSet.map (·.neighborMainAddr)).Nodup) :
    ∃ mprSet, s.mprComputation mainAddress = some mprSet ∧ s.Relays mainAddress mprSet := by
  have hstart : (chooseAlways (symNeighbors s) (twoHopNeighbors s mainAddress)).Sound s mainAddress :=
    sound_chooseAlways
  obtain ⟨mprSet, hresult, hrelays⟩ := hstart.chooseOnly.chooseBest (Nat.le_refl _)
  refine ⟨mprSet, hresult, hrelays, ?_⟩
  rintro addr hstrict ⟨t, ht, rfl, nb, hnb⟩
  have hmem : t ∈ twoHopNeighbors s mainAddress :=
    mem_twoHopNeighbors.mpr ⟨ht, hstrict, willing_of_willingNeighbor hnodup hnb⟩
  obtain ⟨u, hu, haddr, hu'⟩ := s.covered_of_mprComputation hresult t hmem
  exact ⟨u, (mem_twoHopNeighbors.mp hu).1, haddr, hu'⟩

/-- Three neighbours of which one is always willing and one never. -/
def sampleNeighborhood : OlsrState where
  neighborSet := [⟨1, .sym, willNever⟩, ⟨2, .sym, willDefault⟩, ⟨3, .sym, willAlways⟩,
    ⟨4, .notSym, willDefault⟩]
  twoHopNeighborSet := [⟨1, 10, 0⟩, ⟨2, 11, 0⟩, ⟨3, 11, 0⟩, ⟨2, 4, 0⟩, ⟨2, 3, 0⟩]

theorem OlsrState.relays_mprComputation_sample :
    ∃ mprSet, sampleNeighborhood.mprComputation 9 = some mprSet ∧
      sampleNeighborhood.Relays 9 mprSet :=
  sampleNeighborhood.relays_mprComputation 9 (by decide)

end Ns3Dsme.Olsr
