/-
# The relays cover the two-hop neighbours

Whatever `MprComputation` chooses, every strict two-hop neighbour is reached by one of the relays.
-/
import Ns3Dsme.Olsr.MprComputation

open List

namespace Ns3Dsme.Olsr

namespace MprComputation

variable {all : List TwoHopNeighborTuple} {c : Choice}

/-- A relay reaches the address. -/
def Covered (all : List TwoHopNeighborTuple) (mprSet : List Ipv4Address)
    (twoHopNeighborAddr : Ipv4Address) : Prop :=
  ∃ u ∈ all, u.twoHopNeighborAddr = twoHopNeighborAddr ∧ u.neighborMainAddr ∈ mprSet

theorem Covered.mono {mprSet mprSet' : List Ipv4Address} {addr : Ipv4Address}
    (h : Covered all mprSet addr) (hsub : mprSet ⊆ mprSet') : Covered all mprSet' addr := by
  obtain ⟨u, hu, haddr, hmem⟩ := h
  exact ⟨u, hu, haddr, hsub hmem⟩

/-- What is not covered yet is still there to be covered. -/
structure Choice.Covers (all : List TwoHopNeighborTuple) (c : Choice) : Prop where
  subset : c.n2 ⊆ all
  covered : ∀ t ∈ all, t ∈ c.n2 ∨ Covered all c.mprSet t.twoHopNeighborAddr

/-- Two-hop neighbours are crossed off only when a relay reaches them. -/
theorem Choice.Covers.filter (h : c.Covers all) {mprSet : List Ipv4Address}
    (hsub : c.mprSet ⊆ mprSet) {keep : TwoHopNeighborTuple → Bool}
    (hkeep : ∀ t ∈ c.n2, keep t = false → Covered all mprSet t.twoHopNeighborAddr) :
    Choice.Covers all ⟨mprSet, c.n2.filter keep⟩ where
  subset t ht := h.subset (mem_filter.mp ht).1
  covered t ht := by
    rcases h.covered t ht with hmem | hcovered
    · cases hk : keep t with
      | true => exact .inl (mem_filter.mpr ⟨hmem, hk⟩)
      | false => exact .inr (hkeep t hmem hk)
    · exact .inr (hcovered.mono hsub)

/-- A relay is added, and what it reaches is crossed off. -/
theorem Choice.Covers.choose (h : c.Covers all) (neighborMainAddr : Ipv4Address) :
    Choice.Covers all ⟨c.mprSet.insert neighborMainAddr,
      coverTwoHopNeighbors neighborMainAddr c.n2⟩ := by
  refine h.filter (fun _ ha => mem_insert_of_mem ha) fun t ht hk => ?_
  rw [Bool.not_eq_false', contains_iff_mem, mem_map] at hk
  obtain ⟨u, hu, haddr⟩ := hk
  obtain ⟨hu_mem, hu_main⟩ := mem_filter.mp hu
  refine ⟨u, h.subset hu_mem, haddr, ?_⟩
  rw [beq_iff_eq.mp hu_main]
  exact mem_insert_self

theorem covers_chooseAlways (n : List NeighborTuple) (n2 : List TwoHopNeighborTuple) :
    Choice.Covers n2 (chooseAlways n n2) := by
  refine List.foldlRecOn (motive := Choice.Covers n2) _ _
    ⟨List.Subset.refl _, fun t ht => .inl ht⟩ fun c h neighbor _ => ?_
  split
  · exact h.choose neighbor.neighborMainAddr
  · exact h

/-- The relays that a list of tuples adds. -/
theorem mem_foldl_insert {ts : List TwoHopNeighborTuple} {mprSet : List Ipv4Address}
    {a : Ipv4Address} :
    a ∈ ts.foldl (fun mprSet t => mprSet.insert t.neighborMainAddr) mprSet ↔
      a ∈ mprSet ∨ ∃ t ∈ ts, t.neighborMainAddr = a := by
  induction ts generalizing mprSet with
  | nil => simp
  | cons t ts ih =>
    rw [foldl_cons, ih, mem_insert_iff, exists_mem_cons_iff]
    constructor
    · rintro ((rfl | h) | h)
      · exact .inr (.inl rfl)
      · exact .inl h
      · exact .inr (.inr h)
    · rintro (h | rfl | h)
      · exact .inl (.inr h)
      · exact .inl (.inl rfl)
      · exact .inr h

theorem Choice.Covers.chooseOnly (h : c.Covers all) : (chooseOnly c).Covers all := by
  refine h.filter (fun a ha => mem_foldl_insert.mpr (.inl ha)) fun t ht hk => ?_
  rw [Bool.not_eq_false', contains_iff_mem, mem_flatMap] at hk
  obtain ⟨only, honly, ht_covered⟩ := hk
  obtain ⟨u, hu, haddr⟩ := mem_map.mp ht_covered
  obtain ⟨hu_mem, hu_main⟩ := mem_filter.mp hu
  refine ⟨u, h.subset hu_mem, haddr, mem_foldl_insert.mpr (.inr ⟨only, honly, ?_⟩)⟩
  exact (beq_iff_eq.mp hu_main).symm

theorem Choice.Covers.chooseBest (s : OlsrState) (n : List NeighborTuple) {fuel : ℕ}
    (h : c.Covers all) {mprSet : List Ipv4Address} (hresult : chooseBest s n fuel c = some mprSet) :
    ∀ t ∈ all, Covered all mprSet t.twoHopNeighborAddr := by
  have hdone {c : Choice} (h : c.Covers all) (hempty : c.n2 = []) (t : TwoHopNeighborTuple)
      (ht : t ∈ all) : Covered all c.mprSet t.twoHopNeighborAddr := by
    refine (h.covered t ht).resolve_left fun hmem => ?_
    rw [hempty] at hmem
    cases hmem
  induction fuel generalizing c with
  | zero =>
    unfold MprComputation.chooseBest at hresult
    split at hresult
    · rename_i hempty
      rw [← Option.some.inj hresult]
      exact hdone h hempty
    · cases hresult
  | succ fuel ih =>
    unfold MprComputation.chooseBest at hresult
    split at hresult
    · rename_i hempty
      rw [← Option.some.inj hresult]
      exact hdone h hempty
    · split at hresult
      · exact ih (h.choose _) hresult
      · cases hresult

end MprComputation

open MprComputation in
/-- **Every two-hop neighbour is covered** by the relays that the computation ends with. -/
theorem OlsrState.covered_of_mprComputation {s : OlsrState} {mainAddress : Ipv4Address}
    {mprSet : List Ipv4Address} (h : s.mprComputation mainAddress = some mprSet)
    (t : TwoHopNeighborTuple) (ht : t ∈ twoHopNeighbors s mainAddress) :
    Covered (twoHopNeighbors s mainAddress) mprSet t.twoHopNeighborAddr :=
  (covers_chooseAlways _ _).chooseOnly.chooseBest s (symNeighbors s) h t ht

end Ns3Dsme.Olsr
