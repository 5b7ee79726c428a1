/-
# The routes to the two-hop neighbours

The entries that `RoutingTableComputation` adds or overwrites for the two-hop tuples.
-/
import Ns3Dsme.Olsr.LinkRoutes

open List Function Program LevelSearch

namespace Ns3Dsme.Olsr.RoutingProtocol

variable {n : RoutingProtocol} {ipv4 : List (List Ipv4Address)} {table : RoutingTable}
  {tuple : TwoHopNeighborTuple} {pre : List TwoHopNeighborTuple} {x : Ipv4Address}

theorem willing_iff : n.Willing tuple ↔ (n.state.neighborSet.any fun neighbor =>
    neighbor.neighborMainAddr == tuple.neighborMainAddr &&
      !(neighbor.willingness == willNever)) = true := by
  simp [Willing]

theorem addTwoHopRoute_of_applies (hwilling : n.Willing tuple) (hstrict : n.Strict tuple)
    {entry : RoutingTableEntry} (hentry : table tuple.neighborMainAddr = some entry) :
    n.addTwoHopRoute table tuple = table.addEntry tuple.twoHopNeighborAddr entry.nextAddr
      entry.interface 2 (.twoHop tuple) := by
  unfold addTwoHopRoute
  rw [hstrict.1, if_neg (by simp), if_neg (by simp [hstrict.2]), if_pos (willing_iff.mp hwilling),
    hentry]

theorem addTwoHopRoute_of_not (h : n.Willing tuple → n.Strict tuple →
    table tuple.neighborMainAddr = none) : n.addTwoHopRoute table tuple = table := by
  unfold addTwoHopRoute
  split
  · rfl
  · rename_i hsym
    split
    · rfl
    · rename_i hself
      split
      · rename_i hwilling
        have hstrict : n.Strict tuple :=
          ⟨Option.not_isSome_iff_eq_none.mp hsym, fun heq => hself (beq_iff_eq.mpr heq)⟩
        rw [h (willing_iff.mpr hwilling) hstrict]
      · rfl

/-- A place in a list with one more element is the last one or a place in the list. -/
theorem snoc_eq_append_cons {α : Type} {as bs cs : List α} {a b : α} (h : as ++ [a] = bs ++ b :: cs) :
    (bs = as ∧ b = a ∧ cs = []) ∨ ∃ ds, cs = ds ++ [a] ∧ as = bs ++ b :: ds := by
  rcases eq_nil_or_concat cs with rfl | ⟨ds, d, rfl⟩
  · obtain ⟨hinit, hlast⟩ := append_inj' h rfl
    exact .inl ⟨hinit.symm, (List.cons.inj hlast).1.symm, rfl⟩
  · rw [concat_eq_append, ← cons_append, ← append_assoc] at h
    obtain ⟨hinit, hlast⟩ := append_inj' h rfl
    rw [concat_eq_append, (List.cons.inj hlast).1]
    exact .inr ⟨ds, rfl, hinit⟩

theorem entered_append {post : List TwoHopNeighborTuple} (h : n.Entered pre x) :
    n.Entered (pre ++ post) x := by
  cases h with
  | link h => exact .link h
  | twoHop hwilling hstrict h =>
    rw [append_assoc, cons_append]
    exact .twoHop hwilling hstrict h

theorem entered_snoc : n.Entered (pre ++ [tuple]) x ↔
    n.Entered pre x ∨ (n.Applies pre tuple ∧ tuple.twoHopNeighborAddr = x) := by
  constructor
  · intro h
    generalize hlist : pre ++ [tuple] = list at h
    cases h with
    | link h => exact .inl (.link h)
    | twoHop hwilling hstrict h =>
      rcases snoc_eq_append_cons hlist with ⟨rfl, rfl, rfl⟩ | ⟨ds, rfl, rfl⟩
      · exact .inr ⟨⟨hwilling, hstrict, h⟩, rfl⟩
      · exact .inl (.twoHop hwilling hstrict h)
  · rintro (h | ⟨h, rfl⟩)
    · exact entered_append h
    · exact .twoHop h.willing h.strict h.entered

/-- The entry was made for a tuple of the list, and no later tuple through a neighbour with a
live link has overwritten it. -/
structure MadeBy (n : RoutingProtocol) (direct : RoutingTable) (list : List TwoHopNeighborTuple)
    (e : RoutingTableEntry) (pre : List TwoHopNeighborTuple) (tuple : TwoHopNeighborTuple)
    (post : List TwoHopNeighborTuple) : Prop where
  list : list = pre ++ tuple :: post
  applies : n.Applies pre tuple
  source : e.source = .twoHop tuple
  distance : e.distance = 2
  last : ∀ u ∈ post, n.Willing u → n.Strict u → n.Direct u.neighborMainAddr →
    u.twoHopNeighborAddr ≠ tuple.twoHopNeighborAddr
  /-- It copies the entry of a link, unless that one had been overwritten. -/
  copied : ∃ f, e.nextAddr = f.nextAddr ∧ e.interface = f.interface ∧
    (direct tuple.neighborMainAddr = some f ∨ ∃ pre' t post', pre = pre' ++ t :: post' ∧
      n.Applies pre' t ∧ t.twoHopNeighborAddr = tuple.neighborMainAddr)

/-- The table after the two-hop tuples `pre`. -/
structure TwoHopsDone (n : RoutingProtocol) (direct : RoutingTable)
    (list : List TwoHopNeighborTuple) (table : RoutingTable) : Prop where
  entered : ∀ x, table x ≠ none ↔ n.Entered list x
  origin : ∀ x e, table x = some e → direct x = some e ∨
    ∃ pre t post, MadeBy n direct list e pre t post ∧ t.twoHopNeighborAddr = x
  written : ∀ pre t post, list = pre ++ t :: post → n.Applies pre t →
    ∃ e u, table t.twoHopNeighborAddr = some e ∧ e.source = .twoHop u ∧ u ∈ t :: post ∧
      n.Willing u ∧ n.Strict u ∧ u.twoHopNeighborAddr = t.twoHopNeighborAddr
  copies : ∀ x e, table x = some e → ∃ y f, direct y = some f ∧ e.nextAddr = f.nextAddr ∧
    e.interface = f.interface

variable {direct : RoutingTable}

theorem MadeBy.snoc {e : RoutingTableEntry} {pre' post' : List TwoHopNeighborTuple}
    {t : TwoHopNeighborTuple} (h : MadeBy n direct pre e pre' t post')
    (htuple : n.Applies pre tuple → tuple.twoHopNeighborAddr ≠ t.twoHopNeighborAddr) :
    MadeBy n direct (pre ++ [tuple]) e pre' t (post' ++ [tuple]) where
  list := by rw [h.list, append_assoc, cons_append]
  applies := h.applies
  source := h.source
  distance := h.distance
  last u hu hwilling hstrict hdirect := by
    rcases mem_append.mp hu with hu | hu
    · exact h.last u hu hwilling hstrict hdirect
    · rw [mem_singleton.mp hu] at hwilling hstrict hdirect ⊢
      exact htuple ⟨hwilling, hstrict, .link hdirect⟩
  copied := h.copied

/-- A tuple that does not apply. -/
theorem TwoHopsDone.skip (h : TwoHopsDone n direct pre table) (hnot : ¬ n.Applies pre tuple) :
    TwoHopsDone n direct (pre ++ [tuple]) table where
  entered x := by
    rw [h.entered, entered_snoc]
    exact ⟨.inl, fun hor => hor.resolve_right fun ⟨happlies, _⟩ => hnot happlies⟩
  origin x e he := by
    refine (h.origin x e he).imp_right ?_
    rintro ⟨pre', t, post', hmade, hx⟩
    exact ⟨pre', t, post' ++ [tuple], hmade.snoc fun happlies => absurd happlies hnot, hx⟩
  written pre' t post' hlist happlies := by
    rcases snoc_eq_append_cons hlist with ⟨rfl, rfl, rfl⟩ | ⟨ds, rfl, hpre⟩
    · exact absurd happlies hnot
    · obtain ⟨e, u, he, hsource, hu, hrest⟩ := h.written pre' t ds hpre happlies
      exact ⟨e, u, he, hsource, mem_append_left [tuple] hu, hrest⟩
  copies := h.copies

/-- A tuple that makes an entry. -/
theorem TwoHopsDone.apply (h : TwoHopsDone n direct pre table) (happlies : n.Applies pre tuple)
    {entry : RoutingTableEntry} (hentry : table tuple.neighborMainAddr = some entry) :
    TwoHopsDone n direct (pre ++ [tuple]) (table.addEntry tuple.twoHopNeighborAddr
      entry.nextAddr entry.interface 2 (.twoHop tuple)) := by
  unfold RoutingTable.addEntry
  refine ⟨fun x => ?_, fun x e he => ?_, fun pre' t post' hlist ht => ?_, fun x e he => ?_⟩
  · rw [entered_snoc]
    by_cases hx : x = tuple.twoHopNeighborAddr
    · rw [hx, update_self]
      exact ⟨fun _ => .inr ⟨happlies, rfl⟩, fun _ => Option.some_ne_none _⟩
    · rw [update_of_ne hx, h.entered]
      exact ⟨.inl, fun hor => hor.resolve_right fun ⟨_, heq⟩ => hx heq.symm⟩
  · by_cases hx : x = tuple.twoHopNeighborAddr
    · rw [hx, update_self] at he
      cases he
      refine .inr ⟨pre, tuple, [], ⟨rfl, happlies, rfl, rfl, ?_, entry, rfl, rfl, ?_⟩, hx.symm⟩
      · intro u hu
        cases hu
      · refine (h.origin _ _ hentry).imp_right ?_
        rintro ⟨pre', t, post', hmade, ht⟩
        exact ⟨pre', t, post', hmade.list, hmade.applies, ht⟩
    · rw [update_of_ne hx] at he
      refine (h.origin x e he).imp_right ?_
      rintro ⟨pre', t, post', hmade, rfl⟩
      exact ⟨pre', t, post' ++ [tuple], hmade.snoc fun _ heq => hx heq.symm, rfl⟩
  · by_cases hx : t.twoHopNeighborAddr = tuple.twoHopNeighborAddr
    · rw [hx, update_self]
      refine ⟨_, tuple, rfl, rfl, ?_, happlies.willing, happlies.strict, rfl⟩
      rcases snoc_eq_append_cons hlist with ⟨-, rfl, -⟩ | ⟨ds, rfl, -⟩
      · exact mem_cons_self
      · simp
    · rw [update_of_ne hx]
      rcases snoc_eq_append_cons hlist with ⟨-, rfl, -⟩ | ⟨ds, rfl, hpre⟩
      · exact absurd rfl hx
      · obtain ⟨e, u, he, hsource, hu, hrest⟩ := h.written pre' t ds hpre ht
        exact ⟨e, u, he, hsource, mem_append_left [tuple] hu, hrest⟩
  · by_cases hx : x = tuple.twoHopNeighborAddr
    · rw [hx, update_self] at he
      cases he
      obtain ⟨y, f, hf, hcopied⟩ := h.copies _ _ hentry
      exact ⟨y, f, hf, hcopied⟩
    · rw [update_of_ne hx] at he
      exact h.copies x e he

theorem TwoHopsDone.addTwoHopRoute (h : TwoHopsDone n direct pre table) :
    TwoHopsDone n direct (pre ++ [tuple]) (n.addTwoHopRoute table tuple) := by
  by_cases happlies : n.Applies pre tuple
  · obtain ⟨entry, hentry⟩ :=
      Option.ne_none_iff_exists'.mp ((h.entered tuple.neighborMainAddr).mpr happlies.entered)
    rw [addTwoHopRoute_of_applies happlies.willing happlies.strict hentry]
    exact h.apply happlies hentry
  · rw [addTwoHopRoute_of_not]
    · exact h.skip happlies
    · intro hwilling hstrict
      by_contra hne
      exact happlies ⟨hwilling, hstrict, (h.entered _).mp hne⟩

theorem IsDirectTable.twoHopsDone (h : n.IsDirectTable ipv4 direct) :
    TwoHopsDone n direct n.state.twoHopNeighborSet
      (n.state.twoHopNeighborSet.foldl n.addTwoHopRoute direct) := by
  refine foldl_done (TwoHopsDone n direct) _ _ (fun _ _ _ _ _ hs => hs.addTwoHopRoute) _
    ⟨fun x => ⟨fun hx => ?_, fun hx => ?_⟩, fun x e he => .inl he, ?_, fun x e he => ?_⟩
  · obtain ⟨e, he⟩ := Option.ne_none_iff_exists'.mp hx
    exact .link (h.entries.direct x e he)
  · generalize hlist : ([] : List TwoHopNeighborTuple) = list at hx
    cases hx with
    | link hx => exact h.reached x hx
    | twoHop _ _ _ => simp at hlist
  · intro pre' t post' hlist
    simp at hlist
  · exact ⟨x, e, he, rfl, rfl⟩

end Ns3Dsme.Olsr.RoutingProtocol
