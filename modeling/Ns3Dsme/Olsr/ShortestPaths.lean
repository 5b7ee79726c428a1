/-
# The routing table as a tree of shortest paths

The stages of `RoutingTableComputation` put together.
-/
import Ns3Dsme.Olsr.TwoHopRoutes

open List Function Program LevelSearch

namespace Ns3Dsme.Olsr.RoutingProtocol

variable {n : RoutingProtocol} {ipv4 : List (List Ipv4Address)} {table direct : RoutingTable}
  {x : Ipv4Address}

/-- The next hop and the interface of every entry come from an entry of another table. -/
def Copies (table table' : RoutingTable) : Prop :=
  ∀ x e, table' x = some e → ∃ y f, table y = some f ∧ e.nextAddr = f.nextAddr ∧
    e.interface = f.interface

theorem Copies.trans {table' table'' : RoutingTable} (h : Copies table table')
    (h' : Copies table' table'') : Copies table table'' := by
  intro x e he
  obtain ⟨y, f, hf, hnext, hinterface⟩ := h' x e he
  obtain ⟨z, g, hg, hnext', hinterface'⟩ := h y f hf
  exact ⟨z, g, hg, hnext.trans hnext', hinterface.trans hinterface'⟩

/-- The table after the topology set has been read. -/
structure TopologyDone (twoHops table : RoutingTable) : Prop where
  keeps : Extends twoHops table
  /-- What the topology set adds follows the entry of the other end. -/
  origin : ∀ x e, table x = some e → twoHops x = some e ∨
    ∃ t, e.source = .topology t ∧ table.Follows e t.lastAddr
  copies : Copies twoHops table

/-- The table after the interface associations have been read. -/
structure IfacesDone (topology table : RoutingTable) : Prop where
  keeps : Extends topology table
  origin : ∀ x e, table x = some e → topology x = some e ∨ ∃ t, e.source = .ifaceAssoc t
  copies : Copies topology table

theorem topologyDone {topology : List TopologyTuple} {fuel : ℕ} {twoHops : RoutingTable}
    (h : addTopologyRoutes topology fuel 2 twoHops = some table) : TopologyDone twoHops table := by
  rw [addTopologyRoutes_eq] at h
  have hgrown := search_grown distance_extendRoute (Grown.refl twoHops) (Nat.le_refl 2) h
  refine ⟨hgrown.keeps, fun x e he => ?_, fun x e he => ?_⟩
  · refine (hgrown.grown x e he).imp_right ?_
    rintro ⟨-, t, -, -, c, hc, -, rfl⟩
    exact ⟨t, rfl, c, hc, rfl, rfl, rfl⟩
  · refine hgrown.inherit distance_extendRoute (P := fun e => ∃ y f, twoHops y = some f ∧
      e.nextAddr = f.nextAddr ∧ e.interface = f.interface) ?_ ?_ x e he
    · rintro t b ⟨y, f, hf, hcopied⟩
      exact ⟨y, f, hf, hcopied⟩
    · exact fun y f hf => ⟨y, f, hf, rfl, rfl⟩

theorem ifacesDone (topology : RoutingTable) (tuples : List IfaceAssocTuple) :
    IfacesDone topology (tuples.foldl addIfaceRoute topology) := by
  refine List.foldlRecOn (motive := IfacesDone topology) _ _
    ⟨.refl topology, fun _ _ he => .inl he, fun x e he => ⟨x, e, he, rfl, rfl⟩⟩
    fun table h t _ => ?_
  unfold addIfaceRoute
  split
  · rename_i entry hmain hiface
    unfold RoutingTable.addEntry
    refine ⟨fun x e he => ?_, fun x e he => ?_, fun x e he => ?_⟩
    · have hkept := h.keeps x e he
      rw [update_of_ne, hkept]
      rintro rfl
      rw [hiface] at hkept
      cases hkept
    · by_cases hx : x = t.ifaceAddr
      · rw [hx, update_self] at he
        cases he
        exact .inr ⟨t, rfl⟩
      · rw [update_of_ne hx] at he
        exact h.origin x e he
    · by_cases hx : x = t.ifaceAddr
      · rw [hx, update_self] at he
        cases he
        obtain ⟨y, f, hf, hcopied⟩ := h.copies _ _ hmain
        exact ⟨y, f, hf, hcopied⟩
      · rw [update_of_ne hx] at he
        exact h.copies x e he
  · exact h

/-- The stages of the computation. -/
structure Computed (n : RoutingProtocol) (ipv4 : List (List Ipv4Address))
    (direct twoHops topology table : RoutingTable) : Prop where
  isDirect : n.IsDirectTable ipv4 direct
  twoHopsDone : TwoHopsDone n direct n.state.twoHopNeighborSet twoHops
  search : addTopologyRoutes n.state.topologySet (n.state.topologySet.length + 1) 2 twoHops =
    some topology
  ifacesDone : IfacesDone topology table

/-- **The computation ends**, unless a link has the address of no interface. -/
theorem wp_routingTableComputation (n : RoutingProtocol) (ipv4 : List (List Ipv4Address)) :
    Wp (n.routingTableComputation ipv4)
      (fun table => ∃ direct twoHops topology, Computed n ipv4 direct twoHops topology table)
      fun _ => ¬ n.OwnInterfaces ipv4 := by
  unfold routingTableComputation
  rw [wp_bind]
  refine (wp_addNeighborRoutes n ipv4).imp fun direct hdirect => ?_
  have hends (twoHops : RoutingTable) : (addTopologyRoutes n.state.topologySet
      (n.state.topologySet.length + 1) 2 twoHops).isSome := by
    rw [addTopologyRoutes_eq]
    exact search_isSome distance_extendRoute (Nat.lt_succ_of_le countP_le_length)
  split
  · rename_i topology hsearch
    exact ⟨direct, _, topology, hdirect, hdirect.twoHopsDone, hsearch, ifacesDone _ _⟩
  · rename_i hnone
    have := hends (n.state.twoHopNeighborSet.foldl n.addTwoHopRoute direct)
    rw [hnone] at this
    cases this

namespace Computed

variable {twoHops topology : RoutingTable} {e : RoutingTableEntry}

variable (h : Computed n ipv4 direct twoHops topology table)
include h

theorem extends_twoHops : Extends twoHops table :=
  (topologyDone h.search).keeps.trans h.ifacesDone.keeps

variable {t : TwoHopNeighborTuple}

theorem twoHops_of_source (he : table x = some e) (hsource : e.source = .twoHop t) :
    twoHops x = some e := by
  rcases h.ifacesDone.origin x e he with he | ⟨t', ht'⟩
  · rcases (topologyDone h.search).origin x e he with he | ⟨t', ht', -⟩
    · exact he
    · rw [hsource] at ht'
      cases ht'
  · rw [hsource] at ht'
    cases ht'

theorem madeBy_of_source (he : twoHops x = some e) (hsource : e.source = .twoHop t) :
    ∃ pre post, MadeBy n direct n.state.twoHopNeighborSet e pre t post := by
  rcases h.twoHopsDone.origin x e he with he | ⟨pre, u, post, hmade, -⟩
  · obtain ⟨link, hlink⟩ := h.isDirect.entries.source x e he
    rw [hsource] at hlink
    cases hlink
  · have hsame := hmade.source
    rw [hsource] at hsame
    cases hsame
    exact ⟨pre, post, hmade⟩

theorem direct_of_distance (he : twoHops x = some e) (hdistance : e.distance = 1) : n.Direct x := by
  rcases h.twoHopsDone.origin x e he with he | ⟨pre, t, post, hmade, -⟩
  · exact h.isDirect.entries.direct x e he
  · have := hmade.distance
    omega

/-- A table of shortest paths has not lost the entry of a link. -/
theorem twoHopsApart (htree : n.IsShortestPathTree ipv4 table) : n.TwoHopsApart := by
  intro pre t post hlist happlies
  obtain ⟨e, u, he, hsource, hu, hwilling, hstrict, hsame⟩ :=
    h.twoHopsDone.written pre t post hlist happlies
  have htable := h.extends_twoHops _ _ he
  obtain ⟨pre', post', hmade⟩ := h.madeBy_of_source he hsource
  have hdistance := hmade.distance
  constructor
  · intro hdirect
    have hleast := (htree.shortest _ e htable (.inl ⟨u, hsource⟩)).2 (Path.start (.link hdirect))
    omega
  · obtain ⟨f, hf, hdist, -⟩ := htree.twoHop _ e u htable hsource
    -- the neighbour had an entry when it was looked up, and keeps it
    obtain ⟨g, hg⟩ := Option.ne_none_iff_exists'.mp
      ((h.twoHopsDone.entered u.neighborMainAddr).mpr (by
        rw [hmade.list]
        exact entered_append hmade.applies.entered))
    have hfg := h.extends_twoHops _ _ hg
    rw [hf] at hfg
    cases hfg
    have hdirect : n.Direct u.neighborMainAddr := h.direct_of_distance hg (by omega)
    rcases mem_cons.mp hu with rfl | hu
    · exact .inl hdirect
    · exact .inr ⟨u, hu, hwilling, hstrict, hdirect, hsame⟩

/-! ### The entries of the links stay -/

variable (hapart : n.TwoHopsApart)
include hapart

theorem direct_of_direct (he : twoHops x = some e) (hdirect : n.Direct x) : direct x = some e := by
  rcases h.twoHopsDone.origin x e he with he | ⟨pre, t, post, hmade, rfl⟩
  · exact he
  · exact absurd hdirect (hapart pre t post hmade.list hmade.applies).1

theorem extends_direct : Extends direct twoHops := by
  intro x e he
  have hdirect := h.isDirect.entries.direct x e he
  obtain ⟨f, hf⟩ := Option.ne_none_iff_exists'.mp ((h.twoHopsDone.entered x).mpr (.link hdirect))
  have hsame := h.direct_of_direct hapart hf hdirect
  rw [he] at hsame
  rw [hf, hsame]

omit h in
/-- A tuple whose entry has not been overwritten was looked up through a live link. -/
theorem direct_of_madeBy {list pre post : List TwoHopNeighborTuple}
    (hlist : list = n.state.twoHopNeighborSet) (hmade : MadeBy n direct list e pre t post) :
    n.Direct t.neighborMainAddr := by
  rcases (hapart pre t post (hlist ▸ hmade.list) hmade.applies).2 with hdirect | hlater
  · exact hdirect
  · obtain ⟨u, hu, hwilling, hstrict, hdirect, hsame⟩ := hlater
    exact absurd hsame (hmade.last u hu hwilling hstrict hdirect)

theorem represents :
    Represents TopologyTuple.lastAddr TopologyTuple.destAddr RoutingTableEntry.distance
      n.state.topologySet twoHops
      (n.PathStart fun tuple => n.Willing tuple ∧ n.Strict tuple) 2
      fun y x => n.Leads y x ∧ ¬ n.Direct y := by
  have hle (x : Ipv4Address) (e : RoutingTableEntry) (he : twoHops x = some e) :
      e.distance ≤ 2 := by
    rcases h.twoHopsDone.origin x e he with he | ⟨pre, t, post, hmade, -⟩
    · have := h.isDirect.entries.distance x e he
      omega
    · exact Nat.le_of_eq hmade.distance
  refine ⟨hle, fun x e he => ?_, fun k x hstart => ?_, fun t ht hlast => ⟨⟨t, ht, rfl, rfl⟩, ?_⟩,
    ?_⟩
  · rcases h.twoHopsDone.origin x e he with he | ⟨pre, t, post, hmade, rfl⟩
    · rw [h.isDirect.entries.distance x e he]
      exact .link (h.isDirect.entries.direct x e he)
    · rw [hmade.distance]
      refine .twoHop ?_ (direct_of_madeBy hapart rfl hmade)
        ⟨hmade.applies.willing, hmade.applies.strict⟩
      rw [hmade.list]
      simp
  · cases hstart with
    | link hdirect =>
      obtain ⟨e, he⟩ := Option.ne_none_iff_exists'.mp
        ((h.twoHopsDone.entered x).mpr (.link hdirect))
      have hold := h.direct_of_direct hapart he hdirect
      exact ⟨e, he, Nat.le_of_eq (h.isDirect.entries.distance x e hold)⟩
    | twoHop hmem hdirect hsecond =>
      obtain ⟨pre, post, hlist⟩ := append_of_mem hmem
      obtain ⟨e, he⟩ := Option.ne_none_iff_exists'.mp ((h.twoHopsDone.entered _).mpr (by
        rw [hlist]
        exact .twoHop hsecond.1 hsecond.2 (.link hdirect)))
      exact ⟨e, he, hle _ e he⟩
  · intro hdirect
    obtain ⟨e, he⟩ := Option.ne_none_iff_exists'.mp ((h.twoHopsDone.entered _).mpr (.link hdirect))
    have hold := h.direct_of_direct hapart he hdirect
    have hone := h.isDirect.entries.distance _ e hold
    have htwo := hlast e he
    omega
  · rintro y x ⟨⟨t, ht, rfl, rfl⟩, hdirect⟩
    refine ⟨fun e he => ?_, t, ht, rfl, rfl⟩
    rcases h.twoHopsDone.origin _ e he with he | ⟨pre, u, post, hmade, -⟩
    · exact absurd (h.isDirect.entries.direct _ e he) hdirect
    · exact Nat.le_of_eq hmade.distance.symm

/-- The distances are those of forward paths. -/
theorem shortest : Shortest RoutingTableEntry.distance
      (n.PathStart fun tuple => n.Willing tuple ∧ n.Strict tuple) 2
      (fun y x => n.Leads y x ∧ ¬ n.Direct y) topology := by
  have hsearch := h.search
  rw [addTopologyRoutes_eq] at hsearch
  exact (h.represents hapart).shortest distance_extendRoute hsearch

omit hapart in
/-- In a table of shortest paths no forward path is longer than another path. -/
theorem noShortcut (htree : n.IsShortestPathTree ipv4 table) : n.NoShortcut := by
  have hapart := h.twoHopsApart htree
  intro x k hforward m hpath
  obtain ⟨e, he, -⟩ := (h.shortest hapart).complete k x hforward
  have hsound := (h.shortest hapart).sound x e he
  have htable := h.ifacesDone.keeps x e he
  refine ⟨e.distance, ?_, hsound⟩
  rcases (topologyDone h.search).origin x e he with hold | ⟨t, ht, -⟩
  · rcases h.twoHopsDone.origin x e hold with hold | ⟨pre, t, post, hmade, -⟩
    · rw [h.isDirect.entries.distance x e hold]
      exact hpath.pos
    · exact (htree.shortest x e htable (.inl ⟨t, hmade.source⟩)).2 hpath
  · exact (htree.shortest x e htable (.inr ⟨t, ht⟩)).2 hpath

omit hapart in
theorem copies : Copies direct table :=
  (Copies.trans h.twoHopsDone.copies (topologyDone h.search).copies).trans h.ifacesDone.copies

/-- The entry of a two-hop tuple follows the entry of its neighbour. -/
theorem follows_of_madeBy {pre post : List TwoHopNeighborTuple}
    (hmade : MadeBy n direct n.state.twoHopNeighborSet e pre t post) :
    table.Follows e t.neighborMainAddr := by
  have hdirect := direct_of_madeBy hapart rfl hmade
  obtain ⟨f, hnext, hinterface, hf | ⟨pre', u, post', hpre, happlies, hu⟩⟩ := hmade.copied
  · refine ⟨f, h.extends_twoHops _ _ (h.extends_direct hapart _ _ hf), ?_, hnext, hinterface⟩
    rw [hmade.distance, h.isDirect.entries.distance _ f hf]
  · have hlist : n.state.twoHopNeighborSet = pre' ++ u :: (post' ++ t :: post) := by
      rw [hmade.list, hpre, append_assoc, cons_append]
    rw [← hu] at hdirect
    exact absurd hdirect (hapart pre' u _ hlist happlies).1

/-- **The table is a tree of shortest paths** under the conditions on the repositories. -/
theorem isShortestPathTree (hshortcut : n.NoShortcut) : n.IsShortestPathTree ipv4 table := by
  have hshortest := h.shortest hapart
  refine ⟨fun x e t he hsource => ?_, fun x e t he hsource => ?_, fun x e he hsource => ?_,
    fun x e he => ?_, fun x e he => ?_⟩
  · obtain ⟨pre, post, hmade⟩ :=
      h.madeBy_of_source (h.twoHops_of_source he hsource) hsource
    exact h.follows_of_madeBy hapart hmade
  · rcases h.ifacesDone.origin x e he with htopology | ⟨u, hu⟩
    · rcases (topologyDone h.search).origin x e htopology with htwoHops | ⟨u, hu, hfollows⟩
      · rcases h.twoHopsDone.origin x e htwoHops with hdirect | ⟨pre, u, post, hmade, -⟩
        · obtain ⟨link, hlink⟩ := h.isDirect.entries.source x e hdirect
          rw [hsource] at hlink
          cases hlink
        · have hmade_source := hmade.source
          rw [hsource] at hmade_source
          cases hmade_source
      · rw [hsource] at hu
        cases hu
        exact hfollows.extend h.ifacesDone.keeps
    · rw [hsource] at hu
      cases hu
  · have htopology : topology x = some e := by
      rcases h.ifacesDone.origin x e he with htopology | ⟨u, hu⟩
      · exact htopology
      · rcases hsource with ⟨t, ht⟩ | ⟨t, ht⟩
        · rw [ht] at hu
          cases hu
        · rw [ht] at hu
          cases hu
    have hsound := hshortest.sound x e htopology
    refine ⟨hsound.mono (fun k y => ?_) fun y z hleads => hleads.1, fun m hpath => ?_⟩
    · rintro (hdirect | ⟨hmem, hdirect, hsecond⟩)
      · exact .link hdirect
      · exact .twoHop hmem hdirect hsecond.1
    · obtain ⟨j, hj, hforward⟩ := hshortcut x _ hsound m hpath
      obtain ⟨f, hf, hle⟩ := hshortest.complete j x hforward
      rw [htopology] at hf
      cases hf
      exact hle.trans hj
  · obtain ⟨y, f, hf, hnext, hinterface⟩ := h.copies x e he
    obtain ⟨nb, link, hlink, hlink_next, hlink_interface⟩ := h.isDirect.entries.via y f hf
    exact ⟨nb, link, hlink, hnext.trans hlink_next, hlink_interface.trans (by rw [hinterface])⟩
  · obtain ⟨y, f, hf, hnext, -⟩ := h.copies x e he
    obtain ⟨g, hg, hsends⟩ := h.isDirect.entries.leadsOn y f hf
    have hkept : Extends direct table := (h.extends_direct hapart).trans h.extends_twoHops
    refine RoutingTable.Sends.exists_findSendEntry (.forward (f := g) ?_ (hsends.extend hkept))
    rw [hnext]
    exact hkept _ _ hg

end Computed

/-- **The routing table is a tree of shortest paths exactly if** the links have the addresses of
interfaces, no two-hop tuple replaces the entry of a link, and no path that comes back is
shorter. -/
theorem routesWell_iff (n : RoutingProtocol) (ipv4 : List (List Ipv4Address)) :
    n.RoutesWell ipv4 ↔ n.OwnInterfaces ipv4 ∧ n.TwoHopsApart ∧ n.NoShortcut := by
  have hcomputed := wp_routingTableComputation n ipv4
  constructor
  · rintro ⟨table, htable, htree⟩
    obtain ⟨direct, twoHops, topology, h⟩ := hcomputed.of_eq_ok htable
    exact ⟨h.isDirect.own, h.twoHopsApart htree, h.noShortcut htree⟩
  · rintro ⟨hown, hapart, hshortcut⟩
    cases htable : n.routingTableComputation ipv4 with
    | error fault => exact absurd hown (hcomputed.of_eq_error htable)
    | ok table =>
      obtain ⟨direct, twoHops, topology, h⟩ := hcomputed.of_eq_ok htable
      exact ⟨table, htable, h.isShortestPathTree hapart hshortcut⟩

/-- Node 1 has the neighbours 3 and 5 with the interfaces 4 and 6, and each of them has told it that
it hears that interface of the other one. -/
def loopingNode : RoutingProtocol where
  mainAddress := 1
  helloInterval := seconds 2
  topHoldVTime := 0
  state :=
    { linkSet := [⟨1, 4, 9, 9, 9⟩, ⟨1, 6, 9, 9, 9⟩]
      neighborSet := [⟨3, .sym, 3⟩, ⟨5, .sym, 3⟩]
      twoHopNeighborSet := [⟨3, 6, 9⟩, ⟨5, 4, 9⟩]
      ifaceAssocSet := [⟨4, 3, 9⟩, ⟨6, 5, 9⟩] }

/-- **It is not always one**: `FindSendEntry` goes back and forth between two interfaces. -/
theorem not_routesWell : ¬ ∀ (n : RoutingProtocol) (ipv4 : List (List Ipv4Address)),
    (n.state.neighborSet.map (·.neighborMainAddr)).Nodup → n.OwnInterfaces ipv4 →
      n.RoutesWell ipv4 := by
  intro hall
  have hown : loopingNode.OwnInterfaces [[1]] := by
    intro nb link hlink
    have hmem := hlink.mem_linkSet
    simp only [loopingNode, mem_cons, not_mem_nil, or_false] at hmem
    rcases hmem with rfl | rfl
    · decide
    · decide
  obtain ⟨table, htable, htree⟩ := hall loopingNode [[1]] (by decide) hown
  have hentries : (loopingNode.routingTableComputation [[1]]).map (fun t => (t 4, t 6)) =
      .ok (some ⟨4, 6, 0, 2, .twoHop ⟨5, 4, 9⟩⟩, some ⟨6, 4, 0, 2, .twoHop ⟨3, 6, 9⟩⟩) := by
    rfl
  rw [htable] at hentries
  obtain ⟨hfour, hsix⟩ := Prod.ext_iff.mp (Except.ok.inj hentries)
  obtain ⟨fuel, out, hsends⟩ := htree.sends 4 _ hfour
  have hendless := (RoutingTable.findSendEntry_endless (e := ⟨4, 6, 0, 2, .twoHop ⟨5, 4, 9⟩⟩)
    (f := ⟨6, 4, 0, 2, .twoHop ⟨3, 6, 9⟩⟩) (by decide) (by decide) hsix hfour fuel).1
  rw [hsends] at hendless
  cases hendless

end Ns3Dsme.Olsr.RoutingProtocol
