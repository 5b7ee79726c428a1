/-
# The routes to the neighbours

The entries that `RoutingTableComputation` adds for the links, and what they are.
-/
import Ns3Dsme.Olsr.RoutingPaths

open List Function Program LevelSearch

namespace Ns3Dsme.Olsr.RoutingProtocol

variable {n : RoutingProtocol} {ipv4 : List (List Ipv4Address)} {table : RoutingTable}
  {nb : NeighborTuple} {link : LinkTuple}

/-- The entries that the links have added. -/
structure DirectEntries (n : RoutingProtocol) (ipv4 : List (List Ipv4Address))
    (table : RoutingTable) : Prop where
  distance : ∀ x e, table x = some e → e.distance = 1
  source : ∀ x e, table x = some e → ∃ link, e.source = .link link
  direct : ∀ x e, table x = some e → n.Direct x
  via : ∀ x e, table x = some e → n.Via ipv4 e
  leadsOn : table.LeadsOn

/-- The entry of a link for an address that leads to its other end. -/
theorem DirectEntries.addEntry (h : n.DirectEntries ipv4 table) (hlink : n.LinkOf nb link) {i : ℕ}
    (hi : interfaceOf ipv4 link.localIfaceAddr = some i) {dest : Ipv4Address}
    (hdest : dest = link.neighborIfaceAddr ∨ dest = nb.neighborMainAddr)
    (hnext : dest ≠ link.neighborIfaceAddr → ∃ f, table link.neighborIfaceAddr = some f ∧
      f.destAddr = f.nextAddr) :
    n.DirectEntries ipv4 (table.addEntry dest link.neighborIfaceAddr i 1 (.link link)) := by
  unfold RoutingTable.addEntry
  refine ⟨fun x e he => ?_, fun x e he => ?_, fun x e he => ?_, fun x e he => ?_, ?_⟩
  · by_cases hx : x = dest
    · rw [hx, update_self] at he
      cases he
      rfl
    · rw [update_of_ne hx] at he
      exact h.distance x e he
  · by_cases hx : x = dest
    · rw [hx, update_self] at he
      cases he
      exact ⟨link, rfl⟩
    · rw [update_of_ne hx] at he
      exact h.source x e he
  · by_cases hx : x = dest
    · rw [hx]
      exact ⟨nb, link, hlink, hdest⟩
    · rw [update_of_ne hx] at he
      exact h.direct x e he
  · by_cases hx : x = dest
    · rw [hx, update_self] at he
      cases he
      exact ⟨nb, link, hlink, rfl, hi⟩
    · rw [update_of_ne hx] at he
      exact h.via x e he
  · by_cases hself : dest = link.neighborIfaceAddr
    · subst hself
      exact h.leadsOn.update (update_self _ _ _) (.arrived rfl)
    · obtain ⟨f, hf, hf_self⟩ := hnext hself
      refine h.leadsOn.update (g := f) ?_ (.arrived hf_self)
      rw [update_of_ne (Ne.symm hself), hf]

/-- Addresses keep their entries. -/
def Covers (table table' : RoutingTable) : Prop := ∀ x, table x ≠ none → table' x ≠ none

theorem covers_addEntry (table : RoutingTable) (dest next : Ipv4Address) (i distance : ℕ)
    (source : RouteSource) : Covers table (table.addEntry dest next i distance source) := by
  intro x hx
  unfold RoutingTable.addEntry
  by_cases hdest : x = dest
  · rw [hdest, update_self]
    exact Option.some_ne_none _
  · rw [update_of_ne hdest]
    exact hx

/-- What has been done for the link. -/
structure Linked (ipv4 : List (List Ipv4Address)) (table : RoutingTable) (link : LinkTuple) :
    Prop where
  iface : table link.neighborIfaceAddr ≠ none
  own : interfaceOf ipv4 link.localIfaceAddr ≠ none

theorem Linked.mono {table' : RoutingTable} (h : Linked ipv4 table link)
    (htable : Covers table table') : Linked ipv4 table' link := ⟨htable _ h.iface, h.own⟩

/-- The scan of the links for a neighbour, after the links `pre`. -/
structure Scanned (n : RoutingProtocol) (ipv4 : List (List Ipv4Address)) (nb : NeighborTuple)
    (table : RoutingTable) (pre : List LinkTuple) (scan : LinkScan) : Prop where
  entries : n.DirectEntries ipv4 scan.table
  covers : Covers table scan.table
  linked : ∀ link ∈ pre, n.uses nb link = true → Linked ipv4 scan.table link ∧ scan.lt ≠ none
  last : ∀ lt, scan.lt = some lt → n.LinkOf nb lt ∧
    ∃ f, scan.table lt.neighborIfaceAddr = some f ∧ f.destAddr = f.nextAddr
  mainAddr : scan.nbMainAddr = true → scan.table nb.neighborMainAddr ≠ none
  notMainAddr : scan.nbMainAddr = false → ∀ lt, scan.lt = some lt →
    lt.neighborIfaceAddr ≠ nb.neighborMainAddr

theorem Scanned.addLinkRoute {pre : List LinkTuple} {scan : LinkScan}
    (h : Scanned n ipv4 nb table pre scan) (hnb : nb ∈ n.state.neighborSet)
    (hsym : nb.status = .sym) (hlink : link ∈ n.state.linkSet) :
    Wp (n.addLinkRoute ipv4 nb scan link) (Scanned n ipv4 nb table (pre ++ [link]))
      fun _ => ¬ n.OwnInterfaces ipv4 := by
  unfold RoutingProtocol.addLinkRoute
  split
  · rename_i huses
    have hlinkOf : n.LinkOf nb link := ⟨hnb, hsym, hlink, huses⟩
    unfold RoutingTable.addLinkEntry
    split
    · rename_i i hi
      have hcovers := covers_addEntry scan.table link.neighborIfaceAddr link.neighborIfaceAddr i 1
        (.link link)
      have hself : scan.table.addEntry link.neighborIfaceAddr link.neighborIfaceAddr i 1
          (.link link) link.neighborIfaceAddr =
          some ⟨link.neighborIfaceAddr, link.neighborIfaceAddr, i, 1, .link link⟩ :=
        update_self _ _ _
      have hmarked : scan.table.addEntry link.neighborIfaceAddr link.neighborIfaceAddr i 1
          (.link link) link.neighborIfaceAddr ≠ none := by
        rw [hself]
        exact Option.some_ne_none _
      refine ⟨h.entries.addEntry hlinkOf hi (Or.inl rfl) fun hne => absurd rfl hne,
        fun x hx => hcovers x (h.covers x hx), fun l hl hl_uses => ?_, ?_, fun hmain => ?_,
        fun hmain => ?_⟩
      · refine ⟨?_, Option.some_ne_none _⟩
        rcases mem_append.mp hl with hl | hl
        · exact (h.linked l hl hl_uses).1.mono hcovers
        · rw [mem_singleton.mp hl]
          refine ⟨hmarked, ?_⟩
          rw [hi]
          exact Option.some_ne_none _
      · rintro lt ⟨⟩
        exact ⟨hlinkOf, _, hself, rfl⟩
      · rcases (Bool.or_eq_true _ _).mp hmain with hbefore | hthis
        · exact hcovers _ (h.mainAddr hbefore)
        · rw [← beq_iff_eq.mp hthis]
          exact hmarked
      · rintro lt ⟨⟩
        exact beq_eq_false_iff_ne.mp ((Bool.or_eq_false_iff.mp hmain).2)
    · rename_i hnone
      exact fun hown => hown nb link hlinkOf hnone
  · rename_i hunused
    refine ⟨h.entries, h.covers, fun l hl hl_uses => ?_, h.last, h.mainAddr, h.notMainAddr⟩
    rcases mem_append.mp hl with hl | hl
    · exact h.linked l hl hl_uses
    · rw [mem_singleton.mp hl] at hl_uses
      exact absurd hl_uses hunused

/-- The table after the neighbours `pre`. -/
structure NeighborsDone (n : RoutingProtocol) (ipv4 : List (List Ipv4Address))
    (pre : List NeighborTuple) (table : RoutingTable) : Prop where
  entries : n.DirectEntries ipv4 table
  linked : ∀ nb ∈ pre, ∀ link, n.LinkOf nb link → Linked ipv4 table link ∧
    table nb.neighborMainAddr ≠ none

theorem Scanned.addMainRoute {scan : LinkScan} (h : Scanned n ipv4 nb table n.state.linkSet scan) :
    Wp (addMainRoute ipv4 nb scan) (fun table' => n.DirectEntries ipv4 table' ∧
      Covers table table' ∧ ∀ link, n.LinkOf nb link → Linked ipv4 table' link ∧
        table' nb.neighborMainAddr ≠ none) fun _ => ¬ n.OwnInterfaces ipv4 := by
  unfold RoutingProtocol.addMainRoute
  split
  · rename_i lt hlt
    obtain ⟨hlink, f, hf, hself⟩ := h.last lt hlt
    split
    · rename_i hmain
      exact ⟨h.entries, h.covers, fun link hl =>
        ⟨(h.linked link hl.mem_linkSet hl.uses).1, h.mainAddr hmain⟩⟩
    · rename_i hmain
      have hne := h.notMainAddr (Bool.not_eq_true _ ▸ hmain) lt hlt
      unfold RoutingTable.addLinkEntry
      split
      · rename_i i hi
        have hcovers := covers_addEntry scan.table nb.neighborMainAddr lt.neighborIfaceAddr i 1
          (.link lt)
        refine ⟨h.entries.addEntry hlink hi (Or.inr rfl) fun _ => ⟨f, hf, hself⟩,
          fun x hx => hcovers x (h.covers x hx), fun link hl => ⟨?_, ?_⟩⟩
        · exact (h.linked link hl.mem_linkSet hl.uses).1.mono hcovers
        · unfold RoutingTable.addEntry
          rw [update_self]
          exact Option.some_ne_none _
      · rename_i hnone
        exact fun hown => hown nb lt hlink hnone
  · rename_i hnone
    exact ⟨h.entries, h.covers, fun link hl =>
      absurd hnone (h.linked link hl.mem_linkSet hl.uses).2⟩

theorem NeighborsDone.addNeighborRoutes {pre : List NeighborTuple}
    (h : NeighborsDone n ipv4 pre table) (hnb : nb ∈ n.state.neighborSet) :
    Wp (n.addNeighborRoutes ipv4 table nb) (NeighborsDone n ipv4 (pre ++ [nb]))
      fun _ => ¬ n.OwnInterfaces ipv4 := by
  unfold RoutingProtocol.addNeighborRoutes
  split
  · rename_i hsym
    have hstart : Scanned n ipv4 nb table [] ⟨table, none, false⟩ := by
      refine ⟨h.entries, fun _ hx => hx, ?_, ?_, ?_, ?_⟩
      · intro link hlink
        cases hlink
      · rintro lt ⟨⟩
      · rintro ⟨⟩
      · rintro - lt ⟨⟩
    rw [wp_bind]
    refine (wp_foldlM_done (Scanned n ipv4 nb table) _ _ _ (fun pre link post scan hlinks hscan =>
      hscan.addLinkRoute hnb hsym (by simp [hlinks])) _ hstart).imp fun scan hscan => ?_
    refine hscan.addMainRoute.imp ?_
    rintro table' ⟨hentries, hcovers, hlinked⟩
    refine ⟨hentries, fun nb' hnb' link hlink => ?_⟩
    rcases mem_append.mp hnb' with hnb' | hnb'
    · obtain ⟨hold, hmain⟩ := h.linked nb' hnb' link hlink
      exact ⟨hold.mono hcovers, hcovers _ hmain⟩
    · rw [mem_singleton.mp hnb'] at hlink ⊢
      exact hlinked link hlink
  · rename_i hsym
    refine ⟨h.entries, fun nb' hnb' link hlink => ?_⟩
    rcases mem_append.mp hnb' with hnb' | hnb'
    · exact h.linked nb' hnb' link hlink
    · rw [mem_singleton.mp hnb'] at hlink
      exact absurd hlink.sym hsym

/-- The table after all neighbours: exactly the addresses that links lead to have entries. -/
structure IsDirectTable (n : RoutingProtocol) (ipv4 : List (List Ipv4Address))
    (table : RoutingTable) : Prop where
  entries : n.DirectEntries ipv4 table
  own : n.OwnInterfaces ipv4
  reached : ∀ x, n.Direct x → table x ≠ none

theorem wp_addNeighborRoutes (n : RoutingProtocol) (ipv4 : List (List Ipv4Address)) :
    Wp (n.state.neighborSet.foldlM (n.addNeighborRoutes ipv4) fun _ => none)
      (n.IsDirectTable ipv4) fun _ => ¬ n.OwnInterfaces ipv4 := by
  have hempty : NeighborsDone n ipv4 [] fun _ => none := by
    refine ⟨⟨?_, ?_, ?_, ?_, ?_⟩, ?_⟩
    · rintro x e ⟨⟩
    · rintro x e ⟨⟩
    · rintro x e ⟨⟩
    · rintro x e ⟨⟩
    · rintro x e ⟨⟩
    · intro nb hnb
      cases hnb
  refine (wp_foldlM_done (NeighborsDone n ipv4) _ _ _ (fun pre nb post table hneighbors h =>
    h.addNeighborRoutes (by simp [hneighbors])) _ hempty).imp fun table h => ?_
  refine ⟨h.entries, fun nb link hlink => (h.linked nb hlink.mem_neighborSet link hlink).1.own, ?_⟩
  rintro x ⟨nb, link, hlink, rfl | rfl⟩
  · exact (h.linked nb hlink.mem_neighborSet link hlink).1.iface
  · exact (h.linked nb hlink.mem_neighborSet link hlink).2

end Ns3Dsme.Olsr.RoutingProtocol
