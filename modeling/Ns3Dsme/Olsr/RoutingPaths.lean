/-
# Paths through the repositories of OLSR

What the routing table should be: its distances are the lengths of shortest paths, and its next
hops lead on to a neighbour.  The conditions on the repositories under which it is.
-/
import Ns3Dsme.Olsr.RoutingTable

open Function Program LevelSearch

namespace Ns3Dsme.Olsr

/-- The entry follows that of another address, which is one hop nearer. -/
def RoutingTable.Follows (table : RoutingTable) (entry : RoutingTableEntry)
    (other : Ipv4Address) : Prop :=
  ∃ f, table other = some f ∧ entry.distance = f.distance + 1 ∧ entry.nextAddr = f.nextAddr ∧
    entry.interface = f.interface

theorem RoutingTable.Follows.extend {table table' : RoutingTable} {e : RoutingTableEntry}
    {other : Ipv4Address} (h : table.Follows e other) (htable : Extends table table') :
    table'.Follows e other := by
  obtain ⟨f, hf, hfollows⟩ := h
  exact ⟨f, htable _ _ hf, hfollows⟩

/-! ## Paths -/

namespace RoutingProtocol

variable (n : RoutingProtocol) (ipv4 : List (List Ipv4Address))

/-- A live link of a symmetric neighbour. -/
structure LinkOf (nb : NeighborTuple) (link : LinkTuple) : Prop where
  mem_neighborSet : nb ∈ n.state.neighborSet
  sym : nb.status = .sym
  mem_linkSet : link ∈ n.state.linkSet
  uses : n.uses nb link = true

/-- A link leads to the interface at its other end and to the node that has this interface. -/
def Direct (x : Ipv4Address) : Prop :=
  ∃ nb link, n.LinkOf nb link ∧ (x = link.neighborIfaceAddr ∨ x = nb.neighborMainAddr)

/-- A neighbour that the tuple belongs to is not `WILL_NEVER`. -/
def Willing (tuple : TwoHopNeighborTuple) : Prop :=
  ∃ nb ∈ n.state.neighborSet, nb.neighborMainAddr = tuple.neighborMainAddr ∧
    nb.willingness ≠ willNever

/-- The tuple is not about this node or a symmetric neighbour. -/
def Strict (tuple : TwoHopNeighborTuple) : Prop :=
  n.state.findSymNeighborTuple tuple.twoHopNeighborAddr = none ∧
    tuple.twoHopNeighborAddr ≠ n.mainAddress

/-- The first step of a path is a link.  The second one is a two-hop tuple of the neighbour. -/
inductive PathStart (second : TwoHopNeighborTuple → Prop) : ℕ → Ipv4Address → Prop
  | link {x : Ipv4Address} (h : n.Direct x) : PathStart second 1 x
  | twoHop {tuple : TwoHopNeighborTuple} (hmem : tuple ∈ n.state.twoHopNeighborSet)
      (h : n.Direct tuple.neighborMainAddr) (hsecond : second tuple) :
      PathStart second 2 tuple.twoHopNeighborAddr

/-- A topology tuple from `y` to `x`. -/
def Leads (y x : Ipv4Address) : Prop :=
  ∃ tuple ∈ n.state.topologySet, tuple.lastAddr = y ∧ tuple.destAddr = x

/-- There is a path of length `k`: a link, a two-hop tuple of a neighbour that is not
`WILL_NEVER`, then topology tuples. -/
def HasPath : ℕ → Ipv4Address → Prop := Path (n.PathStart n.Willing) 2 n.Leads

/-- Likewise, but the path neither comes back to this node or to a symmetric neighbour in its
second step, nor goes on from an address that a link leads to. -/
def HasForwardPath : ℕ → Ipv4Address → Prop :=
  Path (n.PathStart fun tuple => n.Willing tuple ∧ n.Strict tuple) 2
    fun y x => n.Leads y x ∧ ¬ n.Direct y

theorem HasPath.pos {n : RoutingProtocol} {k : ℕ} {x : Ipv4Address} (h : n.HasPath k x) :
    1 ≤ k := by
  cases h with
  | start h =>
    cases h with
    | link _ => exact Nat.le_refl 1
    | twoHop _ _ _ => decide
  | step _ _ _ => exact Nat.succ_pos _

/-! ## What the table should be, and when it is -/

/-- The next hop is the interface of a symmetric neighbour, with a live link on the interface of
the entry. -/
def Via (entry : RoutingTableEntry) : Prop :=
  ∃ nb link, n.LinkOf nb link ∧ entry.nextAddr = link.neighborIfaceAddr ∧
    interfaceOf ipv4 link.localIfaceAddr = some entry.interface

/-- **What is expected of the table.** -/
structure IsShortestPathTree (table : RoutingTable) : Prop where
  twoHop : ∀ x e t, table x = some e → e.source = .twoHop t → table.Follows e t.neighborMainAddr
  topology : ∀ x e t, table x = some e → e.source = .topology t → table.Follows e t.lastAddr
  shortest : ∀ x e, table x = some e →
    (∃ t, e.source = .twoHop t) ∨ (∃ t, e.source = .topology t) →
      IsLeast {k | n.HasPath k x} e.distance
  via : ∀ x e, table x = some e → n.Via ipv4 e
  sends : ∀ x e, table x = some e → ∃ fuel out, table.findSendEntry fuel e = some (some out)

/-- The computation ends, and with such a table. -/
def RoutesWell : Prop :=
  ∃ table, n.routingTableComputation ipv4 = .ok table ∧ n.IsShortestPathTree ipv4 table

/-- The local address of every link is that of an interface. -/
def OwnInterfaces : Prop :=
  ∀ nb link, n.LinkOf nb link → interfaceOf ipv4 link.localIfaceAddr ≠ none

/-- The addresses with an entry after the two-hop tuples of a list. -/
inductive Entered : List TwoHopNeighborTuple → Ipv4Address → Prop
  | link {pre : List TwoHopNeighborTuple} {x : Ipv4Address} (h : n.Direct x) : Entered pre x
  | twoHop {pre post : List TwoHopNeighborTuple} {tuple : TwoHopNeighborTuple}
      (hwilling : n.Willing tuple) (hstrict : n.Strict tuple)
      (h : Entered pre tuple.neighborMainAddr) :
      Entered (pre ++ tuple :: post) tuple.twoHopNeighborAddr

/-- The tuple makes an entry, when it comes after the tuples `pre`. -/
structure Applies (pre : List TwoHopNeighborTuple) (tuple : TwoHopNeighborTuple) : Prop where
  willing : n.Willing tuple
  strict : n.Strict tuple
  entered : n.Entered pre tuple.neighborMainAddr

/-- No two-hop tuple overwrites the entry of an address that a link leads to.  One that is looked
up through a neighbour without a live link is put right by a later one. -/
def TwoHopsApart : Prop :=
  ∀ pre t post, n.state.twoHopNeighborSet = pre ++ t :: post → n.Applies pre t →
    ¬ n.Direct t.twoHopNeighborAddr ∧
      (n.Direct t.neighborMainAddr ∨ ∃ u ∈ post, n.Willing u ∧ n.Strict u ∧
        n.Direct u.neighborMainAddr ∧ u.twoHopNeighborAddr = t.twoHopNeighborAddr)

/-- Paths that come back are not shorter. -/
def NoShortcut : Prop :=
  ∀ x k, n.HasForwardPath k x → ∀ m, n.HasPath m x → ∃ j ≤ m, n.HasForwardPath j x

end RoutingProtocol

/-! ## Going along the next hops -/

namespace RoutingTable

variable {table table' : RoutingTable} {e f : RoutingTableEntry} {x : Ipv4Address}

/-- `FindSendEntry` gets from an entry to one that is its own next hop. -/
inductive Sends (table : RoutingTable) : RoutingTableEntry → Prop
  | arrived {e : RoutingTableEntry} (h : e.destAddr = e.nextAddr) : Sends table e
  | forward {e f : RoutingTableEntry} (h : table e.nextAddr = some f) (hf : Sends table f) :
      Sends table e

theorem Sends.exists_findSendEntry (h : table.Sends e) :
    ∃ fuel out, table.findSendEntry fuel e = some (some out) := by
  induction h with
  | arrived h => exact ⟨1, _, if_pos h⟩
  | @forward e f h _ ih =>
    obtain ⟨fuel, out, hout⟩ := ih
    by_cases hself : e.destAddr = e.nextAddr
    · exact ⟨1, _, if_pos hself⟩
    · refine ⟨fuel + 1, out, ?_⟩
      unfold findSendEntry
      rw [if_neg hself, h]
      exact hout

/-- Two entries that are each other's next hop. -/
theorem findSendEntry_endless (he : e.destAddr ≠ e.nextAddr) (hf : f.destAddr ≠ f.nextAddr)
    (hef : table e.nextAddr = some f) (hfe : table f.nextAddr = some e) (fuel : ℕ) :
    table.findSendEntry fuel e = none ∧ table.findSendEntry fuel f = none := by
  induction fuel with
  | zero => exact ⟨rfl, rfl⟩
  | succ fuel ih =>
    unfold findSendEntry
    rw [if_neg he, if_neg hf, hef, hfe]
    exact ih.symm

theorem Sends.extend (h : table.Sends e) (htable : Extends table table') : table'.Sends e := by
  induction h with
  | arrived h => exact .arrived h
  | forward h _ ih => exact .forward (htable _ _ h) ih

/-- A new entry from which one gets on is no obstacle to others. -/
theorem Sends.update (h : table.Sends e) (hf : Sends (update table x (some f)) f) :
    Sends (update table x (some f)) e := by
  induction h with
  | arrived h => exact .arrived h
  | @forward e g h _ ih =>
    by_cases hx : e.nextAddr = x
    · refine .forward (f := f) ?_ hf
      rw [hx, update_self]
    · refine .forward (f := g) ?_ ih
      rw [update_of_ne hx, h]

/-- One gets on from the next hop of every entry. -/
def LeadsOn (table : RoutingTable) : Prop :=
  ∀ x e, table x = some e → ∃ f, table e.nextAddr = some f ∧ table.Sends f

theorem LeadsOn.update (h : table.LeadsOn) {g : RoutingTableEntry}
    (hnext : update table x (some f) f.nextAddr = some g)
    (hsends : Sends (update table x (some f)) g) :
    LeadsOn (Function.update table x (some f)) := by
  have hf : Sends (Function.update table x (some f)) f := .forward hnext hsends
  intro y e he
  by_cases hy : y = x
  · rw [hy, Function.update_self] at he
    cases he
    exact ⟨g, hnext, hsends⟩
  · rw [update_of_ne hy] at he
    obtain ⟨g', hg', hg'_sends⟩ := h y e he
    by_cases hx : e.nextAddr = x
    · exact ⟨f, by rw [hx, update_self], hf⟩
    · exact ⟨g', by rw [update_of_ne hx, hg'], hg'_sends.update hf⟩

end RoutingTable

end Ns3Dsme.Olsr
