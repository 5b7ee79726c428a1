/-
# The routing table of OLSR

`RoutingTableComputation` fills the table from the repositories: the symmetric neighbours with
their interfaces come first, then the two-hop neighbours, then level by level what the topology
set adds, and last the other interfaces of the nodes.  `FindSendEntry` goes along the next hops.
-/
import Ns3Dsme.Lib.Program
import Ns3Dsme.Lib.LevelSearch
import Ns3Dsme.Olsr.RoutingProtocol

open Program

namespace Ns3Dsme.Olsr

/-- The tuple that an entry was added from. -/
inductive RouteSource
  | link (tuple : LinkTuple)
  | twoHop (tuple : TwoHopNeighborTuple)
  | topology (tuple : TopologyTuple)
  | ifaceAssoc (tuple : IfaceAssocTuple)
  deriving DecidableEq

structure RoutingTableEntry where
  destAddr : Ipv4Address
  nextAddr : Ipv4Address
  /-- The index of an interface. -/
  interface : ℕ
  distance : ℕ
  /-- A ghost. -/
  source : RouteSource
  deriving DecidableEq

/-- `m_table`, with `Lookup`. -/
abbrev RoutingTable := Ipv4Address → Option RoutingTableEntry

/-- What ends the computation. -/
inductive RoutingFault
  /-- No interface has the local address of a link: `NS_ASSERT (false)` in `AddEntry`. -/
  | noInterface
  /-- The topology set is read for ever. -/
  | endless
  deriving DecidableEq

/-- An entry that is there already is overwritten. -/
def RoutingTable.addEntry (dest next : Ipv4Address) (interface distance : ℕ)
    (source : RouteSource) (table : RoutingTable) : RoutingTable :=
  Function.update table dest (some ⟨dest, next, interface, distance, source⟩)

/-- The index of the first interface with an address; `ipv4` lists the addresses of each. -/
def interfaceOf (ipv4 : List (List Ipv4Address)) (interfaceAddress : Ipv4Address) : Option ℕ :=
  ipv4.findIdx? fun addresses => addresses.contains interfaceAddress

/-- `AddEntry` with the address of an interface, as it is called for a link. -/
def RoutingTable.addLinkEntry (ipv4 : List (List Ipv4Address)) (dest : Ipv4Address)
    (link : LinkTuple) (table : RoutingTable) : Except RoutingFault RoutingTable :=
  match interfaceOf ipv4 link.localIfaceAddr with
  | some i => .ok (table.addEntry dest link.neighborIfaceAddr i 1 (.link link))
  | none => .error .noInterface

/-- The table while the links of a neighbour are read, the last link that was used, and whether
one of them led to the main address. -/
structure LinkScan where
  table : RoutingTable
  lt : Option LinkTuple
  nbMainAddr : Bool

namespace RoutingProtocol

variable (n : RoutingProtocol) (ipv4 : List (List Ipv4Address))

/-- The link leads to the neighbour and is not over. -/
def uses (nb : NeighborTuple) (link : LinkTuple) : Bool :=
  n.getMainAddress link.neighborIfaceAddr == nb.neighborMainAddr && decide (n.now ≤ link.time)

def addLinkRoute (nb : NeighborTuple) (scan : LinkScan) (link : LinkTuple) :
    Except RoutingFault LinkScan :=
  if n.uses nb link then
    (scan.table.addLinkEntry ipv4 link.neighborIfaceAddr link).map fun table =>
      ⟨table, some link,
        scan.nbMainAddr || link.neighborIfaceAddr == nb.neighborMainAddr⟩
  else .ok scan

/-- The entry for the main address, where none of the links has added it. -/
def addMainRoute (nb : NeighborTuple) (scan : LinkScan) : Except RoutingFault RoutingTable :=
  match scan.lt with
  | some lt =>
    if scan.nbMainAddr then .ok scan.table
    else scan.table.addLinkEntry ipv4 nb.neighborMainAddr lt
  | none => .ok scan.table

/-- 2. The entries of a neighbour. -/
def addNeighborRoutes (table : RoutingTable) (nb : NeighborTuple) :
    Except RoutingFault RoutingTable :=
  if nb.status = .sym then
    n.state.linkSet.foldlM (n.addLinkRoute ipv4 nb) ⟨table, none, false⟩ >>=
      addMainRoute ipv4 nb
  else .ok table

/-- 3. The entry of a two-hop neighbour. -/
def addTwoHopRoute (table : RoutingTable) (tuple : TwoHopNeighborTuple) : RoutingTable :=
  if (n.state.findSymNeighborTuple tuple.twoHopNeighborAddr).isSome then table
  else if tuple.twoHopNeighborAddr == n.mainAddress then table
  else if n.state.neighborSet.any fun neighbor =>
      neighbor.neighborMainAddr == tuple.neighborMainAddr &&
        !(neighbor.willingness == willNever) then
    match table tuple.neighborMainAddr with
    | some entry =>
      table.addEntry tuple.twoHopNeighborAddr entry.nextAddr entry.interface 2 (.twoHop tuple)
    | none => table
  else table

/-- 3.1. An entry at distance `h + 1`, and whether this value of `h` has added any. -/
def addTopologyRoute (h : ℕ) (scan : RoutingTable × Bool) (tuple : TopologyTuple) :
    RoutingTable × Bool :=
  match scan.1 tuple.destAddr, scan.1 tuple.lastAddr with
  | none, some lastAddrEntry =>
    if lastAddrEntry.distance = h then
      (scan.1.addEntry tuple.destAddr lastAddrEntry.nextAddr lastAddrEntry.interface (h + 1)
        (.topology tuple), true)
    else scan
  | _, _ => scan

/-- The loop over `h`; nothing where the fuel runs out. -/
def addTopologyRoutes (topology : List TopologyTuple) :
    ℕ → ℕ → RoutingTable → Option RoutingTable
  | 0, _, _ => none
  | fuel + 1, h, table =>
    let scan := topology.foldl (addTopologyRoute h) (table, false)
    if scan.2 then addTopologyRoutes topology fuel (h + 1) scan.1 else some scan.1

/-- 4. The entry of a further interface. -/
def addIfaceRoute (table : RoutingTable) (tuple : IfaceAssocTuple) : RoutingTable :=
  match table tuple.mainAddr, table tuple.ifaceAddr with
  | some entry1, none =>
    table.addEntry tuple.ifaceAddr entry1.nextAddr entry1.interface entry1.distance
      (.ifaceAssoc tuple)
  | _, _ => table

/-- `RoutingTableComputation` as far as it fills `m_table`.  Every value of `h` but the last one
adds an entry for a tuple of the topology set. -/
def routingTableComputation : Except RoutingFault RoutingTable :=
  n.state.neighborSet.foldlM (n.addNeighborRoutes ipv4) (fun _ => none) >>= fun direct =>
    match addTopologyRoutes n.state.topologySet (n.state.topologySet.length + 1) 2
      (n.state.twoHopNeighborSet.foldl n.addTwoHopRoute direct) with
    | some table => .ok (n.state.ifaceAssocSet.foldl addIfaceRoute table)
    | none => .error .endless

end RoutingProtocol

/-- `FindSendEntry`: the entry it ends with, or its failure; nothing as long as it goes on after
`fuel` turns. -/
def RoutingTable.findSendEntry (table : RoutingTable) :
    ℕ → RoutingTableEntry → Option (Option RoutingTableEntry)
  | 0, _ => none
  | fuel + 1, outEntry =>
    if outEntry.destAddr = outEntry.nextAddr then some (some outEntry)
    else
      match table outEntry.nextAddr with
      | some entry => table.findSendEntry fuel entry
      | none => some none

/-! ## The topology set is searched by levels -/

/-- The entry that a topology tuple adds. -/
def extendRoute (tuple : TopologyTuple) (entry : RoutingTableEntry) : RoutingTableEntry :=
  ⟨tuple.destAddr, entry.nextAddr, entry.interface, entry.distance + 1, .topology tuple⟩

theorem distance_extendRoute (tuple : TopologyTuple) (entry : RoutingTableEntry) :
    (extendRoute tuple entry).distance = entry.distance + 1 := rfl

theorem addTopologyRoute_eq (h : ℕ) :
    RoutingProtocol.addTopologyRoute h = LevelSearch.relax TopologyTuple.lastAddr
      TopologyTuple.destAddr RoutingTableEntry.distance extendRoute h := by
  funext scan tuple
  unfold RoutingProtocol.addTopologyRoute LevelSearch.relax
  split
  · rename_i entry hdest hlast
    rw [hdest, hlast]
    dsimp only
    by_cases hlevel : entry.distance = h
    · subst hlevel
      rw [if_pos rfl, if_pos rfl]
      rfl
    · rw [if_neg hlevel, if_neg hlevel]
  · rename_i hnot
    split
    · rename_i b hdest hlast
      exact absurd hlast (hnot b hdest)
    · rfl

theorem addTopologyRoutes_eq (topology : List TopologyTuple) (fuel h : ℕ) (table : RoutingTable) :
    RoutingProtocol.addTopologyRoutes topology fuel h table =
      LevelSearch.search TopologyTuple.lastAddr TopologyTuple.destAddr RoutingTableEntry.distance
        extendRoute topology fuel h table := by
  induction fuel generalizing h table with
  | zero => rfl
  | succ fuel ih =>
    unfold RoutingProtocol.addTopologyRoutes LevelSearch.search LevelSearch.round
    simp only [addTopologyRoute_eq, ih]

end Ns3Dsme.Olsr
