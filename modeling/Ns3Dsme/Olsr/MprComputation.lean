/-
# The choice of multipoint relays

`MprComputation`: a node chooses, among its symmetric neighbours, relays that cover all of its
two-hop neighbours.
-/
import Ns3Dsme.Olsr.Repositories
import Mathlib.Data.List.Sort
import Mathlib.Data.List.Dedup

namespace Ns3Dsme.Olsr

def willNever : BitVec 8 := 0

def willDefault : BitVec 8 := 3

def willAlways : BitVec 8 := 7

/-- The degree of a neighbour counts its two-hop tuples whose neighbour is unknown. -/
def OlsrState.degree (s : OlsrState) (tuple : NeighborTuple) : ℕ :=
  s.twoHopNeighborSet.countP fun t =>
    t.neighborMainAddr == tuple.neighborMainAddr && (s.findNeighborTuple t.neighborMainAddr).isNone

/-- Remove the two-hop neighbours that a neighbour covers. -/
def coverTwoHopNeighbors (neighborMainAddr : Ipv4Address) (n2 : List TwoHopNeighborTuple) :
    List TwoHopNeighborTuple :=
  let toRemove := (n2.filter fun t => t.neighborMainAddr == neighborMainAddr).map
    (·.twoHopNeighborAddr)
  n2.filter fun t => !toRemove.contains t.twoHopNeighborAddr

namespace MprComputation

/-- `N`: the symmetric neighbours. -/
def symNeighbors (s : OlsrState) : List NeighborTuple :=
  s.neighborSet.filter fun t => t.status == .sym

/-- The first tuple of a neighbour decides whether it is willing to relay. -/
def willing (n : List NeighborTuple) (addr : Ipv4Address) : Bool :=
  match n.find? fun t => t.neighborMainAddr == addr with
  | some t => !(t.willingness == willNever)
  | none => false

/-- `N2`: the strict two-hop neighbours that can be reached through a willing neighbour. -/
def twoHopNeighbors (s : OlsrState) (mainAddress : Ipv4Address) : List TwoHopNeighborTuple :=
  let n := symNeighbors s
  s.twoHopNeighborSet.filter fun t =>
    !(t.twoHopNeighborAddr == mainAddress) && willing n t.neighborMainAddr &&
      !(n.any fun neigh => neigh.neighborMainAddr == t.twoHopNeighborAddr)

/-- The relays chosen so far, and the two-hop neighbours still to be covered. -/
structure Choice where
  mprSet : List Ipv4Address
  n2 : List TwoHopNeighborTuple

/-- 1. The neighbours that are always willing. -/
def chooseAlways (n : List NeighborTuple) (n2 : List TwoHopNeighborTuple) : Choice :=
  n.foldl (fun c neighbor =>
    if neighbor.willingness == willAlways then
      ⟨c.mprSet.insert neighbor.neighborMainAddr,
        coverTwoHopNeighbors neighbor.neighborMainAddr c.n2⟩
    else c) ⟨[], n2⟩

/-- The neighbour of the tuple is the only one that reaches its two-hop neighbour. -/
def onlyOne (n2 : List TwoHopNeighborTuple) (t : TwoHopNeighborTuple) : Bool :=
  !(n2.any fun other => other.twoHopNeighborAddr == t.twoHopNeighborAddr &&
    !(other.neighborMainAddr == t.neighborMainAddr))

/-- What a neighbour covers. -/
def coveredBy (n2 : List TwoHopNeighborTuple) (neighborMainAddr : Ipv4Address) :
    List Ipv4Address :=
  (n2.filter fun t => t.neighborMainAddr == neighborMainAddr).map (·.twoHopNeighborAddr)

/-- 3. The neighbours that are the only ones to reach a node. -/
def chooseOnly (c : Choice) : Choice :=
  let only := c.n2.filter fun t => onlyOne c.n2 t
  let covered := only.flatMap fun t => coveredBy c.n2 t.neighborMainAddr
  ⟨only.foldl (fun mprSet t => mprSet.insert t.neighborMainAddr) c.mprSet,
    c.n2.filter fun t => !covered.contains t.twoHopNeighborAddr⟩

/-- 4.1. The number of tuples left that lead through a neighbour. -/
def reachability (n2 : List TwoHopNeighborTuple) (nb : NeighborTuple) : ℕ :=
  n2.countP fun t => nb.neighborMainAddr == t.neighborMainAddr

/-- The neighbours with non-zero reachability, by increasing reachability. -/
def candidates (n : List NeighborTuple) (n2 : List TwoHopNeighborTuple) : List NeighborTuple :=
  let rs := ((n.map (reachability n2)).dedup.filter fun r => !(r == 0)).insertionSort (· ≤ ·)
  rs.flatMap fun r => n.filter fun nb => reachability n2 nb == r

/-- 4.2. The first neighbour is kept unless the second one is better. -/
def better (s : OlsrState) (n2 : List TwoHopNeighborTuple) (max : Option NeighborTuple)
    (nb : NeighborTuple) : Option NeighborTuple :=
  match max with
  | none => some nb
  | some m =>
    if m.willingness < nb.willingness then some nb
    else if nb.willingness = m.willingness then
      if reachability n2 m < reachability n2 nb then some nb
      else if reachability n2 nb = reachability n2 m ∧ s.degree m < s.degree nb then some nb
      else some m
    else some m

/-- 4. As long as there is something to cover, the best neighbour is chosen.  A turn that finds
no neighbour would repeat for ever. -/
def chooseBest (s : OlsrState) (n : List NeighborTuple) : ℕ → Choice → Option (List Ipv4Address)
  | 0, c => if c.n2 = [] then some c.mprSet else none
  | fuel + 1, c =>
    if c.n2 = [] then some c.mprSet
    else
      match (candidates n c.n2).foldl (better s c.n2) none with
      | some max =>
        chooseBest s n fuel ⟨c.mprSet.insert max.neighborMainAddr,
          coverTwoHopNeighbors max.neighborMainAddr c.n2⟩
      | none => none

end MprComputation

open MprComputation in
/-- `MprComputation`; nothing where its loop does not end.  Every turn of the loop covers a
tuple. -/
def OlsrState.mprComputation (s : OlsrState) (mainAddress : Ipv4Address) :
    Option (List Ipv4Address) :=
  let n := symNeighbors s
  let c := chooseOnly (chooseAlways n (twoHopNeighbors s mainAddress))
  chooseBest s n c.n2.length c

end Ns3Dsme.Olsr
