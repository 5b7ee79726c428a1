/-
# The repositories of OLSR

The tuples that a node keeps about its links, its neighbours and the topology, the sequences
they are stored in, and how these are searched and changed.
-/
import Ns3Dsme.Lib.KeyedList
import Mathlib.Data.Int.Notation

open KeyedList

namespace Ns3Dsme.Olsr

/-- The word of an address. -/
abbrev Ipv4Address := BitVec 32

/-- The word of a mask. -/
abbrev Ipv4Mask := BitVec 32

/-- Times are in nanoseconds. -/
abbrev seconds (s : ℤ) : ℤ := s * 1000000000

/-! ## Tuples -/

/-- An interface, and the main address of the node it belongs to. -/
structure IfaceAssocTuple where
  ifaceAddr : Ipv4Address
  mainAddr : Ipv4Address
  time : ℤ
  deriving DecidableEq

/-- A link from an interface of this node to one of a neighbour. -/
structure LinkTuple where
  localIfaceAddr : Ipv4Address
  neighborIfaceAddr : Ipv4Address
  /-- The link is bidirectional until then. -/
  symTime : ℤ
  /-- The link is unidirectional until then. -/
  asymTime : ℤ
  time : ℤ
  deriving DecidableEq

/-- A neighbour is symmetric if one of its links is. -/
inductive NeighborTuple.Status
  | notSym
  | sym
  deriving DecidableEq

/-- A neighbour, and how willing it is to relay. -/
structure NeighborTuple where
  neighborMainAddr : Ipv4Address
  status : NeighborTuple.Status
  willingness : BitVec 8
  deriving DecidableEq

/-- A node that is a symmetric neighbour of a neighbour. -/
structure TwoHopNeighborTuple where
  neighborMainAddr : Ipv4Address
  twoHopNeighborAddr : Ipv4Address
  expirationTime : ℤ
  deriving DecidableEq

/-- A neighbour that has chosen this node as a relay. -/
structure MprSelectorTuple where
  mainAddr : Ipv4Address
  expirationTime : ℤ
  deriving DecidableEq

/-- A message that came, on which interfaces, and whether it was sent on. -/
structure DuplicateTuple where
  address : Ipv4Address
  sequenceNumber : BitVec 16
  retransmitted : Bool
  ifaceList : List Ipv4Address
  expirationTime : ℤ
  deriving DecidableEq

/-- `lastAddr` can reach `destAddr` in one hop. -/
structure TopologyTuple where
  destAddr : Ipv4Address
  lastAddr : Ipv4Address
  sequenceNumber : BitVec 16
  expirationTime : ℤ
  deriving DecidableEq

/-- A network behind this node. -/
structure Association where
  networkAddr : Ipv4Address
  netmask : Ipv4Mask
  deriving DecidableEq

/-- A network behind another node. -/
structure AssociationTuple where
  gatewayAddr : Ipv4Address
  networkAddr : Ipv4Address
  netmask : Ipv4Mask
  expirationTime : ℤ
  deriving DecidableEq

/-! Each kind of tuple has its own `operator==`, which leaves the times out. -/

/-- The same interface of the same node. -/
def IfaceAssocTuple.same (a b : IfaceAssocTuple) : Bool :=
  a.ifaceAddr == b.ifaceAddr && a.mainAddr == b.mainAddr

/-- A link is known by its two ends. -/
def LinkTuple.same (a b : LinkTuple) : Bool :=
  a.localIfaceAddr == b.localIfaceAddr && a.neighborIfaceAddr == b.neighborIfaceAddr

/-- The same node behind the same neighbour. -/
def TwoHopNeighborTuple.same (a b : TwoHopNeighborTuple) : Bool :=
  a.neighborMainAddr == b.neighborMainAddr && a.twoHopNeighborAddr == b.twoHopNeighborAddr

/-- The same selector. -/
def MprSelectorTuple.same (a b : MprSelectorTuple) : Bool := a.mainAddr == b.mainAddr

/-- The same message. -/
def DuplicateTuple.same (a b : DuplicateTuple) : Bool :=
  a.address == b.address && a.sequenceNumber == b.sequenceNumber

/-- The sequence number counts too. -/
def TopologyTuple.same (a b : TopologyTuple) : Bool :=
  a.destAddr == b.destAddr && a.lastAddr == b.lastAddr && a.sequenceNumber == b.sequenceNumber

/-- The same network behind the same gateway. -/
def AssociationTuple.same (a b : AssociationTuple) : Bool :=
  a.gatewayAddr == b.gatewayAddr && a.networkAddr == b.networkAddr && a.netmask == b.netmask

/-! ## The state of a node -/

/-- `OlsrState`: the repositories in the order of their vectors. -/
structure OlsrState where
  linkSet : List LinkTuple := []
  neighborSet : List NeighborTuple := []
  twoHopNeighborSet : List TwoHopNeighborTuple := []
  topologySet : List TopologyTuple := []
  mprSet : List Ipv4Address := []
  mprSelectorSet : List MprSelectorTuple := []
  duplicateSet : List DuplicateTuple := []
  ifaceAssocSet : List IfaceAssocTuple := []
  /-- The networks announced by others. -/
  associationSet : List AssociationTuple := []
  /-- The networks announced by this node. -/
  associations : List Association := []
  deriving DecidableEq

namespace OlsrState

/-! ### The MPR selector set -/

/-- The first tuple of a node. -/
def findMprSelectorTuple (s : OlsrState) (mainAddr : Ipv4Address) : Option MprSelectorTuple :=
  s.mprSelectorSet.find? fun t => t.mainAddr == mainAddr

/-- Erase the first tuple that is the same. -/
def eraseMprSelectorTuple (tuple : MprSelectorTuple) (s : OlsrState) : OlsrState :=
  { s with mprSelectorSet := s.mprSelectorSet.eraseP fun t => t.same tuple }

/-- Erase all tuples of a node. -/
def eraseMprSelectorTuples (mainAddr : Ipv4Address) (s : OlsrState) : OlsrState :=
  { s with mprSelectorSet := s.mprSelectorSet.filter fun t => !(t.mainAddr == mainAddr) }

/-- A further tuple at the end. -/
def insertMprSelectorTuple (tuple : MprSelectorTuple) (s : OlsrState) : OlsrState :=
  { s with mprSelectorSet := s.mprSelectorSet ++ [tuple] }

/-- Write through the pointer that `findMprSelectorTuple` returns. -/
def refreshMprSelectorTuple (mainAddr : Ipv4Address) (expirationTime : ℤ) (s : OlsrState) :
    OlsrState :=
  { s with
    mprSelectorSet := updateFirst (fun t => t.mainAddr == mainAddr)
      (fun t => { t with expirationTime }) s.mprSelectorSet }

/-! ### The neighbour set -/

/-- The tuple of a node. -/
def findNeighborTuple (s : OlsrState) (mainAddr : Ipv4Address) : Option NeighborTuple :=
  s.neighborSet.find? fun t => t.neighborMainAddr == mainAddr

/-- The tuple of a node that is symmetric. -/
def findSymNeighborTuple (s : OlsrState) (mainAddr : Ipv4Address) : Option NeighborTuple :=
  s.neighborSet.find? fun t => t.neighborMainAddr == mainAddr && t.status == .sym

/-- Erase by address. -/
def eraseNeighborTuple (mainAddr : Ipv4Address) (s : OlsrState) : OlsrState :=
  { s with neighborSet := s.neighborSet.eraseP fun t => t.neighborMainAddr == mainAddr }

/-- A neighbour that is there already is replaced. -/
def insertNeighborTuple (tuple : NeighborTuple) (s : OlsrState) : OlsrState :=
  if (s.findNeighborTuple tuple.neighborMainAddr).isSome then
    { s with
    neighborSet := updateFirst
        (fun t => t.neighborMainAddr == tuple.neighborMainAddr) (fun _ => tuple) s.neighborSet }
  else { s with neighborSet := s.neighborSet ++ [tuple] }

/-- Write through the pointer that `findNeighborTuple` returns. -/
def changeNeighborTuple (mainAddr : Ipv4Address) (f : NeighborTuple → NeighborTuple)
    (s : OlsrState) : OlsrState :=
  { s with
    neighborSet := updateFirst (fun t => t.neighborMainAddr == mainAddr) f s.neighborSet }

/-! ### The two-hop neighbour set -/

/-- The tuple of a neighbour and of a node behind it. -/
def findTwoHopNeighborTuple (s : OlsrState) (neighborMainAddr twoHopNeighborAddr : Ipv4Address) :
    Option TwoHopNeighborTuple :=
  s.twoHopNeighborSet.find? fun t =>
    t.neighborMainAddr == neighborMainAddr && t.twoHopNeighborAddr == twoHopNeighborAddr

/-- Erase the first tuple that is the same. -/
def eraseTwoHopNeighborTuple (tuple : TwoHopNeighborTuple) (s : OlsrState) : OlsrState :=
  { s with twoHopNeighborSet := s.twoHopNeighborSet.eraseP fun t => t.same tuple }

/-- Erase all tuples of a neighbour that lead to an address. -/
def eraseTwoHopNeighborTuplesTo (neighborMainAddr twoHopNeighborAddr : Ipv4Address)
    (s : OlsrState) : OlsrState :=
  { s with twoHopNeighborSet := s.twoHopNeighborSet.filter fun t =>
      !(t.neighborMainAddr == neighborMainAddr && t.twoHopNeighborAddr == twoHopNeighborAddr) }

/-- Erase all tuples of a neighbour. -/
def eraseTwoHopNeighborTuples (neighborMainAddr : Ipv4Address) (s : OlsrState) : OlsrState :=
  { s with twoHopNeighborSet := s.twoHopNeighborSet.filter fun t =>
      !(t.neighborMainAddr == neighborMainAddr) }

/-- A further tuple at the end. -/
def insertTwoHopNeighborTuple (tuple : TwoHopNeighborTuple) (s : OlsrState) : OlsrState :=
  { s with twoHopNeighborSet := s.twoHopNeighborSet ++ [tuple] }

/-- Write through the pointer that `findTwoHopNeighborTuple` returns. -/
def refreshTwoHopNeighborTuple (neighborMainAddr twoHopNeighborAddr : Ipv4Address)
    (expirationTime : ℤ) (s : OlsrState) : OlsrState :=
  { s with
    twoHopNeighborSet := updateFirst
      (fun t => t.neighborMainAddr == neighborMainAddr &&
        t.twoHopNeighborAddr == twoHopNeighborAddr)
      (fun t => { t with expirationTime }) s.twoHopNeighborSet }

/-! ### The duplicate set -/

/-- A message is known by its originator and its number. -/
def findDuplicateTuple (s : OlsrState) (addr : Ipv4Address) (sequenceNumber : BitVec 16) :
    Option DuplicateTuple :=
  s.duplicateSet.find? fun t => t.address == addr && t.sequenceNumber == sequenceNumber

/-- Erase the first tuple that is the same. -/
def eraseDuplicateTuple (tuple : DuplicateTuple) (s : OlsrState) : OlsrState :=
  { s with duplicateSet := s.duplicateSet.eraseP fun t => t.same tuple }

/-- A further tuple at the end. -/
def insertDuplicateTuple (tuple : DuplicateTuple) (s : OlsrState) : OlsrState :=
  { s with duplicateSet := s.duplicateSet ++ [tuple] }

/-- Write through the pointer that `findDuplicateTuple` returns. -/
def changeDuplicateTuple (addr : Ipv4Address) (sequenceNumber : BitVec 16)
    (f : DuplicateTuple → DuplicateTuple) (s : OlsrState) : OlsrState :=
  { s with
    duplicateSet := updateFirst
      (fun t => t.address == addr && t.sequenceNumber == sequenceNumber) f s.duplicateSet }

/-! ### The link set -/

/-- The first link to an interface. -/
def findLinkTuple (s : OlsrState) (ifaceAddr : Ipv4Address) : Option LinkTuple :=
  s.linkSet.find? fun t => t.neighborIfaceAddr == ifaceAddr

/-- The search ends at the first link to the interface, symmetric or not. -/
def findSymLinkTuple (s : OlsrState) (ifaceAddr : Ipv4Address) (now : ℤ) : Option LinkTuple :=
  (s.findLinkTuple ifaceAddr).filter fun t => now < t.symTime

/-- Erase the first link with the same ends. -/
def eraseLinkTuple (tuple : LinkTuple) (s : OlsrState) : OlsrState :=
  { s with linkSet := s.linkSet.eraseP fun t => t.same tuple }

/-- A further link at the end. -/
def insertLinkTuple (tuple : LinkTuple) (s : OlsrState) : OlsrState :=
  { s with linkSet := s.linkSet ++ [tuple] }

/-- Write through the pointer that `findLinkTuple` returns. -/
def writeLinkTuple (tuple : LinkTuple) (s : OlsrState) : OlsrState :=
  { s with
    linkSet := updateFirst (fun t => t.neighborIfaceAddr == tuple.neighborIfaceAddr)
      (fun _ => tuple) s.linkSet }

/-! ### The topology set -/

/-- The first tuple with both addresses. -/
def findTopologyTuple (s : OlsrState) (destAddr lastAddr : Ipv4Address) : Option TopologyTuple :=
  s.topologySet.find? fun t => t.destAddr == destAddr && t.lastAddr == lastAddr

/-- Sequence numbers are compared as numbers. -/
def findNewerTopologyTuple (s : OlsrState) (lastAddr : Ipv4Address) (ansn : BitVec 16) :
    Option TopologyTuple :=
  s.topologySet.find? fun t => t.lastAddr == lastAddr && decide (ansn < t.sequenceNumber)

/-- Erase the first tuple that is the same. -/
def eraseTopologyTuple (tuple : TopologyTuple) (s : OlsrState) : OlsrState :=
  { s with topologySet := s.topologySet.eraseP fun t => t.same tuple }

/-- Erase what a node announced before. -/
def eraseOlderTopologyTuples (lastAddr : Ipv4Address) (ansn : BitVec 16) (s : OlsrState) :
    OlsrState :=
  { s with topologySet := s.topologySet.filter fun t =>
      !(t.lastAddr == lastAddr && decide (t.sequenceNumber < ansn)) }

/-- A further tuple at the end. -/
def insertTopologyTuple (tuple : TopologyTuple) (s : OlsrState) : OlsrState :=
  { s with topologySet := s.topologySet ++ [tuple] }

/-- Write through the pointer that `findTopologyTuple` returns. -/
def refreshTopologyTuple (destAddr lastAddr : Ipv4Address) (expirationTime : ℤ)
    (s : OlsrState) : OlsrState :=
  { s with
    topologySet := updateFirst
      (fun t => t.destAddr == destAddr && t.lastAddr == lastAddr)
      (fun t => { t with expirationTime }) s.topologySet }

/-! ### The interface association set -/

/-- The first tuple of an interface. -/
def findIfaceAssocTuple (s : OlsrState) (ifaceAddr : Ipv4Address) : Option IfaceAssocTuple :=
  s.ifaceAssocSet.find? fun t => t.ifaceAddr == ifaceAddr

/-- Erase the first tuple that is the same. -/
def eraseIfaceAssocTuple (tuple : IfaceAssocTuple) (s : OlsrState) : OlsrState :=
  { s with ifaceAssocSet := s.ifaceAssocSet.eraseP fun t => t.same tuple }

/-- A further tuple at the end. -/
def insertIfaceAssocTuple (tuple : IfaceAssocTuple) (s : OlsrState) : OlsrState :=
  { s with ifaceAssocSet := s.ifaceAssocSet ++ [tuple] }

/-! ### The host and network association set -/

/-- The first tuple of a gateway and a network. -/
def findAssociationTuple (s : OlsrState) (gatewayAddr networkAddr : Ipv4Address)
    (netmask : Ipv4Mask) : Option AssociationTuple :=
  s.associationSet.find? fun t =>
    t.gatewayAddr == gatewayAddr && t.networkAddr == networkAddr && t.netmask == netmask

/-- Erase the first tuple that is the same. -/
def eraseAssociationTuple (tuple : AssociationTuple) (s : OlsrState) : OlsrState :=
  { s with associationSet := s.associationSet.eraseP fun t => t.same tuple }

/-- A further tuple at the end. -/
def insertAssociationTuple (tuple : AssociationTuple) (s : OlsrState) : OlsrState :=
  { s with associationSet := s.associationSet ++ [tuple] }

/-- Write through the pointer that `findAssociationTuple` returns. -/
def refreshAssociationTuple (gatewayAddr networkAddr : Ipv4Address) (netmask : Ipv4Mask)
    (expirationTime : ℤ) (s : OlsrState) : OlsrState :=
  { s with
    associationSet := updateFirst
      (fun t => t.gatewayAddr == gatewayAddr && t.networkAddr == networkAddr &&
        t.netmask == netmask)
      (fun t => { t with expirationTime }) s.associationSet }

/-- `GetMainAddress`: an interface without an association is its own main address. -/
def getMainAddress (s : OlsrState) (ifaceAddr : Ipv4Address) : Ipv4Address :=
  match s.findIfaceAssocTuple ifaceAddr with
  | some tuple => tuple.mainAddr
  | none => ifaceAddr

end OlsrState

end Ns3Dsme.Olsr
