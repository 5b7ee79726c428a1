/-
# A network of multipoint relays

A static network of nodes with one interface each, in which every broadcast is heard by all
neighbours, and one message that is flooded in it.
-/
import Ns3Dsme.Lib.Machine
import Ns3Dsme.Olsr.MessageCopies
import Mathlib.Data.Fintype.Basic
import Mathlib.Logic.Function.Basic

open Program Program.Views

namespace Ns3Dsme.Olsr

/-! ## The network -/

/-- The nodes with their addresses, and who hears whom. -/
structure StaticNetwork (ι : Type) where
  addr : ι → Ipv4Address
  neighbors : ι → List ι
  addr_injective : Function.Injective addr
  symm : ∀ i j, j ∈ neighbors i → i ∈ neighbors j
  irrefl : ∀ i, i ∉ neighbors i
  nodup : ∀ i, (neighbors i).Nodup

/-- The states of the nodes.  The others are ghosts: the nodes that have sent the message, in
order, and for each node when it has processed the message, as the number of the transmission and
the time. -/
structure MprFlood (ι : Type) where
  nodes : ι → RoutingProtocol
  sent : List ι
  processed : ι → List (ℕ × ℤ)

inductive MprFloodAction (ι : Type)
  /-- A node broadcasts a message of its queue. -/
  | transmit (i : ι) (m : MessageHeader)
  | node (i : ι) (a : NodeAction)

variable {ι : Type} [DecidableEq ι] (net : StaticNetwork ι) (msg : MessageHeader)

namespace MprFlood

/-- The message leaves the queue. -/
def send (i : ι) (m : MessageHeader) (s : MprFlood ι) : MprFlood ι where
  nodes := Function.update s.nodes i
    { s.nodes i with queuedMessages := (s.nodes i).queuedMessages.erase m }
  sent := if msg.IsCopy m then s.sent ++ [i] else s.sent
  processed := s.processed

/-- One neighbour hears transmission `k`. -/
def deliver (k : ℕ) (i : ι) (m : MessageHeader) (s : MprFlood ι) (j : ι) :
    Except OlsrFault (MprFlood ι) :=
  ((s.nodes j).recvMessage m (net.addr j) (net.addr i)).map fun n =>
    { nodes := Function.update s.nodes j n
      sent := s.sent
      processed :=
        if msg.IsCopy m ∧ (s.nodes j).IsNewMessage m then
          Function.update s.processed j (s.processed j ++ [(k, (s.nodes j).now)])
        else s.processed }

def enabled (s : MprFlood ι) : MprFloodAction ι → Prop
  | .transmit i m => m ∈ (s.nodes i).queuedMessages
  | .node i a => (s.nodes i).enabled a

instance (s : MprFlood ι) (a : MprFloodAction ι) : Decidable (s.enabled a) := by
  cases a <;> dsimp only [enabled] <;> infer_instance

def step (s : MprFlood ι) : MprFloodAction ι → Except OlsrFault (MprFlood ι)
  | .transmit i m => (net.neighbors i).foldlM (deliver net msg s.sent.length i m) (s.send msg i m)
  | .node i a =>
    ((s.nodes i).act a).map fun n => { s with nodes := Function.update s.nodes i n }

end MprFlood

/-- The network as a machine. -/
def mprFloodMachine : Machine (MprFlood ι) (MprFloodAction ι) OlsrFault where
  enabled := MprFlood.enabled
  step := MprFlood.step net msg

instance (s : MprFlood ι) (a : MprFloodAction ι) :
    Decidable ((mprFloodMachine net msg).enabled s a) :=
  inferInstanceAs (Decidable (s.enabled a))

namespace MprFlood

/-! ## What is assumed -/

/-- The sets of a node are exact, and its relays are those that `MprComputation` chooses. -/
structure IsExact (s : MprFlood ι) (i : ι) : Prop where
  links : ∀ j ∈ net.neighbors i,
    (s.nodes i).state.findSymLinkTuple (net.addr j) (s.nodes i).now ≠ none
  ifaces : ∀ j ∈ net.neighbors i, (s.nodes i).getMainAddress (net.addr j) = net.addr j
  neighbor : ∀ nb ∈ (s.nodes i).state.neighborSet, nb.status = .sym ∧
    nb.willingness ≠ willNever ∧ ∃ j ∈ net.neighbors i, nb.neighborMainAddr = net.addr j
  neighbor_of : ∀ j ∈ net.neighbors i, ∃ nb ∈ (s.nodes i).state.neighborSet,
    nb.neighborMainAddr = net.addr j
  twoHop : ∀ t ∈ (s.nodes i).state.twoHopNeighborSet, ∃ j ∈ net.neighbors i,
    ∃ k ∈ net.neighbors j, k ≠ i ∧ t.neighborMainAddr = net.addr j ∧
      t.twoHopNeighborAddr = net.addr k
  twoHop_of : ∀ j ∈ net.neighbors i, ∀ k ∈ net.neighbors j, k ≠ i →
    ∃ t ∈ (s.nodes i).state.twoHopNeighborSet, t.neighborMainAddr = net.addr j ∧
      t.twoHopNeighborAddr = net.addr k
  mprs : ∃ mprSet, (s.nodes i).state.mprComputation (net.addr i) = some mprSet ∧
    mprSet ⊆ (s.nodes i).state.mprSet ∧ (s.nodes i).state.mprSet ⊆ mprSet
  selector : ∀ t ∈ (s.nodes i).state.mprSelectorSet, ∃ j ∈ net.neighbors i,
    t.mainAddr = net.addr j ∧ net.addr i ∈ (s.nodes j).state.mprSet
  selector_of : ∀ j ∈ net.neighbors i, net.addr i ∈ (s.nodes j).state.mprSet →
    ∃ t ∈ (s.nodes i).state.mprSelectorSet, t.mainAddr = net.addr j

/-- The relays that are computed for the node are those that it keeps. -/
def keepsRelays (s : MprFlood ι) (i : ι) : Bool :=
  ((s.nodes i).state.mprComputation (net.addr i)).any fun mprSet =>
    mprSet.all (fun a => (s.nodes i).state.mprSet.contains a) &&
      (s.nodes i).state.mprSet.all fun a => mprSet.contains a

omit [DecidableEq ι] in
theorem keepsRelays_iff (s : MprFlood ι) (i : ι) : s.keepsRelays net i = true ↔
    ∃ mprSet, (s.nodes i).state.mprComputation (net.addr i) = some mprSet ∧
      mprSet ⊆ (s.nodes i).state.mprSet ∧ (s.nodes i).state.mprSet ⊆ mprSet := by
  unfold keepsRelays
  rw [Option.any_eq_true]
  simp only [Bool.and_eq_true, List.all_eq_true, List.contains_iff_mem]
  rfl

instance (s : MprFlood ι) (i : ι) : Decidable (s.IsExact net i) :=
  decidable_of_iff
    ((∀ j ∈ net.neighbors i,
        (s.nodes i).state.findSymLinkTuple (net.addr j) (s.nodes i).now ≠ none) ∧
      (∀ j ∈ net.neighbors i, (s.nodes i).getMainAddress (net.addr j) = net.addr j) ∧
      (∀ nb ∈ (s.nodes i).state.neighborSet, nb.status = .sym ∧
        nb.willingness ≠ willNever ∧ ∃ j ∈ net.neighbors i, nb.neighborMainAddr = net.addr j) ∧
      (∀ j ∈ net.neighbors i, ∃ nb ∈ (s.nodes i).state.neighborSet,
        nb.neighborMainAddr = net.addr j) ∧
      (∀ t ∈ (s.nodes i).state.twoHopNeighborSet, ∃ j ∈ net.neighbors i,
        ∃ k ∈ net.neighbors j, k ≠ i ∧ t.neighborMainAddr = net.addr j ∧
          t.twoHopNeighborAddr = net.addr k) ∧
      (∀ j ∈ net.neighbors i, ∀ k ∈ net.neighbors j, k ≠ i →
        ∃ t ∈ (s.nodes i).state.twoHopNeighborSet, t.neighborMainAddr = net.addr j ∧
          t.twoHopNeighborAddr = net.addr k) ∧
      s.keepsRelays net i = true ∧
      (∀ t ∈ (s.nodes i).state.mprSelectorSet, ∃ j ∈ net.neighbors i,
        t.mainAddr = net.addr j ∧ (s.nodes j).state.mprSet.contains (net.addr i) = true) ∧
      ∀ j ∈ net.neighbors i, (s.nodes j).state.mprSet.contains (net.addr i) = true →
        ∃ t ∈ (s.nodes i).state.mprSelectorSet, t.mainAddr = net.addr j) (by
    simp only [List.contains_iff_mem, keepsRelays_iff]
    exact ⟨fun ⟨hlinks, hifaces, hneighbor, hneighbor_of, htwoHop, htwoHop_of, hmprs, hselector,
        hselector_of⟩ =>
      ⟨hlinks, hifaces, hneighbor, hneighbor_of, htwoHop, htwoHop_of, hmprs, hselector,
        hselector_of⟩,
      fun h => ⟨h.links, h.ifaces, h.neighbor, h.neighbor_of, h.twoHop, h.twoHop_of, h.mprs,
        h.selector, h.selector_of⟩⟩)

/-- When a copy is sent, all sets are exact, the copy has made fewer hops than the message may,
and no neighbour has held its duplicate tuple for too long.  Other steps bring no copies. -/
def Undisturbed (s : MprFlood ι) : MprFloodAction ι → Prop
  | .transmit i m => msg.IsCopy m → (∀ j, s.IsExact net j) ∧
      m.hopCount.toNat + 1 < msg.timeToLive.toNat ∧
      ∀ j ∈ net.neighbors i, ∀ x ∈ s.processed j, (s.nodes j).now ≤ x.2 + dupHoldTime
  | .node i a => (s.nodes i).Apart msg a

instance [Fintype ι] (s : MprFlood ι) (a : MprFloodAction ι) :
    Decidable (s.Undisturbed net msg a) := by
  cases a <;> dsimp only [Undisturbed] <;> infer_instance

/-- The originator is about to send the message, and nobody knows it. -/
structure IsNew (o : ι) (s : MprFlood ι) : Prop where
  mainAddress : ∀ i, (s.nodes i).mainAddress = net.addr i
  originator : msg.originatorAddress = net.addr o
  hopCount : msg.hopCount = 0
  flooded : msg.IsFlooded
  queued : (s.nodes o).waiting msg = [msg]
  waiting : ∀ i, i ≠ o → (s.nodes i).waiting msg = []
  unknown : ∀ i, (s.nodes i).duplicateOf msg = none
  sent : s.sent = []
  processed : ∀ i, s.processed i = []

/-- **What the flooding of the message should do.**  A node sends it at most once and processes it
at most once, the originator does not process it, and a copy that waits can be sent.  When none
waits any more, every other node has processed the message. -/
structure Spreads (o : ι) (s : MprFlood ι) : Prop where
  sent : ∀ i, s.sent.count i ≤ 1
  processed : ∀ i, (s.processed i).length ≤ 1
  own : s.processed o = []
  goesOn : ∀ i, ∀ m ∈ (s.nodes i).waiting msg, s.enabled (.transmit i m) ∧
    ∃ s', s.step net msg (.transmit i m) = .ok s'
  everywhere : (∀ i, (s.nodes i).waiting msg = []) → ∀ i, i ≠ o → (s.processed i).length = 1

end MprFlood

end Ns3Dsme.Olsr
