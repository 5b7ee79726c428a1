/-
# What the handlers of a node leave alone

A view is a part of the state of a node.  For every handler one lemma says which views it may
disturb.  Handlers schedule events from now on and never cancel any, so the view of the events may
grow.
-/
import Ns3Dsme.Lib.Footprint
import Ns3Dsme.Olsr.RoutingProtocol
import Mathlib.Algebra.Order.Ring.Int

open KeyedList Program Program.Views

namespace Ns3Dsme.Olsr

/-- The parts of the state that results about runs look at. -/
inductive NodeView
  | config
  | clock
  | links
  | neighbors
  | twoHops
  | topology
  | selectors
  | duplicates
  | ifaceAssocs
  | associations
  | ansn
  | events
  | queue
  deriving DecidableEq

/-- The repository of a view is the same. -/
def OlsrState.Same : NodeView → OlsrState → OlsrState → Prop
  | .links, s, t => t.linkSet = s.linkSet
  | .neighbors, s, t => t.neighborSet = s.neighborSet
  | .twoHops, s, t => t.twoHopNeighborSet = s.twoHopNeighborSet
  | .topology, s, t => t.topologySet = s.topologySet
  | .selectors, s, t => t.mprSelectorSet = s.mprSelectorSet
  | .duplicates, s, t => t.duplicateSet = s.duplicateSet
  | .ifaceAssocs, s, t => t.ifaceAssocSet = s.ifaceAssocSet
  | .associations, s, t => t.associationSet = s.associationSet
  | _, _, _ => True

/-- When a step leaves a view alone. -/
def RoutingProtocol.Same : NodeView → RoutingProtocol → RoutingProtocol → Prop
  | .config, s, t => t.mainAddress = s.mainAddress ∧ t.topHoldVTime = s.topHoldVTime
  | .clock, s, t => t.now = s.now
  | .ansn, s, t => t.ansn = s.ansn ∧ t.ansnSteps = s.ansnSteps
  | .events, s, t => t.now = s.now ∧ s.events ⊆ t.events ∧
      ∀ e ∈ t.events, e ∈ s.events ∨ s.now ≤ e.time
  | .queue, s, t => t.queuedMessages = s.queuedMessages
  | v, s, t => OlsrState.Same v s.state t.state

/-- No event is scheduled. -/
theorem RoutingProtocol.same_events {s t : RoutingProtocol} (hnow : t.now = s.now)
    (hevents : t.events = s.events) : RoutingProtocol.Same .events s t := by
  refine ⟨hnow, ?_, ?_⟩
  · rw [hevents]
    exact List.Subset.refl _
  · rw [hevents]
    exact fun e he => Or.inl he

/-- The views of a node. -/
def nodeViews : Views NodeView RoutingProtocol where
  Same := RoutingProtocol.Same
  refl v s := by
    cases v
    case config => exact ⟨rfl, rfl⟩
    case ansn => exact ⟨rfl, rfl⟩
    case events => exact RoutingProtocol.same_events rfl rfl
    all_goals exact rfl
  trans v s t u hst htu := by
    cases v
    case config => exact ⟨htu.1.trans hst.1, htu.2.trans hst.2⟩
    case ansn => exact ⟨htu.1.trans hst.1, htu.2.trans hst.2⟩
    case events =>
      obtain ⟨hnow, hsub, hlater⟩ := hst
      obtain ⟨hnow', hsub', hlater'⟩ := htu
      refine ⟨hnow'.trans hnow, fun e he => hsub' (hsub he), fun e he => ?_⟩
      rcases hlater' e he with h | h
      · exact hlater e h
      · exact Or.inr (hnow ▸ h)
    all_goals exact Eq.trans htu hst

/-- The handler disturbs only the given views. -/
abbrev NodeTouches (touched : List NodeView) (n : RoutingProtocol)
    (x : Except OlsrFault RoutingProtocol) : Prop :=
  Post x (nodeViews.Keeps touched n)

/-- Validity times are not negative. -/
theorem getVTime_nonneg (msg : MessageHeader) : 0 ≤ msg.getVTime := by
  unfold MessageHeader.getVTime emfToTime
  apply mul_nonneg
  · omega
  · exact Int.natCast_nonneg _

namespace RoutingProtocol

variable (n : RoutingProtocol)

/-! ## Small steps -/

theorem delay_nonneg (time : ℤ) : 0 ≤ n.delay time := by
  unfold delay
  split
  · decide
  · omega

theorem keeps_schedule {delay : ℤ} (hdelay : 0 ≤ delay) (action : TimerAction) :
    nodeViews.Keeps [] n (n.schedule delay action) := by
  intro v _
  cases v
  case config => exact ⟨rfl, rfl⟩
  case ansn => exact ⟨rfl, rfl⟩
  case events =>
    refine ⟨rfl, List.subset_append_left _ _, fun e he => ?_⟩
    rcases List.mem_append.mp he with h | h
    · exact Or.inl h
    · rw [List.mem_singleton.mp h]
      exact Or.inr (le_add_of_nonneg_right hdelay)
  all_goals exact rfl

variable {touched : List NodeView} (msg : MessageHeader) (hello : Hello)
  (receiverIface senderIface : Ipv4Address)

theorem keeps_queueMessage : nodeViews.Keeps [.queue] n (n.queueMessage msg) := by
  intro v hv
  cases v
  case config => exact ⟨rfl, rfl⟩
  case ansn => exact ⟨rfl, rfl⟩
  case events => exact same_events rfl rfl
  case queue => exact absurd List.mem_cons_self hv
  all_goals exact rfl

theorem keeps_incrementAnsn : nodeViews.Keeps [.ansn] n n.incrementAnsn := by
  intro v hv
  cases v
  case config => exact ⟨rfl, rfl⟩
  case ansn => exact absurd List.mem_cons_self hv
  case events => exact same_events rfl rfl
  all_goals exact rfl

/-- A change of the repositories disturbs the ones that it changes. -/
theorem keeps_withState (f : OlsrState → OlsrState)
    (h : ∀ v, v ∉ touched → OlsrState.Same v n.state (f n.state)) :
    nodeViews.Keeps touched n (n.withState f) := by
  intro v hv
  cases v
  case config => exact ⟨rfl, rfl⟩
  case ansn => exact ⟨rfl, rfl⟩
  case clock => exact rfl
  case events => exact same_events rfl rfl
  case queue => exact rfl
  all_goals exact h _ hv

theorem keeps_addNeighborTuple (tuple : NeighborTuple) :
    nodeViews.Keeps [.neighbors, .ansn] n (n.addNeighborTuple tuple) := by
  have hinsert : nodeViews.Keeps [.neighbors] n (n.withState (·.insertNeighborTuple tuple)) := by
    refine n.keeps_withState _ fun v hv => ?_
    unfold OlsrState.insertNeighborTuple
    split
    · cases v <;> trivial
    · cases v <;> trivial
  refine (hinsert.mono ?_).trans ((keeps_incrementAnsn _).mono ?_)
  · simp
  · simp

theorem keeps_addMprSelectorTuple (tuple : MprSelectorTuple) :
    nodeViews.Keeps [.selectors, .ansn] n (n.addMprSelectorTuple tuple) := by
  have hinsert : nodeViews.Keeps [.selectors] n (n.withState (·.insertMprSelectorTuple tuple)) :=
    n.keeps_withState _ fun v hv => by cases v <;> trivial
  refine (hinsert.mono ?_).trans ((keeps_incrementAnsn _).mono ?_)
  · simp
  · simp

theorem keeps_removeMprSelectorTuple (tuple : MprSelectorTuple) :
    nodeViews.Keeps [.selectors, .ansn] n (n.removeMprSelectorTuple tuple) := by
  have herase : nodeViews.Keeps [.selectors] n (n.withState (·.eraseMprSelectorTuple tuple)) :=
    n.keeps_withState _ fun v hv => by cases v <;> trivial
  refine (herase.mono ?_).trans ((keeps_incrementAnsn _).mono ?_)
  · simp
  · simp

/-! ## Links and neighbours -/

theorem keeps_updateNeighborStatus (mainAddr : Ipv4Address) :
    nodeViews.Keeps [.neighbors] n (n.updateNeighborStatus mainAddr) :=
  n.keeps_withState _ fun v hv => by cases v <;> trivial

theorem keeps_linkTupleUpdated (tuple : LinkTuple) (willingness : Octet) :
    nodeViews.Keeps [.neighbors, .ansn] n (n.linkTupleUpdated tuple willingness) := by
  unfold linkTupleUpdated
  have hupdate (m : RoutingProtocol) (mainAddr : Ipv4Address) :
      nodeViews.Keeps [.neighbors, .ansn] m (m.updateNeighborStatus mainAddr) :=
    (m.keeps_updateNeighborStatus mainAddr).mono (by simp)
  dsimp only
  split
  · exact (n.keeps_addNeighborTuple _).trans (hupdate _ _)
  · exact hupdate _ _

theorem keeps_removeLinkTuple (tuple : LinkTuple) :
    nodeViews.Keeps [.links, .neighbors] n (n.removeLinkTuple tuple) :=
  n.keeps_withState _ fun v hv => by cases v <;> trivial

theorem touches_mprComputation : NodeTouches [] n n.mprComputation := by
  unfold mprComputation
  split
  · exact n.keeps_withState _ fun v hv => by cases v <;> trivial
  · trivial

theorem touches_neighborLoss (tuple : LinkTuple) :
    NodeTouches [.neighbors, .ansn, .twoHops, .selectors] n (n.neighborLoss tuple) := by
  unfold neighborLoss
  have herase (m : RoutingProtocol) (mainAddr : Ipv4Address) :
      nodeViews.Keeps [.neighbors, .ansn, .twoHops, .selectors] m (m.withState fun s =>
        (s.eraseTwoHopNeighborTuples mainAddr).eraseMprSelectorTuples mainAddr) :=
    m.keeps_withState _ fun v hv => by cases v <;> trivial
  have hlink : nodeViews.Keeps [.neighbors, .ansn, .twoHops, .selectors] n
      (n.linkTupleUpdated tuple willDefault) :=
    (n.keeps_linkTupleUpdated tuple willDefault).mono (by simp)
  exact (hlink.trans (herase _ _)).wp (keeps_mono (touches_mprComputation _) (by simp))

/-! ## HELLO messages -/

theorem keeps_storeLink (created updated : Bool) (willingness : Octet) (link : LinkTuple) :
    nodeViews.Keeps [.links, .neighbors, .ansn] n
      (n.storeLink created updated willingness link) := by
  have hstore : nodeViews.Keeps [.links, .neighbors, .ansn] n
      (n.withState fun s => if created then s.insertLinkTuple link else s.writeLinkTuple link) := by
    refine n.keeps_withState _ fun v hv => ?_
    split
    · cases v <;> trivial
    · cases v <;> trivial
  have hupdated (m : RoutingProtocol) : nodeViews.Keeps [.links, .neighbors, .ansn] m
      (if updated then m.linkTupleUpdated link willingness else m) := by
    split
    · exact (m.keeps_linkTupleUpdated link willingness).mono (by simp)
    · exact .refl _ m
  have hadded (m : RoutingProtocol) : nodeViews.Keeps [.links, .neighbors, .ansn] m
      (if created then
        (m.linkTupleAdded link willingness).schedule
          ((m.linkTupleAdded link willingness).delay (min link.time link.symTime))
          (.linkTuple link.neighborIfaceAddr)
      else m) := by
    split
    · refine ((m.keeps_addNeighborTuple _).mono ?_).trans ((keeps_schedule _ (delay_nonneg _ _) _).mono ?_)
      · simp
      · simp
    · exact .refl _ m
  exact hstore.trans ((hupdated _).trans (hadded _))

theorem touches_linkSensing : NodeTouches [.links, .neighbors, .ansn] n
      (n.linkSensing msg hello receiverIface senderIface) := by
  unfold linkSensing
  refine post_bind fun sensed _ => ?_
  exact n.keeps_storeLink _ _ _ _

theorem keeps_populateNeighborSet :
    nodeViews.Keeps [.neighbors] n (n.populateNeighborSet msg hello) :=
  n.keeps_withState _ fun v hv => by cases v <;> trivial

/-- A loop disturbs what its turns disturb. -/
theorem keeps_foldl {α : Type} (f : RoutingProtocol → α → RoutingProtocol)
    (h : ∀ n x, nodeViews.Keeps touched n (f n x)) (xs : List α) :
    nodeViews.Keeps touched n (xs.foldl f n) := by
  induction xs generalizing n with
  | nil => exact .refl _ n
  | cons x xs ih => exact (h n x).trans (ih (f n x))

theorem keeps_populateTwoHopNeighbor (neighborType : NeighborType) (addr : Ipv4Address) :
    nodeViews.Keeps [.twoHops] n (n.populateTwoHopNeighbor msg neighborType addr) := by
  have hset (m : RoutingProtocol) (f : OlsrState → OlsrState)
      (hf : ∀ v, v ∉ [NodeView.twoHops] → OlsrState.Same v m.state (f m.state)) :
      nodeViews.Keeps [.twoHops] m (m.withState f) := m.keeps_withState f hf
  have hrecord : nodeViews.Keeps [.twoHops] n
      (n.populateTwoHopNeighbor msg .symNeigh addr) := by
    unfold populateTwoHopNeighbor
    dsimp only
    split
    · exact .refl _ n
    · split
      · refine (hset n _ fun v hv => ?_).trans ((keeps_schedule _ (delay_nonneg _ _) _).mono (by simp))
        cases v <;> trivial
      · exact hset n _ fun v hv => by cases v <;> trivial
  cases neighborType with
  | symNeigh => exact hrecord
  | mprNeigh => exact hrecord
  | notNeigh => exact hset n _ fun v hv => by cases v <;> trivial
  | bad => exact .refl _ n

theorem keeps_populateTwoHopNeighborSet :
    nodeViews.Keeps [.twoHops] n (n.populateTwoHopNeighborSet msg hello) := by
  unfold populateTwoHopNeighborSet
  refine n.keeps_foldl _ (fun m link => ?_) _
  split
  · exact .refl _ m
  · split
    · exact .refl _ m
    · refine m.keeps_foldl _ (fun k linkMessage => ?_) _
      exact k.keeps_foldl _ (fun l addr => l.keeps_populateTwoHopNeighbor msg _ addr) _

theorem keeps_populateMprSelector (addr : Ipv4Address) :
    nodeViews.Keeps [.selectors, .ansn] n (n.populateMprSelector msg addr) := by
  unfold populateMprSelector
  dsimp only
  split
  · split
    · exact (n.keeps_addMprSelectorTuple _).trans ((keeps_schedule _ (delay_nonneg _ _) _).mono (by simp))
    · exact n.keeps_withState _ fun v hv => by cases v <;> trivial
  · exact .refl _ n

theorem keeps_populateMprSelectorSet :
    nodeViews.Keeps [.selectors, .ansn] n (n.populateMprSelectorSet msg hello) := by
  unfold populateMprSelectorSet
  refine n.keeps_foldl _ (fun m linkMessage => ?_) _
  split
  · exact m.keeps_foldl _ (fun k addr => k.keeps_populateMprSelector msg addr) _
  · exact .refl _ m

theorem touches_processHello : NodeTouches [.links, .neighbors, .ansn, .twoHops, .selectors] n
      (n.processHello msg hello receiverIface senderIface) := by
  unfold processHello
  refine keeps_seq (keeps_mono (n.touches_linkSensing msg hello _ _) (by simp)) fun m => ?_
  have hpopulate : nodeViews.Keeps [.links, .neighbors, .ansn, .twoHops, .selectors] m
      ((m.populateNeighborSet msg hello).populateTwoHopNeighborSet msg hello) :=
    ((m.keeps_populateNeighborSet msg hello).mono (by simp)).trans
      ((keeps_populateTwoHopNeighborSet _ msg hello).mono (by simp))
  refine hpopulate.wp (keeps_seq (keeps_mono (touches_mprComputation _) (by simp)) fun k => ?_)
  exact (k.keeps_populateMprSelectorSet msg hello).mono (by simp)

/-! ## TC, MID and HNA messages -/

theorem keeps_advertisedNeighbor (ansn : BitVec 16) (addr : Ipv4Address) :
    nodeViews.Keeps [.topology] n (n.advertisedNeighbor msg ansn addr) := by
  unfold advertisedNeighbor
  dsimp only
  split
  · exact n.keeps_withState _ fun v hv => by cases v <;> trivial
  · refine Keeps.trans (n.keeps_withState _ fun v hv => ?_) ((keeps_schedule _ (delay_nonneg _ _) _).mono (by simp))
    cases v <;> trivial

theorem keeps_processTc (tc : Tc) (senderIface : Ipv4Address) :
    nodeViews.Keeps [.topology] n (n.processTc msg tc senderIface) := by
  unfold processTc
  split
  · exact .refl _ n
  · split
    · exact .refl _ n
    · refine Keeps.trans (n.keeps_withState _ fun v hv => ?_)
        (keeps_foldl _ _ (fun m addr => m.keeps_advertisedNeighbor msg _ addr) _)
      cases v <;> trivial

theorem keeps_associateIface (addr : Ipv4Address) :
    nodeViews.Keeps [.ifaceAssocs] n (n.associateIface msg addr) := by
  unfold associateIface
  dsimp only
  split
  · exact n.keeps_withState _ fun v hv => by cases v <;> trivial
  · refine Keeps.trans (n.keeps_withState _ fun v hv => ?_) ((keeps_schedule _ (delay_nonneg _ _) _).mono (by simp))
    cases v <;> trivial

theorem keeps_renameNeighbors : nodeViews.Keeps [.neighbors, .twoHops] n n.renameNeighbors :=
  n.keeps_withState _ fun v hv => by cases v <;> trivial

theorem keeps_processMid (interfaceAddresses : List Ipv4Address) (senderIface : Ipv4Address) :
    nodeViews.Keeps [.ifaceAssocs, .neighbors, .twoHops] n
      (n.processMid msg interfaceAddresses senderIface) := by
  unfold processMid
  split
  · exact .refl _ n
  · refine ((n.keeps_foldl _ (fun m addr => m.keeps_associateIface msg addr) _).mono ?_).trans
      ((keeps_renameNeighbors _).mono ?_)
    · simp
    · simp

theorem keeps_associateNetwork (network : Association) :
    nodeViews.Keeps [.associations] n (n.associateNetwork msg network) := by
  unfold associateNetwork
  dsimp only
  split
  · exact n.keeps_withState _ fun v hv => by cases v <;> trivial
  · refine Keeps.trans (n.keeps_withState _ fun v hv => ?_) ((keeps_schedule _ (delay_nonneg _ _) _).mono (by simp))
    cases v <;> trivial

theorem keeps_processHna (associations : List Association) (senderIface : Ipv4Address) :
    nodeViews.Keeps [.associations] n (n.processHna msg associations senderIface) := by
  unfold processHna
  split
  · exact .refl _ n
  · exact n.keeps_foldl _ (fun m network => m.keeps_associateNetwork msg network) _

/-! ## Reception -/

theorem touches_processMessage :
    NodeTouches [.links, .neighbors, .ansn, .twoHops, .selectors, .topology, .ifaceAssocs,
      .associations] n (n.processMessage msg receiverIface senderIface) := by
  unfold processMessage
  cases msg.body with
  | hello hello =>
    exact keeps_mono (n.touches_processHello msg hello receiverIface senderIface) (by decide)
  | tc tc => exact (n.keeps_processTc msg tc senderIface).mono (by decide)
  | mid addrs => exact (n.keeps_processMid msg addrs senderIface).mono (by decide)
  | hna networks => exact (n.keeps_processHna msg networks senderIface).mono (by decide)

theorem dupHoldTime_nonneg : 0 ≤ dupHoldTime := by decide

theorem keeps_recordDuplicate (duplicated retransmitted : Bool) (localIface : Ipv4Address) :
    nodeViews.Keeps [.duplicates] n
      (n.recordDuplicate msg duplicated retransmitted localIface) := by
  unfold recordDuplicate
  dsimp only
  split
  · exact n.keeps_withState _ fun v hv => by cases v <;> trivial
  · refine Keeps.trans (n.keeps_withState _ fun v hv => ?_) ((keeps_schedule _ dupHoldTime_nonneg _).mono (by simp))
    cases v <;> trivial

theorem keeps_forwardDefault (duplicated : Option DuplicateTuple)
    (localIface senderAddress : Ipv4Address) :
    nodeViews.Keeps [.duplicates, .queue] n
      (n.forwardDefault msg duplicated localIface senderAddress) := by
  unfold forwardDefault
  split
  · exact .refl _ n
  · split
    · exact .refl _ n
    · refine Keeps.trans ?_ ((keeps_recordDuplicate _ msg _ _ localIface).mono (by simp))
      split
      · exact (n.keeps_queueMessage _).mono (by simp)
      · exact .refl _ n

theorem keeps_considerForwarding (duplicated : Option DuplicateTuple)
    (receiverIface senderIface : Ipv4Address) :
    nodeViews.Keeps [.duplicates, .queue] n
      (n.considerForwarding msg duplicated receiverIface senderIface) := by
  unfold considerForwarding
  split
  · exact .refl _ n
  · exact n.keeps_forwardDefault msg _ _ _

/-! ## Timers -/

theorem keeps_tupleTimerExpire {τ : Type} (found : Option τ) (expirationTime : τ → ℤ)
    (remove : τ → RoutingProtocol → RoutingProtocol) (again : τ → TimerAction)
    (h : ∀ t, nodeViews.Keeps touched n (remove t n)) :
    nodeViews.Keeps touched n (n.tupleTimerExpire found expirationTime remove again) := by
  unfold tupleTimerExpire
  split
  · exact .refl _ n
  · split
    · exact h _
    · exact (n.keeps_schedule (delay_nonneg _ _) _).mono (by simp)

theorem keeps_dupTupleTimerExpire (address : Ipv4Address) (sequenceNumber : BitVec 16) :
    nodeViews.Keeps [.duplicates] n (n.dupTupleTimerExpire address sequenceNumber) :=
  n.keeps_tupleTimerExpire _ _ _ _ fun t => n.keeps_withState _ fun v hv => by
    cases v <;> trivial

theorem keeps_nb2hopTupleTimerExpire (neighborMainAddr twoHopNeighborAddr : Ipv4Address) :
    nodeViews.Keeps [.twoHops] n
      (n.nb2hopTupleTimerExpire neighborMainAddr twoHopNeighborAddr) :=
  n.keeps_tupleTimerExpire _ _ _ _ fun t => n.keeps_withState _ fun v hv => by
    cases v <;> trivial

theorem keeps_mprSelTupleTimerExpire (mainAddr : Ipv4Address) :
    nodeViews.Keeps [.selectors, .ansn] n (n.mprSelTupleTimerExpire mainAddr) :=
  n.keeps_tupleTimerExpire _ _ _ _ fun t => n.keeps_removeMprSelectorTuple t

theorem keeps_topologyTupleTimerExpire (destAddr lastAddr : Ipv4Address) :
    nodeViews.Keeps [.topology] n (n.topologyTupleTimerExpire destAddr lastAddr) :=
  n.keeps_tupleTimerExpire _ _ _ _ fun t => n.keeps_withState _ fun v hv => by
    cases v <;> trivial

theorem keeps_ifaceAssocTupleTimerExpire (ifaceAddr : Ipv4Address) :
    nodeViews.Keeps [.ifaceAssocs] n (n.ifaceAssocTupleTimerExpire ifaceAddr) :=
  n.keeps_tupleTimerExpire _ _ _ _ fun t => n.keeps_withState _ fun v hv => by
    cases v <;> trivial

theorem keeps_associationTupleTimerExpire (gatewayAddr networkAddr : Ipv4Address)
    (netmask : Ipv4Mask) :
    nodeViews.Keeps [.associations] n
      (n.associationTupleTimerExpire gatewayAddr networkAddr netmask) :=
  n.keeps_tupleTimerExpire _ _ _ _ fun t => n.keeps_withState _ fun v hv => by
    cases v <;> trivial

theorem touches_linkTupleTimerExpire (neighborIfaceAddr : Ipv4Address) :
    NodeTouches [.links, .neighbors, .ansn, .twoHops, .selectors] n
      (n.linkTupleTimerExpire neighborIfaceAddr) := by
  have hschedule (m : RoutingProtocol) (time : ℤ) (action : TimerAction) :
      nodeViews.Keeps [.links, .neighbors, .ansn, .twoHops, .selectors] m
        (m.schedule (m.delay time) action) :=
    (m.keeps_schedule (m.delay_nonneg time) action).mono (by simp)
  unfold linkTupleTimerExpire
  split
  · exact .refl _ n
  · split
    · exact (n.keeps_removeLinkTuple _).mono (by simp)
    · split
      · refine (wp_map _ _ _ _).mpr ?_
        split
        · have hflag : nodeViews.Keeps [.links, .neighbors, .ansn, .twoHops, .selectors] n
              { n with linkTupleTimerFirstTime := false } := by
            intro v _
            cases v
            case config => exact ⟨rfl, rfl⟩
            case ansn => exact ⟨rfl, rfl⟩
            case events => exact same_events rfl rfl
            all_goals exact rfl
          exact hflag.trans (hschedule _ _ _)
        · refine (keeps_mono (n.touches_neighborLoss _) ?_).imp fun m hm => hm.trans (hschedule m _ _)
          simp
      · exact hschedule n _ _

end RoutingProtocol

end Ns3Dsme.Olsr
