/-
# The repositories of a node stay consistent

A node that receives messages and runs its timers.  Its repositories stay consistent as long as
no tuple is refreshed to a time before its event, no MID message and no expiry of an interface
association separates tuples from the addresses they are stored under, and no link is removed
while another one leads to the same node.
-/
import Ns3Dsme.Lib.Machine
import Ns3Dsme.Olsr.ExpiryEvents

open List KeyedList Program Program.Views

namespace Ns3Dsme.Olsr

/-! ## The machine -/

/-- What happens to the repositories.  A packet counts as one action for each message in it. -/
inductive RepositoryAction
  | message (msg : MessageHeader) (receiverIface senderIface : Ipv4Address)
  | fire (event : Event)
  | advance (time : ℤ)
  deriving DecidableEq

def repositoryStep (n : RoutingProtocol) : RepositoryAction → Except OlsrFault RoutingProtocol
  | .message msg receiverIface senderIface => n.recvMessage msg receiverIface senderIface
  | .fire event => n.act (.fire event)
  | .advance time => n.act (.advance time)

def repositoryEnabled (n : RoutingProtocol) : RepositoryAction → Prop
  | .message _ _ _ => True
  | .fire event => n.enabled (.fire event)
  | .advance time => n.enabled (.advance time)

instance (n : RoutingProtocol) (a : RepositoryAction) : Decidable (repositoryEnabled n a) := by
  cases a <;> dsimp only [repositoryEnabled] <;> infer_instance

/-- **A node that receives messages and runs its timers.** -/
def repositoryMachine : Machine RoutingProtocol RepositoryAction OlsrFault where
  enabled := repositoryEnabled
  step := repositoryStep

namespace RoutingProtocol

/-! ## What is wanted -/

/-- Nothing has been stored, and nothing is scheduled. -/
structure IsNew (n : RoutingProtocol) : Prop where
  state : n.state = {}
  events : n.events = []

/-- An event with the action is pending, and the time has not been exceeded by more than the
granularity of the timers. -/
def Watched (n : RoutingProtocol) (action : TimerAction) (expirationTime : ℤ) : Prop :=
  (∃ e ∈ n.events, e.action = action) ∧ n.now ≤ expirationTime + granularity

/-- **The repositories are consistent.** -/
structure Consistent (n : RoutingProtocol) : Prop where
  distinct : n.neighborMains.Nodup
  linked : ∀ a, a ∈ n.neighborMains ↔ ∃ l ∈ n.state.linkSet,
    n.getMainAddress l.neighborIfaceAddr = a
  twoHops : ∀ t ∈ n.state.twoHopNeighborSet,
    n.Watched (.nb2hopTuple t.neighborMainAddr t.twoHopNeighborAddr) t.expirationTime
  topology : ∀ t ∈ n.state.topologySet,
    n.Watched (.topologyTuple t.destAddr t.lastAddr) t.expirationTime
  selectors : ∀ t ∈ n.state.mprSelectorSet, n.Watched (.mprSelTuple t.mainAddr) t.expirationTime
  ifaceAssocs : ∀ t ∈ n.state.ifaceAssocSet, n.Watched (.ifaceAssocTuple t.ifaceAddr) t.time
  associations : ∀ t ∈ n.state.associationSet,
    n.Watched (.associationTuple t.gatewayAddr t.networkAddr t.netmask) t.expirationTime
  duplicates : ∀ t ∈ n.state.duplicateSet,
    n.Watched (.dupTuple t.address t.sequenceNumber) t.expirationTime

/-! ### Mild steps -/

/-- The message comes from a symmetric neighbour. -/
def Hears (n : RoutingProtocol) (senderIface : Ipv4Address) : Prop :=
  (n.state.findSymLinkTuple senderIface n.now).isSome = true

/-- What a processed message must not do. -/
def MildMessage (n : RoutingProtocol) (msg : MessageHeader) (senderIface : Ipv4Address) : Prop :=
  let time := n.now + msg.getVTime
  match msg.body with
  | .hello hello =>
    -- the tuples that it refreshes have an event early enough
    (∀ t ∈ n.state.twoHopNeighborSet,
      n.ListsTwoHop msg hello (t.neighborMainAddr, t.twoHopNeighborAddr) →
      Awaits n.events (.nb2hopTuple t.neighborMainAddr t.twoHopNeighborAddr) time) ∧
    ∀ t ∈ n.state.mprSelectorSet, t.mainAddr = msg.originatorAddress → n.IsChosen hello →
      Awaits n.events (.mprSelTuple t.mainAddr) time
  | .tc tc =>
    ∀ t ∈ n.state.topologySet, t.lastAddr = msg.originatorAddress →
      t.destAddr ∈ tc.neighborAddresses → ¬ t.sequenceNumber < tc.ansn → n.Hears senderIface →
      (n.state.findNewerTopologyTuple msg.originatorAddress tc.ansn).isNone = true →
      Awaits n.events (.topologyTuple t.destAddr t.lastAddr) time
  | .mid addrs =>
    n.Hears senderIface →
    -- no interface gets a second main address
    (∀ t ∈ n.state.ifaceAssocSet, t.ifaceAddr ∈ addrs →
      t.mainAddr = msg.originatorAddress ∧ Awaits n.events (.ifaceAssocTuple t.ifaceAddr) time) ∧
    -- neighbours stay apart, and are renamed like the links that lead to them
    (n.neighborMains.map (n.mainAfter msg addrs)).Nodup ∧
    (∀ iface ∈ n.linkIfaces,
      n.mainAfter msg addrs (n.getMainAddress iface) = n.mainAfter msg addrs iface) ∧
    -- two-hop tuples are not renamed
    ∀ t ∈ n.state.twoHopNeighborSet,
      n.mainAfter msg addrs t.neighborMainAddr = t.neighborMainAddr ∧
        n.mainAfter msg addrs t.twoHopNeighborAddr = t.twoHopNeighborAddr
  | .hna networks =>
    ∀ t ∈ n.state.associationSet, t.gatewayAddr = msg.originatorAddress →
      ⟨t.networkAddr, t.netmask⟩ ∈ networks → n.Hears senderIface →
      Awaits n.events (.associationTuple t.gatewayAddr t.networkAddr t.netmask) time

/-- What a timer must not do. -/
def MildTimer (n : RoutingProtocol) : TimerAction → Prop
  | .linkTuple iface =>
    -- a link that is removed is the only one to its node
    ∀ tuple, n.state.findLinkTuple iface = some tuple → tuple.time < n.now →
      ∀ l ∈ n.state.linkSet, l.neighborIfaceAddr ≠ tuple.neighborIfaceAddr →
        n.getMainAddress l.neighborIfaceAddr ≠ n.getMainAddress tuple.neighborIfaceAddr
  | .ifaceAssocTuple iface =>
    -- an association that is removed is not used by a link
    ∀ tuple, n.state.findIfaceAssocTuple iface = some tuple → tuple.time < n.now →
      iface ∈ n.linkIfaces → tuple.mainAddr = iface
  | _ => True

/-- **Mild steps.** -/
def Mild (n : RoutingProtocol) : RepositoryAction → Prop
  | .message msg _ senderIface => n.IsNewMessage msg → n.MildMessage msg senderIface
  | .fire event => n.MildTimer event.action
  | .advance _ => True

/-! ## The invariant -/

open TimedRepository

/-- What holds in every state. -/
structure RepositoryInv (n : RoutingProtocol) : Prop where
  neighbors : n.NeighborsMatch
  twoHops : twoHopRepository.GuardedAt n
  topology : topologyRepository.GuardedAt n
  selectors : mprSelectorRepository.GuardedAt n
  ifaceAssocs : ifaceAssocRepository.GuardedAt n
  associations : associationRepository.GuardedAt n
  duplicates : duplicateRepository.GuardedAt n
  held : n.DuplicatesHeld
  /-- No event has been passed over. -/
  events : ∀ e ∈ n.events, n.now ≤ e.time

variable {n m : RoutingProtocol}

theorem guardedAt_of_state {τ κ : Type} {R : TimedRepository τ κ} (hstate : n.state = {})
    (hempty : R.tuples {} = []) : R.GuardedAt n := by
  show R.Guarded (R.tuples n.state) n.events
  rw [hstate, hempty]
  exact guarded_nil n.events

theorem IsNew.repositoryInv (h : n.IsNew) : n.RepositoryInv where
  neighbors := by
    constructor
    · simp [neighborMains, h.state]
    · simp [linkIfaces, h.state]
    · simp [neighborMains, linkIfaces, h.state]
  twoHops := guardedAt_of_state h.state rfl
  topology := guardedAt_of_state h.state rfl
  selectors := guardedAt_of_state h.state rfl
  ifaceAssocs := guardedAt_of_state h.state rfl
  associations := guardedAt_of_state h.state rfl
  duplicates := guardedAt_of_state h.state rfl
  held t ht := by simp [h.state] at ht
  events e he := by simp [h.events] at he

/-- A tuple with an event that comes in time is watched. -/
theorem watched_of_awaits (hevents : ∀ e ∈ n.events, n.now ≤ e.time) {action : TimerAction}
    {expirationTime : ℤ} (h : Awaits n.events action expirationTime) :
    n.Watched action expirationTime := by
  obtain ⟨e, he, haction, htime⟩ := h
  exact ⟨⟨e, he, haction⟩, (hevents e he).trans htime⟩

theorem RepositoryInv.consistent (h : n.RepositoryInv) : n.Consistent where
  distinct := h.neighbors.distinct
  linked a := by
    rw [h.neighbors.iff]
    constructor
    · rintro ⟨iface, hi, rfl⟩
      obtain ⟨l, hl, rfl⟩ := mem_map.mp hi
      exact ⟨l, hl, rfl⟩
    · rintro ⟨l, hl, rfl⟩
      exact ⟨_, mem_map_of_mem hl, rfl⟩
  twoHops t ht := watched_of_awaits h.events (h.twoHops.pending t ht)
  topology t ht := watched_of_awaits h.events (h.topology.pending t ht)
  selectors t ht := watched_of_awaits h.events (h.selectors.pending t ht)
  ifaceAssocs t ht := watched_of_awaits h.events (h.ifaceAssocs.pending t ht)
  associations t ht := watched_of_awaits h.events (h.associations.pending t ht)
  duplicates t ht := watched_of_awaits h.events (h.duplicates.pending t ht)

/-! ### Steps -/

variable {receiverIface senderIface : Ipv4Address} {touched : List NodeView} {msg : MessageHeader}
  {e : Event}

/-- The parts of the invariant that a step leaves alone, and those that are proved. -/
theorem repositoryInv_of_keeps (hkeeps : nodeViews.Keeps touched n m) (hevents : .events ∉ touched)
    (hclock : .clock ∉ touched) (htimes : ∀ e ∈ n.events, n.now ≤ e.time)
    (hneighbors : m.NeighborsMatch) (htwoHops : twoHopRepository.GuardedAt m)
    (htopology : topologyRepository.GuardedAt m) (hselectors : mprSelectorRepository.GuardedAt m)
    (hifaceAssocs : ifaceAssocRepository.GuardedAt m)
    (hassociations : associationRepository.GuardedAt m)
    (hduplicates : duplicateRepository.GuardedAt m) (hheld : m.DuplicatesHeld) :
    m.RepositoryInv where
  neighbors := hneighbors
  twoHops := htwoHops
  topology := htopology
  selectors := hselectors
  ifaceAssocs := hifaceAssocs
  associations := hassociations
  duplicates := hduplicates
  held := hheld
  events e he := by
    have hnow : m.now = n.now := hkeeps .clock hclock
    obtain ⟨-, -, hlater⟩ : RoutingProtocol.Same .events n m := hkeeps .events hevents
    rw [hnow]
    rcases hlater e he with h | h
    · exact htimes e h
    · exact h

theorem DuplicatesHeld.of_keeps (h : n.DuplicatesHeld) (hkeeps : nodeViews.Keeps touched n m)
    (hapart : ∀ v ∈ [.duplicates, .clock], v ∉ touched) :
    m.DuplicatesHeld := by
  have hset : m.state.duplicateSet = n.state.duplicateSet := hkeeps .duplicates (hapart _ (by simp))
  have hnow : m.now = n.now := hkeeps .clock (hapart _ (by simp))
  intro t ht
  rw [hset] at ht
  rw [hnow]
  exact h t ht

/-- **A HELLO.** -/
theorem RepositoryInv.processHello (h : n.RepositoryInv) {hello : Hello}
    (htwoHops : ∀ t ∈ n.state.twoHopNeighborSet,
      n.ListsTwoHop msg hello (t.neighborMainAddr, t.twoHopNeighborAddr) →
      Awaits n.events (.nb2hopTuple t.neighborMainAddr t.twoHopNeighborAddr)
        (n.now + msg.getVTime))
    (hselectors : ∀ t ∈ n.state.mprSelectorSet, t.mainAddr = msg.originatorAddress →
      n.IsChosen hello → Awaits n.events (.mprSelTuple t.mainAddr) (n.now + msg.getVTime)) :
    Post (n.processHello msg hello receiverIface senderIface) RepositoryInv := by
  have hwhole := n.touches_processHello msg hello receiverIface senderIface
  suffices hparts : Post (n.processHello msg hello receiverIface senderIface) fun m =>
      m.NeighborsMatch ∧ twoHopRepository.GuardedAt m ∧ mprSelectorRepository.GuardedAt m by
    refine (hwhole.and hparts).mono (fun m hm => ?_) fun _ _ => trivial
    obtain ⟨hkeeps, hnb, htwo, hsel⟩ := hm
    exact repositoryInv_of_keeps hkeeps (by decide) (by decide) h.events hnb htwo
      (h.topology.of_keeps hkeeps (by decide)) hsel
      (h.ifaceAssocs.of_keeps hkeeps (by decide))
      (h.associations.of_keeps hkeeps (by decide))
      (h.duplicates.of_keeps hkeeps (by decide))
      (h.held.of_keeps hkeeps (by decide))
  unfold RoutingProtocol.processHello
  have hlinks := (h.neighbors.linkSensing msg hello receiverIface senderIface).and
    (n.touches_linkSensing msg hello receiverIface senderIface)
  refine (wp_bind _ _ _ _).mpr (hlinks.mono (fun m hm => ?_) fun _ _ => trivial)
  obtain ⟨hnb, hkeeps⟩ := hm
  -- the neighbours keep their addresses
  have hpopulated : (m.populateNeighborSet msg hello).NeighborsMatch :=
    hnb.of_eq (map_updateFirst fun _ _ => rfl) rfl fun _ _ => rfl
  have hkeeps' : nodeViews.Keeps [.links, .neighbors, .ansn] n (m.populateNeighborSet msg hello) :=
    hkeeps.trans ((m.keeps_populateNeighborSet msg hello).mono (by decide))
  have htwo : twoHopRepository.GuardedAt
      ((m.populateNeighborSet msg hello).populateTwoHopNeighborSet msg hello) := by
    apply guarded_populateTwoHopNeighborSet (h.twoHops.of_keeps hkeeps' (by decide))
    intro t ht hlists
    have hset : (m.populateNeighborSet msg hello).state.twoHopNeighborSet
        = n.state.twoHopNeighborSet := hkeeps' .twoHops (by decide)
    have hnow : (m.populateNeighborSet msg hello).now = n.now := hkeeps' .clock (by decide)
    rw [hset] at ht
    rw [hnow]
    refine Awaits.of_keeps (htwoHops t ht ?_) hkeeps' (by decide)
    have hmain : (m.populateNeighborSet msg hello).getMainAddress = n.getMainAddress :=
      funext fun a => getMainAddress_of_keeps hkeeps' (by decide) a
    unfold ListsTwoHop listedTwoHops at hlists ⊢
    rw [hmain] at hlists
    exact hlists
  have hkeeps'' := (m.populateNeighborSet msg hello).keeps_populateTwoHopNeighborSet msg hello
  refine (touches_mprComputation _).bind fun k hk => ?_
  have hk_two := htwo.of_keeps hk (by decide)
  have hnb_k : k.NeighborsMatch :=
    (hpopulated.of_keeps hkeeps'' (by decide)).of_keeps hk (by decide)
  have hkeeps_k : nodeViews.Keeps [.links, .neighbors, .ansn, .twoHops] n k :=
    ((hkeeps'.mono (by decide)).trans (hkeeps''.mono (by decide))).trans (hk.mono (by decide))
  have hlast := k.keeps_populateMprSelectorSet msg hello
  refine ⟨hnb_k.of_keeps hlast (by decide), hk_two.of_keeps hlast (by decide), ?_⟩
  apply guarded_populateMprSelectorSet (h.selectors.of_keeps hkeeps_k (by decide))
  intro t ht ht_main hchosen
  have hset : k.state.mprSelectorSet = n.state.mprSelectorSet := hkeeps_k .selectors (by decide)
  have hnow : k.now = n.now := hkeeps_k .clock (by decide)
  have hself : k.mainAddress = n.mainAddress := (hkeeps_k .config (by decide)).1
  rw [hset] at ht
  rw [hnow]
  refine Awaits.of_keeps (hselectors t ht ht_main ?_) hkeeps_k (by decide)
  have hmain : k.getMainAddress = n.getMainAddress :=
    funext fun a => getMainAddress_of_keeps hkeeps_k (by decide) a
  unfold IsChosen at hchosen ⊢
  rw [hmain, hself] at hchosen
  exact hchosen

/-- Renaming that changes nothing. -/
theorem twoHopNeighborSet_renameNeighbors
    (h : ∀ t ∈ n.state.twoHopNeighborSet, n.getMainAddress t.neighborMainAddr = t.neighborMainAddr ∧
      n.getMainAddress t.twoHopNeighborAddr = t.twoHopNeighborAddr) :
    n.renameNeighbors.state.twoHopNeighborSet = n.state.twoHopNeighborSet := by
  refine (map_congr_left fun t ht => ?_).trans (map_id _)
  rw [(h t ht).1, (h t ht).2]
  rfl

/-- **A message that is processed.** -/
theorem RepositoryInv.processMessage (h : n.RepositoryInv) (hmild : n.MildMessage msg senderIface) :
    Post (n.processMessage msg receiverIface senderIface) RepositoryInv := by
  unfold RoutingProtocol.processMessage
  unfold MildMessage at hmild
  cases hbody : msg.body with
  | hello hello =>
    rw [hbody] at hmild
    exact h.processHello hmild.1 hmild.2
  | tc tc =>
    rw [hbody] at hmild
    have hkeeps := n.keeps_processTc msg tc senderIface
    exact repositoryInv_of_keeps hkeeps (by decide) (by decide) h.events
      (h.neighbors.of_keeps hkeeps (by decide))
      (h.twoHops.of_keeps hkeeps (by decide))
      (guarded_processTc h.topology hmild)
      (h.selectors.of_keeps hkeeps (by decide))
      (h.ifaceAssocs.of_keeps hkeeps (by decide))
      (h.associations.of_keeps hkeeps (by decide))
      (h.duplicates.of_keeps hkeeps (by decide))
      (h.held.of_keeps hkeeps (by decide))
  | mid addrs =>
    rw [hbody] at hmild
    show RepositoryInv (n.processMid msg addrs senderIface)
    have hkeeps := n.keeps_processMid msg addrs senderIface
    unfold RoutingProtocol.processMid at hkeeps ⊢
    split
    · exact h
    · rename_i hsym
      rw [if_neg hsym] at hkeeps
      obtain ⟨hifaces, hdistinct, hlinked, hnames⟩ :=
        hmild (Option.isSome_iff_ne_none.mpr fun h' => hsym (by rw [h']; rfl))
      have hassociate := n.keeps_foldl _ (fun m addr => m.keeps_associateIface msg addr) addrs
      have hmain (a : Ipv4Address) :
          (addrs.foldl (associateIface msg) n).getMainAddress a = n.mainAfter msg addrs a :=
        getMainAddress_associate msg addrs n a
      have hset : (addrs.foldl (associateIface msg) n).state.twoHopNeighborSet
          = n.state.twoHopNeighborSet := hassociate .twoHops (by decide)
      have hrename := keeps_renameNeighbors (addrs.foldl (associateIface msg) n)
      have htwo : twoHopRepository.GuardedAt
          (addrs.foldl (associateIface msg) n).renameNeighbors := by
        have hold : twoHopRepository.GuardedAt (addrs.foldl (associateIface msg) n) :=
          h.twoHops.of_keeps hassociate (by decide)
        show twoHopRepository.Guarded (renameNeighbors _).state.twoHopNeighborSet _
        rw [twoHopNeighborSet_renameNeighbors]
        · exact hold
        · intro t ht
          rw [hmain, hmain]
          exact hnames t (hset ▸ ht)
      exact repositoryInv_of_keeps hkeeps (by decide) (by decide) h.events
        (h.neighbors.processMid hdistinct hlinked) htwo
        (h.topology.of_keeps hkeeps (by decide))
        (h.selectors.of_keeps hkeeps (by decide))
        ((guarded_associateIfaces h.ifaceAssocs hifaces).of_keeps hrename (by decide))
        (h.associations.of_keeps hkeeps (by decide))
        (h.duplicates.of_keeps hkeeps (by decide))
        (h.held.of_keeps hkeeps (by decide))
  | hna networks =>
    rw [hbody] at hmild
    have hkeeps := n.keeps_processHna msg networks senderIface
    exact repositoryInv_of_keeps hkeeps (by decide) (by decide) h.events
      (h.neighbors.of_keeps hkeeps (by decide))
      (h.twoHops.of_keeps hkeeps (by decide))
      (h.topology.of_keeps hkeeps (by decide))
      (h.selectors.of_keeps hkeeps (by decide))
      (h.ifaceAssocs.of_keeps hkeeps (by decide))
      (guarded_processHna h.associations hmild)
      (h.duplicates.of_keeps hkeeps (by decide))
      (h.held.of_keeps hkeeps (by decide))

/-- **A message**, whether it is processed or not. -/
theorem RepositoryInv.recvMessage (h : n.RepositoryInv)
    (hmild : n.IsNewMessage msg → n.MildMessage msg senderIface) :
    Post (n.recvMessage msg receiverIface senderIface) RepositoryInv := by
  unfold RoutingProtocol.recvMessage
  split
  · exact h
  · rename_i hdropped
    rw [not_or] at hdropped
    have hprocessed : Post (n.processNew msg receiverIface senderIface) fun m =>
        m.RepositoryInv ∧
          m.state.findDuplicateTuple msg.originatorAddress msg.messageSequenceNumber
            = n.state.findDuplicateTuple msg.originatorAddress msg.messageSequenceNumber := by
      unfold processNew
      split
      · rename_i hnew
        have hnew' : n.IsNewMessage msg := ⟨hdropped.1, hdropped.2, Option.isNone_iff_eq_none.mp hnew⟩
        refine ((h.processMessage (hmild hnew')).and
          (n.touches_processMessage msg receiverIface senderIface)).mono (fun m hm => ?_)
            fun _ _ => trivial
        have hset : m.state.duplicateSet = n.state.duplicateSet := hm.2 .duplicates (by decide)
        refine ⟨hm.1, ?_⟩
        unfold OlsrState.findDuplicateTuple
        rw [hset]
      · exact ⟨h, rfl⟩
    refine (wp_map _ _ _ _).mpr (hprocessed.imp fun m hm => ?_)
    obtain ⟨hm, hfound⟩ := hm
    have hkeeps := m.keeps_considerForwarding msg
      (n.state.findDuplicateTuple msg.originatorAddress msg.messageSequenceNumber) receiverIface
      senderIface
    obtain ⟨hdup, hheld⟩ := guarded_considerForwarding receiverIface senderIface
      hm.duplicates hm.held hfound.symm
    exact repositoryInv_of_keeps hkeeps (by decide) (by decide) hm.events
      (hm.neighbors.of_keeps hkeeps (by decide))
      (hm.twoHops.of_keeps hkeeps (by decide))
      (hm.topology.of_keeps hkeeps (by decide))
      (hm.selectors.of_keeps hkeeps (by decide))
      (hm.ifaceAssocs.of_keeps hkeeps (by decide))
      (hm.associations.of_keeps hkeeps (by decide)) hdup hheld

/-! ### Timers -/

/-- The repository is left alone by a timer that is not its own, or is known to be guarded. -/
def TimerKeeps {τ κ : Type} (R : TimedRepository τ κ) (touched : List NodeView) (e : Event)
    (m : RoutingProtocol) : Prop :=
  (R.view ∉ touched ∧ ∀ k, R.action k ≠ e.action) ∨ R.GuardedAt m

theorem TimerKeeps.guardedAt {τ κ : Type} {R : TimedRepository τ κ} (h : TimerKeeps R touched e m) (hn : R.GuardedAt n)
    (hkeeps : nodeViews.Keeps touched { n with events := n.events.erase e } m)
    (hevents : .events ∉ touched) : R.GuardedAt m := by
  rcases h with ⟨hview, hother⟩ | h
  · have herased : R.GuardedAt { n with events := n.events.erase e } :=
      hn.erase_event e fun t _ => hother (R.key t)
    exact herased.of_keeps hkeeps (by simp [hview, hevents])
  · exact h

theorem RepositoryInv.timer (h : n.RepositoryInv)
    (hkeeps : nodeViews.Keeps touched { n with events := n.events.erase e } m)
    (hevents : .events ∉ touched) (hclock : .clock ∉ touched) (hneighbors : m.NeighborsMatch)
    (htwoHops : TimerKeeps twoHopRepository touched e m)
    (htopology : TimerKeeps topologyRepository touched e m)
    (hselectors : TimerKeeps mprSelectorRepository touched e m)
    (hifaceAssocs : TimerKeeps ifaceAssocRepository touched e m)
    (hassociations : TimerKeeps associationRepository touched e m)
    (hduplicates : TimerKeeps duplicateRepository touched e m) (hheld : m.DuplicatesHeld) :
    m.RepositoryInv :=
  repositoryInv_of_keeps hkeeps hevents hclock
    (fun e' he' => h.events e' (mem_of_mem_erase he')) hneighbors
    (htwoHops.guardedAt h.twoHops hkeeps hevents) (htopology.guardedAt h.topology hkeeps hevents)
    (hselectors.guardedAt h.selectors hkeeps hevents)
    (hifaceAssocs.guardedAt h.ifaceAssocs hkeeps hevents)
    (hassociations.guardedAt h.associations hkeeps hevents)
    (hduplicates.guardedAt h.duplicates hkeeps hevents) hheld

theorem NeighborsMatch.without (h : n.NeighborsMatch) (e : Event) :
    NeighborsMatch { n with events := n.events.erase e } := h.of_eq rfl rfl fun _ _ => rfl

theorem DuplicatesHeld.without (h : n.DuplicatesHeld) (e : Event) :
    DuplicatesHeld { n with events := n.events.erase e } := h

/-- The loss of a neighbour only removes tuples. -/
theorem guarded_neighborLoss (tuple : LinkTuple) (htwoHops : twoHopRepository.GuardedAt n)
    (hselectors : mprSelectorRepository.GuardedAt n) :
    Post (n.neighborLoss tuple) fun m =>
      twoHopRepository.GuardedAt m ∧ mprSelectorRepository.GuardedAt m := by
  unfold RoutingProtocol.neighborLoss
  have hlink := n.keeps_linkTupleUpdated tuple willDefault
  have htwo := htwoHops.of_keeps hlink (by decide)
  have hsel := hselectors.of_keeps hlink (by decide)
  refine (touches_mprComputation _).imp fun m hm => ⟨?_, ?_⟩
  · refine Guarded.of_keeps ?_ hm (by decide)
    exact htwo.sublist filter_sublist
  · refine Guarded.of_keeps ?_ hm (by decide)
    exact hsel.sublist filter_sublist

/-- The expiry of an association that no link uses. -/
theorem NeighborsMatch.ifaceAssocTupleTimerExpire (h : n.NeighborsMatch) {iface : Ipv4Address}
    (hunique : (n.state.ifaceAssocSet.map (·.ifaceAddr)).Nodup)
    (hmild : ∀ tuple, n.state.findIfaceAssocTuple iface = some tuple → tuple.time < n.now →
      iface ∈ n.linkIfaces → tuple.mainAddr = iface) :
    (n.ifaceAssocTupleTimerExpire iface).NeighborsMatch := by
  unfold RoutingProtocol.ifaceAssocTupleTimerExpire tupleTimerExpire
  split
  · exact h
  · rename_i tuple hfound
    split
    · rename_i hexpired
      have hkey : tuple.ifaceAddr = iface := by
        have := List.find?_some hfound
        exact beq_iff_eq.mp this
      have hmem : tuple ∈ n.state.ifaceAssocSet := mem_of_find?_eq_some hfound
      refine h.of_eq rfl rfl fun a ha => ?_
      rw [getMainAddress_eq, getMainAddress_eq]
      by_cases heq : a = iface
      · -- the only association of the interface is gone
        have hnone : (n.withState (·.eraseIfaceAssocTuple tuple)).state.findIfaceAssocTuple a
            = none := by
          apply List.find?_eq_none.mpr
          intro u hu hu_key
          have hgone := (mem_eraseP_iff hunique hmem (by simp [IfaceAssocTuple.same])
            (fun v _ hv => by
              simp only [IfaceAssocTuple.same, Bool.and_eq_true, beq_iff_eq] at hv
              exact hv.1)).mp hu
          exact hgone.2 ((beq_iff_eq.mp hu_key).trans (heq.trans hkey.symm))
        rw [hnone, heq, hfound]
        exact (hmild tuple hfound hexpired (heq ▸ ha)).symm
      · have hother : (n.withState (·.eraseIfaceAssocTuple tuple)).state.findIfaceAssocTuple a
            = n.state.findIfaceAssocTuple a := by
          apply find?_eraseP
          intro u hu
          simp only [IfaceAssocTuple.same, Bool.and_eq_true, beq_iff_eq] at hu
          simpa [hu.1, hkey] using Ne.symm heq
        rw [hother]
    · exact h.of_eq rfl rfl fun _ _ => rfl

/-- **The timer of a link.** -/
theorem RepositoryInv.linkTupleTimerExpire (h : n.RepositoryInv) {iface : Ipv4Address}
    (hk : e.action = .linkTuple iface) (hmild : n.MildTimer (.linkTuple iface)) :
    Post ({ n with events := n.events.erase e }.linkTupleTimerExpire iface) RepositoryInv := by
  have hwhole := touches_linkTupleTimerExpire { n with events := n.events.erase e } iface
  have hnb := h.neighbors.without e
  have htwo : twoHopRepository.GuardedAt { n with events := n.events.erase e } :=
    h.twoHops.erase_event e fun t _ => by rw [hk]; rintro ⟨⟩
  have hsel : mprSelectorRepository.GuardedAt { n with events := n.events.erase e } :=
    h.selectors.erase_event e fun t _ => by rw [hk]; rintro ⟨⟩
  suffices hparts : Post ({ n with events := n.events.erase e }.linkTupleTimerExpire iface) fun m =>
      m.NeighborsMatch ∧ twoHopRepository.GuardedAt m ∧ mprSelectorRepository.GuardedAt m by
    refine (hwhole.and hparts).mono (fun m hm => ?_) fun _ _ => trivial
    obtain ⟨hkeeps, hnb, htwo, hsel⟩ := hm
    exact h.timer hkeeps (by decide) (by decide) hnb (.inr htwo)
      (.inl ⟨by decide, by rw [hk]; rintro k ⟨⟩⟩) (.inr hsel)
      (.inl ⟨by decide, by rw [hk]; rintro k ⟨⟩⟩) (.inl ⟨by decide, by rw [hk]; rintro k ⟨⟩⟩)
      (.inl ⟨by decide, by rw [hk]; rintro k ⟨⟩⟩)
      ((h.held.without e).of_keeps hkeeps (by decide))
  have hscheduled (m : RoutingProtocol) (time : ℤ) (action : TimerAction)
      (hm : m.NeighborsMatch ∧ twoHopRepository.GuardedAt m ∧ mprSelectorRepository.GuardedAt m) :
      (m.schedule (m.delay time) action).NeighborsMatch ∧
        twoHopRepository.GuardedAt (m.schedule (m.delay time) action) ∧
        mprSelectorRepository.GuardedAt (m.schedule (m.delay time) action) := by
    have hkeeps := m.keeps_schedule (m.delay_nonneg time) action
    exact ⟨hm.1.of_keeps hkeeps (by decide),
      hm.2.1.of_keeps hkeeps (by decide), hm.2.2.of_keeps hkeeps (by decide)⟩
  unfold RoutingProtocol.linkTupleTimerExpire
  split
  · exact ⟨hnb, htwo, hsel⟩
  · rename_i tuple hfound
    have hmem : tuple ∈ n.state.linkSet := mem_of_find?_eq_some hfound
    split
    · rename_i hexpired
      refine ⟨hnb.removeLinkTuple hmem ?_, ?_, ?_⟩
      · exact hmild tuple hfound hexpired
      · exact htwo.of_keeps (keeps_removeLinkTuple _ tuple) (by decide)
      · exact hsel.of_keeps (keeps_removeLinkTuple _ tuple) (by decide)
    · split
      · refine (wp_map _ _ _ _).mpr ?_
        split
        · exact hscheduled _ _ _ ⟨hnb.of_eq rfl rfl fun _ _ => rfl, htwo, hsel⟩
        · refine ((hnb.neighborLoss hmem).and (guarded_neighborLoss tuple htwo hsel)).mono
            (fun m hm => hscheduled m _ _ hm) fun _ _ => trivial
      · exact hscheduled _ _ _ ⟨hnb, htwo, hsel⟩

/-- **A timer.** -/
theorem RepositoryInv.fire (h : n.RepositoryInv) (hnow : e.time = n.now)
    (hmild : n.MildTimer e.action) : Post (n.act (.fire e)) RepositoryInv := by
  have hnb := h.neighbors.without e
  have hheld := h.held.without e
  obtain ⟨time, action⟩ := e
  show Post (timerExpire action { n with events := n.events.erase ⟨time, action⟩ }) RepositoryInv
  cases action with
  | dupTuple address sequenceNumber =>
    have hkeeps := keeps_dupTupleTimerExpire
      { n with events := n.events.erase ⟨time, .dupTuple address sequenceNumber⟩ } address
      sequenceNumber
    refine h.timer hkeeps (by decide) (by decide) (hnb.of_keeps hkeeps (by decide))
      (.inl ⟨by decide, nofun⟩) (.inl ⟨by decide, nofun⟩) (.inl ⟨by decide, nofun⟩)
      (.inl ⟨by decide, nofun⟩) (.inl ⟨by decide, nofun⟩)
      (.inr (guarded_dupTupleTimerExpire h.duplicates rfl)) ?_
    -- tuples are only removed
    have hclock := hkeeps .clock (by decide)
    intro t ht
    rw [hclock]
    apply h.held t
    unfold dupTupleTimerExpire tupleTimerExpire at ht
    split at ht
    · exact ht
    · split at ht
      · exact mem_of_mem_eraseP ht
      · exact ht
  | linkTuple iface => exact h.linkTupleTimerExpire rfl hmild
  | nb2hopTuple neighborMainAddr twoHopNeighborAddr =>
    have hkeeps := keeps_nb2hopTupleTimerExpire
      { n with events := n.events.erase ⟨time, .nb2hopTuple neighborMainAddr twoHopNeighborAddr⟩ }
      neighborMainAddr twoHopNeighborAddr
    exact h.timer hkeeps (by decide) (by decide) (hnb.of_keeps hkeeps (by decide))
      (.inr (guarded_nb2hopTupleTimerExpire h.twoHops rfl))
      (.inl ⟨by decide, nofun⟩) (.inl ⟨by decide, nofun⟩) (.inl ⟨by decide, nofun⟩)
      (.inl ⟨by decide, nofun⟩) (.inl ⟨by decide, nofun⟩)
      (hheld.of_keeps hkeeps (by decide))
  | mprSelTuple mainAddr =>
    have hkeeps := keeps_mprSelTupleTimerExpire
      { n with events := n.events.erase ⟨time, .mprSelTuple mainAddr⟩ } mainAddr
    exact h.timer hkeeps (by decide) (by decide) (hnb.of_keeps hkeeps (by decide))
      (.inl ⟨by decide, nofun⟩) (.inl ⟨by decide, nofun⟩)
      (.inr (guarded_mprSelTupleTimerExpire h.selectors rfl))
      (.inl ⟨by decide, nofun⟩) (.inl ⟨by decide, nofun⟩) (.inl ⟨by decide, nofun⟩)
      (hheld.of_keeps hkeeps (by decide))
  | topologyTuple destAddr lastAddr =>
    have hkeeps := keeps_topologyTupleTimerExpire
      { n with events := n.events.erase ⟨time, .topologyTuple destAddr lastAddr⟩ } destAddr lastAddr
    exact h.timer hkeeps (by decide) (by decide) (hnb.of_keeps hkeeps (by decide))
      (.inl ⟨by decide, nofun⟩)
      (.inr (guarded_topologyTupleTimerExpire h.topology rfl))
      (.inl ⟨by decide, nofun⟩) (.inl ⟨by decide, nofun⟩) (.inl ⟨by decide, nofun⟩)
      (.inl ⟨by decide, nofun⟩)
      (hheld.of_keeps hkeeps (by decide))
  | ifaceAssocTuple iface =>
    have hkeeps := keeps_ifaceAssocTupleTimerExpire
      { n with events := n.events.erase ⟨time, .ifaceAssocTuple iface⟩ } iface
    exact h.timer hkeeps (by decide) (by decide)
      (hnb.ifaceAssocTupleTimerExpire h.ifaceAssocs.distinct hmild)
      (.inl ⟨by decide, nofun⟩) (.inl ⟨by decide, nofun⟩) (.inl ⟨by decide, nofun⟩)
      (.inr (guarded_ifaceAssocTupleTimerExpire h.ifaceAssocs rfl))
      (.inl ⟨by decide, nofun⟩) (.inl ⟨by decide, nofun⟩)
      (hheld.of_keeps hkeeps (by decide))
  | associationTuple gatewayAddr networkAddr netmask =>
    have hkeeps := keeps_associationTupleTimerExpire
      { n with events := n.events.erase ⟨time, .associationTuple gatewayAddr networkAddr netmask⟩ }
      gatewayAddr networkAddr netmask
    exact h.timer hkeeps (by decide) (by decide) (hnb.of_keeps hkeeps (by decide))
      (.inl ⟨by decide, nofun⟩) (.inl ⟨by decide, nofun⟩) (.inl ⟨by decide, nofun⟩)
      (.inl ⟨by decide, nofun⟩)
      (.inr (guarded_associationTupleTimerExpire h.associations rfl))
      (.inl ⟨by decide, nofun⟩)
      (hheld.of_keeps hkeeps (by decide))

/-- Time passes, but not past an event. -/
theorem RepositoryInv.advance (h : n.RepositoryInv) {time : ℤ} (hlater : n.now ≤ time)
    (hevents : ∀ e ∈ n.events, time ≤ e.time) : RepositoryInv { n with now := time } where
  neighbors := h.neighbors.of_eq rfl rfl fun _ _ => rfl
  twoHops := h.twoHops
  topology := h.topology
  selectors := h.selectors
  ifaceAssocs := h.ifaceAssocs
  associations := h.associations
  duplicates := h.duplicates
  held t ht := (h.held t ht).trans (Int.add_le_add_right hlater _)
  events := hevents

/-- **One step.** -/
theorem RepositoryInv.step (h : n.RepositoryInv) (a : RepositoryAction)
    (hen : repositoryMachine.enabled n a) (hmild : n.Mild a) :
    Post (repositoryMachine.step n a) RepositoryInv := by
  cases a with
  | message msg receiverIface senderIface => exact h.recvMessage hmild
  | fire event => exact h.fire hen.2 hmild
  | advance time => exact h.advance hen.1 hen.2

/-! ## Runs -/

/-- **The repositories stay consistent** in every run of mild steps. -/
theorem repositoriesConsistent_of_run {as : List RepositoryAction} (hnew : n.IsNew)
    (hrun : repositoryMachine.Run Mild n as m) : m.Consistent := by
  have hinv : m.RepositoryInv :=
    hrun.invariant RepositoryInv (fun s a hs hen hC => hs.step a hen hC) hnew.repositoryInv
  exact hinv.consistent

theorem fresh_isNew (mainAddress : Ipv4Address) : (fresh mainAddress).IsNew := ⟨rfl, rfl⟩

instance (n : RoutingProtocol) (a : RepositoryAction) :
    Decidable (repositoryMachine.enabled n a) :=
  inferInstanceAs (Decidable (repositoryEnabled n a))

/-- Steps that are mild for a simple reason: the node knows nothing, or the timer is not one of a
link or of an interface. -/
def plainlyMild (n : RoutingProtocol) : RepositoryAction → Bool
  | .message _ _ _ => decide (n.state = {})
  | .fire ⟨_, .linkTuple _⟩ => false
  | .fire ⟨_, .ifaceAssocTuple _⟩ => false
  | _ => true

theorem mild_of_plainlyMild (n : RoutingProtocol) (a : RepositoryAction)
    (h : n.plainlyMild a = true) : n.Mild a := by
  cases a with
  | message msg receiverIface senderIface =>
    have hstate : n.state = {} := of_decide_eq_true h
    intro _
    unfold MildMessage
    cases msg.body with
    | hello hello => simp [hstate]
    | tc tc => simp [hstate]
    | mid addrs => simp [hstate, Hears, OlsrState.findSymLinkTuple, OlsrState.findLinkTuple]
    | hna networks => simp [hstate]
  | fire event =>
    obtain ⟨time, action⟩ := event
    cases action with
    | linkTuple iface => cases h
    | ifaceAssocTuple iface => cases h
    | _ => trivial
  | advance time => trivial

/-- A neighbour chooses the node as a relay, and its choice expires. -/
theorem repositoriesConsistent_of_run_choice : ∃ m : RoutingProtocol, m.Consistent ∧ m.ansnSteps = 4 := by
  obtain ⟨m, hrun, hsteps⟩ := Machine.exists_run_of_exec (m := repositoryMachine) plainlyMild
    (fun m => decide (m.ansnSteps = 4)) (fresh 1)
    [.message (helloOf 3 0x07 10 1) 1 3, .advance 8000001000,
      .fire ⟨8000001000, .mprSelTuple 3⟩] (by decide +kernel)
  exact ⟨m, repositoriesConsistent_of_run (fresh_isNew 1) (hrun.mono mild_of_plainlyMild),
    of_decide_eq_true hsteps⟩

/-- **They do not always**: a neighbour that is heard on two interfaces becomes two neighbours, and
a MID message gives both the same main address. -/
theorem not_repositoriesConsistent_of_run : ¬ ∀ (n m : RoutingProtocol) (as : List RepositoryAction),
    n.IsNew → repositoryMachine.Run (fun _ _ => True) n as m → m.Consistent := by
  intro hall
  obtain ⟨m, hrun, htwice⟩ := Machine.exists_run_of_exec (m := repositoryMachine)
    (fun _ _ => true) (fun m => decide (¬ m.neighborMains.Nodup)) (fresh 1)
    [.message (helloOf 3 0x07 6 1) 1 3, .message (helloOf 3 0x07 6 1) 1 4,
      .message { helloOf 3 0x07 6 1 with body := .mid [4] } 1 3] (by decide +kernel)
  exact of_decide_eq_true htwice
    (hall _ m _ (fresh_isNew 1) (hrun.mono fun _ _ _ => trivial)).distinct

end RoutingProtocol

end Ns3Dsme.Olsr
