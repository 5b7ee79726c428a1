/-
# The topology set tracks the advertised set

An originator of TC messages and a node that gets them in order, with some of them lost.  After
the node has processed a TC message, its topology tuples for the originator that have not expired
are the neighbours listed in the message, provided that ANSNs never go down as plain numbers and
that a neighbour is never dropped from the list without a step of the ANSN.
-/
import Ns3Dsme.Lib.Machine
import Ns3Dsme.Olsr.AdvertisedSet
import Mathlib.Data.List.Infix

open List Option KeyedList Program Program.Views

namespace Ns3Dsme.Olsr

open RoutingProtocol

/-! ## The originator and the node -/

/-- A TC message on its way.  `stamp` is a ghost: the steps of the ANSN when it was sent. -/
structure Advertisement where
  stamp : ℕ
  msg : MessageHeader
  tc : Tc
  deriving DecidableEq

/-- The two nodes and the messages between them.  Ghosts are all messages sent and the last one
processed. -/
structure Advertising where
  origin : RoutingProtocol
  receiver : RoutingProtocol
  air : List Advertisement := []
  sent : List Advertisement := []
  last : Option Advertisement := none
  deriving DecidableEq

inductive AdvertisingAction
  | origin (a : NodeAction)
  | receiver (a : NodeAction)
  /-- The receiver processes the next message, which comes from one of its neighbours. -/
  | deliver (senderIface : Ipv4Address)
  /-- The next message is lost. -/
  | lose
  deriving DecidableEq

/-- The message that `SendTc` makes. -/
def RoutingProtocol.advertisement (n : RoutingProtocol) : Advertisement where
  stamp := n.ansnSteps
  msg := n.tcMessage
  tc := ⟨n.ansn, n.advertised⟩

/-- The queue of the originator and the relays on the way are one channel that keeps the
order. -/
def advertisingStep (c : Advertising) : AdvertisingAction → Except OlsrFault Advertising
  | .origin .sendTc =>
    .ok { c with
      origin := c.origin.sendTc
      air := c.air ++ [c.origin.advertisement]
      sent := c.sent ++ [c.origin.advertisement] }
  | .origin a => (c.origin.act a).map fun origin => { c with origin }
  | .receiver a => (c.receiver.act a).map fun receiver => { c with receiver }
  | .deliver senderIface =>
    match c.air with
    | f :: air =>
      .ok { c with
        receiver := c.receiver.processTc f.msg f.tc senderIface
        air
        last := some f }
    | [] => .ok c
  | .lose => .ok { c with air := c.air.tail }

/-- The message is a TC message of the node. -/
def MessageHeader.isTcOf (msg : MessageHeader) (addr : Ipv4Address) : Bool :=
  msg.originatorAddress == addr && match msg.body with
    | .tc _ => true
    | _ => false

/-- The TC messages of the originator come through the channel, from a symmetric neighbour, and
fewer than `2 ^ 15` steps of the ANSN lie between two that are processed. -/
def advertisingEnabled (c : Advertising) : AdvertisingAction → Prop
  | .origin a => c.origin.enabled a
  | .receiver (.recv messages receiverIface senderIface) =>
    c.receiver.enabled (.recv messages receiverIface senderIface) ∧
      ∀ msg ∈ messages, msg.isTcOf c.origin.mainAddress = false
  | .receiver a => c.receiver.enabled a
  | .deliver senderIface =>
    (c.receiver.state.findSymLinkTuple senderIface c.receiver.now).isSome = true ∧
      (c.air.head?.any fun f => c.last.all fun g => decide (f.stamp < g.stamp + 2 ^ 15)) = true
  | .lose => True

instance (c : Advertising) (a : AdvertisingAction) : Decidable (advertisingEnabled c a) := by
  unfold advertisingEnabled
  split <;> infer_instance

/-- **An originator of TC messages and a node that gets them.** -/
def advertisingMachine : Machine Advertising AdvertisingAction OlsrFault where
  enabled := advertisingEnabled
  step := advertisingStep

/-! ## What is wanted -/

/-- No TC message has been sent, and nothing is known of the originator. -/
structure Advertising.IsNew (c : Advertising) : Prop where
  air : c.air = []
  sent : c.sent = []
  last : c.last = none
  ansn : c.origin.ansn = 65535
  ansnSteps : c.origin.ansnSteps = 0
  topologySet : c.receiver.state.topologySet = []

/-- The tuples for the originator that have not expired are what the last message lists. -/
def Advertising.Tracks (c : Advertising) : Prop :=
  ∃ f, c.last = some f ∧ ∀ addr, addr ∈ f.tc.neighborAddresses ↔
    ∃ t ∈ c.receiver.state.topologySet, t.lastAddr = c.origin.mainAddress ∧ t.destAddr = addr ∧
      c.receiver.now ≤ t.expirationTime

/-- Every neighbour listed since the last step of the ANSN is still a selector when the next list
is sent, and no tuple for the originator has a larger number than the message that is
processed. -/
def Renewed (c : Advertising) : AdvertisingAction → Prop
  | .origin .sendTc =>
    ∀ g ∈ c.sent, g.stamp = c.origin.ansnSteps → g.tc.neighborAddresses ⊆ c.origin.advertised
  | .deliver _ =>
    (c.air.head?.all fun f =>
      (c.receiver.state.findNewerTopologyTuple c.origin.mainAddress f.tc.ansn).isNone) = true
  | _ => True

/-! ## The receiver -/

section

variable {o : Ipv4Address} {n m k : RoutingProtocol}

/-- The tuples for an originator have not been added to; only their times may differ. -/
def Inherits (o : Ipv4Address) (n m : RoutingProtocol) : Prop :=
  ∀ t ∈ m.state.topologySet, t.lastAddr = o →
    ∃ u ∈ n.state.topologySet, u.lastAddr = o ∧ u.destAddr = t.destAddr ∧
      u.sequenceNumber = t.sequenceNumber

theorem Inherits.refl (n : RoutingProtocol) : Inherits o n n :=
  fun t ht hlast => ⟨t, ht, hlast, rfl, rfl⟩

theorem Inherits.trans (h : Inherits o n m) (h' : Inherits o m k) : Inherits o n k := by
  intro t ht hlast
  obtain ⟨u, hu, hu_last, hu_dest, hu_seq⟩ := h' t ht hlast
  obtain ⟨v, hv, hv_last, hv_dest, hv_seq⟩ := h u hu hu_last
  exact ⟨v, hv, hv_last, hv_dest.trans hu_dest, hv_seq.trans hu_seq⟩

theorem inherits_of_subset (h : m.state.topologySet ⊆ n.state.topologySet) : Inherits o n m :=
  fun t ht hlast => ⟨t, h ht, hlast, rfl, rfl⟩

theorem inherits_of_keeps {touched : List NodeView} (h : nodeViews.Keeps touched n m)
    (htopology : .topology ∉ touched) : Inherits o n m := by
  have hset : m.state.topologySet = n.state.topologySet := h .topology htopology
  apply inherits_of_subset
  rw [hset]
  exact List.Subset.refl _

/-- A tuple that is refreshed keeps its key. -/
theorem inherits_refreshTopologyTuple (destAddr lastAddr : Ipv4Address) (expirationTime : ℤ) :
    Inherits o n (n.withState (·.refreshTopologyTuple destAddr lastAddr expirationTime)) := by
  intro t ht hlast
  rcases mem_updateFirst ht with h | ⟨u, hu, -, rfl⟩
  · exact ⟨t, h, hlast, rfl, rfl⟩
  · exact ⟨u, hu, hlast, rfl, rfl⟩

/-- What an advertised neighbour adds: at most a tuple for it with the number of the message. -/
theorem mem_advertisedNeighbor {msg : MessageHeader} {ansn : BitVec 16} {addr : Ipv4Address}
    {t : TopologyTuple} (h : t ∈ (n.advertisedNeighbor msg ansn addr).state.topologySet) :
    (∃ u ∈ n.state.topologySet, u.lastAddr = t.lastAddr ∧ u.destAddr = t.destAddr ∧
      u.sequenceNumber = t.sequenceNumber) ∨
    (t.destAddr = addr ∧ t.lastAddr = msg.originatorAddress ∧ t.sequenceNumber = ansn) := by
  unfold advertisedNeighbor at h
  dsimp only at h
  split at h
  · exact .inl (inherits_refreshTopologyTuple _ _ _ t h rfl)
  · rcases mem_append.mp h with h | h
    · exact .inl ⟨t, h, rfl, rfl, rfl⟩
    · rw [mem_singleton.mp h]
      exact .inr ⟨rfl, rfl, rfl⟩

/-- TC messages of other originators. -/
theorem inherits_processTc {msg : MessageHeader} (hmsg : msg.originatorAddress ≠ o) (tc : Tc)
    (senderIface : Ipv4Address) (n : RoutingProtocol) :
    Inherits o n (n.processTc msg tc senderIface) := by
  have hloop (addrs : List Ipv4Address) (n : RoutingProtocol) :
      Inherits o n (addrs.foldl (advertisedNeighbor msg tc.ansn) n) := by
    induction addrs generalizing n with
    | nil => exact .refl n
    | cons addr addrs ih =>
      refine Inherits.trans (fun t ht hlast => ?_) (ih _)
      rcases mem_advertisedNeighbor ht with ⟨u, hu, hu_last, hu_rest⟩ | ⟨-, hother, -⟩
      · exact ⟨u, hu, hu_last.trans hlast, hu_rest⟩
      · exact absurd (hother.symm.trans hlast) hmsg
  unfold processTc
  split
  · exact .refl n
  · split
    · exact .refl n
    · refine Inherits.trans (inherits_of_subset ?_) (hloop _ _)
      exact filter_subset_self _

/-- What a message that is not a TC message of the originator does to the receiver. -/
theorem inherits_recvMessage {msg : MessageHeader} (hmsg : msg.isTcOf o = false)
    (receiverIface senderIface : Ipv4Address) (n : RoutingProtocol) :
    Post (n.recvMessage msg receiverIface senderIface) (Inherits o n) := by
  have hprocess : Post (n.processMessage msg receiverIface senderIface) (Inherits o n) := by
    unfold processMessage
    cases hbody : msg.body with
    | hello hello =>
      exact (n.touches_processHello msg hello _ _).imp fun m hm => inherits_of_keeps hm (by simp)
    | tc tc =>
      have hother : msg.originatorAddress ≠ o := by
        intro heq
        simp [MessageHeader.isTcOf, hbody, heq] at hmsg
      exact inherits_processTc hother tc senderIface n
    | mid addrs => exact inherits_of_keeps (n.keeps_processMid msg addrs senderIface) (by simp)
    | hna networks =>
      exact inherits_of_keeps (n.keeps_processHna msg networks senderIface) (by simp)
  unfold recvMessage
  split
  · exact Inherits.refl n
  · have hnew : Post (n.processNew msg receiverIface senderIface) (Inherits o n) := by
      unfold processNew
      split
      · exact hprocess
      · exact Inherits.refl n
    refine (wp_map _ _ _ _).mpr (hnew.imp fun m hm => hm.trans ?_)
    exact inherits_of_keeps (m.keeps_considerForwarding msg _ _ _) (by simp)

/-- Timers only remove tuples. -/
theorem inherits_timerExpire (action : TimerAction) (n : RoutingProtocol) :
    Post (n.timerExpire action) (Inherits o n) := by
  cases action with
  | dupTuple addr seq =>
    exact inherits_of_keeps (n.keeps_dupTupleTimerExpire addr seq) (by simp)
  | linkTuple iface =>
    exact (n.touches_linkTupleTimerExpire iface).imp fun m hm => inherits_of_keeps hm (by simp)
  | nb2hopTuple a b => exact inherits_of_keeps (n.keeps_nb2hopTupleTimerExpire a b) (by simp)
  | mprSelTuple addr => exact inherits_of_keeps (n.keeps_mprSelTupleTimerExpire addr) (by simp)
  | ifaceAssocTuple a => exact inherits_of_keeps (n.keeps_ifaceAssocTupleTimerExpire a) (by simp)
  | associationTuple g w k =>
    exact inherits_of_keeps (n.keeps_associationTupleTimerExpire g w k) (by simp)
  | topologyTuple d l =>
    show Inherits o n (n.topologyTupleTimerExpire d l)
    unfold topologyTupleTimerExpire tupleTimerExpire
    split
    · exact .refl n
    · split
      · exact inherits_of_subset eraseP_subset
      · exact inherits_of_subset (List.Subset.refl _)

/-- There is a tuple for the neighbour that has not expired. -/
def HasLive (o : Ipv4Address) (n : RoutingProtocol) (addr : Ipv4Address) : Prop :=
  ∃ t ∈ n.state.topologySet, t.lastAddr = o ∧ t.destAddr = addr ∧ n.now ≤ t.expirationTime

/-- An advertised neighbour has a tuple that has not expired. -/
theorem hasLive_advertisedNeighbor (msg : MessageHeader) (ansn : BitVec 16) (addr : Ipv4Address)
    (n : RoutingProtocol) :
    HasLive msg.originatorAddress (n.advertisedNeighbor msg ansn addr) addr := by
  have htime : n.now ≤ n.now + msg.getVTime := by
    have := getVTime_nonneg msg
    omega
  unfold advertisedNeighbor
  dsimp only
  split
  · rename_i t hfound
    have hkey := List.find?_some hfound
    rw [Bool.and_eq_true, beq_iff_eq, beq_iff_eq] at hkey
    exact ⟨_, mem_updateFirst_of_find? hfound, hkey.2, hkey.1, htime⟩
  · exact ⟨_, mem_append_right _ mem_cons_self, rfl, rfl, htime⟩

/-- Tuples that have not expired stay so while others are refreshed or added. -/
theorem HasLive.advertisedNeighbor {b : Ipv4Address} (h : HasLive o n b) (msg : MessageHeader)
    (ansn : BitVec 16) (addr : Ipv4Address) : HasLive o (n.advertisedNeighbor msg ansn addr) b := by
  obtain ⟨t, ht, hlast, hdest, hlive⟩ := h
  have htime : n.now ≤ n.now + msg.getVTime := by
    have := getVTime_nonneg msg
    omega
  unfold RoutingProtocol.advertisedNeighbor
  dsimp only
  split
  · -- either this tuple is refreshed, or it is left alone
    rcases mem_updateFirst_or (p := fun t => t.destAddr == addr && t.lastAddr == msg.originatorAddress)
      (f := fun t => { t with expirationTime := n.now + msg.getVTime }) ht with h | h
    · exact ⟨t, h, hlast, hdest, hlive⟩
    · exact ⟨_, h, hlast, hdest, htime⟩
  · exact ⟨t, mem_append_left _ ht, hlast, hdest, hlive⟩

/-- **A TC message of the originator.**  If no tuple has a larger number, and the tuples with the
same number are for neighbours that the message lists, then afterwards the tuples that have not
expired are for the neighbours that it lists. -/
theorem processTc_own {msg : MessageHeader} {tc : Tc} {senderIface : Ipv4Address}
    (hsym : (n.state.findSymLinkTuple senderIface n.now).isSome = true)
    (hnewer : (n.state.findNewerTopologyTuple msg.originatorAddress tc.ansn).isNone = true)
    (hsame : ∀ t ∈ n.state.topologySet, t.lastAddr = msg.originatorAddress →
      t.sequenceNumber = tc.ansn → t.destAddr ∈ tc.neighborAddresses) :
    (∀ t ∈ (n.processTc msg tc senderIface).state.topologySet,
      t.lastAddr = msg.originatorAddress →
        t.sequenceNumber = tc.ansn ∧ t.destAddr ∈ tc.neighborAddresses) ∧
    ∀ addr ∈ tc.neighborAddresses,
      HasLive msg.originatorAddress (n.processTc msg tc senderIface) addr := by
  have hloop (addrs : List Ipv4Address) : ∀ n : RoutingProtocol,
      (∀ t ∈ (addrs.foldl (advertisedNeighbor msg tc.ansn) n).state.topologySet,
        t.lastAddr = msg.originatorAddress →
          (∃ u ∈ n.state.topologySet, u.lastAddr = msg.originatorAddress ∧
            u.destAddr = t.destAddr ∧ u.sequenceNumber = t.sequenceNumber) ∨
          (t.sequenceNumber = tc.ansn ∧ t.destAddr ∈ addrs)) ∧
      ∀ addr, addr ∈ addrs ∨ HasLive msg.originatorAddress n addr →
        HasLive msg.originatorAddress
          (addrs.foldl (advertisedNeighbor msg tc.ansn) n) addr := by
    induction addrs with
    | nil =>
      refine fun n => ⟨fun t ht hlast => .inl ⟨t, ht, hlast, rfl, rfl⟩, ?_⟩
      rintro addr (h | h)
      · cases h
      · exact h
    | cons a addrs ih =>
      intro n
      obtain ⟨ihmem, ihlive⟩ := ih (n.advertisedNeighbor msg tc.ansn a)
      constructor
      · intro t ht hlast
        rcases ihmem t ht hlast with ⟨u, hu, hu_last, hu_dest, hu_seq⟩ | ⟨hseq, hdest⟩
        · rcases mem_advertisedNeighbor hu with ⟨v, hv, hv_last, hv_dest, hv_seq⟩ | ⟨hd, -, hs⟩
          · exact .inl ⟨v, hv, hv_last.trans hu_last, hv_dest.trans hu_dest,
              hv_seq.trans hu_seq⟩
          · exact .inr ⟨hu_seq ▸ hs, by simp [← hu_dest, hd]⟩
        · exact .inr ⟨hseq, mem_cons_of_mem _ hdest⟩
      · intro addr haddr
        apply ihlive
        rcases haddr with h | h
        · rcases mem_cons.mp h with rfl | h
          · exact .inr (hasLive_advertisedNeighbor msg tc.ansn addr n)
          · exact .inl h
        · exact .inr (h.advertisedNeighbor msg tc.ansn a)
  unfold processTc
  rw [if_neg (by rw [isNone_iff_eq_none]; exact isSome_iff_ne_none.mp hsym),
    if_neg (by rw [isNone_iff_eq_none.mp hnewer]; exact Bool.false_ne_true)]
  obtain ⟨hmem, hlive⟩ := hloop tc.neighborAddresses
    (n.withState (·.eraseOlderTopologyTuples msg.originatorAddress tc.ansn))
  refine ⟨fun t ht hlast => ?_, fun addr haddr => hlive addr (.inl haddr)⟩
  rcases hmem t ht hlast with ⟨u, hu, hu_last, hu_dest, hu_seq⟩ | h
  · obtain ⟨hold, hkept⟩ := mem_filter.mp hu
    -- what is neither newer nor older has the same number
    have hle : ¬ tc.ansn < u.sequenceNumber := by
      intro hlt
      rw [isNone_iff_eq_none] at hnewer
      have := List.find?_eq_none.mp hnewer u hold
      simp [hu_last, hlt] at this
    have hge : ¬ u.sequenceNumber < tc.ansn := by
      intro hlt
      simp [hu_last, hlt] at hkept
    have hseq : u.sequenceNumber = tc.ansn := by
      apply BitVec.eq_of_toNat_eq
      rw [BitVec.lt_def] at hle hge
      omega
    exact ⟨hu_seq ▸ hseq, hu_dest ▸ hsame u hold hu_last hseq⟩
  · exact h

end

/-! ## The invariant -/

/-- What holds in every state. -/
structure TrackInv (c : Advertising) : Prop where
  ansn : c.origin.ansn = 65535 + BitVec.ofNat 16 c.origin.ansnSteps
  stamp : ∀ g ∈ c.sent, g.stamp ≤ c.origin.ansnSteps
  number : ∀ g ∈ c.sent, g.tc.ansn = 65535 + BitVec.ofNat 16 g.stamp
  originator : ∀ g ∈ c.sent, g.msg.originatorAddress = c.origin.mainAddress
  /-- Messages sent without a step of the ANSN between them list more and more neighbours. -/
  renewed : c.sent.Pairwise fun f g => f.stamp ≤ g.stamp ∧
    (f.stamp = g.stamp → f.tc.neighborAddresses ⊆ g.tc.neighborAddresses)
  /-- The channel keeps the order, and the message processed last has left it. -/
  order : ∃ gone, c.sent = gone ++ c.air ∧ ∀ g ∈ c.last, g ∈ gone
  /-- What is known of the originator comes from the message processed last. -/
  recorded : ∀ t ∈ c.receiver.state.topologySet, t.lastAddr = c.origin.mainAddress →
    ∃ g, c.last = some g ∧ t.sequenceNumber = g.tc.ansn ∧ t.destAddr ∈ g.tc.neighborAddresses

section

variable {c : Advertising}

theorem Advertising.IsNew.trackInv (h : c.IsNew) : TrackInv c where
  ansn := by simp [h.ansn, h.ansnSteps]
  stamp g hg := by simp [h.sent] at hg
  number g hg := by simp [h.sent] at hg
  originator g hg := by simp [h.sent] at hg
  renewed := by simp [h.sent]
  order := ⟨[], by simp [h.sent, h.air], by simp [h.last]⟩
  recorded t ht := by simp [h.topologySet] at ht

/-- Two messages with the same number, fewer than `2 ^ 16` steps apart, have the same stamp. -/
theorem stamp_eq_of_number_eq {f g : Advertisement}
    (hf : f.tc.ansn = 65535 + BitVec.ofNat 16 f.stamp)
    (hg : g.tc.ansn = 65535 + BitVec.ofNat 16 g.stamp) (hle : g.stamp ≤ f.stamp)
    (hclose : f.stamp < g.stamp + 2 ^ 16) (h : g.tc.ansn = f.tc.ansn) : g.stamp = f.stamp := by
  rw [hf, hg] at h
  have hnat := congrArg BitVec.toNat h
  rw [BitVec.toNat_add, BitVec.toNat_add, BitVec.toNat_ofNat, BitVec.toNat_ofNat] at hnat
  have h65535 : (65535 : BitVec 16).toNat = 65535 := rfl
  rw [h65535] at hnat
  omega

/-- What happens to the originator. -/
theorem TrackInv.origin (h : TrackInv c) {n : RoutingProtocol}
    (hn : RoutingProtocol.Counts c.origin n) : TrackInv { c with origin := n } where
  ansn := by
    have hsteps := hn.steps
    show n.ansn = 65535 + BitVec.ofNat 16 n.ansnSteps
    rw [hn.ansn, h.ansn, BitVec.add_assoc, ← BitVec.ofNat_add]
    congr 2
    omega
  stamp g hg := (h.stamp g hg).trans hn.steps
  number := h.number
  originator g hg := (h.originator g hg).trans hn.main.symm
  renewed := h.renewed
  order := h.order
  recorded t ht hlast := h.recorded t ht (hlast.trans hn.main)

/-- The originator sends a TC message. -/
theorem TrackInv.sendTc (h : TrackInv c)
    (hrenewed : ∀ g ∈ c.sent, g.stamp = c.origin.ansnSteps →
      g.tc.neighborAddresses ⊆ c.origin.advertised) :
    TrackInv { c with
      origin := c.origin.sendTc
      air := c.air ++ [c.origin.advertisement]
      sent := c.sent ++ [c.origin.advertisement] } where
  ansn := h.ansn
  stamp g hg := by
    rcases mem_append.mp hg with hg | hg
    · exact h.stamp g hg
    · rw [mem_singleton.mp hg]
      exact le_rfl
  number g hg := by
    rcases mem_append.mp hg with hg | hg
    · exact h.number g hg
    · rw [mem_singleton.mp hg]
      exact h.ansn
  originator g hg := by
    rcases mem_append.mp hg with hg | hg
    · exact h.originator g hg
    · rw [mem_singleton.mp hg]
      rfl
  renewed := by
    refine pairwise_append.mpr ⟨h.renewed, pairwise_singleton _ _, ?_⟩
    intro f hf g hg
    rw [mem_singleton.mp hg]
    exact ⟨h.stamp f hf, hrenewed f hf⟩
  order := by
    obtain ⟨gone, hsent, hlast⟩ := h.order
    exact ⟨gone, by simp [hsent], hlast⟩
  recorded := h.recorded

/-- What happens to the receiver besides the messages of the originator. -/
theorem TrackInv.receiver (h : TrackInv c) {n : RoutingProtocol}
    (hn : Inherits c.origin.mainAddress c.receiver n) : TrackInv { c with receiver := n } where
  ansn := h.ansn
  stamp := h.stamp
  number := h.number
  originator := h.originator
  renewed := h.renewed
  order := h.order
  recorded t ht hlast := by
    obtain ⟨u, hu, hu_last, hu_dest, hu_seq⟩ := hn t ht hlast
    obtain ⟨g, hg, hg_seq, hg_dest⟩ := h.recorded u hu hu_last
    exact ⟨g, hg, hu_seq ▸ hg_seq, hu_dest ▸ hg_dest⟩

/-- A message is lost. -/
theorem TrackInv.lose (h : TrackInv c) : TrackInv { c with air := c.air.tail } where
  ansn := h.ansn
  stamp := h.stamp
  number := h.number
  originator := h.originator
  renewed := h.renewed
  order := by
    obtain ⟨gone, hsent, hlast⟩ := h.order
    cases hair : c.air with
    | nil => exact ⟨gone, by rw [hsent, hair]; rfl, hlast⟩
    | cons f air =>
      exact ⟨gone ++ [f], by simp [hsent, hair], fun g hg => mem_append_left _ (hlast g hg)⟩
  recorded := h.recorded

/-- **The next message is processed.** -/
theorem TrackInv.deliver (h : TrackInv c) {f : Advertisement} {air : List Advertisement}
    (hair : c.air = f :: air) {senderIface : Ipv4Address}
    (hsym : (c.receiver.state.findSymLinkTuple senderIface c.receiver.now).isSome = true)
    (hclose : ∀ g ∈ c.last, f.stamp < g.stamp + 2 ^ 15)
    (hnewer : (c.receiver.state.findNewerTopologyTuple c.origin.mainAddress f.tc.ansn).isNone
      = true) :
    let c' := { c with
      receiver := c.receiver.processTc f.msg f.tc senderIface
      air
      last := some f }
    TrackInv c' ∧ c'.Tracks := by
  intro c'
  obtain ⟨gone, hsent, hlast⟩ := h.order
  have hf : f ∈ c.sent := by simp [hsent, hair]
  have hmsg := h.originator f hf
  have hsame : ∀ t ∈ c.receiver.state.topologySet, t.lastAddr = f.msg.originatorAddress →
      t.sequenceNumber = f.tc.ansn → t.destAddr ∈ f.tc.neighborAddresses := by
    intro t ht ht_last ht_seq
    obtain ⟨g, hg, hg_seq, hg_dest⟩ := h.recorded t ht (ht_last.trans hmsg)
    have hg_gone := hlast g hg
    have hg_sent : g ∈ c.sent := by simp [hsent, hg_gone]
    have hrenewed := h.renewed
    rw [hsent, hair] at hrenewed
    -- the message that the tuple comes from was sent before, under the same number
    obtain ⟨hle, hsub⟩ := (pairwise_append.mp hrenewed).2.2 g hg_gone f mem_cons_self
    apply hsub _ hg_dest
    apply stamp_eq_of_number_eq (h.number f hf) (h.number g hg_sent) hle
    · have := hclose g hg
      omega
    · exact hg_seq.symm.trans ht_seq
  obtain ⟨hmem, hlive⟩ := processTc_own hsym (hmsg.symm ▸ hnewer) hsame
  constructor
  · exact {
      ansn := h.ansn
      stamp := h.stamp
      number := h.number
      originator := h.originator
      renewed := h.renewed
      order := by
        refine ⟨gone ++ [f], by simp [c', hsent, hair], fun g hg => ?_⟩
        rw [mem_some.mp hg]
        simp
      recorded := fun t ht ht_last => ⟨f, rfl, hmem t ht (ht_last.trans hmsg.symm)⟩ }
  · refine ⟨f, rfl, fun addr => ⟨fun haddr => ?_, ?_⟩⟩
    · obtain ⟨t, ht, ht_last, ht_dest, ht_time⟩ := hlive addr haddr
      exact ⟨t, ht, ht_last.trans hmsg, ht_dest, ht_time⟩
    · rintro ⟨t, ht, ht_last, rfl, -⟩
      exact (hmem t ht (ht_last.trans hmsg.symm)).2

/-- **One step.** -/
theorem TrackInv.step (h : TrackInv c) (a : AdvertisingAction) (hen : advertisingEnabled c a)
    (hC : Renewed c a) :
    Post (advertisingStep c a) fun c' => TrackInv c' ∧ ∀ s, a = .deliver s → c'.Tracks := by
  cases a with
  | origin a =>
    have hcounts : Post (c.origin.act a) (RoutingProtocol.Counts c.origin) :=
      counts_act a c.origin
    cases a with
    | sendTc => exact ⟨h.sendTc hC, by rintro s ⟨⟩⟩
    | recv messages r s =>
      exact (wp_map _ _ _ _).mpr (hcounts.imp fun n hn => ⟨h.origin hn, by rintro s ⟨⟩⟩)
    | fire event =>
      exact (wp_map _ _ _ _).mpr (hcounts.imp fun n hn => ⟨h.origin hn, by rintro s ⟨⟩⟩)
    | advance time => exact ⟨h.origin (hcounts : RoutingProtocol.Counts _ _), by rintro s ⟨⟩⟩
  | receiver a =>
    have hinherits : Post (c.receiver.act a) (Inherits c.origin.mainAddress c.receiver) := by
      cases a with
      | recv messages r s =>
        refine wp_foldlM (Inherits c.origin.mainAddress c.receiver) _ _ _ ?_ c.receiver (.refl _)
        intro n msg hmsg hn
        exact (inherits_recvMessage (hen.2 msg hmsg) r s n).imp fun m hm => hn.trans hm
      | fire event =>
        exact (inherits_timerExpire event.action _).imp fun n hn => hn
      | advance time => exact Inherits.refl c.receiver
      | sendTc => exact Inherits.refl c.receiver
    exact (wp_map _ _ _ _).mpr (hinherits.imp fun n hn => ⟨h.receiver hn, by rintro s ⟨⟩⟩)
  | deliver senderIface =>
    obtain ⟨hsym, hclose⟩ := hen
    unfold advertisingStep
    cases hair : c.air with
    | nil => simp [hair] at hclose
    | cons f air =>
      have hnewer : Renewed c (.deliver senderIface) := hC
      unfold Renewed at hnewer
      simp only [hair, List.head?_cons, any_some, all_some] at hclose hnewer
      have hclose' : ∀ g ∈ c.last, f.stamp < g.stamp + 2 ^ 15 := by
        intro g hg
        rw [mem_def.mp hg] at hclose
        simpa using hclose
      obtain ⟨hinv, htracks⟩ := h.deliver hair hsym hclose' hnewer
      exact ⟨hinv, fun _ _ => htracks⟩
  | lose => exact ⟨h.lose, by rintro s ⟨⟩⟩

end

/-! ## Runs -/

/-- **The topology set tracks the advertised set**, after every message that is processed. -/
theorem tracks_of_run {c c' : Advertising} {as : List AdvertisingAction} {senderIface : Ipv4Address}
    (hnew : c.IsNew) (hrun : advertisingMachine.Run Renewed c (as ++ [.deliver senderIface]) c') :
    c'.Tracks := by
  obtain ⟨d, hd, hen, hC, hstep⟩ := hrun.last
  have hinv : TrackInv d :=
    hd.invariant TrackInv (fun s a hs ha hCa => (hs.step a ha hCa).imp fun _ h => h.1) hnew.trackInv
  exact ((hinv.step (.deliver senderIface) hen hC).of_eq_ok hstep).2 senderIface rfl

instance (c : Advertising) (a : AdvertisingAction) : Decidable (advertisingMachine.enabled c a) :=
  inferInstanceAs (Decidable (advertisingEnabled c a))

instance (c : Advertising) (a : AdvertisingAction) : Decidable (Renewed c a) := by
  unfold Renewed
  split <;> infer_instance

/-- Node 1 is chosen as a relay by nodes 3 and 4, and advertises both to node 2. -/
def advertiseTwo : List AdvertisingAction :=
  [.receiver (.recv [helloOf 1 0x07 6 2] 2 1),
    .origin (.recv [helloOf 5 0x00 6 1] 1 5),
    .origin (.advance 62501000),
    .origin (.fire ⟨62501000, .linkTuple 5⟩),
    .origin (.recv [helloOf 3 0x00 10 1] 1 3),
    .origin (.recv [helloOf 4 0x07 10 1] 1 4),
    .origin .sendTc,
    .receiver (.advance 62501000),
    .deliver 1]

/-- Then node 3 is lost, and the list is advertised again. -/
def loseOne : List AdvertisingAction :=
  [.origin (.advance 125002000),
    .origin (.fire ⟨125002000, .linkTuple 3⟩),
    .origin .sendTc,
    .receiver (.advance 125002000)]

def freshAdvertising : Advertising where
  origin := .fresh 1
  receiver := .fresh 2

theorem freshAdvertising_isNew : freshAdvertising.IsNew := ⟨rfl, rfl, rfl, rfl, rfl, rfl⟩

/-- The first list is tracked. -/
theorem tracks_of_run_advertiseTwo : ∃ c : Advertising, c.Tracks ∧ c.last.isSome = true := by
  obtain ⟨c, hrun, hlast⟩ := Machine.exists_run_of_exec (m := advertisingMachine)
    (fun c a => decide (Renewed c a)) (fun c => c.last.isSome) freshAdvertising advertiseTwo
    (by decide +kernel)
  have hrenewed : advertisingMachine.Run Renewed freshAdvertising
      (advertiseTwo.dropLast ++ [.deliver 1]) c := hrun.mono fun _ _ h => of_decide_eq_true h
  exact ⟨c, tracks_of_run freshAdvertising_isNew hrenewed, hlast⟩

/-- **It does not always**: when a neighbour is lost, it is taken out of the list without a step
of the ANSN, and the node that gets the new list keeps its tuple. -/
theorem not_tracks_of_run : ¬ ∀ (c c' : Advertising) (as : List AdvertisingAction)
    (senderIface : Ipv4Address), c.IsNew →
      advertisingMachine.Run (fun _ _ => True) c (as ++ [.deliver senderIface]) c' →
      c'.Tracks := by
  intro hall
  obtain ⟨c, hrun, hlost⟩ := Machine.exists_run_of_exec (m := advertisingMachine)
    (fun _ _ => true)
    (fun c => decide (c.origin.mainAddress = 1) &&
      c.last.all (fun f => !f.tc.neighborAddresses.contains 3) &&
      c.receiver.state.topologySet.any fun t =>
        t.lastAddr == 1 && t.destAddr == 3 && decide (c.receiver.now ≤ t.expirationTime))
    freshAdvertising (advertiseTwo ++ loseOne ++ [.deliver 1]) (by decide +kernel)
  obtain ⟨f, hf, htracks⟩ := hall _ c _ 1 freshAdvertising_isNew (hrun.mono fun _ _ _ => trivial)
  simp only [hf, Bool.and_eq_true, decide_eq_true_eq, all_some, Bool.not_eq_true',
    List.any_eq_true, beq_iff_eq] at hlost
  obtain ⟨⟨hmain, hlisted⟩, t, ht, ⟨hlast, hdest⟩, hlive⟩ := hlost
  have hmem := (htracks 3).mpr ⟨t, ht, hlast.trans hmain.symm, hdest, hlive⟩
  rw [List.contains_iff_mem.mpr hmem] at hlisted
  cases hlisted

end Ns3Dsme.Olsr
