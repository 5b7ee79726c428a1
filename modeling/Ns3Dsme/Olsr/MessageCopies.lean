/-
# The copies of one message

What a node does with a copy of a message that is flooded, and that everything else it does leaves
the copies and the duplicate tuple of this message alone.
-/
import Ns3Dsme.Olsr.Frames

open Bool KeyedList Program Program.Views

namespace Ns3Dsme.Olsr

/-- The copies of a message have its originator and its sequence number. -/
def MessageHeader.IsCopy (msg m : MessageHeader) : Prop :=
  m.originatorAddress = msg.originatorAddress ∧
    m.messageSequenceNumber = msg.messageSequenceNumber

instance (msg m : MessageHeader) : Decidable (msg.IsCopy m) :=
  inferInstanceAs (Decidable (_ ∧ _))

/-- A TC, MID or HNA message.  Where every node has one interface, a MID message lists no other. -/
def MessageHeader.IsFlooded (msg : MessageHeader) : Prop :=
  match msg.body with
  | .hello _ => False
  | .tc _ => True
  | .mid interfaceAddresses => interfaceAddresses = []
  | .hna _ => True

namespace RoutingProtocol

variable {msg m : MessageHeader} {n n' n'' : RoutingProtocol}

/-- The duplicate tuple of the message. -/
def duplicateOf (msg : MessageHeader) (n : RoutingProtocol) : Option DuplicateTuple :=
  n.state.findDuplicateTuple msg.originatorAddress msg.messageSequenceNumber

/-- The copies that wait to be sent. -/
def waiting (msg : MessageHeader) (n : RoutingProtocol) : List MessageHeader :=
  n.queuedMessages.filter fun m => decide (msg.IsCopy m)

/-! ## Steps that are not about the message -/

/-- A step that is not about the message.  The duplicate tuple can go after its time. -/
structure Ignores (msg : MessageHeader) (n n' : RoutingProtocol) : Prop where
  mainAddress : n'.mainAddress = n.mainAddress
  now_le : n.now ≤ n'.now
  waiting : n'.waiting msg = n.waiting msg
  unknown : n.duplicateOf msg = none → n'.duplicateOf msg = none
  known : ∀ d, n.duplicateOf msg = some d →
    n'.duplicateOf msg = some d ∨ d.expirationTime < n'.now

theorem Ignores.refl (msg : MessageHeader) (n : RoutingProtocol) : Ignores msg n n :=
  ⟨rfl, le_rfl, rfl, id, fun _ hd => .inl hd⟩

theorem Ignores.trans (h : Ignores msg n n') (h' : Ignores msg n' n'') : Ignores msg n n'' where
  mainAddress := h'.mainAddress.trans h.mainAddress
  now_le := h.now_le.trans h'.now_le
  waiting := h'.waiting.trans h.waiting
  unknown hn := h'.unknown (h.unknown hn)
  known d hd := by
    rcases h.known d hd with hkept | hgone
    · exact h'.known d hkept
    · exact .inr (hgone.trans_le h'.now_le)

theorem ignores_of_keeps {touched : List NodeView} (h : nodeViews.Keeps touched n n')
    (hapart : ∀ v ∈ [.config, .clock, .queue, .duplicates], v ∉ touched) : Ignores msg n n' := by
  have hset : n'.state.duplicateSet = n.state.duplicateSet := h .duplicates (hapart _ (by simp))
  have hqueued : n'.queuedMessages = n.queuedMessages := h .queue (hapart _ (by simp))
  have hmain : n'.mainAddress = n.mainAddress ∧ n'.topHoldVTime = n.topHoldVTime :=
    h .config (hapart _ (by simp))
  have hnow : n'.now = n.now := h .clock (hapart _ (by simp))
  have hfind : n'.duplicateOf msg = n.duplicateOf msg := by
    unfold duplicateOf OlsrState.findDuplicateTuple
    rw [hset]
  refine ⟨hmain.1, hnow.ge, ?_, fun hn => hfind.trans hn, fun d hd => .inl (hfind.trans hd)⟩
  unfold waiting
  rw [hqueued]

theorem waiting_queueMessage (msg m : MessageHeader) (n : RoutingProtocol) :
    (n.queueMessage m).waiting msg = n.waiting msg ++ if msg.IsCopy m then [m] else [] := by
  unfold waiting queueMessage
  rw [List.filter_append]
  congr 1
  by_cases h : msg.IsCopy m
  · simp [h]
  · simp [h]

theorem ignores_queueMessage (hm : ¬ msg.IsCopy m) : Ignores msg n (n.queueMessage m) where
  mainAddress := rfl
  now_le := le_rfl
  waiting := by rw [waiting_queueMessage, if_neg hm, List.append_nil]
  unknown h := h
  known _ hd := .inl hd

/-- The duplicate tuple of another message. -/
theorem ignores_recordDuplicate (hm : ¬ msg.IsCopy m) (duplicated retransmitted : Bool)
    (localIface : Ipv4Address) :
    Ignores msg n (n.recordDuplicate m duplicated retransmitted localIface) := by
  have hother (t : DuplicateTuple) (haddress : t.address = m.originatorAddress)
      (hnumber : t.sequenceNumber = m.messageSequenceNumber) :
      (t.address == msg.originatorAddress && t.sequenceNumber == msg.messageSequenceNumber) =
        false := by
    rw [haddress, hnumber, and_eq_false_iff, beq_eq_false_iff_ne, beq_eq_false_iff_ne]
    exact not_and_or.mp hm
  have hfind : (n.recordDuplicate m duplicated retransmitted localIface).duplicateOf msg =
      n.duplicateOf msg := by
    unfold recordDuplicate
    dsimp only
    split
    · refine find?_updateFirst fun t ht => ?_
      rw [and_eq_true, beq_iff_eq, beq_iff_eq] at ht
      exact ⟨hother t ht.1 ht.2, hother _ ht.1 ht.2⟩
    · show List.find? _ (n.state.duplicateSet ++ [_]) = _
      rw [List.find?_append, List.find?_cons_of_neg, List.find?_nil, Option.or_none]
      · rfl
      · rw [hother _ rfl rfl]
        exact false_ne_true
  have hkeeps := n.keeps_recordDuplicate m duplicated retransmitted localIface
  have hqueue : (n.recordDuplicate m duplicated retransmitted localIface).queuedMessages =
      n.queuedMessages := hkeeps .queue (by decide)
  have hnow : (n.recordDuplicate m duplicated retransmitted localIface).now = n.now :=
    hkeeps .clock (by decide)
  refine ⟨(hkeeps .config (by decide)).1, hnow.ge, ?_, fun hn => hfind.trans hn,
    fun d hd => .inl (hfind.trans hd)⟩
  unfold waiting
  rw [hqueue]

theorem ignores_considerForwarding (hm : ¬ msg.IsCopy m) (duplicated : Option DuplicateTuple)
    (receiverIface senderIface : Ipv4Address) :
    Ignores msg n (n.considerForwarding m duplicated receiverIface senderIface) := by
  unfold considerForwarding
  split
  · exact .refl msg n
  · unfold forwardDefault
    split
    · exact .refl msg n
    · split
      · exact .refl msg n
      · refine Ignores.trans ?_ (ignores_recordDuplicate hm _ _ _)
        split
        · exact ignores_queueMessage hm
        · exact .refl msg n

/-- The reception of another message. -/
theorem ignores_recvMessage (hm : ¬ msg.IsCopy m) (receiverIface senderIface : Ipv4Address) :
    Post (n.recvMessage m receiverIface senderIface) (Ignores msg n) := by
  unfold recvMessage
  split
  · exact .refl msg n
  · refine (wp_map _ _ _ _).mpr ?_
    have hprocessed : Post (n.processNew m receiverIface senderIface) (Ignores msg n) := by
      unfold processNew
      split
      · exact (n.touches_processMessage m receiverIface senderIface).imp fun k hk =>
          ignores_of_keeps hk (by decide)
      · exact .refl msg n
    exact hprocessed.imp fun k hk => hk.trans (ignores_considerForwarding hm _ _ _)

theorem ignores_recvOlsr {messages : List MessageHeader}
    (hmessages : ∀ m ∈ messages, ¬ msg.IsCopy m) (receiverIface senderIface : Ipv4Address) :
    Post (n.recvOlsr messages receiverIface senderIface) (Ignores msg n) := by
  unfold recvOlsr
  refine wp_foldlM (Ignores msg n) _ _ messages (fun k m hm hk => ?_) n (.refl msg n)
  exact (ignores_recvMessage (hmessages m hm) receiverIface senderIface).imp fun l hl =>
    hk.trans hl

/-- A timer that finds its own tuple expired removes it. -/
theorem ignores_dupTupleTimerExpire (address : Ipv4Address) (sequenceNumber : BitVec 16) :
    Ignores msg n (n.dupTupleTimerExpire address sequenceNumber) := by
  unfold dupTupleTimerExpire tupleTimerExpire
  split
  · exact .refl msg n
  · rename_i t ht
    split
    · rename_i hexpired
      refine ⟨rfl, le_rfl, rfl, fun hn => ?_, fun d hd => ?_⟩
      · have hnone := List.find?_eq_none.mp hn
        exact List.find?_eq_none.mpr fun u hu => hnone u (List.mem_of_mem_eraseP hu)
      · by_cases hsame : (t.address == msg.originatorAddress &&
          t.sequenceNumber == msg.messageSequenceNumber) = true
        · -- the tuple of the message: it is the one that was found
          obtain ⟨haddress, hnumber⟩ := (and_eq_true _ _).mp hsame
          have hkey := List.find?_some ht
          rw [and_eq_true, beq_iff_eq, beq_iff_eq] at hkey
          rw [← hkey.1, ← hkey.2, beq_iff_eq.mp haddress, beq_iff_eq.mp hnumber] at ht
          have heq : t = d := Option.some.inj (ht.symm.trans hd)
          exact .inr (heq ▸ hexpired)
        · refine .inl ((find?_eraseP fun u hu => ?_).trans hd)
          obtain ⟨haddress, hnumber⟩ := (and_eq_true _ _).mp hu
          rw [beq_iff_eq.mp haddress, beq_iff_eq.mp hnumber]
          exact not_eq_true _ ▸ hsame
    · exact ignores_of_keeps (n.keeps_schedule (n.delay_nonneg _) _) (by decide)

theorem ignores_timerExpire (action : TimerAction) :
    Post (n.timerExpire action) (Ignores msg n) := by
  cases action with
  | dupTuple address sequenceNumber =>
    exact ignores_dupTupleTimerExpire address sequenceNumber
  | linkTuple iface =>
    exact (n.touches_linkTupleTimerExpire iface).imp fun k hk =>
      ignores_of_keeps hk (by decide)
  | nb2hopTuple neighbor twoHop =>
    exact ignores_of_keeps (n.keeps_nb2hopTupleTimerExpire neighbor twoHop) (by decide)
  | mprSelTuple main =>
    exact ignores_of_keeps (n.keeps_mprSelTupleTimerExpire main) (by decide)
  | topologyTuple dest last =>
    exact ignores_of_keeps (n.keeps_topologyTupleTimerExpire dest last) (by decide)
  | ifaceAssocTuple iface =>
    exact ignores_of_keeps (n.keeps_ifaceAssocTupleTimerExpire iface) (by decide)
  | associationTuple gateway network netmask =>
    exact ignores_of_keeps (n.keeps_associationTupleTimerExpire gateway network netmask) (by decide)

/-- The action brings no copy of the message: none is received by it, and the sequence number is
not used again. -/
def Apart (msg : MessageHeader) (n : RoutingProtocol) : NodeAction → Prop
  | .recv messages _ _ => ∀ m ∈ messages, ¬ msg.IsCopy m
  | .sendTc => ¬ msg.IsCopy n.tcMessage
  | _ => True

instance (msg : MessageHeader) (n : RoutingProtocol) (a : NodeAction) :
    Decidable (Apart msg n a) :=
  match a with
  | .recv messages _ _ => inferInstanceAs (Decidable (∀ m ∈ messages, ¬ msg.IsCopy m))
  | .sendTc => inferInstanceAs (Decidable (¬ msg.IsCopy n.tcMessage))
  | .fire _ | .advance _ => instDecidableTrue

/-- **Everything else that happens to a node.** -/
theorem ignores_act {a : NodeAction} (henabled : n.enabled a) (hapart : Apart msg n a) :
    Post (n.act a) (Ignores msg n) := by
  cases a with
  | recv messages receiverIface senderIface =>
    exact ignores_recvOlsr hapart receiverIface senderIface
  | fire event =>
    have herase : Ignores msg n { n with events := n.events.erase event } :=
      ⟨rfl, le_rfl, rfl, id, fun _ hd => .inl hd⟩
    exact (ignores_timerExpire event.action).imp fun k hk => herase.trans hk
  | advance time =>
    have hadvance : Ignores msg n { n with now := time } :=
      ⟨rfl, henabled.1, rfl, id, fun _ hd => .inl hd⟩
    exact hadvance
  | sendTc =>
    have hqueue : Ignores msg n (n.queueMessage n.tcMessage) := ignores_queueMessage hapart
    have hsend : Ignores msg n n.sendTc :=
      ⟨rfl, le_rfl, hqueue.waiting, id, fun _ hd => .inl hd⟩
    exact hsend

/-! ## A copy is received -/

/-- The copy that is sent on. -/
def relayed (m : MessageHeader) : MessageHeader :=
  { m with
    timeToLive := m.timeToLive - 1
    hopCount := m.hopCount + 1 }

theorem isCopy_relayed (h : msg.IsCopy m) : msg.IsCopy (relayed m) := h

/-- The sender of a message has chosen this node. -/
def selectedBy (senderIface : Ipv4Address) (n : RoutingProtocol) : Bool :=
  (n.state.findMprSelectorTuple (n.getMainAddress senderIface)).isSome

variable {receiverIface senderIface : Ipv4Address}

/-- A node drops its own messages. -/
theorem recvMessage_own (h : m.originatorAddress = n.mainAddress) :
    n.recvMessage m receiverIface senderIface = .ok n := if_pos (.inr h)

/-- A node that has considered the message on its interface does not do so again. -/
theorem recvMessage_known (hcopy : msg.IsCopy m) {d : DuplicateTuple}
    (hd : n.duplicateOf msg = some d) (hiface : receiverIface ∈ d.ifaceList) :
    n.recvMessage m receiverIface senderIface = .ok n := by
  have hfind : n.state.findDuplicateTuple m.originatorAddress m.messageSequenceNumber = some d := by
    rw [hcopy.1, hcopy.2]
    exact hd
  unfold recvMessage
  split
  · rfl
  · have hold : n.processNew m receiverIface senderIface = .ok n := by
      unfold processNew
      rw [hfind]
      rfl
    have hnot : n.considerForwarding m (some d) receiverIface senderIface = n := by
      unfold considerForwarding
      rw [Option.any_some, List.contains_iff_mem.mpr hiface]
      rfl
    dsimp only
    rw [hold, hfind]
    show Except.ok (n.considerForwarding m (some d) receiverIface senderIface) = _
    rw [hnot]

/-- A node that hears of the message for the first time. -/
structure Learns (msg m : MessageHeader) (receiverIface senderIface : Ipv4Address)
    (n n' : RoutingProtocol) : Prop where
  mainAddress : n'.mainAddress = n.mainAddress
  now : n'.now = n.now
  known : ∃ d, n'.duplicateOf msg = some d ∧ receiverIface ∈ d.ifaceList ∧
    d.expirationTime = n.now + dupHoldTime
  waiting : n'.waiting msg =
    n.waiting msg ++ if n.selectedBy senderIface then [relayed m] else []

theorem learns_forwardDefault (hcopy : msg.IsCopy m) (httl : 1 < m.timeToLive.toNat)
    (hunknown : n.duplicateOf msg = none)
    (hlink : n.state.findSymLinkTuple senderIface n.now ≠ none) :
    Learns msg m receiverIface senderIface n
      (n.forwardDefault m none receiverIface senderIface) := by
  unfold forwardDefault
  rw [if_neg (by simp [hlink]), if_neg (by simp)]
  dsimp only
  have hretransmits : n.retransmits m senderIface = n.selectedBy senderIface := by
    unfold retransmits selectedBy
    rw [decide_eq_true httl, Bool.true_and]
  rw [hretransmits]
  have hrecorded (k : RoutingProtocol) (hstate : k.state = n.state) (hnow : k.now = n.now)
      (retransmitted : Bool) : ∃ d,
      (k.recordDuplicate m false retransmitted receiverIface).duplicateOf msg = some d ∧
        receiverIface ∈ d.ifaceList ∧ d.expirationTime = n.now + dupHoldTime := by
    refine ⟨⟨m.originatorAddress, m.messageSequenceNumber, retransmitted, [receiverIface],
      k.now + dupHoldTime⟩, ?_, List.mem_singleton_self _, by rw [hnow]⟩
    have hnone : k.state.duplicateSet.find? (fun t => t.address == msg.originatorAddress &&
        t.sequenceNumber == msg.messageSequenceNumber) = none := by
      rw [hstate]
      exact hunknown
    show List.find? _ (k.state.duplicateSet ++ [_]) = _
    rw [List.find?_append, hnone, Option.none_or, List.find?_cons_of_pos]
    simp [hcopy.1, hcopy.2]
  cases hselected : n.selectedBy senderIface with
  | true =>
    refine ⟨rfl, rfl, hrecorded _ rfl rfl true, ?_⟩
    show (n.queueMessage (relayed m)).waiting msg = _
    rw [waiting_queueMessage, if_pos (isCopy_relayed hcopy), hselected, if_pos rfl]
  | false =>
    refine ⟨rfl, rfl, hrecorded _ rfl rfl false, ?_⟩
    rw [hselected]
    exact (List.append_nil (n.waiting msg)).symm

/-- Processing the message disturbs neither the links nor the relays. -/
theorem exists_processMessage (receiverIface senderIface : Ipv4Address) (hflooded : m.IsFlooded) :
    ∃ k, n.processMessage m receiverIface senderIface = .ok k ∧
      nodeViews.Keeps [.topology, .neighbors, .twoHops, .associations] n k := by
  unfold MessageHeader.IsFlooded at hflooded
  unfold processMessage
  cases hbody : m.body with
  | hello hello =>
    rw [hbody] at hflooded
    exact absurd hflooded id
  | tc tc => exact ⟨_, rfl, (n.keeps_processTc m tc senderIface).mono (by decide)⟩
  | mid interfaceAddresses =>
    rw [hbody] at hflooded
    refine ⟨_, rfl, ?_⟩
    unfold processMid
    split
    · exact Keeps.refl _ n
    · rw [show interfaceAddresses = [] from hflooded]
      exact n.keeps_renameNeighbors.mono (by decide)
  | hna networks => exact ⟨_, rfl, (n.keeps_processHna m networks senderIface).mono (by decide)⟩

theorem exists_recvMessage (receiverIface senderIface : Ipv4Address) (hflooded : m.IsFlooded) :
    ∃ n', n.recvMessage m receiverIface senderIface = .ok n' := by
  unfold recvMessage processNew
  split
  · exact ⟨n, rfl⟩
  · dsimp only
    split
    · obtain ⟨k, hk, -⟩ := exists_processMessage (n := n) receiverIface senderIface hflooded
      rw [hk]
      exact ⟨_, rfl⟩
    · exact ⟨_, rfl⟩

/-- **The first copy.** -/
theorem exists_recvMessage_new (hcopy : msg.IsCopy m) (hflooded : m.IsFlooded)
    (httl : 1 < m.timeToLive.toNat) (hown : m.originatorAddress ≠ n.mainAddress)
    (hunknown : n.duplicateOf msg = none)
    (hlink : n.state.findSymLinkTuple senderIface n.now ≠ none) :
    ∃ n', n.recvMessage m receiverIface senderIface = .ok n' ∧
      Learns msg m receiverIface senderIface n n' := by
  have hfind : n.state.findDuplicateTuple m.originatorAddress m.messageSequenceNumber = none := by
    rw [hcopy.1, hcopy.2]
    exact hunknown
  obtain ⟨k, hk, hkeeps⟩ :=
    exists_processMessage (n := n) receiverIface senderIface hflooded
  have hdropped : ¬ (m.timeToLive = 0 ∨ m.originatorAddress = n.mainAddress) := by
    rintro (hzero | hself)
    · rw [hzero] at httl
      exact absurd httl (by decide)
    · exact hown hself
  have hlinks : k.state.linkSet = n.state.linkSet := hkeeps .links (by decide)
  have hselectors : k.state.mprSelectorSet = n.state.mprSelectorSet :=
    hkeeps .selectors (by decide)
  have hassocs : k.state.ifaceAssocSet = n.state.ifaceAssocSet := hkeeps .ifaceAssocs (by decide)
  have hduplicates : k.state.duplicateSet = n.state.duplicateSet := hkeeps .duplicates (by decide)
  have hqueue : k.queuedMessages = n.queuedMessages := hkeeps .queue (by decide)
  have hnow : k.now = n.now := hkeeps .clock (by decide)
  have hmain : k.mainAddress = n.mainAddress := (hkeeps .config (by decide)).1
  have hlearns : Learns msg m receiverIface senderIface k
      (k.forwardDefault m none receiverIface senderIface) := by
    refine learns_forwardDefault hcopy httl ?_ ?_
    · unfold duplicateOf OlsrState.findDuplicateTuple
      rw [hduplicates]
      exact hunknown
    · unfold OlsrState.findSymLinkTuple OlsrState.findLinkTuple
      rw [hlinks, hnow]
      exact hlink
  refine ⟨k.forwardDefault m none receiverIface senderIface, ?_, hlearns.mainAddress.trans hmain,
    hlearns.now.trans hnow, ?_, ?_⟩
  · have hhello : MessageBody.isHello m.body = false := by
      unfold MessageHeader.IsFlooded at hflooded
      cases hbody : m.body with
      | hello hello =>
        rw [hbody] at hflooded
        exact absurd hflooded id
      | tc tc => rfl
      | mid interfaceAddresses => rfl
      | hna networks => rfl
    unfold recvMessage processNew
    rw [if_neg hdropped]
    dsimp only
    rw [hfind, Option.isNone_none, if_pos rfl, hk]
    show Except.ok (k.considerForwarding m none receiverIface senderIface) = _
    unfold considerForwarding
    rw [Option.any_none, hhello]
    rfl
  · rw [← hnow]
    exact hlearns.known
  · have hwaiting : k.waiting msg = n.waiting msg := by
      unfold waiting
      rw [hqueue]
    have hselected : k.selectedBy senderIface = n.selectedBy senderIface := by
      unfold selectedBy getMainAddress OlsrState.getMainAddress OlsrState.findMprSelectorTuple
        OlsrState.findIfaceAssocTuple
      rw [hselectors, hassocs]
    rw [hlearns.waiting, hwaiting, hselected]

end RoutingProtocol

end Ns3Dsme.Olsr
