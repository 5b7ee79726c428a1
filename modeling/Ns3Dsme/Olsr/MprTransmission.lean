/-
# One transmission in a network of multipoint relays

The invariant of the flooding of a message, the steps that are not about the message, and what the
neighbours of a sender do with its copy.
-/
import Ns3Dsme.Olsr.MprNetwork

open List Function Program Program.Views

namespace Ns3Dsme.Olsr.MprFlood

variable {ι : Type} [DecidableEq ι] (net : StaticNetwork ι) (msg : MessageHeader)

/-! ## The invariant -/

/-- What is known about the copies and the nodes that have heard of the message. -/
structure FloodInv (o : ι) (s : MprFlood ι) : Prop where
  mainAddress : ∀ i, (s.nodes i).mainAddress = net.addr i
  copies : ∀ i, ∀ m ∈ (s.nodes i).waiting msg, m.body = msg.body ∧
    m.timeToLive.toNat + m.hopCount.toNat = msg.timeToLive.toNat
  once : ∀ i, ((s.nodes i).waiting msg).length + s.sent.count i ≤ 1
  origin : ((s.nodes o).waiting msg).length + s.sent.count o = 1
  own : s.processed o = []
  unheard : ∀ i, i ≠ o → s.processed i = [] →
    (s.nodes i).duplicateOf msg = none ∧ (s.nodes i).waiting msg = [] ∧ i ∉ s.sent
  single : ∀ i, ∀ x ∈ s.processed i, s.processed i = [x]
  heardFrom : ∀ i, ∀ x ∈ s.processed i, ∃ a, s.sent[x.1]? = some a ∧ i ∈ net.neighbors a
  /-- The duplicate tuple stays for its hold time. -/
  known : ∀ i, ∀ x ∈ s.processed i, (∃ d, (s.nodes i).duplicateOf msg = some d ∧
    net.addr i ∈ d.ifaceList ∧ d.expirationTime = x.2 + dupHoldTime) ∨
      x.2 + dupHoldTime < (s.nodes i).now
  reached : ∀ (k : ℕ) a, s.sent[k]? = some a → ∀ j ∈ net.neighbors a, j ≠ o → s.processed j ≠ []
  /-- A node at distance two of a sender has a neighbour that was a relay of this transmission,
  unless it had heard of the message before. -/
  covered : ∀ (k : ℕ) a, s.sent[k]? = some a → ∀ c, c ∉ net.neighbors a → c ≠ a →
    (∃ b ∈ net.neighbors a, c ∈ net.neighbors b) →
      ∃ b ∈ net.neighbors a, c ∈ net.neighbors b ∧ (b = o ∨ ∃ x ∈ s.processed b, x.1 < k ∨
        (x.1 = k ∧ ((s.nodes b).waiting msg ≠ [] ∨ b ∈ s.sent)))

variable {net msg} {o : ι} {s s' : MprFlood ι}

theorem IsNew.floodInv (h : s.IsNew net msg o) : s.FloodInv net msg o where
  mainAddress := h.mainAddress
  copies i m hm := by
    by_cases hi : i = o
    · rw [hi, h.queued, mem_singleton] at hm
      rw [hm, h.hopCount]
      exact ⟨rfl, rfl⟩
    · rw [h.waiting i hi] at hm
      cases hm
  once i := by
    rw [h.sent, count_nil]
    by_cases hi : i = o
    · rw [hi, h.queued]
      exact Nat.le_refl 1
    · rw [h.waiting i hi]
      exact Nat.zero_le 1
  origin := by
    rw [h.sent, h.queued]
    rfl
  own := h.processed o
  unheard i hi _ := by
    rw [h.sent]
    exact ⟨h.unknown i, h.waiting i hi, not_mem_nil⟩
  single i x hx := by
    rw [h.processed i] at hx
    cases hx
  heardFrom i x hx := by
    rw [h.processed i] at hx
    cases hx
  known i x hx := by
    rw [h.processed i] at hx
    cases hx
  reached k a hk := by
    rw [h.sent] at hk
    cases hk
  covered k a hk := by
    rw [h.sent] at hk
    cases hk

/-! ### Steps that are not about the message -/

theorem FloodInv.of_ignores (h : s.FloodInv net msg o)
    (hnodes : ∀ i, RoutingProtocol.Ignores msg (s.nodes i) (s'.nodes i)) (hsent : s'.sent = s.sent)
    (hprocessed : s'.processed = s.processed) : s'.FloodInv net msg o where
  mainAddress i := (hnodes i).mainAddress.trans (h.mainAddress i)
  copies i := by
    rw [(hnodes i).waiting]
    exact h.copies i
  once i := by
    rw [(hnodes i).waiting, hsent]
    exact h.once i
  origin := by
    rw [(hnodes o).waiting, hsent]
    exact h.origin
  own := by
    rw [hprocessed]
    exact h.own
  unheard i hi hnone := by
    rw [hprocessed] at hnone
    obtain ⟨hunknown, hwaiting, hnot⟩ := h.unheard i hi hnone
    rw [(hnodes i).waiting, hsent]
    exact ⟨(hnodes i).unknown hunknown, hwaiting, hnot⟩
  single := by
    rw [hprocessed]
    exact h.single
  heardFrom := by
    rw [hprocessed, hsent]
    exact h.heardFrom
  known i x hx := by
    rw [hprocessed] at hx
    rcases h.known i x hx with ⟨d, hd, hiface, htime⟩ | hgone
    · rcases (hnodes i).known d hd with hkept | hgone
      · exact Or.inl ⟨d, hkept, hiface, htime⟩
      · exact Or.inr (htime ▸ hgone)
    · exact Or.inr (hgone.trans_le (hnodes i).now_le)
  reached := by
    rw [hprocessed, hsent]
    exact h.reached
  covered k a := by
    rw [hprocessed, hsent]
    intro hk c hc hne htwo
    obtain ⟨b, hb, hbc, hcase⟩ := h.covered k a hk c hc hne htwo
    refine ⟨b, hb, hbc, hcase.imp_right ?_⟩
    rintro ⟨x, hx, hbefore⟩
    rw [← (hnodes b).waiting] at hbefore
    exact ⟨x, hx, hbefore⟩

theorem FloodInv.node (h : s.FloodInv net msg o) {i : ι} {a : NodeAction}
    (henabled : (s.nodes i).enabled a) (hapart : (s.nodes i).Apart msg a) :
    Post (s.step net msg (.node i a)) (FloodInv net msg o) := by
  refine (wp_map _ _ _ _).mpr ((RoutingProtocol.ignores_act henabled hapart).imp fun n hn => ?_)
  refine h.of_ignores (fun j => ?_) rfl rfl
  show RoutingProtocol.Ignores msg (s.nodes j) (update s.nodes i n j)
  by_cases hj : j = i
  · rw [hj, update_self]
    exact hn
  · rw [update_of_ne hj]
    exact .refl msg _

theorem waiting_send (i : ι) (m : MessageHeader) (j : ι) :
    ((s.send msg i m).nodes j).waiting msg =
      if j = i then ((s.nodes i).waiting msg).erase m else (s.nodes j).waiting msg := by
  show (update s.nodes i _ j).waiting msg = _
  by_cases hj : j = i
  · rw [hj, update_self, if_pos rfl]
    exact erase_filter.symm
  · rw [update_of_ne hj, if_neg hj]

/-- Another message is sent. -/
theorem FloodInv.transmit_other (h : s.FloodInv net msg o) {i : ι} {m : MessageHeader}
    (hm : ¬ msg.IsCopy m) : Post (s.step net msg (.transmit i m)) (FloodInv net msg o) := by
  have hsend : (s.send msg i m).FloodInv net msg o := by
    refine h.of_ignores (fun j => ?_) (if_neg hm) rfl
    have hwaiting : ((s.send msg i m).nodes j).waiting msg = _ := waiting_send i m j
    by_cases hj : j = i
    · subst hj
      have hstate : (s.send msg j m).nodes j =
          { s.nodes j with queuedMessages := (s.nodes j).queuedMessages.erase m } :=
        update_self _ _ _
      rw [if_pos rfl, erase_of_not_mem] at hwaiting
      · rw [hstate] at hwaiting ⊢
        exact ⟨rfl, le_rfl, hwaiting, id, fun _ hd => Or.inl hd⟩
      · intro hmem
        exact hm (of_decide_eq_true (mem_filter.mp hmem).2)
    · have hstate : (s.send msg i m).nodes j = s.nodes j := update_of_ne hj _ _
      rw [hstate]
      exact .refl msg _
  refine wp_foldlM (FloodInv net msg o) _ _ _ (fun t j _ ht => ?_) _ hsend
  refine (wp_map _ _ _ _).mpr ((RoutingProtocol.ignores_recvMessage hm _ _).imp fun n hn => ?_)
  refine ht.of_ignores (fun l => ?_) rfl (if_neg fun hcopy => hm hcopy.1)
  show RoutingProtocol.Ignores msg (t.nodes l) (update t.nodes j n l)
  by_cases hl : l = j
  · rw [hl, update_self]
    exact hn
  · rw [update_of_ne hl]
    exact .refl msg _

/-! ### A copy is sent -/

variable {i : ι} {m : MessageHeader}

/-- What a neighbour does with the copy. -/
inductive Hears (net : StaticNetwork ι) (msg : MessageHeader) (o i : ι) (m : MessageHeader)
    (s s' : MprFlood ι) (j : ι) : Prop
  | again (hold : j = o ∨ s.processed j ≠ []) (hnode : s'.nodes j = s.nodes j)
      (hprocessed : s'.processed j = s.processed j) : Hears net msg o i m s s' j
  | first (hother : j ≠ o) (hnew : s.processed j = [])
      (hlearns : RoutingProtocol.Learns msg m (net.addr j) (net.addr i) (s.nodes j) (s'.nodes j))
      (hprocessed : s'.processed j = [(s.sent.length, (s.nodes j).now)]) :
      Hears net msg o i m s s' j

/-- A transmission of the message, as far as the neighbours in `done` have heard it. -/
structure Transmitted (net : StaticNetwork ι) (msg : MessageHeader) (o i : ι) (m : MessageHeader)
    (s : MprFlood ι) (done : List ι) (s' : MprFlood ι) : Prop where
  sent : s'.sent = s.sent ++ [i]
  hears : ∀ j ∈ done, Hears net msg o i m s s' j
  others : ∀ j, j ∉ done → s'.nodes j = (s.send msg i m).nodes j ∧
    s'.processed j = s.processed j

variable (h : s.FloodInv net msg o) (hflooded : msg.IsFlooded)
  (horiginator : msg.originatorAddress = net.addr o) (hcopy : msg.IsCopy m)
include h hflooded horiginator hcopy

theorem FloodInv.deliver (hm : m ∈ (s.nodes i).queuedMessages)
    (hundisturbed : s.Undisturbed net msg (.transmit i m)) {done rest : List ι} {j : ι}
    (hneighbors : net.neighbors i = done ++ j :: rest) {t : MprFlood ι}
    (ht : Transmitted net msg o i m s done t) : Wp (t.deliver net msg s.sent.length i m j)
      (Transmitted net msg o i m s (done ++ [j])) fun _ => False := by
  obtain ⟨hexact, hhops, hheld⟩ := hundisturbed hcopy
  have hmem : j ∈ net.neighbors i := by simp [hneighbors]
  have hji : j ≠ i := by
    rintro rfl
    exact net.irrefl _ hmem
  have hdone : j ∉ done := by
    have hnodup := net.nodup i
    rw [hneighbors] at hnodup
    exact fun hj => (nodup_append.mp hnodup).2.2 j hj j mem_cons_self rfl
  obtain ⟨hnode, hprocessed⟩ := ht.others j hdone
  have hsame : t.nodes j = s.nodes j := by
    rw [hnode]
    exact update_of_ne hji _ _
  have hmain : (s.nodes j).mainAddress = net.addr j := h.mainAddress j
  -- once node `j` has heard the copy, nothing has changed at the others
  have hupdate (n : RoutingProtocol) (record : ι → List (ℕ × ℤ))
      (hrecord : ∀ l, l ≠ j → record l = t.processed l)
      (hhears : ∀ u : MprFlood ι, u.nodes j = n → u.processed j = record j →
        Hears net msg o i m s u j) :
      Transmitted net msg o i m s (done ++ [j])
        { nodes := update t.nodes j n, sent := t.sent, processed := record } := by
    refine ⟨ht.sent, fun l hl => ?_, fun l hl => ?_⟩
    · rcases mem_append.mp hl with hl | hl
      · have hlj : l ≠ j := fun heq => hdone (heq ▸ hl)
        have hl_node : update t.nodes j n l = t.nodes l := update_of_ne hlj _ _
        cases ht.hears l hl with
        | again hold hl_same hl_processed =>
          exact .again hold (hl_node.trans hl_same) ((hrecord l hlj).trans hl_processed)
        | first hother hnew hlearns hl_processed =>
          refine .first hother hnew ?_ ((hrecord l hlj).trans hl_processed)
          show RoutingProtocol.Learns msg m _ _ _ (update t.nodes j n l)
          rw [hl_node]
          exact hlearns
      · rw [mem_singleton.mp hl]
        exact hhears _ (update_self _ _ _) rfl
    · rw [mem_append, mem_singleton, not_or] at hl
      obtain ⟨hl_node, hl_processed⟩ := ht.others l hl.1
      exact ⟨(update_of_ne hl.2 _ _).trans hl_node, (hrecord l hl.2).trans hl_processed⟩
  unfold MprFlood.deliver
  rw [hsame]
  by_cases hold : j = o ∨ s.processed j ≠ []
  · -- nothing happens
    have hrecv : (s.nodes j).recvMessage m (net.addr j) (net.addr i) = .ok (s.nodes j) ∧
        ¬ (s.nodes j).IsNewMessage m := by
      rcases hold with rfl | hprocessed_ne
      · have hown : m.originatorAddress = (s.nodes j).mainAddress := by
          rw [hcopy.1, horiginator, hmain]
        exact ⟨RoutingProtocol.recvMessage_own hown, fun hnew => hnew.2.1 hown⟩
      · obtain ⟨x, hx⟩ := exists_mem_of_ne_nil _ hprocessed_ne
        rcases h.known j x hx with ⟨d, hd, hiface, -⟩ | hgone
        · refine ⟨RoutingProtocol.recvMessage_known hcopy hd hiface, fun hnew => ?_⟩
          have hnone := hnew.2.2
          rw [hcopy.1, hcopy.2] at hnone
          have hsome : (s.nodes j).state.findDuplicateTuple msg.originatorAddress
              msg.messageSequenceNumber = some d := hd
          rw [hsome] at hnone
          cases hnone
        · have := hheld j hmem x hx
          omega
    rw [hrecv.1, if_neg fun hboth => hrecv.2 hboth.2]
    exact hupdate _ _ (fun _ _ => rfl) fun u hu hu_processed =>
      .again hold hu (hu_processed.trans hprocessed)
  · rw [not_or, not_not] at hold
    obtain ⟨hother, hnew⟩ := hold
    obtain ⟨hunknown, -, -⟩ := h.unheard j hother hnew
    obtain ⟨hbody, httl⟩ :=
      h.copies i m (mem_filter.mpr ⟨hm, decide_eq_true hcopy⟩)
    have hflooded_copy : m.IsFlooded := by
      unfold MessageHeader.IsFlooded at hflooded ⊢
      rw [hbody]
      exact hflooded
    have hown : m.originatorAddress ≠ (s.nodes j).mainAddress := by
      rw [hcopy.1, horiginator, hmain]
      exact fun heq => hother (net.addr_injective heq).symm
    have hsym : i ∈ net.neighbors j := net.symm i j hmem
    have httl_two : 1 < m.timeToLive.toNat := by omega
    obtain ⟨n, hn, hlearns⟩ := RoutingProtocol.exists_recvMessage_new hcopy hflooded_copy httl_two
      hown hunknown ((hexact j).links i hsym)
    have hisNew : (s.nodes j).IsNewMessage m := by
      refine ⟨?_, hown, ?_⟩
      · intro hzero
        rw [hzero] at httl_two
        exact absurd httl_two (by decide)
      · rw [hcopy.1, hcopy.2]
        exact hunknown
    rw [hn, if_pos ⟨hcopy, hisNew⟩]
    refine hupdate _ _ (fun l hl => update_of_ne hl _ _) fun u hu hu_processed =>
      .first hother hnew (hu ▸ hlearns) ?_
    rw [hu_processed, update_self, hprocessed, hnew]
    rfl

/-- **A transmission of the message.** -/
theorem FloodInv.transmit_copy (hm : m ∈ (s.nodes i).queuedMessages)
    (hundisturbed : s.Undisturbed net msg (.transmit i m)) : Wp (s.step net msg (.transmit i m))
      (Transmitted net msg o i m s (net.neighbors i)) fun _ => False := by
  refine wp_foldlM_done (Transmitted net msg o i m s) _ _ _
    (fun done j rest t hneighbors ht => ?_) _ ⟨if_pos hcopy, ?_, fun j _ => ⟨rfl, rfl⟩⟩
  · exact h.deliver hflooded horiginator hcopy hm hundisturbed hneighbors ht
  · intro j hj
    cases hj

end Ns3Dsme.Olsr.MprFlood
