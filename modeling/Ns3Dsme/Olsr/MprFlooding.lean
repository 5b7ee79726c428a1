/-
# Flooding through multipoint relays

A node sends a message on exactly if its first copy came from a node that has chosen it as a relay.
The message reaches every node nevertheless, and none of them twice.
-/
import Ns3Dsme.Olsr.MprTransmission
import Ns3Dsme.Olsr.RelayCover
import Mathlib.Logic.Relation

open Function List Program Program.Views

namespace Ns3Dsme.Olsr.MprFlood

variable {ι : Type} [DecidableEq ι] {net : StaticNetwork ι} {msg : MessageHeader} {o i : ι}
  {m : MessageHeader} {s s' : MprFlood ι}

/-! ### The relays of a transmission -/

omit [DecidableEq ι] in
theorem IsExact.willing (h : s.IsExact net i) {b : ι} (hb : b ∈ net.neighbors i) :
    MprComputation.willing (MprComputation.symNeighbors (s.nodes i).state) (net.addr b) = true := by
  obtain ⟨nb, hnb, hmain⟩ := h.neighbor_of b hb
  unfold MprComputation.willing
  split
  · rename_i t ht
    have hmem := mem_of_find?_eq_some ht
    have hnever := (h.neighbor t (mem_filter.mp hmem).1).2.1
    rw [beq_eq_false_iff_ne.mpr hnever]
    rfl
  · rename_i hnone
    have hsym : nb ∈ MprComputation.symNeighbors (s.nodes i).state := by
      refine mem_filter.mpr ⟨hnb, ?_⟩
      rw [(h.neighbor nb hnb).1]
      rfl
    exact absurd (beq_iff_eq.mpr hmain) (List.find?_eq_none.mp hnone nb hsym)

omit [DecidableEq ι] in
/-- A node at distance two is a neighbour of a relay. -/
theorem IsExact.exists_relay (h : s.IsExact net i) {b c : ι} (hb : b ∈ net.neighbors i)
    (hc : c ∈ net.neighbors b) (hci : c ≠ i) (hnot : c ∉ net.neighbors i) :
    ∃ j ∈ net.neighbors i, c ∈ net.neighbors j ∧ net.addr j ∈ (s.nodes i).state.mprSet := by
  obtain ⟨t, ht, ht_neighbor, ht_twoHop⟩ := h.twoHop_of b hb c hc hci
  obtain ⟨mprSet, hmprs, hsub, -⟩ := h.mprs
  have hstrict : t ∈ MprComputation.twoHopNeighbors (s.nodes i).state (net.addr i) := by
    refine mem_filter.mpr ⟨ht, ?_⟩
    rw [ht_twoHop, ht_neighbor, h.willing hb, Bool.and_true, Bool.and_eq_true, Bool.not_eq_true',
      Bool.not_eq_true', beq_eq_false_iff_ne, any_eq_false]
    refine ⟨fun heq => hci (net.addr_injective heq), fun nb hnb hmain => ?_⟩
    obtain ⟨-, -, j, hj, hj_main⟩ := h.neighbor nb (mem_filter.mp hnb).1
    rw [beq_iff_eq, hj_main] at hmain
    exact hnot (net.addr_injective hmain ▸ hj)
  obtain ⟨u, hu, hu_twoHop, hu_relay⟩ := OlsrState.covered_of_mprComputation hmprs t hstrict
  obtain ⟨j, hj, k, hk, -, hu_neighbor, hu_addr⟩ := h.twoHop u (mem_filter.mp hu).1
  rw [hu_twoHop, ht_twoHop] at hu_addr
  rw [hu_neighbor] at hu_relay
  exact ⟨j, hj, net.addr_injective hu_addr ▸ hk, hsub hu_relay⟩

omit [DecidableEq ι] in
/-- A relay knows that it has been chosen. -/
theorem IsExact.selectedBy {j : ι} (h : s.IsExact net j) (hi : i ∈ net.neighbors j)
    (hrelay : net.addr j ∈ (s.nodes i).state.mprSet) :
    (s.nodes j).selectedBy (net.addr i) = true := by
  obtain ⟨t, ht, hmain⟩ := h.selector_of i hi hrelay
  unfold RoutingProtocol.selectedBy OlsrState.findMprSelectorTuple
  rw [h.ifaces i hi]
  exact List.find?_isSome.mpr ⟨t, ht, beq_iff_eq.mpr hmain⟩

/-! ### The invariant after a transmission -/

/-- What a transmission does to a node. -/
inductive Fate (net : StaticNetwork ι) (msg : MessageHeader) (o i : ι) (m : MessageHeader)
    (s s' : MprFlood ι) (j : ι) : Prop
  | sender (hj : j = i) (hnode : s'.nodes j = (s.send msg i m).nodes i)
      (hprocessed : s'.processed j = s.processed j) : Fate net msg o i m s s' j
  | same (hj : j ≠ i) (hnode : s'.nodes j = s.nodes j)
      (hprocessed : s'.processed j = s.processed j) : Fate net msg o i m s s' j
  | first (hj : j ≠ i) (hmem : j ∈ net.neighbors i) (hother : j ≠ o) (hnew : s.processed j = [])
      (hlearns : RoutingProtocol.Learns msg m (net.addr j) (net.addr i) (s.nodes j) (s'.nodes j))
      (hprocessed : s'.processed j = [(s.sent.length, (s.nodes j).now)]) :
      Fate net msg o i m s s' j

theorem Transmitted.fate (ht : Transmitted net msg o i m s (net.neighbors i) s') (j : ι) :
    Fate net msg o i m s s' j := by
  by_cases hj : j ∈ net.neighbors i
  · have hji : j ≠ i := by
      rintro rfl
      exact net.irrefl _ hj
    cases ht.hears j hj with
    | again _ hnode hprocessed => exact .same hji hnode hprocessed
    | first hother hnew hlearns hprocessed => exact .first hji hj hother hnew hlearns hprocessed
  · obtain ⟨hnode, hprocessed⟩ := ht.others j hj
    by_cases hji : j = i
    · exact .sender hji (hji ▸ hnode) hprocessed
    · exact .same hji (hnode.trans (update_of_ne hji _ _)) hprocessed

/-- The sender has no copy left. -/
theorem FloodInv.waiting_sender (h : s.FloodInv net msg o) (hcopy : msg.IsCopy m)
    (hm : m ∈ (s.nodes i).queuedMessages) :
    (s.nodes i).waiting msg = [m] ∧ s.sent.count i = 0 ∧
      ((s.send msg i m).nodes i).waiting msg = [] := by
  have hmem : m ∈ (s.nodes i).waiting msg :=
    mem_filter.mpr ⟨hm, decide_eq_true hcopy⟩
  have hpos := length_pos_of_mem hmem
  have honce := h.once i
  have hone : (s.nodes i).waiting msg = [m] := by
    obtain ⟨m', hm'⟩ := length_eq_one_iff.mp (by omega : ((s.nodes i).waiting msg).length = 1)
    rw [hm', mem_singleton] at hmem
    rw [hm', hmem]
  refine ⟨hone, by omega, ?_⟩
  rw [waiting_send, if_pos rfl, hone, erase_cons_head]

theorem relayed_hops (httl : 1 < m.timeToLive.toNat)
    (hsum : m.timeToLive.toNat + m.hopCount.toNat = msg.timeToLive.toNat) :
    (RoutingProtocol.relayed m).timeToLive.toNat + (RoutingProtocol.relayed m).hopCount.toNat =
      msg.timeToLive.toNat := by
  have hbound := msg.timeToLive.isLt
  have httl_one : (m.timeToLive - 1).toNat = m.timeToLive.toNat - 1 := by
    rw [BitVec.toNat_sub_of_le (by rw [BitVec.le_def]; exact httl.le)]
    rfl
  have hhop_one : (m.hopCount + 1).toNat = m.hopCount.toNat + 1 := by
    rw [BitVec.toNat_add_of_lt]
    · rfl
    · show m.hopCount.toNat + 1 < 2 ^ 8
      omega
  show (m.timeToLive - 1).toNat + (m.hopCount + 1).toNat = _
  omega

theorem getElem?_snoc {α : Type} {xs : List α} {x a : α} {k : ℕ} (h : (xs ++ [x])[k]? = some a) :
    xs[k]? = some a ∨ (k = xs.length ∧ a = x) := by
  rcases Nat.lt_or_ge k xs.length with hlt | hge
  · rw [List.getElem?_append_left hlt] at h
    exact .inl h
  · rw [List.getElem?_append_right hge, List.getElem?_singleton] at h
    split at h
    · rename_i hk
      exact .inr ⟨by omega, (Option.some.inj h).symm⟩
    · cases h

/-- Records are kept. -/
theorem Fate.processed {j : ι} (hfate : Fate net msg o i m s s' j) {x : ℕ × ℤ}
    (hx : x ∈ s.processed j) : x ∈ s'.processed j := by
  cases hfate with
  | sender _ _ hprocessed => exact hprocessed ▸ hx
  | same _ _ hprocessed => exact hprocessed ▸ hx
  | first _ _ _ hnew _ _ =>
    rw [hnew] at hx
    cases hx

/-- A copy that waits goes on waiting, unless it is the one that is sent. -/
theorem Fate.waiting {j : ι} (hfate : Fate net msg o i m s s' j) (hsent : s'.sent = s.sent ++ [i])
    (hj : (s.nodes j).waiting msg ≠ [] ∨ j ∈ s.sent) :
    (s'.nodes j).waiting msg ≠ [] ∨ j ∈ s'.sent := by
  rw [hsent]
  cases hfate with
  | sender hj_eq _ _ => exact .inr (by simp [hj_eq])
  | same _ hnode _ =>
    rw [hnode]
    exact hj.imp_right fun hmem => mem_append_left _ hmem
  | first _ _ _ _ hlearns _ =>
    refine hj.imp (fun hne => ?_) fun hmem => mem_append_left _ hmem
    rw [hlearns.waiting]
    exact append_ne_nil_of_left_ne_nil hne _

/-- A node sends a copy of the message. -/
structure SendsCopy (net : StaticNetwork ι) (msg : MessageHeader) (o i : ι) (m : MessageHeader)
    (s s' : MprFlood ι) : Prop where
  inv : s.FloodInv net msg o
  copy : msg.IsCopy m
  queued : m ∈ (s.nodes i).queuedMessages
  exact : ∀ j, s.IsExact net j
  hops : m.hopCount.toNat + 1 < msg.timeToLive.toNat
  transmitted : Transmitted net msg o i m s (net.neighbors i) s'

namespace SendsCopy

variable {j : ι}

variable (h : SendsCopy net msg o i m s s')
include h

theorem waiting_sender : (s.nodes i).waiting msg = [m] ∧ s.sent.count i = 0 ∧
      ((s.send msg i m).nodes i).waiting msg = [] :=
  h.inv.waiting_sender h.copy h.queued

theorem mainAddress (j : ι) : (s'.nodes j).mainAddress = net.addr j := by
  cases h.transmitted.fate j with
  | sender hj hnode _ =>
    have hsame : ((s.send msg i m).nodes i).mainAddress = (s.nodes i).mainAddress := by
      show (update s.nodes i _ i).mainAddress = _
      rw [update_self]
    rw [hnode, hsame, hj, h.inv.mainAddress]
  | same _ hnode _ => rw [hnode, h.inv.mainAddress]
  | first _ _ _ _ hlearns _ => rw [hlearns.mainAddress, h.inv.mainAddress]

theorem copies {c : MessageHeader} (hc : c ∈ (s'.nodes j).waiting msg) :
    c.body = msg.body ∧ c.timeToLive.toNat + c.hopCount.toNat = msg.timeToLive.toNat := by
  obtain ⟨hwaiting, -, hsend_waiting⟩ := h.waiting_sender
  cases h.transmitted.fate j with
  | sender _ hnode _ =>
    rw [hnode, hsend_waiting] at hc
    cases hc
  | same _ hnode _ =>
    rw [hnode] at hc
    exact h.inv.copies j c hc
  | first _ _ hother hnew hlearns _ =>
    rw [hlearns.waiting, (h.inv.unheard j hother hnew).2.1, nil_append] at hc
    split at hc
    · obtain ⟨hbody, hsum⟩ := h.inv.copies i m (by simp [hwaiting])
      have hhops := h.hops
      rw [mem_singleton.mp hc]
      exact ⟨hbody, relayed_hops (by omega) hsum⟩
    · cases hc

/-- How many copies a node has had to send. -/
theorem load (j : ι) : ((s'.nodes j).waiting msg).length + s'.sent.count j =
        ((s.nodes j).waiting msg).length + s.sent.count j ∨
      j ≠ o ∧ ((s'.nodes j).waiting msg).length + s'.sent.count j ≤ 1 := by
  rw [h.transmitted.sent, count_append]
  have hother (hj : j ≠ i) : [i].count j = 0 := by
    apply count_eq_zero.mpr
    rw [mem_singleton]
    exact hj
  cases h.transmitted.fate j with
  | sender hj hnode _ =>
    obtain ⟨hwaiting, hcount, hsend_waiting⟩ := h.waiting_sender
    left
    rw [hnode, hsend_waiting, hj, hcount, hwaiting, count_singleton_self]
    rfl
  | same hj hnode _ =>
    left
    rw [hnode, hother hj, Nat.add_zero]
  | first hj _ hjo hnew hlearns _ =>
    right
    obtain ⟨-, hnil, hnot⟩ := h.inv.unheard j hjo hnew
    rw [hlearns.waiting, hnil, nil_append, count_eq_zero.mpr hnot, hother hj]
    refine ⟨hjo, ?_⟩
    split
    · exact Nat.le_refl 1
    · exact Nat.zero_le 1

theorem unheard (hj : j ≠ o) (hnone : s'.processed j = []) :
    (s'.nodes j).duplicateOf msg = none ∧ (s'.nodes j).waiting msg = [] ∧ j ∉ s'.sent := by
  cases h.transmitted.fate j with
  | sender hj_eq _ hprocessed =>
    rw [hprocessed] at hnone
    have hnil := (h.inv.unheard j hj hnone).2.1
    rw [hj_eq, h.waiting_sender.1] at hnil
    cases hnil
  | same hji hnode hprocessed =>
    rw [hprocessed] at hnone
    obtain ⟨hunknown, hnil, hnot⟩ := h.inv.unheard j hj hnone
    rw [hnode, h.transmitted.sent, mem_append, mem_singleton, not_or]
    exact ⟨hunknown, hnil, hnot, hji⟩
  | first _ _ _ _ _ hprocessed =>
    rw [hprocessed] at hnone
    cases hnone

/-- A record is an old one, or the one of this transmission. -/
theorem record {x : ℕ × ℤ} (hx : x ∈ s'.processed j) :
    (x ∈ s.processed j ∧ s'.processed j = s.processed j) ∨
      (s'.processed j = [x] ∧ x = (s.sent.length, (s.nodes j).now) ∧ j ∈ net.neighbors i ∧
        RoutingProtocol.Learns msg m (net.addr j) (net.addr i) (s.nodes j) (s'.nodes j)) := by
  cases h.transmitted.fate j with
  | sender _ _ hprocessed => exact .inl ⟨hprocessed ▸ hx, hprocessed⟩
  | same _ _ hprocessed => exact .inl ⟨hprocessed ▸ hx, hprocessed⟩
  | first _ hmem _ _ hlearns hprocessed =>
    rw [hprocessed] at hx
    rw [hprocessed, mem_singleton.mp hx]
    exact .inr ⟨rfl, rfl, hmem, hlearns⟩

theorem heardFrom {x : ℕ × ℤ} (hx : x ∈ s'.processed j) :
    ∃ a, s'.sent[x.1]? = some a ∧ j ∈ net.neighbors a := by
  rw [h.transmitted.sent]
  rcases h.record hx with ⟨hold, -⟩ | ⟨-, rfl, hmem, -⟩
  · obtain ⟨a, ha, hja⟩ := h.inv.heardFrom j x hold
    rw [List.getElem?_append_left (List.getElem?_eq_some_iff.mp ha).1]
    exact ⟨a, ha, hja⟩
  · exact ⟨i, List.getElem?_concat_length, hmem⟩

theorem known {x : ℕ × ℤ} (hx : x ∈ s'.processed j) :
    (∃ d, (s'.nodes j).duplicateOf msg = some d ∧ net.addr j ∈ d.ifaceList ∧
      d.expirationTime = x.2 + dupHoldTime) ∨ x.2 + dupHoldTime < (s'.nodes j).now := by
  cases h.transmitted.fate j with
  | sender hj hnode hprocessed =>
    have hdup : ((s.send msg i m).nodes i).duplicateOf msg = (s.nodes i).duplicateOf msg := by
      show RoutingProtocol.duplicateOf msg (update s.nodes i _ i) = _
      rw [update_self]
      rfl
    have hnow : ((s.send msg i m).nodes i).now = (s.nodes i).now := by
      show (update s.nodes i _ i).now = _
      rw [update_self]
    rw [hprocessed] at hx
    rw [hnode, hdup, hnow, ← hj]
    exact h.inv.known j x hx
  | same _ hnode hprocessed =>
    rw [hprocessed] at hx
    rw [hnode]
    exact h.inv.known j x hx
  | first _ _ _ _ hlearns hprocessed =>
    rw [hprocessed] at hx
    rw [mem_singleton.mp hx]
    exact .inl hlearns.known

theorem reached {k : ℕ} {a : ι} (hk : s'.sent[k]? = some a) (hj : j ∈ net.neighbors a) (hjo : j ≠ o) :
    s'.processed j ≠ [] := by
  rw [h.transmitted.sent] at hk
  rcases getElem?_snoc hk with hold | ⟨-, rfl⟩
  · obtain ⟨x, hx⟩ := exists_mem_of_ne_nil _ (h.inv.reached k a hold j hj hjo)
    exact ne_nil_of_mem ((h.transmitted.fate j).processed hx)
  · cases h.transmitted.hears j hj with
    | again hbefore _ hprocessed =>
      rw [hprocessed]
      exact hbefore.resolve_left hjo
    | first _ _ _ hprocessed =>
      rw [hprocessed]
      exact cons_ne_nil _ _

/-- The nodes at distance two of the sender. -/
theorem covered_new {b c : ι} (hb : b ∈ net.neighbors i) (hc : c ∈ net.neighbors b) (hci : c ≠ i)
    (hnot : c ∉ net.neighbors i) :
    ∃ j ∈ net.neighbors i, c ∈ net.neighbors j ∧ (j = o ∨ ∃ x ∈ s'.processed j,
      x.1 < s.sent.length ∨ (x.1 = s.sent.length ∧
        ((s'.nodes j).waiting msg ≠ [] ∨ j ∈ s'.sent))) := by
  obtain ⟨j, hj, hcj, hrelay⟩ := (h.exact i).exists_relay hb hc hci hnot
  refine ⟨j, hj, hcj, ?_⟩
  cases h.transmitted.hears j hj with
  | again hold _ hprocessed =>
    refine hold.imp_right fun hne => ?_
    -- the relay has heard of the message in an earlier transmission
    obtain ⟨x, hx⟩ := exists_mem_of_ne_nil _ hne
    obtain ⟨a, ha, -⟩ := h.inv.heardFrom j x hx
    exact ⟨x, hprocessed ▸ hx, .inl (List.getElem?_eq_some_iff.mp ha).1⟩
  | first _ _ hlearns hprocessed =>
    refine .inr ⟨_, hprocessed ▸ mem_singleton_self _, .inr ⟨rfl, .inl ?_⟩⟩
    rw [hlearns.waiting, (h.exact j).selectedBy (net.symm i j hj) hrelay, if_pos rfl]
    exact append_ne_nil_of_right_ne_nil _ (cons_ne_nil _ _)

theorem covered {k : ℕ} {a c : ι} (hk : s'.sent[k]? = some a) (hnot : c ∉ net.neighbors a)
    (hca : c ≠ a) (htwo : ∃ b ∈ net.neighbors a, c ∈ net.neighbors b) :
    ∃ b ∈ net.neighbors a, c ∈ net.neighbors b ∧ (b = o ∨ ∃ x ∈ s'.processed b, x.1 < k ∨
      (x.1 = k ∧ ((s'.nodes b).waiting msg ≠ [] ∨ b ∈ s'.sent))) := by
  have hsent := h.transmitted.sent
  rw [hsent] at hk
  rcases getElem?_snoc hk with hold | ⟨rfl, rfl⟩
  · obtain ⟨r, hr, hrc, hcase⟩ := h.inv.covered k a hold c hnot hca htwo
    refine ⟨r, hr, hrc, hcase.imp_right ?_⟩
    rintro ⟨x, hx, hbefore⟩
    refine ⟨x, (h.transmitted.fate r).processed hx, hbefore.imp_right ?_⟩
    rintro ⟨hk_eq, hrelay⟩
    exact ⟨hk_eq, (h.transmitted.fate r).waiting hsent hrelay⟩
  · obtain ⟨b, hb, hbc⟩ := htwo
    exact h.covered_new hb hbc hca hnot

theorem floodInv : s'.FloodInv net msg o where
  mainAddress := h.mainAddress
  copies _ _ hc := h.copies hc
  once j := by
    have honce := h.inv.once j
    rcases h.load j with hsame | ⟨-, hle⟩
    · omega
    · exact hle
  origin := by
    have horigin := h.inv.origin
    rcases h.load o with hsame | ⟨hne, -⟩
    · omega
    · exact absurd rfl hne
  own := by
    cases h.transmitted.fate o with
    | sender _ _ hprocessed => rw [hprocessed, h.inv.own]
    | same _ _ hprocessed => rw [hprocessed, h.inv.own]
    | first _ _ hother _ _ _ => exact absurd rfl hother
  unheard _ hj hnone := h.unheard hj hnone
  single j x hx := by
    rcases h.record hx with ⟨hold, hprocessed⟩ | ⟨hsingle, -⟩
    · rw [hprocessed]
      exact h.inv.single j x hold
    · exact hsingle
  heardFrom _ _ hx := h.heardFrom hx
  known _ _ hx := h.known hx
  reached _ _ hk _ hj hjo := h.reached hk hj hjo
  covered _ _ hk _ hnot hca htwo := h.covered hk hnot hca htwo

end SendsCopy

/-! ## The run -/

theorem FloodInv.step (h : s.FloodInv net msg o) (hflooded : msg.IsFlooded)
    (horiginator : msg.originatorAddress = net.addr o) (a : MprFloodAction ι)
    (henabled : s.enabled a) (hundisturbed : s.Undisturbed net msg a) :
    Post (s.step net msg a) (FloodInv net msg o) := by
  cases a with
  | node i a => exact h.node henabled hundisturbed
  | transmit i m =>
    by_cases hcopy : msg.IsCopy m
    · refine (h.transmit_copy hflooded horiginator hcopy henabled hundisturbed).mono
        (fun s' ht => ?_) fun _ _ => trivial
      obtain ⟨hexact, hhops, -⟩ := hundisturbed hcopy
      exact SendsCopy.floodInv ⟨h, hcopy, henabled, hexact, hhops, ht⟩
    · exact h.transmit_other hcopy

omit [DecidableEq ι] in
/-- A node that knows the message, next to one that does not. -/
theorem exists_frontier {P : ι → Prop} (hconnected : ∀ i,
    Relation.ReflTransGen (fun a b => b ∈ net.neighbors a) o i) (ho : P o) {c : ι} (hc : ¬ P c) :
    ∃ a b, P a ∧ ¬ P b ∧ b ∈ net.neighbors a := by
  by_contra hnone
  push Not at hnone
  have hall (i : ι) : P i := by
    induction hconnected i with
    | refl => exact ho
    | tail _ hstep ih =>
      by_contra hnot
      exact hnone _ _ ih hnot hstep
  exact hc (hall c)

/-- **Nobody is left out.** -/
theorem FloodInv.everywhere (h : s.FloodInv net msg o)
    (hconnected : ∀ i, Relation.ReflTransGen (fun a b => b ∈ net.neighbors a) o i)
    (hquiet : ∀ i, (s.nodes i).waiting msg = []) {i : ι} (hi : i ≠ o) : s.processed i ≠ [] := by
  -- who sends, reaches all its neighbours
  have hreached {a b : ι} (ha : a ∈ s.sent) (hb : b ∈ net.neighbors a) (hbo : b ≠ o) :
      s.processed b ≠ [] := by
    obtain ⟨k, hk⟩ := mem_iff_getElem?.mp ha
    exact h.reached k a hk b hb hbo
  have horigin : o ∈ s.sent := by
    have := h.origin
    rw [hquiet, length_nil, Nat.zero_add] at this
    exact count_pos_iff.mp (by omega)
  intro hleft
  obtain ⟨b, c, hb, hc, hbc⟩ := exists_frontier (P := fun i => i = o ∨ s.processed i ≠ [])
    hconnected (.inl rfl) (c := i) (by simp [hi, hleft])
  rw [not_or, not_not] at hc
  obtain ⟨hco, hc_left⟩ := hc
  have hnot_sent {a : ι} (ha : a ∈ s.sent) (hac : c ∈ net.neighbors a) : False :=
    hreached ha hac hco hc_left
  have hbo : b ≠ o := by
    rintro rfl
    exact hnot_sent horigin hbc
  -- among the neighbours of `c` that know the message, one heard of it first
  let heardAt (k : ℕ) : Prop := ∃ b t, c ∈ net.neighbors b ∧ (k, t) ∈ s.processed b
  have hsome : ∃ k, heardAt k := by
    obtain ⟨x, hx⟩ := exists_mem_of_ne_nil _ (hb.resolve_left hbo)
    exact ⟨x.1, b, x.2, hbc, hx⟩
  classical
  obtain ⟨b', t, hb'c, hb'⟩ := Nat.find_spec hsome
  obtain ⟨a, ha, hab'⟩ := h.heardFrom b' _ hb'
  have ha_sent : a ∈ s.sent := mem_iff_getElem?.mpr ⟨_, ha⟩
  have hca : c ≠ a := by
    rintro rfl
    exact (h.unheard c hco hc_left).2.2 ha_sent
  obtain ⟨r, hr, hrc, hcase⟩ := h.covered _ a ha c (fun hac => hnot_sent ha_sent hac) hca
    ⟨b', hab', hb'c⟩
  rcases hcase with rfl | ⟨x, hx, hearlier | ⟨-, hrelay⟩⟩
  · exact hnot_sent horigin hrc
  · exact Nat.find_min hsome hearlier ⟨r, x.2, hrc, hx⟩
  · rcases hrelay with hwaits | hsent
    · exact hwaits (hquiet r)
    · exact hnot_sent hsent hrc

/-- A copy that waits can be sent. -/
theorem FloodInv.goesOn (h : s.FloodInv net msg o) (hflooded : msg.IsFlooded)
    (hm : m ∈ (s.nodes i).waiting msg) :
    s.enabled (.transmit i m) ∧ ∃ s', s.step net msg (.transmit i m) = .ok s' := by
  refine ⟨(mem_filter.mp hm).1, ?_⟩
  have hcopy_flooded : m.IsFlooded := by
    unfold MessageHeader.IsFlooded at hflooded ⊢
    rw [(h.copies i m hm).1]
    exact hflooded
  have hends : Wp (s.step net msg (.transmit i m)) (fun _ => True) fun _ => False := by
    refine wp_foldlM (fun _ => True) (fun _ => False) _ _ (fun t j _ _ => ?_) _ trivial
    obtain ⟨n, hn⟩ := RoutingProtocol.exists_recvMessage (n := t.nodes j) (net.addr j)
      (net.addr i) hcopy_flooded
    unfold MprFlood.deliver
    rw [hn]
    trivial
  cases hstep : s.step net msg (.transmit i m) with
  | ok s' => exact ⟨s', rfl⟩
  | error fault => exact absurd (hends.of_eq_error hstep) id

/-- Node 0 reaches node 2 through node 1. -/
def threeInLine : StaticNetwork (Fin 3) where
  addr i := BitVec.ofNat 32 (i.val + 1)
  neighbors i := if i = 1 then [0, 2] else [1]
  addr_injective := by
    unfold Function.Injective
    decide
  symm := by decide
  irrefl := by decide
  nodup := by decide

/-- A TC message of node 0. -/
def tcOfFirst : MessageHeader where
  vTime := 0x07
  originatorAddress := 1
  timeToLive := 255
  hopCount := 0
  messageSequenceNumber := 7
  body := .tc ⟨3, [2]⟩

/-- The nodes know each other, and the nodes at the ends have chosen the one between them. -/
def lineFlood : MprFlood (Fin 3) where
  nodes i :=
    let addr : Ipv4Address := BitVec.ofNat 32 (i.val + 1)
    let around : List Ipv4Address := if i = 1 then [1, 3] else [2]
    let node : RoutingProtocol := RoutingProtocol.fresh addr
    { node with
      queuedMessages := if i = 0 then [tcOfFirst] else []
      state :=
        { linkSet := around.map fun a => ⟨addr, a, seconds 6, seconds 6, seconds 6⟩
          neighborSet := around.map fun a => ⟨a, .sym, willDefault⟩
          twoHopNeighborSet := if i = 1 then [] else [⟨2, 4 - addr, seconds 6⟩]
          mprSet := if i = 1 then [] else [2]
          mprSelectorSet := if i = 1 then [⟨1, seconds 6⟩, ⟨3, seconds 6⟩] else [] } }
  sent := []
  processed _ := []

theorem lineFlood_isNew : lineFlood.IsNew threeInLine tcOfFirst 0 where
  mainAddress := by decide
  originator := rfl
  hopCount := rfl
  flooded := trivial
  queued := by decide
  waiting := by decide
  unknown := by decide
  sent := rfl
  processed _ := rfl

theorem threeInLine_connected (i : Fin 3) :
    Relation.ReflTransGen (fun a b => b ∈ threeInLine.neighbors a) 0 i := by
  have hone : Relation.ReflTransGen (fun a b => b ∈ threeInLine.neighbors a) 0 1 :=
    .single (by decide)
  match i with
  | 0 => exact .refl
  | 1 => exact hone
  | 2 => exact hone.tail (by decide)

end Ns3Dsme.Olsr.MprFlood
