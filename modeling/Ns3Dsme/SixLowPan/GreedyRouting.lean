/-
# Greedy geographic routing

`SixLowPanNetDevice` in greedy mesh mode: hello messages fill the neighbor tables, and a
packet is handed to the neighbor in the table that is nearest to its destination.  A device
does not know its own position, so a hop need not lead closer to the destination: it does so
exactly if the table has a neighbor that is closer.
-/
import Ns3Dsme.Lib.Machine
import Ns3Dsme.Lib.Route
import Ns3Dsme.SixLowPan.Headers
import Mathlib.Data.List.Perm.Basic

open List Program

namespace Ns3Dsme.SixLowPan

/-! ## Neighbor tables -/

/-- The square of the distance of two positions.  The source compares the roots in double
precision; below `2 ^ 31` the roots of two integers are ordered like the integers. -/
def squaredDistance (p q : Position) : ℤ :=
  (p.x.toInt - q.x.toInt) * (p.x.toInt - q.x.toInt)
    + (p.y.toInt - q.y.toInt) * (p.y.toInt - q.y.toInt)

/-- `m_neighborTable`, a `std::map` from addresses to positions: the keys are in order. -/
structure NeighborTable where
  entries : List (Mac16Address × Position)
  sorted : entries.Pairwise fun e e' => e.1 < e'.1

/-- Assign to a key of a sorted list. -/
def assign (addr : Mac16Address) (p : Position) :
    List (Mac16Address × Position) → List (Mac16Address × Position)
  | [] => [(addr, p)]
  | e :: es =>
    if addr < e.1 then (addr, p) :: e :: es
    else if addr = e.1 then (addr, p) :: es
    else e :: assign addr p es

/-- An assignment adds one entry and no other. -/
theorem mem_of_mem_assign (addr : Mac16Address) (p : Position) (es : List (Mac16Address × Position))
    (e : Mac16Address × Position) (h : e ∈ assign addr p es) :
    e = (addr, p) ∨ e ∈ es := by
  induction es with
  | nil => exact Or.inl (mem_singleton.mp h)
  | cons e' es ih =>
    unfold assign at h
    split at h
    · exact mem_cons.mp h
    · split at h
      · rcases mem_cons.mp h with h | h
        · exact Or.inl h
        · exact Or.inr (mem_cons_of_mem _ h)
      · rcases mem_cons.mp h with rfl | h
        · exact Or.inr (by simp)
        · exact (ih h).imp_right (mem_cons_of_mem _)

/-- An assignment keeps the keys in order. -/
theorem pairwise_assign (addr : Mac16Address) (p : Position) (es : List (Mac16Address × Position))
    (h : es.Pairwise fun e e' => e.1 < e'.1) :
    (assign addr p es).Pairwise fun e e' => e.1 < e'.1 := by
  induction es with
  | nil => simp [assign]
  | cons e es ih =>
    obtain ⟨hfirst, htail⟩ := pairwise_cons.mp h
    unfold assign
    split
    · rename_i hlt
      refine pairwise_cons.mpr ⟨fun e' he' => ?_, h⟩
      rcases mem_cons.mp he' with rfl | he'
      · exact hlt
      · exact BitVec.lt_trans hlt (hfirst e' he')
    · split
      · rename_i heq
        exact pairwise_cons.mpr ⟨fun e' he' => heq ▸ hfirst e' he', htail⟩
      · rename_i hge hne
        refine pairwise_cons.mpr ⟨fun e' he' => ?_, ih htail⟩
        rcases mem_of_mem_assign addr p es e' he' with rfl | he'
        · show e.1 < addr
          bv_omega
        · exact hfirst e' he'

namespace NeighborTable

def empty : NeighborTable := ⟨[], List.Pairwise.nil⟩

/-- `m_neighborTable[addr] = p`. -/
def set (t : NeighborTable) (addr : Mac16Address) (p : Position) : NeighborTable :=
  ⟨assign addr p t.entries, pairwise_assign addr p t.entries t.sorted⟩

end NeighborTable

/-! ## The network -/

/-- Where a packet is: on the air to a node, or waiting there for `DoSendGreedyForwarding`. -/
inductive Stage
  | inAir
  | scheduled
  deriving DecidableEq

/-- A packet on its way.  `uid` is its number, which no handler reads. -/
structure GreedyPacket where
  uid : ℕ
  hdr : MeshGEO
  node : Mac16Address
  stage : Stage
  deriving DecidableEq

/-- A hop of a packet: who sent it to whom, where it is bound, and which neighbors the sender
knew. -/
structure Hop where
  uid : ℕ
  sender : Mac16Address
  receiver : Mac16Address
  dst : Position
  neighbors : List (Mac16Address × Position)

/-- The devices of a network, the packets on their way and the hops so far. -/
structure GreedyNetwork where
  table : Mac16Address → NeighborTable := fun _ => .empty
  packets : List GreedyPacket := []
  nextUid : ℕ := 0
  hops : List Hop := []

/-- The body of the loop over the neighbor table: keep the nearest neighbor so far.  The
squares are computed in `int`. -/
def nearer (dst : Position) (best : Option (Mac16Address × ℤ)) (e : Mac16Address × Position) :
    Exec (Option (Mac16Address × ℤ)) :=
  let dist := squaredDistance dst e.2
  if dist < 2 ^ 31 then
    match best with
    | none => .ok (some (e.1, dist))
    | some b => .ok (if dist < b.2 then some (e.1, dist) else best)
  else .error .signedOverflow

/-- The nearest neighbor.  Without any neighbor the address stays empty, and the device below
asserts that it is a short address. -/
def bestNeighbor (dst : Position) (es : List (Mac16Address × Position)) : Exec Mac16Address := do
  match ← es.foldlM (nearer dst) none with
  | some b => .ok b.1
  | none => .error .assertFailed

/-- Hand a packet to the nearest neighbor: the end of `DoSendGreedy` and all of
`DoSendGreedyForwarding`. -/
def sendToNearest (uid : ℕ) (hdr : MeshGEO) (sender : Mac16Address) (net : GreedyNetwork) :
    Exec GreedyNetwork := do
  let neighbors := (net.table sender).entries
  let receiver ← bestNeighbor hdr.dst neighbors
  .ok { net with
    packets := net.packets ++ [⟨uid, hdr.received, receiver, .inAir⟩]
    hops := net.hops ++ [⟨uid, sender, receiver, hdr.dst, neighbors⟩] }

/-- `DoSendGreedy`. -/
def doSendGreedy (src dest : Mac16Address) (dst : Position) (net : GreedyNetwork) :
    Exec GreedyNetwork :=
  sendToNearest net.nextUid ⟨src, dest, 0x0f, dst⟩ src { net with nextUid := net.nextUid + 1 }

/-- `ReceiveFromDevice` for a mesh header with positions: schedule the forwarding, unless the
packet has arrived or may not be forwarded any more. -/
def receiveMeshGEO (i : ℕ) (p : GreedyPacket) (net : GreedyNetwork) : GreedyNetwork :=
  if p.hdr.finalDst ≠ p.node ∧ p.hdr.hopsLeft ≠ 0 then
    let hdr := { p.hdr with hopsLeft := p.hdr.hopsLeft - 1 }
    { net with packets := net.packets.set i { p with hdr, stage := .scheduled } }
  else { net with packets := net.packets.eraseIdx i }

/-- `ReceiveFromDevice` for a hello message. -/
def receiveHello (sender receiver : Mac16Address) (p : Position) (net : GreedyNetwork) :
    GreedyNetwork :=
  { net with table := fun v =>
      if v = receiver then (net.table v).set sender p else net.table v }

/-- What happens in a network. -/
inductive GreedyAction
  /-- A node hears the hello message of another one. -/
  | hello (sender receiver : Mac16Address)
  | doSendGreedy (src dest : Mac16Address)
  /-- Packet number `i` reaches the node it was sent to. -/
  | receive (i : ℕ)
  | lose (i : ℕ)
  /-- The scheduled forwarding of packet number `i` runs. -/
  | forward (i : ℕ)

variable (position : Mac16Address → Position)

/-- Carry out an action, in a network whose nodes are placed by `position`. -/
def greedyStep (net : GreedyNetwork) : GreedyAction → Exec GreedyNetwork
  | .hello sender receiver => .ok (receiveHello sender receiver (position sender) net)
  | .doSendGreedy src dest => doSendGreedy src dest (position dest) net
  | .receive i =>
    match net.packets[i]? with
    | some p => .ok (receiveMeshGEO i p net)
    | none => .ok net
  | .lose i => .ok { net with packets := net.packets.eraseIdx i }
  | .forward i =>
    match net.packets[i]? with
    | some p => sendToNearest p.uid p.hdr p.node { net with packets := net.packets.eraseIdx i }
    | none => .ok net

/-- When an action can happen. -/
def greedyEnabled (net : GreedyNetwork) : GreedyAction → Bool
  | .hello sender receiver => sender != receiver
  | .doSendGreedy _ _ => true
  | .receive i => (net.packets[i]?).any fun p => p.stage == .inAir
  | .lose i => (net.packets[i]?).any fun p => p.stage == .inAir
  | .forward i => (net.packets[i]?).any fun p => p.stage == .scheduled

/-- **A network in greedy mode.** -/
def greedyMachine : Machine GreedyNetwork GreedyAction Fault where
  enabled net a := greedyEnabled net a = true
  step := greedyStep position

instance (net : GreedyNetwork) (a : GreedyAction) :
    Decidable ((greedyMachine position).enabled net a) :=
  inferInstanceAs (Decidable (greedyEnabled net a = true))

/-! ## The nearest neighbor -/

/-- What the loop knows after it has seen some entries. -/
def BestOf (dst : Position) (seen : List (Mac16Address × Position)) :
    Option (Mac16Address × ℤ) → Prop
  | none => seen = []
  | some b => (∃ e ∈ seen, e.1 = b.1 ∧ squaredDistance dst e.2 = b.2)
      ∧ ∀ e ∈ seen, b.2 ≤ squaredDistance dst e.2

theorem bestOf_nearer (dst : Position) (seen : List (Mac16Address × Position))
    (best : Option (Mac16Address × ℤ)) (e : Mac16Address × Position) (h : BestOf dst seen best) :
    Post (nearer dst best e) (BestOf dst (seen ++ [e])) := by
  unfold nearer
  dsimp only
  split
  · cases best with
    | none =>
      subst h
      exact ⟨⟨e, by simp, rfl, rfl⟩, by simp⟩
    | some b =>
      obtain ⟨⟨e', he', haddr, hdist⟩, hmin⟩ := h
      dsimp only
      split
      · rename_i hlt
        refine ⟨⟨e, by simp, rfl, rfl⟩, fun x hx => ?_⟩
        rcases mem_append.mp hx with hx | hx
        · exact (le_of_lt hlt).trans (hmin x hx)
        · rw [mem_singleton.mp hx]
      · rename_i hge
        refine ⟨⟨e', mem_append_left _ he', haddr, hdist⟩, fun x hx => ?_⟩
        rcases mem_append.mp hx with hx | hx
        · exact hmin x hx
        · rw [mem_singleton.mp hx]
          exact not_lt.mp hge
  · trivial

theorem bestOf_foldlM (dst : Position) (es : List (Mac16Address × Position)) :
    ∀ seen best, BestOf dst seen best →
      Post (es.foldlM (nearer dst) best) (BestOf dst (seen ++ es)) := by
  induction es with
  | nil =>
    intro seen best h
    rw [append_nil]
    exact h
  | cons e es ih =>
    intro seen best h
    rw [foldlM_cons]
    refine (bestOf_nearer dst seen best e h).bind fun best' h' => ?_
    have hrest := ih (seen ++ [e]) best' h'
    rwa [append_assoc] at hrest

/-- The address that is chosen is that of a nearest neighbor in the table. -/
theorem post_bestNeighbor (dst : Position) (es : List (Mac16Address × Position)) :
    Post (bestNeighbor dst es) fun addr =>
      ∃ e ∈ es, e.1 = addr ∧ ∀ e' ∈ es, squaredDistance dst e.2 ≤ squaredDistance dst e'.2 := by
  refine (bestOf_foldlM dst es [] none rfl).bind fun best h => ?_
  cases best with
  | none => trivial
  | some b =>
    obtain ⟨⟨e, he, haddr, hdist⟩, hmin⟩ := h
    exact ⟨e, he, haddr, fun e' he' => hdist ▸ hmin e' he'⟩

/-! ## The trails of packets -/

/-- The hops of packet number `k`. -/
def ofPacket (k : ℕ) (hops : List Hop) : List Hop := hops.filter fun h => h.uid = k

/-- The hop starts where the one before ended and has the same destination. -/
structure Hop.Continues (a b : Hop) : Prop where
  receiver : a.receiver = b.sender
  dst : a.dst = b.dst

/-- The hop leads to a nearest one of the neighbors its sender knew. -/
def Hop.IsNearest (h : Hop) : Prop :=
  (h.receiver, position h.receiver) ∈ h.neighbors
    ∧ ∀ e ∈ h.neighbors,
      squaredDistance h.dst (position h.receiver) ≤ squaredDistance h.dst e.2

/-- The hop leads strictly closer to the destination. -/
def Hop.IsCloser (h : Hop) : Prop :=
  squaredDistance h.dst (position h.receiver) < squaredDistance h.dst (position h.sender)

/-- The sender of the hop knew a neighbor that is strictly closer than itself. -/
def Hop.HasCloser (h : Hop) : Prop :=
  ∃ e ∈ h.neighbors, squaredDistance h.dst e.2 < squaredDistance h.dst (position h.sender)

/-- A hop to a nearest neighbor leads closer exactly if there is a closer neighbor. -/
theorem Hop.IsNearest.isCloser_iff {position : Mac16Address → Position} {h : Hop}
    (hnear : h.IsNearest position) : h.IsCloser position ↔ h.HasCloser position := by
  constructor
  · exact fun hcloser => ⟨_, hnear.1, hcloser⟩
  · rintro ⟨e, he, hcloser⟩
    exact lt_of_le_of_lt (hnear.2 e he) hcloser

/-- What holds in every state of a network. -/
structure GreedyInv (net : GreedyNetwork) : Prop where
  table : ∀ v, ∀ e ∈ (net.table v).entries, e.2 = position e.1
  nearest : ∀ h ∈ net.hops, h.IsNearest position
  hopUid : ∀ h ∈ net.hops, h.uid < net.nextUid
  packetUid : ∀ p ∈ net.packets, p.uid < net.nextUid
  nodup : (net.packets.map GreedyPacket.uid).Nodup
  trail : ∀ k, (ofPacket k net.hops).IsChain Hop.Continues
  last : ∀ p ∈ net.packets, ∃ h, (ofPacket p.uid net.hops).getLast? = some h
    ∧ h.receiver = p.node ∧ h.dst = p.hdr.dst

variable {position : Mac16Address → Position} {net : GreedyNetwork}

/-- Hops of other packets leave a trail alone. -/
theorem ofPacket_append (k : ℕ) (hops : List Hop) (h : Hop) :
    ofPacket k (hops ++ [h]) = if h.uid = k then ofPacket k hops ++ [h] else ofPacket k hops := by
  unfold ofPacket
  rw [filter_append]
  split
  · rename_i hk
    simp [hk]
  · rename_i hk
    simp [hk]

/-- A packet that is sent from the end of its trail. -/
theorem inv_sendToNearest (hnet : GreedyInv position net) (k : ℕ) (hdr : MeshGEO)
    (sender : Mac16Address) (hk : k < net.nextUid) (hnew : k ∉ net.packets.map GreedyPacket.uid)
    (hlast : ∀ h, (ofPacket k net.hops).getLast? = some h →
      h.receiver = sender ∧ h.dst = hdr.dst) :
    Post (sendToNearest k hdr sender net) (GreedyInv position) := by
  refine (post_bestNeighbor _ _).bind ?_
  rintro receiver ⟨e, he, rfl, hmin⟩
  have hpos : e.2 = position e.1 := hnet.table sender e he
  refine ⟨hnet.table, ?_, ?_, ?_, ?_, ?_, ?_⟩
  · intro h hh
    rcases mem_append.mp hh with hh | hh
    · exact hnet.nearest h hh
    · rw [mem_singleton.mp hh]
      refine ⟨?_, fun e' he' => ?_⟩
      · rw [← hpos]
        exact he
      · rw [← hpos]
        exact hmin e' he'
  · intro h hh
    rcases mem_append.mp hh with hh | hh
    · exact hnet.hopUid h hh
    · rw [mem_singleton.mp hh]
      exact hk
  · intro p hp
    rcases mem_append.mp hp with hp | hp
    · exact hnet.packetUid p hp
    · rw [mem_singleton.mp hp]
      exact hk
  · rw [map_append]
    refine nodup_append.mpr ⟨hnet.nodup, by simp, fun a ha b hb => ?_⟩
    rw [map_singleton, mem_singleton] at hb
    rintro rfl
    have hsame : a = k := hb
    exact hnew (hsame ▸ ha)
  · intro j
    dsimp only
    rw [ofPacket_append]
    split
    · rename_i hj
      subst hj
      refine isChain_append.mpr ⟨hnet.trail _, by simp, fun a ha b hb => ?_⟩
      have hb : b = _ := (Option.some.inj hb).symm
      subst hb
      obtain ⟨hreceiver, hdst⟩ := hlast a ha
      exact ⟨hreceiver, hdst⟩
    · exact hnet.trail j
  · intro p hp
    dsimp only
    rw [ofPacket_append]
    rcases mem_append.mp hp with hp | hp
    · have hother : k ≠ p.uid := fun hsame => hnew (hsame ▸ mem_map_of_mem hp)
      rw [if_neg hother]
      exact hnet.last p hp
    · rw [mem_singleton.mp hp, if_pos rfl]
      exact ⟨_, List.getLast?_concat .., rfl, rfl⟩

/-- A packet that is dropped or lost. -/
theorem inv_eraseIdx (hnet : GreedyInv position net) (i : ℕ) :
    GreedyInv position { net with packets := net.packets.eraseIdx i } where
  table := hnet.table
  nearest := hnet.nearest
  hopUid := hnet.hopUid
  packetUid p hp := hnet.packetUid p (mem_of_mem_eraseIdx hp)
  nodup := hnet.nodup.sublist ((eraseIdx_sublist _ i).map _)
  trail := hnet.trail
  last p hp := hnet.last p (mem_of_mem_eraseIdx hp)

/-- A packet that waits to be forwarded. -/
theorem inv_set (hnet : GreedyInv position net) (i : ℕ) (p q : GreedyPacket)
    (hp : net.packets[i]? = some p) (huid : q.uid = p.uid) (hnode : q.node = p.node)
    (hdst : q.hdr.dst = p.hdr.dst) :
    GreedyInv position { net with packets := net.packets.set i q } where
  table := hnet.table
  nearest := hnet.nearest
  hopUid := hnet.hopUid
  packetUid x hx := by
    rcases mem_or_eq_of_mem_set hx with hx | rfl
    · exact hnet.packetUid x hx
    · rw [huid]
      exact hnet.packetUid p (mem_of_getElem? hp)
  nodup := by
    have hsame : (net.packets.set i q).map GreedyPacket.uid
        = net.packets.map GreedyPacket.uid := by
      obtain ⟨hi, rfl⟩ := List.getElem?_eq_some_iff.mp hp
      have hget : net.packets[i].uid
          = (net.packets.map GreedyPacket.uid).get ⟨i, by rwa [length_map]⟩ := by simp
      rw [map_set, huid, hget]
      exact set_getElem_self _
    show ((net.packets.set i q).map GreedyPacket.uid).Nodup
    rw [hsame]
    exact hnet.nodup
  trail := hnet.trail
  last x hx := by
    rcases mem_or_eq_of_mem_set hx with hx | rfl
    · exact hnet.last x hx
    · rw [huid, hnode, hdst]
      exact hnet.last p (mem_of_getElem? hp)

/-- **The step lemma.**  Every step keeps the invariant. -/
theorem inv_greedyStep (hnet : GreedyInv position net) (a : GreedyAction) :
    Post (greedyStep position net a) (GreedyInv position) := by
  unfold greedyStep
  cases a with
  | hello sender receiver =>
    refine ⟨fun v e he => ?_, hnet.nearest, hnet.hopUid, hnet.packetUid, hnet.nodup,
      hnet.trail, hnet.last⟩
    unfold receiveHello at he
    dsimp only at he
    split at he
    · rcases mem_of_mem_assign _ _ _ e he with rfl | he
      · rfl
      · exact hnet.table v e he
    · exact hnet.table v e he
  | doSendGreedy src dest =>
    have hfresh : ofPacket net.nextUid net.hops = [] := by
      refine filter_eq_nil_iff.mpr fun h hh => ?_
      have hlt := hnet.hopUid h hh
      simp only [decide_eq_true_eq]
      omega
    have hnumbered : GreedyInv position { net with nextUid := net.nextUid + 1 } :=
      ⟨hnet.table, hnet.nearest, fun h hh => Nat.lt_succ_of_lt (hnet.hopUid h hh),
        fun p hp => Nat.lt_succ_of_lt (hnet.packetUid p hp), hnet.nodup, hnet.trail, hnet.last⟩
    refine inv_sendToNearest hnumbered _ _ _ (Nat.lt_succ_self _) (fun hmem => ?_) fun h hh => ?_
    · obtain ⟨p, hp, huid⟩ := mem_map.mp hmem
      have hlt := hnet.packetUid p hp
      omega
    · rw [show ofPacket net.nextUid net.hops = [] from hfresh] at hh
      cases hh
  | receive i =>
    dsimp only
    split
    · rename_i p hp
      unfold receiveMeshGEO
      split
      · exact inv_set hnet i p _ hp rfl rfl rfl
      · exact inv_eraseIdx hnet i
    · exact hnet
  | lose i => exact inv_eraseIdx hnet i
  | forward i =>
    dsimp only
    split
    · rename_i p hp
      obtain ⟨h, hh, hreceiver, hdst⟩ := hnet.last p (mem_of_getElem? hp)
      refine inv_sendToNearest (inv_eraseIdx hnet i) _ _ _
        (hnet.packetUid p (mem_of_getElem? hp)) ?_ fun h' hh' => ?_
      · obtain ⟨hi, rfl⟩ := List.getElem?_eq_some_iff.mp hp
        have hperm := (getElem_cons_eraseIdx_perm hi).map GreedyPacket.uid
        exact (nodup_cons.mp (hperm.nodup_iff.mpr hnet.nodup)).1
      · rw [show (ofPacket p.uid net.hops).getLast? = some h from hh] at hh'
        obtain rfl := Option.some.inj hh'
        exact ⟨hreceiver, hdst⟩
    · exact hnet

/-- Nothing has happened in an empty network. -/
theorem inv_start : GreedyInv position {} where
  table _ _ he := by cases he
  nearest _ hh := by cases hh
  hopUid _ hh := by cases hh
  packetUid _ hp := by cases hp
  nodup := nodup_nil
  trail _ := isChain_nil
  last _ hp := by cases hp

/-- All hops of a packet have one destination. -/
theorem dst_eq_of_isChain (h : Hop) (hs : List Hop) (hchain : (h :: hs).IsChain Hop.Continues) :
    ∀ h' ∈ hs, h'.dst = h.dst := by
  induction hs generalizing h with
  | nil => simp
  | cons h₁ hs ih =>
    obtain ⟨hfirst, hrest⟩ := isChain_cons_cons.mp hchain
    intro h' hh'
    rcases mem_cons.mp hh' with rfl | hh'
    · exact hfirst.dst.symm
    · exact (ih h₁ hrest h' hh').trans hfirst.dst.symm

/-- No node sends a packet twice if every hop of the packet leads closer. -/
theorem nodup_senders (hs : List Hop) (hchain : hs.IsChain Hop.Continues)
    (hcloser : ∀ h ∈ hs, h.IsCloser position) : (hs.map Hop.sender).Nodup := by
  cases hs with
  | nil => exact nodup_nil
  | cons first hs =>
    have hdst : ∀ h ∈ first :: hs, h.dst = first.dst := by
      intro h hh
      rcases mem_cons.mp hh with rfl | hh
      · rfl
      · exact dst_eq_of_isChain first hs hchain h hh
    have htrail : Route.IsTrail Hop.sender Hop.receiver (first :: hs) :=
      hchain.imp fun a b hab => hab.receiver
    refine htrail.nodup_map_sender (fun v => squaredDistance first.dst (position v))
      fun h hh => ?_
    have hlt := hcloser h hh
    rw [Hop.IsCloser, hdst h hh] at hlt
    exact hlt

/-- **Greedy forwarding.**  Every hop of every run leads to a nearest one of the neighbors the
sender knows; it leads closer to the destination exactly if the sender knows a closer neighbor;
and no node sends a packet twice if every sender of the packet knew a closer neighbor. -/
theorem greedy_of_run (position : Mac16Address → Position) (net : GreedyNetwork)
    (as : List GreedyAction) (hrun : (greedyMachine position).Run (fun _ _ => True) {} as net) :
    (∀ h ∈ net.hops, h.IsNearest position)
      ∧ (∀ h ∈ net.hops, h.IsCloser position ↔ h.HasCloser position)
      ∧ ∀ k, (∀ h ∈ ofPacket k net.hops, h.HasCloser position) →
        ((ofPacket k net.hops).map Hop.sender).Nodup := by
  have hinv : GreedyInv position net :=
    hrun.invariant (GreedyInv position) (fun net a hnet _ _ => inv_greedyStep hnet a) inv_start
  refine ⟨hinv.nearest, fun h hh => (hinv.nearest h hh).isCloser_iff, fun k hcloser => ?_⟩
  refine @nodup_senders position _ (hinv.trail k) fun h hh => ?_
  exact (hinv.nearest h (mem_filter.mp hh).1).isCloser_iff.mpr (hcloser h hh)

/-! ## Examples of runs -/

/-- Three nodes in a line. -/
def line (addr : Mac16Address) : Position :=
  if addr = 1 then ⟨0, 0⟩ else if addr = 2 then ⟨10, 0⟩ else ⟨20, 0⟩

/-- Node 1 sends a packet to node 3 through node 2. -/
def lineRun : List GreedyAction :=
  [.hello 2 1, .hello 3 2, .hello 1 2, .doSendGreedy 1 3, .receive 0, .forward 0, .receive 0]

/-- On a line every hop leads closer. -/
theorem line_greedy : ∃ net, (greedyMachine line).Run (fun _ _ => True) {} lineRun net
      ∧ net.hops.map (fun h => (h.sender, h.receiver)) = [(1, 2), (2, 3)]
      ∧ (∀ h ∈ net.hops, h.IsNearest line)
      ∧ (∀ h ∈ net.hops, h.IsCloser line ↔ h.HasCloser line)
      ∧ ∀ k, (∀ h ∈ ofPacket k net.hops, h.HasCloser line) →
        ((ofPacket k net.hops).map Hop.sender).Nodup := by
  have hexec : ((greedyMachine line).exec (fun _ _ => true) {} lineRun).any
      (fun net => decide (net.hops.map (fun h => (h.sender, h.receiver)) = [(1, 2), (2, 3)]))
        = true := by decide +kernel
  obtain ⟨net, hrun, hhops⟩ := Machine.exists_run_of_exec _ _ _ _ hexec
  have hrun : (greedyMachine line).Run (fun _ _ => True) {} lineRun net :=
    hrun.mono fun _ _ _ => trivial
  exact ⟨net, hrun, of_decide_eq_true hhops, greedy_of_run line net _ hrun⟩

/-- Two nodes that know only each other, far from the destination. -/
def deadEnd (addr : Mac16Address) : Position :=
  if addr = 1 then ⟨10, 0⟩ else if addr = 2 then ⟨0, 0⟩ else ⟨100, 0⟩

/-- Node 1 sends a packet to node 3, which nobody knows. -/
def deadEndRun : List GreedyAction :=
  [.hello 2 1, .hello 1 2, .doSendGreedy 1 3]
    ++ (List.replicate 20 [.receive 0, .forward 0]).flatten

/-- At a local minimum the packet goes back and forth: the first hop leads away from the
destination, both nodes send the packet again and again, and 15 hops are left for ever. -/
theorem deadEnd_not_closer : ∃ net, (greedyMachine deadEnd).Run (fun _ _ => True) {} deadEndRun net
      ∧ ¬ (∀ h ∈ net.hops, h.IsCloser deadEnd)
      ∧ ¬ ((ofPacket 0 net.hops).map Hop.sender).Nodup
      ∧ net.packets.map (fun p => p.hdr.hopsLeft) = [15] := by
  have hexec : ((greedyMachine deadEnd).exec (fun _ _ => true) {} deadEndRun).any
      (fun net => (net.hops.any fun h => decide (squaredDistance h.dst (deadEnd h.sender)
          ≤ squaredDistance h.dst (deadEnd h.receiver)))
        && decide (¬ ((ofPacket 0 net.hops).map Hop.sender).Nodup)
        && decide (net.packets.map (fun p => p.hdr.hopsLeft) = [15])) = true := by
    decide +kernel
  obtain ⟨net, hrun, htest⟩ := Machine.exists_run_of_exec _ _ _ _ hexec
  obtain ⟨htest, hleft⟩ := Bool.and_eq_true_iff.mp htest
  obtain ⟨hany, hnodup⟩ := Bool.and_eq_true_iff.mp htest
  obtain ⟨h, hh, hle⟩ := any_eq_true.mp hany
  refine ⟨net, hrun.mono fun _ _ _ => trivial, fun hall => ?_, of_decide_eq_true hnodup,
    of_decide_eq_true hleft⟩
  exact absurd (hall h hh) (not_lt.mpr (of_decide_eq_true hle))

end Ns3Dsme.SixLowPan
