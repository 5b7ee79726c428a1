/-
# LOAD routing

`SixLowPanNetDevice` in LOAD mesh mode: a route request is flooded, and every node that
relays it takes its sender as the next hop to the originator; the reply does the same on its
way back.  An entry of the routing table is only a next hop, so an old message overwrites a
newer entry.  As long as none does, the next hops to a destination form no cycle.
-/
import Ns3Dsme.Lib.Machine
import Ns3Dsme.Lib.Route
import Ns3Dsme.SixLowPan.Headers
import Mathlib.Data.Prod.Lex

open List Program

namespace Ns3Dsme.SixLowPan

/-! ## Nodes and messages -/

/-- `LoadEntry`.  `stamp` and `depth` are ghosts: the number of the message the entry was made
from, and how often that message had been sent. -/
structure LoadEntry where
  nextAddr : Mac16Address
  stamp : ℕ
  depth : ℕ
  deriving DecidableEq

/-- The members of a device that LOAD uses. -/
structure LoadNode where
  loadTable : Mac16Address → Option LoadEntry := fun _ => none
  seenPkts : Mac16Address → List (BitVec 8) := fun _ => []
  bc0Serial : BitVec 8 := 0
  /-- The mesh header of `LoadPacket`, once there is one. -/
  loadPacket : Option Mesh := none

/-- What follows the mesh header. -/
inductive LoadBody
  | rreq (seq : BitVec 8)
  | rrep
  | data
  deriving DecidableEq

/-- A frame on the air; it is broadcast if it has no destination.  `stamp` numbers the requests
and replies in the order in which they are originated, and `depth` counts the relays. -/
structure LoadFrame where
  sender : Mac16Address
  dst : Option Mac16Address
  mesh : Mesh
  body : LoadBody
  stamp : ℕ
  depth : ℕ
  deriving DecidableEq

/-- The entry that is made from a frame. -/
def LoadFrame.entry (f : LoadFrame) : LoadEntry where
  nextAddr := f.sender
  stamp := f.stamp
  depth := f.depth + 1

/-- The mesh header of a frame that is relayed. -/
def LoadFrame.relayed (f : LoadFrame) : Mesh :=
  { f.mesh with hopsLeft := f.mesh.hopsLeft - 1 }

/-- The calls that are scheduled with `ScheduleNow`. -/
inductive LoadCall
  | sendRREQ (dest : Mac16Address)
  | doSendRREQ (mesh : Mesh) (seq : BitVec 8) (stamp depth : ℕ)
  | sendRREP (dest : Mac16Address)
  | doSendRREP (mesh : Mesh) (stamp depth : ℕ)
  | doSendLoad
  | doSendLoadForwarding (mesh : Mesh)
  deriving DecidableEq

/-- The devices of a network, the frames sent so far and the calls that are scheduled.  A frame
stays on the air: it may be heard late, more than once or never. -/
structure LoadNetwork where
  node : Mac16Address → LoadNode := fun _ => {}
  frames : List LoadFrame := []
  calls : List (Mac16Address × LoadCall) := []
  nextStamp : ℕ := 0

namespace LoadNetwork

/-- Change one node. -/
def update (v : Mac16Address) (n : LoadNode) (net : LoadNetwork) : LoadNetwork :=
  { net with node := fun w => if w = v then n else net.node w }

/-- `Simulator::ScheduleNow`. -/
def schedule (v : Mac16Address) (call : LoadCall) (net : LoadNetwork) : LoadNetwork :=
  { net with calls := net.calls ++ [(v, call)] }

/-- `m_netDevice->Send`. -/
def send (f : LoadFrame) (net : LoadNetwork) : LoadNetwork :=
  { net with frames := net.frames ++ [{ f with mesh := f.mesh.received }] }

/-! ## Receiving -/

/-- The sequence number is among the last ones seen of the originator. -/
def hasSeen (net : LoadNetwork) (v originator : Mac16Address) (seq : BitVec 8) : Bool :=
  ((net.node v).seenPkts originator).contains seq

/-- Remember a sequence number; of too many the oldest is forgotten. -/
def noteSeen (meshCacheLength : ℕ) (v originator : Mac16Address) (seq : BitVec 8)
    (net : LoadNetwork) : LoadNetwork :=
  let n := net.node v
  let seen := n.seenPkts originator ++ [seq]
  let seen := if seen.length > meshCacheLength then seen.tail else seen
  net.update v { n with seenPkts := fun a => if a = originator then seen else n.seenPkts a }

/-- `m_loadTable[originator] = entry`. -/
def learn (v : Mac16Address) (f : LoadFrame) (net : LoadNetwork) : LoadNetwork :=
  let n := net.node v
  net.update v { n with loadTable := fun a =>
    if a = f.mesh.originator then some f.entry else n.loadTable a }

/-- `ReceiveFromDevice` for a route request. -/
def receiveRREQ (meshCacheLength : ℕ) (v : Mac16Address) (f : LoadFrame) (seq : BitVec 8)
    (net : LoadNetwork) : LoadNetwork :=
  if net.hasSeen v f.mesh.originator seq then net
  else
    let net := net.noteSeen meshCacheLength v f.mesh.originator seq
    if f.mesh.finalDst ≠ v then
      if f.mesh.hopsLeft = 0 ∨ f.mesh.originator = v then net
      else (net.learn v f).schedule v (.doSendRREQ f.relayed seq f.stamp (f.depth + 1))
    else (net.learn v f).schedule v (.sendRREP f.mesh.originator)

/-- `ReceiveFromDevice` for a route reply. -/
def receiveRREP (v : Mac16Address) (f : LoadFrame) (net : LoadNetwork) : LoadNetwork :=
  if f.mesh.finalDst ≠ v then
    if f.mesh.hopsLeft = 0 then net
    else (net.learn v f).schedule v (.doSendRREP f.relayed f.stamp (f.depth + 1))
  else (net.learn v f).schedule v .doSendLoad

/-- `ReceiveFromDevice` for data. -/
def receiveData (v : Mac16Address) (f : LoadFrame) (net : LoadNetwork) : LoadNetwork :=
  if f.mesh.finalDst ≠ v ∧ f.mesh.hopsLeft ≠ 0 then
    net.schedule v (.doSendLoadForwarding f.relayed)
  else net

/-- `ReceiveFromDevice` in LOAD mode. -/
def receive (meshCacheLength : ℕ) (v : Mac16Address) (f : LoadFrame) (net : LoadNetwork) :
    LoadNetwork :=
  match f.body with
  | .rreq seq => net.receiveRREQ meshCacheLength v f seq
  | .rrep => net.receiveRREP v f
  | .data => net.receiveData v f

/-! ## Sending -/

/-- Send a frame to the next hop on the way to a destination.  Without a route the address of
the next hop stays empty, and the device below asserts that it is a short address. -/
def sendAlong (v dest : Mac16Address) (f : Mac16Address → LoadFrame) (net : LoadNetwork) :
    Exec LoadNetwork :=
  match (net.node v).loadTable dest with
  | some e => .ok (net.send (f e.nextAddr))
  | none => .error .assertFailed

/-- `SendLoad`: keep the packet and look for a route. -/
def sendLoad (v dest : Mac16Address) (net : LoadNetwork) : LoadNetwork :=
  (net.update v { net.node v with loadPacket := some ⟨v, dest, 0x0f⟩ }).schedule v
    (.sendRREQ dest)

/-- `SendRREQ`. -/
def sendRREQ (v dest : Mac16Address) (net : LoadNetwork) : LoadNetwork :=
  let n := net.node v
  let f : LoadFrame := ⟨v, none, ⟨v, dest, 0x0f⟩, .rreq n.bc0Serial, net.nextStamp, 0⟩
  { (net.update v { n with bc0Serial := n.bc0Serial + 1 }).send f with
    nextStamp := net.nextStamp + 1 }

/-- `SendRREP`. -/
def sendRREP (v dest : Mac16Address) (net : LoadNetwork) : Exec LoadNetwork :=
  { net with nextStamp := net.nextStamp + 1 }.sendAlong v dest fun nextAddr =>
    ⟨v, some nextAddr, ⟨v, dest, 0x0f⟩, .rrep, net.nextStamp, 0⟩

/-- Run a scheduled call. -/
def run (v : Mac16Address) (call : LoadCall) (net : LoadNetwork) : Exec LoadNetwork :=
  match call with
  | .sendRREQ dest => .ok (net.sendRREQ v dest)
  | .doSendRREQ mesh seq stamp depth => .ok (net.send ⟨v, none, mesh, .rreq seq, stamp, depth⟩)
  | .sendRREP dest => net.sendRREP v dest
  | .doSendRREP mesh stamp depth =>
    net.sendAlong v mesh.finalDst fun nextAddr => ⟨v, some nextAddr, mesh, .rrep, stamp, depth⟩
  | .doSendLoad =>
    match (net.node v).loadPacket with
    | some mesh =>
      net.sendAlong v mesh.finalDst fun nextAddr => ⟨v, some nextAddr, mesh, .data, 0, 0⟩
    | none => .error .assertFailed
  | .doSendLoadForwarding mesh =>
    net.sendAlong v mesh.finalDst fun nextAddr => ⟨v, some nextAddr, mesh, .data, 0, 0⟩

end LoadNetwork

/-- What happens in a network. -/
inductive LoadAction
  | sendLoad (v dest : Mac16Address)
  /-- Node `v` hears frame number `i`. -/
  | receive (i : ℕ) (v : Mac16Address)
  /-- Scheduled call number `i` runs. -/
  | run (i : ℕ)

/-- Carry out an action. -/
def loadStep (meshCacheLength : ℕ) (net : LoadNetwork) : LoadAction → Exec LoadNetwork
  | .sendLoad v dest => .ok (net.sendLoad v dest)
  | .receive i v =>
    match net.frames[i]? with
    | some f => .ok (net.receive meshCacheLength v f)
    | none => .ok net
  | .run i =>
    match net.calls[i]? with
    | some (v, call) => { net with calls := net.calls.eraseIdx i }.run v call
    | none => .ok net

/-- A frame is heard by the node it is sent to, or by any other node if it is broadcast. -/
def loadEnabled (net : LoadNetwork) : LoadAction → Bool
  | .sendLoad _ _ => true
  | .receive i v => (net.frames[i]?).any fun f => f.sender != v && f.dst.all (· == v)
  | .run i => (net.calls[i]?).isSome

/-- **A network in LOAD mode.** -/
def loadMachine (meshCacheLength : ℕ) : Machine LoadNetwork LoadAction Fault where
  enabled net a := loadEnabled net a = true
  step := loadStep meshCacheLength

instance (meshCacheLength : ℕ) (net : LoadNetwork) (a : LoadAction) :
    Decidable ((loadMachine meshCacheLength).enabled net a) :=
  inferInstanceAs (Decidable (loadEnabled net a = true))

/-- The next hops to a destination. -/
def nextHop (net : LoadNetwork) (dest v : Mac16Address) : Option Mac16Address :=
  ((net.node v).loadTable dest).map LoadEntry.nextAddr

/-! ## Routes that are not older -/

/-- Messages are compared by when they were originated, and copies of one message by how few
hops they have made. -/
def hopRank (stamp depth : ℕ) : ℕ ×ₗ ℕᵒᵈ :=
  toLex (stamp, OrderDual.toDual depth)

/-- The rank of the message an entry was made from. -/
def LoadEntry.rank (e : LoadEntry) : ℕ ×ₗ ℕᵒᵈ :=
  hopRank e.stamp e.depth

/-- One hop more makes a lower rank. -/
theorem hopRank_succ_lt (stamp depth : ℕ) : hopRank stamp (depth + 1) < hopRank stamp depth :=
  Prod.Lex.toLex_lt_toLex.mpr (.inr ⟨rfl, OrderDual.toDual_lt_toDual.mpr (Nat.lt_succ_self _)⟩)

/-- A later message, or the same one over no more hops, has no lower rank. -/
theorem hopRank_le (s d s' d' : ℕ) (h : s < s' ∨ s = s' ∧ d' ≤ d) :
    hopRank s d ≤ hopRank s' d' :=
  Prod.Lex.toLex_le_toLex.mpr (h.imp id fun hsame => ⟨hsame.1, OrderDual.toDual_le_toDual.mpr hsame.2⟩)

namespace LoadNetwork

/-- The frame makes its receiver write an entry for the originator of the frame. -/
def learns (v : Mac16Address) (f : LoadFrame) (net : LoadNetwork) : Bool :=
  match f.body with
  | .rreq seq =>
    !net.hasSeen v f.mesh.originator seq
      && (f.mesh.finalDst == v || (f.mesh.hopsLeft != 0 && f.mesh.originator != v))
  | .rrep => f.mesh.finalDst == v || f.mesh.hopsLeft != 0
  | .data => false

/-- The entry to be written for `dest` is none for the node itself, and was made from a message
that is not older than the one it replaces; a copy of the same message has made no more hops. -/
def Supersedes (dest v : Mac16Address) (f : LoadFrame) (net : LoadNetwork) : Prop :=
  v ≠ dest ∧ ∀ e ∈ (net.node v).loadTable dest,
    e.stamp < f.stamp ∨ e.stamp = f.stamp ∧ f.depth + 1 ≤ e.depth

instance (dest v : Mac16Address) (f : LoadFrame) (net : LoadNetwork) :
    Decidable (net.Supersedes dest v f) := by
  unfold Supersedes
  infer_instance

end LoadNetwork

/-- No node takes an older route to `dest`, nor a route to itself. -/
def IsFresh (dest : Mac16Address) (net : LoadNetwork) : LoadAction → Prop
  | .receive i v => ∀ f ∈ net.frames[i]?,
      f.mesh.originator = dest → net.learns v f = true → net.Supersedes dest v f
  | _ => True

instance (dest : Mac16Address) (net : LoadNetwork) (a : LoadAction) :
    Decidable (IsFresh dest net a) := by
  unfold IsFresh
  cases a <;> infer_instance

/-! ## The invariant -/

variable {dest : Mac16Address} {net net' : LoadNetwork}

/-- Node `v` is the destination, or has an entry of at least the given rank. -/
def Vouched (dest : Mac16Address) (net : LoadNetwork) (v : Mac16Address) (stamp depth : ℕ) :
    Prop :=
  v = dest ∨ ∃ e ∈ (net.node v).loadTable dest, hopRank stamp depth ≤ e.rank

/-- A relay that is scheduled comes from a node that is vouched for. -/
def LoadCall.IsVouched (dest : Mac16Address) (net : LoadNetwork) (v : Mac16Address) :
    LoadCall → Prop
  | .doSendRREQ mesh _ stamp depth | .doSendRREP mesh stamp depth =>
    mesh.originator = dest → Vouched dest net v stamp depth
  | _ => True

/-- The frames and the scheduled relays of the destination's messages come from nodes that are
vouched for, and so does every entry. -/
structure LoadInv (dest : Mac16Address) (net : LoadNetwork) : Prop where
  entry : ∀ v, ∀ e ∈ (net.node v).loadTable dest,
    v ≠ dest ∧ (e.nextAddr = dest
      ∨ ∃ e' ∈ (net.node e.nextAddr).loadTable dest, e.rank < e'.rank)
  frame : ∀ f ∈ net.frames, f.body ≠ .data → f.mesh.originator = dest →
    Vouched dest net f.sender f.stamp f.depth
  call : ∀ c ∈ net.calls, c.2.IsVouched dest net c.1

/-- The entries for the destination only rise in rank. -/
def Rises (dest : Mac16Address) (net net' : LoadNetwork) : Prop :=
  ∀ v, ∀ e ∈ (net.node v).loadTable dest,
    ∃ e' ∈ (net'.node v).loadTable dest, e.rank ≤ e'.rank

/-- Entries that stay the same do not fall. -/
theorem rises_of_eq (h : ∀ v, (net'.node v).loadTable dest = (net.node v).loadTable dest) :
    Rises dest net net' := by
  intro v e he
  refine ⟨e, ?_, le_rfl⟩
  rw [h v]
  exact he

/-- Who is vouched for stays so. -/
theorem Vouched.rises {v : Mac16Address} {stamp depth : ℕ} (h : Vouched dest net v stamp depth)
    (hrises : Rises dest net net') : Vouched dest net' v stamp depth := by
  refine h.imp id ?_
  rintro ⟨e, he, hle⟩
  obtain ⟨e', he', hle'⟩ := hrises v e he
  exact ⟨e', he', hle.trans hle'⟩

/-- A scheduled relay stays vouched for. -/
theorem LoadCall.IsVouched.rises {v : Mac16Address} {c : LoadCall} (h : c.IsVouched dest net v)
    (hrises : Rises dest net net') : c.IsVouched dest net' v := by
  cases c with
  | doSendRREQ mesh seq stamp depth => exact fun horig => (h horig).rises hrises
  | doSendRREP mesh stamp depth => exact fun horig => (h horig).rises hrises
  | _ => trivial

/-- A change that leaves the entries for the destination alone. -/
theorem LoadInv.of_eq (h : LoadInv dest net)
    (htable : ∀ v, (net'.node v).loadTable dest = (net.node v).loadTable dest)
    (hframes : net'.frames = net.frames) (hcalls : ∀ c ∈ net'.calls, c ∈ net.calls) :
    LoadInv dest net' where
  entry v e he := by
    rw [htable v] at he
    obtain ⟨hne, hnext⟩ := h.entry v e he
    refine ⟨hne, ?_⟩
    rw [htable e.nextAddr]
    exact hnext
  frame f hf hbody horig := by
    rw [hframes] at hf
    exact (h.frame f hf hbody horig).rises (rises_of_eq htable)
  call c hc := (h.call c (hcalls c hc)).rises (rises_of_eq htable)

/-- Scheduling a call that is vouched for. -/
theorem LoadInv.schedule (h : LoadInv dest net) (v : Mac16Address) (c : LoadCall)
    (hc : c.IsVouched dest net v) : LoadInv dest (net.schedule v c) where
  entry := h.entry
  frame := h.frame
  call c' hc' := by
    rcases mem_append.mp hc' with hc' | hc'
    · exact h.call c' hc'
    · rw [mem_singleton.mp hc']
      exact hc

/-- Sending a frame from a node that is vouched for. -/
theorem LoadInv.send (h : LoadInv dest net) (f : LoadFrame)
    (hf : f.body ≠ .data → f.mesh.originator = dest → Vouched dest net f.sender f.stamp f.depth) :
    LoadInv dest (net.send f) where
  entry := h.entry
  frame f' hf' := by
    rcases mem_append.mp hf' with hf' | hf'
    · exact h.frame f' hf'
    · rw [mem_singleton.mp hf']
      exact hf
  call := h.call

/-! ## Learning a route -/

/-- The entries after one has been written. -/
theorem loadTable_learn (v w a : Mac16Address) (f : LoadFrame) :
    ((net.learn v f).node w).loadTable a
      = if w = v ∧ a = f.mesh.originator then some f.entry else (net.node w).loadTable a := by
  by_cases hw : w = v
  · subst hw
    simp [LoadNetwork.learn, LoadNetwork.update]
  · simp [LoadNetwork.learn, LoadNetwork.update, hw]

/-- A change of a node that leaves its entries alone. -/
theorem loadTable_update (v w : Mac16Address) (n : LoadNode)
    (hn : n.loadTable = (net.node v).loadTable) :
    ((net.update v n).node w).loadTable dest = (net.node w).loadTable dest := by
  by_cases hw : w = v
  · subst hw
    simp [LoadNetwork.update, hn]
  · simp [LoadNetwork.update, hw]

/-- A route that supersedes the one before makes the entries rise. -/
theorem rises_learn (v : Mac16Address) (f : LoadFrame)
    (hnew : f.mesh.originator = dest → net.Supersedes dest v f) :
    Rises dest net (net.learn v f) := by
  intro w e he
  rw [loadTable_learn]
  split
  · rename_i hw
    obtain ⟨rfl, horig⟩ := hw
    exact ⟨f.entry, rfl, hopRank_le _ _ _ _ ((hnew horig.symm).2 e he)⟩
  · exact ⟨e, he, le_rfl⟩

/-- **Learning a route.**  The sender of the frame is vouched for one hop better than its
receiver is after it took the route. -/
theorem LoadInv.learn (h : LoadInv dest net) (v : Mac16Address) (f : LoadFrame)
    (hf : f ∈ net.frames) (hbody : f.body ≠ .data)
    (hnew : f.mesh.originator = dest → net.Supersedes dest v f) :
    LoadInv dest (net.learn v f) := by
  have hrises := rises_learn v f hnew
  refine ⟨fun w e he => ?_, fun f' hf' hbody' horig => (h.frame f' hf' hbody' horig).rises hrises,
    fun c hc => (h.call c hc).rises hrises⟩
  rw [loadTable_learn] at he
  split at he
  · rename_i hw
    obtain ⟨rfl, horig⟩ := hw
    obtain rfl : f.entry = e := Option.some.inj he
    refine ⟨(hnew horig.symm).1, ?_⟩
    refine ((h.frame f hf hbody horig.symm).rises hrises).imp id ?_
    rintro ⟨e', he', hle⟩
    exact ⟨e', he', (hopRank_succ_lt _ _).trans_le hle⟩
  · obtain ⟨hne, hnext⟩ := h.entry w e he
    refine ⟨hne, hnext.imp id ?_⟩
    rintro ⟨e', he', hlt⟩
    obtain ⟨e'', he'', hle⟩ := hrises e.nextAddr e' he'
    exact ⟨e'', he'', hlt.trans_le hle⟩

/-- The receiver of a route is vouched for, one hop further away. -/
theorem vouched_learn (v : Mac16Address) (f : LoadFrame) (horig : f.mesh.originator = dest) :
    Vouched dest (net.learn v f) v f.stamp (f.depth + 1) := by
  refine .inr ⟨f.entry, ?_, le_rfl⟩
  rw [loadTable_learn, if_pos ⟨rfl, horig.symm⟩]
  rfl

/-! ## Runs -/

/-- Receiving a route request. -/
theorem LoadInv.receiveRREQ (h : LoadInv dest net) (n : ℕ) (v : Mac16Address) (f : LoadFrame)
    (seq : BitVec 8) (hf : f ∈ net.frames) (hbody : f.body = .rreq seq)
    (hfresh : f.mesh.originator = dest → net.learns v f = true → net.Supersedes dest v f) :
    LoadInv dest (net.receiveRREQ n v f seq) := by
  have hdata : f.body ≠ .data := by
    rw [hbody]
    exact LoadBody.noConfusion
  unfold LoadNetwork.receiveRREQ
  split
  · exact h
  · rename_i hseen
    have hsame (w : Mac16Address) :
        ((net.noteSeen n v f.mesh.originator seq).node w).loadTable dest
          = (net.node w).loadTable dest := loadTable_update v w _ rfl
    have hnoted : LoadInv dest (net.noteSeen n v f.mesh.originator seq) :=
      h.of_eq hsame rfl fun c hc => hc
    have hnew (hwrites : f.mesh.finalDst = v ∨ f.mesh.hopsLeft ≠ 0 ∧ f.mesh.originator ≠ v)
        (horig : f.mesh.originator = dest) :
        (net.noteSeen n v f.mesh.originator seq).Supersedes dest v f := by
      unfold LoadNetwork.Supersedes
      rw [hsame v]
      refine hfresh horig ?_
      unfold LoadNetwork.learns
      rw [hbody]
      simpa [hseen] using hwrites
    dsimp only
    split
    · rename_i hfinal
      split
      · exact hnoted
      · rename_i hstop
        have hwrites : f.mesh.hopsLeft ≠ 0 ∧ f.mesh.originator ≠ v := by
          rwa [not_or] at hstop
        exact (hnoted.learn v f hf hdata (hnew (.inr hwrites))).schedule v _
          fun horig => vouched_learn v f horig
    · rename_i hfinal
      have hmine : f.mesh.finalDst = v := not_not.mp hfinal
      exact (hnoted.learn v f hf hdata (hnew (.inl hmine))).schedule v _ trivial

/-- Receiving a route reply. -/
theorem LoadInv.receiveRREP (h : LoadInv dest net) (v : Mac16Address) (f : LoadFrame)
    (hf : f ∈ net.frames) (hbody : f.body = .rrep)
    (hfresh : f.mesh.originator = dest → net.learns v f = true → net.Supersedes dest v f) :
    LoadInv dest (net.receiveRREP v f) := by
  have hdata : f.body ≠ .data := by
    rw [hbody]
    exact LoadBody.noConfusion
  have hnew (hwrites : f.mesh.finalDst = v ∨ f.mesh.hopsLeft ≠ 0)
      (horig : f.mesh.originator = dest) : net.Supersedes dest v f := by
    refine hfresh horig ?_
    unfold LoadNetwork.learns
    rw [hbody]
    simpa using hwrites
  unfold LoadNetwork.receiveRREP
  split
  · split
    · exact h
    · rename_i hleft
      exact (h.learn v f hf hdata (hnew (.inr hleft))).schedule v _
        fun horig => vouched_learn v f horig
  · rename_i hfinal
    exact (h.learn v f hf hdata (hnew (.inl (not_not.mp hfinal)))).schedule v _ trivial

/-- Receiving a frame. -/
theorem LoadInv.receive (h : LoadInv dest net) (n : ℕ) (v : Mac16Address) (f : LoadFrame)
    (hf : f ∈ net.frames)
    (hfresh : f.mesh.originator = dest → net.learns v f = true → net.Supersedes dest v f) :
    LoadInv dest (net.receive n v f) := by
  unfold LoadNetwork.receive
  split
  · rename_i seq hbody
    exact h.receiveRREQ n v f seq hf hbody hfresh
  · rename_i hbody
    exact h.receiveRREP v f hf hbody hfresh
  · unfold LoadNetwork.receiveData
    split
    · exact h.schedule v _ trivial
    · exact h

/-- Sending along a route a frame from a node that is vouched for. -/
theorem LoadInv.sendAlong (h : LoadInv dest net) (v target : Mac16Address)
    (f : Mac16Address → LoadFrame)
    (hf : ∀ a, (f a).body ≠ .data → (f a).mesh.originator = dest →
      Vouched dest net (f a).sender (f a).stamp (f a).depth) :
    Post (net.sendAlong v target f) (LoadInv dest) := by
  unfold LoadNetwork.sendAlong
  split
  · exact h.send _ (hf _)
  · trivial

/-- Running a scheduled call that is vouched for. -/
theorem LoadInv.run (h : LoadInv dest net) (v : Mac16Address) (c : LoadCall)
    (hc : c.IsVouched dest net v) : Post (net.run v c) (LoadInv dest) := by
  unfold LoadNetwork.run
  cases c with
  | sendRREQ target =>
    have hnumbered : LoadInv dest (net.update v
        { net.node v with bc0Serial := (net.node v).bc0Serial + 1 }) :=
      h.of_eq (fun w => loadTable_update v w _ rfl) rfl fun c hc => hc
    refine LoadInv.of_eq (hnumbered.send
      ⟨v, none, ⟨v, target, 0x0f⟩, .rreq (net.node v).bc0Serial, net.nextStamp, 0⟩
      fun _ horig => .inl horig) (fun _ => rfl) rfl fun c hc => hc
  | doSendRREQ mesh seq stamp depth => exact h.send _ fun _ horig => hc horig
  | sendRREP target =>
    have hnumbered : LoadInv dest { net with nextStamp := net.nextStamp + 1 } :=
      h.of_eq (fun _ => rfl) rfl fun c hc => hc
    exact hnumbered.sendAlong v target _ fun a _ horig => .inl horig
  | doSendRREP mesh stamp depth => exact h.sendAlong v _ _ fun a _ horig => hc horig
  | doSendLoad =>
    dsimp only
    split
    · exact h.sendAlong v _ _ fun a hbody => absurd rfl hbody
    · trivial
  | doSendLoadForwarding mesh => exact h.sendAlong v _ _ fun a hbody => absurd rfl hbody

/-- **The step lemma.**  A step that takes no older route keeps the invariant. -/
theorem inv_loadStep (h : LoadInv dest net) (n : ℕ) (a : LoadAction) (hfresh : IsFresh dest net a) :
    Post (loadStep n net a) (LoadInv dest) := by
  unfold loadStep
  cases a with
  | sendLoad v target =>
    have hkept : LoadInv dest (net.update v
        { net.node v with loadPacket := some ⟨v, target, 0x0f⟩ }) :=
      h.of_eq (fun w => loadTable_update v w _ rfl) rfl fun c hc => hc
    exact hkept.schedule v _ trivial
  | receive i v =>
    dsimp only
    split
    · rename_i f hf
      exact h.receive n v f (mem_of_getElem? hf) (hfresh f hf)
    · exact h
  | run i =>
    dsimp only
    split
    · rename_i v c hc
      have hrest : LoadInv dest { net with calls := net.calls.eraseIdx i } :=
        h.of_eq (fun _ => rfl) rfl fun c hc => mem_of_mem_eraseIdx hc
      exact hrest.run v c ((h.call _ (mem_of_getElem? hc)).rises fun w e he => ⟨e, he, le_rfl⟩)
    · exact h

/-- Nothing has happened in an empty network. -/
theorem loadInv_start : LoadInv dest {} where
  entry _ _ he := by cases he
  frame _ hf := by cases hf
  call _ hc := by cases hc

/-- The rank of a node is that of its entry. -/
def nodeRank (dest : Mac16Address) (net : LoadNetwork) (v : Mac16Address) : ℕ ×ₗ ℕᵒᵈ :=
  (((net.node v).loadTable dest).map LoadEntry.rank).getD (hopRank 0 0)

/-- Each next hop has a higher rank, up to the destination. -/
theorem LoadInv.not_cyclic (h : LoadInv dest net) : ¬ Route.Cyclic (nextHop net dest) := by
  refine Route.not_cyclic_of_rank _ (nodeRank dest net) fun a b c hab hbc => ?_
  obtain ⟨e, he, rfl⟩ := Option.map_eq_some_iff.mp hab
  obtain ⟨e', he', -⟩ := Option.map_eq_some_iff.mp hbc
  have hnext := (h.entry a e he).2
  have hne : e.nextAddr ≠ dest := (h.entry _ e' he').1
  obtain ⟨e'', he'', hlt⟩ := hnext.resolve_left hne
  obtain rfl : e'' = e' := Option.some.inj (he''.symm.trans he')
  unfold nodeRank
  rw [he, he']
  exact hlt

/-- **Loop freedom.**  In every run in which no node takes a route to the destination that is
older than the one it has, nor a route to itself, the next hops to the destination form no
cycle. -/
theorem not_cyclic_of_run (meshCacheLength : ℕ) (dest : Mac16Address) (net : LoadNetwork)
    (as : List LoadAction) (hrun : (loadMachine meshCacheLength).Run (IsFresh dest) {} as net) :
    ¬ Route.Cyclic (nextHop net dest) := by
  have hinv : LoadInv dest net :=
    hrun.invariant (LoadInv dest) (fun net a hnet _ hfresh => inv_loadStep hnet _ a hfresh)
      loadInv_start
  exact hinv.not_cyclic

/-! ## Examples of runs -/

/-- Node 1 looks for node 3, which answers through node 2. -/
def discoveryRun : List LoadAction :=
  [.sendLoad 1 3, .run 0, .receive 0 2, .run 0, .receive 1 3, .run 0, .receive 2 2, .run 0,
    .receive 3 1]

/-- One discovery makes the routes to both ends. -/
theorem discovery_not_cyclic : ∃ net, (loadMachine 10).Run (IsFresh 3) {} discoveryRun net
      ∧ (nextHop net 3 1, nextHop net 3 2) = (some 2, some 3)
      ∧ ¬ Route.Cyclic (nextHop net 3) := by
  have hexec : ((loadMachine 10).exec (fun net a => decide (IsFresh 3 net a)) {}
      discoveryRun).any (fun net => decide ((nextHop net 3 1, nextHop net 3 2) = (some 2, some 3)))
        = true := by decide +kernel
  obtain ⟨net, hrun, hnext⟩ := Machine.exists_run_of_exec _ _ _ _ hexec
  have hrun : (loadMachine 10).Run (IsFresh 3) {} discoveryRun net :=
    hrun.mono fun _ _ hfresh => of_decide_eq_true hfresh
  exact ⟨net, hrun, of_decide_eq_true hnext, not_cyclic_of_run 10 3 net _ hrun⟩

/-- Node 1 looks for node 4 twice.  The first request reaches node 2 and the second one node 3;
then each of the two hears the request that the other relays. -/
def crossingRun : List LoadAction :=
  [.sendLoad 1 4, .run 0, .receive 0 2, .run 0, .sendLoad 1 4, .run 0, .receive 2 3, .run 0,
    .receive 3 2, .receive 1 3]

/-- The relayed request of the first discovery overwrites the newer entry of node 3, and the
next hops to node 1 form a cycle. -/
theorem crossing_cyclic : ∃ net, (loadMachine 10).Run (fun _ _ => True) {} crossingRun net
      ∧ Route.Cyclic (nextHop net 1) := by
  have hexec : ((loadMachine 10).exec (fun _ _ => true) {} crossingRun).any
      (fun net => decide ((nextHop net 1 2, nextHop net 1 3) = (some 3, some 2))) = true := by
    decide +kernel
  obtain ⟨net, hrun, hnext⟩ := Machine.exists_run_of_exec _ _ _ _ hexec
  obtain ⟨htwo, hthree⟩ := Prod.mk.inj (of_decide_eq_true hnext)
  exact ⟨net, hrun.mono fun _ _ _ => trivial, 2,
    .tail (.single htwo) hthree⟩

end Ns3Dsme.SixLowPan
