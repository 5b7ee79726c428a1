/-
# Data that waits for a route

In LOAD mode `SendLoad` keeps the packet in the one member `LoadPacket` and looks for a route;
any route reply for the device makes `DoSendLoad` send what the member then holds.  A second
packet overwrites the first, and a reply is not matched with the packet that waits for it.
-/
import Ns3Dsme.Lib.Machine
import Ns3Dsme.SixLowPan.NetDevice
import Mathlib.Data.List.Count

open List Program

namespace Ns3Dsme.SixLowPan

open NetDevice

/-! ## The device in LOAD mode -/

/-- The calls that are scheduled with `ScheduleNow`. -/
inductive ScheduledCall
  | sendRREQ (dest : MeshAddress)
  | sendRREP (dest : MeshAddress)
  | doSendLoad
  | forward (f : Forwarding)
  deriving DecidableEq

/-- The call that an effect of a received frame schedules. -/
def Effect.call : Effect → Option ScheduledCall
  | .forward f => some (.forward f)
  | .sendRREP dest => some (.sendRREP dest)
  | .doSendLoad => some .doSendLoad
  | .deliver _ => none

/-- A packet that is handed to the device below, and the address it is sent to. -/
structure Transmission where
  packet : List Octet
  nextHop : MeshAddress
  deriving DecidableEq

/-- A device with the members that LOAD sends from, and what it has handed to the device
below. -/
structure LoadDevice where
  device : NetDevice
  meshUnder : Bool
  bc0Serial : Octet := 0
  loadPacket : List Octet := []
  calls : List ScheduledCall := []
  sent : List Transmission := []

namespace LoadDevice

/-- `Simulator::ScheduleNow`. -/
def schedule (calls : List ScheduledCall) (s : LoadDevice) : LoadDevice :=
  { s with calls := s.calls ++ calls }

/-- `m_netDevice->Send`. -/
def send (packet : List Octet) (nextHop : MeshAddress) (s : LoadDevice) : LoadDevice :=
  { s with sent := s.sent ++ [⟨packet, nextHop⟩] }

/-- The next hop to a destination; without a route the address stays empty. -/
def nextAddress (dest : MeshAddress) (s : LoadDevice) : MeshAddress :=
  (s.device.loadTable dest).getD .empty

/-- `SendLoad`. -/
def sendLoad (packet : List Octet) (dest : MacAddress) (s : LoadDevice) :
    Except PacketFault LoadDevice := do
  let packet ← s.device.compress packet dest
  let originator ← meshAddress s.device.address
  let finalDst ← meshAddress dest
  let mesh : SixLowPanMesh := { originator, finalDst, hopsLeft := 0xF }
  return { s with loadPacket := mesh.serialize ++ packet }.schedule [.sendRREQ finalDst]

/-- `ReceiveFromDevice`. -/
def receive (packet : List Octet) (src dst : MacAddress) (s : LoadDevice) :
    Except PacketFault LoadDevice := do
  let (device, effects) ← receiveFromDevice s.device packet src dst
  return { s with device }.schedule (effects.filterMap Effect.call)

/-- `SendRREQ`. -/
def sendRREQ (dest : MeshAddress) (s : LoadDevice) : Except PacketFault LoadDevice := do
  let mesh : SixLowPanMesh :=
    { originator := ← meshAddress s.device.address, finalDst := dest, hopsLeft := 0xF }
  let packet := if s.device.loadRouting then serializeBc0 s.bc0Serial ++ serializeRREQ else []
  let bc0Serial :=
    if s.meshUnder ∧ s.device.loadRouting then s.bc0Serial + 1 else s.bc0Serial
  return { s with bc0Serial }.send (if s.meshUnder then mesh.serialize ++ packet else [])
    (.short 0xff 0xff)

/-- `SendRREP`. -/
def sendRREP (dest : MeshAddress) (s : LoadDevice) : Except PacketFault LoadDevice := do
  let mesh : SixLowPanMesh :=
    { originator := ← meshAddress s.device.address, finalDst := dest, hopsLeft := 0xF }
  let packet := if s.device.loadRouting then serializeRREP else []
  return s.send (if s.meshUnder then mesh.serialize ++ packet else []) (s.nextAddress dest)

/-- Send a packet to the next hop on the way to the final destination in its header. -/
def sendAlong (packet : List Octet) (s : LoadDevice) : Except PacketFault LoadDevice := do
  let (mesh, _) ← SixLowPanMesh.deserialize packet
  return s.send packet (s.nextAddress mesh.finalDst)

/-- `DoSendLoad`.  The device below works on the packet itself: it puts a header in front and a
trailer behind, and `framed` is what the member holds then. -/
def doSendLoad (framed : List Octet) (s : LoadDevice) : Except PacketFault LoadDevice := do
  return { ← s.sendAlong s.loadPacket with loadPacket := framed }

/-- Send a packet on.  `DoSendGreedyForwarding` belongs to another mode, and writes none of the
members that LOAD uses. -/
def forward (f : Forwarding) (s : LoadDevice) : Except PacketFault LoadDevice :=
  match f with
  | .broadcast packet => .ok (s.send packet (.short 0xff 0xff))
  | .doSendGreedyForwarding _ _ => .ok s
  | .doSendRREQ packet => .ok (s.send packet (.short 0xff 0xff))
  | .doSendRREP packet => s.sendAlong packet
  | .doSendLoadForwarding packet => s.sendAlong packet

/-- Run a scheduled call. -/
def run (call : ScheduledCall) (framed : List Octet) (s : LoadDevice) :
    Except PacketFault LoadDevice :=
  match call with
  | .sendRREQ dest => s.sendRREQ dest
  | .sendRREP dest => s.sendRREP dest
  | .doSendLoad => s.doSendLoad framed
  | .forward f => s.forward f

end LoadDevice

/-- What happens to a device. -/
inductive LoadInput
  | sendLoad (packet : List Octet) (dest : MacAddress)
  | receive (packet : List Octet) (src dst : MacAddress)
  /-- The scheduled call that is due runs. -/
  | run (framed : List Octet)
  deriving DecidableEq

/-- What an input does to a device. -/
def LoadDevice.step (s : LoadDevice) : LoadInput → Except PacketFault LoadDevice
  | .sendLoad packet dest => s.sendLoad packet dest
  | .receive packet src dst => s.receive packet src dst
  | .run framed =>
    match s.calls with
    | [] => .ok s
    | call :: calls => { s with calls }.run call framed

/-- **A device in LOAD mode.** -/
def loadDevice : Machine LoadDevice LoadInput PacketFault where
  enabled _ _ := True
  step := LoadDevice.step

instance (s : LoadDevice) (i : LoadInput) : Decidable (loadDevice.enabled s i) :=
  inferInstanceAs (Decidable True)

/-! ## The record of the packets -/

/-- A packet that was given to `SendLoad`, with its headers: whether its route discovery has
completed, and its transmissions, each with the next hop that was then recorded for `dest`. -/
structure Given where
  dest : MeshAddress
  octets : List Octet
  replied : Bool := false
  sent : List (Transmission × Option MeshAddress) := []
  deriving DecidableEq

/-- The originator of a route reply for the device. -/
def replyFrom (d : NetDevice) (packet : List Octet) : Option MeshAddress :=
  match parseHeaders d packet with
  | .ok p =>
    if p.hello.isNone ∧ p.hasMesh ∧ ¬ d.dataFlooding ∧ ¬ d.greedyRouting ∧ ¬ p.hasRREQ ∧ p.hasRREP
      ∧ d.own.toOption = some p.mesh.finalDst then some p.mesh.originator
    else none
  | .error _ => none

namespace Given

/-- A route reply from `originator` completes the discovery. -/
def reply (originator : MeshAddress) (g : Given) : Given :=
  { g with replied := g.replied || g.dest == originator }

/-- The packet is transmitted in a step of the device. -/
def transmit (s t : LoadDevice) (g : Given) : Given :=
  { g with sent := g.sent ++
      (t.sent.drop s.sent.length).map fun x => (x, s.device.loadTable g.dest) }

end Given

/-- `LoadPacket` holds the last packet that was given. -/
def recordLoad (b : List Given) (s : LoadDevice) (i : LoadInput) (t : LoadDevice) : List Given :=
  match i with
  | .sendLoad _ dest =>
    match meshAddress dest with
    | .ok dest => b ++ [{ dest, octets := t.loadPacket }]
    | .error _ => b
  | .receive packet _ _ =>
    match replyFrom s.device packet with
    | some originator => b.map (Given.reply originator)
    | none => b
  | .run _ =>
    if s.calls.head? = some .doSendLoad then
      b.dropLast ++ b.getLast?.toList.map (Given.transmit s t)
    else b

/-- **Pending data is neither lost nor misdelivered.** -/
structure WellServed (b : List Given) (s : LoadDevice) : Prop where
  /-- A packet that has not been sent is the last one given, and not overwritten. -/
  kept : ∀ i, ∀ g ∈ b[i]?, g.sent = [] → i + 1 = b.length ∧ s.loadPacket = g.octets
  once : ∀ g ∈ b, g.sent.length ≤ 1
  /-- It is not sent on the reply of another destination. -/
  ownReply : ∀ g ∈ b, g.sent ≠ [] → g.replied = true
  /-- It is sent as it was given, to the next hop that is recorded for its destination. -/
  ownHop : ∀ g ∈ b, ∀ x ∈ g.sent,
    x.1.packet = g.octets ∧ x.2 = some x.1.nextHop ∧ x.1.nextHop ≠ .empty
  /-- Once its discovery has completed it is sent, at the latest by the calls still to run. -/
  completed : ∀ g ∈ b, g.replied = true → g.sent ≠ [] ∨ .doSendLoad ∈ s.calls

/-- A packet is given only when none waits, and a route reply comes only from the destination of
the packet that waits, and only once. -/
def OneDiscovery (c : List Given × LoadDevice) : LoadInput → Prop
  | .sendLoad _ _ => ∀ g ∈ c.1, g.sent ≠ []
  | .receive packet _ _ => ∀ originator ∈ replyFrom c.2.device packet,
      ∃ g ∈ c.1, g.sent = [] ∧ g.replied = false ∧ g.dest = originator
  | .run _ => True

instance (c : List Given × LoadDevice) (i : LoadInput) : Decidable (OneDiscovery c i) := by
  unfold OneDiscovery
  cases i <;> infer_instance

/-! ## Receiving a frame -/

/-- What a frame leaves: every destination that was known still is, no next hop is unset, and
`DoSendLoad` is scheduled exactly for a route reply, whose originator is known then. -/
structure Heard (reply : Option MeshAddress) (d d' : NetDevice) (effects : List Effect) :
    Prop where
  known : ∀ a, (d.loadTable a).isSome → (d'.loadTable a).isSome
  hops : (∀ a, d.loadTable a ≠ some .empty) → ∀ a, d'.loadTable a ≠ some .empty
  count : effects.count .doSendLoad = if reply.isSome then 1 else 0
  learnt : ∀ originator ∈ reply, (d'.loadTable originator).isSome

namespace Heard

variable {reply : Option MeshAddress} {d d' : NetDevice} {effects : List Effect}

/-- The table is the same, and there was no reply. -/
theorem of_eq (htable : d'.loadTable = d.loadTable) (hcount : effects.count .doSendLoad = 0) :
    Heard none d d' effects := by
  refine ⟨?_, ?_, hcount, ?_⟩
  · rw [htable]
    exact fun _ h => h
  · rw [htable]
    exact fun h => h
  · rintro originator ⟨⟩

/-- An entry is written. -/
theorem of_learn {originator nextAddr : MeshAddress} (hnext : nextAddr ≠ .empty)
    (htable : d'.loadTable = (d.learn originator nextAddr).loadTable)
    (hcount : effects.count .doSendLoad = if reply.isSome then 1 else 0)
    (hreply : ∀ a ∈ reply, a = originator) : Heard reply d d' effects := by
  refine ⟨fun a ha => ?_, fun hhops a => ?_, hcount, fun a ha => ?_⟩
  · rw [htable]
    unfold learn
    dsimp only
    split
    · rfl
    · exact ha
  · rw [htable]
    unfold learn
    dsimp only
    split
    · intro h
      exact hnext (Option.some.inj h)
    · exact hhops a
  · rw [htable, hreply a ha]
    unfold learn
    simp

/-- More effects that are handed up. -/
theorem append (h : Heard reply d d' effects) {up : List Effect} (hup : up.count .doSendLoad = 0) :
    Heard reply d d' (effects ++ up) := by
  refine ⟨h.known, h.hops, ?_, h.learnt⟩
  rw [count_append, hup, h.count, Nat.add_zero]

end Heard

variable {d : NetDevice} {src dst : MacAddress} {p : Parsed}

/-- A next hop that is learnt is set. -/
theorem get16MacFrom48Mac_ne_empty {a : MacAddress} {b : MeshAddress}
    (h : get16MacFrom48Mac a = .ok b) : b ≠ .empty := by
  cases a with
  | mac48 =>
    cases h
    rintro ⟨⟩
  | mac8 => cases h
  | mac16 => cases h
  | mac64 => cases h

/-- Only packets are handed up. -/
theorem post_handUp_count : Post (d.handUp p src dst) fun up => up.count .doSendLoad = 0 := by
  unfold handUp
  split
  · exact post_bind fun _ _ => rfl
  · split
    · rfl
    · exact post_bind fun _ _ => rfl
  · rfl

theorem post_receiveFlooding_heard :
    Post (d.receiveFlooding p) fun b => Heard none d b.device b.effects := by
  refine flooded_receiveFlooding.imp fun b hb => ?_
  cases hb with
  | seen => exact .of_eq rfl rfl
  | dropped => exact .of_eq rfl rfl
  | forwarded => exact .of_eq rfl rfl
  | arrived => exact .of_eq rfl rfl

theorem heard_of_relayed {finalDst : MeshAddress} {hopsLeft : Octet} {f : Forwarding} {b : Branch}
    (h : d.Relayed finalDst hopsLeft f b) : Heard none d b.device b.effects := by
  cases h with
  | arrived => exact .of_eq rfl rfl
  | dropped => exact .of_eq rfl rfl
  | forwarded => exact .of_eq rfl rfl

/-- Both the relays and the destination of a request learn the way to its originator. -/
theorem post_receiveRREQ_heard :
    Post (d.receiveRREQ src p) fun b => Heard none d b.device b.effects := by
  refine requested_receiveRREQ.imp fun b hb => ?_
  cases hb with
  | seen => exact .of_eq rfl rfl
  | dropped => exact .of_eq rfl rfl
  | forwarded _ _ hnext =>
    exact .of_learn (get16MacFrom48Mac_ne_empty hnext) rfl rfl (by rintro a ⟨⟩)
  | replied _ _ hnext =>
    exact .of_learn (get16MacFrom48Mac_ne_empty hnext) rfl rfl (by rintro a ⟨⟩)

/-- A reply makes `DoSendLoad` run if it is for the device. -/
theorem post_receiveRREP_heard : Post (d.receiveRREP src p) fun b =>
      Heard (if d.own.toOption = some p.mesh.finalDst then some p.mesh.originator else none)
        d b.device b.effects := by
  refine replied_receiveRREP.imp fun b hb => ?_
  have hiff : d.own.toOption = some p.mesh.finalDst ↔ d.own = .ok p.mesh.finalDst := by
    cases d.own with
    | ok own =>
      constructor
      · intro h
        rw [Option.some.inj h]
      · intro h
        rw [Except.ok.inj h]
        rfl
    | error e =>
      constructor
      · intro h
        cases h
      · intro h
        cases h
  cases hb with
  | dropped hother =>
    rw [if_neg fun h => hother (hiff.mp h)]
    exact .of_eq rfl rfl
  | forwarded hother _ hnext =>
    rw [if_neg fun h => hother (hiff.mp h)]
    exact .of_learn (get16MacFrom48Mac_ne_empty hnext) rfl rfl (by rintro a ⟨⟩)
  | arrived hown _ hnext =>
    rw [if_pos (hiff.mpr hown)]
    refine .of_learn (get16MacFrom48Mac_ne_empty hnext) rfl rfl ?_
    rintro a ⟨⟩
    rfl

/-- The branch of a mesh mode, and the reply that it takes. -/
theorem post_receiveMesh_heard : Post (d.receiveMesh src p) fun b =>
      Heard (if ¬ d.dataFlooding ∧ ¬ d.greedyRouting ∧ ¬ p.hasRREQ ∧ p.hasRREP
          ∧ d.own.toOption = some p.mesh.finalDst then some p.mesh.originator else none)
        d b.device b.effects := by
  unfold receiveMesh
  by_cases hflooding : d.dataFlooding = true
  · rw [if_pos hflooding, if_neg fun h => h.1 hflooding]
    exact post_receiveFlooding_heard
  rw [if_neg hflooding]
  by_cases hgreedy : d.greedyRouting = true
  · rw [if_pos hgreedy, if_neg fun h => h.2.1 hgreedy]
    exact relayed_receiveGreedy.imp fun b hb => heard_of_relayed hb
  rw [if_neg hgreedy]
  by_cases hrreq : p.hasRREQ = true
  · rw [if_pos hrreq, if_neg fun h => h.2.2.1 hrreq]
    exact post_receiveRREQ_heard
  rw [if_neg hrreq]
  by_cases hrrep : p.hasRREP = true
  · simp only [hflooding, hgreedy, hrreq, hrrep, Bool.false_eq_true, not_false_eq_true, true_and,
      if_true]
    exact post_receiveRREP_heard
  simp only [hrrep, Bool.false_eq_true, false_and, and_false, if_false]
  split
  · exact relayed_receiveLoad.imp fun b hb => heard_of_relayed hb
  · split
    · refine .of_eq rfl ?_
      unfold receiveDirect
      dsimp only
      split
      · rfl
      · rfl
    · exact .of_eq rfl rfl

/-- **What a frame leaves.**  `DoSendLoad` is scheduled once for a route reply for the device,
and its originator is known then. -/
theorem post_receiveFromDevice_heard (packet : List Octet) :
    Post (receiveFromDevice d packet src dst) fun r =>
      Heard (replyFrom d packet) d r.1 r.2 := by
  cases hparse : parseHeaders d packet with
  | error e =>
    unfold receiveFromDevice
    rw [hparse]
    trivial
  | ok p =>
    unfold replyFrom
    rw [hparse]
    dsimp only
    cases hhello : p.hello with
    | some hello =>
      rw [receiveFromDevice_of_hello hparse hhello, if_neg fun h => Bool.noConfusion h.1]
      exact .of_eq rfl rfl
    | none =>
      cases hmesh : p.hasMesh with
      | false =>
        rw [receiveFromDevice_of_not_mesh hparse hhello hmesh, if_neg fun h => Bool.noConfusion h.2.1]
        exact post_handUp_count.bind fun up hup => .of_eq rfl hup
      | true =>
        rw [receiveFromDevice_of_mesh hparse hhello hmesh]
        refine post_receiveMesh_heard.bind fun b hb => ?_
        simp only [Option.isNone_none, true_and]
        split
        · exact post_handUp_count.bind fun up hup => hb.append hup
        · exact hb

/-! ## The invariant -/

/-- The packet has been sent as it should. -/
structure Given.Done (g : Given) : Prop where
  replied : g.replied = true
  sent : ∃ x, g.sent = [x] ∧ x.1.packet = g.octets ∧ x.2 = some x.1.nextHop ∧
    x.1.nextHop ≠ .empty

namespace Given.Done

variable {g : Given}

theorem ne_nil (h : g.Done) : g.sent ≠ [] := by
  obtain ⟨x, hx, -⟩ := h.sent
  rw [hx]
  exact cons_ne_nil _ _

theorem once (h : g.Done) : g.sent.length ≤ 1 := by
  obtain ⟨x, hx, -⟩ := h.sent
  rw [hx]
  exact le_rfl

theorem ownHop (h : g.Done) : ∀ x ∈ g.sent,
    x.1.packet = g.octets ∧ x.2 = some x.1.nextHop ∧ x.1.nextHop ≠ .empty := by
  intro x hx
  obtain ⟨y, hy, hright⟩ := h.sent
  rw [hy, mem_singleton] at hx
  rw [hx]
  exact hright

/-- A reply that comes later changes nothing. -/
theorem reply (h : g.Done) (originator : MeshAddress) : (g.reply originator).Done := by
  refine ⟨?_, h.sent⟩
  unfold Given.reply
  rw [h.replied]
  rfl

end Given.Done

/-- The packet waits in `LoadPacket`, and `DoSendLoad` is scheduled once if its discovery has
completed; the way to its destination is known then. -/
structure Given.Waits (g : Given) (s : LoadDevice) : Prop where
  sent : g.sent = []
  loadPacket : s.loadPacket = g.octets
  header : ∃ mesh rest, SixLowPanMesh.deserialize g.octets = .ok (mesh, rest) ∧
    mesh.finalDst = g.dest
  calls : s.calls.count .doSendLoad = if g.replied then 1 else 0
  known : g.replied = true → (s.device.loadTable g.dest).isSome

/-- Every packet has been sent, or the last one waits. -/
inductive Queue : List Given → LoadDevice → Prop
  | idle (b : List Given) (s : LoadDevice) (hdone : ∀ g ∈ b, g.Done)
    (hcalls : s.calls.count .doSendLoad = 0) : Queue b s
  | waiting (b : List Given) (g : Given) (s : LoadDevice) (hdone : ∀ g ∈ b, g.Done)
    (hwaits : g.Waits s) : Queue (b ++ [g]) s

/-- The invariant. -/
structure PendingInv (b : List Given) (s : LoadDevice) : Prop where
  queue : Queue b s
  hops : ∀ a, s.device.loadTable a ≠ some .empty

variable {b : List Given} {s t : LoadDevice}

/-- The invariant says what is wanted. -/
theorem PendingInv.wellServed (h : PendingInv b s) : WellServed b s := by
  obtain ⟨hqueue, -⟩ := h
  induction hqueue with
  | idle b s hdone hcalls =>
    exact ⟨fun i g hg hsent => absurd hsent (hdone g (mem_of_getElem? hg)).ne_nil,
      fun g hg => (hdone g hg).once, fun g hg _ => (hdone g hg).replied,
      fun g hg => (hdone g hg).ownHop, fun g hg _ => Or.inl (hdone g hg).ne_nil⟩
  | waiting b g s hdone hwaits =>
    -- the others have been sent, and `g` waits at the end of the list
    have hlast (i : ℕ) (g' : Given) (hg' : g' ∈ (b ++ [g])[i]?) :
        g'.Done ∨ i = b.length ∧ g' = g := by
      rcases Nat.lt_or_ge i b.length with hlt | hge
      · rw [List.getElem?_append_left hlt] at hg'
        exact Or.inl (hdone g' (mem_of_getElem? hg'))
      · rw [List.getElem?_append_right hge] at hg'
        rw [Option.mem_def, List.getElem?_singleton] at hg'
        split at hg'
        · exact Or.inr ⟨by omega, (Option.some.inj hg').symm⟩
        · cases hg'
    have hmem (g' : Given) (hg' : g' ∈ b ++ [g]) : g'.Done ∨ g' = g := by
      obtain ⟨i, hi⟩ := mem_iff_getElem?.mp hg'
      exact (hlast i g' hi).imp id And.right
    refine ⟨fun i g' hg' hsent => ?_, fun g' hg' => ?_, fun g' hg' hsent => ?_,
      fun g' hg' x hx => ?_, fun g' hg' hreplied => ?_⟩
    · rcases hlast i g' hg' with hd | ⟨rfl, rfl⟩
      · exact absurd hsent hd.ne_nil
      · refine ⟨?_, hwaits.loadPacket⟩
        rw [length_append, length_singleton]
    · rcases hmem g' hg' with hd | rfl
      · exact hd.once
      · rw [hwaits.sent]
        exact Nat.zero_le _
    · rcases hmem g' hg' with hd | rfl
      · exact hd.replied
      · exact absurd hwaits.sent hsent
    · rcases hmem g' hg' with hd | rfl
      · exact hd.ownHop x hx
      · rw [hwaits.sent] at hx
        cases hx
    · rcases hmem g' hg' with hd | rfl
      · exact Or.inl hd.ne_nil
      · refine Or.inr (count_pos_iff.mp ?_)
        rw [hwaits.calls, hreplied]
        exact Nat.zero_lt_one

/-- A step that leaves the waiting packet and its call alone. -/
theorem Queue.of_eq (h : Queue b s) (hpacket : t.loadPacket = s.loadPacket)
    (hcalls : t.calls.count .doSendLoad = s.calls.count .doSendLoad)
    (hknown : ∀ a, (s.device.loadTable a).isSome → (t.device.loadTable a).isSome) :
    Queue b t := by
  cases h with
  | idle b s hdone hzero => exact .idle b t hdone (hcalls.trans hzero)
  | waiting b g s hdone hwaits =>
    exact .waiting b g t hdone ⟨hwaits.sent, hpacket.trans hwaits.loadPacket, hwaits.header,
      hcalls.trans hwaits.calls, fun hreplied => hknown _ (hwaits.known hreplied)⟩

/-! ### What is recorded -/

theorem recordLoad_sendLoad {packet : List Octet} {dest : MacAddress} {finalDst : MeshAddress}
    (h : meshAddress dest = .ok finalDst) :
    recordLoad b s (.sendLoad packet dest) t
      = b ++ [{ dest := finalDst, octets := t.loadPacket }] := by
  unfold recordLoad
  dsimp only
  rw [h]

theorem recordLoad_of_reply {packet : List Octet} {src dst : MacAddress} {originator : MeshAddress}
    (h : replyFrom s.device packet = some originator) :
    recordLoad b s (.receive packet src dst) t = b.map (Given.reply originator) := by
  unfold recordLoad
  dsimp only
  rw [h]

theorem recordLoad_of_no_reply {packet : List Octet} {src dst : MacAddress}
    (h : replyFrom s.device packet = none) :
    recordLoad b s (.receive packet src dst) t = b := by
  unfold recordLoad
  dsimp only
  rw [h]

theorem recordLoad_doSendLoad {g : Given} {framed : List Octet} {calls : List ScheduledCall}
    (h : s.calls = .doSendLoad :: calls) :
    recordLoad (b ++ [g]) s (.run framed) t = b ++ [g.transmit s t] := by
  unfold recordLoad
  dsimp only
  have hhead : s.calls.head? = some .doSendLoad := by
    rw [h]
    rfl
  rw [if_pos hhead, dropLast_concat, List.getLast?_concat]
  rfl

theorem recordLoad_run {framed : List Octet} (h : s.calls.head? ≠ some .doSendLoad) :
    recordLoad b s (.run framed) t = b := by
  unfold recordLoad
  exact if_neg h

/-! ### The steps -/

/-- A packet is given when none waits. -/
theorem post_sendLoad (h : PendingInv b s) (hnone : ∀ g ∈ b, g.sent ≠ []) (packet : List Octet)
    (dest : MacAddress) :
    Post (s.sendLoad packet dest) fun t =>
      PendingInv (recordLoad b s (.sendLoad packet dest) t) t := by
  unfold LoadDevice.sendLoad
  refine post_bind fun packet' _ => ?_
  refine post_bind fun originator horiginator => ?_
  refine post_bind fun finalDst hfinal => ?_
  show PendingInv (recordLoad b s _ _) _
  rw [recordLoad_sendLoad hfinal]
  refine ⟨?_, h.hops⟩
  cases h.queue with
  | waiting b g s hdone hwaits =>
    exact absurd hwaits.sent (hnone g (mem_append_right _ (mem_singleton_self g)))
  | idle b s hdone hcalls =>
    have hread := SixLowPanMesh.deserialize_serialize ⟨originator, finalDst, 0xF⟩ packet'
      (isSet_of_meshAddress horiginator) (isSet_of_meshAddress hfinal) (BitVec.le_refl _)
    refine .waiting b _ _ hdone ⟨rfl, rfl, ⟨_, _, hread, rfl⟩, ?_, ?_⟩
    · show (s.calls ++ [ScheduledCall.sendRREQ finalDst]).count .doSendLoad = 0
      rw [count_append, hcalls]
      rfl
    · exact fun hreplied => Bool.noConfusion hreplied

/-- The calls that a frame schedules. -/
theorem count_filterMap_call (effects : List Effect) :
    (effects.filterMap Effect.call).count .doSendLoad = effects.count .doSendLoad := by
  induction effects with
  | nil => rfl
  | cons e effects ih =>
    cases e with
    | doSendLoad =>
      rw [count_cons_self, ← ih]
      exact count_cons_self
    | forward f => simpa [Effect.call] using ih
    | sendRREP dest => simpa [Effect.call] using ih
    | deliver packet =>
      rw [filterMap_cons_none rfl, ih]
      exact (count_cons_of_ne (by simp)).symm

/-- A frame is received; a reply is one for the packet that waits. -/
theorem post_receive_pending (h : PendingInv b s) (packet : List Octet) (src dst : MacAddress)
    (hown : ∀ originator ∈ replyFrom s.device packet,
      ∃ g ∈ b, g.sent = [] ∧ g.replied = false ∧ g.dest = originator) :
    Post (s.receive packet src dst) fun t =>
      PendingInv (recordLoad b s (.receive packet src dst) t) t := by
  unfold LoadDevice.receive
  refine (post_receiveFromDevice_heard packet).bind ?_
  rintro ⟨device, effects⟩ hheard
  have hcount : (({ s with device } : LoadDevice).schedule
      (effects.filterMap Effect.call)).calls.count .doSendLoad
        = s.calls.count .doSendLoad + effects.count .doSendLoad := by
    rw [← count_filterMap_call]
    exact count_append
  show PendingInv (recordLoad b s _ _) _
  refine ⟨?_, hheard.hops h.hops⟩
  cases hreply : replyFrom s.device packet with
  | none =>
    rw [hreply] at hheard
    rw [recordLoad_of_no_reply hreply]
    refine h.queue.of_eq rfl ?_ ?_
    · rw [hcount, hheard.count]
      rfl
    · exact hheard.known
  | some originator =>
    rw [hreply] at hheard
    rw [recordLoad_of_reply hreply]
    obtain ⟨g, hg, hsent, hreplied, hdest⟩ := hown originator hreply
    cases h.queue with
    | idle b s hdone hcalls =>
      rw [(hdone g hg).replied] at hreplied
      cases hreplied
    | waiting b g' s hdone hwaits =>
      have heq : g = g' := by
        rcases mem_append.mp hg with hmem | hmem
        · exact absurd hsent (hdone g hmem).ne_nil
        · exact mem_singleton.mp hmem
      subst heq
      have hreplied' : (g.reply originator).replied = true := by
        unfold Given.reply
        rw [hdest]
        simp
      rw [map_append, map_singleton]
      refine .waiting _ _ _ ?_ ⟨hsent, hwaits.loadPacket, hwaits.header, ?_, fun _ => ?_⟩
      · intro g'' hg''
        obtain ⟨g₀, hg₀, rfl⟩ := mem_map.mp hg''
        exact (hdone g₀ hg₀).reply originator
      · rw [hcount, hwaits.calls, hheard.count, hreplied, hreplied']
        rfl
      · show (device.loadTable g.dest).isSome
        rw [hdest]
        exact hheard.learnt originator rfl

/-- A call that is not `DoSendLoad` leaves the members alone that it works on. -/
theorem post_run_other (call : ScheduledCall) (framed : List Octet) (hcall : call ≠ .doSendLoad) :
    Post (s.run call framed) fun t =>
      t.loadPacket = s.loadPacket ∧ t.calls = s.calls ∧ t.device = s.device := by
  cases call with
  | doSendLoad => exact absurd rfl hcall
  | sendRREQ dest => exact post_bind fun _ _ => ⟨rfl, rfl, rfl⟩
  | sendRREP dest => exact post_bind fun _ _ => ⟨rfl, rfl, rfl⟩
  | forward f =>
    cases f with
    | broadcast packet => exact ⟨rfl, rfl, rfl⟩
    | doSendGreedyForwarding packet dest => exact ⟨rfl, rfl, rfl⟩
    | doSendRREQ packet => exact ⟨rfl, rfl, rfl⟩
    | doSendRREP packet => exact post_bind fun _ _ => ⟨rfl, rfl, rfl⟩
    | doSendLoadForwarding packet =>
      exact post_bind fun _ _ => ⟨rfl, rfl, rfl⟩

/-- `DoSendLoad` runs for the packet that waits. -/
theorem post_doSendLoad (h : PendingInv b s) {calls : List ScheduledCall}
    (hcalls : s.calls = .doSendLoad :: calls) (framed : List Octet) :
    Post (({ s with calls } : LoadDevice).doSendLoad framed) fun t =>
      PendingInv (recordLoad b s (.run framed) t) t := by
  have hpos : s.calls.count .doSendLoad = calls.count .doSendLoad + 1 := by
    rw [hcalls, count_cons_self]
  cases h.queue with
  | idle b s hdone hzero => omega
  | waiting b g s hdone hwaits =>
    have hreplied : g.replied = true := by
      by_contra hnot
      have hzero := hwaits.calls
      rw [if_neg hnot] at hzero
      omega
    have hrest : calls.count .doSendLoad = 0 := by
      have hone := hwaits.calls
      rw [if_pos hreplied] at hone
      omega
    obtain ⟨mesh, rest, hheader, hfinal⟩ := hwaits.header
    obtain ⟨nextHop, hnext⟩ := Option.isSome_iff_exists.mp (hwaits.known hreplied)
    have hsend : ({ s with calls } : LoadDevice).sendAlong s.loadPacket
        = .ok (({ s with calls } : LoadDevice).send s.loadPacket nextHop) := by
      unfold LoadDevice.sendAlong LoadDevice.nextAddress
      rw [hwaits.loadPacket, hheader]
      show Except.ok (LoadDevice.send _ ((s.device.loadTable mesh.finalDst).getD .empty) _) = _
      rw [hfinal, hnext]
      rfl
    unfold LoadDevice.doSendLoad
    apply wp_of_bind
    rw [hsend]
    show PendingInv (recordLoad _ s _ _) _
    rw [recordLoad_doSendLoad hcalls]
    refine ⟨?_, h.hops⟩
    refine .idle _ _ (fun g' hg' => ?_) hrest
    rcases mem_append.mp hg' with hmem | hmem
    · exact hdone g' hmem
    · rw [mem_singleton.mp hmem]
      refine ⟨hreplied, (⟨s.loadPacket, nextHop⟩, some nextHop), ?_, hwaits.loadPacket, rfl, ?_⟩
      · show g.sent ++ ((s.sent ++ [(⟨s.loadPacket, nextHop⟩ : Transmission)]).drop
          s.sent.length).map (fun x => (x, s.device.loadTable g.dest)) = _
        rw [hwaits.sent, drop_left, hnext]
        rfl
      · intro hempty
        refine h.hops g.dest ?_
        rw [hnext]
        exact congrArg some hempty

/-- **One step.** -/
theorem post_step_pending (h : PendingInv b s) (i : LoadInput) (hone : OneDiscovery (b, s) i) :
    Post (s.step i) fun t => PendingInv (recordLoad b s i t) t := by
  cases i with
  | sendLoad packet dest => exact post_sendLoad h hone packet dest
  | receive packet src dst => exact post_receive_pending h packet src dst hone
  | run framed =>
    unfold LoadDevice.step
    dsimp only
    cases hcalls : s.calls with
    | nil =>
      show PendingInv (recordLoad b s _ s) s
      rw [recordLoad_run (by rw [hcalls]; rintro ⟨⟩)]
      exact h
    | cons call calls =>
      by_cases hcall : call = .doSendLoad
      · subst hcall
        exact post_doSendLoad h hcalls framed
      · refine (post_run_other call framed hcall).imp fun t ht => ?_
        obtain ⟨hpacket, hrest, hdevice⟩ := ht
        have hhead : s.calls.head? ≠ some .doSendLoad := by
          rw [hcalls]
          exact fun heq => hcall (Option.some.inj heq)
        rw [recordLoad_run hhead]
        refine ⟨h.queue.of_eq hpacket ?_ ?_, ?_⟩
        · rw [hrest, hcalls, count_cons_of_ne hcall]
        · rw [hdevice]
          exact fun a ha => ha
        · rw [hdevice]
          exact h.hops

/-! ## Whole runs -/

/-- **Pending data is neither lost nor misdelivered, one discovery at a time.**  In a run from a
new device in which a packet is given only when none waits, and a route reply comes only from
the destination of the packet that waits, and only once, every packet is kept until its own
discovery has completed, and is then sent once, to the next hop of its destination. -/
theorem wellServed_of_run (s t : LoadDevice) (b : List Given) (is : List LoadInput)
    (htable : ∀ a, s.device.loadTable a = none) (hcalls : s.calls = [])
    (hrun : (loadDevice.recording recordLoad).Run OneDiscovery ([], s) is (b, t)) :
    WellServed b t := by
  have hinv : PendingInv b t := by
    refine hrun.recorded PendingInv (fun b s i h _ hone => post_step_pending h i hone) ⟨?_, ?_⟩
    · refine .idle [] s (fun g hg => ?_) ?_
      · cases hg
      · rw [hcalls]
        rfl
    · intro a h
      rw [htable a] at h
      cases h
  exact hinv.wellServed

/-- A new device in LOAD mode with the short address `00:01`. -/
def newLoadDevice : LoadDevice where
  device := {
    useHC1 := false
    dataFlooding := false
    greedyRouting := false
    loadRouting := true
    direct := false
    address := .mac48 0 0 0 0 0 1 }
  meshUnder := true

/-- A route reply to the device, as the device below hands it up. -/
def routeReply (originator : Octet) : LoadInput :=
  .receive (({ originator := .short 0 originator, finalDst := .short 0 1, hopsLeft := 0xE } :
      SixLowPanMesh).serialize ++ serializeRREP)
    (.mac48 0 0 0 0 0 9) (.mac48 0 0 0 0 0 1)

/-- Two packets are given to it, one after the other, each with its own reply. -/
theorem wellServed_of_run_two :
    ∃ b t is, (loadDevice.recording recordLoad).Run OneDiscovery ([], newLoadDevice) is (b, t) ∧
      b.length = 2 ∧ WellServed b t := by
  obtain ⟨⟨b, t⟩, hrun, hb⟩ := Machine.exists_run_of_exec (m := loadDevice.recording recordLoad)
    (fun c i => decide (OneDiscovery c i)) (fun c => c.1.length == 2) ([], newLoadDevice)
    [.sendLoad [7] (.mac48 0 0 0 0 0 2), .run [], routeReply 2, .run [0x61, 0x88],
      .sendLoad [8] (.mac48 0 0 0 0 0 3), .run [], routeReply 3, .run [0x61, 0x88]]
    (by decide +kernel)
  have hrun' := hrun.mono (D := OneDiscovery) fun c i h => of_decide_eq_true h
  exact ⟨b, t, _, hrun', by simpa using hb,
    wellServed_of_run newLoadDevice t b _ (fun _ => rfl) rfl hrun'⟩

/-- The second packet is given while the first one waits.  The reply of the first destination
sends the second packet, without a next hop. -/
theorem not_wellServed : ¬ ∀ (s t : LoadDevice) (b : List Given) (is : List LoadInput),
      (∀ a, s.device.loadTable a = none) → s.calls = [] →
      (loadDevice.recording recordLoad).Run (fun _ _ => True) ([], s) is (b, t) →
      WellServed b t := by
  intro hall
  obtain ⟨⟨b, t⟩, hrun, hb⟩ := Machine.exists_run_of_exec (m := loadDevice.recording recordLoad)
    (fun _ _ => true)
    (fun c => c.1.map (fun g => (g.replied, g.sent.map fun x => x.1.nextHop))
      == [(true, []), (false, [.empty])] && c.2.calls == []) ([], newLoadDevice)
    [.sendLoad [7] (.mac48 0 0 0 0 0 2), .run [], .sendLoad [8] (.mac48 0 0 0 0 0 3), .run [],
      routeReply 2, .run [0x61, 0x88]]
    (by decide +kernel)
  have hserved := hall _ t b _ (fun _ => rfl) rfl (hrun.mono fun _ _ _ => trivial)
  simp only [Bool.and_eq_true, beq_iff_eq] at hb
  obtain ⟨hb, hcalls⟩ := hb
  cases b with
  | nil => cases hb
  | cons g b =>
    rw [map_cons, List.cons.injEq, Prod.mk.injEq] at hb
    -- the discovery of the first packet has completed, and nothing is left to send it
    rcases hserved.completed g mem_cons_self hb.1.1 with h | h
    · exact h (map_eq_nil_iff.mp hb.1.2)
    · rw [hcalls] at h
      cases h

end Ns3Dsme.SixLowPan
