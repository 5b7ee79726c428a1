/-
# Controlled flooding

A network of devices in flooding mode: the originator broadcasts a packet with a sequence number,
and every node that has not seen the number lately broadcasts the packet again.  A node remembers
the last numbers it has seen of each originator.  A packet is suppressed as long as no more than
that many packets of its originator are in flight together with it.
-/
import Ns3Dsme.Lib.Machine
import Ns3Dsme.Lib.RecentCache
import Ns3Dsme.SixLowPan.NetDevice
import Mathlib.Data.List.Dedup
import Mathlib.Data.List.Nodup
import Mathlib.Data.List.Perm.Subperm

open List Program

namespace Ns3Dsme.SixLowPan

/-! ## The network -/

/-- A short address names a node. -/
abbrev ShortAddress := Octet × Octet

/-- The address in a mesh header that stands for a node. -/
abbrev MeshAddress.of (v : ShortAddress) : MeshAddress := .short v.1 v.2

/-- A device, and the members that `DoSend` uses besides. -/
structure FloodNode where
  device : NetDevice
  bc0Serial : Octet := 0
  /-- The MTU of the device below. -/
  mtu : ℕ

/-- A broadcast frame on the air.  `id` and `hops` are ghosts: the packet it is a copy of, and
how often the packet has been broadcast on its way. -/
structure FloodFrame where
  sender : ShortAddress
  packet : List Octet
  id : ℕ
  hops : ℕ
  deriving DecidableEq

/-- A packet that was originated.  `together` are the packets of its originator that have been in
flight while it was. -/
structure FloodPacket where
  originator : ShortAddress
  finalDst : MeshAddress
  seqNumber : Octet
  together : List ℕ

/-- The nodes and the frames on the air.  The others are ghosts: the packets by number, and which
node has broadcast again and which has handed up which packet. -/
structure FloodNetwork where
  node : ShortAddress → FloodNode
  frames : List FloodFrame := []
  packet : ℕ → FloodPacket := fun _ => ⟨(0, 0), .empty, 0, []⟩
  nextId : ℕ := 0
  forwarded : List (ShortAddress × ℕ) := []
  handedUp : List (ShortAddress × ℕ) := []

namespace FloodNetwork

/-- A copy of the packet is on the air. -/
def Flies (net : FloodNetwork) (id : ℕ) : Prop := ∃ f ∈ net.frames, f.id = id

instance (net : FloodNetwork) (id : ℕ) : Decidable (net.Flies id) :=
  inferInstanceAs (Decidable (∃ f ∈ net.frames, f.id = id))

/-- The packets of an originator that are in flight. -/
def inFlight (net : FloodNetwork) (v : ShortAddress) : List ℕ :=
  (List.range net.nextId).filter fun id => (net.packet id).originator = v ∧ net.Flies id

/-- A packet of `v` is broadcast for the first time. -/
def originate (v : ShortAddress) (finalDst : MeshAddress) (packet : List Octet)
    (net : FloodNetwork) : FloodNetwork :=
  let n := net.node v
  let now := net.inFlight v
  { net with
    node := fun w => if w = v then { n with bc0Serial := n.bc0Serial + 1 } else net.node w
    frames := net.frames ++ [⟨v, packet, net.nextId, 1⟩]
    packet := fun id =>
      if id = net.nextId then ⟨v, finalDst, n.bc0Serial, now⟩
      else if id ∈ now then
        { net.packet id with together := (net.packet id).together ++ [net.nextId] }
      else net.packet id
    nextId := net.nextId + 1 }

/-- `DoSend` in flooding mode.  The size of the packet is cut to 16 bits. -/
def doSend (v : ShortAddress) (packet : List Octet) (dest : MacAddress) (net : FloodNetwork) :
    Except PacketFault FloodNetwork := do
  let n := net.node v
  let packet ← n.device.compress packet dest
  let originator ← meshAddress n.device.address
  let finalDst ← meshAddress dest
  if packet.length % 2 ^ 16 > n.mtu then return net
  else
    let mesh : SixLowPanMesh := { originator, finalDst, hopsLeft := 0xF }
    return net.originate v finalDst (mesh.serialize ++ (serializeBc0 n.bc0Serial ++ packet))

end FloodNetwork

/-- The copies that a node broadcasts of a frame. -/
def FloodFrame.relays (f : FloodFrame) (v : ShortAddress) (effects : List Effect) :
    List FloodFrame :=
  effects.filterMap fun
    | .forward (.broadcast packet) => some ⟨v, packet, f.id, f.hops + 1⟩
    | _ => none

/-- The node has handed a frame up. -/
def FloodFrame.handings (f : FloodFrame) (v : ShortAddress) (effects : List Effect) :
    List (ShortAddress × ℕ) :=
  effects.filterMap fun
    | .deliver _ => some (v, f.id)
    | _ => none

namespace FloodNetwork

/-- What a frame has caused at a node. -/
def heard (v : ShortAddress) (f : FloodFrame) (device : NetDevice) (effects : List Effect)
    (net : FloodNetwork) : FloodNetwork :=
  { net with
    node := fun w => if w = v then { net.node v with device } else net.node w
    frames := net.frames ++ f.relays v effects
    forwarded := net.forwarded ++ (f.relays v effects).map fun g => (v, g.id)
    handedUp := net.handedUp ++ f.handings v effects }

/-- `ReceiveFromDevice` at a node. -/
def deliver (v : ShortAddress) (f : FloodFrame) (src dst : MacAddress) (net : FloodNetwork) :
    Except PacketFault FloodNetwork := do
  let (device, effects) ← receiveFromDevice (net.node v).device f.packet src dst
  return net.heard v f device effects

end FloodNetwork

/-- What happens in a network. -/
inductive FloodAction
  | doSend (v : ShortAddress) (packet : List Octet) (dest : MacAddress)
  /-- Node `v` hears frame number `i`; it may hear it again later. -/
  | deliver (i : ℕ) (v : ShortAddress) (src dst : MacAddress)
  /-- Frame number `i` is heard by nobody any more. -/
  | expire (i : ℕ)

/-- Carry out an action. -/
def floodStep (net : FloodNetwork) : FloodAction → Except PacketFault FloodNetwork
  | .doSend v packet dest => net.doSend v packet dest
  | .deliver i v src dst =>
    match net.frames[i]? with
    | some f => net.deliver v f src dst
    | none => .ok net
  | .expire i => .ok { net with frames := net.frames.eraseIdx i }

/-- A frame is heard by the nodes that the topology allows. -/
def floodEnabled (hears : ShortAddress → ShortAddress → Bool) (net : FloodNetwork) :
    FloodAction → Bool
  | .deliver i v _ _ => (net.frames[i]?).any fun f => hears f.sender v
  | _ => true

/-- **A network in flooding mode**, with a topology that says who hears whom. -/
def floodMachine (hears : ShortAddress → ShortAddress → Bool) :
    Machine FloodNetwork FloodAction PacketFault where
  enabled net a := floodEnabled hears net a = true
  step := floodStep

instance (hears : ShortAddress → ShortAddress → Bool) (net : FloodNetwork) (a : FloodAction) :
    Decidable ((floodMachine hears).enabled net a) :=
  inferInstanceAs (Decidable (floodEnabled hears net a = true))

/-! ## What is wanted -/

/-- A network that has sent nothing, whose nodes are in flooding mode, have their own addresses
and remember `length` sequence numbers of each originator. -/
structure FloodNetwork.IsNew (length : ℕ) (net : FloodNetwork) : Prop where
  frames : net.frames = []
  nextId : net.nextId = 0
  forwarded : net.forwarded = []
  handedUp : net.handedUp = []
  flooding : ∀ v, (net.node v).device.dataFlooding = true
  own : ∀ v, (net.node v).device.own = .ok (.of v)
  length : ∀ v, (net.node v).device.meshCacheLength.toNat = length
  seenPkts : ∀ v a, (net.node v).device.seenPkts a = []

/-- At most `length` packets of each originator are in flight. -/
def FewInFlight (length : ℕ) (net : FloodNetwork) (_ : FloodAction) : Prop :=
  ∀ v, (net.inFlight v).length ≤ length

/-- A packet in flight and the packets of its originator that have been in flight together with
it are at most `length`. -/
def FewTogether (length : ℕ) (net : FloodNetwork) (_ : FloodAction) : Prop :=
  ∀ f ∈ net.frames, (net.packet f.id).together.length + 1 ≤ length

instance (length : ℕ) (net : FloodNetwork) (a : FloodAction) :
    Decidable (FewTogether length net a) :=
  inferInstanceAs (Decidable (∀ f ∈ net.frames, (net.packet f.id).together.length + 1 ≤ length))

/-- **Duplicates are suppressed**, and no packet makes more than `hops` hops. -/
structure FloodNetwork.Suppresses (net : FloodNetwork) (hops : ℕ) : Prop where
  /-- A node other than the originator and the destination broadcasts a packet again at most
  once. -/
  relays : ∀ v id, v ≠ (net.packet id).originator → .of v ≠ (net.packet id).finalDst →
    net.forwarded.count (v, id) ≤ 1
  originator : ∀ id, net.forwarded.count ((net.packet id).originator, id) = 0
  destination : ∀ v id, .of v = (net.packet id).finalDst → net.handedUp.count (v, id) ≤ 1
  hops : ∀ f ∈ net.frames, f.hops ≤ hops

/-! ## A device in flooding mode -/

section

variable {d : NetDevice} {mesh : SixLowPanMesh} {src dst : MacAddress}

/-- What a device in flooding mode does with a packet. -/
inductive Flooded (d : NetDevice) (own : MeshAddress) (mesh : SixLowPanMesh) (seqNumber : Octet) :
    NetDevice → List Effect → Prop
  | seen (hseen : d.hasSeen mesh.originator seqNumber = true) :
    Flooded d own mesh seqNumber d []
  | dropped (hseen : d.hasSeen mesh.originator seqNumber = false) :
    Flooded d own mesh seqNumber (d.noteSeen mesh.originator seqNumber) []
  | relayed (hseen : d.hasSeen mesh.originator seqNumber = false)
    (hhops : mesh.hopsLeft ≠ 0) (hforeign : mesh.originator ≠ own) (rest : List Octet) :
    Flooded d own mesh seqNumber (d.noteSeen mesh.originator seqNumber)
      [.forward (.broadcast ({ mesh with hopsLeft := mesh.hopsLeft - 1 }.serialize ++
        (serializeBc0 seqNumber ++ rest)))]
  | arrived (hseen : d.hasSeen mesh.originator seqNumber = false) (up : List Effect)
    (hup : up = [] ∨ ∃ packet, up = [.deliver packet]) :
    Flooded d own mesh seqNumber (d.noteSeen mesh.originator seqNumber) up

/-- The sequence number is read back. -/
theorem takeBc0_serializeBc0 (p : Parsed) (seqNumber : Octet) (rest : List Octet) :
    (p.advance (serializeBc0 seqNumber ++ rest)).takeBc0
      = .ok ({ p with seqNumber, dispatchRaw := 0x50 }.advance rest) := by
  have hdispatch : (p.advance (serializeBc0 seqNumber ++ rest)).dispatch = .bc0 := by
    show getDispatchType 0x50 = .bc0
    decide
  unfold Parsed.takeBc0
  rw [if_pos hdispatch]
  rfl

/-- The headers of a packet that is flooded. -/
theorem post_parseHeaders_flooding (hflooding : d.dataFlooding = true)
    (horiginator : mesh.originator.IsSet) (hfinal : mesh.finalDst.IsSet)
    (hhops : mesh.hopsLeft ≤ 0xF) (seqNumber : Octet) (rest : List Octet) :
    Post (parseHeaders d (mesh.serialize ++ (serializeBc0 seqNumber ++ rest))) fun p =>
      p.hello = none ∧ p.hasMesh = true ∧ p.mesh = mesh ∧ p.seqNumber = seqNumber := by
  obtain ⟨-, -, -, -, hdispatch⟩ :=
    meshOctet_mesh mesh.originator.isShort mesh.finalDst.isShort mesh.hopsLeft
  have hfirst : (({ rest := [] } : Parsed).advance
      (mesh.serialize ++ (serializeBc0 seqNumber ++ rest))).dispatch
        = getDispatchType (meshOctet 0x80 mesh.originator.isShort mesh.finalDst.isShort
            mesh.hopsLeft) := rfl
  rw [← hfirst] at hdispatch
  have hhello : ¬ (({ rest := [] } : Parsed).advance
      (mesh.serialize ++ (serializeBc0 seqNumber ++ rest))).dispatch = .helloM := by
    rintro h
    rw [h] at hdispatch
    rcases hdispatch with h | h
    · cases h
    · cases h
  unfold parseHeaders
  apply wp_of_bind
  unfold Parsed.takeHello
  rw [if_neg hhello]
  apply wp_of_bind
  unfold Parsed.takeMesh
  rw [if_pos hdispatch, if_pos (.inl hflooding)]
  apply wp_of_bind
  have hread : SixLowPanMesh.deserialize (({ rest := [] } : Parsed).advance
      (mesh.serialize ++ (serializeBc0 seqNumber ++ rest))).rest
        = .ok (mesh, serializeBc0 seqNumber ++ rest) :=
    SixLowPanMesh.deserialize_serialize mesh _ horiginator hfinal hhops
  rw [hread]
  -- what follows is the broadcast header
  apply wp_of_bind
  rw [takeBc0_serializeBc0]
  refine (Parsed.post_takeRREQ _).bind fun p₂ h₂ => ?_
  refine (Parsed.post_takeRREP p₂).imp fun p₃ h₃ => ?_
  have hkeeps := h₂.1.trans h₃.1
  exact ⟨hkeeps.hello, hkeeps.hasMesh, hkeeps.mesh, h₃.2.trans h₂.2⟩

/-- At most one packet is handed up. -/
theorem post_handUp_once (p : Parsed) :
    Post (d.handUp p src dst) fun up => up = [] ∨ ∃ packet, up = [.deliver packet] := by
  unfold NetDevice.handUp
  split
  · exact post_bind fun _ _ => .inr ⟨_, rfl⟩
  · split
    · exact .inl rfl
    · exact post_bind fun _ _ => .inr ⟨_, rfl⟩
  · exact .inl rfl

/-- **One device.**  A packet that is flooded is cached before it is sent on or handed up. -/
theorem post_receiveFromDevice_flooding (mesh : SixLowPanMesh) {own : MeshAddress}
    (hflooding : d.dataFlooding = true) (hown : d.own = .ok own) (horiginator : mesh.originator.IsSet) (hfinal : mesh.finalDst.IsSet)
    (hhops : mesh.hopsLeft ≤ 0xF) (seqNumber : Octet) (rest : List Octet) :
    Post (receiveFromDevice d (mesh.serialize ++ (serializeBc0 seqNumber ++ rest)) src dst)
      fun r => Flooded d own mesh seqNumber r.1 r.2 := by
  have hheaders := post_parseHeaders_flooding hflooding horiginator hfinal hhops seqNumber rest
  generalize mesh.serialize ++ (serializeBc0 seqNumber ++ rest) = packet at hheaders
  cases hparse : parseHeaders d packet with
  | error e =>
    unfold receiveFromDevice
    rw [hparse]
    trivial
  | ok p =>
    obtain ⟨hhello, hmesh, rfl, rfl⟩ := hheaders.of_eq_ok hparse
    rw [receiveFromDevice_of_mesh hparse hhello hmesh]
    apply wp_of_bind
    unfold NetDevice.receiveMesh NetDevice.receiveFlooding
    rw [if_pos hflooding]
    dsimp only
    by_cases hseen : d.hasSeen p.mesh.originator p.seqNumber = true
    · rw [if_pos hseen]
      exact .seen hseen
    · rw [if_neg hseen]
      rw [Bool.not_eq_true] at hseen
      apply wp_of_bind
      show Wp d.own _ _
      rw [hown]
      refine (wp_ok _ _ _).mpr ?_
      by_cases hother : p.mesh.finalDst ≠ own
      · rw [if_pos hother]
        split
        · exact .dropped hseen
        · rename_i hgo
          rw [not_or] at hgo
          exact .relayed hseen hgo.1 hgo.2 p.rest
      · rw [if_neg hother]
        show Post (NetDevice.handUp _ p src dst >>= _) _
        exact (post_handUp_once p).bind fun up hup => .arrived hseen up hup

end

/-! ## The invariant -/

section

variable {length : ℕ} {net net' : FloodNetwork} {acc : ShortAddress → ShortAddress → List ℕ}
  {f : FloodFrame}

/-- The frame is a copy of its packet, and has used up a hop for every relay. -/
structure FloodFrame.Carries (net : FloodNetwork) (f : FloodFrame) : Prop where
  id : f.id < net.nextId
  final : (net.packet f.id).finalDst.IsSet
  octets : ∃ hopsLeft : Octet, ∃ rest, hopsLeft.toNat + f.hops = 16 ∧ 1 ≤ f.hops ∧
    f.packet = ({ originator := .of (net.packet f.id).originator
                  finalDst := (net.packet f.id).finalDst
                  hopsLeft } : SixLowPanMesh).serialize ++
      (serializeBc0 (net.packet f.id).seqNumber ++ rest)

/-- Every node does something to a packet once, and only when it accepts it. -/
structure Marks (acc : ShortAddress → ShortAddress → List ℕ) (net : FloodNetwork)
    (marks : List (ShortAddress × ℕ)) : Prop where
  nodup : marks.Nodup
  accepted : ∀ x ∈ marks, x.2 ∈ acc x.1 (net.packet x.2).originator

/-- The invariant.  `acc v o` are the packets of `o` that node `v` has accepted as new, in
order. -/
structure FloodInv (length : ℕ) (acc : ShortAddress → ShortAddress → List ℕ)
    (net : FloodNetwork) : Prop where
  flooding : ∀ v, (net.node v).device.dataFlooding = true
  own : ∀ v, (net.node v).device.own = .ok (.of v)
  cacheLength : ∀ v, (net.node v).device.meshCacheLength.toNat = length
  cache : ∀ v o, (net.node v).device.seenPkts (.of o)
    = ((acc v o).map fun id => (net.packet id).seqNumber).rtake length
  nodup : ∀ v o, (acc v o).Nodup
  accepted : ∀ v o, ∀ id ∈ acc v o, id < net.nextId ∧ (net.packet id).originator = o
  carries : ∀ f ∈ net.frames, f.Carries net
  /-- Packets that are in flight know of each other. -/
  together : ∀ f ∈ net.frames, ∀ g ∈ net.frames, f.id ≠ g.id →
    (net.packet f.id).originator = (net.packet g.id).originator →
      g.id ∈ (net.packet f.id).together
  /-- What a node has accepted behind a packet in flight was in flight together with it. -/
  later : ∀ v o xs id ys, acc v o = xs ++ id :: ys → net.Flies id →
    ys ⊆ (net.packet id).together
  forwarded : Marks acc net net.forwarded
  foreign : ∀ x ∈ net.forwarded, x.1 ≠ (net.packet x.2).originator
  handedUp : Marks acc net net.handedUp

/-- **A packet in flight that a node has accepted is still in its cache.** -/
theorem FloodInv.hasSeen_of_mem (h : FloodInv length acc net) (hf : f ∈ net.frames)
    (hfew : (net.packet f.id).together.length + 1 ≤ length) (v : ShortAddress)
    (hmem : f.id ∈ acc v (net.packet f.id).originator) :
    (net.node v).device.hasSeen (.of (net.packet f.id).originator) (net.packet f.id).seqNumber
      = true := by
  by_contra hnot
  obtain ⟨xs, ys, hsplit⟩ := append_of_mem hmem
  have hnodup := h.nodup v (net.packet f.id).originator
  have hevicted : length ≤ ys.length := by
    apply RecentCache.le_length_of_notMem_rtake (fun id => (net.packet id).seqNumber) length xs
      f.id ys
    rw [← hsplit, ← h.cache]
    intro hcached
    apply hnot
    unfold NetDevice.hasSeen
    exact contains_iff_mem.mpr hcached
  have hlater : ys ⊆ (net.packet f.id).together :=
    h.later v _ xs f.id ys hsplit ⟨f, hf, rfl⟩
  rw [hsplit] at hnodup
  have hys : ys.Nodup := hnodup.sublist
    ((sublist_cons_self _ _).trans (sublist_append_right _ _))
  have hle := (hys.subperm hlater).length_le
  omega

/-! ### A packet is originated -/

/-- The packets that were originated before keep what does not change. -/
theorem originate_packet (v : ShortAddress) (finalDst : MeshAddress) (octets : List Octet) {id : ℕ}
    (hid : id < net.nextId) :
    ((net.originate v finalDst octets).packet id).originator = (net.packet id).originator ∧
      ((net.originate v finalDst octets).packet id).finalDst = (net.packet id).finalDst ∧
      ((net.originate v finalDst octets).packet id).seqNumber = (net.packet id).seqNumber ∧
      (net.packet id).together ⊆ ((net.originate v finalDst octets).packet id).together := by
  unfold FloodNetwork.originate
  dsimp only
  rw [if_neg (Nat.ne_of_lt hid)]
  split
  · exact ⟨rfl, rfl, rfl, subset_append_left _ _⟩
  · exact ⟨rfl, rfl, rfl, List.Subset.refl _⟩

/-- A packet in flight when another of its originator is sent knows of it then. -/
theorem mem_together_originate {v : ShortAddress} (finalDst : MeshAddress) (octets : List Octet)
    {id : ℕ} (hid : id < net.nextId) (hv : (net.packet id).originator = v) (hflies : net.Flies id) :
    net.nextId ∈ ((net.originate v finalDst octets).packet id).together ∧
      id ∈ ((net.originate v finalDst octets).packet net.nextId).together := by
  have hnow : id ∈ net.inFlight v := by
    unfold FloodNetwork.inFlight
    rw [mem_filter]
    exact ⟨mem_range.mpr hid, decide_eq_true ⟨hv, hflies⟩⟩
  unfold FloodNetwork.originate
  dsimp only
  rw [if_neg (Nat.ne_of_lt hid), if_pos hnow, if_pos rfl]
  exact ⟨mem_append_right _ (mem_singleton_self _), hnow⟩

/-- The marks that were made before. -/
theorem Marks.originate {marks : List (ShortAddress × ℕ)} (h : Marks acc net marks)
    (haccepted : ∀ v o, ∀ id ∈ acc v o, id < net.nextId ∧ (net.packet id).originator = o)
    (v : ShortAddress) (finalDst : MeshAddress) (octets : List Octet) :
    Marks acc (net.originate v finalDst octets) marks := by
  refine ⟨h.nodup, fun x hx => ?_⟩
  have hacc := h.accepted x hx
  rw [(originate_packet v finalDst octets (haccepted _ _ _ hacc).1).1]
  exact hacc

theorem FloodInv.originate (h : FloodInv length acc net) (v : ShortAddress) (finalDst : MeshAddress)
    (hfinal : finalDst.IsSet) (payload : List Octet) :
    FloodInv length acc (net.originate v finalDst
      (({ originator := .of v, finalDst, hopsLeft := 0xF } : SixLowPanMesh).serialize ++
        (serializeBc0 (net.node v).bc0Serial ++ payload))) := by
  generalize hoctets : (({ originator := .of v, finalDst, hopsLeft := 0xF } :
    SixLowPanMesh).serialize ++ (serializeBc0 (net.node v).bc0Serial ++ payload)) = octets
  have hold {id : ℕ} (hid : id < net.nextId) := originate_packet v finalDst octets hid
  have hframe : ∀ g ∈ (net.originate v finalDst octets).frames,
      g ∈ net.frames ∨ g = ⟨v, octets, net.nextId, 1⟩ := fun g hg =>
    (mem_append.mp hg).imp id mem_singleton.mp
  have hdevice (w : ShortAddress) :
      ((net.originate v finalDst octets).node w).device = (net.node w).device := by
    unfold FloodNetwork.originate
    dsimp only
    split
    · rename_i hw
      rw [hw]
    · rfl
  have hflies {id : ℕ} (hid : id < net.nextId)
      (hf : (net.originate v finalDst octets).Flies id) : net.Flies id := by
    obtain ⟨g, hg, rfl⟩ := hf
    rcases hframe g hg with hg | rfl
    · exact ⟨g, hg, rfl⟩
    · exact absurd hid (lt_irrefl _)
  refine ⟨?_, ?_, ?_, ?_, h.nodup, ?_, ?_, ?_, ?_, h.forwarded.originate h.accepted v _ _, ?_,
    h.handedUp.originate h.accepted v _ _⟩
  · intro w
    rw [hdevice w]
    exact h.flooding w
  · intro w
    rw [hdevice w]
    exact h.own w
  · intro w
    rw [hdevice w]
    exact h.cacheLength w
  · intro w o
    rw [hdevice w, h.cache w o]
    congr 1
    exact map_congr_left fun id hid => (hold (h.accepted w o id hid).1).2.2.1.symm
  · intro w o id hid
    obtain ⟨hlt, ho⟩ := h.accepted w o id hid
    exact ⟨Nat.lt_succ_of_lt hlt, (hold hlt).1.trans ho⟩
  · intro g hg
    rcases hframe g hg with hg | rfl
    · obtain ⟨hid, hset, hoctets'⟩ := h.carries g hg
      obtain ⟨ho, hd, hs, -⟩ := hold hid
      refine ⟨Nat.lt_succ_of_lt hid, ?_, ?_⟩
      · rw [hd]
        exact hset
      · rw [ho, hd, hs]
        exact hoctets'
    · have hnew : (net.originate v finalDst octets).packet net.nextId
          = ⟨v, finalDst, (net.node v).bc0Serial, net.inFlight v⟩ := if_pos rfl
      refine ⟨Nat.lt_succ_self _, ?_, 0xF, payload, rfl, le_rfl, ?_⟩
      · rw [hnew]
        exact hfinal
      · rw [hnew]
        exact hoctets.symm
  · intro g hg g' hg' hne ho
    rcases hframe g hg with hg | rfl <;> rcases hframe g' hg' with hg' | rfl
    · have hid := (h.carries g hg).id
      have hid' := (h.carries g' hg').id
      rw [(hold hid).1, (hold hid').1] at ho
      exact (hold hid).2.2.2 (h.together g hg g' hg' hne ho)
    · have hid := (h.carries g hg).id
      rw [(hold hid).1] at ho
      exact (mem_together_originate finalDst octets hid (ho.trans (congrArg _ (if_pos rfl)))
        ⟨g, hg, rfl⟩).1
    · have hid := (h.carries g' hg').id
      rw [(hold hid).1] at ho
      exact (mem_together_originate finalDst octets hid (ho.symm.trans (congrArg _ (if_pos rfl)))
        ⟨g', hg', rfl⟩).2
    · exact absurd rfl hne
  · intro w o xs id ys hsplit hf
    have hid : id < net.nextId := by
      refine (h.accepted w o id ?_).1
      rw [hsplit]
      exact mem_append_right _ mem_cons_self
    exact List.Subset.trans (h.later w o xs id ys hsplit (hflies hid hf)) (hold hid).2.2.2
  · intro x hx
    rw [(hold (h.accepted _ _ _ (h.forwarded.accepted x hx)).1).1]
    exact h.foreign x hx

/-! ### A frame is heard -/

/-- Node `v` has accepted one more packet of `o`. -/
def accept (acc : ShortAddress → ShortAddress → List ℕ) (v o : ShortAddress) (id : ℕ) :
    ShortAddress → ShortAddress → List ℕ :=
  fun w a => if w = v ∧ a = o then acc w a ++ [id] else acc w a

theorem accept_self (v o : ShortAddress) (id : ℕ) : accept acc v o id v o = acc v o ++ [id] :=
  if_pos ⟨rfl, rfl⟩

theorem accept_of_ne {v o w a : ShortAddress} (id : ℕ) (h : ¬ (w = v ∧ a = o)) :
    accept acc v o id w a = acc w a := if_neg h

/-- What was accepted stays so. -/
theorem mem_accept {v o w a : ShortAddress} {id id' : ℕ} (h : id' ∈ acc w a) :
    id' ∈ accept acc v o id w a := by
  unfold accept
  split
  · exact mem_append_left _ h
  · exact h

/-- A node marks the packet that it accepts. -/
theorem Marks.accept {marks xs : List (ShortAddress × ℕ)} (h : Marks acc net marks)
    {v : ShortAddress} {id : ℕ} (hnew : id ∉ acc v (net.packet id).originator)
    (hxs : xs = [] ∨ xs = [(v, id)]) :
    Marks (accept acc v (net.packet id).originator id) net (marks ++ xs) := by
  have hold : Marks (SixLowPan.accept acc v (net.packet id).originator id) net marks :=
    ⟨h.nodup, fun x hx => mem_accept (h.accepted x hx)⟩
  rcases hxs with rfl | rfl
  · rw [append_nil]
    exact hold
  · refine ⟨?_, fun x hx => ?_⟩
    · refine List.Nodup.append h.nodup (nodup_singleton _) ?_
      rw [disjoint_singleton]
      exact fun hmem => hnew (h.accepted _ hmem)
    · rcases mem_append.mp hx with hx | hx
      · exact hold.accepted x hx
      · rw [mem_singleton.mp hx]
        dsimp only
        rw [accept_self]
        exact mem_append_right _ (mem_singleton_self _)

/-- The number is stored in the cache of its originator. -/
theorem seenPkts_noteSeen (d : NetDevice) (a b : MeshAddress) (seqNumber : Octet) :
    (d.noteSeen a seqNumber).seenPkts b
      = if b = a then RecentCache.store d.meshCacheLength.toNat (d.seenPkts a) seqNumber
        else d.seenPkts b := rfl

/-- Different nodes have different addresses. -/
theorem MeshAddress.of_inj {v w : ShortAddress} (h : MeshAddress.of v = .of w) : v = w := by
  obtain ⟨a, b⟩ := v
  cases h
  rfl

variable {v o : ShortAddress}

/-- The cache of the node that accepts a packet, and the caches of the others. -/
theorem FloodInv.cache_accept (h : FloodInv length acc net) (ho : (net.packet f.id).originator = o)
    (effects : List Effect) (w a : ShortAddress) :
    ((net.heard v f ((net.node v).device.noteSeen (.of o) (net.packet f.id).seqNumber)
      effects).node w).device.seenPkts (.of a)
        = ((accept acc v o f.id w a).map fun id => (net.packet id).seqNumber).rtake length := by
  show (if w = v then _ else _ : FloodNode).device.seenPkts (.of a) = _
  by_cases hw : w = v
  · subst hw
    rw [if_pos rfl, seenPkts_noteSeen]
    by_cases ha : a = o
    · subst ha
      rw [if_pos rfl, accept_self, h.cacheLength, h.cache, RecentCache.store_rtake,
        map_append]
      rfl
    · rw [if_neg fun heq => ha (MeshAddress.of_inj heq), accept_of_ne _ fun heq => ha heq.2]
      exact h.cache w a
  · rw [if_neg hw, accept_of_ne _ fun heq => hw heq.1]
    exact h.cache w a

theorem FloodInv.nodup_accept (h : FloodInv length acc net) (hnew : f.id ∉ acc v o)
    (w a : ShortAddress) : (accept acc v o f.id w a).Nodup := by
  unfold accept
  split
  · rename_i heq
    obtain ⟨rfl, rfl⟩ := heq
    refine List.Nodup.append (h.nodup w a) (nodup_singleton _) ?_
    rw [disjoint_singleton]
    exact hnew
  · exact h.nodup w a

variable (h : FloodInv length acc net) (hf : f ∈ net.frames) (ho : (net.packet f.id).originator = o)
include h hf ho

theorem FloodInv.accepted_accept (w a : ShortAddress) (id : ℕ) (hid : id ∈ accept acc v o f.id w a) :
    id < net.nextId ∧ (net.packet id).originator = a := by
  unfold accept at hid
  split at hid
  · rename_i heq
    obtain ⟨rfl, rfl⟩ := heq
    rcases mem_append.mp hid with hid | hid
    · exact h.accepted w a id hid
    · rw [mem_singleton.mp hid]
      exact ⟨(h.carries f hf).id, ho⟩
  · exact h.accepted w a id hid

/-- The packet that is accepted last is in flight now, together with the others. -/
theorem FloodInv.later_accept (hnew : f.id ∉ acc v o) (w a : ShortAddress) (xs : List ℕ) (id : ℕ)
    (ys : List ℕ) (hsplit : accept acc v o f.id w a = xs ++ id :: ys) (hflies : net.Flies id) :
    ys ⊆ (net.packet id).together := by
  by_cases heq : w = v ∧ a = o
  · obtain ⟨rfl, rfl⟩ := heq
    rw [accept_self] at hsplit
    rcases eq_nil_or_concat ys with rfl | ⟨zs, z, rfl⟩
    · exact nil_subset _
    · rw [concat_eq_append, ← cons_append, ← append_assoc] at hsplit
      obtain ⟨hsplit', hz⟩ := append_inj' hsplit rfl
      rw [List.cons.injEq] at hz
      obtain ⟨rfl, -⟩ := hz
      have hmem : id ∈ acc w a := by
        rw [hsplit']
        exact mem_append_right _ mem_cons_self
      rw [concat_eq_append]
      refine append_subset.mpr ⟨h.later w a xs id zs hsplit' hflies, ?_⟩
      refine cons_subset.mpr ⟨?_, nil_subset _⟩
      obtain ⟨k, hk, rfl⟩ := hflies
      refine h.together k hk f hf (fun heq => hnew ?_) ?_
      · rw [← heq]
        exact hmem
      · rw [(h.accepted w a _ hmem).2, ho]
  · rw [accept_of_ne _ heq] at hsplit
    exact h.later w a xs id ys hsplit hflies

/-- **A node accepts a packet as new.** -/
theorem FloodInv.heard (hnew : f.id ∉ acc v o) (effects : List Effect)
    (hrelays : ∀ g ∈ f.relays v effects, g.id = f.id ∧ g.Carries net)
    (honce : (f.relays v effects).map (fun g => (v, g.id)) = [] ∨ (f.relays v effects).map (fun g => (v, g.id)) = [(v, f.id)] ∧ v ≠ o)
    (hup : f.handings v effects = [] ∨ f.handings v effects = [(v, f.id)]) :
    FloodInv length (accept acc v o f.id) (net.heard v f
      ((net.node v).device.noteSeen (.of o) (net.packet f.id).seqNumber) effects) := by
  -- a frame is a copy of a packet that was in flight before
  have hframe : ∀ g ∈ net.frames ++ f.relays v effects,
      (∃ g' ∈ net.frames, g'.id = g.id) ∧ g.Carries net := by
    intro g hg
    rcases mem_append.mp hg with hg | hg
    · exact ⟨⟨g, hg, rfl⟩, h.carries g hg⟩
    · exact ⟨⟨f, hf, (hrelays g hg).1.symm⟩, (hrelays g hg).2⟩
  have hdevice (P : ShortAddress → NetDevice → Prop) (hall : ∀ w, P w (net.node w).device)
      (hnote : P v (net.node v).device → P v ((net.node v).device.noteSeen (.of o)
        (net.packet f.id).seqNumber)) (w : ShortAddress) :
      P w ((net.heard v f ((net.node v).device.noteSeen (.of o)
        (net.packet f.id).seqNumber) effects).node w).device := by
    unfold FloodNetwork.heard
    dsimp only
    split
    · rename_i hw
      rw [hw]
      exact hnote (hall v)
    · exact hall w
  have hforwarded := h.forwarded.accept (v := v) (by rw [ho]; exact hnew) (honce.imp_right And.left)
  have hhanded := h.handedUp.accept (v := v) (by rw [ho]; exact hnew) hup
  rw [ho] at hforwarded hhanded
  refine ⟨hdevice (fun _ d => d.dataFlooding = true) h.flooding id,
    hdevice (fun w d => d.own = .ok (.of w)) h.own id,
    hdevice (fun _ d => d.meshCacheLength.toNat = length) h.cacheLength id,
    h.cache_accept ho effects, h.nodup_accept hnew, h.accepted_accept hf ho, ?_, ?_, ?_,
    ⟨hforwarded.nodup, hforwarded.accepted⟩, ?_, ⟨hhanded.nodup, hhanded.accepted⟩⟩
  · intro g hg
    have hcarries := (hframe g hg).2
    exact { hcarries with }
  · intro g hg g' hg' hne horiginator
    obtain ⟨k, hk, hid⟩ := (hframe g hg).1
    obtain ⟨k', hk', hid'⟩ := (hframe g' hg').1
    rw [← hid, ← hid'] at hne horiginator ⊢
    exact h.together k hk k' hk' hne horiginator
  · intro w a xs id ys hsplit hflies
    obtain ⟨g, hg, rfl⟩ := hflies
    exact h.later_accept hf ho hnew w a xs g.id ys hsplit (hframe g hg).1
  · intro x hx
    rcases mem_append.mp hx with hx | hx
    · exact h.foreign x hx
    · rcases honce with hnone | ⟨hone, hne⟩
      · rw [hnone] at hx
        cases hx
      · rw [hone, mem_singleton] at hx
        rw [hx]
        show v ≠ (net.packet f.id).originator
        rw [ho]
        exact hne

omit h hf ho

/-! ### The steps -/

/-- A node that has seen a packet does nothing. -/
theorem heard_nil (net : FloodNetwork) (v : ShortAddress) (f : FloodFrame) :
    net.heard v f (net.node v).device [] = net := by
  have hnode : (fun w => if w = v then { net.node v with device := (net.node v).device }
      else net.node w) = net.node := by
    funext w
    split
    · rename_i hw
      rw [hw]
    · rfl
  unfold FloodNetwork.heard
  rw [hnode]
  show { net with
    node := net.node
    frames := net.frames ++ []
    forwarded := net.forwarded ++ []
    handedUp := net.handedUp ++ [] } = net
  rw [append_nil, append_nil, append_nil]

/-- A frame leaves the air. -/
theorem FloodInv.expire (h : FloodInv length acc net) (i : ℕ) :
    FloodInv length acc { net with frames := net.frames.eraseIdx i } := by
  have hframe : ∀ g ∈ net.frames.eraseIdx i, g ∈ net.frames := fun g hg =>
    mem_of_mem_eraseIdx hg
  refine ⟨h.flooding, h.own, h.cacheLength, h.cache, h.nodup, h.accepted, ?_, ?_, ?_,
    ⟨h.forwarded.nodup, h.forwarded.accepted⟩, h.foreign, ⟨h.handedUp.nodup, h.handedUp.accepted⟩⟩
  · intro g hg
    have hcarries := h.carries g (hframe g hg)
    exact { hcarries with }
  · exact fun g hg g' hg' => h.together g (hframe g hg) g' (hframe g' hg')
  · rintro w o xs id ys hsplit ⟨g, hg, hid⟩
    exact h.later w o xs id ys hsplit ⟨g, hframe g hg, hid⟩

/-- The address that a node puts into a mesh header is its own. -/
theorem originator_of_own {d : NetDevice} {own originator : MeshAddress} (hown : d.own = .ok own)
    (h : meshAddress d.address = .ok originator) : originator = own := by
  unfold NetDevice.own at hown
  cases ha : d.address with
  | mac48 =>
    rw [ha] at hown h
    cases hown
    cases h
    rfl
  | mac8 =>
    rw [ha] at hown
    cases hown
  | mac16 =>
    rw [ha] at hown
    cases hown
  | mac64 =>
    rw [ha] at hown
    cases hown

/-- A frame is heard, while few packets are in flight together. -/
theorem post_deliver_flooding (h : FloodInv length acc net) (hf : f ∈ net.frames)
    (hfew : (net.packet f.id).together.length + 1 ≤ length) (v : ShortAddress)
    (src dst : MacAddress) :
    Post (net.deliver v f src dst) fun net' => ∃ acc', FloodInv length acc' net' := by
  obtain ⟨hid, hfinal, hopsLeft, rest, hhops, hpos, hoctets⟩ := h.carries f hf
  have hle : hopsLeft ≤ 0xF := by
    rw [BitVec.le_def]
    show hopsLeft.toNat ≤ 15
    omega
  have hseen := h.hasSeen_of_mem hf hfew v
  generalize ho : (net.packet f.id).originator = o at hoctets hseen
  unfold FloodNetwork.deliver
  apply wp_of_bind
  rw [hoctets]
  refine (post_receiveFromDevice_flooding ⟨.of o, (net.packet f.id).finalDst, hopsLeft⟩
    (h.flooding v) (h.own v) trivial hfinal hle _ _).imp ?_
  rintro ⟨device, effects⟩ hflooded
  dsimp only at hflooded
  have hfresh (hnot : (net.node v).device.hasSeen (.of o) (net.packet f.id).seqNumber = false) :
      f.id ∉ acc v o := by
    intro hmem
    rw [hseen hmem] at hnot
    cases hnot
  show ∃ acc', FloodInv length acc' (net.heard v f device effects)
  cases hflooded with
  | seen hseen' =>
    rw [heard_nil]
    exact ⟨acc, h⟩
  | dropped hnot =>
    exact ⟨_, h.heard hf ho (hfresh hnot) [] (fun _ hg => absurd hg not_mem_nil) (.inl rfl)
      (.inl rfl)⟩
  | relayed hnot hhops' hforeign rest =>
    refine ⟨_, h.heard hf ho (hfresh hnot) _ ?_ (.inr ⟨rfl, ?_⟩) (.inl rfl)⟩
    · intro g hg
      rw [mem_singleton.mp hg]
      have hsub : (hopsLeft - 1).toNat + 1 = hopsLeft.toNat := by
        have hpos : hopsLeft ≠ 0 := hhops'
        bv_omega
      refine ⟨rfl, hid, hfinal, hopsLeft - 1, rest, ?_, Nat.succ_pos _, ?_⟩
      · show (hopsLeft - 1).toNat + (f.hops + 1) = 16
        omega
      · dsimp only
        rw [ho]
    · rintro rfl
      exact hforeign rfl
  | arrived hnot up hup =>
    rcases hup with rfl | ⟨packet, rfl⟩
    · exact ⟨_, h.heard hf ho (hfresh hnot) [] (fun _ hg => absurd hg not_mem_nil)
        (.inl rfl) (.inl rfl)⟩
    · exact ⟨_, h.heard hf ho (hfresh hnot) _ (fun _ hg => absurd hg not_mem_nil)
        (.inl rfl) (.inr rfl)⟩

/-- **One step**, while few packets are in flight together. -/
theorem post_floodStep (h : FloodInv length acc net) (a : FloodAction)
    (hfew : FewTogether length net a) :
    Post (floodStep net a) fun net' => ∃ acc', FloodInv length acc' net' := by
  cases a with
  | doSend v packet dest =>
    refine post_bind fun packet' _ => ?_
    refine post_bind fun originator horiginator => ?_
    refine post_bind fun finalDst hfinal => ?_
    split
    · exact ⟨acc, h⟩
    · rw [originator_of_own (h.own v) horiginator]
      exact ⟨acc, h.originate v finalDst (isSet_of_meshAddress hfinal) packet'⟩
  | deliver i v src dst =>
    show Post (match net.frames[i]? with | some f => _ | none => _) _
    cases hf : net.frames[i]? with
    | none => exact ⟨acc, h⟩
    | some f =>
      have hmem : f ∈ net.frames := mem_of_getElem? hf
      exact post_deliver_flooding h hmem (hfew f hmem) v src dst
  | expire i => exact ⟨acc, h.expire i⟩

/-- The invariant says what is wanted. -/
theorem FloodInv.suppresses (h : FloodInv length acc net) : net.Suppresses (0xF + 1) := by
  refine ⟨fun v id _ _ => ?_, fun id => ?_, fun v id _ => ?_, fun f hf => ?_⟩
  · exact nodup_iff_count_le_one.mp h.forwarded.nodup (v, id)
  · rw [count_eq_zero]
    intro hmem
    exact h.foreign _ hmem rfl
  · exact nodup_iff_count_le_one.mp h.handedUp.nodup (v, id)
  · obtain ⟨-, -, hopsLeft, rest, hhops, -⟩ := h.carries f hf
    omega

/-! ## Whole runs -/

/-- **Controlled flooding suppresses duplicates.**  In every run of a network in flooding mode,
with any topology and any order and duplication of deliveries, in which no packet is in flight
together with more packets of its originator than the caches have room for, it included: the
other nodes broadcast a packet again at most once, the originator never, the destination hands it
up at most once, and it makes at most one hop more than its hop count says at first. -/
theorem suppresses_of_run (hears : ShortAddress → ShortAddress → Bool) (length : ℕ)
    (net net' : FloodNetwork) (as : List FloodAction) (hnew : net.IsNew length)
    (hrun : (floodMachine hears).Run (FewTogether length) net as net') :
    net'.Suppresses (0xF + 1) := by
  have hinv : ∃ acc, FloodInv length acc net' := by
    refine hrun.invariant (fun net => ∃ acc, FloodInv length acc net) ?_ ⟨fun _ _ => [], ?_⟩
    · rintro net a ⟨acc, h⟩ - hfew
      exact post_floodStep h a hfew
    · refine ⟨hnew.flooding, hnew.own, hnew.length, ?_, ?_, ?_, ?_, ?_, ?_, ⟨?_, ?_⟩, ?_, ⟨?_, ?_⟩⟩
      · exact fun v o => (hnew.seenPkts v (.of o)).trans (rtake_nil length).symm
      · exact fun _ _ => nodup_nil
      · exact fun _ _ id hid => absurd hid not_mem_nil
      · rw [hnew.frames]
        exact fun f hf => absurd hf not_mem_nil
      · rw [hnew.frames]
        exact fun f hf => absurd hf not_mem_nil
      · intro v o xs id ys hsplit
        cases xs with
        | nil => cases hsplit
        | cons x xs => cases hsplit
      · rw [hnew.forwarded]
        exact nodup_nil
      · rw [hnew.forwarded]
        exact fun x hx => absurd hx not_mem_nil
      · rw [hnew.forwarded]
        exact fun x hx => absurd hx not_mem_nil
      · rw [hnew.handedUp]
        exact nodup_nil
      · rw [hnew.handedUp]
        exact fun x hx => absurd hx not_mem_nil
  obtain ⟨acc, h⟩ := hinv
  exact h.suppresses

end

/-- New devices in flooding mode, each with its own short address. -/
def newFloodNetwork (length : BitVec 16) : FloodNetwork where
  node v := {
    device := {
      useHC1 := false
      dataFlooding := true
      greedyRouting := false
      loadRouting := false
      direct := false
      address := .mac48 0 0 0 0 v.1 v.2
      meshCacheLength := length }
    mtu := 100 }

theorem isNew_newFloodNetwork (length : BitVec 16) :
    (newFloodNetwork length).IsNew length.toNat :=
  ⟨rfl, rfl, rfl, rfl, fun _ => rfl, fun _ => rfl, fun _ => rfl, fun _ _ => rfl⟩

/-- A frame is heard by a node; the device below names the addresses. -/
def hearing (i : ℕ) (v : Octet) : FloodAction :=
  .deliver i (0, v) (.mac48 0 0 0 0 0 1) (.mac48 0 0 0 0 0xff 0xff)

/-- Two packets are flooded at the same time, and one of them is heard twice. -/
theorem suppresses_of_run_two :
    ∃ net' as, (floodMachine fun _ _ => true).Run (FewTogether 2) (newFloodNetwork 2) as net' ∧
      net'.forwarded = [((0, 2), 0), ((0, 2), 1)] ∧ net'.Suppresses (0xF + 1) := by
  obtain ⟨net', hrun, hforwarded⟩ := Machine.exists_run_of_exec
    (m := floodMachine fun _ _ => true) (fun net a => decide (FewTogether 2 net a))
    (fun net => net.forwarded == [((0, 2), 0), ((0, 2), 1)]) (newFloodNetwork 2)
    [.doSend (0, 1) [7] (.mac16 0 9), .doSend (0, 1) [8] (.mac16 0 9), hearing 0 2, hearing 1 2,
      hearing 0 2]
    (by decide +kernel)
  have hrun' := hrun.mono (D := FewTogether 2) fun net a h => of_decide_eq_true h
  exact ⟨net', _, hrun', by simpa using hforwarded,
    suppresses_of_run (fun _ _ => true) 2 (newFloodNetwork 2) net' _ (isNew_newFloodNetwork 2)
      hrun'⟩

/-- Duplicates are suppressed in every run that meets a proviso. -/
def SuppressesWhile (proviso : ℕ → FloodNetwork → FloodAction → Prop) (hops : ℕ) : Prop :=
  ∀ (hears : ShortAddress → ShortAddress → Bool) (length : ℕ) (net net' : FloodNetwork)
    (as : List FloodAction), 1 ≤ length → net.IsNew length →
    (floodMachine hears).Run (proviso length) net as net' → net'.Suppresses hops

/-- The packets in flight are among those that there are frames of. -/
theorem length_inFlight_le (net : FloodNetwork) (v : ShortAddress) :
    (net.inFlight v).length ≤ (net.frames.map FloodFrame.id).dedup.length := by
  have hnodup : (net.inFlight v).Nodup := List.Nodup.filter _ nodup_range
  refine (hnodup.subperm fun id hid => ?_).length_le
  obtain ⟨-, f, hf, rfl⟩ := of_decide_eq_true (mem_filter.mp hid).2
  exact mem_dedup.mpr (mem_map_of_mem hf)

/-- A packet stays in flight while two others come and go, one after the other: the caches forget
it, and a node broadcasts it twice. -/
theorem exists_run_twice :
    ∃ net' as, (floodMachine fun _ _ => true).Run (FewInFlight 2) (newFloodNetwork 2) as net' ∧
      (net'.packet 0).originator = (0, 1) ∧ (net'.packet 0).finalDst = .short 0 9 ∧
      net'.forwarded.count ((0, 2), 0) = 2 := by
  obtain ⟨net', hrun, hforwarded⟩ := Machine.exists_run_of_exec
    (m := floodMachine fun _ _ => true)
    (fun net _ => decide ((net.frames.map FloodFrame.id).dedup.length ≤ 2))
    (fun net => decide ((net.packet 0).originator = (0, 1) ∧
      (net.packet 0).finalDst = .short 0 9 ∧ net.forwarded.count ((0, 2), 0) = 2))
    (newFloodNetwork 2)
    [.doSend (0, 1) [7] (.mac16 0 9), hearing 0 2, .doSend (0, 1) [8] (.mac16 0 9), hearing 2 2,
      .expire 3, .expire 2, .doSend (0, 1) [9] (.mac16 0 9), hearing 2 2, hearing 0 2]
    (by decide +kernel)
  refine ⟨net', _, hrun.mono fun net a h v => ?_, of_decide_eq_true hforwarded⟩
  exact (length_inFlight_le net v).trans (of_decide_eq_true h)

/-- A packet makes as many hops as there are relays, and one more. -/
theorem exists_run_far :
    ∃ net' as, (floodMachine fun _ _ => true).Run (FewTogether 1) (newFloodNetwork 1) as net' ∧
      ∃ f ∈ net'.frames, f.hops = 16 := by
  obtain ⟨net', hrun, hhops⟩ := Machine.exists_run_of_exec
    (m := floodMachine fun _ _ => true) (fun net a => decide (FewTogether 1 net a))
    (fun net => decide (∃ f ∈ net.frames, f.hops = 16)) (newFloodNetwork 1)
    (.doSend (0, 1) [7] (.mac16 0 99) ::
      (List.range 15).map fun i => hearing i (BitVec.ofNat 8 (i + 2)))
    (by decide +kernel)
  exact ⟨net', _, hrun.mono fun net a h => of_decide_eq_true h, of_decide_eq_true hhops⟩

/-- It is not enough that few packets are in flight at a time, and a packet can make one hop more
than its hop count says at first. -/
theorem not_suppressesWhile :
    ¬ SuppressesWhile FewInFlight 0xF ∧ ¬ SuppressesWhile FewInFlight (0xF + 1) ∧
      ¬ SuppressesWhile FewTogether 0xF := by
  have htwice (hops : ℕ) : ¬ SuppressesWhile FewInFlight hops := by
    intro hall
    obtain ⟨net', as, hrun, horiginator, hfinal, hcount⟩ := exists_run_twice
    have hone := (hall _ 2 _ net' as (by omega) (isNew_newFloodNetwork 2) hrun).relays (0, 2) 0
      (by rw [horiginator]; decide) (by rw [hfinal]; decide)
    omega
  refine ⟨htwice _, htwice _, fun hall => ?_⟩
  obtain ⟨net', as, hrun, f, hf, hhops⟩ := exists_run_far
  have hle := (hall _ 1 _ net' as le_rfl (isNew_newFloodNetwork 1) hrun).hops f hf
  omega

end Ns3Dsme.SixLowPan
