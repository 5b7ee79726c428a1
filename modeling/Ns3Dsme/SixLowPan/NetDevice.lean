/-
# Receiving a 6LoWPAN frame

`SixLowPanNetDevice::ReceiveFromDevice`: the headers are taken off one after the other, the
mesh mode decides whether the packet is sent on, and what remains is handed to the upper layer.
In greedy mode, and for data in LOAD mode, the branch that sends a packet on does not return, so
the packet is handed up as well.
-/
import Ns3Dsme.SixLowPan.MeshHeaders

open Program

namespace Ns3Dsme.SixLowPan

/-! ## The device -/

/-- The members of a device that `ReceiveFromDevice` reads and writes.  A routing entry is the
address of the next hop. -/
structure NetDevice where
  useHC1 : Bool
  dataFlooding : Bool
  greedyRouting : Bool
  loadRouting : Bool
  direct : Bool
  /-- The address of the device below. -/
  address : MacAddress
  meshCacheLength : BitVec 16 := 10
  seenPkts : MeshAddress → List Octet := fun _ => []
  neighborTable : MeshAddress → Option (BitVec 16 × BitVec 16) := fun _ => none
  loadTable : MeshAddress → Option MeshAddress := fun _ => none
  /-- `m_notifyUpperCallback` is set. -/
  notifyUpper : Bool := false

/-- The calls that are scheduled with `ScheduleNow` to send a packet on. -/
inductive Forwarding
  | broadcast (packet : List Octet)
  | doSendGreedyForwarding (packet : List Octet) (finalDst : MeshAddress)
  | doSendRREQ (packet : List Octet)
  | doSendRREP (packet : List Octet)
  | doSendLoadForwarding (packet : List Octet)
  deriving DecidableEq

/-- What a received frame causes. -/
inductive Effect
  /-- The packet is sent on. -/
  | forward (f : Forwarding)
  /-- A route reply is sent to the originator of a request. -/
  | sendRREP (dest : MeshAddress)
  /-- The waiting packet is sent. -/
  | doSendLoad
  /-- The packet is handed to the upper layer. -/
  | deliver (packet : List Octet)
  deriving DecidableEq

/-- `Get16MacFrom48Mac`. -/
def get16MacFrom48Mac : MacAddress → Except PacketFault MeshAddress
  | .mac48 _ _ _ _ e f => .ok (.short e f)
  | _ => .error .assertFailed

/-- `Get16MacFrom48Mac` where it is needed, and the address types that a mesh header takes. -/
def meshAddress : MacAddress → Except PacketFault MeshAddress
  | .mac8 _ => .error .assertFailed
  | .mac16 a b => .ok (.short a b)
  | .mac48 _ _ _ _ e f => .ok (.short e f)
  | .mac64 o => .ok (.extended o)

/-- The types of address that a mesh header takes are set. -/
theorem isSet_of_meshAddress {a : MacAddress} {m : MeshAddress} (h : meshAddress a = .ok m) :
    m.IsSet := by
  cases a with
  | mac8 => cases h
  | mac16 =>
    cases h
    trivial
  | mac48 =>
    cases h
    trivial
  | mac64 =>
    cases h
    trivial

/-- `CompressLowPanHc1`, if the device uses it. -/
def NetDevice.compress (d : NetDevice) (packet : List Octet) (dest : MacAddress) :
    Except PacketFault (List Octet) :=
  if d.useHC1 then compressLowPanHc1 packet d.address dest else .ok packet

/-! ## The headers -/

/-- The headers that have been taken off a packet, its last dispatch octet and what is left.
Without a BC0 header the sequence number is that of a new one. -/
structure Parsed where
  hello : Option SixLowPanHelloHeader := none
  hasMesh : Bool := false
  mesh : SixLowPanMesh := {}
  meshGEO : SixLowPanMeshGEO := {}
  seqNumber : Octet := 66
  hasRREQ : Bool := false
  hasRREP : Bool := false
  dispatchRaw : Octet := 0
  rest : List Octet

namespace Parsed

def dispatch (p : Parsed) : Dispatch := getDispatchType p.dispatchRaw

/-- `CopyData` into `dispatchRawVal`: an empty packet leaves it as it was. -/
def advance (p : Parsed) (rest : List Octet) : Parsed :=
  { p with rest, dispatchRaw := rest.headD p.dispatchRaw }

def takeHello (p : Parsed) : Except PacketFault Parsed :=
  if p.dispatch = .helloM then do
    let (hello, rest) ← SixLowPanHelloHeader.deserialize p.rest
    return { p with hello := some hello }.advance rest
  else .ok p

/-- The mode of the device decides which mesh header is read. -/
def takeMesh (d : NetDevice) (p : Parsed) : Except PacketFault Parsed :=
  if p.dispatch = .mesh ∨ p.dispatch = .meshGEO then
    if d.dataFlooding ∨ d.direct then do
      let (mesh, rest) ← SixLowPanMesh.deserialize p.rest
      return { p with hasMesh := true, mesh }.advance rest
    else if d.greedyRouting then do
      let (meshGEO, rest) ← SixLowPanMeshGEO.deserialize p.rest
      return { p with hasMesh := true, meshGEO }.advance rest
    else if d.loadRouting then do
      let (mesh, rest) ← SixLowPanMesh.deserialize p.rest
      return { p with hasMesh := true, mesh }.advance rest
    else .ok p
  else .ok p

def takeBc0 (p : Parsed) : Except PacketFault Parsed :=
  if p.dispatch = .bc0 then do
    let (seqNumber, rest) ← deserializeBc0 p.rest
    return { p with seqNumber }.advance rest
  else .ok p

def takeRREQ (p : Parsed) : Except PacketFault Parsed :=
  if p.dispatch = .rreq then do
    let (_, rest) ← readU8 p.rest
    return { p with hasRREQ := true }.advance rest
  else .ok p

def takeRREP (p : Parsed) : Except PacketFault Parsed :=
  if p.dispatch = .rrep then do
    let (_, rest) ← readU8 p.rest
    return { p with hasRREP := true }.advance rest
  else .ok p

/-- The headers behind the mesh header leave it alone. -/
structure KeepsMesh (p q : Parsed) : Prop where
  hello : q.hello = p.hello
  hasMesh : q.hasMesh = p.hasMesh
  mesh : q.mesh = p.mesh
  meshGEO : q.meshGEO = p.meshGEO

theorem KeepsMesh.refl (p : Parsed) : KeepsMesh p p := ⟨rfl, rfl, rfl, rfl⟩

theorem KeepsMesh.trans {p q r : Parsed} (h : KeepsMesh p q) (h' : KeepsMesh q r) :
    KeepsMesh p r :=
  ⟨h'.hello.trans h.hello, h'.hasMesh.trans h.hasMesh, h'.mesh.trans h.mesh,
    h'.meshGEO.trans h.meshGEO⟩

theorem post_takeBc0 (p : Parsed) : Post p.takeBc0 (KeepsMesh p) := by
  unfold takeBc0
  split
  · exact post_bind fun _ _ => ⟨rfl, rfl, rfl, rfl⟩
  · exact KeepsMesh.refl p

theorem post_takeRREQ (p : Parsed) :
    Post p.takeRREQ fun q => KeepsMesh p q ∧ q.seqNumber = p.seqNumber := by
  unfold takeRREQ
  split
  · exact post_bind fun _ _ => ⟨⟨rfl, rfl, rfl, rfl⟩, rfl⟩
  · exact ⟨KeepsMesh.refl p, rfl⟩

theorem post_takeRREP (p : Parsed) :
    Post p.takeRREP fun q => KeepsMesh p q ∧ q.seqNumber = p.seqNumber := by
  unfold takeRREP
  split
  · exact post_bind fun _ _ => ⟨⟨rfl, rfl, rfl, rfl⟩, rfl⟩
  · exact ⟨KeepsMesh.refl p, rfl⟩

end Parsed

/-- The first part of `ReceiveFromDevice`. -/
def parseHeaders (d : NetDevice) (packet : List Octet) : Except PacketFault Parsed := do
  let p ← ({ rest := [] } : Parsed).advance packet |>.takeHello
  let p ← p.takeMesh d
  let p ← p.takeBc0
  let p ← p.takeRREQ
  p.takeRREP

/-! ## The mesh modes -/

/-- What a branch for a mesh mode leaves: the device, the effects so far, and whether
`ReceiveFromDevice` goes on behind it. -/
structure Branch where
  device : NetDevice
  effects : List Effect := []
  continues : Bool

namespace NetDevice

/-- The sequence number is among the last ones seen of the originator. -/
def hasSeen (d : NetDevice) (originator : MeshAddress) (seqNumber : Octet) : Bool :=
  (d.seenPkts originator).contains seqNumber

/-- Remember a sequence number; of too many the oldest is forgotten. -/
def noteSeen (d : NetDevice) (originator : MeshAddress) (seqNumber : Octet) : NetDevice :=
  let seen := d.seenPkts originator ++ [seqNumber]
  let seen := if seen.length > d.meshCacheLength.toNat then seen.tail else seen
  { d with seenPkts := fun a => if a = originator then seen else d.seenPkts a }

/-- `m_loadTable[originator] = entry`. -/
def learn (d : NetDevice) (originator nextAddr : MeshAddress) : NetDevice :=
  { d with loadTable := fun a => if a = originator then some nextAddr else d.loadTable a }

def receiveHello (d : NetDevice) (hello : SixLowPanHelloHeader) : NetDevice :=
  { d with neighborTable := fun a =>
      if a = hello.address then some (hello.dx, hello.dy) else d.neighborTable a }

/-- The short address of the device itself. -/
def own (d : NetDevice) : Except PacketFault MeshAddress := get16MacFrom48Mac d.address

def receiveFlooding (d : NetDevice) (p : Parsed) : Except PacketFault Branch := do
  let mesh := p.mesh
  if d.hasSeen mesh.originator p.seqNumber then return { device := d, continues := false }
  else
    let d := d.noteSeen mesh.originator p.seqNumber
    let own ← d.own
    if mesh.finalDst ≠ own then
      if mesh.hopsLeft = 0 ∨ mesh.originator = own then
        return { device := d, continues := false }
      else
        let mesh := { mesh with hopsLeft := mesh.hopsLeft - 1 }
        let packet := mesh.serialize ++ (serializeBc0 p.seqNumber ++ p.rest)
        return { device := d, effects := [.forward (.broadcast packet)], continues := false }
    else return { device := d, continues := true }

/-- The branch goes on behind the forwarding. -/
def receiveGreedy (d : NetDevice) (p : Parsed) : Except PacketFault Branch := do
  let meshGEO := p.meshGEO
  let own ← d.own
  if meshGEO.finalDst ≠ own then
    if meshGEO.hopsLeft = 0 then return { device := d, continues := false }
    else
      let meshGEO := { meshGEO with hopsLeft := meshGEO.hopsLeft - 1 }
      let packet := meshGEO.serialize ++ p.rest
      return {
        device := d
        effects := [.forward (.doSendGreedyForwarding packet meshGEO.finalDst)]
        continues := true }
  else return { device := d, continues := true }

def receiveRREQ (d : NetDevice) (src : MacAddress) (p : Parsed) : Except PacketFault Branch := do
  let mesh := p.mesh
  if d.hasSeen mesh.originator p.seqNumber then return { device := d, continues := false }
  else
    let d := d.noteSeen mesh.originator p.seqNumber
    let own ← d.own
    if mesh.finalDst ≠ own then
      if mesh.hopsLeft = 0 ∨ mesh.originator = own then
        return { device := d, continues := false }
      else
        let d := d.learn mesh.originator (← get16MacFrom48Mac src)
        let mesh := { mesh with hopsLeft := mesh.hopsLeft - 1 }
        let packet := mesh.serialize ++ (serializeBc0 p.seqNumber ++ (serializeRREQ ++ p.rest))
        return { device := d, effects := [.forward (.doSendRREQ packet)], continues := false }
    else
      let d := d.learn mesh.originator (← get16MacFrom48Mac src)
      return { device := d, effects := [.sendRREP mesh.originator], continues := false }

def receiveRREP (d : NetDevice) (src : MacAddress) (p : Parsed) : Except PacketFault Branch := do
  let mesh := p.mesh
  let own ← d.own
  if mesh.finalDst ≠ own then
    if mesh.hopsLeft = 0 then return { device := d, continues := false }
    else
      let d := d.learn mesh.originator (← get16MacFrom48Mac src)
      let mesh := { mesh with hopsLeft := mesh.hopsLeft - 1 }
      let packet := mesh.serialize ++ (serializeRREP ++ p.rest)
      return { device := d, effects := [.forward (.doSendRREP packet)], continues := false }
  else
    let d := d.learn mesh.originator (← get16MacFrom48Mac src)
    return { device := d, effects := [.doSendLoad], continues := false }

/-- The branch goes on behind the forwarding. -/
def receiveLoad (d : NetDevice) (p : Parsed) : Except PacketFault Branch := do
  let mesh := p.mesh
  let own ← d.own
  if mesh.finalDst ≠ own then
    if mesh.hopsLeft = 0 then return { device := d, continues := false }
    else
      let mesh := { mesh with hopsLeft := mesh.hopsLeft - 1 }
      let packet := mesh.serialize ++ p.rest
      return {
        device := d
        effects := [.forward (.doSendLoadForwarding packet)]
        continues := true }
  else return { device := d, continues := true }

def receiveDirect (d : NetDevice) (p : Parsed) : Branch :=
  { device := d, effects := if d.notifyUpper then [.deliver p.rest] else [], continues := true }

/-- The branches of `ReceiveFromDevice` for a packet with a mesh header. -/
def receiveMesh (d : NetDevice) (src : MacAddress) (p : Parsed) : Except PacketFault Branch :=
  if d.dataFlooding then d.receiveFlooding p
  else if d.greedyRouting then d.receiveGreedy p
  else if p.hasRREQ then d.receiveRREQ src p
  else if p.hasRREP then d.receiveRREP src p
  else if d.loadRouting then d.receiveLoad p
  else if d.direct then .ok (d.receiveDirect p)
  else .ok { device := d, continues := true }

/-- The last part of `ReceiveFromDevice`: what is handed to the upper layer, if anything. -/
def handUp (d : NetDevice) (p : Parsed) (src dst : MacAddress) :
    Except PacketFault (List Effect) :=
  match p.dispatch with
  | .ipv6 => do
    let (_, rest) ← readU8 p.rest
    return [.deliver rest]
  | .hc1 =>
    if d.useHC1 then .ok []
    else do
      let packet ← decompressLowPanHc1 p.rest src dst
      return [.deliver packet]
  | _ => .ok []

/-! ## What the branches do -/

/-- Behind this forwarding the branch goes on: nothing is done at the destination, and elsewhere
the packet is sent on while there are hops left. -/
inductive Relayed (d : NetDevice) (finalDst : MeshAddress) (hopsLeft : Octet) (f : Forwarding) :
    Branch → Prop
  | arrived (hown : d.own = .ok finalDst) :
    Relayed d finalDst hopsLeft f { device := d, continues := true }
  | dropped (hother : d.own ≠ .ok finalDst) (hzero : hopsLeft = 0) :
    Relayed d finalDst hopsLeft f { device := d, continues := false }
  | forwarded (hother : d.own ≠ .ok finalDst) (hleft : hopsLeft ≠ 0) :
    Relayed d finalDst hopsLeft f { device := d, effects := [.forward f], continues := true }

/-- A packet of a flood is looked up in the cache, and put there. -/
inductive Flooded (d : NetDevice) (p : Parsed) : Branch → Prop
  | seen (hseen : d.hasSeen p.mesh.originator p.seqNumber = true) :
    Flooded d p { device := d, continues := false }
  | dropped (hseen : d.hasSeen p.mesh.originator p.seqNumber = false) :
    Flooded d p { device := d.noteSeen p.mesh.originator p.seqNumber, continues := false }
  | forwarded (hseen : d.hasSeen p.mesh.originator p.seqNumber = false) (packet : List Octet) :
    Flooded d p {
      device := d.noteSeen p.mesh.originator p.seqNumber
      effects := [.forward (.broadcast packet)]
      continues := false }
  | arrived (hseen : d.hasSeen p.mesh.originator p.seqNumber = false)
    (hown : d.own = .ok p.mesh.finalDst) :
    Flooded d p { device := d.noteSeen p.mesh.originator p.seqNumber, continues := true }

/-- So is a request, of which the way back is learnt too. -/
inductive Requested (d : NetDevice) (src : MacAddress) (p : Parsed) : Branch → Prop
  | seen (hseen : d.hasSeen p.mesh.originator p.seqNumber = true) :
    Requested d src p { device := d, continues := false }
  | dropped (hseen : d.hasSeen p.mesh.originator p.seqNumber = false) :
    Requested d src p { device := d.noteSeen p.mesh.originator p.seqNumber, continues := false }
  | forwarded (hseen : d.hasSeen p.mesh.originator p.seqNumber = false) (nextAddr : MeshAddress)
    (hnext : get16MacFrom48Mac src = .ok nextAddr) (packet : List Octet) :
    Requested d src p {
      device := (d.noteSeen p.mesh.originator p.seqNumber).learn p.mesh.originator nextAddr
      effects := [.forward (.doSendRREQ packet)]
      continues := false }
  | replied (hseen : d.hasSeen p.mesh.originator p.seqNumber = false) (nextAddr : MeshAddress)
    (hnext : get16MacFrom48Mac src = .ok nextAddr) :
    Requested d src p {
      device := (d.noteSeen p.mesh.originator p.seqNumber).learn p.mesh.originator nextAddr
      effects := [.sendRREP p.mesh.originator]
      continues := false }

/-- A reply is sent on, or makes the waiting packet be sent. -/
inductive Replied (d : NetDevice) (src : MacAddress) (p : Parsed) : Branch → Prop
  | dropped (hother : d.own ≠ .ok p.mesh.finalDst) :
    Replied d src p { device := d, continues := false }
  | forwarded (hother : d.own ≠ .ok p.mesh.finalDst) (nextAddr : MeshAddress)
    (hnext : get16MacFrom48Mac src = .ok nextAddr) (packet : List Octet) :
    Replied d src p {
      device := d.learn p.mesh.originator nextAddr
      effects := [.forward (.doSendRREP packet)]
      continues := false }
  | arrived (hown : d.own = .ok p.mesh.finalDst) (nextAddr : MeshAddress)
    (hnext : get16MacFrom48Mac src = .ok nextAddr) :
    Replied d src p {
      device := d.learn p.mesh.originator nextAddr
      effects := [.doSendLoad]
      continues := false }

variable {d : NetDevice} {src : MacAddress} {p : Parsed}

theorem own_ne {own finalDst : MeshAddress} (hown : d.own = .ok own) (hother : finalDst ≠ own) :
    d.own ≠ .ok finalDst := by
  rw [hown]
  exact fun h => hother (Except.ok.inj h).symm

theorem own_eq {own finalDst : MeshAddress} (hown : d.own = .ok own) (hfinal : ¬ finalDst ≠ own) :
    d.own = .ok finalDst := by
  rw [hown, not_not.mp hfinal]

theorem relayed_receiveGreedy : Post (d.receiveGreedy p) (d.Relayed p.meshGEO.finalDst
    p.meshGEO.hopsLeft (.doSendGreedyForwarding
      ({ p.meshGEO with hopsLeft := p.meshGEO.hopsLeft - 1 }.serialize ++ p.rest)
      p.meshGEO.finalDst)) := by
  unfold receiveGreedy
  refine post_bind fun own hown => ?_
  split
  · rename_i hother
    split
    · rename_i hzero
      exact .dropped (own_ne hown hother) hzero
    · rename_i hleft
      exact .forwarded (own_ne hown hother) hleft
  · rename_i hfinal
    exact .arrived (own_eq hown hfinal)

theorem relayed_receiveLoad : Post (d.receiveLoad p) (d.Relayed p.mesh.finalDst p.mesh.hopsLeft
    (.doSendLoadForwarding
      ({ p.mesh with hopsLeft := p.mesh.hopsLeft - 1 }.serialize ++ p.rest))) := by
  unfold receiveLoad
  refine post_bind fun own hown => ?_
  split
  · rename_i hother
    split
    · rename_i hzero
      exact .dropped (own_ne hown hother) hzero
    · rename_i hleft
      exact .forwarded (own_ne hown hother) hleft
  · rename_i hfinal
    exact .arrived (own_eq hown hfinal)

theorem flooded_receiveFlooding : Post (d.receiveFlooding p) (d.Flooded p) := by
  unfold receiveFlooding
  dsimp only
  split
  · rename_i hseen
    exact .seen hseen
  · rename_i hseen
    rw [Bool.not_eq_true] at hseen
    refine post_bind fun own hown => ?_
    split
    · split
      · exact .dropped hseen
      · exact .forwarded hseen _
    · rename_i hfinal
      exact .arrived hseen (own_eq hown hfinal)

theorem requested_receiveRREQ : Post (d.receiveRREQ src p) (d.Requested src p) := by
  unfold receiveRREQ
  dsimp only
  split
  · rename_i hseen
    exact .seen hseen
  · rename_i hseen
    rw [Bool.not_eq_true] at hseen
    refine post_bind fun own _ => ?_
    split
    · split
      · exact .dropped hseen
      · refine post_bind fun nextAddr hnext => ?_
        exact .forwarded hseen nextAddr hnext _
    · refine post_bind fun nextAddr hnext => ?_
      exact .replied hseen nextAddr hnext

theorem replied_receiveRREP : Post (d.receiveRREP src p) (d.Replied src p) := by
  unfold receiveRREP
  refine post_bind fun own hown => ?_
  split
  · rename_i hother
    split
    · exact .dropped (own_ne hown hother)
    · refine post_bind fun nextAddr hnext => ?_
      exact .forwarded (own_ne hown hother) nextAddr hnext _
  · rename_i hfinal
    refine post_bind fun nextAddr hnext => ?_
    exact .arrived (own_eq hown hfinal) nextAddr hnext

end NetDevice

/-- `ReceiveFromDevice`: the device afterwards, and what the frame has caused. -/
def receiveFromDevice (d : NetDevice) (packet : List Octet) (src dst : MacAddress) :
    Except PacketFault (NetDevice × List Effect) := do
  let p ← parseHeaders d packet
  match p.hello with
  | some hello => return (d.receiveHello hello, [])
  | none =>
    if p.hasMesh then
      let b ← d.receiveMesh src p
      if b.continues then return (b.device, b.effects ++ (← b.device.handUp p src dst))
      else return (b.device, b.effects)
    else return (d, ← d.handUp p src dst)

section

variable {d : NetDevice} {packet : List Octet} {src dst : MacAddress} {p : Parsed}

/-- A hello packet only changes the neighbour table. -/
theorem receiveFromDevice_of_hello {hello : SixLowPanHelloHeader}
    (hparse : parseHeaders d packet = .ok p) (hhello : p.hello = some hello) :
    receiveFromDevice d packet src dst = .ok (d.receiveHello hello, []) := by
  unfold receiveFromDevice
  simp only [hparse, bind, Except.bind, hhello]
  rfl

/-- A packet with a mesh header takes the branch of the mesh mode. -/
theorem receiveFromDevice_of_mesh (hparse : parseHeaders d packet = .ok p) (hhello : p.hello = none)
    (hmesh : p.hasMesh = true) :
    receiveFromDevice d packet src dst = d.receiveMesh src p >>= fun b =>
      if b.continues = true then
        b.device.handUp p src dst >>= fun up => .ok (b.device, b.effects ++ up)
      else .ok (b.device, b.effects) := by
  unfold receiveFromDevice
  simp only [hparse, bind, Except.bind, hhello, hmesh, if_true]
  rfl

/-- A packet without a mesh header is handed up, if anything is. -/
theorem receiveFromDevice_of_not_mesh (hparse : parseHeaders d packet = .ok p)
    (hhello : p.hello = none) (hmesh : p.hasMesh = false) :
    receiveFromDevice d packet src dst = d.handUp p src dst >>= fun up => .ok (d, up) := by
  unfold receiveFromDevice
  simp only [hparse, bind, Except.bind, hhello, hmesh]
  rfl

end

end Ns3Dsme.SixLowPan
