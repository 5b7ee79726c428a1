/-
# The routing models and the device

The models of greedy and of LOAD routing carry out `ReceiveFromDevice` on headers with short
addresses.  The device reads and writes the octets of such headers: a header is decoded as the
models say, and each branch leaves the tables of the model and schedules its calls.
-/
import Ns3Dsme.SixLowPan.GreedyRouting
import Ns3Dsme.SixLowPan.LoadRouting
import Ns3Dsme.SixLowPan.MeshCodec

open Octet Program

namespace Ns3Dsme.SixLowPan

/-! ## The headers -/

/-- A short address, as a mesh header carries it. -/
def shortAddress (a : Mac16Address) : MeshAddress :=
  .short ((a >>> 8).setWidth 8) (a.setWidth 8)

theorem shortAddress_inj {a b : Mac16Address} : shortAddress a = shortAddress b ↔ a = b := by
  refine ⟨fun h => octets16_injective ?_, congrArg shortAddress⟩
  obtain ⟨hhigh, hlow⟩ := MeshAddress.short.inj h
  unfold octets16
  rw [hhigh, hlow]

/-- The header of the device. -/
def Mesh.toHeader (hdr : Mesh) : SixLowPanMesh :=
  ⟨shortAddress hdr.originator, shortAddress hdr.finalDst, hdr.hopsLeft⟩

/-- The header of the device. -/
def MeshGEO.toHeader (hdr : MeshGEO) : SixLowPanMeshGEO :=
  ⟨shortAddress hdr.originator, shortAddress hdr.finalDst, hdr.hopsLeft, hdr.dst.x.toBitVec,
    hdr.dst.y.toBitVec⟩

/-- The octets of a header are decoded as the header that the model says is received, as long
as the hop count fits into the first octet. -/
theorem Mesh.deserialize_toHeader (hdr : Mesh) (rest : List Octet) (hhops : hdr.hopsLeft ≤ 0xF) :
    SixLowPanMesh.deserialize (hdr.toHeader.serialize ++ rest)
      = .ok (hdr.received.toHeader, rest) := by
  have hreceived : ∀ n : BitVec 8, n ≤ 0xF →
      (0x80 ||| 0x20 ||| 0x10 ||| (if n ≤ 0xF then n else 0xF)) &&& 0xF = n := by
    decide +kernel
  rw [SixLowPanMesh.deserialize_serialize hdr.toHeader rest trivial trivial hhops]
  unfold received firstOctet
  rw [hreceived hdr.hopsLeft hhops]

theorem MeshGEO.deserialize_toHeader (hdr : MeshGEO) (rest : List Octet)
    (hhops : hdr.hopsLeft ≤ 0xF) :
    SixLowPanMeshGEO.deserialize (hdr.toHeader.serialize ++ rest)
      = .ok (hdr.received.toHeader, rest) := by
  have hreceived : ∀ n : BitVec 8,
      (0x81 ||| 0x20 ||| 0x10 ||| (if n ≤ 0xF then n else 0xF)) &&& 0xF = decodedHops n := by
    decide +kernel
  rw [SixLowPanMeshGEO.deserialize_serialize hdr.toHeader rest trivial trivial hhops]
  unfold received firstOctet
  rw [hreceived hdr.hopsLeft]
  rfl

/-! ## Greedy routing -/

variable {d : NetDevice} {p : Parsed}

/-- **The greedy branch is the handler of the model**: it schedules the packet with the header
that the model forwards, or nothing where the model drops the packet. -/
theorem receiveGreedy_receiveMeshGEO (i : ℕ) (q : GreedyPacket) (net : GreedyNetwork)
    (hown : d.own = .ok (shortAddress q.node)) (hmesh : p.meshGEO = q.hdr.toHeader) :
    ∃ b, d.receiveGreedy p = .ok b ∧ b.device = d ∧
      (b.effects = [] ∧ receiveMeshGEO i q net = { net with packets := net.packets.eraseIdx i } ∨
        ∃ hdr : MeshGEO,
          b.effects = [.forward (.doSendGreedyForwarding (hdr.toHeader.serialize ++ p.rest)
            (shortAddress hdr.finalDst))] ∧
          receiveMeshGEO i q net
            = { net with packets := net.packets.set i { q with hdr, stage := .scheduled } }) := by
  unfold NetDevice.receiveGreedy receiveMeshGEO
  rw [hown, hmesh]
  by_cases hself : q.hdr.finalDst = q.node
  · refine ⟨{ device := d, continues := true }, ?_, rfl, .inl ⟨rfl, ?_⟩⟩
    · exact if_neg (not_not_intro (shortAddress_inj.mpr hself))
    · exact if_neg fun h => h.1 hself
  · have hne := mt shortAddress_inj.mp hself
    by_cases hhops : q.hdr.hopsLeft = 0
    · refine ⟨{ device := d, continues := false }, ?_, rfl, .inl ⟨rfl, ?_⟩⟩
      · exact (if_pos hne).trans (if_pos hhops)
      · exact if_neg fun h => h.2 hhops
    · refine ⟨_, (if_pos hne).trans (if_neg hhops), rfl,
        .inr ⟨{ q.hdr with hopsLeft := q.hdr.hopsLeft - 1 }, rfl, ?_⟩⟩
      exact if_pos ⟨hself, hhops⟩

/-! ## LOAD routing -/

/-- The device is in LOAD mode and holds what the node of the model holds. -/
structure NetDevice.Holds (d : NetDevice) (meshCacheLength : ℕ) (v : Mac16Address) (n : LoadNode) :
    Prop where
  own : d.own = .ok (shortAddress v)
  dataFlooding : d.dataFlooding = false
  greedyRouting : d.greedyRouting = false
  loadRouting : d.loadRouting = true
  meshCacheLength : d.meshCacheLength.toNat = meshCacheLength
  loadTable : ∀ a, d.loadTable (shortAddress a)
    = (n.loadTable a).map fun e => shortAddress e.nextAddr
  seenPkts : ∀ a, d.seenPkts (shortAddress a) = n.seenPkts a

/-- The packet has the headers of the frame. -/
structure Parsed.IsFrame (p : Parsed) (f : LoadFrame) : Prop where
  mesh : p.mesh = f.mesh.toHeader
  hasRREQ : p.hasRREQ = true ↔ ∃ seq, f.body = .rreq seq
  hasRREP : p.hasRREP = true ↔ f.body = .rrep
  seqNumber : ∀ seq, f.body = .rreq seq → p.seqNumber = seq

/-- The effect that is a call of the model, for a packet of which `rest` follows the headers. -/
def LoadCall.toEffects (rest : List Octet) : LoadCall → List Effect
  | .doSendRREQ mesh seq _ _ => [.forward (.doSendRREQ
      (mesh.toHeader.serialize ++ (serializeBc0 seq ++ (serializeRREQ ++ rest))))]
  | .sendRREP dest => [.sendRREP (shortAddress dest)]
  | .doSendRREP mesh _ _ => [.forward (.doSendRREP
      (mesh.toHeader.serialize ++ (serializeRREP ++ rest)))]
  | .doSendLoad => [.doSendLoad]
  | .doSendLoadForwarding mesh => [.forward (.doSendLoadForwarding
      (mesh.toHeader.serialize ++ rest))]
  | .sendRREQ _ => []

/-- The branch leaves the node of the model and schedules its calls. -/
def Branch.Simulates (b : Branch) (meshCacheLength : ℕ) (v : Mac16Address) (rest : List Octet)
    (net net' : LoadNetwork) : Prop :=
  b.device.Holds meshCacheLength v (net'.node v) ∧
    ∃ calls : List LoadCall, net'.calls = net.calls ++ calls.map (v, ·) ∧
      b.effects = calls.flatMap (LoadCall.toEffects rest)

variable {meshCacheLength : ℕ} {v : Mac16Address} {net : LoadNetwork} {f : LoadFrame}

namespace NetDevice.Holds

theorem noteSeen (h : d.Holds meshCacheLength v (net.node v)) (a : Mac16Address) (seq : BitVec 8) :
    (d.noteSeen (shortAddress a) seq).Holds meshCacheLength v
      ((net.noteSeen meshCacheLength v a seq).node v) := by
  have hnode : (net.noteSeen meshCacheLength v a seq).node v = _ := if_pos rfl
  rw [hnode]
  refine { h with seenPkts := fun b => ?_ }
  show (if shortAddress b = shortAddress a then _ else _) = if b = a then _ else _
  rw [h.seenPkts a, h.meshCacheLength]
  by_cases hb : b = a
  · rw [if_pos (shortAddress_inj.mpr hb), if_pos hb]
  · rw [if_neg fun heq => hb (shortAddress_inj.mp heq), if_neg hb]
    exact h.seenPkts b

theorem learn (h : d.Holds meshCacheLength v (net.node v)) (f : LoadFrame) :
    (d.learn (shortAddress f.mesh.originator) (shortAddress f.sender)).Holds meshCacheLength v
      ((net.learn v f).node v) := by
  have hnode : (net.learn v f).node v = _ := if_pos rfl
  rw [hnode]
  refine { h with loadTable := fun b => ?_ }
  show (if shortAddress b = shortAddress f.mesh.originator then _ else _)
    = (if b = f.mesh.originator then _ else _ : Option LoadEntry).map _
  by_cases hb : b = f.mesh.originator
  · rw [if_pos (shortAddress_inj.mpr hb), if_pos hb]
    rfl
  · rw [if_neg fun heq => hb (shortAddress_inj.mp heq), if_neg hb]
    exact h.loadTable b

end NetDevice.Holds

/-- A branch that schedules nothing. -/
theorem simulates_quiet {d' : NetDevice} {net' : LoadNetwork} {rest : List Octet} {continues : Bool}
    (h : d'.Holds meshCacheLength v (net'.node v)) (hcalls : net'.calls = net.calls) :
    ({ device := d', continues } : Branch).Simulates meshCacheLength v rest net net' :=
  ⟨h, [], hcalls.trans (List.append_nil _).symm, rfl⟩

/-- A branch that schedules one call. -/
theorem simulates_schedule {d' : NetDevice} {net' : LoadNetwork} {rest : List Octet}
    {continues : Bool} {effect : Effect} (call : LoadCall)
    (h : d'.Holds meshCacheLength v (net'.node v)) (hcalls : net'.calls = net.calls)
    (heffect : call.toEffects rest = [effect]) :
    ({ device := d', effects := [effect], continues } : Branch).Simulates meshCacheLength v rest net
      (net'.schedule v call) :=
  ⟨h, [call], congrArg (· ++ [(v, call)]) hcalls,
    (List.flatMap_singleton _ _ |>.trans heffect).symm⟩

section

variable {src : MacAddress} (h : d.Holds meshCacheLength v (net.node v)) (hframe : p.IsFrame f)

include h hframe

theorem receiveLoad_receiveData :
    ∃ b, d.receiveLoad p = .ok b ∧
      b.Simulates meshCacheLength v p.rest net (net.receiveData v f) := by
  unfold NetDevice.receiveLoad LoadNetwork.receiveData
  rw [h.own, hframe.mesh]
  by_cases hself : f.mesh.finalDst = v
  · rw [if_neg fun hdata => hdata.1 hself]
    exact ⟨_, if_neg (not_not_intro (shortAddress_inj.mpr hself)), simulates_quiet h rfl⟩
  · have hne := mt shortAddress_inj.mp hself
    by_cases hhops : f.mesh.hopsLeft = 0
    · rw [if_neg fun hdata => hdata.2 hhops]
      exact ⟨_, (if_pos hne).trans (if_pos hhops), simulates_quiet h rfl⟩
    · rw [if_pos ⟨hself, hhops⟩]
      exact ⟨_, (if_pos hne).trans (if_neg hhops),
        simulates_schedule (.doSendLoadForwarding f.relayed) h rfl rfl⟩

variable (hsrc : get16MacFrom48Mac src = .ok (shortAddress f.sender))

include hsrc

theorem receiveRREP_receiveRREP :
    ∃ b, d.receiveRREP src p = .ok b ∧
      b.Simulates meshCacheLength v p.rest net (net.receiveRREP v f) := by
  unfold NetDevice.receiveRREP LoadNetwork.receiveRREP
  rw [h.own, hframe.mesh, hsrc]
  by_cases hself : f.mesh.finalDst = v
  · rw [if_neg (not_not_intro hself)]
    exact ⟨_, if_neg (not_not_intro (shortAddress_inj.mpr hself)),
      simulates_schedule .doSendLoad (h.learn f) rfl rfl⟩
  · have hne := mt shortAddress_inj.mp hself
    rw [if_pos hself]
    by_cases hhops : f.mesh.hopsLeft = 0
    · rw [if_pos hhops]
      exact ⟨_, (if_pos hne).trans (if_pos hhops), simulates_quiet h rfl⟩
    · rw [if_neg hhops]
      exact ⟨_, (if_pos hne).trans (if_neg hhops),
        simulates_schedule (.doSendRREP f.relayed f.stamp (f.depth + 1)) (h.learn f) rfl rfl⟩

theorem receiveRREQ_receiveRREQ {seq : BitVec 8} (hseq : p.seqNumber = seq) :
    ∃ b, d.receiveRREQ src p = .ok b ∧
      b.Simulates meshCacheLength v p.rest net (net.receiveRREQ meshCacheLength v f seq) := by
  have hseen : d.hasSeen f.mesh.toHeader.originator seq = net.hasSeen v f.mesh.originator seq :=
    congrArg (·.contains seq) (h.seenPkts f.mesh.originator)
  have hnoted : (d.noteSeen f.mesh.toHeader.originator seq).Holds meshCacheLength v _ :=
    h.noteSeen f.mesh.originator seq
  have hcalls : (net.noteSeen meshCacheLength v f.mesh.originator seq).calls = net.calls := rfl
  unfold NetDevice.receiveRREQ LoadNetwork.receiveRREQ
  dsimp only
  rw [hframe.mesh, hseq, hsrc, hseen, hnoted.own]
  by_cases hold : net.hasSeen v f.mesh.originator seq = true
  · rw [if_pos hold, if_pos hold]
    exact ⟨_, rfl, simulates_quiet h rfl⟩
  rw [if_neg hold, if_neg hold]
  -- the number is noted before anything else
  generalize net.noteSeen meshCacheLength v f.mesh.originator seq = noted at hnoted hcalls
  by_cases hself : f.mesh.finalDst = v
  · rw [if_neg (not_not_intro hself)]
    exact ⟨_, if_neg (not_not_intro (shortAddress_inj.mpr hself)),
      simulates_schedule (.sendRREP f.mesh.originator) (hnoted.learn f) hcalls rfl⟩
  · have hne := mt shortAddress_inj.mp hself
    rw [if_pos hself]
    by_cases hend : f.mesh.hopsLeft = 0 ∨ f.mesh.originator = v
    · rw [if_pos hend]
      exact ⟨_, (if_pos hne).trans (if_pos (hend.imp_right shortAddress_inj.mpr)),
        simulates_quiet hnoted hcalls⟩
    · rw [if_neg hend]
      exact ⟨_, (if_pos hne).trans (if_neg fun hs => hend (hs.imp_right shortAddress_inj.mp)),
        simulates_schedule (.doSendRREQ f.relayed seq f.stamp (f.depth + 1)) (hnoted.learn f)
          hcalls rfl⟩

/-- **The device in LOAD mode is a node of the model.**  A device that holds what a node holds,
and gets a packet with the headers of a frame, carries out the handler of the model. -/
theorem receiveMesh_receive :
    ∃ b, d.receiveMesh src p = .ok b ∧
      b.Simulates meshCacheLength v p.rest net (net.receive meshCacheLength v f) := by
  unfold NetDevice.receiveMesh LoadNetwork.receive
  rw [h.dataFlooding, h.greedyRouting, h.loadRouting, if_neg Bool.false_ne_true,
    if_neg Bool.false_ne_true]
  cases hbody : f.body with
  | rreq seq =>
    rw [if_pos (hframe.hasRREQ.mpr ⟨seq, hbody⟩)]
    exact receiveRREQ_receiveRREQ h hframe hsrc (hframe.seqNumber seq hbody)
  | rrep =>
    rw [if_neg fun hreq => ?_, if_pos (hframe.hasRREP.mpr hbody)]
    · exact receiveRREP_receiveRREP h hframe hsrc
    · obtain ⟨seq, hseq⟩ := hframe.hasRREQ.mp hreq
      cases hbody.symm.trans hseq
  | data =>
    rw [if_neg fun hreq => ?_, if_neg fun hrep => ?_, if_pos rfl]
    · exact receiveLoad_receiveData h hframe
    · cases hbody.symm.trans (hframe.hasRREP.mp hrep)
    · obtain ⟨seq, hseq⟩ := hframe.hasRREQ.mp hreq
      cases hbody.symm.trans hseq

end

end Ns3Dsme.SixLowPan
