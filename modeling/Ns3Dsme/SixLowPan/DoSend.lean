/-
# Sending a packet

`SixLowPanNetDevice::DoSend`: the packet is compressed, its size is compared with the MTU of the
device below, and only then the mesh header and the broadcast header are put in front of it.  The
receiving side takes neither of the two forms in which a packet is sent without a mesh: it drops
HC1 packets exactly if it uses HC1 itself, and it expects a dispatch value in front of a packet
that is not compressed.
-/
import Ns3Dsme.SixLowPan.NetDevice

open List Octet Program

namespace Ns3Dsme.SixLowPan

open SixLowPanHc1

/-! ## The sender -/

/-- A device, and the members that `DoSend` uses besides. -/
structure SendingDevice where
  device : NetDevice
  meshUnder : Bool
  bc0Serial : Octet := 0
  /-- `GetMtu` of the device below. -/
  mtu : BitVec 16
  /-- `GetBroadcast` of the device below. -/
  broadcast : MacAddress

/-- A frame that is passed to the device below with `Send`, or with `SendFrom` and a source. -/
structure SentFrame where
  packet : List Octet
  source : Option MacAddress
  destination : MacAddress

/-- What `DoSend` leaves and returns. -/
structure Sending where
  device : SendingDevice
  frames : List SentFrame
  ret : Bool

/-- A pseudo-MAC address of six octets is replaced by the short address in it. -/
def MacAddress.original : MacAddress → MacAddress
  | .mac48 _ _ _ _ e f => .mac16 e f
  | a => a

namespace SendingDevice

/-- The mesh header of a packet, and where it is sent to. -/
def meshHeader (s : SendingDevice) (dest : MacAddress) :
    Except PacketFault (SixLowPanMesh × MacAddress) := do
  let originator ← meshAddress s.device.address
  let finalDst ← meshAddress dest
  let destination := if s.device.dataFlooding then s.broadcast else dest.original
  return ({ originator, finalDst, hopsLeft := 0xF }, destination)

/-- The headers in front of a packet. -/
def addHeaders (s : SendingDevice) (mesh : SixLowPanMesh) (packet : List Octet) : List Octet :=
  mesh.serialize ++
    if s.device.dataFlooding then serializeBc0 s.bc0Serial ++ packet else packet

/-- Only a broadcast uses up a sequence number. -/
def afterHeaders (s : SendingDevice) : SendingDevice :=
  if s.device.dataFlooding then { s with bc0Serial := s.bc0Serial + 1 } else s

/-- `DoSend`.  `lower` is what `Send` and `SendFrom` of the device below return for a frame.  The
size of the packet is cut to 16 bits; a packet above the MTU is given up. -/
def doSend (s : SendingDevice) (lower : SentFrame → Bool) (packet : List Octet)
    (src dest : MacAddress) (doSendFrom : Bool) : Except PacketFault Sending := do
  let packet ← s.device.compress packet dest
  let pktSize := BitVec.ofNat 16 packet.length
  let source := if doSendFrom then some src else none
  if s.meshUnder then
    let (mesh, destination) ← s.meshHeader dest
    if s.mtu < pktSize then return ⟨s, [], false⟩
    else
      let frame : SentFrame := ⟨s.addHeaders mesh packet, source, destination⟩
      return ⟨s.afterHeaders, [frame], lower frame⟩
  else if s.mtu < pktSize then return ⟨s, [], false⟩
  else
    let frame : SentFrame := ⟨packet, source, dest⟩
    return ⟨s, [frame], lower frame⟩

end SendingDevice

/-! ## Sizes -/

/-- The size of a packet after the compression, if that can be done. -/
def compressedSize (useHC1 : Bool) (packet : List Octet) : ℕ :=
  if useHC1 then
    match Ipv6Header.deserialize packet with
    | some (ip, payload) =>
      2 + tcflSize ip.tcfl + nextSize (nextHeaderKind ip.nextHeader)
        + (hopOctets ip.hopLimit).length + payload.length
    | none => packet.length
  else packet.length

/-- The octets of an address in a mesh header. -/
def addressOctets : MacAddress → ℕ
  | .mac8 _ => 0
  | .mac16 _ _ => 2
  | .mac48 _ _ _ _ _ _ => 2
  | .mac64 _ => 8

/-- The size of the headers that are put in front of a packet. -/
def SendingDevice.headerSize (s : SendingDevice) (dest : MacAddress) : ℕ :=
  if s.meshUnder then
    1 + addressOctets s.device.address + addressOctets dest
      + (if s.device.dataFlooding then 2 else 0)
  else 0

/-- Only packets between link-local addresses can be compressed. -/
theorem linkLocal_of_compress {packet packet' : List Octet} {src dst : MacAddress}
    (h : compressLowPanHc1 packet src dst = .ok packet') :
    ∃ ip payload, Ipv6Header.deserialize packet = some (ip, payload) ∧
      ip.source.isLinkLocal = true ∧ ip.destination.isLinkLocal = true := by
  unfold compressLowPanHc1 at h
  split at h
  · rename_i ip payload hread
    refine ⟨ip, payload, hread, ?_⟩
    by_contra hnot
    rw [not_and_or, Bool.not_eq_true, Bool.not_eq_true] at hnot
    unfold addHc1Header at h
    rw [serialize_hc1HeaderOf_of_not_linkLocal ip hnot] at h
    cases hsize : (hc1HeaderOf ip).getSerializedSize with
    | error e =>
      rw [hsize] at h
      cases h
    | ok n =>
      rw [hsize] at h
      cases h
  · cases h

/-- The sizes of the headers that are compressed are as stated. -/
theorem length_of_compressLowPanHc1 {packet packet' : List Octet} {src dst : MacAddress}
    (h : compressLowPanHc1 packet src dst = .ok packet') :
    packet'.length = compressedSize true packet := by
  obtain ⟨ip, payload, hread, hsrc, hdst⟩ := linkLocal_of_compress h
  obtain ⟨tcflOctets, nextOctets, -, -, hwritten, hsize⟩ := serialize_hc1HeaderOf ip hsrc hdst
  unfold compressLowPanHc1 addHc1Header at h
  unfold compressedSize
  rw [if_pos rfl, hread]
  rw [hread] at h
  dsimp only at h ⊢
  rw [hwritten, hsize, ok_bind, ok_bind] at h
  split at h
  · rename_i hlength
    rw [← Except.ok.inj h, length_append, hlength]
  · cases h

/-- The compression puts the HC1 dispatch value in front. -/
theorem first_of_compressLowPanHc1 {packet packet' : List Octet} {src dst : MacAddress}
    (h : compressLowPanHc1 packet src dst = .ok packet') : ∃ rest, packet' = 0x42 :: rest := by
  obtain ⟨ip, payload, hread, hsrc, hdst⟩ := linkLocal_of_compress h
  have hflow := (Ipv6Header.serialize_append hread).2
  obtain ⟨octets, -, hcompress⟩ := exists_compress ip hflow hsrc hdst
  rw [hcompress packet payload src dst hread] at h
  exact ⟨octets ++ payload, (Except.ok.inj h).symm⟩

theorem length_of_compress {d : NetDevice} {packet packet' : List Octet} {dest : MacAddress}
    (h : d.compress packet dest = .ok packet') :
    packet'.length = compressedSize d.useHC1 packet := by
  unfold NetDevice.compress at h
  cases huse : d.useHC1 with
  | true =>
    rw [huse, if_pos rfl] at h
    exact length_of_compressLowPanHc1 h
  | false =>
    rw [huse] at h
    rw [← Except.ok.inj h]
    rfl

/-- An address takes as many octets in a mesh header as its type says. -/
theorem length_octets_of_meshAddress {a : MacAddress} {m : MeshAddress}
    (h : meshAddress a = .ok m) : m.octets.length = addressOctets a := by
  cases a with
  | mac8 => cases h
  | mac16 =>
    cases h
    rfl
  | mac48 =>
    cases h
    rfl
  | mac64 =>
    cases h
    rfl

/-- The headers that are added have the size that is stated. -/
theorem length_addHeaders {s : SendingDevice} {dest destination : MacAddress} {mesh : SixLowPanMesh}
    (hmesh : s.meshHeader dest = .ok (mesh, destination)) (hunder : s.meshUnder = true)
    (packet : List Octet) :
    (s.addHeaders mesh packet).length = packet.length + s.headerSize dest := by
  unfold SendingDevice.meshHeader at hmesh
  cases horiginator : meshAddress s.device.address with
  | error e =>
    rw [horiginator] at hmesh
    cases hmesh
  | ok originator =>
    cases hfinal : meshAddress dest with
    | error e =>
      rw [horiginator, hfinal] at hmesh
      cases hmesh
    | ok finalDst =>
      rw [horiginator, hfinal] at hmesh
      obtain rfl : ({ originator, finalDst, hopsLeft := 0xF } : SixLowPanMesh) = mesh :=
        congrArg Prod.fst (Except.ok.inj hmesh)
      unfold SendingDevice.addHeaders SendingDevice.headerSize SixLowPanMesh.serialize serializeMesh
        hopsLeftOctets
      rw [if_pos hunder, if_pos (show (0xF : Octet) ≤ 0xF by decide), nil_append,
          length_append,
        length_cons, length_append, length_octets_of_meshAddress horiginator,
        length_octets_of_meshAddress hfinal]
      cases s.device.dataFlooding with
      | true =>
        rw [if_pos rfl, if_pos rfl, length_append]
        show _ + (2 + packet.length) = _
        omega
      | false =>
        show _ + packet.length = packet.length + (_ + 0)
        omega

/-! ## No oversized frame -/

/-- What a call of `DoSend` did with a packet that has the given size after the compression. -/
inductive Outcome (s : SendingDevice) (dest : MacAddress) (packet : List Octet) : Sending → Prop
  /-- The packet alone is too large. -/
  | givenUp (r : Sending) (hframes : r.frames = []) (hret : r.ret = false)
      (hlarge : s.mtu < BitVec.ofNat 16 packet.length) : Outcome s dest packet r
  | sent (r : Sending) (f : SentFrame) (hframes : r.frames = [f])
      (hlength : f.packet.length = packet.length + s.headerSize dest)
      (hplain : s.meshUnder = false → f.packet = packet)
      (hfits : ¬ s.mtu < BitVec.ofNat 16 packet.length) : Outcome s dest packet r

variable {s : SendingDevice} {lower : SentFrame → Bool} {packet : List Octet}
  {src dest : MacAddress} {doSendFrom : Bool} {r : Sending}

/-- A call of `DoSend` that returns gives the packet up or sends one frame. -/
theorem outcome_of_doSend (h : s.doSend lower packet src dest doSendFrom = .ok r) :
    ∃ packet', s.device.compress packet dest = .ok packet' ∧ Outcome s dest packet' r := by
  unfold SendingDevice.doSend at h
  cases hcompress : s.device.compress packet dest with
  | error e =>
    rw [hcompress] at h
    cases h
  | ok packet' =>
    refine ⟨packet', rfl, ?_⟩
    rw [hcompress, ok_bind] at h
    dsimp only at h
    cases hunder : s.meshUnder with
    | true =>
      rw [hunder, if_pos rfl] at h
      cases hmesh : s.meshHeader dest with
      | error e =>
        rw [hmesh] at h
        cases h
      | ok m =>
        obtain ⟨mesh, destination⟩ := m
        rw [hmesh, ok_bind] at h
        dsimp only at h
        split at h
        · rename_i hlarge
          cases h
          exact .givenUp _ rfl rfl hlarge
        · rename_i hfits
          cases h
          refine .sent _ _ rfl (length_addHeaders hmesh hunder packet') (fun hplain => ?_) hfits
          rw [hunder] at hplain
          cases hplain
    | false =>
      rw [hunder, if_neg Bool.false_ne_true] at h
      split at h
      · rename_i hlarge
        cases h
        exact .givenUp _ rfl rfl hlarge
      · rename_i hfits
        cases h
        refine .sent _ _ rfl ?_ (fun _ => rfl) hfits
        unfold SendingDevice.headerSize
        rw [hunder]
        rfl

/-- No frame is larger than the MTU, and a packet of the given size with its headers that cannot
be sent within it is reported as failed. -/
structure Sending.RespectsMtu (r : Sending) (mtu : BitVec 16) (size : ℕ) : Prop where
  frames : ∀ f ∈ r.frames, f.packet.length ≤ mtu.toNat
  failed : mtu.toNat < size → r.ret = false

/-- **No oversized frame is sent** exactly if the size of the compressed packet, cut to 16 bits,
is above the MTU, or the packet fits together with the headers that are put in front of it after
the comparison. -/
theorem respectsMtu_iff (s : SendingDevice) (lower : SentFrame → Bool) (packet : List Octet)
    (src dest : MacAddress) (doSendFrom : Bool) (r : Sending)
    (h : s.doSend lower packet src dest doSendFrom = .ok r) :
    r.RespectsMtu s.mtu (compressedSize s.device.useHC1 packet + s.headerSize dest) ↔
      s.mtu.toNat < compressedSize s.device.useHC1 packet % 2 ^ 16 ∨
        compressedSize s.device.useHC1 packet + s.headerSize dest ≤ s.mtu.toNat := by
  obtain ⟨packet', hcompress, houtcome⟩ := outcome_of_doSend h
  rw [← length_of_compress hcompress]
  have hcut : s.mtu < BitVec.ofNat 16 packet'.length ↔ s.mtu.toNat < packet'.length % 2 ^ 16 := by
    rw [BitVec.lt_def, BitVec.toNat_ofNat]
  cases houtcome with
  | givenUp hframes hret hlarge =>
    refine ⟨fun _ => Or.inl (hcut.mp hlarge), fun _ => ⟨?_, fun _ => hret⟩⟩
    rw [hframes]
    intro f hf
    cases hf
  | sent f hframes hlength _ hfits =>
    rw [hcut] at hfits
    constructor
    · intro hrespects
      have hle := hrespects.frames f (by rw [hframes]; exact mem_singleton_self f)
      rw [hlength] at hle
      exact Or.inr hle
    · rintro (hlarge | hle)
      · exact absurd hlarge hfits
      · constructor
        · rw [hframes]
          intro f' hf'
          rw [mem_singleton.mp hf', hlength]
          exact hle
        · exact fun hlt => absurd hle (Nat.not_le.mpr hlt)

/-- A device in flooding mode that does not compress. -/
def floodingSender : SendingDevice where
  device := {
    useHC1 := false, dataFlooding := true, greedyRouting := false, loadRouting := false
    direct := false, address := .mac48 0 0 0 0 0 1 }
  meshUnder := true
  mtu := 109
  broadcast := .mac48 0xff 0xff 0xff 0xff 0xff 0xff

/-- A packet of 109 octets passes the comparison, and a frame of 116 octets is passed to the device
below, also if that refuses it. -/
theorem not_respectsMtu :
    ∃ r, floodingSender.doSend (fun f => f.packet.length ≤ 109) (List.replicate 109 0)
        (.mac16 0 1) (.mac48 0 0 0 0 0 2) false = .ok r ∧
      r.frames.map (fun f => f.packet.length) = [116] ∧
      ¬ r.RespectsMtu floodingSender.mtu (109 + 7) := by
  refine ⟨_, rfl, by decide +kernel, fun h => ?_⟩
  exact absurd (h.frames _ (mem_singleton_self _)) (by decide +kernel)

theorem respectsMtu_small :
    ∃ r, floodingSender.doSend (fun _ => true) [0x60, 1] (.mac16 0 1) (.mac48 0 0 0 0 0 2) false
        = .ok r ∧ r.RespectsMtu floodingSender.mtu (2 + 7) :=
  ⟨_, rfl, (respectsMtu_iff floodingSender (fun _ => true) [0x60, 1] (.mac16 0 1)
    (.mac48 0 0 0 0 0 2) false _ rfl).mpr (Or.inr (by decide))⟩

/-! ## Sending to a neighbor -/

/-- An IPv6 packet starts with the version number 6. -/
theorem first_of_deserialize {packet payload : List Octet} {ip : Ipv6Header}
    (hread : Ipv6Header.deserialize packet = some (ip, payload)) :
    ∃ a rest, packet = a :: rest ∧ a >>> 4 = 6 := by
  unfold Ipv6Header.deserialize at hread
  split at hread
  · rename_i a b c d e f nextHeader hopLimit octets
    obtain ⟨_, hversion, -⟩ := Option.bind_eq_some_iff.mp hread
    rw [Option.guard_eq_some'] at hversion
    refine ⟨a, _, rfl, ?_⟩
    have hhigh : (a >>> 4).setWidth 32 = word32 a b c d >>> 28 := by
      unfold word32
      exact eq_of_sameBits (by simp)
    rw [hversion] at hhigh
    bv_omega
  · cases hread

/-- An uncompressed IPv6 packet has the dispatch value of another compression. -/
theorem getDispatchType_of_version {a : Octet} (h : a >>> 4 = 6) : getDispatchType a = .iphc := by
  have hall : ∀ a : Octet, a >>> 4 = 6 → getDispatchType a = .iphc := by decide +kernel
  exact hall a h

/-- The first octet of a packet, after the compression if there is one, has the dispatch value of
an HC1 packet or of a compression that no device uses. -/
theorem dispatch_of_compress {d : NetDevice} {packet packet' payload : List Octet} {ip : Ipv6Header}
    {dest : MacAddress} (hread : Ipv6Header.deserialize packet = some (ip, payload))
    (h : d.compress packet dest = .ok packet') :
    ∃ a rest, packet' = a :: rest ∧
      getDispatchType a = if d.useHC1 then .hc1 else .iphc := by
  unfold NetDevice.compress at h
  cases huse : d.useHC1 with
  | true =>
    rw [huse, if_pos rfl] at h
    obtain ⟨rest, hrest⟩ := first_of_compressLowPanHc1 h
    exact ⟨0x42, rest, hrest, rfl⟩
  | false =>
    rw [huse, if_neg Bool.false_ne_true] at h
    obtain ⟨a, rest, hrest, hversion⟩ := first_of_deserialize hread
    exact ⟨a, rest, (Except.ok.inj h).symm.trans hrest, getDispatchType_of_version hversion⟩

/-- A packet with such a dispatch value in front has no header that is taken off. -/
theorem parseHeaders_of_dispatch (d : NetDevice) {a : Octet} {rest : List Octet}
    (h : getDispatchType a = .hc1 ∨ getDispatchType a = .iphc) :
    parseHeaders d (a :: rest) = .ok { dispatchRaw := a, rest := a :: rest } := by
  generalize hp : ({ dispatchRaw := a, rest := a :: rest } : Parsed) = p
  have hstart : ({ rest := [] } : Parsed).advance (a :: rest) = p := hp
  have hdispatch : p.dispatch = .hc1 ∨ p.dispatch = .iphc := by
    rw [← hp]
    exact h
  have hno (t : Dispatch) (hhc1 : t ≠ .hc1) (hiphc : t ≠ .iphc) : p.dispatch ≠ t := by
    rintro rfl
    rcases hdispatch with hd | hd
    · exact hhc1 hd
    · exact hiphc hd
  unfold parseHeaders
  rw [hstart]
  unfold Parsed.takeHello
  rw [if_neg (hno _ (by decide) (by decide)), ok_bind]
  unfold Parsed.takeMesh
  rw [if_neg (not_or.mpr ⟨hno _ (by decide) (by decide), hno _ (by decide) (by decide)⟩), ok_bind]
  unfold Parsed.takeBc0
  rw [if_neg (hno _ (by decide) (by decide)), ok_bind]
  unfold Parsed.takeRREQ
  rw [if_neg (hno _ (by decide) (by decide)), ok_bind]
  unfold Parsed.takeRREP
  rw [if_neg (hno _ (by decide) (by decide))]

/-- A receiver that shares the compression of the sender hands nothing up. -/
theorem handUp_of_dispatch {d : NetDevice} {p : Parsed} (src dst : MacAddress)
    (h : p.dispatch = if d.useHC1 then .hc1 else .iphc) : d.handUp p src dst = .ok [] := by
  unfold NetDevice.handUp
  cases huse : d.useHC1 with
  | true =>
    rw [huse, if_pos rfl] at h
    rw [h]
    rfl
  | false =>
    rw [huse, if_neg Bool.false_ne_true] at h
    rw [h]

/-- A packet that is passed to `DoSend` arrives: a frame that is sent is received, and the packet
is handed up with the same octets. -/
def Arrives (s : SendingDevice) (lower : SentFrame → Bool) (receiver : NetDevice)
    (packet : List Octet) (src dest : MacAddress) (doSendFrom : Bool) : Prop :=
  ∃ r, s.doSend lower packet src dest doSendFrom = .ok r ∧ ∃ f ∈ r.frames,
    ∃ receiver' effects,
      receiveFromDevice receiver f.packet s.device.address f.destination
        = .ok (receiver', effects) ∧ .deliver packet ∈ effects

/-- **No IPv6 packet arrives** at a neighbor without a mesh, whether both devices use HC1 or
neither does. -/
theorem not_arrives (s : SendingDevice) (lower : SentFrame → Bool) (receiver : NetDevice)
    (packet payload : List Octet) (ip : Ipv6Header) (src dest : MacAddress) (doSendFrom : Bool)
    (hplain : s.meshUnder = false) (hshared : receiver.useHC1 = s.device.useHC1)
    (hpacket : Ipv6Header.deserialize packet = some (ip, payload)) :
    ¬ Arrives s lower receiver packet src dest doSendFrom := by
  rintro ⟨r, hsend, f, hf, receiver', effects, hreceive, hdeliver⟩
  obtain ⟨packet', hcompress, houtcome⟩ := outcome_of_doSend hsend
  cases houtcome with
  | givenUp hframes =>
    rw [hframes] at hf
    cases hf
  | sent f' hframes _ hsame =>
    rw [hframes, mem_singleton] at hf
    subst hf
    obtain ⟨a, rest, hfirst, hdispatch⟩ := dispatch_of_compress hpacket hcompress
    rw [← hshared] at hdispatch
    have hparse : parseHeaders receiver f.packet
        = .ok { dispatchRaw := a, rest := a :: rest } := by
      rw [hsame hplain, hfirst]
      refine parseHeaders_of_dispatch receiver ?_
      cases huse : receiver.useHC1 with
      | true =>
        rw [huse] at hdispatch
        exact Or.inl hdispatch
      | false =>
        rw [huse] at hdispatch
        exact Or.inr hdispatch
    have hup := handUp_of_dispatch (p := { dispatchRaw := a, rest := a :: rest })
      s.device.address f.destination hdispatch
    rw [receiveFromDevice_of_not_mesh hparse rfl rfl, hup] at hreceive
    cases hreceive
    cases hdeliver

/-- A device without a mesh. -/
def plainDevice (useHC1 : Bool) (address : MacAddress) : NetDevice where
  useHC1 := useHC1
  dataFlooding := false
  greedyRouting := false
  loadRouting := false
  direct := false
  address := address

def plainSender (useHC1 : Bool) : SendingDevice where
  device := plainDevice useHC1 (.mac16 0 1)
  meshUnder := false
  mtu := 109
  broadcast := .mac16 0xff 0xff

/-- What a packet causes at a neighbor, one list for each frame. -/
def effectsAtNeighbor (useHC1 : Bool) (packet : List Octet) :
    Except PacketFault (List (List Effect)) := do
  let r ← (plainSender useHC1).doSend (fun _ => true) packet (.mac16 0 1) (.mac16 0 2) false
  r.frames.mapM fun f => do
    let (_, effects) ← receiveFromDevice (plainDevice useHC1 (.mac16 0 2)) f.packet (.mac16 0 1)
      f.destination
    return effects

/-- A packet between the two link-local addresses of neighbors is sent in one frame, compressed or
not, and the neighbor hands nothing up. -/
theorem not_arrives_samplePacket : effectsAtNeighbor false (samplePacket 64) = .ok [[]] ∧
      effectsAtNeighbor true (samplePacket 64) = .ok [[]] ∧
      ¬ Arrives (plainSender true) (fun _ => true) (plainDevice true (.mac16 0 2)) (samplePacket 64)
        (.mac16 0 1) (.mac16 0 2) false := by
  refine ⟨rfl, rfl, ?_⟩
  rintro ⟨r, hsend, f, hf, receiver', effects, hreceive, hdeliver⟩
  cases hsend
  rw [mem_singleton.mp hf] at hreceive
  cases hreceive
  cases hdeliver

/-- Neither form of the packet arrives. -/
theorem not_arrives_either :
    ¬ Arrives (plainSender false) (fun _ => true) (plainDevice false (.mac16 0 2)) (samplePacket 64)
        (.mac16 0 1) (.mac16 0 2) false ∧
      ¬ Arrives (plainSender true) (fun _ => true) (plainDevice true (.mac16 0 2)) (samplePacket 64)
        (.mac16 0 1) (.mac16 0 2) false :=
  ⟨not_arrives (plainSender false) (fun _ => true) (plainDevice false (.mac16 0 2))
      (samplePacket 64) [5, 7] (sampleHeader 64) (.mac16 0 1) (.mac16 0 2) false rfl rfl
      (by decide +kernel),
    not_arrives (plainSender true) (fun _ => true) (plainDevice true (.mac16 0 2))
      (samplePacket 64) [5, 7] (sampleHeader 64) (.mac16 0 1) (.mac16 0 2) false rfl rfl
      (by decide +kernel)⟩

end Ns3Dsme.SixLowPan
