/-
# HC1 compression

`SixLowPanHc1` with its octets, and the compressor and the decompressor of
`SixLowPanNetDevice`.  The compressor knows one mode for an address only, the one for link-local
addresses that are derived from the MAC address, and takes every link-local address for one; the
header leaves out a hop limit of 1, but its receiver always reads one.
-/
import Ns3Dsme.Lib.Program
import Ns3Dsme.SixLowPan.Ipv6

open List Octet Program

namespace Ns3Dsme.SixLowPan

/-- The ways in which the work on a packet ends: a member that was never set is read, the
buffer ends, an assertion fails or `NS_ABORT_MSG` is reached. -/
inductive PacketFault
  | uninitialised
  | overrun
  | assertFailed
  | aborted
  deriving DecidableEq, Repr

/-- Read a member that the constructor does not set. -/
def get {α : Type} : Option α → Except PacketFault α
  | some a => .ok a
  | none => .error .uninitialised

/-- `ReadU8`. -/
def readU8 : List Octet → Except PacketFault (Octet × List Octet)
  | a :: octets => .ok (a, octets)
  | [] => .error .overrun

/-- Eight calls of `ReadU8`. -/
def readOctets8 (octets : List Octet) : Except PacketFault (Octets8 × List Octet) :=
  match Octets8.take? octets with
  | some r => .ok r
  | none => .error .overrun

/-! ## The header -/

/-- `LowPanHc1Addr_e`. -/
inductive LowPanHc1Addr
  | piii
  | piic
  | pcii
  | pcic
  deriving DecidableEq

def LowPanHc1Addr.toOctet : LowPanHc1Addr → Octet
  | .piii => 0x00
  | .piic => 0x01
  | .pcii => 0x02
  | .pcic => 0x03

/-- The mode in the lowest two bits. -/
def LowPanHc1Addr.ofOctet (a : Octet) : LowPanHc1Addr :=
  if a = 0x00 then .piii else if a = 0x01 then .piic else if a = 0x02 then .pcii else .pcic

/-- `LowPanHc1NextHeader_e`. -/
inductive LowPanHc1NextHeader
  | nc
  | udp
  | icmp
  | tcp
  deriving DecidableEq

def LowPanHc1NextHeader.toOctet : LowPanHc1NextHeader → Octet
  | .nc => 0x00
  | .udp => 0x01
  | .icmp => 0x02
  | .tcp => 0x03

/-- The kind of next header in the lowest two bits. -/
def LowPanHc1NextHeader.ofOctet (a : Octet) : LowPanHc1NextHeader :=
  if a = 0x00 then .nc else if a = 0x01 then .udp else if a = 0x02 then .icmp else .tcp

/-- `SixLowPanHc1`.  The constructor sets the hop limit only. -/
structure SixLowPanHc1 where
  hopLimit : Octet := 0
  srcCompression : Option LowPanHc1Addr := none
  srcPrefix : Option Octets8 := none
  srcInterface : Option Octets8 := none
  dstCompression : Option LowPanHc1Addr := none
  dstPrefix : Option Octets8 := none
  dstInterface : Option Octets8 := none
  tcflCompression : Option Bool := none
  trafficClass : Option Octet := none
  flowLabel : Option (BitVec 32) := none
  nextHeaderCompression : Option LowPanHc1NextHeader := none
  nextHeader : Option Octet := none
  hc2HeaderPresent : Option Bool := none

namespace SixLowPanHc1

/-- The octets an address takes in the header. -/
def addressSize : LowPanHc1Addr → ℕ
  | .piii => 16
  | .piic => 8
  | .pcii => 8
  | .pcic => 0

def getSerializedSize (h : SixLowPanHc1) : Except PacketFault ℕ := do
  let src ← get h.srcCompression
  let dst ← get h.dstCompression
  let tcfl ← get h.tcflCompression
  let next ← get h.nextHeaderCompression
  return 2 + addressSize src + addressSize dst + (if tcfl = false then 4 else 0)
    + (if next = .nc then 1 else 0) + (if h.hopLimit ≠ 1 then 1 else 0)

/-- The second octet. -/
def encoding (src dst : LowPanHc1Addr) (tcfl : Bool) (next : LowPanHc1NextHeader) (hc2 : Bool) :
    Octet :=
  let encoding := src.toOctet
  let encoding := encoding <<< 2 ||| dst.toOctet
  let encoding := encoding <<< 1 ||| (if tcfl then 1 else 0)
  let encoding := encoding <<< 2 ||| next.toOctet
  encoding <<< 1 ||| (if hc2 then 1 else 0)

/-- The part of an address that is written. -/
def writeAddress (compression : LowPanHc1Addr) (network interface : Option Octets8) :
    Except PacketFault (List Octet) :=
  match compression with
  | .piii => do return (← get network).toList ++ (← get interface).toList
  | .piic => do return (← get network).toList
  | .pcii => do return (← get interface).toList
  | .pcic => .ok []

/-- The traffic class and the flow label, its lowest octet first. -/
def writeTcfl (tcfl : Bool) (trafficClass : Option Octet) (flowLabel : Option (BitVec 32)) :
    Except PacketFault (List Octet) :=
  match tcfl with
  | true => .ok []
  | false => do
    let trafficClass ← get trafficClass
    let flowLabel ← get flowLabel
    return [trafficClass, (flowLabel &&& 0xff).setWidth 8,
      (flowLabel >>> 8 &&& 0xff).setWidth 8, (flowLabel >>> 16 &&& 0xff).setWidth 8]

/-- The next header, if it is not compressed. -/
def writeNextHeader (next : LowPanHc1NextHeader) (nextHeader : Option Octet) :
    Except PacketFault (List Octet) :=
  if next = .nc then do return [← get nextHeader] else .ok []

def serialize (h : SixLowPanHc1) : Except PacketFault (List Octet) := do
  let src ← get h.srcCompression
  let dst ← get h.dstCompression
  let tcfl ← get h.tcflCompression
  let next ← get h.nextHeaderCompression
  let hc2 ← get h.hc2HeaderPresent
  let hop := if h.hopLimit ≠ 1 then [h.hopLimit] else []
  let srcOctets ← writeAddress src h.srcPrefix h.srcInterface
  let dstOctets ← writeAddress dst h.dstPrefix h.dstInterface
  let tcflOctets ← writeTcfl tcfl h.trafficClass h.flowLabel
  let nextOctets ← writeNextHeader next h.nextHeader
  if hc2 ≠ true then
    .ok (0x42 :: encoding src dst tcfl next hc2 :: (hop ++ srcOctets ++ dstOctets ++ tcflOctets
      ++ nextOctets))
  else .error .assertFailed

/-- The part of an address that is read. -/
def readAddress (compression : LowPanHc1Addr) (octets : List Octet) :
    Except PacketFault (Option Octets8 × Option Octets8 × List Octet) :=
  match compression with
  | .piii => do
    let (network, octets) ← readOctets8 octets
    let (interface, octets) ← readOctets8 octets
    return (some network, some interface, octets)
  | .piic => do
    let (network, octets) ← readOctets8 octets
    return (some network, none, octets)
  | .pcii => do
    let (interface, octets) ← readOctets8 octets
    return (none, some interface, octets)
  | .pcic => .ok (none, none, octets)

/-- The traffic class, and the flow label from three octets. -/
def readTcfl (tcfl : Bool) (octets : List Octet) :
    Except PacketFault (Option Octet × Option (BitVec 32) × List Octet) :=
  match tcfl with
  | true => .ok (none, none, octets)
  | false => do
    let (trafficClass, octets) ← readU8 octets
    let (t₀, octets) ← readU8 octets
    let (t₁, octets) ← readU8 octets
    let (t₂, octets) ← readU8 octets
    let flowLabel : BitVec 32 := t₂.setWidth 32
    let flowLabel := flowLabel <<< 8 ||| t₁.setWidth 32
    let flowLabel := flowLabel <<< 8 ||| t₀.setWidth 32
    return (some trafficClass, some flowLabel, octets)

/-- The next header, which is read only if it is not compressed. -/
def readNextHeader (next : LowPanHc1NextHeader) (octets : List Octet) :
    Except PacketFault (Octet × List Octet) :=
  match next with
  | .nc => readU8 octets
  | .tcp => .ok (Ipv6Header.IPV6_TCP, octets)
  | .udp => .ok (Ipv6Header.IPV6_UDP, octets)
  | .icmp => .ok (Ipv6Header.IPV6_ICMPV6, octets)

/-- What `Deserialize` reads behind the encoding. -/
def readFields (encoding : Octet) (octets : List Octet) :
    Except PacketFault (SixLowPanHc1 × ℕ × List Octet) := do
  let (hopLimit, octets) ← readU8 octets
  let src := LowPanHc1Addr.ofOctet (encoding >>> 6)
  let dst := LowPanHc1Addr.ofOctet (encoding >>> 4 &&& 0x3)
  let tcfl := encoding >>> 3 &&& 0x1 == 1
  let next := LowPanHc1NextHeader.ofOctet (encoding >>> 1 &&& 0x3)
  let hc2 := encoding &&& 0x1 == 1
  let (srcPrefix, srcInterface, octets) ← readAddress src octets
  let (dstPrefix, dstInterface, octets) ← readAddress dst octets
  let (trafficClass, flowLabel, octets) ← readTcfl tcfl octets
  let (nextHeader, octets) ← readNextHeader next octets
  if hc2 ≠ true then
    let h : SixLowPanHc1 := {
      hopLimit, srcPrefix, srcInterface, dstPrefix, dstInterface, trafficClass, flowLabel
      srcCompression := some src
      dstCompression := some dst
      tcflCompression := some tcfl
      nextHeaderCompression := some next
      nextHeader := some nextHeader
      hc2HeaderPresent := some hc2 }
    return (h, ← h.getSerializedSize, octets)
  else .error .assertFailed

/-- `Deserialize`: the header, the size it returns, and the octets behind those it has read. -/
def deserialize (octets : List Octet) : Except PacketFault (SixLowPanHc1 × ℕ × List Octet) := do
  let (dispatch, octets) ← readU8 octets
  if dispatch ≠ 0x42 then return ({}, 0, octets)
  else
    let (encoding, octets) ← readU8 octets
    readFields encoding octets

/-- The next headers that need no octet. -/
def nextHeaderKind (nextHeader : Octet) : LowPanHc1NextHeader :=
  if nextHeader = Ipv6Header.IPV6_UDP then .udp
  else if nextHeader = Ipv6Header.IPV6_TCP then .tcp
  else if nextHeader = Ipv6Header.IPV6_ICMPV6 then .icmp
  else .nc

def setNextHeader (h : SixLowPanHc1) (nextHeader : Octet) : SixLowPanHc1 :=
  { h with
    nextHeader := some nextHeader
    nextHeaderCompression := some (nextHeaderKind nextHeader) }

end SixLowPanHc1

/-! ## Compression -/

/-- `AddHeader`: the header has to fill the space that was reserved for it. -/
def addHc1Header (hc1 : SixLowPanHc1) (packet : List Octet) :
    Except PacketFault (List Octet) := do
  let size ← hc1.getSerializedSize
  let octets ← hc1.serialize
  if octets.length = size then return octets ++ packet else .error .overrun

/-- The header that `CompressLowPanHc1` builds. -/
def hc1HeaderOf (ip : Ipv6Header) : SixLowPanHc1 :=
  let hc1 : SixLowPanHc1 := { hopLimit := ip.hopLimit }
  let hc1 : SixLowPanHc1 :=
    if ip.flowLabel = 0 ∧ ip.trafficClass = 0 then { hc1 with tcflCompression := some true }
    else
      { hc1 with
        tcflCompression := some false
        trafficClass := some ip.trafficClass
        flowLabel := some ip.flowLabel }
  let hc1 : SixLowPanHc1 :=
    if ip.source.isLinkLocal then { hc1 with srcCompression := some .pcic } else hc1
  let hc1 : SixLowPanHc1 :=
    if ip.destination.isLinkLocal then { hc1 with dstCompression := some .pcic } else hc1
  let hc1 := hc1.setNextHeader ip.nextHeader
  { hc1 with hc2HeaderPresent := some false }

/-- `CompressLowPanHc1`.  It does not look at the MAC addresses. -/
def compressLowPanHc1 (packet : List Octet) (_src _dst : MacAddress) :
    Except PacketFault (List Octet) :=
  match Ipv6Header.deserialize packet with
  | some (ip, payload) => addHc1Header (hc1HeaderOf ip) payload
  | none => .error .overrun

/-- The address that stands for the part in the header. -/
def decompressAddress (compression : LowPanHc1Addr) (network interface : Option Octets8)
    (addr : MacAddress) : Except PacketFault Ipv6Address :=
  match compression with
  | .piii => do return ⟨← get network, ← get interface⟩
  | .piic => do
    let a := Ipv6Address.makeAutoconfiguredAddress addr (← get network)
    if a.isAny then .error .aborted else .ok a
  -- six octets of the address are never set
  | .pcii => .error .uninitialised
  | .pcic => .ok (Ipv6Address.makeAutoconfiguredLinkLocalAddress addr)

/-- The traffic class and the flow label, which are 0 if they were left out. -/
def decompressTcfl (tcfl : Bool) (trafficClass : Option Octet) (flowLabel : Option (BitVec 32)) :
    Except PacketFault (Octet × BitVec 32) :=
  match tcfl with
  | true => .ok (0, 0)
  | false => do
    let flowLabel ← get flowLabel
    let trafficClass ← get trafficClass
    return (trafficClass, flowLabel)

/-- `DecompressLowPanHc1`. -/
def decompressLowPanHc1 (packet : List Octet) (src dst : MacAddress) :
    Except PacketFault (List Octet) := do
  let (hc1, size, _) ← SixLowPanHc1.deserialize packet
  let payload := packet.drop size
  let source ←
    decompressAddress (← get hc1.srcCompression) hc1.srcPrefix hc1.srcInterface src
  let destination ←
    decompressAddress (← get hc1.dstCompression) hc1.dstPrefix hc1.dstInterface dst
  let (trafficClass, flowLabel) ←
    decompressTcfl (← get hc1.tcflCompression) hc1.trafficClass hc1.flowLabel
  let nextHeader ← get hc1.nextHeader
  let hc2 ← get hc1.hc2HeaderPresent
  if hc2 = false then
    let ip : Ipv6Header := {
      trafficClass, flowLabel, nextHeader, source, destination
      payloadLength := BitVec.ofNat 16 payload.length
      hopLimit := hc1.hopLimit }
    return ip.serialize ++ payload
  else .error .assertFailed

/-! ## How many octets are read -/

namespace SixLowPanHc1

theorem post_readU8 (octets : List Octet) :
    Post (readU8 octets) fun r => octets.length = r.2.length + 1 := by
  cases octets with
  | nil => trivial
  | cons a octets => rfl

theorem post_readOctets8 (octets : List Octet) :
    Post (readOctets8 octets) fun r => octets.length = r.2.length + 8 := by
  unfold readOctets8
  split
  · rename_i r hr
    obtain ⟨o, rest⟩ := r
    rw [Octets8.eq_append_of_take? hr]
    rfl
  · trivial

theorem post_readAddress (compression : LowPanHc1Addr) (octets : List Octet) :
    Post (readAddress compression octets) fun r =>
      octets.length = r.2.2.length + addressSize compression := by
  cases compression with
  | piii =>
    refine (post_readOctets8 octets).bind fun r hr => ?_
    refine (post_readOctets8 r.2).bind fun r' hr' => ?_
    show octets.length = r'.2.length + 16
    omega
  | piic => exact (post_readOctets8 octets).bind fun r hr => hr
  | pcii => exact (post_readOctets8 octets).bind fun r hr => hr
  | pcic => rfl

/-- The octets that the traffic class and the flow label take. -/
def tcflSize (tcfl : Bool) : ℕ := if tcfl = false then 4 else 0

/-- The octets that the next header takes. -/
def nextSize (next : LowPanHc1NextHeader) : ℕ := if next = .nc then 1 else 0

theorem post_readTcfl (tcfl : Bool) (octets : List Octet) :
    Post (readTcfl tcfl octets) fun r => octets.length = r.2.2.length + tcflSize tcfl := by
  cases tcfl with
  | true => rfl
  | false =>
    refine (post_readU8 octets).bind fun r₀ h₀ => ?_
    refine (post_readU8 r₀.2).bind fun r₁ h₁ => ?_
    refine (post_readU8 r₁.2).bind fun r₂ h₂ => ?_
    refine (post_readU8 r₂.2).bind fun r₃ h₃ => ?_
    show octets.length = r₃.2.length + 4
    omega

theorem post_readNextHeader (next : LowPanHc1NextHeader) (octets : List Octet) :
    Post (readNextHeader next octets) fun r => octets.length = r.2.length + nextSize next := by
  cases next with
  | nc => exact post_readU8 octets
  | udp => rfl
  | icmp => rfl
  | tcp => rfl

/-- The five fields of the encoding do not overlap. -/
theorem encoding_fields (src dst : LowPanHc1Addr) (tcfl : Bool) (next : LowPanHc1NextHeader)
    (hc2 : Bool) :
    LowPanHc1Addr.ofOctet (encoding src dst tcfl next hc2 >>> 6) = src ∧
      LowPanHc1Addr.ofOctet (encoding src dst tcfl next hc2 >>> 4 &&& 0x3) = dst ∧
      (encoding src dst tcfl next hc2 >>> 3 &&& 0x1 == 1) = tcfl ∧
      LowPanHc1NextHeader.ofOctet (encoding src dst tcfl next hc2 >>> 1 &&& 0x3) = next ∧
      (encoding src dst tcfl next hc2 &&& 0x1 == 1) = hc2 := by
  cases src <;> cases dst <;> cases tcfl <;> cases next <;> cases hc2 <;> decide

/-- Behind the encoding, one octet is read for the hop limit, and then what the encoding says. -/
theorem post_readFields (src dst : LowPanHc1Addr) (tcfl : Bool) (next : LowPanHc1NextHeader)
    (hc2 : Bool) (octets : List Octet) :
    Post (readFields (encoding src dst tcfl next hc2) octets) fun r =>
      octets.length =
        r.2.2.length + (1 + addressSize src + addressSize dst + tcflSize tcfl + nextSize next) := by
  obtain ⟨hsrc, hdst, htcfl, hnext, hhc2⟩ := encoding_fields src dst tcfl next hc2
  unfold readFields
  refine (post_readU8 octets).bind fun r₀ h₀ => ?_
  simp only [hsrc, hdst, htcfl, hnext, hhc2]
  refine (post_readAddress src r₀.2).bind fun r₁ h₁ => ?_
  refine (post_readAddress dst r₁.2.2).bind fun r₂ h₂ => ?_
  refine (post_readTcfl tcfl r₂.2.2).bind fun r₃ h₃ => ?_
  refine (post_readNextHeader next r₃.2.2).bind fun r₄ h₄ => ?_
  split
  · refine post_bind fun size _ => ?_
    show octets.length = r₄.2.length +
      (1 + addressSize src + addressSize dst + tcflSize tcfl + nextSize next)
    omega
  · trivial

theorem deserialize_cons (e : Octet) (octets : List Octet) :
    deserialize (0x42 :: e :: octets) = readFields e octets := rfl

/-! ## What is read back -/

/-- A flow label of 20 bits survives. -/
theorem flowLabel_of_octets (f : BitVec 32) (h : f &&& 0xfffff = f) :
    (((f >>> 16 &&& 0xff).setWidth 8 : Octet).setWidth 32 <<< 8 |||
      ((f >>> 8 &&& 0xff).setWidth 8 : Octet).setWidth 32) <<< 8 |||
      ((f &&& 0xff).setWidth 8 : Octet).setWidth 32 = f := by
  rw [← h]
  exact eq_of_sameBits (by simp)

/-- The traffic class and a flow label of 20 bits are read as they were written. -/
theorem readTcfl_append (tcfl : Bool) (tc : Octet) (f : BitVec 32) (h : f &&& 0xfffff = f)
    (octets rest : List Octet) (hwrite : writeTcfl tcfl (some tc) (some f) = .ok octets) :
    octets.length = tcflSize tcfl ∧ readTcfl tcfl (octets ++ rest)
      = .ok (if tcfl then none else some tc, if tcfl then none else some f, rest) := by
  cases tcfl with
  | true =>
    cases hwrite
    exact ⟨rfl, rfl⟩
  | false =>
    cases hwrite
    refine ⟨rfl, ?_⟩
    show Except.ok (some tc, some _, rest) = _
    rw [flowLabel_of_octets f h]
    rfl

/-- A compressed next header is known from its kind. -/
theorem readNextHeader_of_kind (nextHeader : Octet) (octets : List Octet)
    (h : nextHeaderKind nextHeader ≠ .nc) :
    readNextHeader (nextHeaderKind nextHeader) octets = .ok (nextHeader, octets) := by
  revert h
  unfold nextHeaderKind
  split
  · rename_i hudp
    intro _
    rw [hudp]
    rfl
  · split
    · rename_i htcp
      intro _
      rw [htcp]
      rfl
    · split
      · rename_i hicmp
        intro _
        rw [hicmp]
        rfl
      · intro h
        exact absurd rfl h

/-- The next header is read as it was written. -/
theorem readNextHeader_append (nextHeader : Octet) (octets rest : List Octet)
    (hwrite : writeNextHeader (nextHeaderKind nextHeader) (some nextHeader) = .ok octets) :
    octets.length = nextSize (nextHeaderKind nextHeader) ∧
      readNextHeader (nextHeaderKind nextHeader) (octets ++ rest) = .ok (nextHeader, rest) := by
  unfold writeNextHeader at hwrite
  split at hwrite
  · rename_i hnc
    cases hwrite
    rw [hnc]
    exact ⟨rfl, rfl⟩
  · rename_i hkind
    cases hwrite
    refine ⟨?_, readNextHeader_of_kind nextHeader rest hkind⟩
    unfold nextSize
    rw [if_neg hkind]
    rfl

theorem exists_writeTcfl (tcfl : Bool) (tc : Octet) (f : BitVec 32) :
    ∃ octets, writeTcfl tcfl (some tc) (some f) = .ok octets := by
  cases tcfl with
  | true => exact ⟨[], rfl⟩
  | false => exact ⟨_, rfl⟩

theorem exists_writeNextHeader (next : LowPanHc1NextHeader) (nextHeader : Octet) :
    ∃ octets, writeNextHeader next (some nextHeader) = .ok octets := by
  unfold writeNextHeader
  split
  · exact ⟨_, rfl⟩
  · exact ⟨_, rfl⟩

end SixLowPanHc1

/-! ## The compressor and the decompressor together -/

open SixLowPanHc1

/-- Whether the traffic class and the flow label are left out. -/
def Ipv6Header.tcfl (ip : Ipv6Header) : Bool := decide (ip.flowLabel = 0 ∧ ip.trafficClass = 0)

/-- What the compressor says about its header. -/
theorem hc1HeaderOf_eq (ip : Ipv6Header) :
    hc1HeaderOf ip = {
      hopLimit := ip.hopLimit
      srcCompression := if ip.source.isLinkLocal then some .pcic else none
      dstCompression := if ip.destination.isLinkLocal then some .pcic else none
      tcflCompression := some ip.tcfl
      trafficClass := if ip.tcfl then none else some ip.trafficClass
      flowLabel := if ip.tcfl then none else some ip.flowLabel
      nextHeaderCompression := some (nextHeaderKind ip.nextHeader)
      nextHeader := some ip.nextHeader
      hc2HeaderPresent := some false } := by
  unfold hc1HeaderOf Ipv6Header.tcfl
  by_cases htcfl : ip.flowLabel = 0 ∧ ip.trafficClass = 0
  · simp only [if_pos htcfl, decide_eq_true htcfl]
    cases ip.source.isLinkLocal <;> cases ip.destination.isLinkLocal <;> rfl
  · simp only [if_neg htcfl, decide_eq_false htcfl]
    cases ip.source.isLinkLocal <;> cases ip.destination.isLinkLocal <;> rfl

/-- An address that is not link-local is never given a mode, and the encoding is not defined. -/
theorem serialize_hc1HeaderOf_of_not_linkLocal (ip : Ipv6Header)
    (h : ip.source.isLinkLocal = false ∨ ip.destination.isLinkLocal = false) :
    (hc1HeaderOf ip).serialize = .error .uninitialised := by
  rw [hc1HeaderOf_eq]
  cases hsrc : ip.source.isLinkLocal with
  | false => rfl
  | true =>
    rcases h with h | hdst
    · rw [hsrc] at h
      cases h
    · rw [hdst]
      rfl

/-- The hop limit as it is written. -/
def hopOctets (hopLimit : Octet) : List Octet := if hopLimit ≠ 1 then [hopLimit] else []

/-- What is written for two link-local addresses. -/
theorem serialize_hc1HeaderOf (ip : Ipv6Header) (hsrc : ip.source.isLinkLocal = true)
    (hdst : ip.destination.isLinkLocal = true) :
    ∃ tcflOctets nextOctets,
      writeTcfl ip.tcfl (some ip.trafficClass) (some ip.flowLabel) = .ok tcflOctets ∧
      writeNextHeader (nextHeaderKind ip.nextHeader) (some ip.nextHeader) = .ok nextOctets ∧
      (hc1HeaderOf ip).serialize = .ok (0x42 ::
        encoding .pcic .pcic ip.tcfl (nextHeaderKind ip.nextHeader) false ::
        (hopOctets ip.hopLimit ++ (tcflOctets ++ nextOctets))) ∧
      (hc1HeaderOf ip).getSerializedSize = .ok (2 + tcflSize ip.tcfl
        + nextSize (nextHeaderKind ip.nextHeader) + (hopOctets ip.hopLimit).length) := by
  obtain ⟨tcflOctets, htcfl⟩ := exists_writeTcfl ip.tcfl ip.trafficClass ip.flowLabel
  obtain ⟨nextOctets, hnext⟩ :=
    exists_writeNextHeader (nextHeaderKind ip.nextHeader) ip.nextHeader
  have htcfl' : writeTcfl ip.tcfl (if ip.tcfl then none else some ip.trafficClass)
      (if ip.tcfl then none else some ip.flowLabel) = .ok tcflOctets := by
    cases hflag : ip.tcfl with
    | true =>
      rw [hflag] at htcfl
      exact htcfl
    | false =>
      rw [hflag] at htcfl
      exact htcfl
  refine ⟨tcflOctets, nextOctets, htcfl, hnext, ?_, ?_⟩
  · rw [hc1HeaderOf_eq, hsrc, hdst]
    unfold serialize
    show (writeTcfl _ _ _ >>= fun tcflOctets => writeNextHeader _ _ >>= fun nextOctets => _) = _
    rw [htcfl', hnext]
    show Except.ok _ = _
    simp [hopOctets]
  · have hlen : (hopOctets ip.hopLimit).length = if ip.hopLimit ≠ 1 then 1 else 0 := by
      unfold hopOctets
      split
      · rfl
      · rfl
    rw [hc1HeaderOf_eq, hsrc, hdst, hlen]
    rfl

/-- What comes out of the decompressor: the hop limit, the traffic class, the flow label and the
next header are kept, the rest is made anew. -/
def Ipv6Header.rebuilt (ip : Ipv6Header) (payload : List Octet) (src dst : MacAddress) :
    Ipv6Header :=
  { ip with
    payloadLength := BitVec.ofNat 16 payload.length
    source := Ipv6Address.makeAutoconfiguredLinkLocalAddress src
    destination := Ipv6Address.makeAutoconfiguredLinkLocalAddress dst }

/-- A header with another hop limit than 1 is read as it was written. -/
theorem deserialize_hc1HeaderOf (ip : Ipv6Header) (payload : List Octet)
    (hflow : ip.flowLabel &&& 0xfffff = ip.flowLabel) (hhop : ip.hopLimit ≠ 1)
    (tcflOctets nextOctets : List Octet)
    (htcfl : writeTcfl ip.tcfl (some ip.trafficClass) (some ip.flowLabel) = .ok tcflOctets)
    (hnext : writeNextHeader (nextHeaderKind ip.nextHeader) (some ip.nextHeader)
      = .ok nextOctets) :
    deserialize (0x42 :: encoding .pcic .pcic ip.tcfl (nextHeaderKind ip.nextHeader) false ::
        (hopOctets ip.hopLimit ++ (tcflOctets ++ nextOctets)) ++ payload)
      = .ok ({
          hopLimit := ip.hopLimit
          srcCompression := some .pcic
          dstCompression := some .pcic
          tcflCompression := some ip.tcfl
          trafficClass := if ip.tcfl then none else some ip.trafficClass
          flowLabel := if ip.tcfl then none else some ip.flowLabel
          nextHeaderCompression := some (nextHeaderKind ip.nextHeader)
          nextHeader := some ip.nextHeader
          hc2HeaderPresent := some false },
        2 + tcflSize ip.tcfl + nextSize (nextHeaderKind ip.nextHeader) + 1, payload) := by
  obtain ⟨hsrc, hdst, hflag, hkind, hhc2⟩ :=
    encoding_fields .pcic .pcic ip.tcfl (nextHeaderKind ip.nextHeader) false
  obtain ⟨-, htcflRead⟩ := readTcfl_append ip.tcfl ip.trafficClass ip.flowLabel hflow tcflOctets
    (nextOctets ++ payload) htcfl
  obtain ⟨-, hnextRead⟩ := readNextHeader_append ip.nextHeader nextOctets payload hnext
  have hoctets : 0x42 :: encoding .pcic .pcic ip.tcfl (nextHeaderKind ip.nextHeader) false ::
      (hopOctets ip.hopLimit ++ (tcflOctets ++ nextOctets)) ++ payload
      = 0x42 :: encoding .pcic .pcic ip.tcfl (nextHeaderKind ip.nextHeader) false ::
        ip.hopLimit :: (tcflOctets ++ (nextOctets ++ payload)) := by
    unfold hopOctets
    rw [if_pos hhop]
    simp
  rw [hoctets, deserialize_cons]
  unfold readFields readU8
  simp only [hsrc, hdst, hflag, hkind, hhc2]
  show (readTcfl ip.tcfl (tcflOctets ++ (nextOctets ++ payload)) >>= _) = _
  rw [htcflRead]
  show (readNextHeader (nextHeaderKind ip.nextHeader) (nextOctets ++ payload) >>= _) = _
  rw [hnextRead]
  show Except.ok (_, (2 + 0 + 0 + tcflSize ip.tcfl + nextSize (nextHeaderKind ip.nextHeader)
    + if ip.hopLimit ≠ 1 then 1 else 0), payload) = _
  rw [if_pos hhop]

/-- What was left out was 0. -/
theorem decompressTcfl_of_tcfl (ip : Ipv6Header) :
    decompressTcfl ip.tcfl (if ip.tcfl then none else some ip.trafficClass)
      (if ip.tcfl then none else some ip.flowLabel) = .ok (ip.trafficClass, ip.flowLabel) := by
  cases hflag : ip.tcfl with
  | true =>
    obtain ⟨hflow, htc⟩ := of_decide_eq_true hflag
    rw [hflow, htc]
    rfl
  | false => rfl

/-- The three sizes of a header agree: the one it states, the octets it writes, and the octets
that are read and removed from the packet. -/
def SizesAgree (hc1 : SixLowPanHc1) (payload : List Octet) : Prop :=
  ∃ octets hc1', hc1.serialize = .ok octets ∧ hc1.getSerializedSize = .ok octets.length ∧
    deserialize (octets ++ payload) = .ok (hc1', octets.length, payload)

/-- The compression of a packet can be undone, and the sizes of its header agree. -/
structure Hc1Lossless (packet : List Octet) (ip : Ipv6Header) (payload : List Octet)
    (src dst : MacAddress) : Prop where
  restored : ∃ compressed, compressLowPanHc1 packet src dst = .ok compressed ∧
    decompressLowPanHc1 compressed src dst = .ok packet
  sizes : SizesAgree (hc1HeaderOf ip) payload

variable {packet payload : List Octet} {ip : Ipv6Header}

/-- Only link-local addresses can be compressed at all. -/
theorem isLinkLocal_of_sizesAgree (h : SizesAgree (hc1HeaderOf ip) payload) :
    ip.source.isLinkLocal = true ∧ ip.destination.isLinkLocal = true := by
  obtain ⟨octets, -, hserialize, -⟩ := h
  by_contra hnot
  rw [not_and_or, Bool.not_eq_true, Bool.not_eq_true] at hnot
  rw [serialize_hc1HeaderOf_of_not_linkLocal ip hnot] at hserialize
  cases hserialize

/-- A hop limit of 1 is not written, but it is read: one octet more. -/
theorem hopLimit_ne_of_sizesAgree (h : SizesAgree (hc1HeaderOf ip) payload) :
    ip.hopLimit ≠ 1 := by
  obtain ⟨hsrc, hdst⟩ := isLinkLocal_of_sizesAgree h
  obtain ⟨octets, hc1', hserialize, -, hread⟩ := h
  obtain ⟨tcflOctets, nextOctets, htcfl, hnext, hwritten, -⟩ := serialize_hc1HeaderOf ip hsrc hdst
  intro hhop
  have hoctets : octets = 0x42 ::
      encoding .pcic .pcic ip.tcfl (nextHeaderKind ip.nextHeader) false ::
      (tcflOctets ++ nextOctets) := by
    rw [hserialize] at hwritten
    rw [Except.ok.inj hwritten, hhop]
    rfl
  have htcflLength : tcflOctets.length = tcflSize ip.tcfl := by
    cases hflag : ip.tcfl with
    | true =>
      rw [hflag] at htcfl
      cases htcfl
      rfl
    | false =>
      rw [hflag] at htcfl
      cases htcfl
      rfl
  have hnextLength := (readNextHeader_append ip.nextHeader nextOctets payload hnext).1
  rw [hoctets, cons_append, cons_append, deserialize_cons] at hread
  have hcount := (post_readFields .pcic .pcic ip.tcfl (nextHeaderKind ip.nextHeader) false
    (tcflOctets ++ nextOctets ++ payload)).of_eq_ok hread
  rw [length_append, length_append, htcflLength, hnextLength] at hcount
  dsimp only [addressSize] at hcount
  omega

/-- The header that is written instead of that of the packet has at most eight octets. -/
theorem exists_compress (ip : Ipv6Header) (hflow : ip.flowLabel &&& 0xfffff = ip.flowLabel)
    (hsrc : ip.source.isLinkLocal = true) (hdst : ip.destination.isLinkLocal = true) :
    ∃ octets, octets.length ≤ 7 ∧ ∀ packet payload src dst,
      Ipv6Header.deserialize packet = some (ip, payload) →
      compressLowPanHc1 packet src dst = .ok (0x42 :: octets ++ payload) := by
  obtain ⟨tcflOctets, nextOctets, htcfl, hnext, hwritten, hsize⟩ :=
    serialize_hc1HeaderOf ip hsrc hdst
  have htcflLength := (readTcfl_append ip.tcfl ip.trafficClass ip.flowLabel hflow tcflOctets []
    htcfl).1
  have hnextLength := (readNextHeader_append ip.nextHeader nextOctets [] hnext).1
  have htcflLe : tcflSize ip.tcfl ≤ 4 := by
    unfold tcflSize
    split
    · exact Nat.le_refl 4
    · exact Nat.zero_le 4
  have hnextLe : nextSize (nextHeaderKind ip.nextHeader) ≤ 1 := by
    unfold nextSize
    split
    · exact Nat.le_refl 1
    · exact Nat.zero_le 1
  have hhopLe : (hopOctets ip.hopLimit).length ≤ 1 := by
    unfold hopOctets
    split
    · exact Nat.le_refl 1
    · exact Nat.zero_le 1
  have hlength : (hopOctets ip.hopLimit ++ (tcflOctets ++ nextOctets)).length =
      (hopOctets ip.hopLimit).length + (tcflSize ip.tcfl + nextSize (nextHeaderKind ip.nextHeader)) := by
    rw [length_append, length_append, htcflLength, hnextLength]
  refine ⟨encoding .pcic .pcic ip.tcfl (nextHeaderKind ip.nextHeader) false ::
    (hopOctets ip.hopLimit ++ (tcflOctets ++ nextOctets)), ?_,
    fun packet payload src dst hpacket => ?_⟩
  · rw [length_cons, hlength]
    omega
  · unfold compressLowPanHc1 addHc1Header
    rw [hpacket]
    dsimp only
    rw [hsize, hwritten]
    refine if_pos ?_
    rw [length_cons, length_cons, hlength]
    omega

/-- With link-local addresses and a hop limit that is written, the header of the packet is
rebuilt. -/
theorem decompress_compress (hpacket : Ipv6Header.deserialize packet = some (ip, payload))
    (hsrc : ip.source.isLinkLocal = true) (hdst : ip.destination.isLinkLocal = true)
    (hhop : ip.hopLimit ≠ 1) (src dst : MacAddress) :
    SizesAgree (hc1HeaderOf ip) payload ∧
      ∃ compressed, compressLowPanHc1 packet src dst = .ok compressed ∧
        decompressLowPanHc1 compressed src dst
          = .ok ((ip.rebuilt payload src dst).serialize ++ payload) := by
  have hflow := (Ipv6Header.serialize_append hpacket).2
  obtain ⟨tcflOctets, nextOctets, htcfl, hnext, hwritten, hsize⟩ :=
    serialize_hc1HeaderOf ip hsrc hdst
  have hread := deserialize_hc1HeaderOf ip payload hflow hhop tcflOctets nextOctets htcfl hnext
  have htcflLength := (readTcfl_append ip.tcfl ip.trafficClass ip.flowLabel hflow tcflOctets []
    htcfl).1
  have hnextLength := (readNextHeader_append ip.nextHeader nextOctets [] hnext).1
  have hhopLength : (hopOctets ip.hopLimit).length = 1 := by
    unfold hopOctets
    rw [if_pos hhop]
    rfl
  generalize hoctets : 0x42 :: encoding .pcic .pcic ip.tcfl (nextHeaderKind ip.nextHeader) false ::
    (hopOctets ip.hopLimit ++ (tcflOctets ++ nextOctets)) = octets at hwritten hread
  have hlength : octets.length
      = 2 + tcflSize ip.tcfl + nextSize (nextHeaderKind ip.nextHeader) + 1 := by
    rw [← hoctets, length_cons, length_cons, length_append, length_append,
      htcflLength, hnextLength, hhopLength]
    omega
  rw [hhopLength, ← hlength] at hsize
  rw [← hlength] at hread
  refine ⟨⟨octets, _, hwritten, hsize, hread⟩, octets ++ payload, ?_, ?_⟩
  · unfold compressLowPanHc1 addHc1Header
    rw [hpacket]
    dsimp only
    rw [hsize, hwritten]
    exact if_pos rfl
  · have hdrop : (octets ++ payload).drop octets.length = payload := drop_left
    unfold decompressLowPanHc1
    rw [hread]
    show (decompressTcfl ip.tcfl _ _ >>= _) = _
    rw [decompressTcfl_of_tcfl, hdrop]
    rfl

/-- **HC1 compression is lossless for derived link-local addresses.**  The compression of a
packet with an IPv6 header is undone by the decompression with the same MAC addresses, and the
sizes of the header agree, exactly if the source and the destination are the link-local addresses
derived from the MAC addresses, the hop limit is not 1 and the payload length is that of the
payload. -/
theorem hc1Lossless_iff (packet payload : List Octet) (ip : Ipv6Header) (src dst : MacAddress)
    (hpacket : Ipv6Header.deserialize packet = some (ip, payload)) :
    Hc1Lossless packet ip payload src dst ↔
      ip.source = Ipv6Address.makeAutoconfiguredLinkLocalAddress src ∧
      ip.destination = Ipv6Address.makeAutoconfiguredLinkLocalAddress dst ∧
      ip.hopLimit ≠ 1 ∧ ip.payloadLength = BitVec.ofNat 16 payload.length := by
  have hwhole := (Ipv6Header.serialize_append hpacket).1
  constructor
  · rintro ⟨⟨compressed, hcompress, hdecompress⟩, hsizes⟩
    obtain ⟨hsrc, hdst⟩ := isLinkLocal_of_sizesAgree hsizes
    have hhop := hopLimit_ne_of_sizesAgree hsizes
    obtain ⟨-, compressed', hcompress', hrebuilt⟩ :=
      decompress_compress hpacket hsrc hdst hhop src dst
    obtain rfl : compressed = compressed' := Except.ok.inj (hcompress.symm.trans hcompress')
    rw [hdecompress, ← hwhole] at hrebuilt
    obtain ⟨hlength, -, -, hsource, hdestination, -⟩ :=
      Ipv6Header.serialize_append_inj (Except.ok.inj hrebuilt)
    exact ⟨hsource, hdestination, hhop, hlength⟩
  · rintro ⟨hsource, hdestination, hhop, hlength⟩
    have hsrc : ip.source.isLinkLocal = true := by
      rw [hsource]
      exact Ipv6Address.isLinkLocal_makeAutoconfiguredLinkLocalAddress src
    have hdst : ip.destination.isLinkLocal = true := by
      rw [hdestination]
      exact Ipv6Address.isLinkLocal_makeAutoconfiguredLinkLocalAddress dst
    obtain ⟨hsizes, compressed, hcompress, hrebuilt⟩ :=
      decompress_compress hpacket hsrc hdst hhop src dst
    refine ⟨⟨compressed, hcompress, ?_⟩, hsizes⟩
    have hsame : ip.rebuilt payload src dst = ip := by
      unfold Ipv6Header.rebuilt
      rw [← hsource, ← hdestination, ← hlength]
    rw [hrebuilt, hsame, hwhole]

/-- A header between the link-local addresses of two short MAC addresses. -/
def sampleHeader (hopLimit : Octet) : Ipv6Header where
  trafficClass := 0
  flowLabel := 0
  payloadLength := 2
  nextHeader := Ipv6Header.IPV6_UDP
  hopLimit := hopLimit
  source := Ipv6Address.makeAutoconfiguredLinkLocalAddress (.mac16 0 1)
  destination := Ipv6Address.makeAutoconfiguredLinkLocalAddress (.mac16 0 2)

def samplePacket (hopLimit : Octet) : List Octet := (sampleHeader hopLimit).serialize ++ [5, 7]

/-- With a hop limit of 1 the first octet of the payload becomes the hop limit. -/
theorem not_hc1Lossless : Ipv6Header.deserialize (samplePacket 1) = some (sampleHeader 1, [5, 7]) ∧
      (compressLowPanHc1 (samplePacket 1) (.mac16 0 1) (.mac16 0 2) >>= fun compressed =>
        decompressLowPanHc1 compressed (.mac16 0 1) (.mac16 0 2))
        = .ok ({ sampleHeader 5 with payloadLength := 1 }.serialize ++ [7]) ∧
      ¬ Hc1Lossless (samplePacket 1) (sampleHeader 1) [5, 7] (.mac16 0 1) (.mac16 0 2) := by
  refine ⟨by decide +kernel, rfl, fun h => ?_⟩
  exact hopLimit_ne_of_sizesAgree h.sizes rfl

theorem hc1Lossless_samplePacket :
    Hc1Lossless (samplePacket 64) (sampleHeader 64) [5, 7] (.mac16 0 1) (.mac16 0 2) :=
  (hc1Lossless_iff (samplePacket 64) [5, 7] (sampleHeader 64) (.mac16 0 1) (.mac16 0 2)
    (by decide +kernel)).mpr ⟨rfl, rfl, by decide, rfl⟩

end Ns3Dsme.SixLowPan
