/-
# IPv6 headers and addresses

What 6LoWPAN reads and builds of IPv6: the fixed header with its octets, and the addresses that
are derived from MAC addresses.
-/
import Ns3Dsme.Lib.Octets

open Octet

namespace Ns3Dsme.SixLowPan

/-! ## Addresses -/

/-- `Address`, as far as it is a MAC address. -/
inductive MacAddress
  | mac8 (a : Octet)
  | mac16 (a b : Octet)
  | mac48 (a b c d e f : Octet)
  | mac64 (o : Octets8)
  deriving DecidableEq

/-- `Ipv6Address`: the first and the last eight octets. -/
structure Ipv6Address where
  network : Octets8
  interface : Octets8
  deriving DecidableEq

namespace Ipv6Address

/-- The first half of `fe80::`. -/
def linkLocalNetwork : Octets8 := ⟨0xfe, 0x80, 0, 0, 0, 0, 0, 0⟩

/-- `IsLinkLocal` compares the first 64 bits. -/
def isLinkLocal (a : Ipv6Address) : Bool := a.network == linkLocalNetwork

/-- The interface identifier that stands for a MAC address. -/
def interfaceOf : MacAddress → Octets8
  | .mac8 a => ⟨0, 0, 0, 0xff, 0xfe, 0, 0, a⟩
  | .mac16 a b => ⟨0, 0, 0, 0xff, 0xfe, 0, a, b⟩
  | .mac48 a b c d e f => ⟨a ^^^ 0x02, b, c, 0xff, 0xfe, d, e, f⟩
  | .mac64 o => o

def makeAutoconfiguredAddress (addr : MacAddress) (network : Octets8) : Ipv6Address :=
  ⟨network, interfaceOf addr⟩

def makeAutoconfiguredLinkLocalAddress (addr : MacAddress) : Ipv6Address :=
  ⟨linkLocalNetwork, interfaceOf addr⟩

theorem isLinkLocal_makeAutoconfiguredLinkLocalAddress (addr : MacAddress) :
    (makeAutoconfiguredLinkLocalAddress addr).isLinkLocal = true :=
  beq_self_eq_true linkLocalNetwork

def isAny (a : Ipv6Address) : Bool := a == ⟨.zero, .zero⟩

def toList (a : Ipv6Address) : List Octet := a.network.toList ++ a.interface.toList

/-- `ReadFrom`. -/
def take? (octets : List Octet) : Option (Ipv6Address × List Octet) := do
  let (network, octets) ← Octets8.take? octets
  let (interface, octets) ← Octets8.take? octets
  return (⟨network, interface⟩, octets)

theorem eq_append_of_take? {octets rest : List Octet} {a : Ipv6Address}
    (h : take? octets = some (a, rest)) : octets = a.toList ++ rest := by
  unfold take? at h
  cases hnetwork : Octets8.take? octets with
  | none =>
    rw [hnetwork] at h
    cases h
  | some first =>
    obtain ⟨network, octets'⟩ := first
    rw [hnetwork] at h
    change ((Octets8.take? octets').bind fun second =>
      some (⟨network, second.1⟩, second.2)) = some (a, rest) at h
    obtain ⟨⟨interface, octets''⟩, hinterface, heq⟩ := Option.bind_eq_some_iff.mp h
    cases heq
    rw [Octets8.eq_append_of_take? hnetwork, Octets8.eq_append_of_take? hinterface]
    exact (List.append_assoc _ _ _).symm

theorem append_inj {a b : Ipv6Address} {rest rest' : List Octet}
    (h : a.toList ++ rest = b.toList ++ rest') : a = b ∧ rest = rest' := by
  unfold toList at h
  rw [List.append_assoc, List.append_assoc] at h
  obtain ⟨hnetwork, h⟩ := Octets8.append_inj h
  obtain ⟨hinterface, hrest⟩ := Octets8.append_inj h
  obtain ⟨network, interface⟩ := a
  obtain ⟨network', interface'⟩ := b
  cases hnetwork
  cases hinterface
  exact ⟨rfl, hrest⟩

end Ipv6Address

/-! ## The header -/

/-- `Ipv6Header`. -/
structure Ipv6Header where
  trafficClass : BitVec 8
  flowLabel : BitVec 32
  payloadLength : BitVec 16
  nextHeader : BitVec 8
  hopLimit : BitVec 8
  source : Ipv6Address
  destination : Ipv6Address
  deriving DecidableEq

namespace Ipv6Header

def IPV6_TCP : BitVec 8 := 6

def IPV6_UDP : BitVec 8 := 17

def IPV6_ICMPV6 : BitVec 8 := 58

/-- The version, the traffic class and the flow label. -/
def vTcFl (h : Ipv6Header) : BitVec 32 :=
  (6 : BitVec 32) <<< 28 ||| h.trafficClass.setWidth 32 <<< 20 ||| h.flowLabel

def serialize (h : Ipv6Header) : List Octet :=
  octets32 h.vTcFl ++ (octets16 h.payloadLength ++
    (h.nextHeader :: h.hopLimit :: (h.source.toList ++ h.destination.toList)))

/-- `Deserialize`: the header in front of a packet, and what follows it. -/
def deserialize : List Octet → Option (Ipv6Header × List Octet)
  | a :: b :: c :: d :: e :: f :: nextHeader :: hopLimit :: octets => do
    let vTcFl := word32 a b c d
    guard (vTcFl >>> 28 = 6)
    let (source, octets) ← Ipv6Address.take? octets
    let (destination, octets) ← Ipv6Address.take? octets
    return ({
      trafficClass := (vTcFl >>> 20 &&& 0xff).setWidth 8
      flowLabel := vTcFl &&& 0xfffff
      payloadLength := word16 e f
      nextHeader, hopLimit, source, destination }, octets)
  | _ => none

/-- The first word is put together again from its fields. -/
theorem vTcFl_of_fields (v : BitVec 32) (h : v >>> 28 = 6) :
    (6 : BitVec 32) <<< 28 ||| ((v >>> 20 &&& 0xff).setWidth 8).setWidth 32 <<< 20 |||
      v &&& 0xfffff = v := by
  have hversion : (v >>> 28) <<< 28 = (6 : BitVec 32) <<< 28 := by rw [h]
  rw [← hversion]
  exact eq_of_sameBits (by simp)

/-- Serialization gives back the packet that was read. -/
theorem serialize_append {octets payload : List Octet} {h : Ipv6Header}
    (hread : deserialize octets = some (h, payload)) :
    h.serialize ++ payload = octets ∧ h.flowLabel &&& 0xfffff = h.flowLabel := by
  unfold deserialize at hread
  split at hread
  · rename_i a b c d e f nextHeader hopLimit octets
    obtain ⟨_, hversion, hread⟩ := Option.bind_eq_some_iff.mp hread
    obtain ⟨⟨source, octets'⟩, hsource, hread⟩ := Option.bind_eq_some_iff.mp hread
    obtain ⟨⟨destination, octets''⟩, hdestination, hread⟩ := Option.bind_eq_some_iff.mp hread
    cases hread
    rw [Option.guard_eq_some'] at hversion
    constructor
    · unfold serialize vTcFl
      dsimp only
      rw [vTcFl_of_fields _ hversion, octets32_word32, octets16_word16,
        Ipv6Address.eq_append_of_take? hsource, Ipv6Address.eq_append_of_take? hdestination]
      simp
    · rw [BitVec.and_assoc, BitVec.and_self]
  · cases hread

/-- A header with the same first word differs in the octets if it differs in a field. -/
theorem serialize_append_inj {h h' : Ipv6Header} {rest rest' : List Octet}
    (heq : h.serialize ++ rest = h'.serialize ++ rest') :
    h.payloadLength = h'.payloadLength ∧ h.nextHeader = h'.nextHeader ∧
      h.hopLimit = h'.hopLimit ∧ h.source = h'.source ∧ h.destination = h'.destination ∧
      rest = rest' := by
  unfold serialize octets32 octets16 at heq
  simp only [List.cons_append, List.nil_append, List.append_assoc, List.cons.injEq] at heq
  obtain ⟨-, -, -, -, hhigh, hlow, hnext, hhop, hrest⟩ := heq
  obtain ⟨hsource, hrest⟩ := Ipv6Address.append_inj hrest
  obtain ⟨hdestination, hrest⟩ := Ipv6Address.append_inj hrest
  refine ⟨octets16_injective ?_, hnext, hhop, hsource, hdestination, hrest⟩
  unfold octets16
  rw [hhigh, hlow]

end Ipv6Header

end Ns3Dsme.SixLowPan
