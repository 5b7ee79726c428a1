/-
# The octets of the mesh headers

The dispatch values, and the headers that `SixLowPanNetDevice` puts in front of a compressed
packet, octet by octet.  The two mesh headers write a hop count above 15 into an octet of its
own, which their receivers do not read; the one with positions sets the lowest bit of the hop
count, because its dispatch value does.
-/
import Ns3Dsme.SixLowPan.Hc1

open Octet

namespace Ns3Dsme.SixLowPan

/-! ## Dispatch values -/

/-- `Dispatch_e`. -/
inductive Dispatch
  | nalp
  | ipv6
  | hc1
  | bc0
  | iphc
  | mesh
  | frag1
  | fragn
  | unsupported
  | helloM
  | meshGEO
  | rreq
  | rrep
  deriving DecidableEq, Repr

/-- `GetDispatchType`. -/
def getDispatchType (dispatch : Octet) : Dispatch :=
  if dispatch ≤ 0x3F then .nalp
  else if dispatch = 0x4F then .helloM
  else if dispatch = 0x51 then .rreq
  else if dispatch = 0x52 then .rrep
  else if dispatch &&& 0xC1 = 0x81 then .meshGEO
  else if dispatch = 0x41 then .ipv6
  else if dispatch = 0x42 then .hc1
  else if dispatch = 0x50 then .bc0
  else if 0x60 ≤ dispatch ∧ dispatch ≤ 0x7F then .iphc
  else if 0x80 ≤ dispatch ∧ dispatch ≤ 0xBF then .mesh
  else if 0xC0 ≤ dispatch ∧ dispatch ≤ 0xC7 then .frag1
  else if 0xE0 ≤ dispatch ∧ dispatch ≤ 0xE7 then .fragn
  else .unsupported

/-! ## Addresses -/

/-- An `Address` in a mesh header: none yet, a short or an extended one. -/
inductive MeshAddress
  | empty
  | short (a b : Octet)
  | extended (o : Octets8)
  deriving DecidableEq

namespace MeshAddress

def isShort : MeshAddress → Bool
  | .short _ _ => true
  | _ => false

def octets : MeshAddress → List Octet
  | .empty => []
  | .short a b => [a, b]
  | .extended o => o.toList

/-- `IsBroadcast` or `IsMulticast` of a short address. -/
def isGroup : MeshAddress → Bool
  | .short a b => (a == 0xff && b == 0xff) || a >>> 5 == 4
  | _ => false

/-- Read an address of two or of eight octets. -/
def read (isShort : Bool) (octets : List Octet) :
    Except PacketFault (MeshAddress × List Octet) :=
  match isShort with
  | true => do
    let (a, octets) ← readU8 octets
    let (b, octets) ← readU8 octets
    return (.short a b, octets)
  | false => do
    let (o, octets) ← readOctets8 octets
    return (.extended o, octets)

/-- The address has been set. -/
def IsSet : MeshAddress → Prop
  | .empty => False
  | _ => True

theorem read_append (a : MeshAddress) (rest : List Octet) (h : a.IsSet) :
    read a.isShort (a.octets ++ rest) = .ok (a, rest) := by
  cases a with
  | empty => exact h.elim
  | short a b => rfl
  | extended o => rfl

end MeshAddress

/-! ## Mesh headers -/

/-- The first octet of a mesh header. -/
def meshOctet (dispatch : Octet) (isShort isShort' : Bool) (hopsLeft : Octet) : Octet :=
  dispatch ||| (if isShort then 0x20 else 0) ||| (if isShort' then 0x10 else 0) |||
    (if hopsLeft ≤ 0xF then hopsLeft else 0xF)

/-- The hop count, if it does not fit into the first octet. -/
def hopsLeftOctets (hopsLeft : Octet) : List Octet := if hopsLeft ≤ 0xF then [] else [hopsLeft]

/-- What both mesh headers write first. -/
def serializeMesh (dispatch : Octet) (originator finalDst : MeshAddress) (hopsLeft : Octet) :
    List Octet :=
  meshOctet dispatch originator.isShort finalDst.isShort hopsLeft ::
    (hopsLeftOctets hopsLeft ++ (originator.octets ++ finalDst.octets))

/-- `SixLowPanMesh`. -/
structure SixLowPanMesh where
  originator : MeshAddress := .empty
  finalDst : MeshAddress := .empty
  hopsLeft : Octet := 0
  deriving DecidableEq

namespace SixLowPanMesh

def serialize (h : SixLowPanMesh) : List Octet :=
  serializeMesh 0x80 h.originator h.finalDst h.hopsLeft

/-- `Deserialize`: the header in front of a packet, and what follows it. -/
def deserialize (octets : List Octet) : Except PacketFault (SixLowPanMesh × List Octet) := do
  let (temp, rest) ← readU8 octets
  if temp &&& 0xC0 ≠ 0x80 then return ({}, octets)
  else
    let (originator, rest) ← MeshAddress.read (temp &&& 0x20 != 0) rest
    let (finalDst, rest) ← MeshAddress.read (temp &&& 0x10 != 0) rest
    return ({ originator, finalDst, hopsLeft := temp &&& 0xF }, rest)

end SixLowPanMesh

/-- `SixLowPanMesh_GEO`. -/
structure SixLowPanMeshGEO where
  originator : MeshAddress := .empty
  finalDst : MeshAddress := .empty
  hopsLeft : Octet := 0
  dstX : BitVec 16 := 0
  dstY : BitVec 16 := 0
  deriving DecidableEq

namespace SixLowPanMeshGEO

def serialize (h : SixLowPanMeshGEO) : List Octet :=
  serializeMesh 0x81 h.originator h.finalDst h.hopsLeft ++ (octets16 h.dstX ++ octets16 h.dstY)

/-- `Deserialize`: the header in front of a packet, and what follows it. -/
def deserialize (octets : List Octet) : Except PacketFault (SixLowPanMeshGEO × List Octet) := do
  let (temp, rest) ← readU8 octets
  let (originator, rest) ← MeshAddress.read (temp &&& 0x20 != 0) rest
  let (finalDst, rest) ← MeshAddress.read (temp &&& 0x10 != 0) rest
  let (x₁, rest) ← readU8 rest
  let (x₀, rest) ← readU8 rest
  let (y₁, rest) ← readU8 rest
  let (y₀, rest) ← readU8 rest
  return ({ originator, finalDst, hopsLeft := temp &&& 0xF
            dstX := word16 x₁ x₀, dstY := word16 y₁ y₀ }, rest)

end SixLowPanMeshGEO

/-! ## The other headers -/

/-- `SixLowPanHelloHeader`. -/
structure SixLowPanHelloHeader where
  address : MeshAddress
  dx : BitVec 16
  dy : BitVec 16

/-- `SixLowPanHelloHeader::Deserialize` behind a hello dispatch. -/
def SixLowPanHelloHeader.deserialize (octets : List Octet) :
    Except PacketFault (SixLowPanHelloHeader × List Octet) := do
  let (_, rest) ← readU8 octets
  let (address, rest) ← MeshAddress.read true rest
  let (x₁, rest) ← readU8 rest
  let (x₀, rest) ← readU8 rest
  let (y₁, rest) ← readU8 rest
  let (y₀, rest) ← readU8 rest
  return ({ address, dx := word16 x₁ x₀, dy := word16 y₁ y₀ }, rest)

/-- `SixLowPanBc0::Serialize`. -/
def serializeBc0 (seqNumber : Octet) : List Octet := [0x50, seqNumber]

/-- `SixLowPanBc0::Deserialize` behind a BC0 dispatch. -/
def deserializeBc0 (octets : List Octet) : Except PacketFault (Octet × List Octet) := do
  let (_, rest) ← readU8 octets
  readU8 rest

/-- `SixLowPanRREQHeader::Serialize`. -/
def serializeRREQ : List Octet := [0x51]

/-- `SixLowPanRREPHeader::Serialize`. -/
def serializeRREP : List Octet := [0x52]

/-! ## What is read back -/

/-- The first octet of a mesh header with positions, as its receiver takes it apart. -/
theorem meshOctet_geo (isShort isShort' : Bool) (hopsLeft : Octet) :
    (meshOctet 0x81 isShort isShort' hopsLeft &&& 0x20 != 0) = isShort ∧
      (meshOctet 0x81 isShort isShort' hopsLeft &&& 0x10 != 0) = isShort' ∧
      meshOctet 0x81 isShort isShort' hopsLeft &&& 0xF
        = (if hopsLeft ≤ 0xF then hopsLeft else 0xF) ||| 1 ∧
      getDispatchType (meshOctet 0x81 isShort isShort' hopsLeft) = .meshGEO := by
  revert hopsLeft
  cases isShort <;> cases isShort' <;> decide +kernel

/-- The first octet of a mesh header, as its receiver takes it apart.  With an odd hop count it is
the dispatch value of the header with positions. -/
theorem meshOctet_mesh (isShort isShort' : Bool) (hopsLeft : Octet) :
    meshOctet 0x80 isShort isShort' hopsLeft &&& 0xC0 = 0x80 ∧
      (meshOctet 0x80 isShort isShort' hopsLeft &&& 0x20 != 0) = isShort ∧
      (meshOctet 0x80 isShort isShort' hopsLeft &&& 0x10 != 0) = isShort' ∧
      meshOctet 0x80 isShort isShort' hopsLeft &&& 0xF
        = (if hopsLeft ≤ 0xF then hopsLeft else 0xF) ∧
      (getDispatchType (meshOctet 0x80 isShort isShort' hopsLeft) = .mesh ∨
        getDispatchType (meshOctet 0x80 isShort isShort' hopsLeft) = .meshGEO) := by
  revert hopsLeft
  cases isShort <;> cases isShort' <;> decide +kernel

/-- A mesh header is read back as it was written, if its hop count fits into the first octet. -/
theorem SixLowPanMesh.deserialize_serialize (h : SixLowPanMesh) (rest : List Octet)
    (horiginator : h.originator.IsSet) (hfinal : h.finalDst.IsSet) (hhops : h.hopsLeft ≤ 0xF) :
    deserialize (h.serialize ++ rest) = .ok (h, rest) := by
  obtain ⟨hdispatch, hsrc, hdst, hleft, -⟩ :=
    meshOctet_mesh h.originator.isShort h.finalDst.isShort h.hopsLeft
  rw [if_pos hhops] at hleft
  unfold serialize serializeMesh hopsLeftOctets
  rw [if_pos hhops, List.nil_append, List.cons_append, List.append_assoc]
  unfold deserialize readU8
  simp only [bind, Except.bind, hdispatch, hsrc, hdst, hleft, ne_eq, not_true_eq_false, if_false,
    MeshAddress.read_append _ _ horiginator, MeshAddress.read_append _ _ hfinal]
  rfl

end Ns3Dsme.SixLowPan
