/-
# 6LoWPAN mesh headers

The two mesh headers of `sixlowpan-header.cc` with short addresses, as far as routing reads
them, and what their serialization does to the hops that are left.
-/
import Ns3Dsme.LrWpan.Fields

namespace Ns3Dsme.SixLowPan

/-- The ways in which a handler of the device does not return. -/
inductive Fault
  | assertFailed
  | signedOverflow
  deriving DecidableEq, Repr

/-- The result of a handler of the device. -/
abbrev Exec (α : Type) := Except Fault α

/-- A position, in the `int16_t` coordinates that hello messages and mesh headers carry. -/
structure Position where
  x : Int16
  y : Int16
  deriving DecidableEq

/-- `SixLowPanMesh`. -/
structure Mesh where
  originator : Mac16Address
  finalDst : Mac16Address
  hopsLeft : BitVec 8
  deriving DecidableEq

/-- The first octet of the serialized header, for two short addresses. -/
def Mesh.firstOctet (hdr : Mesh) : BitVec 8 :=
  0x80 ||| 0x20 ||| 0x10 ||| (if hdr.hopsLeft ≤ 0x0f then hdr.hopsLeft else 0x0f)

/-- The header as its receiver decodes it. -/
def Mesh.received (hdr : Mesh) : Mesh :=
  { hdr with hopsLeft := hdr.firstOctet &&& 0x0f }

/-- `SixLowPanMesh_GEO`. -/
structure MeshGEO where
  originator : Mac16Address
  finalDst : Mac16Address
  hopsLeft : BitVec 8
  dst : Position
  deriving DecidableEq

/-- The first octet of the serialized header, for two short addresses.  The dispatch value of
the header is `0x81`, so the lowest bit of the hops that are left is always sent as 1. -/
def MeshGEO.firstOctet (hdr : MeshGEO) : BitVec 8 :=
  0x81 ||| 0x20 ||| 0x10 ||| (if hdr.hopsLeft ≤ 0x0f then hdr.hopsLeft else 0x0f)

/-- The header as its receiver decodes it. -/
def MeshGEO.received (hdr : MeshGEO) : MeshGEO :=
  { hdr with hopsLeft := hdr.firstOctet &&& 0x0f }

end Ns3Dsme.SixLowPan
