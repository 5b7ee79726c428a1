/-
# The mesh headers and their dispatch values

The dispatch value, the flags for the lengths of the addresses and the hops that are left share
the first octet of both mesh headers.  The header with positions has the dispatch value `0x81`,
so it always sets the lowest bit of the hop count, and a plain header with an odd hop count is
taken for one with positions.  A hop count above 15 is written into an octet of its own, which
is never read.
-/
import Ns3Dsme.SixLowPan.HopLimit

open List Octet Program

namespace Ns3Dsme.SixLowPan

/-! ## Sizes -/

/-- What `GetSerializedSize` of both mesh headers counts: the first octet, the hop count if it
does not fit, and the two addresses. -/
def meshSize (originator finalDst : MeshAddress) (hopsLeft : Octet) : ℕ :=
  1 + (if hopsLeft > 0xF then 1 else 0) + (if originator.isShort then 2 else 8)
    + (if finalDst.isShort then 2 else 8)

/-- An address that is set has as many octets as its flag says. -/
theorem MeshAddress.length_octets (a : MeshAddress) (hset : a.IsSet) :
    a.octets.length = if a.isShort then 2 else 8 := by
  cases a with
  | empty => exact hset.elim
  | short => rfl
  | extended => rfl

theorem length_hopsLeftOctets (hopsLeft : Octet) :
    (hopsLeftOctets hopsLeft).length = if hopsLeft > 0xF then 1 else 0 := by
  unfold hopsLeftOctets
  by_cases hle : hopsLeft ≤ 0xF
  · rw [if_pos hle, if_neg (BitVec.not_lt.mpr hle)]
    rfl
  · rw [if_neg hle, if_pos (BitVec.not_le.mp hle)]
    rfl

/-- The stated size is the size that is written. -/
theorem length_serializeMesh (dispatch : Octet) (originator finalDst : MeshAddress)
    (hopsLeft : Octet) (horiginator : originator.IsSet) (hfinal : finalDst.IsSet) :
    (serializeMesh dispatch originator finalDst hopsLeft).length
      = meshSize originator finalDst hopsLeft := by
  unfold serializeMesh meshSize
  rw [length_cons, length_append, length_append, length_hopsLeftOctets,
    MeshAddress.length_octets originator horiginator, MeshAddress.length_octets finalDst hfinal]
  omega

def SixLowPanMesh.getSerializedSize (h : SixLowPanMesh) : ℕ :=
  meshSize h.originator h.finalDst h.hopsLeft

/-- The two coordinates take two octets each. -/
def SixLowPanMeshGEO.getSerializedSize (h : SixLowPanMeshGEO) : ℕ :=
  meshSize h.originator h.finalDst h.hopsLeft + 4

/-! ## Both headers -/

/-- A mesh header of either type. -/
inductive MeshHeader
  | mesh (h : SixLowPanMesh)
  | meshGEO (h : SixLowPanMeshGEO)
  deriving DecidableEq

namespace MeshHeader

def originator : MeshHeader → MeshAddress
  | mesh h => h.originator
  | meshGEO h => h.originator

def finalDst : MeshHeader → MeshAddress
  | mesh h => h.finalDst
  | meshGEO h => h.finalDst

def serialize : MeshHeader → List Octet
  | mesh h => h.serialize
  | meshGEO h => h.serialize

def getSerializedSize : MeshHeader → ℕ
  | mesh h => h.getSerializedSize
  | meshGEO h => h.getSerializedSize

/-- The dispatch type of the header. -/
def dispatch : MeshHeader → Dispatch
  | mesh _ => .mesh
  | meshGEO _ => .meshGEO

/-- `Deserialize` of the type of the header: what is read, the size that is returned, and the
octets behind those that were read.  A plain header gives up at a foreign dispatch value. -/
def deserialize : MeshHeader → List Octet → Except PacketFault (MeshHeader × ℕ × List Octet)
  | mesh _, octets => do
    let (temp, _) ← readU8 octets
    let (h, rest) ← SixLowPanMesh.deserialize octets
    return (mesh h, if temp &&& 0xC0 ≠ 0x80 then 0 else h.getSerializedSize, rest)
  | meshGEO _, octets => do
    let (h, rest) ← SixLowPanMeshGEO.deserialize octets
    return (meshGEO h, h.getSerializedSize, rest)

/-- The addresses have been set. -/
structure AddressesSet (h : MeshHeader) : Prop where
  originator : h.originator.IsSet
  finalDst : h.finalDst.IsSet

/-- The header is sent and received exactly: it has the size that it states, in front of any
packet it is read back with all its octets, and its first octet is of its own dispatch type. -/
structure Exact (h : MeshHeader) : Prop where
  size : h.serialize.length = h.getSerializedSize
  readBack : ∀ rest, h.deserialize (h.serialize ++ rest) = .ok (h, h.serialize.length, rest)
  dispatch : ∀ o ∈ h.serialize.head?, getDispatchType o = h.dispatch

/-- The hop count fits into the first octet and leaves the dispatch value as it is. -/
def HopsFit : MeshHeader → Prop
  | mesh h => h.hopsLeft ≤ 0xF ∧ h.hopsLeft &&& 1 = 0
  | meshGEO h => h.hopsLeft ≤ 0xF ∧ h.hopsLeft &&& 1 = 1

end MeshHeader

/-! ## The first octet -/

/-- A plain header is recognised by an even hop count that fits; otherwise it is taken for one
with positions. -/
theorem getDispatchType_mesh (isShort isShort' : Bool) (hopsLeft : Octet) :
    getDispatchType (meshOctet 0x80 isShort isShort' hopsLeft)
      = if hopsLeft ≤ 0xF ∧ hopsLeft &&& 1 = 0 then .mesh else .meshGEO := by
  have hall : ∀ n : Octet, getDispatchType (meshOctet 0x80 isShort isShort' n)
      = if n ≤ 0xF ∧ n &&& 1 = 0 then .mesh else .meshGEO := by
    cases isShort <;> cases isShort' <;> decide +kernel
  exact hall hopsLeft

/-- The hop count that is read from a header with positions is the one that was written exactly
if it fits and is odd. -/
theorem decodedHops_eq_iff (hopsLeft : Octet) :
    decodedHops hopsLeft = hopsLeft ↔ hopsLeft ≤ 0xF ∧ hopsLeft &&& 1 = 1 := by
  have hall : ∀ n : Octet, decodedHops n = n ↔ n ≤ 0xF ∧ n &&& 1 = 1 := by decide +kernel
  exact hall hopsLeft

/-! ## Reading back -/

/-- A header with positions is read back as it was written, except for its hop count. -/
theorem SixLowPanMeshGEO.deserialize_serialize (h : SixLowPanMeshGEO) (rest : List Octet)
    (horiginator : h.originator.IsSet) (hfinal : h.finalDst.IsSet) (hhops : h.hopsLeft ≤ 0xF) :
    deserialize (h.serialize ++ rest) = .ok ({ h with hopsLeft := decodedHops h.hopsLeft }, rest) := by
  obtain ⟨hsrc, hdst, hleft, -⟩ :=
    meshOctet_geo h.originator.isShort h.finalDst.isShort h.hopsLeft
  unfold serialize serializeMesh hopsLeftOctets octets16
  rw [if_pos hhops]
  simp only [nil_append, cons_append, append_assoc]
  unfold deserialize readU8
  simp only [bind, Except.bind, hsrc, hdst, hleft, MeshAddress.read_append _ _ horiginator,
    MeshAddress.read_append _ _ hfinal, word16_octets16]
  rfl

namespace MeshHeader

/-- A plain header with an even hop count that fits is exact. -/
theorem exact_mesh (h : SixLowPanMesh) (hset : (mesh h).AddressesSet)
    (hfit : h.hopsLeft ≤ 0xF ∧ h.hopsLeft &&& 1 = 0) : (mesh h).Exact := by
  obtain ⟨horiginator, hfinal⟩ := hset
  have hsize := length_serializeMesh 0x80 h.originator h.finalDst h.hopsLeft horiginator hfinal
  have hcode := (meshOctet_mesh h.originator.isShort h.finalDst.isShort h.hopsLeft).1
  have hdispatch := getDispatchType_mesh h.originator.isShort h.finalDst.isShort h.hopsLeft
  rw [if_pos hfit] at hdispatch
  constructor
  · exact hsize
  · intro rest
    have hread := SixLowPanMesh.deserialize_serialize h rest horiginator hfinal hfit.1
    show (SixLowPanMesh.deserialize (h.serialize ++ rest) >>= fun r => _) = _
    rw [hread]
    show Except.ok (mesh h, (if meshOctet 0x80 h.originator.isShort h.finalDst.isShort h.hopsLeft
      &&& 0xC0 ≠ 0x80 then 0 else h.getSerializedSize), rest) = _
    rw [if_neg (fun hne => hne hcode)]
    exact congrArg (fun n => Except.ok (mesh h, n, rest)) hsize.symm
  · intro o ho
    cases ho
    exact hdispatch

/-- A header with positions and an odd hop count that fits is exact. -/
theorem exact_meshGEO (h : SixLowPanMeshGEO) (hset : (meshGEO h).AddressesSet)
    (hfit : h.hopsLeft ≤ 0xF ∧ h.hopsLeft &&& 1 = 1) : (meshGEO h).Exact := by
  obtain ⟨horiginator, hfinal⟩ := hset
  have hsize : h.serialize.length = h.getSerializedSize := by
    unfold SixLowPanMeshGEO.serialize
    rw [length_append, length_serializeMesh 0x81 h.originator h.finalDst h.hopsLeft
      horiginator hfinal]
    rfl
  constructor
  · exact hsize
  · intro rest
    have hread := SixLowPanMeshGEO.deserialize_serialize h rest horiginator hfinal hfit.1
    rw [(decodedHops_eq_iff h.hopsLeft).mpr hfit] at hread
    show (SixLowPanMeshGEO.deserialize (h.serialize ++ rest) >>= fun r => _) = _
    rw [hread]
    exact congrArg (fun n => Except.ok (meshGEO h, n, rest)) hsize.symm
  · intro o ho
    cases ho
    exact (meshOctet_geo h.originator.isShort h.finalDst.isShort h.hopsLeft).2.2.2

/-- What is read as a header with positions has the hop count of its first octet. -/
theorem hopsLeft_of_deserialize {h h' : SixLowPanMeshGEO} {first : Octet} {octets rest : List Octet}
    {n : ℕ} (hread : (meshGEO h').deserialize (first :: octets) = .ok (meshGEO h, n, rest)) :
    h.hopsLeft = first &&& 0xF := by
  change (SixLowPanMeshGEO.deserialize (first :: octets) >>= fun r =>
    .ok (meshGEO r.1, r.1.getSerializedSize, r.2)) = _ at hread
  have hpost := post_deserialize_hopsLeft first octets
  cases hok : SixLowPanMeshGEO.deserialize (first :: octets) with
  | error e =>
    rw [hok] at hread
    cases hread
  | ok r =>
    rw [hok] at hread
    have hsame : r.1 = h := meshGEO.inj (congrArg Prod.fst (Except.ok.inj hread))
    rw [← hsame]
    exact hpost.of_eq_ok hok

/-- **The mesh headers are exact for hop counts of their parity.**  A plain header is sent and
received exactly if its hop count is at most 15 and even, one with positions exactly if it is at
most 15 and odd. -/
theorem exact_iff (h : MeshHeader) (hset : h.AddressesSet) : h.Exact ↔ h.HopsFit := by
  cases h with
  | mesh h =>
    constructor
    · intro hexact
      -- the dispatch value alone decides
      have hdispatch : getDispatchType _ = .mesh := hexact.dispatch _ rfl
      rw [getDispatchType_mesh] at hdispatch
      by_contra hnot
      rw [if_neg (show ¬ (h.hopsLeft ≤ 0xF ∧ h.hopsLeft &&& 1 = 0) from hnot)] at hdispatch
      cases hdispatch
    · exact exact_mesh h hset
  | meshGEO h =>
    constructor
    · intro hexact
      -- the hop count that is read back decides
      obtain ⟨isShort, isShort', rest, hfirst⟩ := carries_serialize h []
      have hread := hexact.readBack []
      rw [show (meshGEO h).serialize ++ [] = _ from hfirst] at hread
      have hhops : h.hopsLeft = decodedHops h.hopsLeft :=
        (hopsLeft_of_deserialize hread).trans (meshOctet_geo isShort isShort' h.hopsLeft).2.2.1
      exact (decodedHops_eq_iff h.hopsLeft).mp hhops.symm
    · exact exact_meshGEO h hset

/-- The hop count with which every packet is sent makes a plain header one with positions; one
less is read back as one more by a header with positions, and 16 as 15. -/
theorem not_exact : ¬ (mesh ⟨.short 0 1, .short 0 2, 15⟩).Exact ∧
      ¬ (meshGEO ⟨.short 0 1, .short 0 2, 14, 3, 4⟩).Exact ∧
      ¬ (mesh ⟨.short 0 1, .short 0 2, 16⟩).Exact := by
  refine ⟨fun h => ?_, fun h => ?_, fun h => ?_⟩
  · exact absurd (h.dispatch _ rfl) (by decide)
  · have hread := h.readBack []
    revert hread
    decide
  · exact absurd (h.dispatch _ rfl) (by decide)

theorem exact_meshGEO_fifteen : (meshGEO ⟨.short 0 1, .extended .zero, 15, 3, 4⟩).Exact :=
  (exact_iff (meshGEO ⟨.short 0 1, .extended .zero, 15, 3, 4⟩) ⟨trivial, trivial⟩).mpr
    ⟨by decide, by decide⟩

end MeshHeader

end Ns3Dsme.SixLowPan
