/-
# BlockAck frames

`CtrlBAckResponseHeader`: its setters, `Serialize`, `Deserialize` and the bitmap.  A failed
assertion or a fatal error, and an access outside of a vector, is `none`.
-/
import Ns3Dsme.Lib.Bitmap
import Ns3Dsme.Lib.Wire
import Ns3Dsme.Wifi.BlockAckWindow
import Mathlib.Algebra.Order.Ring.Int

open Reader

namespace Ns3Dsme.Wifi

/-- `BlockAckType::Variant`. -/
inductive BlockAckVariant
  | basic
  | compressed
  | extendedCompressed
  | multiTid
  | multiSta
  deriving DecidableEq

/-- `BlockAckType`: the variant and the length of each bitmap. -/
structure BlockAckType where
  variant : BlockAckVariant
  bitmapLen : List ℕ
  deriving DecidableEq

/-- The constructor from a variant alone. -/
def BlockAckType.ofVariant : BlockAckVariant → BlockAckType
  | .basic => ⟨.basic, [128]⟩
  | .compressed => ⟨.compressed, [8]⟩
  | .extendedCompressed => ⟨.extendedCompressed, [8]⟩
  | .multiTid => ⟨.multiTid, []⟩
  | .multiSta => ⟨.multiSta, []⟩

abbrev Mac48Address := BitVec 48

/-- `BaInfoInstance`. -/
structure BaInfo where
  aidTidInfo : BitVec 16 := 0
  startingSeq : BitVec 16 := 0
  bitmap : List Octet := []
  ra : Mac48Address := 0
  deriving DecidableEq

/-- The AID11 subfield. -/
def BaInfo.aid11 (info : BaInfo) : BitVec 16 := info.aidTidInfo &&& 0x07ff

/-- The Ack Type subfield. -/
def BaInfo.ackType (info : BaInfo) : Bool := (info.aidTidInfo >>> 11) &&& 0x0001 != 0

/-- The TID subfield. -/
def BaInfo.tid (info : BaInfo) : BitVec 16 := (info.aidTidInfo >>> 12) &&& 0x000f

structure CtrlBAckResponseHeader where
  baAckPolicy : Bool
  baType : BlockAckType
  tidInfo : BitVec 16
  baInfo : List BaInfo
  deriving DecidableEq

namespace CtrlBAckResponseHeader

/-! ## Setters -/

/-- `SetType`. -/
def setType (h : CtrlBAckResponseHeader) (type : BlockAckType) : CtrlBAckResponseHeader :=
  { h with
    baType := type
    baInfo := type.bitmapLen.map fun bitmapLen => { bitmap := List.replicate bitmapLen 0 } }

/-- The constructor. -/
def new : CtrlBAckResponseHeader :=
  setType ⟨false, ⟨.basic, []⟩, 0, []⟩ (.ofVariant .basic)

/-- An entry, with the assertions about its index. -/
def infoAt? (h : CtrlBAckResponseHeader) (index : ℕ) : Option BaInfo :=
  if h.baType.variant = .multiSta ∨ index = 0 then h.baInfo[index]? else none

/-- An entry of a Multi-STA BlockAck, with the assertions. -/
def staInfoAt? (h : CtrlBAckResponseHeader) (index : ℕ) : Option BaInfo :=
  if h.baType.variant = .multiSta then h.baInfo[index]? else none

def setInfo (h : CtrlBAckResponseHeader) (index : ℕ) (f : BaInfo → BaInfo) :
    CtrlBAckResponseHeader :=
  { h with baInfo := h.baInfo.modify index f }

/-- `SetHtImmediateAck`. -/
def setHtImmediateAck (h : CtrlBAckResponseHeader) (immediateAck : Bool) : CtrlBAckResponseHeader :=
  { h with baAckPolicy := immediateAck }

/-- `SetTidInfo`. -/
def setTidInfo (h : CtrlBAckResponseHeader) (tid : Octet) (index : ℕ) :
    Option CtrlBAckResponseHeader := do
  let _ ← h.infoAt? index
  if h.baType.variant ≠ .multiSta then
    return { h with tidInfo := tid.setWidth 16 }
  else
    return h.setInfo index fun info =>
      { info with aidTidInfo := info.aidTidInfo ||| ((tid.setWidth 16 &&& 0x000f) <<< 12) }

/-- `SetStartingSequence`. -/
def setStartingSequence (h : CtrlBAckResponseHeader) (seq : BitVec 16) (index : ℕ) :
    Option CtrlBAckResponseHeader := do
  let _ ← h.infoAt? index
  return h.setInfo index fun info => { info with startingSeq := seq }

/-- `SetAid11`. -/
def setAid11 (h : CtrlBAckResponseHeader) (aid : BitVec 16) (index : ℕ) :
    Option CtrlBAckResponseHeader := do
  let _ ← h.staInfoAt? index
  return h.setInfo index fun info =>
    { info with aidTidInfo := info.aidTidInfo ||| (aid &&& 0x07ff) }

/-- `SetAckType`. -/
def setAckType (h : CtrlBAckResponseHeader) (type : Bool) (index : ℕ) :
    Option CtrlBAckResponseHeader := do
  let _ ← h.staInfoAt? index
  if type then
    return h.setInfo index fun info =>
      { info with aidTidInfo := info.aidTidInfo ||| (1 <<< 11) }
  else
    return h

/-- `SetUnassociatedStaAddress`. -/
def setUnassociatedStaAddress (h : CtrlBAckResponseHeader) (ra : Mac48Address) (index : ℕ) :
    Option CtrlBAckResponseHeader := do
  let info ← h.staInfoAt? index
  if info.aid11 = 2045 then
    return h.setInfo index fun info => { info with ra := ra }
  else none

/-! ## The bitmap -/

/-- How many packets a bitmap of some octets acknowledges. -/
def nAckedMpdus (h : CtrlBAckResponseHeader) (bitmapLen : ℕ) : ℕ :=
  if h.baType.variant = .basic then bitmapLen * 8 / 16 else bitmapLen * 8

/-- `IsInBitmap`. -/
def isInBitmap (h : CtrlBAckResponseHeader) (seq : BitVec 16) (index : ℕ) : Option Bool := do
  let info ← h.infoAt? index
  let bitmapLen ← h.baType.bitmapLen[index]?
  return decide (((seq.toNat : ℤ) - info.startingSeq.toNat + seqnoSpaceSize).tmod seqnoSpaceSize <
    h.nAckedMpdus bitmapLen)

/-- `IndexInBitmap`. -/
def indexInBitmap (h : CtrlBAckResponseHeader) (seq : BitVec 16) (index : ℕ) : Option ℕ := do
  let info ← h.infoAt? index
  let bitmapLen ← h.baType.bitmapLen[index]?
  let i := if info.startingSeq ≤ seq then (seq - info.startingSeq).toNat
    else (BitVec.ofNat 16 seqnoSpaceSize - info.startingSeq + seq).toNat
  if i < h.nAckedMpdus bitmapLen then some i else none

/-- The bit for the packet of an index; a basic bitmap has 16 bits for its fragments. -/
def bitOf (h : CtrlBAckResponseHeader) (i : ℕ) : Option ℕ :=
  match h.baType.variant with
  | .basic => some (i * 2 * 8)
  | .compressed | .extendedCompressed | .multiSta => some i
  | .multiTid => none

/-- `SetReceivedPacket`. -/
def setReceivedPacket (h : CtrlBAckResponseHeader) (seq : BitVec 16) (index : ℕ) :
    Option CtrlBAckResponseHeader := do
  let info ← h.infoAt? index
  let inBitmap ← h.isInBitmap seq index
  if inBitmap then
    let i ← h.indexInBitmap seq index
    let bit ← h.bitOf i
    if bit / 8 < info.bitmap.length then
      return h.setInfo index fun info => { info with bitmap := Bitmap.mark info.bitmap bit }
    else none
  else return h

/-- `IsPacketReceived`. -/
def isPacketReceived (h : CtrlBAckResponseHeader) (seq : BitVec 16) (index : ℕ) :
    Option Bool := do
  let info ← h.infoAt? index
  -- All-ack context
  if h.baType.variant = .multiSta ∧ info.ackType = true ∧ info.tid = 14 then return true
  let inBitmap ← h.isInBitmap seq index
  if inBitmap then
    match h.baType.variant with
    | .basic => return false
    | .compressed | .extendedCompressed | .multiSta =>
      let i ← h.indexInBitmap seq index
      let octet ← info.bitmap[i / 8]?
      return octet &&& Bitmap.mask i != 0
    | .multiTid => none
  else return false

/-! ## Writing -/

/-- `GetSerializedSize`. -/
def getSerializedSize (h : CtrlBAckResponseHeader) : Option ℕ :=
  match h.baType.variant with
  | .basic | .compressed | .extendedCompressed =>
    h.baType.bitmapLen[0]?.map fun bitmapLen => 2 + (2 + bitmapLen)
  | .multiTid => some (2 + (2 + 2 + 8) * (h.tidInfo.toNat + 1))
  | .multiSta => some (h.baType.bitmapLen.foldl
      (fun size bitmapLen => size + (2 + (if bitmapLen > 0 then 2 else 0) + bitmapLen)) 2)

/-- The BA Type subfield. -/
def baTypeField : BlockAckVariant → BitVec 16
  | .basic => 0
  | .compressed => 0x02 <<< 1
  | .extendedCompressed => 0x01 <<< 1
  | .multiTid => 0x03 <<< 1
  | .multiSta => 0x0b <<< 1

/-- `GetBaControl`. -/
def getBaControl (h : CtrlBAckResponseHeader) : BitVec 16 :=
  (if h.baAckPolicy then 0x1 else 0) ||| baTypeField h.baType.variant |||
    (if h.baType.variant ≠ .multiSta then (h.tidInfo <<< 12) &&& (0xf <<< 12) else 0)

/-- The Fragment Number subfield, which encodes the length of the bitmap. -/
def fragmentNumber (h : CtrlBAckResponseHeader) (bitmapLen : ℕ) : BitVec 16 :=
  match h.baType.variant with
  | .compressed => if bitmapLen = 32 then 0x0004 else 0
  | .multiSta =>
    if bitmapLen = 16 then 0x0002 else if bitmapLen = 32 then 0x0004
    else if bitmapLen = 4 then 0x0006 else 0
  | _ => 0

/-- `GetStartingSequenceControl`. -/
def getStartingSequenceControl (h : CtrlBAckResponseHeader) (index : ℕ) : Option (BitVec 16) := do
  let info ← h.infoAt? index
  let bitmapLen ← h.baType.bitmapLen[index]?
  if h.baType.variant = .multiSta ∧
      (h.baInfo.length ≠ h.baType.bitmapLen.length ∨ info.bitmap = []) then none
  else return ((info.startingSeq <<< 4) &&& 0xfff0) ||| h.fragmentNumber bitmapLen

/-- `SerializeBitmap`. -/
def serializeBitmap (h : CtrlBAckResponseHeader) (index : ℕ) : Option (List Octet) := do
  let info ← h.infoAt? index
  if h.baType.variant = .multiTid then none else return info.bitmap

/-- `WriteHtolsbU16`. -/
def octetsLsb16 (w : BitVec 16) : List Octet := lowFirst w 2

/-- `WriteHtolsbU32`. -/
def octetsLsb32 (w : BitVec 32) : List Octet := lowFirst w 4

/-- `WriteTo`. -/
def octetsMac48 (address : Mac48Address) : List Octet := lowFirst address 6

/-- A turn of the loop of `Serialize` over the entries of a Multi-STA BlockAck. -/
def serializeEntry (h : CtrlBAckResponseHeader) (index : ℕ) : Option (List Octet) := do
  let info ← h.staInfoAt? index
  if info.aid11 ≠ 2045 then
    if info.bitmap.length > 0 then
      let ssc ← h.getStartingSequenceControl index
      let bitmap ← h.serializeBitmap index
      return octetsLsb16 info.aidTidInfo ++ (octetsLsb16 ssc ++ bitmap)
    else return octetsLsb16 info.aidTidInfo
  else return octetsLsb16 info.aidTidInfo ++ (octetsLsb32 0 ++ octetsMac48 info.ra)

/-- `Serialize`. -/
def serialize (h : CtrlBAckResponseHeader) : Option (List Octet) :=
  match h.baType.variant with
  | .basic | .compressed | .extendedCompressed => do
    let ssc ← h.getStartingSequenceControl 0
    let bitmap ← h.serializeBitmap 0
    return octetsLsb16 h.getBaControl ++ (octetsLsb16 ssc ++ bitmap)
  | .multiSta => do
    let entries ← (List.range h.baInfo.length).mapM h.serializeEntry
    return octetsLsb16 h.getBaControl ++ entries.flatten
  | .multiTid => none

/-! ## Reading -/

def readLsb16 : Reader (BitVec 16) := word 16 2

def readLsb32 : Reader (BitVec 32) := word 32 4

/-- `ReadFrom`. -/
def readMac48 : Reader Mac48Address := word 48 6

/-- The variant in a BA Control field. -/
def variantOf (ba : BitVec 16) : Option BlockAckVariant :=
  if (ba >>> 1) &&& 0x0f = 0x03 then some .multiTid
  else if (ba >>> 1) &&& 0x0f = 0x01 then some .extendedCompressed
  else if (ba >>> 1) &&& 0x0f = 0x02 then some .compressed
  else if (ba >>> 1) &&& 0x0f = 0 then some .basic
  else if (ba >>> 1) &&& 0x0f = 0x0b then some .multiSta
  else none

/-- `SetBaControl`. -/
def setBaControl (h : CtrlBAckResponseHeader) (ba : BitVec 16) : Option CtrlBAckResponseHeader := do
  let variant ← variantOf ba
  let h := { h with baAckPolicy := ba &&& 0x01 == 1 }.setType (.ofVariant variant)
  if variant ≠ .multiSta then return { h with tidInfo := (ba >>> 12) &&& 0x0f }
  else return h

/-- The bitmap length in a Fragment Number subfield.  An odd one is fragmentation of level 3. -/
def bitmapLenOf (variant : BlockAckVariant) (seqControl : BitVec 16) : Option ℕ :=
  if seqControl &&& 0x0001 = 1 then none
  else if (seqControl >>> 3) &&& 0x0001 = 0 then
    if (seqControl >>> 1) &&& 0x0003 = 0 then some 8
    else if (seqControl >>> 1) &&& 0x0003 = 2 then some 32
    else if variant = .multiSta then
      if (seqControl >>> 1) &&& 0x0003 = 1 then some 16 else some 4
    else none
  else none

/-- The bitmap that follows, as the variant has it. -/
def setBitmapLen (h : CtrlBAckResponseHeader) (seqControl : BitVec 16) (index : ℕ) :
    Option CtrlBAckResponseHeader :=
  match h.baType.variant with
  | .compressed => (bitmapLenOf .compressed seqControl).map fun bitmapLen =>
    h.setType ⟨.compressed, [bitmapLen]⟩
  | .multiSta => (bitmapLenOf .multiSta seqControl).map fun bitmapLen =>
    { h with
      baType := { h.baType with bitmapLen := h.baType.bitmapLen.set index bitmapLen }
      baInfo := h.baInfo.modify index fun info =>
        { info with bitmap := List.replicate bitmapLen 0 } }
  | _ => some h

/-- `SetStartingSequenceControl`. -/
def setStartingSequenceControl (h : CtrlBAckResponseHeader) (seqControl : BitVec 16) (index : ℕ) :
    Option CtrlBAckResponseHeader := do
  let _ ← h.infoAt? index
  let h ← h.setBitmapLen seqControl index
  return h.setInfo index fun info => { info with startingSeq := (seqControl >>> 4) &&& 0x0fff }

/-- `DeserializeBitmap`. -/
def deserializeBitmap (h : CtrlBAckResponseHeader) (index : ℕ) : Reader CtrlBAckResponseHeader := do
  let info ← h.infoAt? index
  let bitmapLen ← h.baType.bitmapLen[index]?
  if h.baType.variant = .multiTid ∨ info.bitmap.length < bitmapLen then fun _ => none
  else
    let octets ← many octet bitmapLen
    return h.setInfo index fun info => { info with bitmap := octets ++ info.bitmap.drop bitmapLen }

/-- A header with an entry more, as `emplace_back` and `push_back` make it. -/
def snoc (h : CtrlBAckResponseHeader) (info : BaInfo) (bitmapLen : ℕ) : CtrlBAckResponseHeader :=
  { h with
    baType := { h.baType with bitmapLen := h.baType.bitmapLen ++ [bitmapLen] }
    baInfo := h.baInfo ++ [info] }

/-- The fields of an entry after its AID TID Info subfield. -/
def deserializeInfo (h : CtrlBAckResponseHeader) (index : ℕ) : Reader CtrlBAckResponseHeader := do
  let info ← h.staInfoAt? index
  if info.aid11 ≠ 2045 then
    if ¬ info.ackType = true ∧ info.tid < 8 then
      let seqControl ← readLsb16
      let h ← h.setStartingSequenceControl seqControl index
      h.deserializeBitmap index
    else return h
  else
    let _ ← readLsb32
    let ra ← readMac48
    -- the length that simulates the size
    return { h with
      baType := { h.baType with
        bitmapLen := h.baType.bitmapLen.set (h.baType.bitmapLen.length - 1) 8 }
      baInfo := h.baInfo.modify (h.baInfo.length - 1) fun info => { info with ra := ra } }

/-- A turn of the loop of `Deserialize` over the entries of a Multi-STA BlockAck. -/
def deserializeEntry (h : CtrlBAckResponseHeader) (index : ℕ) : Reader CtrlBAckResponseHeader := do
  let aidTidInfo ← readLsb16
  (h.snoc { aidTidInfo } 0).deserializeInfo index

/-- The loop, as long as there are octets.  Each turn takes some, so that they come to an end with
the fuel. -/
def deserializeEntries : ℕ → ℕ → CtrlBAckResponseHeader → Reader CtrlBAckResponseHeader
  | 0, _, h => pure h
  | fuel + 1, index, h => do
    let octets ← get
    if octets.isEmpty then return h
    else
      let h ← h.deserializeEntry index
      deserializeEntries fuel (index + 1) h

/-- The fields that `Deserialize` reads. -/
def readFields (h : CtrlBAckResponseHeader) : Reader CtrlBAckResponseHeader := do
  let ba ← readLsb16
  let h ← h.setBaControl ba
  match h.baType.variant with
  | .basic | .compressed | .extendedCompressed =>
    let seqControl ← readLsb16
    let h ← h.setStartingSequenceControl seqControl 0
    h.deserializeBitmap 0
  | .multiSta =>
    let octets ← get
    deserializeEntries octets.length 0 h
  | .multiTid => fun _ => none

/-- `Deserialize`: the header and the number of octets taken. -/
def deserialize (h : CtrlBAckResponseHeader) (octets : List Octet) :
    Option (CtrlBAckResponseHeader × ℕ) :=
  (h.readFields.run octets).map fun r => (r.1, octets.length - r.2.length)

end CtrlBAckResponseHeader

end Ns3Dsme.Wifi
