/-
# The MAC header on the wire

`LrWpanMacHeader` with all its members: how long it says it is, what `Serialize` writes and what
`Deserialize` reads.
-/
import Ns3Dsme.Lib.BitFields
import Ns3Dsme.Lib.Wire

open BitFields Reader

namespace Ns3Dsme.Codec

/-- `Mac8Address`. -/
abbrev Mac8Address := BitVec 8

/-- `Mac16Address`: the first octet is the more significant one, and it is written last. -/
abbrev Mac16Address := BitVec 16

/-- `Mac64Address`: the first octet is the least significant one, and it is written first. -/
abbrev Mac64Address := BitVec 64

/-! ## Addressing modes and key identifier modes -/

def noAddr : Octet := 0
def simpleAddr : Octet := 1
def shortAddr : Octet := 2
def extAddr : Octet := 3

def implicit : Octet := 0
def noKeySource : Octet := 1
def shortKeySource : Octet := 2
def longKeySource : Octet := 3

/-- The frame control field.  No setter gives a frame type above 7, and the members of one bit are
0 or 1. -/
structure FrameControl where
  frmType : BitVec 3
  secU : Bool
  frmPending : Bool
  ackReq : Bool
  panIdComp : Bool
  reserved : Octet
  seqNumSup : Bool
  ieListPresent : Bool
  dstAddrMode : Octet
  frmVer : Octet
  srcAddrMode : Octet
  deriving DecidableEq

namespace FrameControl

/-- `GetFrameControl`. -/
def getFrameControl (c : FrameControl) : BitVec 16 :=
  c.frmType.setWidth 16 ||| bit c.secU 3 ||| bit c.frmPending 4 ||| bit c.ackReq 5 |||
    bit c.panIdComp 6 ||| bits c.reserved 1 7 ||| bit c.seqNumSup 8 ||| bit c.ieListPresent 9 |||
    bits c.dstAddrMode 3 10 ||| bits c.frmVer 3 12 ||| bits c.srcAddrMode 3 14

/-- `SetFrameControl`. -/
def setFrameControl (frameControl : BitVec 16) : FrameControl where
  frmType := frameControl.setWidth 3
  secU := frameControl.getLsbD 3
  frmPending := frameControl.getLsbD 4
  ackReq := frameControl.getLsbD 5
  panIdComp := frameControl.getLsbD 6
  reserved := ((frameControl >>> 7) &&& 1).setWidth 8
  seqNumSup := frameControl.getLsbD 8
  ieListPresent := frameControl.getLsbD 9
  dstAddrMode := ((frameControl >>> 10) &&& 3).setWidth 8
  frmVer := ((frameControl >>> 12) &&& 3).setWidth 8
  srcAddrMode := ((frameControl >>> 14) &&& 3).setWidth 8

theorem setFrameControl_getFrameControl (c : FrameControl) :
    setFrameControl c.getFrameControl =
      { c with
        reserved := c.reserved &&& 1
        dstAddrMode := c.dstAddrMode &&& 3
        frmVer := c.frmVer &&& 3
        srcAddrMode := c.srcAddrMode &&& 3 } := by
  unfold setFrameControl getFrameControl
  congr 1
  all_goals first
    | (simp [getElem_bit, getElem_bits]; done)
    | (exact eq_of_sameBits (by simp [getElem_bit, getElem_bits]))

/-- What `SetFrameControl` leaves fits into the field again. -/
theorem setFrameControl_lt (frameControl : BitVec 16) :
    (setFrameControl frameControl).reserved.toNat < 2 ∧
      (setFrameControl frameControl).dstAddrMode.toNat < 4 ∧
      (setFrameControl frameControl).frmVer.toNat < 4 ∧
      (setFrameControl frameControl).srcAddrMode.toNat < 4 := by
  have hlt (w : BitVec 16) {mask : BitVec 16} {k : ℕ} (hmask : mask.toNat = 2 ^ k - 1) :
      ((w &&& mask).setWidth 8).toNat < 2 ^ k := by
    rw [BitVec.toNat_setWidth]
    exact lt_of_le_of_lt (Nat.mod_le _ _) (toNat_and_lt w hmask)
  exact ⟨hlt (k := 1) _ rfl, hlt (k := 2) _ rfl, hlt (k := 2) _ rfl, hlt (k := 2) _ rfl⟩

end FrameControl

/-- The security control field. -/
structure SecControl where
  secLevel : Octet
  keyIdMode : Octet
  frmCntSup : Bool
  frmCntSize : Bool
  reserved : Octet
  deriving DecidableEq

namespace SecControl

/-- `GetSecControl`. -/
def getSecControl (c : SecControl) : Octet :=
  bits c.secLevel 7 0 ||| bits c.keyIdMode 3 3 ||| bit c.frmCntSup 5 ||| bit c.frmCntSize 6 |||
    bits c.reserved 1 7

/-- `SetSecControl`. -/
def setSecControl (secControl : Octet) : SecControl where
  secLevel := secControl &&& 7
  keyIdMode := (secControl >>> 3) &&& 3
  frmCntSup := secControl.getLsbD 5
  frmCntSize := secControl.getLsbD 6
  reserved := (secControl >>> 7) &&& 1

theorem setSecControl_getSecControl (c : SecControl) :
    setSecControl c.getSecControl =
      { c with
        secLevel := c.secLevel &&& 7
        keyIdMode := c.keyIdMode &&& 3
        reserved := c.reserved &&& 1 } := by
  unfold setSecControl getSecControl
  congr 1
  all_goals first
    | (simp [getElem_bit, getElem_bits]; done)
    | (exact eq_of_sameBits (by simp [getElem_bit, getElem_bits]))

/-- What `SetSecControl` leaves fits into the field again. -/
theorem setSecControl_lt (secControl : Octet) :
    (setSecControl secControl).secLevel.toNat < 8 ∧ (setSecControl secControl).keyIdMode.toNat < 4 ∧
      (setSecControl secControl).reserved.toNat < 2 :=
  ⟨toNat_and_lt (k := 3) _ rfl, toNat_and_lt (k := 2) _ rfl, toNat_and_lt (k := 1) _ rfl⟩

end SecControl

/-- `LrWpanMacHeader`.  The two key sources share their memory: the short one is the lower half of
the long one. -/
structure LrWpanMacHeader where
  fctrl : FrameControl
  seqNum : Octet
  addrDstPanId : BitVec 16
  addrSimpleDstAddr : Mac8Address
  addrShortDstAddr : Mac16Address
  addrExtDstAddr : Mac64Address
  addrSrcPanId : BitVec 16
  addrSimpleSrcAddr : Mac8Address
  addrShortSrcAddr : Mac16Address
  addrExtSrcAddr : Mac64Address
  auxFrmCntr : BitVec 64
  secctrl : SecControl
  auxKeyIdKeySrc64 : BitVec 64
  auxKeyIdKeyIndex : Octet
  deriving DecidableEq

namespace LrWpanMacHeader

/-- `GetKeyIdSrc32`. -/
def auxKeyIdKeySrc32 (h : LrWpanMacHeader) : BitVec 32 := h.auxKeyIdKeySrc64.setWidth 32

/-- What `SetKeyId` for a short key source leaves in the shared memory. -/
def setKeySrc32 (h : LrWpanMacHeader) (keySrc : BitVec 32) : BitVec 64 :=
  (h.auxKeyIdKeySrc64 >>> 32) <<< 32 ||| keySrc.setWidth 64

/-! ## `GetSerializedSize` -/

def dstSize (h : LrWpanMacHeader) : ℕ :=
  if h.fctrl.dstAddrMode = simpleAddr then 3
  else if h.fctrl.dstAddrMode = shortAddr then 4
  else if h.fctrl.dstAddrMode = extAddr then 10
  else 0

def srcSize (h : LrWpanMacHeader) : ℕ :=
  if h.fctrl.srcAddrMode = simpleAddr then if h.fctrl.panIdComp then 1 else 3
  else if h.fctrl.srcAddrMode = shortAddr then if h.fctrl.panIdComp then 2 else 4
  else if h.fctrl.srcAddrMode = extAddr then if h.fctrl.panIdComp then 8 else 10
  else 0

/-- The octets of the key identifier. -/
def keySize (c : SecControl) : ℕ :=
  if c.keyIdMode = noKeySource then 1
  else if c.keyIdMode = shortKeySource then 5
  else if c.keyIdMode = longKeySource then 9
  else 0

def secSize (h : LrWpanMacHeader) : ℕ :=
  if h.fctrl.secU then
    1 + (if h.secctrl.frmCntSup then 0 else if h.secctrl.frmCntSize then 5 else 4)
      + keySize h.secctrl
  else 0

def getSerializedSize (h : LrWpanMacHeader) : ℕ := 3 + h.dstSize + h.srcSize + h.secSize

/-! ## `Serialize` -/

def writeDst (h : LrWpanMacHeader) : List Octet :=
  if h.fctrl.dstAddrMode = simpleAddr then lowFirst h.addrDstPanId 2 ++ [h.addrSimpleDstAddr]
  else if h.fctrl.dstAddrMode = shortAddr then
    lowFirst h.addrDstPanId 2 ++ lowFirst h.addrShortDstAddr 2
  else if h.fctrl.dstAddrMode = extAddr then
    lowFirst h.addrDstPanId 2 ++ lowFirst h.addrExtDstAddr 8
  else []

/-- The source PAN identifier, without PAN ID compression. -/
def writeSrcPanId (h : LrWpanMacHeader) : List Octet :=
  if h.fctrl.panIdComp then [] else lowFirst h.addrSrcPanId 2

/-- The simple source address is not written. -/
def writeSrc (h : LrWpanMacHeader) : List Octet :=
  if h.fctrl.srcAddrMode = simpleAddr then h.writeSrcPanId
  else if h.fctrl.srcAddrMode = shortAddr then h.writeSrcPanId ++ lowFirst h.addrShortSrcAddr 2
  else if h.fctrl.srcAddrMode = extAddr then h.writeSrcPanId ++ lowFirst h.addrExtSrcAddr 8
  else []

def writeKey (h : LrWpanMacHeader) : List Octet :=
  if h.secctrl.keyIdMode = noKeySource then [h.auxKeyIdKeyIndex]
  else if h.secctrl.keyIdMode = shortKeySource then
    lowFirst h.auxKeyIdKeySrc32 4 ++ [h.auxKeyIdKeyIndex]
  else if h.secctrl.keyIdMode = longKeySource then
    lowFirst h.auxKeyIdKeySrc64 8 ++ [h.auxKeyIdKeyIndex]
  else []

def writeSec (h : LrWpanMacHeader) : List Octet :=
  if h.fctrl.secU then
    [h.secctrl.getSecControl] ++ (lowFirst (h.auxFrmCntr.setWidth 32) 4 ++ h.writeKey)
  else []

def serialize (h : LrWpanMacHeader) : List Octet :=
  lowFirst h.fctrl.getFrameControl 2 ++ ([h.seqNum] ++ (h.writeDst ++ (h.writeSrc ++ h.writeSec)))

/-! ## `Deserialize` -/

/-- In front of a simple address, the octets of the PAN identifier are overwritten and not read, and
the address is not read. -/
def readDst (h : LrWpanMacHeader) : Reader LrWpanMacHeader :=
  if h.fctrl.dstAddrMode = simpleAddr then do
    let _ ← word 16 2
    return h
  else if h.fctrl.dstAddrMode = shortAddr then do
    let panId ← word 16 2
    let addr ← word 16 2
    return { h with addrDstPanId := panId, addrShortDstAddr := addr }
  else if h.fctrl.dstAddrMode = extAddr then do
    let panId ← word 16 2
    let addr ← word 64 8
    return { h with addrDstPanId := panId, addrExtDstAddr := addr }
  else return h

/-- The source PAN identifier; with PAN ID compression it is that of the destination, if there is
one. -/
def readSrcPanId (h : LrWpanMacHeader) : Reader (BitVec 16) :=
  if h.fctrl.panIdComp then
    return if h.fctrl.dstAddrMode ≠ noAddr then h.addrDstPanId else h.addrSrcPanId
  else word 16 2

def readSrc (h : LrWpanMacHeader) : Reader LrWpanMacHeader :=
  if h.fctrl.srcAddrMode = simpleAddr then do
    let panId ← h.readSrcPanId
    return { h with addrSrcPanId := panId }
  else if h.fctrl.srcAddrMode = shortAddr then do
    let panId ← h.readSrcPanId
    let addr ← word 16 2
    return { h with addrSrcPanId := panId, addrShortSrcAddr := addr }
  else if h.fctrl.srcAddrMode = extAddr then do
    let panId ← h.readSrcPanId
    let addr ← word 64 8
    return { h with addrSrcPanId := panId, addrExtSrcAddr := addr }
  else return h

/-- The two arguments of `SetKeyId`.  Both are reads, and the language leaves it to the compiler
which comes first. -/
def readKeyId (inOrder : Bool) (n k : ℕ) : Reader (BitVec n × Octet) :=
  if inOrder then do
    let keySrc ← word n k
    let keyIndex ← octet
    return (keySrc, keyIndex)
  else do
    let keyIndex ← octet
    let keySrc ← word n k
    return (keySrc, keyIndex)

def readKey (inOrder : Bool) (h : LrWpanMacHeader) : Reader LrWpanMacHeader :=
  if h.secctrl.keyIdMode = noKeySource then do
    let keyIndex ← octet
    return { h with auxKeyIdKeyIndex := keyIndex }
  else if h.secctrl.keyIdMode = shortKeySource then do
    let key ← readKeyId inOrder 32 4
    return { h with auxKeyIdKeySrc64 := h.setKeySrc32 key.1, auxKeyIdKeyIndex := key.2 }
  else if h.secctrl.keyIdMode = longKeySource then do
    let key ← readKeyId inOrder 64 8
    return { h with auxKeyIdKeySrc64 := key.1, auxKeyIdKeyIndex := key.2 }
  else return h

def readSec (inOrder : Bool) (h : LrWpanMacHeader) : Reader LrWpanMacHeader :=
  if h.fctrl.secU then do
    let secControl ← octet
    let frmCntr ← word 32 4
    readKey inOrder { h with
      secctrl := SecControl.setSecControl secControl
      auxFrmCntr := frmCntr.setWidth 64 }
  else return h

/-- `Deserialize`, into an object; `inOrder` is the order of the arguments of `SetKeyId`. -/
def deserialize (inOrder : Bool) (h : LrWpanMacHeader) : Reader LrWpanMacHeader := do
  let frameControl ← word 16 2
  let seqNum ← octet
  let h ← readDst { h with fctrl := FrameControl.setFrameControl frameControl, seqNum := seqNum }
  let h ← h.readSrc
  h.readSec inOrder

/-! ## What is promised -/

/-- The fields of a header with this frame control field are the same. -/
structure Same (h h' : LrWpanMacHeader) : Prop where
  fctrl : h'.fctrl = h.fctrl
  seqNum : h'.seqNum = h.seqNum
  dstPanId : h.fctrl.dstAddrMode ≠ noAddr → h'.addrDstPanId = h.addrDstPanId
  simpleDst : h.fctrl.dstAddrMode = simpleAddr → h'.addrSimpleDstAddr = h.addrSimpleDstAddr
  shortDst : h.fctrl.dstAddrMode = shortAddr → h'.addrShortDstAddr = h.addrShortDstAddr
  extDst : h.fctrl.dstAddrMode = extAddr → h'.addrExtDstAddr = h.addrExtDstAddr
  srcPanId : h.fctrl.srcAddrMode ≠ noAddr → h'.addrSrcPanId = h.addrSrcPanId
  simpleSrc : h.fctrl.srcAddrMode = simpleAddr → h'.addrSimpleSrcAddr = h.addrSimpleSrcAddr
  shortSrc : h.fctrl.srcAddrMode = shortAddr → h'.addrShortSrcAddr = h.addrShortSrcAddr
  extSrc : h.fctrl.srcAddrMode = extAddr → h'.addrExtSrcAddr = h.addrExtSrcAddr
  sec : h.fctrl.secU = true → h'.secctrl = h.secctrl ∧ h'.auxFrmCntr = h.auxFrmCntr
  keyIndex : h.fctrl.secU = true → h.secctrl.keyIdMode ≠ implicit →
    h'.auxKeyIdKeyIndex = h.auxKeyIdKeyIndex
  keySrc32 : h.fctrl.secU = true → h.secctrl.keyIdMode = shortKeySource →
    h'.auxKeyIdKeySrc32 = h.auxKeyIdKeySrc32
  keySrc64 : h.fctrl.secU = true → h.secctrl.keyIdMode = longKeySource →
    h'.auxKeyIdKeySrc64 = h.auxKeyIdKeySrc64

/-- Reading what was written, into some object, gives an equal header; as many octets are written
and read as the header says. -/
def RoundTrips (inOrder : Bool) (h h₀ : LrWpanMacHeader) : Prop :=
  h.getSerializedSize = h.serialize.length ∧
    ∀ rest, ∃ h', (deserialize inOrder h₀).run (h.serialize ++ rest) = some (h', rest) ∧ Same h h'

/-- The headers for which this is so. -/
structure Carried (inOrder : Bool) (h h₀ : LrWpanMacHeader) : Prop where
  reserved : h.fctrl.reserved.toNat < 2
  frmVer : h.fctrl.frmVer.toNat < 4
  dstAddrMode : h.fctrl.dstAddrMode = noAddr ∨ h.fctrl.dstAddrMode = shortAddr ∨
    h.fctrl.dstAddrMode = extAddr
  srcAddrMode : h.fctrl.srcAddrMode = noAddr ∨ h.fctrl.srcAddrMode = shortAddr ∨
    h.fctrl.srcAddrMode = extAddr
  srcPanId : h.fctrl.panIdComp = true → h.fctrl.srcAddrMode ≠ noAddr →
    h.addrSrcPanId = if h.fctrl.dstAddrMode ≠ noAddr then h.addrDstPanId else h₀.addrSrcPanId
  secctrl : h.fctrl.secU = true → h.secctrl.secLevel.toNat < 8 ∧ h.secctrl.keyIdMode.toNat < 4 ∧
    h.secctrl.reserved.toNat < 2 ∧ h.secctrl.frmCntSup = false ∧ h.secctrl.frmCntSize = false
  frmCntr : h.fctrl.secU = true → h.auxFrmCntr.toNat < 2 ^ 32
  key : h.fctrl.secU = true → inOrder = false →
    (h.secctrl.keyIdMode = shortKeySource →
      lowFirst h.auxKeyIdKeySrc32 4 = List.replicate 4 h.auxKeyIdKeyIndex) ∧
    (h.secctrl.keyIdMode = longKeySource →
      lowFirst h.auxKeyIdKeySrc64 8 = List.replicate 8 h.auxKeyIdKeyIndex)

end LrWpanMacHeader

end Ns3Dsme.Codec
