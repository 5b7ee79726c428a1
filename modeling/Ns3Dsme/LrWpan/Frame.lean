/-
# MAC frames

A packet as the MAC handles it: the MAC header, the decoded body and the size of the
PSDU.  `uid` numbers the packets in the order in which the MAC first sees them, as
`Packet::GetUid` does; two frames with equal contents are still two packets.
-/
import Ns3Dsme.LrWpan.Fields
import Ns3Dsme.Lib.Octets

namespace Ns3Dsme

/-- `LrWpanMacHeader::LrWpanMacType`. -/
inductive LrWpanMacType
  | beacon
  | data
  | acknowledgment
  | command
  | reserved
  deriving DecidableEq, Repr

/-- `LrWpanAddressMode`. -/
inductive LrWpanAddressMode
  | noPanidAddr
  | simpleAddr
  | shortAddr
  | extAddr
  deriving DecidableEq, Repr

/-- `LrWpanMacHeader`, without the fields of the auxiliary security header, which the
MAC always disables. -/
structure LrWpanMacHeader where
  frmType : LrWpanMacType := .data
  seqNum : BitVec 8 := 0
  ackReq : Bool := false
  panIdComp : Bool := false
  ieListPresent : Bool := false
  /-- 0 is IEEE 802.15.4-2003, 1 is -2006 and 2 is 802.15.4e. -/
  frmVer : Fin 4 := 2
  dstAddrMode : LrWpanAddressMode := .noPanidAddr
  dstPanId : BitVec 16 := 0
  shortDstAddr : Mac16Address := 0
  srcAddrMode : LrWpanAddressMode := .noPanidAddr
  srcPanId : BitVec 16 := 0
  shortSrcAddr : Mac16Address := 0
  deriving DecidableEq, Repr

namespace LrWpanMacHeader

def isBeacon (hdr : LrWpanMacHeader) : Bool := hdr.frmType == .beacon

def isData (hdr : LrWpanMacHeader) : Bool := hdr.frmType == .data

def isAcknowledgment (hdr : LrWpanMacHeader) : Bool := hdr.frmType == .acknowledgment

def isCommand (hdr : LrWpanMacHeader) : Bool := hdr.frmType == .command

/-- `LrWpanMacHeader::GetSerializedSize`. -/
def serializedSize (hdr : LrWpanMacHeader) : ℕ :=
  let dst := match hdr.dstAddrMode with
    | .noPanidAddr => 0
    | .simpleAddr => 3
    | .shortAddr => 4
    | .extAddr => 10
  let src := match hdr.srcAddrMode with
    | .noPanidAddr => 0
    | .simpleAddr => if hdr.panIdComp then 1 else 3
    | .shortAddr => if hdr.panIdComp then 2 else 4
    | .extAddr => if hdr.panIdComp then 8 else 10
  3 + dst + src

end LrWpanMacHeader

/-- `LrWpanMacTrailer::GetSerializedSize`. -/
def macTrailerSize : ℕ := 2

/-- What follows the MAC header. -/
inductive FrameBody
  /-- The MSDU of a data frame. -/
  | data (msdu : List Octet)
  /-- A beacon: the superframe specification its payload header decodes to, the DSME PAN
  descriptor if it carries one, and the number of payload octets left behind them. -/
  | beacon (superframeSpec : SuperframeField) (ie : Option DsmePANDescriptorIE)
      (sduLength : ℕ)
  /-- `EnhancedGroupAckDescriptorIE`. -/
  | enhancedGroupAck (groupAckBitmap : BitVec 64)
  /-- `LegacyGroupAckIE`: GACK bitmap, device list, indices and GTS directions. -/
  | legacyGroupAck (gackBitmap : BitVec 16) (devList : BitVec 8) (gackIdx : BitVec 16)
      (directions : BitVec 8)
  /-- A payload of another kind. -/
  | other (payload : List Octet)
  deriving DecidableEq, Repr

/-- A packet with its MAC header. -/
structure Packet where
  hdr : LrWpanMacHeader
  body : FrameBody
  size : ℕ
  uid : ℕ
  deriving DecidableEq, Repr

/-- A data or command frame: what `PdDataConfirm` neither treats as a beacon nor as an
acknowledgment. -/
def Packet.isPayload (p : Packet) : Bool :=
  !p.hdr.isBeacon && !p.hdr.isAcknowledgment

/-- `m_phy->CalculateTxTime(p)`: the airtime of a packet. -/
def calculateTxTime (p : Packet) : ℤ := symbols (frameSymbols p.size)

/-- A transmission takes time. -/
theorem calculateTxTime_pos (p : Packet) : 0 < calculateTxTime p := by
  have h := frameSymbols_pos p.size
  unfold calculateTxTime symbols
  omega

end Ns3Dsme
