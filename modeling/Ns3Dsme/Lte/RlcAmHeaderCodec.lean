/-
# The header of RLC AM PDUs

`LteRlcAmHeader` with the widths of its members: its setters, `Serialize` and `Deserialize`, for
data PDUs and for STATUS PDUs.  The ten bits of a NACK_SN and the two behind it go across octets.
-/
import Ns3Dsme.Lte.SequenceNumber10
import Ns3Dsme.Lte.LengthIndicators

namespace Ns3Dsme.Lte

/-- `LteRlcAmHeader`. -/
structure AmHeader where
  lengths : LengthFields
  dataControlBit : Octet
  resegmentationFlag : Octet
  pollingBit : Octet
  framingInfo : Octet
  sequenceNumber : SequenceNumber10
  lastSegmentFlag : Octet
  segmentOffset : BitVec 16
  lastOffset : BitVec 16
  controlPduType : Octet
  ackSn : SequenceNumber10
  nackSnList : List (BitVec 32)
  deriving DecidableEq

namespace AmHeader

/-- `DATA_PDU`. -/
def dataPdu : Octet := 1

/-- `CONTROL_PDU`. -/
def controlPdu : Octet := 0

/-- `STATUS_PDU`. -/
def statusPdu : Octet := 0

/-- `SEGMENT`. -/
def segment : Octet := 1

/-- The constructor, which does not initialize the last segment flag. -/
def new (lastSegmentFlag : Octet) : AmHeader :=
  { lengths := {}
    dataControlBit := 0xff
    resegmentationFlag := 0xff
    pollingBit := 0xff
    framingInfo := 0xff
    sequenceNumber := ⟨tenBits 0xfffa, tenBits 0⟩
    lastSegmentFlag := lastSegmentFlag
    segmentOffset := 0xffff
    lastOffset := 0xffff
    controlPduType := 0xff
    ackSn := ⟨tenBits 0xffff, tenBits 0⟩
    nackSnList := [] }

/-! ## Setters -/

/-- `SetDataPdu`. -/
def setDataPdu (h : AmHeader) : AmHeader :=
  { h with lengths := { h.lengths with headerLength := 4 }, dataControlBit := dataPdu }

/-- `SetControlPdu`. -/
def setControlPdu (h : AmHeader) (controlPduType : Octet) : AmHeader :=
  { h with
    lengths := { h.lengths with headerLength := 2 }
    dataControlBit := controlPdu
    controlPduType := controlPduType }

/-- `SetFramingInfo`. -/
def setFramingInfo (h : AmHeader) (framingInfo : Octet) : AmHeader :=
  { h with framingInfo := framingInfo &&& 0x03 }

/-- `SetSequenceNumber`. -/
def setSequenceNumber (h : AmHeader) (sequenceNumber : SequenceNumber10) : AmHeader :=
  { h with sequenceNumber := sequenceNumber }

/-- `SetResegmentationFlag`. -/
def setResegmentationFlag (h : AmHeader) (resegFlag : Octet) : AmHeader :=
  { h with resegmentationFlag := resegFlag &&& 0x01 }

/-- `SetPollingBit`. -/
def setPollingBit (h : AmHeader) (pollingBit : Octet) : AmHeader :=
  { h with pollingBit := pollingBit &&& 0x01 }

/-- `SetLastSegmentFlag`. -/
def setLastSegmentFlag (h : AmHeader) (lsf : Octet) : AmHeader :=
  { h with lastSegmentFlag := lsf &&& 0x01 }

/-- `SetSegmentOffset`. -/
def setSegmentOffset (h : AmHeader) (segmentOffset : BitVec 16) : AmHeader :=
  { h with segmentOffset := segmentOffset &&& 0x7FFF }

/-- `SetAckSn`. -/
def setAckSn (h : AmHeader) (ackSn : SequenceNumber10) : AmHeader := { h with ackSn := ackSn }

/-- `PushExtensionBit`. -/
def pushExtensionBit (h : AmHeader) (extensionBit : Octet) : AmHeader :=
  let count := h.lengths.extensionBits.length + 1
  let headerLength :=
    if 1 < count then
      if count % 2 = 1 then h.lengths.headerLength + 1 else h.lengths.headerLength + 2
    else h.lengths.headerLength
  { h with
    lengths := { h.lengths with
      headerLength := headerLength
      extensionBits := h.lengths.extensionBits ++ [extensionBit] } }

/-- `PushLengthIndicator`. -/
def pushLengthIndicator (h : AmHeader) (lengthIndicator : BitVec 16) : AmHeader :=
  { h with lengths := h.lengths.pushLengthIndicator lengthIndicator }

/-- The assertion of the methods for STATUS PDUs. -/
def isStatusPdu (h : AmHeader) : Bool :=
  h.dataControlBit == controlPdu && h.controlPduType == statusPdu

/-- `OneMoreNackWouldFitIn`. -/
def oneMoreNackWouldFitIn (h : AmHeader) (bytes : BitVec 16) : Option Bool :=
  if h.isStatusPdu then
    if h.nackSnList.length % 2 = 0 then some (h.lengths.headerLength.toNat < bytes.toNat)
    else some (decide ((h.lengths.headerLength.toNat : ℤ) < bytes.toNat - 1))
  else none

/-- `PushNack`. -/
def pushNack (h : AmHeader) (nack : BitVec 32) : Option AmHeader :=
  if h.isStatusPdu then
    let nackSnList := h.nackSnList ++ [nack]
    let headerLength :=
      if nackSnList.length % 2 = 0 then h.lengths.headerLength + 1
      else h.lengths.headerLength + 2
    some { h with
      lengths := { h.lengths with headerLength := headerLength }
      nackSnList := nackSnList }
  else none

/-- `GetSerializedSize`. -/
def getSerializedSize (h : AmHeader) : ℕ := h.lengths.headerLength.toNat

/-! ## Octets -/

/-- The first octet of a data PDU. -/
def firstOctet (h : AmHeader) (extensionBit : Octet) : Octet :=
  ((dataPdu <<< 7) &&& 0x80) ||| ((h.resegmentationFlag <<< 6) &&& 0x40) |||
    ((h.pollingBit <<< 5) &&& 0x20) ||| ((h.framingInfo <<< 3) &&& 0x18) |||
    ((extensionBit <<< 2) &&& 0x04) ||| ((h.sequenceNumber.bits >>> 8) &&& 0x0003).setWidth 8

/-- The third octet of a data PDU. -/
def thirdOctet (h : AmHeader) : Octet :=
  ((h.lastSegmentFlag <<< 7) &&& 0x80) ||| ((h.segmentOffset >>> 8) &&& 0x007F).setWidth 8

/-- The fixed part of a data PDU. -/
def fixedOctets (h : AmHeader) (extensionBit : Octet) : List Octet :=
  [h.firstOctet extensionBit, (h.sequenceNumber.bits &&& 0x00FF).setWidth 8, h.thirdOctet,
    (h.segmentOffset &&& 0x00FF).setWidth 8]

/-- The octet with the lower bits of ACK_SN, up to the first NACK_SN. -/
def ackOctet (h : AmHeader) : Octet := ((h.ackSn.bits <<< 2) &&& 0xFC).setWidth 8

/-- Its last two bits, where a NACK_SN follows. -/
def firstNackBits (nack : BitVec 32) : Octet := 0x02 ||| ((nack >>> 9) &&& 0x01).setWidth 8

/-- Bits 2 to 9 of a NACK_SN at an odd place. -/
def oddHigh (oddNack : BitVec 32) : Octet := ((oddNack >>> 1) &&& 0xFF).setWidth 8

/-- The last bit of a NACK_SN at an odd place. -/
def oddLow (oddNack : BitVec 32) : Octet := ((oddNack <<< 7) &&& 0x80).setWidth 8

/-- E1 set, E2 clear, and the upper bits of a NACK_SN at an even place. -/
def evenHigh (evenNack : BitVec 32) : Octet := 0x40 ||| ((evenNack >>> 5) &&& 0x1F).setWidth 8

/-- The lower bits of a NACK_SN at an even place. -/
def evenLow (evenNack : BitVec 32) : Octet := ((evenNack <<< 3) &&& 0xF8).setWidth 8

/-- E1 set, E2 clear, and the first bit of a NACK_SN at an odd place. -/
def nextOdd (oddNack : BitVec 32) : Octet := 0x04 ||| ((oddNack >>> 9) &&& 0x01).setWidth 8

/-- The loop of `Serialize` over the NACK_SNs, the first bit of `oddNack` being written. -/
def serializeNacks (oddNack : BitVec 32) : List (BitVec 32) → List Octet
  | [] => [oddHigh oddNack, oddLow oddNack]
  | [evenNack] => [oddHigh oddNack, oddLow oddNack ||| evenHigh evenNack, evenLow evenNack]
  | evenNack :: oddNack' :: nacks =>
    oddHigh oddNack :: (oddLow oddNack ||| evenHigh evenNack) ::
      (evenLow evenNack ||| nextOdd oddNack') :: serializeNacks oddNack' nacks

/-- `Serialize`; nothing where the first extension bit of a data PDU is missing. -/
def serialize (h : AmHeader) : Option (List Octet) :=
  if h.dataControlBit = dataPdu then
    match h.lengths.extensionBits with
    | [] => none
    | e :: es => some (h.fixedOctets e ++ LengthFields.serialize es h.lengths.lengthIndicators)
  else
    let first := ((controlPdu <<< 7) &&& 0x80) ||| ((h.controlPduType <<< 4) &&& 0x70) |||
      ((h.ackSn.bits >>> 6) &&& 0x0F).setWidth 8
    match h.nackSnList with
    | [] => some [first, h.ackOctet]
    | nack :: nacks =>
      some (first :: (h.ackOctet ||| firstNackBits nack) :: serializeNacks nack nacks)

/-- A NACK_SN at an odd place, from three octets. -/
def readOddNack (byte1 byte2 byte3 : Octet) : BitVec 32 :=
  ((byte1 &&& 0x01).setWidth 32 <<< 9) ||| (byte2.setWidth 32 <<< 1) |||
    ((byte3 &&& 0x80) >>> 7).setWidth 32

/-- A NACK_SN at an even place, from two octets. -/
def readEvenNack (byte1 byte2 : Octet) : BitVec 32 :=
  ((byte1 &&& 0x1F).setWidth 32 <<< 5) ||| ((byte2 &&& 0xF8) >>> 3).setWidth 32

/-- NACK_SNs that were read, and the octets that they take. -/
def addNacks (h : AmHeader) (nacks : List (BitVec 32)) (octets : BitVec 16) : AmHeader :=
  { h with
    lengths := { h.lengths with headerLength := h.lengths.headerLength + octets }
    nackSnList := h.nackSnList ++ nacks }

/-- The loop of `Deserialize` over the NACK_SNs, `byte` being the last octet read. -/
def readNacks (h : AmHeader) (byte : Octet) : List Octet → Option (AmHeader × List Octet)
  | [] => none
  | nextByte :: octets =>
    let even := readEvenNack byte nextByte
    if (nextByte &&& 0x04) >>> 2 = 1 then
      match octets with
      | byte2 :: finalByte :: octets =>
        let h := h.addNacks [even, readOddNack nextByte byte2 finalByte] 3
        if (finalByte &&& 0x40) >>> 6 = 1 then h.readNacks finalByte octets
        else some (h, octets)
      | _ => none
    else some (h.addNacks [even] 1, octets)

/-- `Deserialize` of a data PDU, with the size of the buffer. -/
def deserializeData (h : AmHeader) (bufferSize : ℕ) (byte1 : Octet) :
    List Octet → Option (AmHeader × List Octet)
  | byte2 :: byte3 :: byte4 :: octets =>
    let extensionBit := (byte1 &&& 0x04) >>> 2
    let fixed := { h with
      resegmentationFlag := (byte1 &&& 0x40) >>> 6
      pollingBit := (byte1 &&& 0x20) >>> 5
      framingInfo := (byte1 &&& 0x18) >>> 3
      sequenceNumber :=
        h.sequenceNumber.assign (((byte1 &&& 0x03).setWidth 16 <<< 8) ||| byte2.setWidth 16)
      lastSegmentFlag := (byte3 &&& 0x80) >>> 7
      segmentOffset := (byte3 &&& 0x7F).setWidth 16 ||| byte4.setWidth 16
      lengths := { h.lengths with
        headerLength := h.lengths.headerLength + 3
        extensionBits := h.lengths.extensionBits ++ [extensionBit] } }
    if extensionBit = LengthFields.dataFieldFollows then some (fixed, octets)
    else
      match fixed.lengths.deserialize octets with
      | none => none
      | some (lengths, octets) =>
        let read := { fixed with lengths := lengths }
        some (if read.resegmentationFlag = segment then
            { read with
              lastOffset := read.segmentOffset + BitVec.ofNat 16 bufferSize - lengths.headerLength }
          else read, octets)
  | _ => none

/-- `Deserialize` of a control PDU. -/
def deserializeControl (h : AmHeader) (byte1 : Octet) :
    List Octet → Option (AmHeader × List Octet)
  | [] => none
  | byte2 :: octets =>
    let fixed := { h with
      controlPduType := (byte1 &&& 0x70) >>> 4
      ackSn := h.ackSn.assign
        (((byte1 &&& 0x0F).setWidth 16 <<< 6) ||| ((byte2 &&& 0xFC) >>> 2).setWidth 16) }
    if (byte2 &&& 0x02) >>> 1 = 1 then
      match octets with
      | byte3 :: byte4 :: octets =>
        let read := { fixed with
          lengths := { fixed.lengths with headerLength := 4 }
          nackSnList := fixed.nackSnList ++ [readOddNack byte2 byte3 byte4] }
        if (byte4 &&& 0x40) >>> 6 = 1 then read.readNacks byte4 octets else some (read, octets)
      | _ => none
    else some (fixed.addNacks [] 1, octets)

/-- `Deserialize`, with the octets that are left. -/
def deserialize (h : AmHeader) (start : List Octet) : Option (AmHeader × List Octet) :=
  match start with
  | [] => none
  | byte1 :: octets =>
    let h := { h with
      lengths := { h.lengths with headerLength := 1 }
      dataControlBit := (byte1 &&& 0x80) >>> 7 }
    if h.dataControlBit = dataPdu then h.deserializeData start.length byte1 octets
    else h.deserializeControl byte1 octets

end AmHeader

end Ns3Dsme.Lte
