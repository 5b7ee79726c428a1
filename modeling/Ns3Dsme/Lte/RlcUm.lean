/-
# The transmitting side of an RLC UM entity

SDUs wait in the transmission buffer.  A transmit opportunity builds one PDU of what waits: whole
SDUs as long as they fit, each but the last with a length indicator, and a segment of the next
one.
-/
import Ns3Dsme.Lte.RlcHeader
import Ns3Dsme.Lte.RlcAmTransmitter

namespace Ns3Dsme.Lte

/-- What goes wrong where a PDU is built. -/
inductive UmFault
  /-- The data field holds no segment. -/
  | noSegment
  /-- The header has no extension bit. -/
  | noExtensionBit
  /-- The header is written across the end of the packet. -/
  | overrun
  /-- Octets of the header are not written. -/
  | unwritten
  deriving DecidableEq

/-- The octets of all of them. -/
def stream (txBuffer : List Sdu) : List Octet := txBuffer.flatMap Sdu.octets

/-- A PDU while its data field is built. -/
structure UmDraft where
  header : LteRlcHeader := {}
  dataField : List Sdu := []
  nextSegmentSize : ℕ
  nextSegmentId : ℕ := 1

namespace UmDraft

/-- The last segment: no length indicator for it. -/
def close (d : UmDraft) (segment : Sdu) : UmDraft :=
  { header := d.header.pushExtensionBit LengthFields.dataFieldFollows
    dataField := d.dataField ++ [segment]
    nextSegmentSize := d.nextSegmentSize - segment.size
    nextSegmentId := d.nextSegmentId + 1 }

/-- A segment that others follow. -/
def push (d : UmDraft) (segment : Sdu) : UmDraft :=
  { header := (d.header.pushExtensionBit LengthFields.eLiFieldsFollow).pushLengthIndicator
      (BitVec.ofNat 16 segment.size)
    dataField := d.dataField ++ [segment]
    nextSegmentSize :=
      d.nextSegmentSize - ((if d.nextSegmentId % 2 = 1 then 2 else 1) + segment.size)
    nextSegmentId := d.nextSegmentId + 1 }

/-- The loop over the segments: the draft, and the transmission buffer with its size. -/
def fill (d : UmDraft) (firstSegment : Sdu) (txBufferSize : ℕ) (txBuffer : List Sdu) :
    UmDraft × List Sdu × ℕ :=
  if firstSegment.size = 0 ∨ d.nextSegmentSize = 0 then (d, txBuffer, txBufferSize)
  else if d.nextSegmentSize < firstSegment.size ∨ 2047 < firstSegment.size then
    -- a segment larger than 2047 octets can only be mapped to the end of the data field
    let currSegmentSize := min firstSegment.size d.nextSegmentSize
    let cut := Sdu.cutStatus firstSegment.status
    let rest : Sdu := ⟨firstSegment.octets.drop currSegmentSize, cut.2⟩
    let newSegment := firstSegment.octets.take currSegmentSize
    if 0 < rest.size then
      (d.close ⟨newSegment, cut.1⟩, rest :: txBuffer, txBufferSize + rest.size)
    else (d.close ⟨newSegment, Sdu.wholeStatus cut.1⟩, txBuffer, txBufferSize)
  else
    match txBuffer with
    | [] => (d.close firstSegment, [], txBufferSize)
    | next :: others =>
      if d.nextSegmentSize - firstSegment.size ≤ 2 then
        (d.close firstSegment, next :: others, txBufferSize)
      else (d.push firstSegment).fill next (txBufferSize - next.size) others

end UmDraft

/-- `AddHeader`: the header is written into the octets that it asks for, and into those behind them
if it has more. -/
def addHeader (header : LteRlcHeader) (data : List Octet) : Except UmFault (List Octet) :=
  match header.serialize with
  | none => .error .noExtensionBit
  | some octets =>
    if octets.length < header.getSerializedSize then .error .unwritten
    else if header.getSerializedSize + data.length < octets.length then .error .overrun
    else .ok (octets ++ data.drop (octets.length - header.getSerializedSize))

/-- A PDU: its header, and all its octets. -/
structure UmPdu where
  header : LteRlcHeader
  octets : List Octet

/-- The transmitting side of `LteRlcUm`. -/
structure LteRlcUm where
  maxTxBufferSize : ℕ := 10 * 1024
  txBuffer : List Sdu := []
  txBufferSize : ℕ := 0
  sequenceNumber : SequenceNumber10 := {}

namespace LteRlcUm

/-- `DoNotifyTxOpportunity`. -/
def doNotifyTxOpportunity (s : LteRlcUm) (bytes : ℕ) : Except UmFault (LteRlcUm × Option UmPdu) :=
  if bytes ≤ 2 then .ok (s, none)
  else
    match s.txBuffer with
    | [] => .ok (s, none)
    | firstSegment :: others =>
      let built := ({ nextSegmentSize := bytes - 2 } : UmDraft).fill firstSegment
        (s.txBufferSize - firstSegment.size) others
      match framingInfo built.1.dataField with
      | none => .error .noSegment
      | some framingInfo => do
        let header :=
          (built.1.header.setSequenceNumber s.sequenceNumber).setFramingInfo framingInfo
        let octets ← addHeader header (stream built.1.dataField)
        return ({ s with
          txBuffer := built.2.1
          txBufferSize := built.2.2
          sequenceNumber := s.sequenceNumber.next }, some ⟨header, octets⟩)

end LteRlcUm

/-- The list of SDUs that `ReassembleAndDeliver` makes of a data field. -/
def splitDataField : List Octet → List (BitVec 16) → List Octet → Option (List (List Octet))
  | [], _, _ => none
  | e :: es, lis, packet =>
    if e = 0 then some [packet]
    else
      match lis with
      | [] => none
      | li :: lis =>
        if packet.length < li.toNat then none
        else (splitDataField es lis (packet.drop li.toNat)).map (packet.take li.toNat :: ·)

end Ns3Dsme.Lte
