/-
# The transmitting side of an RLC AM entity

SDUs wait in the transmission buffer.  A transmit opportunity sends a PDU of the retransmission
buffer again, or builds a new PDU of what waits.  A PDU that is sent is kept with the transmitted
ones until a STATUS PDU acknowledges it, or asks for it again.  The sizes of the buffers are counted
in 32 bits.
-/
import Ns3Dsme.Lte.RlcAmHeaderCodec
import Mathlib.Data.List.Basic
import Mathlib.Algebra.GroupWithZero.Nat

open Function Program

namespace Ns3Dsme.Lte

/-- `LteRlcSduStatusTag`. -/
inductive SduStatus
  | fullSdu
  | firstSegment
  | middleSegment
  | lastSegment
  deriving DecidableEq, Repr

/-- An SDU, or what is left of it, and the status in its tag: `TxPdu` of `LteRlcUm`. -/
structure Sdu where
  octets : List Octet
  status : SduStatus := .fullSdu
  deriving DecidableEq, Repr

namespace Sdu

def size (p : Sdu) : ℕ := p.octets.length

/-- What an SDU of this status becomes when its front is cut off: the front, and the rest. -/
def cutStatus : SduStatus → SduStatus × SduStatus
  | .fullSdu => (.firstSegment, .lastSegment)
  | .lastSegment => (.middleSegment, .lastSegment)
  | status => (status, status)

/-- The whole rest was taken, so the status is adjusted. -/
def wholeStatus : SduStatus → SduStatus
  | .firstSegment => .fullSdu
  | .middleSegment => .lastSegment
  | status => status

end Sdu

/-- The octets of the SDUs that wait. -/
def waiting (txonBuffer : List Sdu) : ℕ := (txonBuffer.map Sdu.size).sum

theorem waiting_cons (p : Sdu) (ps : List Sdu) : waiting (p :: ps) = p.size + waiting ps := rfl

theorem waiting_append (ps qs : List Sdu) : waiting (ps ++ qs) = waiting ps + waiting qs := by
  unfold waiting
  rw [List.map_append, List.sum_append]

/-- A size as a counter takes it. -/
def counted (size : ℕ) : BitVec 32 := BitVec.ofNat 32 size

/-- A data PDU: its header, and its data field. -/
structure AmPdu where
  header : AmHeader
  data : List Octet
  deriving DecidableEq

def AmPdu.size (p : AmPdu) : ℕ := p.header.getSerializedSize + p.data.length

/-- `AddHeader` writes within the packet. -/
def AmPdu.holdsHeader (p : AmPdu) : Bool :=
  match p.header.serialize with
  | some octets => decide (octets.length ≤ p.size)
  | none => false

/-- A PDU while its data field is built. -/
structure Draft where
  header : AmHeader := (AmHeader.new 0).setDataPdu
  dataField : List Sdu := []
  nextSegmentSize : ℕ
  nextSegmentId : ℕ := 1

namespace Draft

/-- The last segment: no length indicator for it. -/
def close (d : Draft) (segment : Sdu) : Draft :=
  { header := d.header.pushExtensionBit LengthFields.dataFieldFollows
    dataField := d.dataField ++ [segment]
    nextSegmentSize := d.nextSegmentSize - segment.size
    nextSegmentId := d.nextSegmentId + 1 }

/-- A segment that others follow. -/
def push (d : Draft) (segment : Sdu) : Draft :=
  { header := (d.header.pushExtensionBit LengthFields.eLiFieldsFollow).pushLengthIndicator
      (BitVec.ofNat 16 segment.size)
    dataField := d.dataField ++ [segment]
    nextSegmentSize :=
      d.nextSegmentSize - ((if d.nextSegmentId % 2 = 1 then 2 else 1) + segment.size)
    nextSegmentId := d.nextSegmentId + 1 }

/-- The loop over the segments: the draft, and the transmission buffer with its size. -/
def fill (d : Draft) (firstSegment : Sdu) (txonBufferSize : BitVec 32) (txonBuffer : List Sdu) :
    Draft × List Sdu × BitVec 32 :=
  if firstSegment.size = 0 ∨ d.nextSegmentSize = 0 then (d, txonBuffer, txonBufferSize)
  else if d.nextSegmentSize < firstSegment.size ∨ 2047 < firstSegment.size then
    -- a segment larger than 2047 octets can only be mapped to the end of the data field
    let currSegmentSize := min firstSegment.size d.nextSegmentSize
    let cut := Sdu.cutStatus firstSegment.status
    let rest : Sdu := ⟨firstSegment.octets.drop currSegmentSize, cut.2⟩
    let newSegment := firstSegment.octets.take currSegmentSize
    if 0 < rest.size then
      (d.close ⟨newSegment, cut.1⟩, rest :: txonBuffer, txonBufferSize + counted rest.size)
    else (d.close ⟨newSegment, Sdu.wholeStatus cut.1⟩, txonBuffer, txonBufferSize)
  else
    match txonBuffer with
    | [] => (d.close firstSegment, [], txonBufferSize)
    | next :: others =>
      if d.nextSegmentSize - firstSegment.size ≤ 2 then
        (d.close firstSegment, next :: others, txonBufferSize)
      else (d.push firstSegment).fill next (txonBufferSize - counted next.size) others

end Draft

/-- The framing info: 2 if the first octet is not the first of an SDU, and 1 if the last one is
not the last. -/
def framingInfo (dataField : List Sdu) : Option Octet :=
  match dataField.head?, dataField.getLast? with
  | some first, some last =>
    some ((if first.status = .fullSdu ∨ first.status = .firstSegment then 0 else 2)
      ||| (if last.status = .fullSdu ∨ last.status = .lastSegment then 0 else 1))
  | _, _ => none

/-- `m_windowSize`. -/
def windowSize : ℕ := 512

/-- `m_pollPdu`. -/
def pollPdu : BitVec 32 := 1

/-- `m_pollByte`. -/
def pollByte : BitVec 32 := 50

/-- The transmitting side of `LteRlcAm`. -/
structure LteRlcAm where
  maxTxBufferSize : BitVec 32 := 10 * 1024
  txOpportunityForRetxAlwaysBigEnough : Bool := false
  txonBuffer : List Sdu := []
  txonBufferSize : BitVec 32 := 0
  txedBuffer : Fin 1024 → Option AmPdu := fun _ => none
  txedBufferSize : BitVec 32 := 0
  retxBuffer : Fin 1024 → Option AmPdu := fun _ => none
  retxBufferSize : BitVec 32 := 0
  vtA : SequenceNumber10 := {}
  vtS : SequenceNumber10 := {}
  vtMs : SequenceNumber10 := ({} : SequenceNumber10).add windowSize
  pollSn : SequenceNumber10 := {}
  pduWithoutPoll : BitVec 32 := 0
  byteWithoutPoll : BitVec 32 := 0
  pollRetransmitTimerJustExpired : Bool := false
  pollRetransmitTimer : Bool := false

/-- An assertion. -/
def ensure (c : Bool) (e : Fault) : Except Fault Unit := if c then .ok () else .error e

namespace LteRlcAm

/-- `DoTransmitPdcpPdu`. -/
def doTransmitPdcpPdu (s : LteRlcAm) (p : List Octet) : LteRlcAm :=
  if s.txonBufferSize + counted p.length ≤ s.maxTxBufferSize ∨ s.maxTxBufferSize = 0 then
    { s with
      txonBuffer := s.txonBuffer ++ [⟨p, .fullSdu⟩]
      txonBufferSize := s.txonBufferSize + counted p.length }
  else s

/-- A PDU leaves with the polling bit set, and the poll retransmit timer starts again. -/
def poll (s : LteRlcAm) : LteRlcAm :=
  { s with
    pollRetransmitTimerJustExpired := false
    pduWithoutPoll := 0
    byteWithoutPoll := 0
    pollSn := s.vtS.sub 1
    pollRetransmitTimer := true }

/-- A transmitted PDU is to be sent again. -/
def moveToRetx (s : LteRlcAm) (sn : Fin 1024) (pdu : AmPdu) : LteRlcAm :=
  { s with
    retxBuffer := update s.retxBuffer sn (some pdu)
    retxBufferSize := s.retxBufferSize + counted pdu.size
    txedBuffer := update s.txedBuffer sn none
    txedBufferSize := s.txedBufferSize - counted pdu.size }

/-- A PDU was sent again. -/
def moveToTxed (s : LteRlcAm) (sn : Fin 1024) (pdu : AmPdu) : LteRlcAm :=
  { s with
    txedBuffer := update s.txedBuffer sn (some pdu)
    txedBufferSize := s.txedBufferSize + counted pdu.size
    retxBuffer := update s.retxBuffer sn none
    retxBufferSize := s.retxBufferSize - counted pdu.size }

/-- The first PDU of the retransmission buffer from `sn` on. -/
def findRetx (s : LteRlcAm) : ℕ → SequenceNumber10 → Except Fault (Option (Fin 1024 × AmPdu))
  | 0, _ => .error .endless
  | fuel + 1, sn => do
    if ← sn.lt s.vtS then
      match s.retxBuffer sn.value with
      | some pdu => .ok (some (sn.value, pdu))
      | none => s.findRetx fuel sn.next
    else .ok none

/-- The polling bit of a PDU that is sent again. -/
def pollsRetx (s : LteRlcAm) (pdu : AmPdu) : Except Fault Bool :=
  if s.txonBuffer.isEmpty && s.retxBufferSize == counted pdu.size then .ok true
  else do
    let stalled ← s.vtS.ge s.vtMs
    .ok (stalled || s.pollRetransmitTimerJustExpired)

/-- `STATUS_REPORT_IS_REQUESTED`, or not. -/
def pollValue (pollingBit : Bool) : Octet := if pollingBit then 1 else 0

/-- The opportunity goes to the retransmission buffer. -/
def retransmit (s : LteRlcAm) (bytes : ℕ) : Except Fault (LteRlcAm × Option AmPdu) := do
  ensure (← s.vtA.lt s.vtS) .emptyWindow
  match ← s.findRetx 1024 s.vtA with
  | some (sn, pdu) =>
    if pdu.size ≤ bytes ∨ s.txOpportunityForRetxAlwaysBigEnough = true then
      let pollingBit ← s.pollsRetx pdu
      let polled := if pollingBit then s.poll else s
      .ok (polled.moveToTxed sn pdu, some { pdu with header := pdu.header.setPollingBit (pollValue pollingBit) })
    else .ok (s, none)
  | none => .error .noPduForRetx

/-- The setters for the header of a new PDU: it is no segment of a PDU, and the last one. -/
def buildHeader (header : AmHeader) (sn : SequenceNumber10) (framingInfo : Octet)
    (pollingBit : Bool) : AmHeader :=
  (((((header.setSequenceNumber sn).setResegmentationFlag 0).setLastSegmentFlag 1).setSegmentOffset
    0).setFramingInfo framingInfo).setPollingBit (pollValue pollingBit)

/-- The polling bit of a new PDU. -/
def pollsNew (s : LteRlcAm) : Except Fault Bool :=
  if pollPdu ≤ s.pduWithoutPoll ∨ pollByte ≤ s.byteWithoutPoll
      ∨ (s.txonBuffer.isEmpty = true ∧ s.retxBufferSize = 0) then .ok true
  else do
    let stalled ← s.vtS.ge s.vtMs
    .ok (stalled || s.pollRetransmitTimerJustExpired)

/-- The opportunity goes to a new PDU. -/
def sendNewPdu (s : LteRlcAm) (bytes : ℕ) : Except Fault (LteRlcAm × Option AmPdu) :=
  match s.txonBuffer with
  | [] => .ok (s, none)
  | firstSegment :: others => do
    let built := ({ nextSegmentSize := bytes - 4 } : Draft).fill firstSegment
      (s.txonBufferSize - counted firstSegment.size) others
    let sn := s.vtS
    let s := { s with
      txonBuffer := built.2.1
      txonBufferSize := built.2.2
      vtS := s.vtS.next }
    ensure (← sn.lt s.vtMs) .outsideWindow
    ensure (← sn.ge s.vtA) .outsideWindow
    match framingInfo built.1.dataField with
    | none => .error .noSegment
    | some framingInfo =>
      let data := (built.1.dataField.map Sdu.octets).flatten
      let s := { s with
        pduWithoutPoll := s.pduWithoutPoll + 1
        byteWithoutPoll := s.byteWithoutPoll + counted data.length }
      let pollingBit ← s.pollsNew
      let s := if pollingBit then s.poll else s
      let pdu : AmPdu := ⟨buildHeader built.1.header sn framingInfo pollingBit, data⟩
      ensure pdu.holdsHeader .overrun
      .ok ({ s with
        txedBufferSize := s.txedBufferSize + counted pdu.size
        txedBuffer := update s.txedBuffer sn.value (some pdu) }, some pdu)

/-- `DoNotifyTxOpportunity`, with the size of the STATUS PDU if one is due: what the transmitter
sends of its data. -/
def doNotifyTxOpportunity (s : LteRlcAm) (bytes : ℕ) (statusPduSize : Option ℕ) :
    Except Fault (LteRlcAm × Option AmPdu) :=
  if bytes < 4 then .error .stingyMac
  else
    match statusPduSize with
    | some size => if bytes < size then .error .stingyMac else .ok (s, none)
    | none =>
      if 0 < s.retxBufferSize then s.retransmit bytes
      else if 0 < s.txonBufferSize then
        if bytes < 7 then .error .stingyMac
        else do
          ensure (← s.vtS.le s.vtMs) .outsideWindow
          if s.vtS.value = s.vtMs.value then .ok (s, none) else s.sendNewPdu bytes
      else .ok (s, none)

/-- The poll is answered. -/
def cancelPoll (s : LteRlcAm) (sn : Fin 1024) : LteRlcAm :=
  if s.pollRetransmitTimer = true ∧ sn = s.pollSn.value then
    { s with pollRetransmitTimer := false }
  else s

/-- A number is NACKed. -/
def nack (s : LteRlcAm) (sn : Fin 1024) : Except Fault LteRlcAm := do
  let t :=
    match s.txedBuffer sn with
    | some pdu => s.moveToRetx sn pdu
    | none => s
  ensure (t.retxBuffer sn).isSome .retxPduMissing
  .ok t

/-- An acknowledged PDU leaves the transmitted ones. -/
def releaseTxed (s : LteRlcAm) (sn : Fin 1024) : Except Fault LteRlcAm :=
  match s.txedBuffer sn with
  | some pdu => do
    ensure (s.retxBuffer sn).isNone .retxPduPresent
    .ok { s with
      txedBufferSize := s.txedBufferSize - counted pdu.size
      txedBuffer := update s.txedBuffer sn none }
  | none => .ok s

/-- An acknowledged PDU leaves the retransmission buffer. -/
def releaseRetx (s : LteRlcAm) (sn : Fin 1024) : LteRlcAm :=
  match s.retxBuffer sn with
  | some pdu =>
    { s with
      retxBufferSize := s.retxBufferSize - counted pdu.size
      retxBuffer := update s.retxBuffer sn none }
  | none => s

/-- The window moves up by one. -/
def incrementVtA (s : LteRlcAm) : LteRlcAm :=
  let vtA := s.vtA.next
  { s with
    vtA := vtA.setModulusBase vtA
    vtMs := (vtA.add windowSize).setModulusBase vtA
    vtS := s.vtS.setModulusBase vtA }

/-- The loop over `VT(A) <= SN < ACK_SN`. -/
def acknowledge (nackSns : List (Fin 1024)) :
    ℕ → LteRlcAm → SequenceNumber10 → SequenceNumber10 → Bool → Except Fault LteRlcAm
  | 0, _, _, _, _ => .error .endless
  | fuel + 1, s, sn, ackSn, increment => do
    if (← sn.lt ackSn) && (← sn.lt s.vtS) then
      let s := s.cancelPoll sn.value
      if nackSns.contains sn.value then
        acknowledge nackSns fuel (← s.nack sn.value) sn.next ackSn false
      else
        let s := (← s.releaseTxed sn.value).releaseRetx sn.value
        if increment then
          let s := s.incrementVtA
          acknowledge nackSns fuel s (sn.setModulusBase s.vtA).next
            (ackSn.setModulusBase s.vtA) true
        else acknowledge nackSns fuel s sn.next ackSn false
    else .ok s

/-- `DoReceivePdu`, for a STATUS PDU. -/
def receiveStatus (s : LteRlcAm) (ackSn : Fin 1024) (nackSns : List (Fin 1024)) :
    Except Fault LteRlcAm :=
  let s := { s with
    vtA := s.vtA.setModulusBase s.vtA
    vtS := s.vtS.setModulusBase s.vtA
    vtMs := s.vtMs.setModulusBase s.vtA }
  acknowledge nackSns 1024 s s.vtA
    (({ value := ackSn } : SequenceNumber10).setModulusBase s.vtA) true

/-- The loop that moves transmitted PDUs from `sn` on to the retransmission buffer. -/
def retransmitFrom : ℕ → LteRlcAm → SequenceNumber10 → Except Fault LteRlcAm
  | 0, _, _ => .error .endless
  | fuel + 1, s, sn => do
    if ← sn.lt s.vtS then
      match s.txedBuffer sn.value with
      | some pdu => retransmitFrom fuel (s.moveToRetx sn.value pdu) sn.next
      | none => retransmitFrom fuel s sn.next
    else .ok s

/-- `ExpirePollRetransmitTimer`. -/
def expirePollRetransmitTimer (s : LteRlcAm) : Except Fault LteRlcAm := do
  let s := { s with pollRetransmitTimer := false, pollRetransmitTimerJustExpired := true }
  ensure (← s.vtS.le s.vtMs) .outsideWindow
  if (s.txonBufferSize = 0 ∧ s.retxBufferSize = 0) ∨ s.vtS.value = s.vtMs.value then
    retransmitFrom 1024 s s.vtA
  else .ok s

end LteRlcAm

end Ns3Dsme.Lte
