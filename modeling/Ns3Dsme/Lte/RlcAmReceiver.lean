/-
# The receiving side of an RLC AM entity

The counters that move the receiving window, and the STATUS PDU that a transmit opportunity builds
of them: a NACK for each number below `VR(MS)` that is missing, as long as one more would fit in.
-/
import Ns3Dsme.Lte.RlcAmHeaderCodec

namespace Ns3Dsme.Lte

/-- What stops the receiver: a failed assertion. -/
inductive ReceiverFault
  /-- The transmit opportunity is too small. -/
  | stingyMac
  /-- Numbers that cannot be compared. -/
  | counters (fault : Fault)
  /-- A loop over the reception buffer comes around. -/
  | infiniteLoop
  /-- A method for STATUS PDUs only. -/
  | notStatusPdu
  /-- The first number that is not reported as missing is above `VR(MS)`. -/
  | aboveVrMs
  deriving DecidableEq

/-- The receiving side of `LteRlcAm`.  Of a PDU in the reception buffer, `m_pduComplete`. -/
structure Receiver where
  vrR : SequenceNumber10 := {}
  vrMr : SequenceNumber10 := ({} : SequenceNumber10).add 512
  vrX : SequenceNumber10 := {}
  vrMs : SequenceNumber10 := {}
  vrH : SequenceNumber10 := {}
  rxonBuffer : Fin 1024 → Option Bool := fun _ => none
  reorderingTimer : Bool := false
  statusPduRequested : Bool := false
  statusPduBufferSize : ℕ := 0
  statusProhibitTimer : Bool := false

namespace Receiver

/-- A comparison. -/
def compare {α : Type} (x : Except Fault α) : Except ReceiverFault α :=
  x.mapError .counters

/-- All byte segments of the PDU are received. -/
def isComplete (s : Receiver) (sn : Fin 1024) : Bool := s.rxonBuffer sn == some true

/-! ## Counters -/

/-- `IsInsideReceivingWindow`, which also sets the bases of the window. -/
def isInsideReceivingWindow (s : Receiver) (seqNumber : SequenceNumber10) :
    Except ReceiverFault (Receiver × Bool) :=
  let vrR := s.vrR.setModulusBase s.vrR
  let vrMr := s.vrMr.setModulusBase vrR
  let seqNumber := seqNumber.setModulusBase vrR
  let based := { s with vrR := vrR, vrMr := vrMr }
  compare (vrR.le seqNumber) >>= fun above =>
    if above then (compare (seqNumber.lt vrMr)).map fun below => (based, below)
    else .ok (based, false)

/-- A loop that moves a number above the complete PDUs from `first` on. -/
def skipComplete (s : Receiver) (first : Fin 1024) :
    ℕ → SequenceNumber10 → Except ReceiverFault SequenceNumber10
  | 0, _ => .error .infiniteLoop
  | fuel + 1, sn =>
    if s.isComplete sn.value then
      if sn.next.value = first then .error .infiniteLoop else s.skipComplete first fuel sn.next
    else .ok sn

/-- The loop that delivers the PDUs from `VR(R)` on. -/
def deliver (first : Fin 1024) : ℕ → Receiver → Except ReceiverFault Receiver
  | 0, _ => .error .infiniteLoop
  | fuel + 1, s =>
    if s.isComplete s.vrR.value then
      let vrR := s.vrR.next.setModulusBase s.vrR.next
      let moved := { s with
        rxonBuffer := Function.update s.rxonBuffer s.vrR.value none
        vrR := vrR
        vrX := s.vrX.setModulusBase vrR
        vrMs := s.vrMs.setModulusBase vrR
        vrH := s.vrH.setModulusBase vrR }
      if vrR.value = first then .error .infiniteLoop else deliver first fuel moved
    else .ok s

/-- The STATUS PDU that a polling bit asks for. -/
def requestStatus (s : Receiver) (pollingBit : Bool) : Receiver :=
  if pollingBit then { s with statusPduRequested := true, statusPduBufferSize := 4 } else s

/-- The PDU is placed in the reception buffer, unless it was received before. -/
def place (s : Receiver) (sn : Fin 1024) : Receiver :=
  if (s.rxonBuffer sn).isSome then s
  else { s with rxonBuffer := Function.update s.rxonBuffer sn (some true) }

/-- `VR(H)`. -/
def updateVrH (s : Receiver) (seqNumber : SequenceNumber10) : Except ReceiverFault Receiver := do
  let above ← compare (seqNumber.ge s.vrH)
  return if above then { s with vrH := seqNumber.add 1 } else s

/-- `VR(MS)`. -/
def updateVrMs (s : Receiver) : Except ReceiverFault Receiver := do
  let vrMs ← s.skipComplete s.vrMs.value 1025 s.vrMs
  return { s with vrMs := vrMs }

/-- `VR(R)`, where its PDU was received. -/
def updateVrR (s : Receiver) (seqNumber : SequenceNumber10) : Except ReceiverFault Receiver :=
  if seqNumber.value = s.vrR.value ∧ s.isComplete s.vrR.value = true then do
    let delivered ← deliver s.vrR.value 1025 s
    return { delivered with vrMr := delivered.vrR.add 512 }
  else .ok s

/-- The reordering timer stops. -/
def stopReordering (s : Receiver) : Except ReceiverFault Receiver :=
  if s.reorderingTimer then
    if s.vrX.value = s.vrR.value then .ok { s with reorderingTimer := false }
    else do
      let (s, inside) ← s.isInsideReceivingWindow s.vrX
      return if ¬ inside ∧ s.vrX.value ≠ s.vrMr.value then { s with reorderingTimer := false }
        else s
  else .ok s

/-- The reordering timer starts. -/
def startReordering (s : Receiver) : Except ReceiverFault Receiver :=
  if s.reorderingTimer then .ok s
  else do
    let above ← compare (s.vrH.gt s.vrR)
    return if above then { s with reorderingTimer := true, vrX := s.vrH } else s

/-- `DoReceivePdu` of a data PDU. -/
def receiveData (s : Receiver) (sn : Fin 1024) (pollingBit : Bool) :
    Except ReceiverFault Receiver := do
  let seqNumber : SequenceNumber10 := ⟨sn, s.vrR.value⟩
  let (s, inside) ← (s.requestStatus pollingBit).isInsideReceivingWindow seqNumber
  if inside then
    let s ← (s.place sn).updateVrH seqNumber
    let s ← s.updateVrMs
    let s ← s.updateVrR seqNumber
    let s ← s.stopReordering
    s.startReordering
  else return s

/-- `ExpireReorderingTimer`. -/
def expireReorderingTimer (s : Receiver) : Except ReceiverFault Receiver := do
  let vrMs ← s.skipComplete s.vrX.value 1025 s.vrX
  let above ← compare (s.vrH.gt vrMs)
  return { s with
    vrMs := vrMs
    reorderingTimer := above
    vrX := if above then s.vrH else s.vrX
    statusPduRequested := true }

/-! ## The STATUS PDU -/

/-- The loop over the numbers from `sn` on, up to `VR(MS)` or until no NACK would fit in. -/
def nackMissing (s : Receiver) (bytes : BitVec 16) :
    ℕ → SequenceNumber10 → AmHeader → Except ReceiverFault (SequenceNumber10 × AmHeader)
  | 0, _, _ => .error .infiniteLoop
  | fuel + 1, sn, h => do
    let below ← compare (sn.lt s.vrMs)
    if below then
      match h.oneMoreNackWouldFitIn bytes with
      | none => .error .notStatusPdu
      | some false => .ok (sn, h)
      | some true =>
        if s.isComplete sn.value then s.nackMissing bytes fuel sn.next h
        else
          match h.pushNack (BitVec.ofNat 32 sn.value) with
          | none => .error .notStatusPdu
          | some pushed => s.nackMissing bytes fuel sn.next pushed
    else .ok (sn, h)

/-- The loop that finds ACK_SN. -/
def findAckSn (s : Receiver) : ℕ → SequenceNumber10 → Except ReceiverFault SequenceNumber10
  | 0, _ => .error .infiniteLoop
  | fuel + 1, sn => do
    let below ← compare (sn.lt s.vrMs)
    if below && s.isComplete sn.value then s.findAckSn fuel sn.next else .ok sn

/-- The header of the STATUS PDU. -/
def statusHeader (s : Receiver) (uninitialized : Octet) (bytes : ℕ) :
    Except ReceiverFault AmHeader := do
  let empty := (AmHeader.new uninitialized).setControlPdu AmHeader.statusPdu
  let (sn, h) ← s.nackMissing (BitVec.ofNat 16 bytes) 1025 s.vrR empty
  let sn ← s.findAckSn 1025 sn
  let below ← compare (sn.le s.vrMs)
  if below then return h.setAckSn sn else .error .aboveVrMs

/-- `DoNotifyTxOpportunity`, up to the STATUS PDU, which is a header alone. -/
def doNotifyTxOpportunity (s : Receiver) (uninitialized : Octet) (bytes : ℕ) :
    Except ReceiverFault (Receiver × Option (List Octet)) :=
  if bytes < 4 then .error .stingyMac
  else if s.statusPduRequested ∧ ¬ s.statusProhibitTimer then
    if bytes < s.statusPduBufferSize then .error .stingyMac
    else do
      let h ← s.statusHeader uninitialized bytes
      match h.serialize with
      | none => .error .notStatusPdu
      | some pdu =>
        return ({ s with
          statusPduRequested := false
          statusPduBufferSize := 0
          statusProhibitTimer := true }, some pdu)
  else .ok (s, none)

/-- What the entity is called with. -/
inductive Input
  | receiveData (sn : Fin 1024) (pollingBit : Bool)
  | expireReorderingTimer
  | expireStatusProhibitTimer
  | notifyTxOpportunity (uninitialized : Octet) (bytes : ℕ)

/-- One call. -/
def step (s : Receiver) : Input → Except ReceiverFault Receiver
  | .receiveData sn pollingBit => s.receiveData sn pollingBit
  | .expireReorderingTimer => s.expireReorderingTimer
  | .expireStatusProhibitTimer => .ok { s with statusProhibitTimer := false }
  | .notifyTxOpportunity uninitialized bytes =>
    (s.doNotifyTxOpportunity uninitialized bytes).map Prod.fst

/-- The states that an entity can be in. -/
inductive Reachable : Receiver → Prop
  | create : Reachable {}
  | call {s s' : Receiver} (input : Input) : Reachable s → s.step input = .ok s' → Reachable s'

end Receiver

end Ns3Dsme.Lte
