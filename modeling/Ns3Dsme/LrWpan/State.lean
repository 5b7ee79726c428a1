/-
# The state of a device

The members of `LrWpanMac` and `LrWpanCsmaCa` that the modelled handlers read or
write, grouped by what they are about.  Two fields have no counterpart in the source:
`phy`, the answers the PHY and the random variable give during the current step, and
`trace`, what the device has reported through its trace sources and callbacks so far.
Members without an initializer in the source start with an arbitrary value.
-/
import Ns3Dsme.LrWpan.Frame
import Ns3Dsme.LrWpan.Simulator

namespace Ns3Dsme

/-! ## The allocation counter table -/

/-- `macDSMEACTEntity`, as far as it is read.  `alloc` is a ghost: the number of the
`AddDsmeACTEntity` call that made the entry. -/
structure MacDSMEACTEntity where
  superframeID : ℕ
  slotID : ℕ
  numSlot : ℕ
  channelID : ℕ := 0
  /-- 0 is transmission, anything else reception. -/
  direction : ℕ := 0
  cnt : ℕ := 0
  allocated : Bool := false
  deallocated : Bool := false
  expired : Bool := false
  alloc : ℕ := 0
  deriving DecidableEq, Repr

/-- The superframe type of a GTS: incoming for reception, outgoing for transmission. -/
def MacDSMEACTEntity.superframeType (e : MacDSMEACTEntity) : SuperframeType :=
  if e.direction ≠ 0 then .incoming else .outgoing

/-- `std::map<uint16_t, std::vector<macDSMEACTEntity>>`.  A key that is not in the map
and a key with an empty vector behave alike; no key reaches `bound`. -/
structure ActTable where
  row : ℕ → List MacDSMEACTEntity
  bound : ℕ
  row_of_bound_le : ∀ k, bound ≤ k → row k = []

namespace ActTable

/-- The empty table. -/
def empty : ActTable where
  row _ := []
  bound := 0
  row_of_bound_le _ _ := rfl

/-- Replace the row of one superframe. -/
def setRow (t : ActTable) (k : ℕ) (es : List MacDSMEACTEntity) : ActTable where
  row := fun j => if j = k then es else t.row j
  bound := max t.bound (k + 1)
  row_of_bound_le := by
    intro j hj
    rw [if_neg (by omega)]
    exact t.row_of_bound_le j (by omega)

/-- Apply a function to every row; it must leave an empty row empty. -/
def mapRows (t : ActTable) (f : List MacDSMEACTEntity → List MacDSMEACTEntity)
    (hf : f [] = []) : ActTable where
  row := fun j => f (t.row j)
  bound := t.bound
  row_of_bound_le := by
    intro j hj
    rw [t.row_of_bound_le j hj, hf]

/-- `m_macDsmeACT[superframeID].push_back(entity)`. -/
def pushBack (t : ActTable) (k : ℕ) (e : MacDSMEACTEntity) : ActTable :=
  t.setRow k (t.row k ++ [e])

/-- `m_macDsmeACT[superframeID][idx]`; an index past the end of the vector is undefined. -/
def lookup (t : ActTable) (k i : ℕ) : Option MacDSMEACTEntity := (t.row k)[i]?

/-- Assign to fields of one entry. -/
def modify (t : ActTable) (k i : ℕ) (f : MacDSMEACTEntity → MacDSMEACTEntity) : ActTable :=
  t.setRow k ((t.row k).modify i f)

/-- All positions of the table, in the order in which the map is iterated. -/
def positions (t : ActTable) : List (ℕ × ℕ) :=
  (List.range t.bound).flatMap fun k => (List.range (t.row k).length).map fun i => (k, i)

theorem row_setRow (t : ActTable) (k j : ℕ) (es : List MacDSMEACTEntity) :
    (t.setRow k es).row j = if j = k then es else t.row j := rfl

theorem row_modify (t : ActTable) (k i j : ℕ) (f : MacDSMEACTEntity → MacDSMEACTEntity) :
    (t.modify k i f).row j = if j = k then (t.row k).modify i f else t.row j := rfl

/-- Reading the table after an assignment to one entry. -/
theorem lookup_modify (t : ActTable) (k i k' i' : ℕ) (f : MacDSMEACTEntity → MacDSMEACTEntity) :
    (t.modify k i f).lookup k' i'
      = if k' = k ∧ i' = i then (t.lookup k' i').map f else t.lookup k' i' := by
  unfold lookup
  rw [row_modify]
  by_cases hk : k' = k
  · subst hk
    by_cases hi : i' = i
    · simp [hi]
    · simp [hi, Ne.symm hi]
  · simp [hk]

/-- Reading the table after a `push_back`. -/
theorem lookup_pushBack (t : ActTable) (k k' i' : ℕ) (e : MacDSMEACTEntity) :
    (t.pushBack k e).lookup k' i'
      = if k' = k ∧ i' = (t.row k).length then some e else t.lookup k' i' := by
  unfold lookup pushBack
  rw [row_setRow]
  by_cases hk : k' = k
  · subst hk
    by_cases hi : i' = (t.row k').length
    · simp [hi]
    · by_cases hlt : i' < (t.row k').length
      · simp [hi, List.getElem?_append_left hlt]
      · have hend : (t.row k' ++ [e])[i']? = none := by
          rw [List.getElem?_eq_none_iff, List.length_append, List.length_singleton]
          omega
        have hrow : (t.row k')[i']? = none := List.getElem?_eq_none_iff.mpr (by omega)
        simp [hi, hend, hrow]
  · simp [hk]

/-- The positions are exactly the pairs at which there is an entry. -/
theorem mem_positions (t : ActTable) (k i : ℕ) :
    (k, i) ∈ t.positions ↔ i < (t.row k).length := by
  unfold positions
  simp only [List.mem_flatMap, List.mem_range, List.mem_map, Prod.mk.injEq]
  constructor
  · rintro ⟨k', -, i', hi', rfl, rfl⟩
    exact hi'
  · intro hi
    refine ⟨k, ?_, i, hi, rfl, rfl⟩
    by_contra hk
    rw [t.row_of_bound_le k (by omega)] at hi
    simp at hi

end ActTable

/-! ## Reports -/

/-- Places at which an unsigned difference can be negative. -/
inductive Difference
  | capMinusRxBeacon
  | beaconIntervalMinusSuperframe
  | superframesMinusOne
  deriving DecidableEq, Repr

/-- What a device reports: trace sources, callbacks to the next higher layer, requests to
the PHY and outcomes of CSMA-CA. -/
inductive Output
  | macTxEnqueue (p : Packet)
  | macTxDequeue (p : Packet)
  | macTxDrop (p : Packet)
  | sentPkt (p : Packet) (transmissions csmacaRetries : ℕ)
  | pdDataRequest (p : Packet)
  /-- `PdDataConfirm(SUCCESS)` while `m_txPkt` is `p`. -/
  | pdDataSuccess (p : Packet)
  | mcpsDataConfirm (msduHandle : ℕ) (status : LrWpanMcpsDataConfirmStatus)
  | mcpsDataIndication (p : Packet)
  | mlmeStartConfirm (success : Bool)
  | mlmeBeaconNotifyIndication (p : Packet)
  | mlmeSyncLossIndication
  /-- The argument of `m_lrWpanMacStateCallback`. -/
  | csmaOutcome (macState : LrWpanMacState)
  | macTransCost (transactionSymbols : ℕ)
  | phyCurrentChannel (ch : ℕ)
  | macIfsEnd (ifsTime : ℤ)
  /-- An enhanced beacon was built while the own superframe index was `macSDindex`. -/
  | enhancedBeacon (p : Packet) (macSDindex : ℕ)
  /-- An unsigned difference was computed with a subtrahend that is too large. -/
  | underflow (site : Difference)
  deriving DecidableEq, Repr

/-! ## The groups of members -/

/-- `HoppingDescriptor`, and the members `EndStartRequest` copies it to. -/
structure HoppingDescriptor where
  hoppingSequenceID : ℕ := 0
  channelOfs : ℕ := 0
  channelOfsBitmapLen : ℕ := 0
  channelOfsBitmap : List (BitVec 16) := []
  deriving DecidableEq, Repr

/-- `MlmeStartRequestParams`. -/
structure MlmeStartRequestParams where
  panId : BitVec 16 := 0
  bcnOrd : ℕ := 15
  sfrmOrd : ℕ := 15
  panCoor : Bool := false
  battLifeExt : Bool := false
  dsmeSuperframeSpec : DsmeSuperFrameField := {}
  bcnBitmap : BeaconBitmap := {}
  hoppingDescriptor : HoppingDescriptor := {}
  deriving DecidableEq, Repr

/-- Attributes and callbacks that are set before the device runs. -/
structure Config where
  shortAddress : Mac16Address := 0
  macCoordShortAddress : Mac16Address := 0xffff
  macRxOnWhenIdle : Bool := true
  macDSMEenabled : Bool := false
  macAutoRequest : Bool := true
  macAssociationPermit : Bool := true
  noACK : Bool := false
  groupAckPolicy : LrWpanGroupAckPolicy := .groupAckDisabled
  legacyGroupAck : GroupACK := {}
  forDsmeNetDeviceIntegrateWithHigerLayer : Bool := false
  acceptAllHilowPkt : Bool := false
  gtsContinuePktSendingFromCap : Bool := false
  enhancedGTSForwarding : Bool := false
  numOfChannels : ℕ := 16
  maxTxQueueSize : ℕ := 2 ^ 32 - 1
  hash64 : List Char → BitVec 64 := fun _ => 0
  panDescriptorList : List PanDescriptor := []
  descIdxOfAssociatedPan : ℕ := 0
  choosedSDIndexToSendBcn : ℕ := 0
  mcpsDataConfirmCallback : Bool := true
  mcpsDataIndicationCallback : Bool := true
  mlmeStartConfirmCallback : Bool := true
  mlmeBeaconNotifyIndicationCallback : Bool := true
  mlmeSyncLossIndicationCallback : Bool := true

/-- Why `LrWpanPhy::PdDataRequest` refuses a packet: the state the transceiver is in, or a
change of that state going on. -/
inductive PdDataRefusal
  | trxOff
  | rxOn
  | busyTx
  | unspecified
  deriving DecidableEq, Repr

/-- The status with which a packet is refused. -/
def PdDataRefusal.status : PdDataRefusal → LrWpanPhyEnumeration
  | trxOff => .phyTrxOff
  | rxOn => .phyRxOn
  | busyTx => .phyBusyTx
  | unspecified => .phyUnspecified

/-- A refused packet is never confirmed as sent. -/
theorem PdDataRefusal.status_ne_phySuccess (r : PdDataRefusal) : r.status ≠ .phySuccess := by
  cases r <;> decide

/-- What a change of the channel or the page breaks off: a change of the transceiver state
that is under way, and the frame on the air. -/
structure Interruption where
  trx : Bool := false
  data : Bool := false

/-- What the PHY and the random variable answer during one step. -/
structure PhyAnswers where
  /-- The confirms of successive `PlmeSetTRXStateRequest`s; `none` when it comes later. -/
  trx : List (Option LrWpanPhyEnumeration) := []
  /-- The refusals of successive `PdDataRequest`s; `none` when the transmission starts. -/
  data : List (Option PdDataRefusal) := []
  /-- What successive changes of the channel or the page break off. -/
  interruptions : List Interruption := []
  /-- The confirm of a `PlmeCcaRequest`; `none` when the assessment takes place. -/
  cca : Option LrWpanPhyEnumeration := none
  /-- What a channel assessment finds. -/
  sensed : LrWpanPhyEnumeration := .phyIdle
  /-- What the end of a transmission reports, if anything. -/
  endTx : Option LrWpanPhyEnumeration := some .phySuccess
  /-- The number drawn for a backoff. -/
  random : ℕ := 0

/-- `TxQueueElement`. -/
structure TxQueueElement where
  txQMsduHandle : ℕ
  txQPkt : Packet
  deriving DecidableEq, Repr

/-- The transmit queue and the packet in transmission. -/
structure Tx where
  txQueue : List TxQueueElement := []
  txPkt : Option Packet := none
  macDsn : BitVec 8 := 0
  msduHandle : ℕ := 0
  retransmission : ℕ := 0
  numCsmacaRetry : ℕ := 0
  /-- The number of the next packet. -/
  nextUid : ℕ := 0

/-- The role of the device. -/
structure Role where
  panCoor : Bool := false
  coord : Bool := false
  macPanId : BitVec 16 := 0xffff
  sendBcn : Bool := false

/-- The outgoing superframe. -/
structure Outgoing where
  macBeaconOrder : ℕ := 15
  macSuperframeOrder : ℕ := 15
  macMultisuperframeOrder : ℕ := 15
  fnlCapSlot : ℕ := 0
  beaconInterval : ℕ := 0
  superframeDuration : ℕ := 0
  multiSuperframeDuration : ℕ := 0
  numOfMultisuperframes : ℕ := 0
  numOfSuperframes : ℕ := 0
  macCAPReductionFlag : Bool := false
  macChannelDiversityMode : Bool := true
  macGACKFlag : Bool := false
  macDeferredBcnUsed : Bool := false
  outSuperframeStatus : SuperframeStatus := .inactive
  macBeaconTxTime : ℤ := 0
  beaconStartTxTime : ℤ := 0
  startOfBcnSlot : ℤ := 0
  firstCFP : Bool := false
  macDSMESAB : List (BitVec 16) := []
  macDSMESABCapOff : List (BitVec 8) := []

/-- The incoming superframe. -/
structure Incoming where
  incomingBeaconOrder : ℕ := 15
  incomingSuperframeOrder : ℕ := 15
  incomingMultisuperframeOrder : ℕ := 0
  incomingFnlCapSlot : ℕ := 0
  incomingBeaconInterval : ℕ := 0
  incomingSuperframeDuration : ℕ := 0
  incomingMultisuperframeDuration : ℕ := 0
  incomingCAPReductionFlag : Bool := false
  incSDindex : ℕ := 0
  rxBeaconSymbols : ℕ := 0
  macBeaconRxTime : ℤ := 0
  startOfBcnSlotOfSyncParent : ℤ := 0
  incSuperframeStatus : SuperframeStatus := .inactive
  incomingFirstCFP : Bool := false
  incSuperframe : Bool := false
  beaconTrackingOn : Bool := false
  numLostBeacons : ℕ := 0

/-- The superframe counters. -/
structure SuperframeCount where
  curSuperframeIDx : ℕ := 0
  isFirstSuperframe : Bool := true
  multisuperframeSeq : ℤ := -1

/-- What the device advertises in its beacons. -/
structure Advertised where
  macSDBitmap : BeaconBitmap := {}
  /-- `m_macSDindex`, a `uint32_t` that is initialized with -1. -/
  macSDindex : ℕ := 2 ^ 32 - 1
  macPANCoordinatorBSN : BitVec 8 := 0
  macEbsn : BitVec 8 := 0
  hopping : HoppingDescriptor := {}
  dsmePanDescriptorIE : DsmePANDescriptorIE := {}

/-- The guaranteed time slots. -/
structure Gts where
  macDsmeACT : ActTable := .empty
  /-- `m_scheduleGTSsEvent.size()`; the stored event ids are never read. -/
  scheduleGTSsEventSize : ℕ := 0
  curGTSSuperframeID : ℕ := 0
  curGTSIdx : ℕ := 0
  /-- `m_currentGTSIdx`, which holds a slot ID in spite of its name. -/
  currentGTSIdx : ℕ := 0
  nextAlloc : ℕ := 0

/-- The group acknowledgments. -/
structure GroupAck where
  enhancedGACKBitmap : BitVec 64 := 0
  groupAckPktBuffer : List ℕ := []
  legacyGackBitmap : BitVec 16 := 0
  legacyGackDevList : BitVec 8 := 0
  legacyGackIdx : BitVec 16 := 0
  legacyGackDirections : BitVec 8 := 0
  legacyGackIndexCounter : ℕ := 0
  legacyGackGTSIdxBuffer : List ℕ := []

/-- `LrWpanCsmaCa`. -/
structure CsmaCa where
  isSlotted : Bool := false
  macMinBE : ℕ := 3
  macMaxBE : ℕ := 5
  macMaxCSMABackoffs : ℕ := 4
  macBattLifeExt : Bool := false
  nb : ℕ := 0
  cw : ℕ := 2
  be : ℕ := 3
  incCsma : Bool := false
  ccaRequestRunning : Bool := false
  randomBackoffPeriodsLeft : ℕ := 0

/-- A device. -/
structure Mac where
  cfg : Config := {}
  phy : PhyAnswers := {}
  sim : Sim := ⟨0, []⟩
  macState : LrWpanMacState := .macIdle
  tx : Tx := {}
  role : Role := {}
  out : Outgoing := {}
  inc : Incoming := {}
  count : SuperframeCount := {}
  adv : Advertised := {}
  gts : Gts := {}
  gack : GroupAck := {}
  csma : CsmaCa := {}
  trace : List Output := []

namespace Mac

/-! ## Small state changes -/

/-- `ChangeMacState`. -/
@[simp] abbrev changeMacState (s : Mac) (newState : LrWpanMacState) : Mac :=
  { s with macState := newState }

/-- Append to the trace. -/
@[simp] abbrev emit (s : Mac) (o : Output) : Mac :=
  { s with trace := s.trace ++ [o] }

/-- `m_txPkt = p`. -/
@[simp] abbrev setTxPkt (s : Mac) (p : Option Packet) : Mac :=
  { s with tx := { s.tx with txPkt := p } }

/-- `m.Cancel()`. -/
@[simp] abbrev cancel (s : Mac) (m : Member) : Mac :=
  { s with sim := s.sim.cancel m }

/-- `m.IsRunning()`. -/
@[simp] abbrev isRunning (s : Mac) (m : Member) : Bool := s.sim.isRunning m

/-- `m = Simulator::ScheduleNow(event)`. -/
@[simp] abbrev scheduleNow (s : Mac) (m : Member) (event : MacEvent)
    (h : m.mayHold event = true := by exact Eq.refl true) : Mac :=
  { s with sim := s.sim.post m event 0 h }

/-- `m = Simulator::Schedule(delay, event)`, which asserts that the delay is not negative. -/
def schedule (s : Mac) (m : Member) (event : MacEvent) (delay : ℤ)
    (h : m.mayHold event = true := by exact Eq.refl true) : Exec Mac :=
  if delay < 0 then .error .negativeDelay
  else .ok { s with sim := s.sim.post m event delay h }

/-- `m = Simulator::Schedule(delay, event)` for a delay of `n` symbols. -/
@[simp] abbrev scheduleSymbols (s : Mac) (m : Member) (event : MacEvent) (n : ℕ)
    (h : m.mayHold event = true := by exact Eq.refl true) : Mac :=
  { s with sim := s.sim.post m event (symbols n) h }

/-- `Simulator::Schedule(delay, event)`. -/
def scheduleAnonymous (s : Mac) (event : MacEvent) (delay : ℤ) : Exec Mac :=
  if delay < 0 then .error .negativeDelay
  else .ok { s with sim := s.sim.postAnonymous event delay }

/-- A GTS is going on: `m_incGtsEvent.IsRunning() || m_gtsEvent.IsRunning()`. -/
def gtsRunning (s : Mac) : Bool := s.isRunning .incGtsEvent || s.isRunning .gtsEvent

/-- The next answer to a `PlmeSetTRXStateRequest`. -/
def takeTrx (s : Mac) : Option LrWpanPhyEnumeration × Mac :=
  (s.phy.trx.headD none, { s with phy := { s.phy with trx := s.phy.trx.tail } })

/-- The next answer to a `PdDataRequest`. -/
def takeData (s : Mac) : Option PdDataRefusal × Mac :=
  (s.phy.data.headD none, { s with phy := { s.phy with data := s.phy.data.tail } })

/-- What the next change of the channel or the page breaks off. -/
def takeAttribute (s : Mac) : Interruption × Mac :=
  (s.phy.interruptions.headD {},
    { s with phy := { s.phy with interruptions := s.phy.interruptions.tail } })

/-- `a = b - c` on unsigned values; an underflow is reported, and execution continues with
the wrapped value. -/
def difference (s : Mac) (site : Difference) (width m n : ℕ) : ℕ × Mac :=
  if n ≤ m then (m - n, s) else (unsignedSub width m n, s.emit (.underflow site))

end Mac

end Ns3Dsme
