/-
# A node that runs OLSR

The handlers of `RoutingProtocol` for received messages and for timers, as functions of the
state of the node.  The events that the node has scheduled are part of that state.
-/
import Ns3Dsme.Lib.Octets
import Ns3Dsme.Lib.Program
import Ns3Dsme.Olsr.MprComputation

open KeyedList Program

namespace Ns3Dsme.Olsr

/-! ## Messages -/

/-- The links of one kind in a HELLO. -/
structure LinkMessage where
  linkCode : Octet
  neighborInterfaceAddresses : List Ipv4Address
  deriving DecidableEq

/-- What a HELLO says of a link. -/
inductive LinkType
  | unspec
  | asym
  | sym
  | lost
  deriving DecidableEq

/-- The two low bits of a link code. -/
def LinkMessage.linkType (m : LinkMessage) : LinkType :=
  match m.linkCode.toNat % 4 with
  | 0 => .unspec
  | 1 => .asym
  | 2 => .sym
  | _ => .lost

/-- What a HELLO says of a neighbour. -/
inductive NeighborType
  | notNeigh
  | symNeigh
  | mprNeigh
  | bad
  deriving DecidableEq

/-- The neighbour type with a value. -/
def NeighborType.ofCode : ℕ → NeighborType
  | 0 => .notNeigh
  | 1 => .symNeigh
  | 2 => .mprNeigh
  | _ => .bad

/-- The next two bits. -/
def LinkMessage.neighborType (m : LinkMessage) : NeighborType :=
  .ofCode (m.linkCode.toNat / 4 % 4)

/-- A HELLO message. -/
structure Hello where
  /-- The interval between HELLOs, as mantissa and exponent. -/
  hTime : Octet
  willingness : Octet
  linkMessages : List LinkMessage
  deriving DecidableEq

/-- A TC message: the nodes that have chosen its originator as a relay. -/
structure Tc where
  ansn : BitVec 16
  neighborAddresses : List Ipv4Address
  deriving DecidableEq

/-- The four kinds of messages. -/
inductive MessageBody
  | hello (hello : Hello)
  | tc (tc : Tc)
  | mid (interfaceAddresses : List Ipv4Address)
  | hna (associations : List Association)
  deriving DecidableEq

/-- A message with its header. -/
structure MessageHeader where
  /-- Mantissa and exponent of the validity time. -/
  vTime : Octet
  originatorAddress : Ipv4Address
  timeToLive : Octet
  hopCount : Octet
  messageSequenceNumber : BitVec 16
  body : MessageBody
  deriving DecidableEq

/-- `EmfToSeconds`: one sixteenth of a second times `1 + a / 16` times `2 ^ b`, which is a whole
number of nanoseconds. -/
def emfToTime (olsrFormat : Octet) : ℤ :=
  3906250 * (16 + (olsrFormat.toNat / 16 : ℕ)) * ((1 <<< (olsrFormat.toNat % 16) : ℕ) : ℤ)

/-- How long the content of a message is valid. -/
def MessageHeader.getVTime (msg : MessageHeader) : ℤ := emfToTime msg.vTime

/-! ## The node -/

/-- The timer handlers of the node with the keys they are scheduled with. -/
inductive TimerAction
  | dupTuple (address : Ipv4Address) (sequenceNumber : BitVec 16)
  | linkTuple (neighborIfaceAddr : Ipv4Address)
  | nb2hopTuple (neighborMainAddr twoHopNeighborAddr : Ipv4Address)
  | mprSelTuple (mainAddr : Ipv4Address)
  | topologyTuple (destAddr lastAddr : Ipv4Address)
  | ifaceAssocTuple (ifaceAddr : Ipv4Address)
  | associationTuple (gatewayAddr networkAddr : Ipv4Address) (netmask : Ipv4Mask)
  deriving DecidableEq

/-- A timer that is running. -/
structure Event where
  time : ℤ
  action : TimerAction
  deriving DecidableEq

/-- `RoutingProtocol`: a node with its repositories, counters and timers. -/
structure RoutingProtocol where
  mainAddress : Ipv4Address
  helloInterval : ℤ
  /-- `OLSR_TOP_HOLD_TIME` as `SetVTime` encodes it. -/
  topHoldVTime : Octet
  state : OlsrState := {}
  ansn : BitVec 16 := 65535
  messageSequenceNumber : BitVec 16 := 65535
  linkTupleTimerFirstTime : Bool := true
  now : ℤ := 0
  events : List Event := []
  queuedMessages : List MessageHeader := []
  /-- A ghost: how often the ANSN has been increased. -/
  ansnSteps : ℕ := 0
  deriving DecidableEq

/-- What ends the program. -/
inductive OlsrFault
  /-- `NS_FATAL_ERROR ("bad link type")` -/
  | badLinkType
  /-- The loop of `MprComputation` does not end. -/
  | endless
  deriving DecidableEq

/-- Neighbours are remembered for three refresh intervals. -/
def RoutingProtocol.neighbHoldTime (n : RoutingProtocol) : ℤ := 3 * n.helloInterval

/-- `OLSR_DUP_HOLD_TIME`. -/
def dupHoldTime : ℤ := seconds 30

namespace RoutingProtocol

/-! ### Small steps -/

/-- Change the repositories. -/
def withState (f : OlsrState → OlsrState) (n : RoutingProtocol) : RoutingProtocol :=
  { n with state := f n.state }

/-- The macro `DELAY`: a microsecond after the given time, or after now if that is later. -/
def delay (n : RoutingProtocol) (time : ℤ) : ℤ :=
  if time < n.now then 1000 else time - n.now + 1000

/-- Start a timer. -/
def schedule (delay : ℤ) (action : TimerAction) (n : RoutingProtocol) : RoutingProtocol :=
  { n with events := n.events ++ [⟨n.now + delay, action⟩] }

/-- The main address of the node that has an interface. -/
def getMainAddress (n : RoutingProtocol) (ifaceAddr : Ipv4Address) : Ipv4Address :=
  n.state.getMainAddress ifaceAddr

/-- The ANSN is a `uint16_t` and is counted modulo `OLSR_MAX_SEQ_NUM + 1`. -/
def incrementAnsn (n : RoutingProtocol) : RoutingProtocol :=
  { n with
    ansn := BitVec.ofNat 16 ((n.ansn.toNat + 1) % (65535 + 1))
    ansnSteps := n.ansnSteps + 1 }

/-- `AddNeighborTuple`: the ANSN counts changes of the neighbours. -/
def addNeighborTuple (tuple : NeighborTuple) (n : RoutingProtocol) : RoutingProtocol :=
  (n.withState (·.insertNeighborTuple tuple)).incrementAnsn

/-- `AddMprSelectorTuple`: the ANSN counts it. -/
def addMprSelectorTuple (tuple : MprSelectorTuple) (n : RoutingProtocol) : RoutingProtocol :=
  (n.withState (·.insertMprSelectorTuple tuple)).incrementAnsn

/-- `RemoveMprSelectorTuple`: the ANSN counts it. -/
def removeMprSelectorTuple (tuple : MprSelectorTuple) (n : RoutingProtocol) : RoutingProtocol :=
  (n.withState (·.eraseMprSelectorTuple tuple)).incrementAnsn

/-! ### Links and neighbours -/

/-- A link whose symmetric time is not over counts as symmetric. -/
def statusOf (symmetric : Bool) : NeighborTuple.Status := if symmetric then .sym else .notSym

/-- `LinkTupleAdded`: a link makes a neighbour. -/
def linkTupleAdded (tuple : LinkTuple) (willingness : Octet) (n : RoutingProtocol) :
    RoutingProtocol :=
  n.addNeighborTuple
    { neighborMainAddr := n.getMainAddress tuple.neighborIfaceAddr
      status := statusOf (decide (n.now ≤ tuple.symTime))
      willingness }

/-- The second half of `LinkTupleUpdated`: the status of the neighbour that was found. -/
def updateNeighborStatus (mainAddr : Ipv4Address) (n : RoutingProtocol) : RoutingProtocol :=
  let hasSymmetricLink := n.state.linkSet.any fun link =>
    n.getMainAddress link.neighborIfaceAddr == mainAddr && decide (n.now ≤ link.symTime)
  n.withState (·.changeNeighborTuple mainAddr fun t =>
    { t with status := statusOf hasSymmetricLink })

/-- `LinkTupleUpdated`: the neighbour is as symmetric as its links. -/
def linkTupleUpdated (tuple : LinkTuple) (willingness : Octet) (n : RoutingProtocol) :
    RoutingProtocol :=
  let mainAddr := n.getMainAddress tuple.neighborIfaceAddr
  let n :=
    if (n.state.findNeighborTuple mainAddr).isNone then n.linkTupleAdded tuple willingness else n
  n.updateNeighborStatus mainAddr

/-- `RemoveLinkTuple`: the neighbour goes with any of its links. -/
def removeLinkTuple (tuple : LinkTuple) (n : RoutingProtocol) : RoutingProtocol :=
  n.withState fun s =>
    (s.eraseNeighborTuple (n.getMainAddress tuple.neighborIfaceAddr)).eraseLinkTuple tuple

/-- `MprComputation` stores the relays it has chosen. -/
def mprComputation (n : RoutingProtocol) : Except OlsrFault RoutingProtocol :=
  match n.state.mprComputation n.mainAddress with
  | some mprSet => .ok (n.withState fun s => { s with mprSet })
  | none => .error .endless

/-- The routing table that is computed at the end is not part of this state. -/
def neighborLoss (tuple : LinkTuple) (n : RoutingProtocol) : Except OlsrFault RoutingProtocol :=
  let n := n.linkTupleUpdated tuple willDefault
  let mainAddr := n.getMainAddress tuple.neighborIfaceAddr
  (n.withState fun s =>
    (s.eraseTwoHopNeighborTuples mainAddr).eraseMprSelectorTuples mainAddr).mprComputation

/-! ### HELLO messages -/

/-- The link tuple of a HELLO and whether it counts as updated. -/
structure Sensed where
  link : LinkTuple
  updated : Bool

/-- One link message in `LinkSensing`: the first occurrence of the receiver's interface counts. -/
def senseLinkMessage (vTime : ℤ) (receiverIface : Ipv4Address) (n : RoutingProtocol)
    (sensed : Sensed) (linkMessage : LinkMessage) : Except OlsrFault Sensed :=
  let lt := linkMessage.linkType
  let nt := linkMessage.neighborType
  if (lt = .sym ∧ nt = .notNeigh) ∨ nt = .bad then .ok sensed
  else if linkMessage.neighborInterfaceAddresses.contains receiverIface then
    match lt with
    | .lost => .ok ⟨{ sensed.link with symTime := n.now - seconds 1 }, true⟩
    | .sym | .asym =>
      .ok ⟨{ sensed.link with
        symTime := n.now + vTime
        time := n.now + vTime + n.neighbHoldTime }, true⟩
    | .unspec => .error .badLinkType
  else .ok sensed

/-- The link tuple that `LinkSensing` starts from. -/
def sensedLink (vTime : ℤ) (receiverIface senderIface : Ipv4Address) (n : RoutingProtocol) :
    LinkTuple :=
  let link := (n.state.findLinkTuple senderIface).getD
    { localIfaceAddr := receiverIface
      neighborIfaceAddr := senderIface
      symTime := n.now - seconds 1
      -- written before it is read
      asymTime := 0
      time := n.now + vTime }
  { link with asymTime := n.now + vTime }

/-- The link tuple as `LinkSensing` leaves it. -/
def Sensed.tuple (sensed : Sensed) : LinkTuple :=
  { sensed.link with time := max sensed.link.time sensed.link.asymTime }

/-- What `LinkSensing` does once the link tuple is known. -/
def storeLink (created updated : Bool) (willingness : Octet) (link : LinkTuple)
    (n : RoutingProtocol) : RoutingProtocol :=
  let n := n.withState fun s => if created then s.insertLinkTuple link else s.writeLinkTuple link
  let n := if updated then n.linkTupleUpdated link willingness else n
  if created then
    let n := n.linkTupleAdded link willingness
    n.schedule (n.delay (min link.time link.symTime)) (.linkTuple link.neighborIfaceAddr)
  else n

/-- `LinkSensing`: the link that a HELLO came over. -/
def linkSensing (msg : MessageHeader) (hello : Hello) (receiverIface senderIface : Ipv4Address)
    (n : RoutingProtocol) : Except OlsrFault RoutingProtocol := do
  let created := (n.state.findLinkTuple senderIface).isNone
  let link := n.sensedLink msg.getVTime receiverIface senderIface
  let sensed ← hello.linkMessages.foldlM (senseLinkMessage msg.getVTime receiverIface n)
    ⟨link, !created⟩
  return n.storeLink created sensed.updated hello.willingness sensed.tuple

/-- `PopulateNeighborSet`: the willingness of a neighbour. -/
def populateNeighborSet (msg : MessageHeader) (hello : Hello) (n : RoutingProtocol) :
    RoutingProtocol :=
  n.withState (·.changeNeighborTuple msg.originatorAddress fun t =>
    { t with willingness := hello.willingness })

/-- One address of a link message in `PopulateTwoHopNeighborSet`. -/
def populateTwoHopNeighbor (msg : MessageHeader) (neighborType : NeighborType)
    (n : RoutingProtocol) (addr : Ipv4Address) : RoutingProtocol :=
  let nb2hopAddr := n.getMainAddress addr
  let expirationTime := n.now + msg.getVTime
  match neighborType with
  | .symNeigh | .mprNeigh =>
    if nb2hopAddr = n.mainAddress then n
    else
      match n.state.findTwoHopNeighborTuple msg.originatorAddress nb2hopAddr with
      | none =>
        (n.withState (·.insertTwoHopNeighborTuple
          ⟨msg.originatorAddress, nb2hopAddr, expirationTime⟩)).schedule
            (n.delay expirationTime) (.nb2hopTuple msg.originatorAddress nb2hopAddr)
      | some _ =>
        n.withState (·.refreshTwoHopNeighborTuple msg.originatorAddress nb2hopAddr
          expirationTime)
  | .notNeigh =>
    n.withState (·.eraseTwoHopNeighborTuplesTo msg.originatorAddress nb2hopAddr)
  | .bad => n

/-- The link messages are gone through once for every symmetric link to the originator. -/
def populateTwoHopNeighborSet (msg : MessageHeader) (hello : Hello) (n : RoutingProtocol) :
    RoutingProtocol :=
  n.state.linkSet.foldl (fun n link =>
    if n.getMainAddress link.neighborIfaceAddr ≠ msg.originatorAddress then n
    else if link.symTime < n.now then n
    else
      hello.linkMessages.foldl (fun n linkMessage =>
        linkMessage.neighborInterfaceAddresses.foldl
          (populateTwoHopNeighbor msg linkMessage.neighborType) n) n) n

/-- One address in `PopulateMprSelectorSet`. -/
def populateMprSelector (msg : MessageHeader) (n : RoutingProtocol) (addr : Ipv4Address) :
    RoutingProtocol :=
  if n.getMainAddress addr = n.mainAddress then
    let expirationTime := n.now + msg.getVTime
    match n.state.findMprSelectorTuple msg.originatorAddress with
    | none =>
      (n.addMprSelectorTuple ⟨msg.originatorAddress, expirationTime⟩).schedule
        (n.delay expirationTime) (.mprSelTuple msg.originatorAddress)
    | some _ => n.withState (·.refreshMprSelectorTuple msg.originatorAddress expirationTime)
  else n

/-- Here the neighbour type is the whole rest of the link code. -/
def populateMprSelectorSet (msg : MessageHeader) (hello : Hello) (n : RoutingProtocol) :
    RoutingProtocol :=
  hello.linkMessages.foldl (fun n linkMessage =>
    if NeighborType.ofCode (linkMessage.linkCode.toNat / 4) = .mprNeigh then
      linkMessage.neighborInterfaceAddresses.foldl (populateMprSelector msg) n
    else n) n

/-- `ProcessHello`. -/
def processHello (msg : MessageHeader) (hello : Hello) (receiverIface senderIface : Ipv4Address)
    (n : RoutingProtocol) : Except OlsrFault RoutingProtocol := do
  let n ← n.linkSensing msg hello receiverIface senderIface
  let n := n.populateNeighborSet msg hello
  let n := n.populateTwoHopNeighborSet msg hello
  let n ← n.mprComputation
  return n.populateMprSelectorSet msg hello

/-! ### TC, MID and HNA messages -/

/-- One advertised neighbour in `ProcessTc`. -/
def advertisedNeighbor (msg : MessageHeader) (ansn : BitVec 16) (n : RoutingProtocol)
    (addr : Ipv4Address) : RoutingProtocol :=
  let expirationTime := n.now + msg.getVTime
  match n.state.findTopologyTuple addr msg.originatorAddress with
  | some _ => n.withState (·.refreshTopologyTuple addr msg.originatorAddress expirationTime)
  | none =>
    (n.withState (·.insertTopologyTuple
      ⟨addr, msg.originatorAddress, ansn, expirationTime⟩)).schedule
        (n.delay expirationTime) (.topologyTuple addr msg.originatorAddress)

/-- `ProcessTc`: what is older than the message is erased first. -/
def processTc (msg : MessageHeader) (tc : Tc) (senderIface : Ipv4Address) (n : RoutingProtocol) :
    RoutingProtocol :=
  if (n.state.findSymLinkTuple senderIface n.now).isNone then n
  else if (n.state.findNewerTopologyTuple msg.originatorAddress tc.ansn).isSome then n
  else
    tc.neighborAddresses.foldl (advertisedNeighbor msg tc.ansn)
      (n.withState (·.eraseOlderTopologyTuples msg.originatorAddress tc.ansn))

/-- One interface in `ProcessMid`. -/
def associateIface (msg : MessageHeader) (n : RoutingProtocol) (addr : Ipv4Address) :
    RoutingProtocol :=
  let time := n.now + msg.getVTime
  let listed (t : IfaceAssocTuple) : Bool :=
    t.ifaceAddr == addr && t.mainAddr == msg.originatorAddress
  if n.state.ifaceAssocSet.any listed then
    n.withState fun s =>
      { s with ifaceAssocSet := s.ifaceAssocSet.map fun t =>
          if listed t then { t with time } else t }
  else
    (n.withState (·.insertIfaceAssocTuple ⟨addr, msg.originatorAddress, time⟩)).schedule
      (n.delay time) (.ifaceAssocTuple addr)

/-- The addresses of neighbours and two-hop neighbours are replaced by main addresses. -/
def renameNeighbors (n : RoutingProtocol) : RoutingProtocol :=
  n.withState fun s =>
    { s with
      neighborSet := s.neighborSet.map fun t =>
        { t with neighborMainAddr := n.getMainAddress t.neighborMainAddr }
      twoHopNeighborSet := s.twoHopNeighborSet.map fun t =>
        { t with
          neighborMainAddr := n.getMainAddress t.neighborMainAddr
          twoHopNeighborAddr := n.getMainAddress t.twoHopNeighborAddr } }

/-- `ProcessMid`. -/
def processMid (msg : MessageHeader) (interfaceAddresses : List Ipv4Address)
    (senderIface : Ipv4Address) (n : RoutingProtocol) : RoutingProtocol :=
  if (n.state.findSymLinkTuple senderIface n.now).isNone then n
  else (interfaceAddresses.foldl (associateIface msg) n).renameNeighbors

/-- One network in `ProcessHna`. -/
def associateNetwork (msg : MessageHeader) (n : RoutingProtocol) (network : Association) :
    RoutingProtocol :=
  let expirationTime := n.now + msg.getVTime
  match n.state.findAssociationTuple msg.originatorAddress network.networkAddr
      network.netmask with
  | some _ =>
    n.withState (·.refreshAssociationTuple msg.originatorAddress network.networkAddr
      network.netmask expirationTime)
  | none =>
    (n.withState (·.insertAssociationTuple
      ⟨msg.originatorAddress, network.networkAddr, network.netmask, expirationTime⟩)).schedule
        (n.delay expirationTime)
        (.associationTuple msg.originatorAddress network.networkAddr network.netmask)

/-- `ProcessHna`. -/
def processHna (msg : MessageHeader) (associations : List Association)
    (senderIface : Ipv4Address) (n : RoutingProtocol) : RoutingProtocol :=
  if (n.state.findSymLinkTuple senderIface n.now).isNone then n
  else associations.foldl (associateNetwork msg) n

/-! ### Reception -/

/-- `QueueMessage`. -/
def queueMessage (msg : MessageHeader) (n : RoutingProtocol) : RoutingProtocol :=
  { n with queuedMessages := n.queuedMessages ++ [msg] }

/-- The end of `ForwardDefault`: the message has been considered for forwarding. -/
def recordDuplicate (msg : MessageHeader) (duplicated retransmitted : Bool)
    (localIface : Ipv4Address) (n : RoutingProtocol) : RoutingProtocol :=
  let expirationTime := n.now + dupHoldTime
  if duplicated then
    n.withState (·.changeDuplicateTuple msg.originatorAddress msg.messageSequenceNumber fun t =>
      { t with expirationTime, retransmitted, ifaceList := t.ifaceList ++ [localIface] })
  else
    (n.withState (·.insertDuplicateTuple
      ⟨msg.originatorAddress, msg.messageSequenceNumber, retransmitted, [localIface],
        expirationTime⟩)).schedule dupHoldTime
          (.dupTuple msg.originatorAddress msg.messageSequenceNumber)

/-- A message is retransmitted for a neighbour that has chosen this node as a relay. -/
def retransmits (msg : MessageHeader) (senderAddress : Ipv4Address) (n : RoutingProtocol) : Bool :=
  decide (1 < msg.timeToLive.toNat) &&
    (n.state.findMprSelectorTuple (n.getMainAddress senderAddress)).isSome

/-- `ForwardDefault`: a message is sent on at most once. -/
def forwardDefault (msg : MessageHeader) (duplicated : Option DuplicateTuple)
    (localIface senderAddress : Ipv4Address) (n : RoutingProtocol) : RoutingProtocol :=
  if (n.state.findSymLinkTuple senderAddress n.now).isNone then n
  else if duplicated.any (·.retransmitted) then n
  else
    let retransmitted := n.retransmits msg senderAddress
    let n :=
      if retransmitted then
        n.queueMessage { msg with
          timeToLive := msg.timeToLive - 1
          hopCount := msg.hopCount + 1 }
      else n
    n.recordDuplicate msg duplicated.isSome retransmitted localIface

/-- The message is processed according to its type. -/
def processMessage (msg : MessageHeader) (receiverIface senderIface : Ipv4Address)
    (n : RoutingProtocol) : Except OlsrFault RoutingProtocol :=
  match msg.body with
  | .hello hello => n.processHello msg hello receiverIface senderIface
  | .tc tc => .ok (n.processTc msg tc senderIface)
  | .mid interfaceAddresses => .ok (n.processMid msg interfaceAddresses senderIface)
  | .hna associations => .ok (n.processHna msg associations senderIface)

/-- HELLO messages are never forwarded. -/
def MessageBody.isHello : MessageBody → Bool
  | .hello _ => true
  | _ => false

/-- A message that is known already is not processed again. -/
def processNew (msg : MessageHeader) (receiverIface senderIface : Ipv4Address)
    (n : RoutingProtocol) : Except OlsrFault RoutingProtocol :=
  if (n.state.findDuplicateTuple msg.originatorAddress msg.messageSequenceNumber).isNone then
    n.processMessage msg receiverIface senderIface
  else .ok n

/-- A message that was considered for forwarding on the interface is not considered again. -/
def considerForwarding (msg : MessageHeader) (duplicated : Option DuplicateTuple)
    (receiverIface senderIface : Ipv4Address) (n : RoutingProtocol) : RoutingProtocol :=
  if duplicated.any (fun t => t.ifaceList.contains receiverIface) || MessageBody.isHello msg.body
  then n
  else n.forwardDefault msg duplicated receiverIface senderIface

/-- The message is neither dropped nor known already. -/
def IsNewMessage (n : RoutingProtocol) (msg : MessageHeader) : Prop :=
  msg.timeToLive ≠ 0 ∧ msg.originatorAddress ≠ n.mainAddress ∧
    n.state.findDuplicateTuple msg.originatorAddress msg.messageSequenceNumber = none

instance (n : RoutingProtocol) (msg : MessageHeader) : Decidable (n.IsNewMessage msg) :=
  inferInstanceAs (Decidable (_ ∧ _ ∧ _))

/-- One message of a packet in `RecvOlsr`. -/
def recvMessage (msg : MessageHeader) (receiverIface senderIface : Ipv4Address)
    (n : RoutingProtocol) : Except OlsrFault RoutingProtocol :=
  if msg.timeToLive = 0 ∨ msg.originatorAddress = n.mainAddress then .ok n
  else
    let duplicated := n.state.findDuplicateTuple msg.originatorAddress msg.messageSequenceNumber
    (n.processNew msg receiverIface senderIface).map
      (considerForwarding msg duplicated receiverIface senderIface)

/-- `RecvOlsr`, up to the computation of the routing table. -/
def recvOlsr (messages : List MessageHeader) (receiverIface senderIface : Ipv4Address)
    (n : RoutingProtocol) : Except OlsrFault RoutingProtocol :=
  messages.foldlM (fun n msg => n.recvMessage msg receiverIface senderIface) n

/-! ### Sending -/

/-- `GetMessageSequenceNumber`. -/
def getMessageSequenceNumber (n : RoutingProtocol) : BitVec 16 :=
  BitVec.ofNat 16 ((n.messageSequenceNumber.toNat + 1) % (65535 + 1))

/-- The TC message that `SendTc` makes. -/
def tcMessage (n : RoutingProtocol) : MessageHeader :=
  { vTime := n.topHoldVTime
    originatorAddress := n.mainAddress
    timeToLive := 255
    hopCount := 0
    messageSequenceNumber := n.getMessageSequenceNumber
    body := .tc ⟨n.ansn, n.state.mprSelectorSet.map (·.mainAddr)⟩ }

/-- `SendTc`: the message waits in the queue. -/
def sendTc (n : RoutingProtocol) : RoutingProtocol :=
  { n.queueMessage n.tcMessage with messageSequenceNumber := n.getMessageSequenceNumber }

/-! ### Timers -/

/-- What the timers of the repositories do: a tuple that is still there is removed when it has
expired, and otherwise the timer is set again. -/
def tupleTimerExpire {τ : Type} (found : Option τ) (expirationTime : τ → ℤ)
    (remove : τ → RoutingProtocol → RoutingProtocol) (again : τ → TimerAction)
    (n : RoutingProtocol) : RoutingProtocol :=
  match found with
  | none => n
  | some tuple =>
    if expirationTime tuple < n.now then remove tuple n
    else n.schedule (n.delay (expirationTime tuple)) (again tuple)

/-- `DupTupleTimerExpire`. -/
def dupTupleTimerExpire (address : Ipv4Address) (sequenceNumber : BitVec 16)
    (n : RoutingProtocol) : RoutingProtocol :=
  n.tupleTimerExpire (n.state.findDuplicateTuple address sequenceNumber) (·.expirationTime)
    (fun t n => n.withState (·.eraseDuplicateTuple t)) fun _ => .dupTuple address sequenceNumber

/-- `LinkTupleTimerExpire`: the first time, a link that is not symmetric loses no neighbour. -/
def linkTupleTimerExpire (neighborIfaceAddr : Ipv4Address) (n : RoutingProtocol) :
    Except OlsrFault RoutingProtocol :=
  match n.state.findLinkTuple neighborIfaceAddr with
  | none => .ok n
  | some tuple =>
    if tuple.time < n.now then .ok (n.removeLinkTuple tuple)
    else if tuple.symTime < n.now then
      let n' :=
        if n.linkTupleTimerFirstTime then .ok { n with linkTupleTimerFirstTime := false }
        else n.neighborLoss tuple
      n'.map fun n => n.schedule (n.delay tuple.time) (.linkTuple neighborIfaceAddr)
    else .ok (n.schedule (n.delay (min tuple.time tuple.symTime)) (.linkTuple neighborIfaceAddr))

/-- `Nb2hopTupleTimerExpire`. -/
def nb2hopTupleTimerExpire (neighborMainAddr twoHopNeighborAddr : Ipv4Address)
    (n : RoutingProtocol) : RoutingProtocol :=
  n.tupleTimerExpire (n.state.findTwoHopNeighborTuple neighborMainAddr twoHopNeighborAddr)
    (·.expirationTime) (fun t n => n.withState (·.eraseTwoHopNeighborTuple t))
    fun _ => .nb2hopTuple neighborMainAddr twoHopNeighborAddr

/-- `MprSelTupleTimerExpire`. -/
def mprSelTupleTimerExpire (mainAddr : Ipv4Address) (n : RoutingProtocol) : RoutingProtocol :=
  n.tupleTimerExpire (n.state.findMprSelectorTuple mainAddr) (·.expirationTime)
    removeMprSelectorTuple fun _ => .mprSelTuple mainAddr

/-- `TopologyTupleTimerExpire`. -/
def topologyTupleTimerExpire (destAddr lastAddr : Ipv4Address) (n : RoutingProtocol) :
    RoutingProtocol :=
  n.tupleTimerExpire (n.state.findTopologyTuple destAddr lastAddr) (·.expirationTime)
    (fun t n => n.withState (·.eraseTopologyTuple t))
    fun t => .topologyTuple t.destAddr t.lastAddr

/-- `IfaceAssocTupleTimerExpire`. -/
def ifaceAssocTupleTimerExpire (ifaceAddr : Ipv4Address) (n : RoutingProtocol) :
    RoutingProtocol :=
  n.tupleTimerExpire (n.state.findIfaceAssocTuple ifaceAddr) (·.time)
    (fun t n => n.withState (·.eraseIfaceAssocTuple t)) fun _ => .ifaceAssocTuple ifaceAddr

/-- `AssociationTupleTimerExpire`. -/
def associationTupleTimerExpire (gatewayAddr networkAddr : Ipv4Address) (netmask : Ipv4Mask)
    (n : RoutingProtocol) : RoutingProtocol :=
  n.tupleTimerExpire (n.state.findAssociationTuple gatewayAddr networkAddr netmask)
    (·.expirationTime) (fun t n => n.withState (·.eraseAssociationTuple t))
    fun _ => .associationTuple gatewayAddr networkAddr netmask

/-- Run the handler of a timer. -/
def timerExpire (action : TimerAction) (n : RoutingProtocol) : Except OlsrFault RoutingProtocol :=
  match action with
  | .dupTuple address sequenceNumber => .ok (n.dupTupleTimerExpire address sequenceNumber)
  | .linkTuple neighborIfaceAddr => n.linkTupleTimerExpire neighborIfaceAddr
  | .nb2hopTuple neighborMainAddr twoHopNeighborAddr =>
    .ok (n.nb2hopTupleTimerExpire neighborMainAddr twoHopNeighborAddr)
  | .mprSelTuple mainAddr => .ok (n.mprSelTupleTimerExpire mainAddr)
  | .topologyTuple destAddr lastAddr => .ok (n.topologyTupleTimerExpire destAddr lastAddr)
  | .ifaceAssocTuple ifaceAddr => .ok (n.ifaceAssocTupleTimerExpire ifaceAddr)
  | .associationTuple gatewayAddr networkAddr netmask =>
    .ok (n.associationTupleTimerExpire gatewayAddr networkAddr netmask)

end RoutingProtocol

/-! ## What happens to a node -/

/-- What happens to a node. -/
inductive NodeAction
  | recv (messages : List MessageHeader) (receiverIface senderIface : Ipv4Address)
  /-- The simulator runs a scheduled event. -/
  | fire (event : Event)
  /-- Time passes. -/
  | advance (time : ℤ)
  | sendTc
  deriving DecidableEq

namespace RoutingProtocol

/-- Events run at their time, and time does not pass an event. -/
def enabled (n : RoutingProtocol) : NodeAction → Prop
  | .recv _ _ _ => True
  | .fire event => event ∈ n.events ∧ event.time = n.now
  | .advance time => n.now ≤ time ∧ ∀ event ∈ n.events, time ≤ event.time
  -- `TcTimerExpire`: no TC is sent for an empty set
  | .sendTc => n.state.mprSelectorSet ≠ []

instance (n : RoutingProtocol) (a : NodeAction) : Decidable (n.enabled a) := by
  cases a <;> dsimp only [enabled] <;> infer_instance

/-- Carry out an action. -/
def act (n : RoutingProtocol) : NodeAction → Except OlsrFault RoutingProtocol
  | .recv messages receiverIface senderIface => n.recvOlsr messages receiverIface senderIface
  | .fire event => { n with events := n.events.erase event }.timerExpire event.action
  | .advance time => .ok { n with now := time }
  | .sendTc => .ok n.sendTc

end RoutingProtocol

/-! ## Examples -/

/-- A node with a main address and nothing in its repositories. -/
def RoutingProtocol.fresh (mainAddress : Ipv4Address) : RoutingProtocol where
  mainAddress
  helloInterval := seconds 2
  topHoldVTime := 0x07

/-- A HELLO of node `addr` that lists a link to another node. -/
def helloOf (addr : Ipv4Address) (vTime linkCode : Octet) (other : Ipv4Address) :
    MessageHeader where
  vTime
  originatorAddress := addr
  timeToLive := 1
  hopCount := 0
  messageSequenceNumber := 0
  body := .hello ⟨0, willDefault, [⟨linkCode, [other]⟩]⟩

end Ns3Dsme.Olsr
