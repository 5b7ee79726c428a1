/-
# OLSR packets

The messages as octets, the packets that `SendQueuedMessages` makes of them and the loop of
`RecvOlsr` that takes them apart.  Sizes are counted by the writer, by the reader and by the loop.
-/
import Ns3Dsme.Lib.Wire
import Ns3Dsme.Lib.Word32
import Ns3Dsme.Olsr.RoutingProtocol

open Octet Reader

namespace Ns3Dsme.Olsr

/-! ## Sizes -/

/-- `Hello::GetSerializedSize`. -/
def Hello.getSerializedSize (hello : Hello) : ℕ :=
  hello.linkMessages.foldl (fun size lm => size + 4 + 4 * lm.neighborInterfaceAddresses.length) 4

def MessageBody.getSerializedSize : MessageBody → ℕ
  | .hello h => h.getSerializedSize
  | .tc t => 4 + t.neighborAddresses.length * 4
  | .mid interfaceAddresses => interfaceAddresses.length * 4
  | .hna associations => 2 * associations.length * 4

/-- `MessageHeader::GetSerializedSize`. -/
def MessageHeader.getSerializedSize (msg : MessageHeader) : ℕ := 12 + msg.body.getSerializedSize

/-! ## Writing -/

/-- `MessageType`. -/
def MessageBody.messageType : MessageBody → Octet
  | .hello _ => 1
  | .tc _ => 2
  | .mid _ => 3
  | .hna _ => 4

def LinkMessage.serialize (lm : LinkMessage) : List Octet :=
  [lm.linkCode, 0] ++ (octets16 (.ofNat 16 (4 + lm.neighborInterfaceAddresses.length * 4)) ++
    lm.neighborInterfaceAddresses.flatMap octets32)

def Hello.serialize (hello : Hello) : List Octet :=
  octets16 0 ++ ([hello.hTime, hello.willingness] ++
    hello.linkMessages.flatMap LinkMessage.serialize)

def Tc.serialize (tc : Tc) : List Octet :=
  octets16 tc.ansn ++ (octets16 0 ++ tc.neighborAddresses.flatMap octets32)

def Association.serialize (assoc : Association) : List Octet :=
  octets32 assoc.networkAddr ++ octets32 assoc.netmask

def MessageBody.serialize : MessageBody → List Octet
  | .hello h => h.serialize
  | .tc t => t.serialize
  | .mid interfaceAddresses => interfaceAddresses.flatMap octets32
  | .hna associations => associations.flatMap Association.serialize

/-- `MessageHeader::Serialize`. -/
def MessageHeader.serialize (msg : MessageHeader) : List Octet :=
  [msg.body.messageType, msg.vTime] ++ (octets16 (.ofNat 16 msg.getSerializedSize) ++
    (octets32 msg.originatorAddress ++ ([msg.timeToLive, msg.hopCount] ++
      (octets16 msg.messageSequenceNumber ++ msg.body.serialize))))

/-! ## Reading

What is read comes with the size that `Deserialize` returns. -/

/-- `NS_ASSERT`. -/
def check (test : Bool) : Reader Unit := fun octets => if test then some ((), octets) else none

/-- `Mid::Deserialize`. -/
def readMid (messageSize : ℕ) : Reader (MessageBody × ℕ) := do
  check (messageSize % 4 == 0)
  let interfaceAddresses ← many netWord32 (messageSize / 4)
  return (.mid interfaceAddresses, interfaceAddresses.length * 4)

/-- The loop of `Hello::Deserialize`, where `helloSizeLeft` is a `uint16_t`.  A size below 4 fails
the assertion, or else addresses are read without end.  Each turn takes octets, so that the octets
come to an end with the fuel. -/
def readLinkMessages : ℕ → ℕ → Reader (List LinkMessage)
  | _, 0 => pure []
  | 0, _ + 1 => fun _ => none
  | fuel + 1, helloSizeLeft + 1 => do
    check (decide (4 ≤ helloSizeLeft + 1))
    let linkCode ← octet
    let _ ← octet
    let lmSize ← netWord16
    check (decide (4 ≤ lmSize.toNat) && (lmSize.toNat - 4) % 4 == 0)
    let neighborInterfaceAddresses ← many netWord32 ((lmSize.toNat - 4) / 4)
    let rest ← readLinkMessages fuel ((helloSizeLeft + 1 + (2 ^ 16 - lmSize.toNat)) % 2 ^ 16)
    return ⟨linkCode, neighborInterfaceAddresses⟩ :: rest

/-- `Hello::Deserialize`. -/
def readHello (messageSize : ℕ) : Reader (MessageBody × ℕ) := do
  check (decide (4 ≤ messageSize))
  let _ ← netWord16
  let hTime ← octet
  let willingness ← octet
  let octets ← get
  let linkMessages ← readLinkMessages octets.length ((messageSize + (2 ^ 16 - 4)) % 2 ^ 16)
  return (.hello ⟨hTime, willingness, linkMessages⟩, messageSize)

/-- `Tc::Deserialize`. -/
def readTc (messageSize : ℕ) : Reader (MessageBody × ℕ) := do
  check (decide (4 ≤ messageSize))
  let ansn ← netWord16
  let _ ← netWord16
  check ((messageSize - 4) % 4 == 0)
  let neighborAddresses ← many netWord32 ((messageSize - 4) / 4)
  return (.tc ⟨ansn, neighborAddresses⟩, messageSize)

def readAssociation : Reader Association := do
  let address ← netWord32
  let mask ← netWord32
  return ⟨address, mask⟩

/-- `Hna::Deserialize`. -/
def readHna (messageSize : ℕ) : Reader (MessageBody × ℕ) := do
  check (messageSize % 8 == 0)
  let associations ← many readAssociation (messageSize / 4 / 2)
  return (.hna associations, messageSize)

/-- The body of a message of a type. -/
def readBody (messageType : Octet) (messageSize : ℕ) : Reader (MessageBody × ℕ) :=
  if messageType = 1 then readHello messageSize
  else if messageType = 2 then readTc messageSize
  else if messageType = 3 then readMid messageSize
  else if messageType = 4 then readHna messageSize
  else fun _ => none

/-- `MessageHeader::Deserialize`. -/
def readMessage : Reader (MessageHeader × ℕ) := do
  let messageType ← octet
  check (decide (1 ≤ messageType) && decide (messageType ≤ 4))
  let vTime ← octet
  let messageSize ← netWord16
  let originatorAddress ← netWord32
  let timeToLive ← octet
  let hopCount ← octet
  let messageSequenceNumber ← netWord16
  let (body, size) ← readBody messageType (Word32.sub messageSize.toNat 12)
  return (⟨vTime, originatorAddress, timeToLive, hopCount, messageSequenceNumber, body⟩, 12 + size)

/-- `RemoveHeader`: what is read, the size that is returned, and the packet without that. -/
def removeHeader {α : Type} (deserialize : Reader (α × ℕ)) (packet : List Octet) :
    Option (α × ℕ × List Octet) :=
  (deserialize.run packet).map fun r => (r.1.1, r.1.2, packet.drop r.1.2)

/-! ## Packets -/

structure PacketHeader where
  packetLength : BitVec 16
  packetSequenceNumber : BitVec 16
  deriving DecidableEq

def PacketHeader.serialize (header : PacketHeader) : List Octet :=
  octets16 header.packetLength ++ octets16 header.packetSequenceNumber

def readPacketHeader : Reader (PacketHeader × ℕ) := do
  let packetLength ← netWord16
  let packetSequenceNumber ← netWord16
  return (⟨packetLength, packetSequenceNumber⟩, 4)

/-- The loop of `RecvOlsr`, where `sizeLeft` is a `uint32_t`: the messages, and what is left over.
Each turn takes a message from the packet, so that the packet comes to an end with the fuel. -/
def readMessages : ℕ → ℕ → List Octet → Option (List MessageHeader × List Octet)
  | _, 0, packet => some ([], packet)
  | 0, _ + 1, _ => none
  | fuel + 1, sizeLeft + 1, packet => do
    let (msg, size, packet) ← removeHeader readMessage packet
    if size = 0 then none
    else
      let (messages, packet) ←
        readMessages fuel (Word32.sub (sizeLeft + 1) msg.getSerializedSize) packet
      return (msg :: messages, packet)

/-- `RecvOlsr`, up to the messages. -/
def recvOlsr (packet : List Octet) : Option (PacketHeader × List MessageHeader × List Octet) := do
  let (header, size, packet) ← removeHeader readPacketHeader packet
  if header.packetLength.toNat < size then none
  else
    let (messages, packet) ←
      readMessages packet.length (header.packetLength.toNat - size) packet
    return (header, messages, packet)

/-- `OLSR_MAX_MSGS`. -/
def maxMsgs : ℕ := 64

/-- The variables of `SendQueuedMessages`, with the packets that are sent. -/
structure Outgoing where
  packetSequenceNumber : BitVec 16
  packet : List Octet := []
  numMessages : ℕ := 0
  sent : List (List Octet) := []

/-- `SendPacket`, with `GetPacketSequenceNumber`; the length is cut to 16 bits. -/
def Outgoing.sendPacket (out : Outgoing) : Outgoing :=
  let packetSequenceNumber := out.packetSequenceNumber + 1
  let header : PacketHeader := ⟨.ofNat 16 (4 + out.packet.length), packetSequenceNumber⟩
  { out with packetSequenceNumber, sent := out.sent ++ [header.serialize ++ out.packet] }

/-- A turn of the loop over the queued messages. -/
def Outgoing.addMessage (out : Outgoing) (message : MessageHeader) : Outgoing :=
  let out := { out with
    packet := out.packet ++ message.serialize
    numMessages := out.numMessages + 1 }
  if out.numMessages = maxMsgs then { out.sendPacket with packet := [], numMessages := 0 } else out

/-- `SendQueuedMessages`. -/
def sendQueuedMessages (packetSequenceNumber : BitVec 16) (queuedMessages : List MessageHeader) :
    Outgoing :=
  let out := queuedMessages.foldl Outgoing.addMessage { packetSequenceNumber }
  if out.packet = [] then out else out.sendPacket

end Ns3Dsme.Olsr
