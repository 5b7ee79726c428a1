/-
# What is sent is what is received

The loop of `RecvOlsr` takes every packet of `SendQueuedMessages` apart into the messages it was
made of, as long as its length fits into 16 bits.
-/
import Ns3Dsme.Olsr.PacketCodec
import Mathlib.Data.List.Forall2

open List Octet Reader

namespace Ns3Dsme.Olsr

open MessageHeader

/-! ## Sizes -/

theorem length_octets32_flatMap (addresses : List Ipv4Address) :
    (addresses.flatMap octets32).length = addresses.length * 4 := by
  induction addresses with
  | nil => rfl
  | cons address addresses ih =>
    have hlen : (octets32 address).length = 4 := rfl
    rw [flatMap_cons, length_append, ih, hlen, length_cons]
    omega

theorem LinkMessage.length_serialize (lm : LinkMessage) :
    lm.serialize.length = 4 + lm.neighborInterfaceAddresses.length * 4 := by
  unfold LinkMessage.serialize
  rw [length_append, length_append, length_octets32_flatMap]
  show 2 + (2 + _) = _
  omega

/-- The loop that counts the link messages. -/
theorem foldl_linkMessages (lms : List LinkMessage) (size : ℕ) :
    lms.foldl (fun size lm => size + 4 + 4 * lm.neighborInterfaceAddresses.length) size =
      size + (lms.flatMap LinkMessage.serialize).length := by
  induction lms generalizing size with
  | nil => rfl
  | cons lm lms ih =>
    rw [foldl_cons, ih, flatMap_cons, length_append, lm.length_serialize]
    omega

/-- **Each body is as long as its size says.** -/
theorem MessageBody.length_serialize (body : MessageBody) :
    body.serialize.length = body.getSerializedSize := by
  cases body with
  | hello h =>
    show (octets16 0 ++ ([h.hTime, h.willingness] ++
      h.linkMessages.flatMap LinkMessage.serialize)).length = h.linkMessages.foldl _ 4
    rw [foldl_linkMessages, length_append, length_append]
    show 2 + (2 + _) = _
    omega
  | tc t =>
    show (octets16 t.ansn ++ (octets16 0 ++ t.neighborAddresses.flatMap octets32)).length = _
    rw [length_append, length_append, length_octets32_flatMap]
    show 2 + (2 + _) = 4 + _
    omega
  | mid interfaceAddresses => exact length_octets32_flatMap interfaceAddresses
  | hna associations =>
    show (associations.flatMap Association.serialize).length = 2 * associations.length * 4
    induction associations with
    | nil => rfl
    | cons assoc associations ih =>
      have hlen : assoc.serialize.length = 8 := rfl
      rw [flatMap_cons, length_append, ih, hlen, length_cons]
      omega

variable {chunks : List (List MessageHeader)} (packetSequenceNumber : BitVec 16)
  (msgs : List MessageHeader) (msg : MessageHeader)

theorem MessageHeader.length_serialize : msg.serialize.length = msg.getSerializedSize := by
  unfold serialize getSerializedSize
  rw [← msg.body.length_serialize]
  simp only [length_append]
  show 2 + (2 + (4 + (2 + (2 + _)))) = _
  omega

/-! ## Readers -/

theorem reads_check {test : Bool} (h : test = true) : Reads (check test) [] () := by
  intro rest
  show (if test then some ((), rest) else none) = _
  rw [if_pos h]

/-- A reader that looks at what is left. -/
theorem reads_get {α : Type} {f : List Octet → Reader α} {xs : List Octet} {a : α}
    (h : ∀ rest, (f (xs ++ rest)).run (xs ++ rest) = some (a, rest)) :
    Reads (get >>= f) xs a := h

theorem reads_addresses (addresses : List Ipv4Address) {k : ℕ} (hk : k = addresses.length) :
    Reads (many netWord32 k) (addresses.flatMap octets32) addresses := by
  subst hk
  exact reads_many reads_netWord32 addresses

theorem reads_readMid (interfaceAddresses : List Ipv4Address) :
    Reads (readMid (interfaceAddresses.length * 4)) (interfaceAddresses.flatMap octets32)
      (.mid interfaceAddresses, interfaceAddresses.length * 4) := by
  have hcheck : (interfaceAddresses.length * 4 % 4 == 0) = true := by
    rw [beq_iff_eq]
    omega
  exact (reads_check hcheck).bind ((reads_addresses interfaceAddresses (by omega)).bind_pure rfl)

theorem reads_readTc (tc : Tc) :
    Reads (readTc (4 + tc.neighborAddresses.length * 4)) tc.serialize
      (.tc tc, 4 + tc.neighborAddresses.length * 4) := by
  have hcheck : ((4 + tc.neighborAddresses.length * 4 - 4) % 4 == 0) = true := by
    rw [beq_iff_eq]
    omega
  refine (reads_check (decide_eq_true (by omega))).bind ?_
  refine (reads_netWord16 tc.ansn).bind ((reads_netWord16 0).bind ?_)
  refine (reads_check hcheck).bind ?_
  exact (reads_addresses tc.neighborAddresses (by omega)).bind_pure rfl

theorem reads_readAssociation (assoc : Association) :
    Reads readAssociation assoc.serialize assoc :=
  (reads_netWord32 assoc.networkAddr).bind ((reads_netWord32 assoc.netmask).bind_pure rfl)

theorem reads_readHna (associations : List Association) :
    Reads (readHna (2 * associations.length * 4)) (associations.flatMap Association.serialize)
      (.hna associations, 2 * associations.length * 4) := by
  have hcheck : (2 * associations.length * 4 % 8 == 0) = true := by
    rw [beq_iff_eq]
    omega
  have hcount : 2 * associations.length * 4 / 4 / 2 = associations.length := by omega
  refine (reads_check hcheck).bind ?_
  rw [hcount]
  exact (reads_many reads_readAssociation associations).bind_pure rfl

/-- **The loop over the link messages** takes each of them with its size. -/
theorem reads_readLinkMessages (lms : List LinkMessage) {fuel : ℕ} (hfuel : lms.length ≤ fuel)
    (hsize : (lms.flatMap LinkMessage.serialize).length < 2 ^ 16) :
    Reads (readLinkMessages fuel (lms.flatMap LinkMessage.serialize).length)
      (lms.flatMap LinkMessage.serialize) lms := by
  induction lms generalizing fuel with
  | nil =>
    cases fuel with
    | zero => exact reads_pure []
    | succ fuel => exact reads_pure []
  | cons lm lms ih =>
    rw [flatMap_cons, length_append, lm.length_serialize] at hsize ⊢
    cases fuel with
    | zero => exact absurd hfuel (Nat.not_succ_le_zero _)
    | succ fuel =>
      obtain ⟨left, hleft⟩ : ∃ left, 4 + lm.neighborInterfaceAddresses.length * 4 +
          (lms.flatMap LinkMessage.serialize).length = left + 1 :=
        Nat.exists_eq_succ_of_ne_zero (by omega)
      have hfour : decide (4 ≤ left + 1) = true := decide_eq_true (by omega)
      rw [hleft]
      -- the size that the message says
      have hlmSize : (BitVec.ofNat 16 (4 + lm.neighborInterfaceAddresses.length * 4)).toNat =
          4 + lm.neighborInterfaceAddresses.length * 4 := by
        rw [BitVec.toNat_ofNat]
        omega
      have hcheck : (decide (4 ≤ 4 + lm.neighborInterfaceAddresses.length * 4) &&
          (4 + lm.neighborInterfaceAddresses.length * 4 - 4) % 4 == 0) = true := by
        rw [Bool.and_eq_true, decide_eq_true_iff, beq_iff_eq]
        omega
      have hrest : (left + 1 + (2 ^ 16 - (4 + lm.neighborInterfaceAddresses.length * 4))) % 2 ^ 16 =
          (lms.flatMap LinkMessage.serialize).length := by omega
      have hcount : (4 + lm.neighborInterfaceAddresses.length * 4 - 4) / 4 =
          lm.neighborInterfaceAddresses.length := by omega
      unfold LinkMessage.serialize
      rw [append_assoc, append_assoc]
      unfold readLinkMessages
      refine (reads_check hfour).bind ?_
      refine (reads_octet lm.linkCode).bind ((reads_octet 0).bind ?_)
      refine (reads_netWord16 _).bind ?_
      rw [hlmSize, hrest]
      refine (reads_check hcheck).bind ?_
      refine (reads_addresses _ hcount).bind ?_
      exact (ih (Nat.le_of_succ_le_succ hfuel) (by omega)).bind_pure rfl

/-- There are not more link messages than octets. -/
theorem length_le_length_serialize (lms : List LinkMessage) :
    lms.length ≤ (lms.flatMap LinkMessage.serialize).length := by
  induction lms with
  | nil => exact Nat.le_refl 0
  | cons lm lms ih =>
    rw [flatMap_cons, length_append, lm.length_serialize, length_cons]
    omega

theorem reads_readHello (hello : Hello) (hsize : hello.getSerializedSize < 2 ^ 16) :
    Reads (readHello hello.getSerializedSize) hello.serialize
      (.hello hello, hello.getSerializedSize) := by
  have hsame : hello.getSerializedSize = 4 + (hello.linkMessages.flatMap
      LinkMessage.serialize).length := foldl_linkMessages _ 4
  have hleft : (hello.getSerializedSize + (2 ^ 16 - 4)) % 2 ^ 16 =
      (hello.linkMessages.flatMap LinkMessage.serialize).length := by omega
  refine (reads_check (decide_eq_true (by omega))).bind ?_
  refine (reads_netWord16 0).bind ?_
  refine (reads_octet hello.hTime).bind ((reads_octet hello.willingness).bind ?_)
  apply reads_get
  intro rest
  rw [hleft]
  have hfuel : hello.linkMessages.length ≤
      (hello.linkMessages.flatMap LinkMessage.serialize ++ rest).length := by
    have hle := length_le_length_serialize hello.linkMessages
    rw [length_append]
    omega
  have hread := reads_readLinkMessages hello.linkMessages hfuel (by omega)
  rw [StateT.run_bind, hread rest]
  rfl

/-- **Each body is read as it was written**, from the size in the message. -/
theorem reads_readBody (body : MessageBody) (hsize : body.getSerializedSize < 2 ^ 16) :
    Reads (readBody body.messageType body.getSerializedSize) body.serialize
      (body, body.getSerializedSize) := by
  cases body with
  | hello h => exact reads_readHello h hsize
  | tc t => exact reads_readTc t
  | mid interfaceAddresses => exact reads_readMid interfaceAddresses
  | hna associations => exact reads_readHna associations

theorem messageType_ok (body : MessageBody) :
    (decide (1 ≤ body.messageType) && decide (body.messageType ≤ 4)) = true := by
  cases body with
  | hello h => rfl
  | tc t => rfl
  | mid interfaceAddresses => rfl
  | hna associations => rfl

theorem reads_readMessage (hsize : msg.getSerializedSize < 2 ^ 16) :
    Reads readMessage msg.serialize (msg, msg.getSerializedSize) := by
  have hbody : msg.getSerializedSize = 12 + msg.body.getSerializedSize := rfl
  have hword : (BitVec.ofNat 16 msg.getSerializedSize).toNat = msg.getSerializedSize := by
    rw [BitVec.toNat_ofNat, Nat.mod_eq_of_lt hsize]
  have hleft : Word32.sub msg.getSerializedSize 12 = msg.body.getSerializedSize := by
    unfold Word32.sub
    omega
  unfold serialize
  refine (reads_octet msg.body.messageType).bind ?_
  refine (reads_check (messageType_ok msg.body)).bind ((reads_octet msg.vTime).bind ?_)
  refine (reads_netWord16 _).bind ((reads_netWord32 msg.originatorAddress).bind ?_)
  refine (reads_octet msg.timeToLive).bind ((reads_octet msg.hopCount).bind ?_)
  refine (reads_netWord16 msg.messageSequenceNumber).bind ?_
  rw [hword, hleft]
  exact (reads_readBody msg.body (by omega)).bind_pure rfl

/-- **A message is taken from a packet**, with the size that it has. -/
theorem removeHeader_readMessage (hsize : msg.getSerializedSize < 2 ^ 16) (rest : List Octet) :
    removeHeader readMessage (msg.serialize ++ rest) = some (msg, msg.getSerializedSize, rest) := by
  unfold removeHeader
  rw [reads_readMessage msg hsize rest, Option.map_some, ← msg.length_serialize, drop_left]

/-! ## The loop over the messages -/

/-- The size of a list of messages. -/
def totalSize : List MessageHeader → ℕ
  | [] => 0
  | msg :: msgs => msg.getSerializedSize + totalSize msgs

theorem length_flatMap_serialize :
    (msgs.flatMap serialize).length = totalSize msgs := by
  induction msgs with
  | nil => rfl
  | cons msg msgs ih =>
    rw [flatMap_cons, length_append, ih, msg.length_serialize]
    rfl

/-- **The loop takes the messages one by one**, and nothing else. -/
theorem readMessages_serialize {fuel : ℕ} (hfuel : msgs.length ≤ fuel)
    (hsize : totalSize msgs < 2 ^ 16) (rest : List Octet) :
    readMessages fuel (totalSize msgs) (msgs.flatMap serialize ++ rest) =
      some (msgs, rest) := by
  induction msgs generalizing fuel with
  | nil =>
    cases fuel with
    | zero => rfl
    | succ fuel => rfl
  | cons msg msgs ih =>
    have htotal : totalSize (msg :: msgs) = msg.getSerializedSize + totalSize msgs := rfl
    have hheader : msg.getSerializedSize = 12 + msg.body.getSerializedSize := rfl
    cases fuel with
    | zero => exact absurd hfuel (Nat.not_succ_le_zero _)
    | succ fuel =>
      obtain ⟨left, hleft⟩ : ∃ left, totalSize (msg :: msgs) = left + 1 :=
        Nat.exists_eq_succ_of_ne_zero (by omega)
      have hmsg : msg.getSerializedSize < 2 ^ 16 := by omega
      have hsome : msg.getSerializedSize ≠ 0 := by omega
      have hrest : Word32.sub (left + 1) msg.getSerializedSize = totalSize msgs := by
        unfold Word32.sub
        omega
      rw [hleft, flatMap_cons, append_assoc]
      unfold readMessages
      rw [removeHeader_readMessage msg hmsg]
      dsimp only [Option.bind_eq_bind, Option.bind_some]
      rw [if_neg hsome, hrest, ih (Nat.le_of_succ_le_succ hfuel) (by omega)]
      rfl

theorem totalSize_append (msgs msgs' : List MessageHeader) :
    totalSize (msgs ++ msgs') = totalSize msgs + totalSize msgs' := by
  rw [← length_flatMap_serialize, ← length_flatMap_serialize, ← length_flatMap_serialize,
    flatMap_append, length_append]

/-- There are not more messages than octets. -/
theorem length_le_totalSize : msgs.length ≤ totalSize msgs := by
  induction msgs with
  | nil => exact Nat.le_refl 0
  | cons msg msgs ih =>
    have htotal : totalSize (msg :: msgs) = msg.getSerializedSize + totalSize msgs := rfl
    have hheader : msg.getSerializedSize = 12 + msg.body.getSerializedSize := rfl
    rw [length_cons]
    omega

/-- A packet of messages with a sequence number, as `SendPacket` makes it. -/
def packetOf (packetSequenceNumber : BitVec 16) (msgs : List MessageHeader) : List Octet :=
  (PacketHeader.mk (.ofNat 16 (4 + totalSize msgs)) packetSequenceNumber).serialize ++
    msgs.flatMap serialize

theorem reads_readPacketHeader (header : PacketHeader) :
    Reads readPacketHeader header.serialize (header, 4) :=
  (reads_netWord16 header.packetLength).bind
    ((reads_netWord16 header.packetSequenceNumber).bind_pure rfl)

/-- The packet header is taken off a packet. -/
theorem removeHeader_packetOf : removeHeader readPacketHeader (packetOf packetSequenceNumber msgs) =
      some (⟨.ofNat 16 (4 + totalSize msgs), packetSequenceNumber⟩, 4,
        msgs.flatMap serialize) := by
  unfold removeHeader packetOf
  rw [reads_readPacketHeader]
  rfl

/-- **A packet is parsed into the messages that it is made of**, and nothing is left over. -/
theorem recvOlsr_packetOf (hsize : 4 + totalSize msgs < 2 ^ 16) :
    recvOlsr (packetOf packetSequenceNumber msgs) =
      some (⟨.ofNat 16 (4 + totalSize msgs), packetSequenceNumber⟩, msgs, []) := by
  have hlength : (BitVec.ofNat 16 (4 + totalSize msgs)).toNat = 4 + totalSize msgs := by
    rw [BitVec.toNat_ofNat, Nat.mod_eq_of_lt hsize]
  -- the loop counts the octets behind the packet header
  have hloop : readMessages (msgs.flatMap serialize).length (totalSize msgs)
      (msgs.flatMap serialize) = some (msgs, []) := by
    have hfuel : msgs.length ≤ (msgs.flatMap serialize).length := by
      rw [length_flatMap_serialize]
      exact length_le_totalSize msgs
    have h := readMessages_serialize msgs hfuel (by omega) []
    rw [append_nil] at h
    exact h
  unfold recvOlsr
  rw [removeHeader_packetOf]
  dsimp only [Option.bind_eq_bind, Option.bind_some]
  rw [hlength, if_neg (by omega), Nat.add_sub_cancel_left, hloop]
  rfl

/-! ## The packets that are sent -/

/-- What the loop over the queued messages keeps: the packets sent so far hold the messages before
those of the packet that is being made. -/
structure Outgoing.Holds (out : Outgoing) (processed : List MessageHeader) : Prop where
  carries : ∃ chunks current, processed = chunks.flatten ++ current ∧
    out.packet = current.flatMap serialize ∧ out.numMessages = current.length ∧
    current.length < maxMsgs ∧ (∀ chunk ∈ chunks, chunk.length = maxMsgs) ∧
    List.Forall₂ (fun packet chunk => ∃ number, packet = packetOf number chunk) out.sent chunks

/-- Sending a packet. -/
theorem Outgoing.sent_sendPacket (out : Outgoing) {current : List MessageHeader}
    (hpacket : out.packet = current.flatMap serialize)
    (hsent : List.Forall₂ (fun packet chunk => ∃ number, packet = packetOf number chunk)
      out.sent chunks) :
    List.Forall₂ (fun packet chunk => ∃ number, packet = packetOf number chunk)
      out.sendPacket.sent (chunks ++ [current]) := by
  have hsend : out.sendPacket.sent =
      out.sent ++ [packetOf (out.packetSequenceNumber + 1) current] := by
    unfold Outgoing.sendPacket packetOf
    rw [hpacket, length_flatMap_serialize]
  rw [hsend]
  apply rel_append hsent
  exact .cons ⟨_, rfl⟩ .nil

/-- A turn of the loop. -/
theorem Outgoing.Holds.addMessage {out : Outgoing} {processed : List MessageHeader}
    (h : out.Holds processed) (msg : MessageHeader) :
    (out.addMessage msg).Holds (processed ++ [msg]) := by
  obtain ⟨chunks, current, hprocessed, hpacket, hnum, hcurrent, hchunks, hsent⟩ := h.carries
  have hpacket' : out.packet ++ msg.serialize =
      (current ++ [msg]).flatMap serialize := by
    rw [hpacket, flatMap_append, flatMap_singleton]
  unfold Outgoing.addMessage
  dsimp only
  split
  · -- the packet is full, so that it is sent
    rename_i hfull
    refine ⟨chunks ++ [current ++ [msg]], [], ?_, rfl, rfl, Nat.zero_lt_succ _, ?_, ?_⟩
    · rw [hprocessed, flatten_append, append_assoc]
      simp
    · intro chunk hchunk
      rcases mem_append.mp hchunk with hold | hnew
      · exact hchunks chunk hold
      · rw [mem_singleton.mp hnew, length_append, length_singleton]
        omega
    · exact Outgoing.sent_sendPacket { out with
        packet := out.packet ++ msg.serialize
        numMessages := out.numMessages + 1 } hpacket' hsent
  · rename_i hroom
    refine ⟨chunks, current ++ [msg], ?_, hpacket', ?_, ?_, hchunks, hsent⟩
    · rw [hprocessed, append_assoc]
    · rw [hnum, length_append, length_singleton]
    · rw [length_append, length_singleton]
      omega

/-- **The run lemma**: the whole loop. -/
theorem Outgoing.Holds.foldl {out : Outgoing} {processed : List MessageHeader}
    (h : out.Holds processed) (queued : List MessageHeader) :
    (queued.foldl Outgoing.addMessage out).Holds (processed ++ queued) := by
  induction queued generalizing out processed with
  | nil =>
    rw [append_nil]
    exact h
  | cons msg queued ih =>
    rw [append_cons]
    exact ih (h.addMessage msg)

/-- The messages of the `k`-th packet. -/
def packetMessages (queued : List MessageHeader) (k : ℕ) : List MessageHeader :=
  (queued.drop (maxMsgs * k)).take maxMsgs

theorem exists_packetMessages {current : List MessageHeader}
    (hchunks : ∀ chunk ∈ chunks, chunk.length = maxMsgs) (hcurrent : current.length < maxMsgs)
    {chunk : List MessageHeader} (h : chunk ∈ chunks ++ [current]) :
    ∃ k, chunk = packetMessages (chunks.flatten ++ current) k := by
  induction chunks with
  | nil =>
    rw [mem_singleton.mp h]
    exact ⟨0, (take_of_length_le (Nat.le_of_lt hcurrent)).symm⟩
  | cons first chunks ih =>
    have hfirst : first.length = maxMsgs := hchunks first mem_cons_self
    unfold packetMessages
    rw [flatten_cons, append_assoc]
    rcases mem_cons.mp h with rfl | hmem
    · exact ⟨0, (take_left' hfirst).symm⟩
    · obtain ⟨k, hk⟩ := ih (fun c hc => hchunks c (mem_cons_of_mem _ hc)) hmem
      refine ⟨k + 1, ?_⟩
      rw [Nat.mul_succ, Nat.add_comm, ← drop_drop, drop_left' hfirst]
      exact hk

/-- **The packets that are sent** hold the queued messages, in their order. -/
theorem sent_sendQueuedMessages (queued : List MessageHeader) :
    ∃ chunks, chunks.flatten = queued ∧ (∀ chunk ∈ chunks, ∃ k, chunk = packetMessages queued k) ∧
      List.Forall₂ (fun packet chunk => ∃ number, packet = packetOf number chunk)
        (sendQueuedMessages packetSequenceNumber queued).sent chunks := by
  have hstart : (Outgoing.mk packetSequenceNumber [] 0 []).Holds [] :=
    ⟨[], [], rfl, rfl, rfl, Nat.zero_lt_succ _, by simp, .nil⟩
  obtain ⟨chunks, current, hprocessed, hpacket, hnum, hcurrent, hchunks, hsent⟩ :=
    (hstart.foldl queued).carries
  rw [nil_append] at hprocessed
  unfold sendQueuedMessages
  dsimp only
  split
  · -- no message waits
    rename_i hempty
    have hnone : current = [] := by
      cases current with
      | nil => rfl
      | cons msg current =>
        rw [hpacket] at hempty
        exact absurd hempty (by simp [serialize])
    refine ⟨chunks, ?_, fun chunk h => ?_, hsent⟩
    · rw [hprocessed, hnone, append_nil]
    · rw [hprocessed]
      exact exists_packetMessages hchunks hcurrent (mem_append_left _ h)
  · refine ⟨chunks ++ [current], ?_, fun chunk h => ?_, Outgoing.sent_sendPacket _ hpacket hsent⟩
    · rw [hprocessed, flatten_append]
      simp
    · rw [hprocessed]
      exact exists_packetMessages hchunks hcurrent h

/-- Packets of messages are parsed one by one. -/
theorem recvOlsr_packets {packets : List (List Octet)}
    (h : List.Forall₂ (fun packet chunk => ∃ number, packet = packetOf number chunk) packets chunks)
    (hsize : ∀ chunk ∈ chunks, 4 + totalSize chunk < 2 ^ 16) :
    List.Forall₂ (fun packet chunk => ∃ header, recvOlsr packet = some (header, chunk, []))
      packets chunks := by
  induction h with
  | nil => exact .nil
  | cons hpacket _ ih =>
    obtain ⟨number, rfl⟩ := hpacket
    refine .cons ⟨_, recvOlsr_packetOf number _ (hsize _ mem_cons_self)⟩ (ih ?_)
    intro chunk hchunk
    exact hsize chunk (mem_cons_of_mem _ hchunk)

/-- The packets are parsed into the queued messages, in their order and with nothing left over, and
a message takes as many octets as its size says when it is written and when it is read. -/
def Arrives (packetSequenceNumber : BitVec 16) (queued : List MessageHeader) : Prop :=
  (∃ chunks, chunks.flatten = queued ∧ (∀ chunk ∈ chunks, chunk.length ≤ maxMsgs) ∧
      List.Forall₂ (fun packet chunk => ∃ header, recvOlsr packet = some (header, chunk, []))
        (sendQueuedMessages packetSequenceNumber queued).sent chunks) ∧
    ∀ msg ∈ queued, msg.serialize.length = msg.getSerializedSize ∧
      ∀ rest, removeHeader readMessage (msg.serialize ++ rest) =
        some (msg, msg.getSerializedSize, rest)

/-- **What is sent is what is received**, where the messages of each packet and its header are below
65536 octets. -/
theorem recvOlsr_sendQueuedMessages (packetSequenceNumber : BitVec 16) (queued : List MessageHeader)
    (hsize : ∀ k, 4 + totalSize (packetMessages queued k) < 2 ^ 16) :
    Arrives packetSequenceNumber queued := by
  obtain ⟨chunks, rfl, hpackets, hsent⟩ := sent_sendQueuedMessages packetSequenceNumber queued
  have hsmall : ∀ chunk ∈ chunks, 4 + totalSize chunk < 2 ^ 16 := by
    intro chunk hchunk
    obtain ⟨k, hk⟩ := hpackets chunk hchunk
    rw [hk]
    exact hsize k
  constructor
  · refine ⟨chunks, rfl, fun chunk hchunk => ?_, recvOlsr_packets hsent hsmall⟩
    obtain ⟨k, hk⟩ := hpackets chunk hchunk
    rw [hk]
    exact length_take_le ..
  · intro msg hmsg
    refine ⟨msg.length_serialize, removeHeader_readMessage msg ?_⟩
    obtain ⟨chunk, hchunk, hmem⟩ := mem_flatten.mp hmsg
    have hlt := hsmall chunk hchunk
    obtain ⟨before, behind, rfl⟩ := append_of_mem hmem
    rw [totalSize_append] at hlt
    have hle : msg.getSerializedSize ≤ totalSize (msg :: behind) := Nat.le_add_right ..
    omega

/-- More messages than one packet takes, and more octets than a length counts. -/
def sampleQueue : List MessageHeader :=
  ⟨6, 0x0a000001, 1, 0, 7, .hello ⟨5, 3, [⟨6, [0x0a000002, 0x0a000003]⟩, ⟨1, []⟩]⟩⟩ ::
    List.replicate 80 ⟨15, 0x0a000001, 255, 0, 8, .mid (List.replicate 250 0)⟩

theorem recvOlsr_sendQueuedMessages_sample :
    (∀ k, 4 + totalSize (packetMessages sampleQueue k) < 2 ^ 16) ∧ Arrives 0 sampleQueue :=
  have h : ∀ k, 4 + totalSize (packetMessages sampleQueue k) < 2 ^ 16 := by
    intro k
    rcases k with _ | _ | k
    · decide +kernel
    · decide +kernel
    · have hlength : sampleQueue.length ≤ maxMsgs * (k + 2) := by
        show 81 ≤ 64 * (k + 2)
        omega
      unfold packetMessages
      rw [drop_eq_nil_of_le hlength]
      decide
  ⟨h, recvOlsr_sendQueuedMessages 0 sampleQueue h⟩

/-! ## Without room for the packet header -/

/-- A length that is cut to 16 bits below the size of the header fails an assertion. -/
theorem recvOlsr_packetOf_eq_none {msgs : List MessageHeader}
    (hsize : (4 + totalSize msgs) % 2 ^ 16 < 4) :
    recvOlsr (packetOf packetSequenceNumber msgs) = none := by
  unfold recvOlsr
  rw [removeHeader_packetOf]
  dsimp only [Option.bind_eq_bind, Option.bind_some]
  rw [BitVec.toNat_ofNat, if_pos hsize]

/-- A single message goes out as a packet. -/
theorem sent_singleton : (sendQueuedMessages packetSequenceNumber [msg]).sent =
      [packetOf (packetSequenceNumber + 1) [msg]] := by
  have hpacket : (Outgoing.addMessage { packetSequenceNumber } msg).packet =
      [msg].flatMap serialize := (append_nil msg.serialize).symm
  have hsome : [msg].flatMap serialize ≠ [] := by
    simp [serialize]
  unfold sendQueuedMessages packetOf
  rw [foldl_cons, foldl_nil]
  dsimp only
  rw [hpacket, if_neg hsome]
  unfold Outgoing.sendPacket
  rw [hpacket, length_flatMap_serialize]
  rfl

/-- A MID message of a number of addresses. -/
def midMessage (count : ℕ) : MessageHeader := ⟨0, 0, 255, 0, 0, .mid (List.replicate count 0)⟩

theorem totalSize_midMessage (count : ℕ) : totalSize [midMessage count] = 12 + count * 4 := by
  show 12 + (List.replicate count (0 : Ipv4Address)).length * 4 + 0 = _
  rw [length_replicate, Nat.add_zero]

/-- **Messages below 65536 octets that are not parsed**: the length of the packet, with its header,
is 0 in 16 bits. -/
theorem not_recvOlsr_sendQueuedMessages : ¬ ∀ packetSequenceNumber queued,
    totalSize queued < 2 ^ 16 → Arrives packetSequenceNumber queued := by
  intro h
  have hsize := totalSize_midMessage 16380
  obtain ⟨⟨chunks, -, -, hall⟩, -⟩ := h 0 [midMessage 16380] (by omega)
  rw [sent_singleton] at hall
  -- the only packet is not parsed
  cases hall with
  | cons hpacket _ =>
    obtain ⟨header, hheader⟩ := hpacket
    rw [recvOlsr_packetOf_eq_none _ (by omega)] at hheader
    cases hheader

end Ns3Dsme.Olsr
