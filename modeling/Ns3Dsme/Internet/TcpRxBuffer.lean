/-
# The receive buffer of a TCP connection

Segments come in any order; what is new of them is kept, by its sequence number, until the
application reads it.  `m_nextRxSeq` is RCV.NXT.
-/
import Ns3Dsme.LrWpan.Basic
import Ns3Dsme.Lib.Machine
import Ns3Dsme.Lib.Octets
import Ns3Dsme.Lib.Word32
import Ns3Dsme.Network.SequenceNumber

open Program

namespace Ns3Dsme.Internet

open Network

/-- `TcpOptionSack::SackBlock`. -/
abbrev SackBlock := SequenceNumber32 × SequenceNumber32

/-- The packets by their sequence numbers, in the order of the map. -/
abbrev RxData := List (SequenceNumber32 × List Octet)

structure TcpRxBuffer where
  sackList : List SackBlock
  nextRxSeq : SequenceNumber32
  finSeq : SequenceNumber32
  gotFin : Bool
  size : ℕ
  maxBuffer : BitVec 32
  availBytes : ℕ
  data : RxData

namespace TcpRxBuffer

/-! ## The map -/

/-- The end of a stored packet. -/
def lastByteSeq (q : SequenceNumber32 × List Octet) : SequenceNumber32 := q.1.plus q.2.length

/-- `m_data[k] = p`. -/
def insertData (k : SequenceNumber32) (p : List Octet) : RxData → RxData
  | [] => [(k, p)]
  | q :: rest =>
    if k.lt q.1 then (k, p) :: q :: rest
    else if q.1.lt k then q :: insertData k p rest
    else (q.1, p) :: rest

/-- `m_data.find (k) != m_data.end ()`. -/
def hasData (k : SequenceNumber32) (data : RxData) : Bool :=
  data.any fun q => !k.lt q.1 && !q.1.lt k

/-- `m_data.erase`, of the packet with this number. -/
def eraseData (k : SequenceNumber32) : RxData → RxData
  | [] => []
  | q :: rest => if q.1 = k then rest else q :: eraseData k rest

/-- `Packet::CreateFragment`. -/
def createFragment (p : List Octet) (start length : ℕ) : Except Fault (List Octet) :=
  if start + length ≤ p.length then .ok ((p.drop start).take length) else .error .assertFailed

/-! ## The SACK list -/

/-- `ClearSackList`. -/
def clearSackList (seq : SequenceNumber32) : List SackBlock → Except Fault (List SackBlock)
  | [] => .ok []
  | block :: rest =>
    if block.1.lt block.2 then do
      let rest ← clearSackList seq rest
      return if block.2.le seq then rest else block :: rest
    else .error .assertFailed

/-- The loop of `UpdateSackList`, up to the first block that is merged with the one at the
beginning. -/
def findMerge (begin : SackBlock) : List SackBlock → Except Fault (Option (SackBlock × List SackBlock))
  | [] => .ok none
  | current :: rest =>
    if begin.1 = current.2 then
      if current.1.lt begin.2 then .ok (some ((current.1, begin.2), rest))
      else .error .assertFailed
    else if begin.2 = current.1 then
      if begin.1.lt current.2 then .ok (some ((begin.1, current.2), rest))
      else .error .assertFailed
    else do
      let found ← findMerge begin rest
      return found.map fun r => (r.1, current :: r.2)

/-- The loop of `UpdateSackList`; it starts again when two blocks were merged. -/
def mergeBlocks : ℕ → SackBlock → List SackBlock → Except Fault (List SackBlock)
  | 0, begin, rest => .ok (begin :: rest)
  | fuel + 1, begin, rest => do
    match ← findMerge begin rest with
    | none => return begin :: rest
    | some (merged, rest) => mergeBlocks fuel merged rest

/-- `UpdateSackList`. -/
def updateSackList (nextRxSeq head tail : SequenceNumber32) (sackList : List SackBlock) :
    Except Fault (List SackBlock) :=
  if head.gt nextRxSeq then do
    let sackList ← mergeBlocks sackList.length (head, tail) sackList
    return if 4 < sackList.length then sackList.dropLast else sackList
  else .error .assertFailed

/-- Where the packet is not the next one, a new SACK block is generated. -/
def reportBlock (nextRxSeq head tail : SequenceNumber32) (sackList : List SackBlock) :
    Except Fault (List SackBlock) :=
  if head.gt nextRxSeq then updateSackList nextRxSeq head tail sackList else .ok sackList

/-! ## The members -/

/-- The constructor, for the initial sequence number and a buffer size. -/
def create (n : SequenceNumber32) (maxBuffer : BitVec 32) : TcpRxBuffer :=
  ⟨[], n, 0, false, 0, maxBuffer, 0, []⟩

def maxRxSequence (b : TcpRxBuffer) : SequenceNumber32 :=
  if b.gotFin then b.finSeq
  else
    match b.data with
    | first :: _ =>
      if b.nextRxSeq.gt first.1 then first.1 + b.maxBuffer else b.nextRxSeq + b.maxBuffer
    | [] => b.nextRxSeq + b.maxBuffer

def setFinSequence (b : TcpRxBuffer) (s : SequenceNumber32) : TcpRxBuffer :=
  { b with
    gotFin := true
    finSeq := s
    nextRxSeq := if b.nextRxSeq = s then b.nextRxSeq + 1 else b.nextRxSeq }

/-- What the loop that removes overlapped bytes has found. -/
structure Overlap where
  data : RxData
  headSeq : SequenceNumber32
  tailSeq : SequenceNumber32
  size : ℕ

/-- The loop of `Add` that removes overlapped bytes from the packet. -/
def removeOverlap : RxData → SequenceNumber32 → SequenceNumber32 → ℕ → Overlap
  | [], headSeq, tailSeq, size => ⟨[], headSeq, tailSeq, size⟩
  | q :: rest, headSeq, tailSeq, size =>
    if q.1.le tailSeq then
      let last := lastByteSeq q
      if last.gt headSeq then
        if q.1.gt headSeq && last.lt tailSeq then
          -- the existing packet is embedded fully in the new one
          removeOverlap rest headSeq tailSeq (Word32.sub size q.2.length)
        else
          let r := removeOverlap rest (if q.1.le headSeq then last else headSeq)
            (if last.ge tailSeq then q.1 else tailSeq) size
          { r with data := q :: r.data }
      else
        let r := removeOverlap rest headSeq tailSeq size
        { r with data := q :: r.data }
    else ⟨q :: rest, headSeq, tailSeq, size⟩

/-- The loop of `Add` that moves `m_nextRxSeq`. -/
def moveNext : RxData → SequenceNumber32 → ℕ → List SackBlock →
    Except Fault (SequenceNumber32 × ℕ × List SackBlock)
  | [], next, avail, sackList => .ok (next, avail, sackList)
  | q :: rest, next, avail, sackList =>
    if q.1.lt next then moveNext rest next avail sackList
    else if q.1.gt next then .ok (next, avail, sackList)
    else do
      let sackList ← clearSackList (lastByteSeq q) sackList
      moveNext rest (lastByteSeq q) (Word32.add avail q.2.length) sackList

/-- Where the part of a packet that fits starts and ends, before overlaps are removed. -/
def trimToWindow (b : TcpRxBuffer) (headSeq tailSeq : SequenceNumber32) :
    SequenceNumber32 × SequenceNumber32 :=
  let headSeq := if headSeq.lt b.nextRxSeq then b.nextRxSeq else headSeq
  match b.data with
  | [] => (headSeq, tailSeq)
  | first :: _ =>
    let maxSeq : SequenceNumber32 := first.1 + b.maxBuffer
    let tailSeq := if maxSeq.lt tailSeq then maxSeq else tailSeq
    (if tailSeq.lt headSeq then tailSeq else headSeq, tailSeq)

/-- `Add`, for a packet and the sequence number of its header. -/
def add (b : TcpRxBuffer) (p : List Octet) (seq : SequenceNumber32) :
    Except Fault (TcpRxBuffer × Bool) :=
  let window := b.trimToWindow seq (seq.plus p.length)
  let r := removeOverlap b.data window.1 window.2 b.size
  if r.headSeq.ge r.tailSeq then .ok ({ b with data := r.data, size := r.size }, false)
  else do
    let p ← createFragment p (r.headSeq.minus seq) (r.tailSeq.minus r.headSeq)
    if hasData r.headSeq r.data then .error .assertFailed
    else
      let data := insertData r.headSeq p r.data
      let sackList ← reportBlock b.nextRxSeq r.headSeq r.tailSeq b.sackList
      let (next, avail, sackList) ← moveNext data b.nextRxSeq b.availBytes sackList
      return ({ b with
        data := data
        sackList := sackList
        size := Word32.add r.size p.length
        nextRxSeq := if b.gotFin ∧ next = b.finSeq then next + 1 else next
        availBytes := avail }, true)

/-- The loop of `Extract`, until `extractSize` octets are taken: the octets, and the packets and
counters that are left. -/
def extractFrom (next : SequenceNumber32) : RxData → ℕ → ℕ → ℕ →
    Except Fault (List Octet × RxData × ℕ × ℕ)
  | data, 0, size, avail => .ok ([], data, size, avail)
  | [], _ + 1, _, _ => .error .outOfRange
  | q :: rest, extractSize + 1, size, avail =>
    if q.1.le next then
      if q.2.length ≤ extractSize + 1 then do
        let r ← extractFrom next rest (extractSize + 1 - q.2.length)
          (Word32.sub size q.2.length) (Word32.sub avail q.2.length)
        return (q.2 ++ r.1, r.2)
      else do
        let out ← createFragment q.2 0 (extractSize + 1)
        let left ← createFragment q.2 (extractSize + 1) (q.2.length - (extractSize + 1))
        let data := eraseData q.1 (insertData (q.1.plus (extractSize + 1)) left (q :: rest))
        return (out, data, Word32.sub size (extractSize + 1), Word32.sub avail (extractSize + 1))
    else .error .assertFailed

/-- `Extract`; without octets there is no packet. -/
def extract (b : TcpRxBuffer) (maxSize : ℕ) : Except Fault (TcpRxBuffer × Option (List Octet)) :=
  if min maxSize b.availBytes = 0 then .ok (b, none)
  else do
    let (out, data, size, avail) ←
      extractFrom b.nextRxSeq b.data (min maxSize b.availBytes) b.size b.availBytes
    return ({ b with data := data, size := size, availBytes := avail }, some out)

end TcpRxBuffer

/-! ## A connection -/

/-- The octets that are sent, the sequence number of the first one, and the size of the buffer. -/
structure ByteStream where
  octets : List Octet
  isn : SequenceNumber32
  maxBuffer : BitVec 32

namespace ByteStream

/-- The sequence number of a position. -/
def seq (c : ByteStream) (x : ℕ) : SequenceNumber32 := c.isn.ofPos x

/-- The octets from one position to another. -/
def slice (c : ByteStream) (x y : ℕ) : List Octet := (c.octets.drop x).take (y - x)

end ByteStream

/-- The buffer, what was extracted from it, and the segments that were added: from where to where
they reach, and what of them was in the window. -/
structure RxRun where
  buffer : TcpRxBuffer
  extracted : List Octet
  received : List (ℕ × ℕ)
  inWindow : List (ℕ × ℕ)

/-- What happens to the buffer. -/
inductive RxCall
  | add (x len : ℕ)
  | fin
  | extract (maxSize : ℕ)

namespace RxRun

/-- The position of the first octet that is missing, by what was extracted and what is available. -/
def next (w : RxRun) : ℕ := w.extracted.length + w.buffer.availBytes

/-- The position of RCV.NXT: the FIN counts as one octet. -/
def rcvNxt (c : ByteStream) (w : RxRun) : ℕ :=
  w.next + if w.buffer.gotFin = true ∧ w.next = c.octets.length then 1 else 0

/-- The position up to which the window reaches: the buffer, from the first unread octet on. -/
def windowEnd (w : RxRun) : ℕ := w.extracted.length + w.buffer.maxBuffer.toNat

/-- The end of the window that `Add` looks at: the buffer, from the first stored octet on. -/
def storedEnd (c : ByteStream) (w : RxRun) : Option ℕ :=
  w.buffer.data.head?.map fun q =>
    w.extracted.length + q.1.minus (c.seq w.extracted.length) + w.buffer.maxBuffer.toNat

def start (c : ByteStream) : RxRun := ⟨TcpRxBuffer.create c.isn c.maxBuffer, [], [], []⟩

def step (c : ByteStream) (w : RxRun) : RxCall → Except Fault RxRun
  | .add x len => (w.buffer.add (c.slice x (x + len)) (c.seq x)).map fun r =>
    { w with
      buffer := r.1
      received := (x, x + len) :: w.received
      inWindow := (x, min (x + len) w.windowEnd) :: w.inWindow }
  | .fin => .ok { w with buffer := w.buffer.setFinSequence (c.seq c.octets.length) }
  | .extract maxSize => (w.buffer.extract maxSize).map fun r =>
    { w with buffer := r.1, extracted := w.extracted ++ r.2.getD [] }

open SequenceNumber32 (Near)

/-- What may come: segments of the stream and its end, within half the sequence space of RCV.NXT. -/
def Enabled (c : ByteStream) (w : RxRun) : RxCall → Prop
  | .add x len => x + len ≤ c.octets.length ∧ Near x (w.rcvNxt c) ∧ Near (x + len) (w.rcvNxt c)
  | .fin => Near c.octets.length (w.rcvNxt c)
  | .extract maxSize => maxSize < 2 ^ 32

def machine (c : ByteStream) : Machine RxRun RxCall Fault where
  enabled := Enabled c
  step := step c

/-- The segment and RCV.NXT are within half the sequence space of the end of the window as well,
and RCV.NXT is within half of it of what is extracted next. -/
def Fits (c : ByteStream) (w : RxRun) : RxCall → Prop
  | .add x len => ∀ e, w.storedEnd c = some e → Near (x + len) e ∧ Near (w.rcvNxt c) e
  | .fin => True
  | .extract _ => Near (w.rcvNxt c) w.extracted.length

/-- An octet of the stream is stored with its sequence number. -/
def Holds (c : ByteStream) (w : RxRun) (x : ℕ) : Prop :=
  ∃ q ∈ w.buffer.data, ∃ i o, q.2[i]? = some o ∧ q.1.plus i = c.seq x ∧ c.octets[x]? = some o

/-- Some octet is stored with the sequence number of this position. -/
def Occupied (c : ByteStream) (w : RxRun) (x : ℕ) : Prop :=
  ∃ q ∈ w.buffer.data, ∃ i, i < q.2.length ∧ q.1.plus i = c.seq x

/-- The stored packets: from where to where they reach, one behind the other. -/
def Apart (c : ByteStream) (w : RxRun) : Prop :=
  ∃ ps : List (ℕ × ℕ), w.buffer.data = ps.map (fun p => (c.seq p.1, c.slice p.1 p.2)) ∧
    ps.Pairwise (fun p q => p.2 ≤ q.1) ∧
    ∀ p ∈ ps, w.extracted.length ≤ p.1 ∧ p.1 < p.2 ∧ p.2 ≤ c.octets.length

/-- What is promised of a state that a run reaches: what was extracted is the beginning of the
stream; RCV.NXT is the number of the first octet that is missing, and one more with the FIN; up to
there all was received and is available; the stored packets are apart, and `Size` is their length;
what came in the window was extracted or is still there; and the next call goes through. -/
structure Delivers (c : ByteStream) (w : RxRun) : Prop where
  extracted : w.extracted <+: c.octets
  nextRxSeq : w.buffer.nextRxSeq = c.seq (w.rcvNxt c)
  contiguous : ∀ x, x < w.next → ∃ p ∈ w.received, p.1 ≤ x ∧ x < p.2
  missing : ∀ p ∈ w.inWindow, ¬ (p.1 ≤ w.next ∧ w.next < p.2)
  apart : w.Apart c
  size : w.buffer.size = (w.buffer.data.map fun q => q.2.length).sum
  available : ∀ x, w.extracted.length ≤ x → x < w.next → w.Holds c x
  unavailable : ¬ w.Occupied c w.next
  kept : ∀ p ∈ w.inWindow, ∀ x, p.1 ≤ x → x < p.2 → x < w.extracted.length ∨ w.Holds c x
  window : w.buffer.gotFin = false → w.buffer.maxRxSequence = c.seq w.windowEnd
  progress : ∀ call, Enabled c w call → Fits c w call → ∃ w', step c w call = .ok w'

end RxRun

end Ns3Dsme.Internet
