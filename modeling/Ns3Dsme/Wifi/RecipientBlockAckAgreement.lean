/-
# The recipient of a block ack agreement

`RecipientBlockAckAgreement`: MPDUs are noted in a scoreboard and reordered in a buffer, and both
windows move in the 12-bit sequence number space.

The start of the reordering window that an MPDU beyond the window leads to is `SN - WinSizeB + 1`,
taken modulo 2 ^ 16.  If that is negative the assertion of `GetDistance` fails.  Apart from that,
the buffer is a reordering buffer for numbers that do not wrap.
-/
import Ns3Dsme.Lib.Machine
import Ns3Dsme.Wifi.BlockAckWindow

open Program

namespace Ns3Dsme.Wifi

/-- An MPDU with its sequence number. -/
structure Mpdu (π : Type) where
  seqNumber : ℕ
  seqNumber_lt : seqNumber < seqnoSpaceSize
  packet : π

/-- `RecipientBlockAckAgreement`, and what it has passed up. -/
structure RecipientBlockAckAgreement (π : Type) where
  scoreboard : BlockAckWindow
  winStartB : ℕ
  winSizeB : ℕ
  bufferedMpdus : List (Mpdu π) := []
  passedUp : List (Mpdu π) := []

/-- A call of the agreement. -/
inductive BlockAckCall (π : Type)
  | notifyReceivedMpdu (mpdu : Mpdu π)
  | notifyReceivedBar (startingSequenceNumber : Fin seqnoSpaceSize)

namespace RecipientBlockAckAgreement

variable {π : Type}

/-- The constructor. -/
def new (startingSeq bufferSize : ℕ) (h : 0 < bufferSize) : RecipientBlockAckAgreement π where
  scoreboard := .init startingSeq bufferSize h
  winStartB := startingSeq
  winSizeB := bufferSize

/-- What `Compare` looks at. -/
def position (winStartB seqNumber : ℕ) : ℤ :=
  ((seqNumber : ℤ) - winStartB + seqnoSpaceSize).tmod seqnoSpaceSize

/-- `m_bufferedMpdus.insert`, into a map that is ordered by `Compare`.  What is there stays. -/
def insertMpdu (winStartB : ℕ) (mpdu : Mpdu π) : List (Mpdu π) → List (Mpdu π)
  | [] => [mpdu]
  | m :: ms =>
    if position winStartB mpdu.seqNumber < position winStartB m.seqNumber then mpdu :: m :: ms
    else if position winStartB m.seqNumber < position winStartB mpdu.seqNumber then
      m :: insertMpdu winStartB mpdu ms
    else m :: ms

/-- The assertion that the MPDU with the highest sequence number is not an old one. -/
def checkLast (s : RecipientBlockAckAgreement π) : Except BlockAckFault Unit :=
  match s.bufferedMpdus.getLast? with
  | none => .ok ()
  | some m => do
    let distance ← getDistance m.seqNumber s.winStartB
    if distance < seqnoSpaceHalfSize then .ok () else .error .assertFailed

/-- The loop of `PassBufferedMpdusUntilFirstLost`. -/
def passInOrder : List (Mpdu π) → RecipientBlockAckAgreement π → RecipientBlockAckAgreement π
  | [], s => s
  | m :: ms, s =>
    if m.seqNumber = s.winStartB then
      passInOrder ms { s with
        bufferedMpdus := ms
        passedUp := s.passedUp ++ [m]
        winStartB := (s.winStartB + 1) % seqnoSpaceSize }
    else s

/-- `PassBufferedMpdusUntilFirstLost`. -/
def passBufferedMpdusUntilFirstLost (s : RecipientBlockAckAgreement π) :
    Except BlockAckFault (RecipientBlockAckAgreement π) := do
  s.checkLast
  .ok (passInOrder s.bufferedMpdus s)

/-- The loop of `PassBufferedMpdusWithSeqNumberLessThan`. -/
def passBelow (newWinStartB : ℕ) : List (Mpdu π) → RecipientBlockAckAgreement π →
    Except BlockAckFault (RecipientBlockAckAgreement π)
  | [], s => .ok s
  | m :: ms, s => do
    let distance ← getDistance m.seqNumber s.winStartB
    let newDistance ← getDistance newWinStartB s.winStartB
    if distance < newDistance then
      passBelow newWinStartB ms { s with bufferedMpdus := ms, passedUp := s.passedUp ++ [m] }
    else .ok s

/-- `PassBufferedMpdusWithSeqNumberLessThan`. -/
def passBufferedMpdusWithSeqNumberLessThan (newWinStartB : ℕ) (s : RecipientBlockAckAgreement π) :
    Except BlockAckFault (RecipientBlockAckAgreement π) := do
  s.checkLast
  let s ← passBelow newWinStartB s.bufferedMpdus s
  .ok { s with winStartB := newWinStartB }

/-- The first half of `NotifyReceivedMpdu`: the scoreboard. -/
def noteMpdu (mpdu : Mpdu π) (s : RecipientBlockAckAgreement π) :
    Except BlockAckFault (RecipientBlockAckAgreement π) := do
  let distance ← getDistance mpdu.seqNumber s.scoreboard.winStart
  let scoreboard ←
    if distance < s.scoreboard.winSize then s.scoreboard.mark distance
    else if distance < seqnoSpaceHalfSize then
      (s.scoreboard.advance (distance - s.scoreboard.winSize + 1)).mark (s.scoreboard.winSize - 1)
    else .ok s.scoreboard
  .ok { s with scoreboard }

/-- `SN - m_winSizeB + 1`, as the `uint16_t` it is passed as. -/
def startBefore (seqNumber winSizeB : ℕ) : ℕ :=
  (((seqNumber : ℤ) - winSizeB + 1) % 2 ^ 16).toNat

/-- The second half: the reordering buffer. -/
def reorderMpdu (mpdu : Mpdu π) (s : RecipientBlockAckAgreement π) :
    Except BlockAckFault (RecipientBlockAckAgreement π) := do
  let distance ← getDistance mpdu.seqNumber s.winStartB
  let inserted := { s with bufferedMpdus := insertMpdu s.winStartB mpdu s.bufferedMpdus }
  if distance < s.winSizeB then inserted.passBufferedMpdusUntilFirstLost
  else if distance < seqnoSpaceHalfSize then do
    let s ← inserted.passBufferedMpdusWithSeqNumberLessThan
      (startBefore mpdu.seqNumber s.winSizeB)
    s.passBufferedMpdusUntilFirstLost
  else .ok s

/-- `NotifyReceivedMpdu`. -/
def notifyReceivedMpdu (mpdu : Mpdu π) (s : RecipientBlockAckAgreement π) :
    Except BlockAckFault (RecipientBlockAckAgreement π) := do
  let s ← s.noteMpdu mpdu
  s.reorderMpdu mpdu

/-- The first half of `NotifyReceivedBar`: the scoreboard. -/
def noteBar (startingSequenceNumber : ℕ) (s : RecipientBlockAckAgreement π) :
    Except BlockAckFault (RecipientBlockAckAgreement π) := do
  let distance ← getDistance startingSequenceNumber s.scoreboard.winStart
  let scoreboard ←
    if 0 < distance ∧ distance < s.scoreboard.winSize then
      if (s.scoreboard.advance distance).winStart = startingSequenceNumber then
        .ok (s.scoreboard.advance distance)
      else .error .assertFailed
    else if 0 < distance ∧ distance < seqnoSpaceHalfSize then
      .ok (s.scoreboard.reset startingSequenceNumber)
    else .ok s.scoreboard
  .ok { s with scoreboard }

/-- The second half: the reordering buffer. -/
def reorderBar (startingSequenceNumber : ℕ) (s : RecipientBlockAckAgreement π) :
    Except BlockAckFault (RecipientBlockAckAgreement π) := do
  let distance ← getDistance startingSequenceNumber s.winStartB
  if 0 < distance ∧ distance < seqnoSpaceHalfSize then do
    let s ← s.passBufferedMpdusWithSeqNumberLessThan startingSequenceNumber
    s.passBufferedMpdusUntilFirstLost
  else .ok s

/-- `NotifyReceivedBar`. -/
def notifyReceivedBar (startingSequenceNumber : ℕ) (s : RecipientBlockAckAgreement π) :
    Except BlockAckFault (RecipientBlockAckAgreement π) := do
  let s ← s.noteBar startingSequenceNumber
  s.reorderBar startingSequenceNumber

/-- The agreement as a machine. -/
def machine : Machine (RecipientBlockAckAgreement π) (BlockAckCall π) BlockAckFault where
  enabled _ _ := True
  step s i :=
    match i with
    | .notifyReceivedMpdu mpdu => s.notifyReceivedMpdu mpdu
    | .notifyReceivedBar startingSequenceNumber => s.notifyReceivedBar startingSequenceNumber

instance (s : RecipientBlockAckAgreement π) (i : BlockAckCall π) :
    Decidable (machine.enabled s i) :=
  inferInstanceAs (Decidable True)

end RecipientBlockAckAgreement

end Ns3Dsme.Wifi
