/-
# The time of a datagram

A datagram whose fragments do not all come is given up after a time.  All datagrams wait in one
list, with one event for the first of them; nothing cancels an event whose datagram is gone.
-/
import Ns3Dsme.Internet.Ipv4PartialPacket

open Function Program Overlaps

namespace Ns3Dsme.Internet

/-- A node of `m_timeoutEventList`, with the number of the datagram it was made for. -/
structure TimeoutEntry where
  time : ℕ
  key : ℕ × ℕ
  ipHeader : Flow
  iif : ℕ
  iter : ℕ
  deriving DecidableEq

/-- A datagram that is given up: what `HandleFragmentsTimeout` finds, and whether an ICMP message
is sent. -/
structure FragmentsTimeout where
  entry : TimeoutEntry
  now : ℕ
  fragments : Fragments
  received : List Ipv4Fragment
  result : PartialPacket
  timeExceeded : Bool

inductive ExpiryFault
  | negativeDelay
  | noDatagram
  | noFragment
  | staleIterator
  deriving DecidableEq, Repr

/-- The datagrams that are put together, and the pending events of `HandleTimeout`.  The other
fields are a record: when the first fragment of each datagram came, what has come of those that
wait, and how the others ended. -/
structure Ipv4L3Protocol where
  now : ℕ := 0
  fragments : ℕ × ℕ → Option (Fragments × ℕ) := fun _ => none
  timeoutEventList : List TimeoutEntry := []
  timeoutEvents : List ℕ := []
  started : List ℕ := []
  received : ℕ × ℕ → List Ipv4Fragment := fun _ => []
  completed : List (ℕ × List Octet) := []
  timedOut : List FragmentsTimeout := []

namespace Ipv4L3Protocol

/-- `Simulator::Schedule` for `HandleTimeout`, with its assertion. -/
def schedule (s : Ipv4L3Protocol) (delay : ℤ) : Except ExpiryFault Ipv4L3Protocol :=
  if delay < 0 then .error .negativeDelay
  else .ok { s with timeoutEvents := s.timeoutEvents ++ [s.now + delay.toNat] }

/-- `SetTimeout`. -/
def setTimeout (s : Ipv4L3Protocol) (timeout : ℕ) (key : ℕ × ℕ) (ipHeader : Flow) (iif : ℕ) :
    Except ExpiryFault Ipv4L3Protocol := do
  let s ← if s.timeoutEventList.isEmpty then s.schedule timeout else .ok s
  return { s with
    timeoutEventList := s.timeoutEventList ++
      [⟨s.now + timeout, key, ipHeader, iif, s.started.length⟩]
    started := s.started ++ [s.now] }

/-- The part of `ProcessFragment` that makes a new datagram. -/
def newDatagram (s : Ipv4L3Protocol) (timeout : ℕ) (ipHeader : Flow) (iif : ℕ) :
    Except ExpiryFault Ipv4L3Protocol :=
  match s.fragments (fragmentKey ipHeader) with
  | some _ => .ok s
  | none =>
    setTimeout
      { s with
        fragments :=
          update s.fragments (fragmentKey ipHeader) (some ({}, s.started.length)) }
      timeout (fragmentKey ipHeader) ipHeader iif

/-- `m_timeoutEventList.erase`. -/
def erase (s : Ipv4L3Protocol) (iter : ℕ) : Except ExpiryFault Ipv4L3Protocol :=
  if s.timeoutEventList.any fun e => e.iter == iter then
    .ok { s with timeoutEventList := s.timeoutEventList.eraseP fun e => e.iter == iter }
  else .error .staleIterator

/-- The part of `ProcessFragment` that takes an entire datagram. -/
def complete (s : Ipv4L3Protocol) (key : ℕ × ℕ) (fragments : Fragments) (iter : ℕ) :
    Except ExpiryFault Ipv4L3Protocol :=
  match fragments.getPacket with
  | .error _ => .error .noFragment
  | .ok packet => do
    let s ← s.erase iter
    return { s with
      fragments := update s.fragments key none
      received := update s.received key []
      completed := s.completed ++ [(iter, packet)] }

/-- The part of `ProcessFragment` that puts a fragment with the others. -/
def putFragment (s : Ipv4L3Protocol) (key : ℕ × ℕ) (f : Ipv4Fragment) :
    Except ExpiryFault Ipv4L3Protocol :=
  match s.fragments key with
  | none => .error .noDatagram
  | some (fragments, iter) =>
    let fragments := fragments.addFragment f.payload f.fragmentOffset (!f.isLastFragment)
    let s := { s with
      fragments := update s.fragments key (some (fragments, iter))
      received := update s.received key (s.received key ++ [f]) }
    if fragments.isEntire then s.complete key fragments iter else .ok s

/-- `ProcessFragment`. -/
def processFragment (s : Ipv4L3Protocol) (timeout : ℕ) (ipHeader : Flow) (iif : ℕ)
    (f : Ipv4Fragment) : Except ExpiryFault Ipv4L3Protocol := do
  let s ← s.newDatagram timeout ipHeader iif
  s.putFragment (fragmentKey ipHeader) f

/-- `HandleFragmentsTimeout`. -/
def handleFragmentsTimeout (s : Ipv4L3Protocol) (e : TimeoutEntry) :
    Except ExpiryFault Ipv4L3Protocol :=
  match s.fragments e.key with
  | none => .error .noDatagram
  | some (fragments, _) =>
    match fragments.getPartialPacket with
    | none => .error .noFragment
    | some r => .ok { s with
        fragments := update s.fragments e.key none
        received := update s.received e.key []
        timedOut := s.timedOut ++
          [⟨e, s.now, fragments, s.received e.key, r, decide (r.packet.length > 8)⟩] }

/-- The loop of `HandleTimeout`. -/
def expire : List TimeoutEntry → Ipv4L3Protocol → Except ExpiryFault Ipv4L3Protocol
  | [], s => .ok s
  | e :: rest, s =>
    if e.time = s.now then do
      let s ← s.handleFragmentsTimeout e
      expire rest { s with timeoutEventList := rest }
    else .ok s

/-- The end of `HandleTimeout`. -/
def scheduleNext (s : Ipv4L3Protocol) : Except ExpiryFault Ipv4L3Protocol :=
  match s.timeoutEventList with
  | [] => .ok s
  | e :: _ => s.schedule ((e.time : ℤ) - s.now)

/-- `HandleTimeout`. -/
def handleTimeout (s : Ipv4L3Protocol) : Except ExpiryFault Ipv4L3Protocol := do
  let s ← expire s.timeoutEventList s
  s.scheduleNext

/-! ## Runs -/

/-- What happens: time passes, a fragment comes in, or an event of `HandleTimeout` runs. -/
inductive Input
  | tick (time : ℕ)
  | receive (ipHeader : Flow) (iif : ℕ) (f : Ipv4Fragment)
  | timeout

/-- No event is passed over, and one runs at its time.  A fragment has an offset and a size of 16
bits. -/
def enabled (s : Ipv4L3Protocol) : Input → Prop
  | .tick time => s.now ≤ time ∧ ∀ event ∈ s.timeoutEvents, time ≤ event
  | .receive _ _ f => f.fragmentOffset < 2 ^ 16 ∧ f.payload.length < 2 ^ 16
  | .timeout => s.now ∈ s.timeoutEvents

instance (s : Ipv4L3Protocol) (i : Input) : Decidable (s.enabled i) := by
  cases i <;> dsimp only [enabled] <;> infer_instance

def step (timeout : ℕ) (s : Ipv4L3Protocol) : Input → Except ExpiryFault Ipv4L3Protocol
  | .tick time => .ok { s with now := time }
  | .receive ipHeader iif f => s.processFragment timeout ipHeader iif f
  | .timeout => handleTimeout { s with timeoutEvents := s.timeoutEvents.erase s.now }

/-- The protocol with a constant expiration timeout. -/
def machine (timeout : ℕ) : Machine Ipv4L3Protocol Input ExpiryFault := ⟨enabled, step timeout⟩

instance (timeout : ℕ) (s : Ipv4L3Protocol) (i : Input) :
    Decidable ((machine timeout).enabled s i) :=
  inferInstanceAs (Decidable (s.enabled i))

end Ipv4L3Protocol

end Ns3Dsme.Internet
