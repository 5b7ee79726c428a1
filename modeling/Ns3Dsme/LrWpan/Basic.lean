/-
# Units, constants and enumerations of the LR-WPAN MAC

The plain data every other module of the model uses: simulated time, the
constants of `lr-wpan-mac.h` and `lr-wpan-phy.cc`, the state and status
enumerations and the ways in which a handler can abort.

Time is an integer nanosecond count, as in `ns3::Time`.  The only physical layer
the model supports is the 2.4 GHz O-QPSK one (62500 symbols a second), so one
symbol is exactly 16000 ns and `Seconds((double) n / symbolRate)` is exact.
-/
import Mathlib.Algebra.Group.Int.Defs
import Mathlib.Algebra.Group.Nat.Defs
import Mathlib.Algebra.GroupWithZero.Nat
import Mathlib.Data.Int.Notation
import Mathlib.Data.Nat.Notation

namespace Ns3Dsme

/-! ## Time -/

/-- `Seconds((double) n / symbolRate)`: the duration of `n` symbols. -/
def symbols (n : ℕ) : ℤ := 16000 * n

/-- `MilliSeconds((double) n / symbolRate)`.  `MilliSeconds` takes an integer, so the
number of *seconds* `n / symbolRate` is truncated and then read as milliseconds. -/
def milliSeconds (n : ℕ) : ℤ := 1000000 * ((n / 62500 : ℕ) : ℤ)

/-- `Time("3ms")`, the delay before a group acknowledgment is sent. -/
def gackDelay : ℤ := 3000000

/-- A beacon is far shorter than 62500 symbols, so its airtime truncates to nothing. -/
theorem milliSeconds_eq_zero (n : ℕ) (h : n < 62500) : milliSeconds n = 0 := by
  rw [milliSeconds, Nat.div_eq_of_lt h]
  rfl

/-- Durations are never negative. -/
theorem symbols_nonneg (n : ℕ) : 0 ≤ symbols n := by
  unfold symbols
  omega

/-- Durations add up. -/
theorem symbols_add (m n : ℕ) : symbols (m + n) = symbols m + symbols n := by
  unfold symbols
  push_cast
  omega

/-! ## Constants -/

/-- `aBaseSuperframeDuration`, in symbols. -/
def aBaseSuperframeDuration : ℕ := 960

/-- `aMaxLostBeacons`. -/
def aMaxLostBeacons : ℕ := 4

/-- `aMaxSIFSFrameSize`, in octets. -/
def aMaxSIFSFrameSize : ℕ := 18

/-- `m_macLIFSPeriod`, in symbols. -/
def macLIFSPeriod : ℕ := 40

/-- `m_macSIFSPeriod`, in symbols. -/
def macSIFSPeriod : ℕ := 12

/-- `LrWpanPhy::aMaxPhyPacketSize`, in octets. -/
def aMaxPhyPacketSize : ℕ := 127

/-- `LrWpanPhy::aTurnaroundTime`, in symbols. -/
def aTurnaroundTime : ℕ := 12

/-- `LrWpanPhy::GetPhySHRDuration`, in symbols. -/
def phySHRDuration : ℕ := 10

/-- `LrWpanPhy::GetPhySymbolsPerOctet`. -/
def phySymbolsPerOctet : ℕ := 2

/-- `m_aUnitBackoffPeriod`, in symbols. -/
def aUnitBackoffPeriod : ℕ := 20

/-- `ENHANCED_GROUP_ACK_FIRST_SLOT`. -/
def enhancedGroupAckFirstSlot : ℕ := 6

/-- `ENHANCED_GROUP_ACK_SECOND_SLOT`. -/
def enhancedGroupAckSecondSlot : ℕ := 14

/-- Symbols a frame of `size` octets occupies on the air: the synchronization header,
the PHY header and the PSDU. -/
def frameSymbols (size : ℕ) : ℕ :=
  phySHRDuration + 1 * phySymbolsPerOctet + size * phySymbolsPerOctet

/-- Every frame occupies the channel for some time. -/
theorem frameSymbols_pos (size : ℕ) : 0 < frameSymbols size := by
  unfold frameSymbols phySHRDuration
  omega

/-- The airtime of a frame that the PHY accepts truncates to zero milliseconds. -/
theorem milliSeconds_frameSymbols (size : ℕ) (h : size ≤ aMaxPhyPacketSize) :
    milliSeconds (frameSymbols size) = 0 := by
  unfold aMaxPhyPacketSize at h
  refine milliSeconds_eq_zero _ ?_
  unfold frameSymbols phySHRDuration phySymbolsPerOctet
  omega

/-! ## Machine integers -/

/-- A product of C++ `uint32_t` values. -/
def uint32 (n : ℕ) : ℕ := n % 2 ^ 32

/-- A difference of C++ unsigned values of the given width. -/
def unsignedSub (width m n : ℕ) : ℕ :=
  (m + 2 ^ width - n % 2 ^ width) % 2 ^ width

/-! ## Enumerations -/

/-- `LrWpanMacState`: the states of the MAC and the outcomes CSMA-CA reports. -/
inductive LrWpanMacState
  | macIdle
  | macCsma
  | macSending
  | macAckPending
  | channelAccessFailure
  | channelIdle
  | setPhyTxOn
  | macGts
  | macGtsSending
  | macInactive
  | macCsmaDeferred
  deriving DecidableEq, Repr

/-- `SuperframeStatus`. -/
inductive SuperframeStatus
  | beacon
  | cap
  | cfp
  | inactive
  | remaining
  deriving DecidableEq, Repr

/-- `SuperframeType`. -/
inductive SuperframeType
  | outgoing
  | incoming
  deriving DecidableEq, Repr

/-- `LrWpanGroupAckPolicy`. -/
inductive LrWpanGroupAckPolicy
  | groupAckDisabled
  | groupAckLegacy
  | groupAckEnhanced
  | groupAckDsmeGts
  | groupAckReserved
  deriving DecidableEq, Repr

/-- `LrWpanPhyEnumeration`, as far as it is reported to the MAC. -/
inductive LrWpanPhyEnumeration
  | phyBusy
  | phyBusyRx
  | phyBusyTx
  | phyForceTrxOff
  | phyIdle
  | phyRxOn
  | phySuccess
  | phyTrxOff
  | phyTxOn
  | phyUnspecified
  deriving DecidableEq, Repr

/-- `LrWpanPhyOption`, up to the one that is not valid. -/
inductive LrWpanPhyOption
  | bpsk868
  | bpsk915
  | bpsk950
  | ask868
  | ask915
  | oqpsk780
  | oqpsk868
  | oqpsk915
  | oqpsk2400
  deriving DecidableEq, Repr

/-- The statuses of a `McpsDataConfirm`. -/
inductive LrWpanMcpsDataConfirmStatus
  | success
  | transactionOverflow
  deriving DecidableEq, Repr

/-- The ways in which a handler does not return: a failed `NS_ASSERT`, an
`NS_FATAL_ERROR`, or an operation that C++ leaves undefined. -/
inductive Fault
  | assertFailed
  | fatalError
  | nullPacket
  | emptyQueue
  | divByZero
  | outOfRange
  | undefinedShift
  | negativeDelay
  deriving DecidableEq, Repr

/-- The result of a handler: a new state, or the fault that stops the simulation. -/
abbrev Exec (α : Type) := Except Fault α

end Ns3Dsme
