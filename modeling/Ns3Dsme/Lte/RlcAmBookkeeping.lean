/-
# The books of the RLC AM transmitter

The window starts at `VT(A)` and is 512 numbers wide.  The PDUs of the numbers from `VT(A)` up to
`VT(S)` are in one of the two buffers or released, and the sizes are those of what is held, as far
as 32 bits count.
-/
import Ns3Dsme.Lte.RlcAmTransmitter
import Ns3Dsme.Lib.Totals

open Function Program Totals

namespace Ns3Dsme.Lte

open SequenceNumber10

namespace LteRlcAm

variable {s t : LteRlcAm} {sn : Fin 1024} {pdu : AmPdu}

/-- How many numbers are in use, from `VT(A)` up to `VT(S)`. -/
def inUse (s : LteRlcAm) : ℕ := ahead s.vtA.value s.vtS.value

/-- The PDU of a number, in whichever buffer it is. -/
def pduOf (s : LteRlcAm) (sn : Fin 1024) : Option AmPdu := (s.txedBuffer sn).or (s.retxBuffer sn)

/-- **The books.** -/
structure Kept (s : LteRlcAm) : Prop where
  baseA : s.vtA.modulusBase = s.vtA.value
  baseS : s.vtS.modulusBase = s.vtA.value
  baseMs : s.vtMs.modulusBase = s.vtA.value
  window : s.inUse ≤ windowSize
  last : s.vtMs.value = tenBits (s.vtA.value + windowSize)
  once : ∀ sn, s.txedBuffer sn = none ∨ s.retxBuffer sn = none
  own : ∀ sn pdu, s.pduOf sn = some pdu → pdu.header.sequenceNumber.value = sn
  unused : ∀ sn, s.inUse ≤ ahead s.vtA.value sn → s.pduOf sn = none
  txed : s.txedBufferSize = counted (total AmPdu.size s.txedBuffer)
  retx : s.retxBufferSize = counted (total AmPdu.size s.retxBuffer)
  txon : s.txonBufferSize = counted (waiting s.txonBuffer)

theorem counted_add (m n : ℕ) : counted (m + n) = counted m + counted n := BitVec.ofNat_add m n

theorem counted_add_sub (m n : ℕ) : counted (m + n) - counted n = counted m := by
  rw [counted_add, BitVec.add_sub_cancel]

/-- A size is counted as it is below `2 ^ 32`. -/
theorem toNat_counted_iff (n : ℕ) : (counted n).toNat = n ↔ n < 2 ^ 32 := by
  unfold counted
  rw [BitVec.toNat_ofNat]
  exact Nat.mod_eq_iff_lt (by decide)

/-- What has a size that is not 0 is not empty. -/
theorem pos_of_counted {n : ℕ} (h : 0 < counted n) : 0 < n := by
  refine Nat.pos_of_ne_zero ?_
  rintro rfl
  exact absurd h (by decide)

/-- The three sizes are the totals. -/
structure Exact (s : LteRlcAm) : Prop where
  txed : s.txedBufferSize.toNat = total AmPdu.size s.txedBuffer
  retx : s.retxBufferSize.toNat = total AmPdu.size s.retxBuffer
  txon : s.txonBufferSize.toNat = waiting s.txonBuffer

/-- No buffer holds `2 ^ 32` octets. -/
structure Fits (s : LteRlcAm) : Prop where
  txed : total AmPdu.size s.txedBuffer < 2 ^ 32
  retx : total AmPdu.size s.retxBuffer < 2 ^ 32
  txon : waiting s.txonBuffer < 2 ^ 32

/-- **The sizes are exact** as long as 32 bits hold them. -/
theorem Kept.exact_iff_fits (h : Kept s) : s.Exact ↔ s.Fits := by
  have htxed := toNat_counted_iff (total AmPdu.size s.txedBuffer)
  have hretx := toNat_counted_iff (total AmPdu.size s.retxBuffer)
  have htxon := toNat_counted_iff (waiting s.txonBuffer)
  rw [← h.txed] at htxed
  rw [← h.retx] at hretx
  rw [← h.txon] at htxon
  constructor
  · intro hexact
    exact ⟨htxed.mp hexact.txed, hretx.mp hexact.retx, htxon.mp hexact.txon⟩
  · intro hfits
    exact ⟨htxed.mpr hfits.txed, hretx.mpr hfits.retx, htxon.mpr hfits.txon⟩

theorem Kept.ahead_vtMs (h : Kept s) : ahead s.vtA.value s.vtMs.value = windowSize := by
  rw [h.last]
  exact ahead_add _ (by decide)

/-- The test that ends the loops. -/
theorem Kept.lt_vtS (h : Kept s) {sn : SequenceNumber10} (hsn : sn.modulusBase = s.vtA.value) :
    sn.lt s.vtS = .ok (decide (ahead s.vtA.value sn.value < s.inUse)) := by
  rw [lt_eq (hsn.trans h.baseS.symm), hsn]
  rfl

/-- Only the numbers in use have a PDU. -/
theorem Kept.lt_inUse (h : Kept s) (hpdu : s.pduOf sn = some pdu) :
    ahead s.vtA.value sn < s.inUse := by
  by_contra hout
  rw [h.unused sn (Nat.le_of_not_lt hout)] at hpdu
  cases hpdu

theorem pduOf_of_txed (h : s.txedBuffer sn = some pdu) : s.pduOf sn = some pdu := by
  unfold pduOf
  rw [h]
  rfl

theorem pduOf_of_retx (h : s.retxBuffer sn = some pdu) (htxed : s.txedBuffer sn = none) :
    s.pduOf sn = some pdu := by
  unfold pduOf
  rw [htxed, h]
  rfl

theorem Kept.retx_of_txed (h : Kept s) (htxed : s.txedBuffer sn = some pdu) :
    s.retxBuffer sn = none := by
  rcases h.once sn with hnone | hnone
  · rw [htxed] at hnone
    cases hnone
  · exact hnone

theorem Kept.txed_of_retx (h : Kept s) (hretx : s.retxBuffer sn = some pdu) :
    s.txedBuffer sn = none := by
  rcases h.once sn with hnone | hnone
  · exact hnone
  · rw [hretx] at hnone
    cases hnone

/-! ## One PDU moves -/

theorem Kept.pduOf_moveToRetx (h : Kept s) (htxed : s.txedBuffer sn = some pdu) :
    (s.moveToRetx sn pdu).pduOf = s.pduOf := by
  funext x
  exact or_move htxed (h.retx_of_txed htxed) x

theorem Kept.pduOf_moveToTxed (h : Kept s) (hretx : s.retxBuffer sn = some pdu) :
    (s.moveToTxed sn pdu).pduOf = s.pduOf := by
  funext x
  exact or_move_back hretx (h.txed_of_retx hretx) x

/-- Numbers may lose their PDUs. -/
theorem Kept.of_fewer (h : Kept s) (hfewer : ∀ x p, t.pduOf x = some p → s.pduOf x = some p)
    (hvtA : t.vtA = s.vtA) (hvtS : t.vtS = s.vtS) (hvtMs : t.vtMs = s.vtMs)
    (hbuffer : t.txonBuffer = s.txonBuffer) (hsize : t.txonBufferSize = s.txonBufferSize)
    (honce : ∀ sn, t.txedBuffer sn = none ∨ t.retxBuffer sn = none)
    (htxed : t.txedBufferSize = counted (total AmPdu.size t.txedBuffer))
    (hretx : t.retxBufferSize = counted (total AmPdu.size t.retxBuffer)) : Kept t := by
  have hinUse : t.inUse = s.inUse := by
    unfold inUse
    rw [hvtA, hvtS]
  constructor
  · rw [hvtA]
    exact h.baseA
  · rw [hvtA, hvtS]
    exact h.baseS
  · rw [hvtA, hvtMs]
    exact h.baseMs
  · rw [hinUse]
    exact h.window
  · rw [hvtA, hvtMs]
    exact h.last
  · exact honce
  · intro x p hp
    exact h.own x p (hfewer x p hp)
  · intro x hout
    rw [hinUse, hvtA] at hout
    cases hx : t.pduOf x with
    | none => rfl
    | some p =>
      have hnone := h.unused x hout
      rw [hfewer x p hx] at hnone
      cases hnone
  · exact htxed
  · exact hretx
  · rw [hbuffer, hsize]
    exact h.txon

/-- **A transmitted PDU is to be sent again.** -/
theorem Kept.moveToRetx (h : Kept s) (htxed : s.txedBuffer sn = some pdu) :
    Kept (s.moveToRetx sn pdu) := by
  have htaken := total_clear AmPdu.size htxed
  have hput := total_put AmPdu.size (h.retx_of_txed htxed) pdu
  refine h.of_fewer ?_ rfl rfl rfl rfl rfl (apart_move h.once sn pdu) ?_ ?_
  · rw [h.pduOf_moveToRetx htxed]
    exact fun _ _ hp => hp
  · show s.txedBufferSize - counted pdu.size = _
    rw [h.txed, ← htaken, counted_add_sub]
    rfl
  · show s.retxBufferSize + counted pdu.size = _
    rw [h.retx, ← counted_add, ← hput]
    rfl

/-- **A PDU was sent again.** -/
theorem Kept.moveToTxed (h : Kept s) (hretx : s.retxBuffer sn = some pdu) :
    Kept (s.moveToTxed sn pdu) := by
  have htaken := total_clear AmPdu.size hretx
  have hput := total_put AmPdu.size (h.txed_of_retx hretx) pdu
  refine h.of_fewer ?_ rfl rfl rfl rfl rfl ?_ ?_ ?_
  · rw [h.pduOf_moveToTxed hretx]
    exact fun _ _ hp => hp
  · intro x
    exact (apart_move (fun j => (h.once j).symm) sn pdu x).symm
  · show s.txedBufferSize + counted pdu.size = _
    rw [h.txed, ← counted_add, ← hput]
    rfl
  · show s.retxBufferSize - counted pdu.size = _
    rw [h.retx, ← htaken, counted_add_sub]
    rfl

theorem cancelPoll_eq (s : LteRlcAm) (sn : Fin 1024) :
    ∃ running, s.cancelPoll sn = { s with pollRetransmitTimer := running } := by
  unfold cancelPoll
  split
  · exact ⟨false, rfl⟩
  · exact ⟨s.pollRetransmitTimer, rfl⟩

/-! ## A STATUS PDU -/

/-- What happens to a number leaves the window and the other numbers alone. -/
structure Elsewhere (sn : Fin 1024) (s t : LteRlcAm) : Prop where
  vtA : t.vtA = s.vtA
  vtS : t.vtS = s.vtS
  pdus : ∀ x, x ≠ sn → t.pduOf x = s.pduOf x

/-- **A NACKed number.**  Its PDU is to be sent again, if it is still held. -/
theorem Kept.nack (h : Kept s) (sn : Fin 1024) :
    Wp (s.nack sn) (fun t => Kept t ∧ Elsewhere sn s t ∧ (s.pduOf sn).isSome = true)
      (fun e => e = .retxPduMissing ∧ s.pduOf sn = none) := by
  unfold LteRlcAm.nack
  cases htxed : s.txedBuffer sn with
  | some pdu =>
    have hmoved : (s.moveToRetx sn pdu).retxBuffer sn = some pdu := update_self ..
    dsimp only
    rw [hmoved]
    refine ⟨h.moveToRetx htxed, ⟨rfl, rfl, fun x _ => ?_⟩, ?_⟩
    · rw [h.pduOf_moveToRetx htxed]
    · rw [pduOf_of_txed htxed]
      rfl
  | none =>
    dsimp only
    cases hretx : s.retxBuffer sn with
    | some pdu =>
      refine ⟨h, ⟨rfl, rfl, fun x _ => rfl⟩, ?_⟩
      rw [pduOf_of_retx hretx htxed]
      rfl
    | none =>
      refine ⟨rfl, ?_⟩
      unfold pduOf
      rw [htxed, hretx]
      rfl

/-- Where one number has lost its PDU, there are fewer of them. -/
theorem Elsewhere.fewer (h : Elsewhere sn s t) (hnone : t.pduOf sn = none) :
    ∀ x p, t.pduOf x = some p → s.pduOf x = some p := by
  intro x p hp
  by_cases hx : x = sn
  · rw [hx, hnone] at hp
    cases hp
  · exact (h.pdus x hx).symm.trans hp

/-- A PDU leaves the transmitted ones. -/
theorem Kept.releaseTxed (h : Kept s) (sn : Fin 1024) :
    Wp (s.releaseTxed sn) (fun t => Kept t ∧ Elsewhere sn s t ∧ t.txedBuffer sn = none)
      (fun _ => False) := by
  unfold LteRlcAm.releaseTxed
  cases htxed : s.txedBuffer sn with
  | none => exact ⟨h, ⟨rfl, rfl, fun x _ => rfl⟩, htxed⟩
  | some pdu =>
    have hretx := h.retx_of_txed htxed
    have htaken := total_clear AmPdu.size htxed
    dsimp only
    rw [hretx]
    show Kept _ ∧ Elsewhere sn s _ ∧ _
    have helse : Elsewhere sn s { s with
        txedBuffer := update s.txedBuffer sn none
        txedBufferSize := s.txedBufferSize - counted pdu.size } := by
      refine ⟨rfl, rfl, fun x hx => ?_⟩
      show (update s.txedBuffer sn none x).or (s.retxBuffer x) = s.pduOf x
      rw [update_of_ne hx]
      rfl
    have hself : (update s.txedBuffer sn none sn).or (s.retxBuffer sn) = none := by
      rw [update_self, hretx]
      rfl
    refine ⟨h.of_fewer (helse.fewer hself) rfl rfl rfl rfl rfl (apart_clear h.once sn) ?_ h.retx,
      helse, update_self ..⟩
    dsimp only
    rw [h.txed, ← htaken, counted_add_sub]

/-- A PDU leaves the retransmission buffer. -/
theorem Kept.releaseRetx (h : Kept s) (htxed : s.txedBuffer sn = none) :
    Kept (s.releaseRetx sn) ∧ Elsewhere sn s (s.releaseRetx sn)
      ∧ (s.releaseRetx sn).pduOf sn = none := by
  unfold LteRlcAm.releaseRetx
  cases hretx : s.retxBuffer sn with
  | none =>
    refine ⟨h, ⟨rfl, rfl, fun x _ => rfl⟩, ?_⟩
    show (s.txedBuffer sn).or (s.retxBuffer sn) = none
    rw [htxed, hretx]
    rfl
  | some pdu =>
    have htaken := total_clear AmPdu.size hretx
    dsimp only
    have helse : Elsewhere sn s { s with
        retxBuffer := update s.retxBuffer sn none
        retxBufferSize := s.retxBufferSize - counted pdu.size } := by
      refine ⟨rfl, rfl, fun x hx => ?_⟩
      show (s.txedBuffer x).or (update s.retxBuffer sn none x) = s.pduOf x
      rw [update_of_ne hx]
      rfl
    have hself : (s.txedBuffer sn).or (update s.retxBuffer sn none sn) = none := by
      rw [update_self, htxed]
      rfl
    refine ⟨h.of_fewer (helse.fewer hself) rfl rfl rfl rfl rfl ?_ h.txed ?_, helse, hself⟩
    · intro x
      exact (apart_clear (fun j => (h.once j).symm) sn x).symm
    · dsimp only
      rw [h.retx, ← htaken, counted_add_sub]

/-- **An acknowledged number.**  It has no PDU any more. -/
theorem Kept.release (h : Kept s) (sn : Fin 1024) :
    Wp (s.releaseTxed sn)
      (fun t => Kept (t.releaseRetx sn) ∧ Elsewhere sn s (t.releaseRetx sn)
        ∧ (t.releaseRetx sn).pduOf sn = none)
      (fun _ => False) := by
  refine (h.releaseTxed sn).mono ?_ fun _ hfalse => hfalse
  rintro t ⟨hkept, helse, htxed⟩
  obtain ⟨hkept', helse', hnone⟩ := hkept.releaseRetx htxed
  refine ⟨hkept', ⟨helse'.vtA.trans helse.vtA, helse'.vtS.trans helse.vtS, fun x hx => ?_⟩, hnone⟩
  rw [helse'.pdus x hx, helse.pdus x hx]

/-- **The window moves up** over a number without a PDU. -/
theorem Kept.incrementVtA (h : Kept s) (hpos : 0 < s.inUse) (hnone : s.pduOf s.vtA.value = none) :
    Kept s.incrementVtA ∧ s.incrementVtA.inUse + 1 = s.inUse := by
  have hless : s.incrementVtA.inUse + 1 = s.inUse := ahead_of_next_base hpos
  have hwindow := h.window
  refine ⟨⟨rfl, rfl, rfl, ?_, rfl, h.once, h.own, ?_, h.txed, h.retx, h.txon⟩, hless⟩
  · omega
  · intro x hout
    by_cases hx : x = s.vtA.value
    · subst hx
      exact hnone
    · have hfar : 0 < ahead s.vtA.value x := by
        by_contra hzero
        refine hx (ahead_inj s.vtA.value ?_)
        rw [ahead_self]
        omega
      have hnear : ahead s.incrementVtA.vtA.value x + 1 = ahead s.vtA.value x :=
        ahead_of_next_base hfar
      exact h.unused x (by omega)

/-- Every NACKed number below `ACK_SN`, from the one at distance `d` on, still has its PDU. -/
def SafeFrom (s : LteRlcAm) (d : ℕ) (ackSn : Fin 1024) (nackSns : List (Fin 1024)) : Prop :=
  ∀ x : Fin 1024, d ≤ ahead s.vtA.value x → ahead s.vtA.value x < ahead s.vtA.value ackSn →
    ahead s.vtA.value x < s.inUse → nackSns.contains x = true → (s.pduOf x).isSome = true

/-- **A safe STATUS PDU.**  Every number that it NACKs below `ACK_SN` still has its PDU. -/
def StatusSafe (s : LteRlcAm) (ackSn : Fin 1024) (nackSns : List (Fin 1024)) : Prop :=
  s.SafeFrom 0 ackSn nackSns

/-- The number at the distance comes first, then the others. -/
theorem safeFrom_iff {d : ℕ} {ackSn : Fin 1024} {nackSns : List (Fin 1024)}
    (hsn : ahead s.vtA.value sn = d) (hack : d < ahead s.vtA.value ackSn) (hin : d < s.inUse) :
    s.SafeFrom d ackSn nackSns
      ↔ (nackSns.contains sn = true → (s.pduOf sn).isSome = true)
        ∧ s.SafeFrom (d + 1) ackSn nackSns := by
  constructor
  · intro hsafe
    refine ⟨fun hnack => hsafe sn hsn.ge (by omega) (by omega) hnack, fun x hx => ?_⟩
    exact hsafe x (by omega)
  · rintro ⟨hfirst, hrest⟩ x hd hlt hinx hnack
    by_cases hx : x = sn
    · subst hx
      exact hfirst hnack
    · have hne : ahead s.vtA.value x ≠ d := by
        intro heq
        exact hx (ahead_inj _ (heq.trans hsn.symm))
      exact hrest x (by omega) hlt hinx hnack

theorem Elsewhere.inUse (h : Elsewhere sn s t) : t.inUse = s.inUse := by
  unfold LteRlcAm.inUse
  rw [h.vtA, h.vtS]

/-- What happens to a number does not matter for the ones behind it. -/
theorem Elsewhere.safeFrom_iff {d : ℕ} {ackSn : Fin 1024} {nackSns : List (Fin 1024)}
    (h : Elsewhere sn s t) (hsn : ahead s.vtA.value sn < d) :
    t.SafeFrom d ackSn nackSns ↔ s.SafeFrom d ackSn nackSns := by
  unfold SafeFrom
  rw [h.inUse, h.vtA]
  refine forall_congr' fun x => ?_
  refine forall_congr' fun hd => ?_
  rw [h.pdus x (by
    rintro rfl
    omega)]

/-- The window moves up: all distances but that of the released number shrink by one. -/
theorem safeFrom_incrementVtA {ackSn : Fin 1024} {nackSns : List (Fin 1024)} (hpos : 0 < s.inUse)
    (hack : 0 < ahead s.vtA.value ackSn) :
    s.incrementVtA.SafeFrom 0 ackSn nackSns ↔ s.SafeFrom 1 ackSn nackSns := by
  have hless : s.incrementVtA.inUse + 1 = s.inUse := ahead_of_next_base hpos
  have hnearAck : ahead s.incrementVtA.vtA.value ackSn + 1 = ahead s.vtA.value ackSn :=
    ahead_of_next_base hack
  constructor
  · intro hsafe x hd hlt hin hnack
    have hnear : ahead s.incrementVtA.vtA.value x + 1 = ahead s.vtA.value x :=
      ahead_of_next_base hd
    exact hsafe x (Nat.zero_le _) (by omega) (by omega) hnack
  · intro hsafe x _ hlt hin hnack
    have hx : x ≠ s.vtA.value := by
      rintro rfl
      have hfar : ahead s.incrementVtA.vtA.value s.vtA.value = 1023 := ahead_next_base_self _
      have := ahead_lt s.vtA.value ackSn
      omega
    have hfar : 0 < ahead s.vtA.value x := by
      by_contra hzero
      refine hx (ahead_inj s.vtA.value ?_)
      rw [ahead_self]
      omega
    have hnear : ahead s.incrementVtA.vtA.value x + 1 = ahead s.vtA.value x :=
      ahead_of_next_base hfar
    exact hsafe x hfar (by omega) (by omega) hnack

/-- The books are kept, and it fails exactly if a NACKed number has lost its PDU. -/
abbrev Settles (safe : Prop) (x : Except Fault LteRlcAm) : Prop :=
  Wp x (fun t => Kept t ∧ safe) (fun e => e = .retxPduMissing ∧ ¬ safe)

/-- The loop acknowledges the numbers from any one of the window on. -/
abbrev Acknowledges (nackSns : List (Fin 1024)) (fuel : ℕ) : Prop :=
  ∀ (s : LteRlcAm) (sn ackSn : SequenceNumber10) (increment : Bool), Kept s →
    sn.modulusBase = s.vtA.value → ackSn.modulusBase = s.vtA.value →
    (increment = true → sn.value = s.vtA.value) →
    ahead s.vtA.value sn.value ≤ s.inUse → s.inUse - ahead s.vtA.value sn.value < fuel →
    Settles (s.SafeFrom (ahead s.vtA.value sn.value) ackSn.value nackSns)
      (LteRlcAm.acknowledge nackSns fuel s sn ackSn increment)

section

variable {nackSns : List (Fin 1024)} {fuel : ℕ} {s u : LteRlcAm} {sn ackSn : SequenceNumber10}
  (ih : Acknowledges nackSns fuel) (hu : Kept u) (helse : Elsewhere sn.value s u)
  (hltS : ahead s.vtA.value sn.value < s.inUse)
  (hfuel : s.inUse - ahead s.vtA.value sn.value < fuel + 1)

include ih hu helse hltS hfuel

/-- Without a move of the window, the loop goes on behind the number. -/
theorem settles_next (hsn : sn.modulusBase = s.vtA.value) (hack : ackSn.modulusBase = s.vtA.value) :
    Settles (s.SafeFrom (ahead s.vtA.value sn.value + 1) ackSn.value nackSns)
      (LteRlcAm.acknowledge nackSns fuel u sn.next ackSn false) := by
  have hwindow := hu.window
  rw [helse.inUse] at hwindow
  have hnext : ahead s.vtA.value sn.next.value = ahead s.vtA.value sn.value + 1 :=
    ahead_next (by
      unfold windowSize at hwindow
      omega)
  have hrest := ih u sn.next ackSn false hu (by rw [helse.vtA]; exact hsn)
    (by rw [helse.vtA]; exact hack) nofun (by rw [helse.vtA, hnext, helse.inUse]; omega)
    (by rw [helse.vtA, hnext, helse.inUse]; omega)
  rw [helse.vtA, hnext, helse.safeFrom_iff (Nat.lt_succ_self _)] at hrest
  exact hrest

/-- At the start of the window, the window moves first. -/
theorem settles_incrementVtA (hstart : sn.value = s.vtA.value)
    (hltAck : ahead s.vtA.value sn.value < ahead s.vtA.value ackSn.value)
    (hnone : u.pduOf sn.value = none) :
    Settles (s.SafeFrom (ahead s.vtA.value sn.value + 1) ackSn.value nackSns)
      (LteRlcAm.acknowledge nackSns fuel u.incrementVtA (sn.setModulusBase u.incrementVtA.vtA).next
        (ackSn.setModulusBase u.incrementVtA.vtA) true) := by
  have hzero : ahead s.vtA.value sn.value = 0 := by
    rw [hstart]
    exact ahead_self _
  have hpos : 0 < u.inUse := by
    rw [helse.inUse]
    exact Nat.lt_of_le_of_lt (Nat.zero_le _) hltS
  rw [← helse.vtA] at hstart
  obtain ⟨hmoved, hless⟩ := hu.incrementVtA hpos (hstart ▸ hnone)
  have hsame : (sn.setModulusBase u.incrementVtA.vtA).next.value = u.incrementVtA.vtA.value := by
    show tenBits (sn.value + 1) = tenBits (u.vtA.value + 1)
    rw [hstart]
  have hself : ahead u.incrementVtA.vtA.value
      (sn.setModulusBase u.incrementVtA.vtA).next.value = 0 := by
    rw [hsame]
    exact ahead_self _
  have hrest := ih u.incrementVtA (sn.setModulusBase u.incrementVtA.vtA).next
    (ackSn.setModulusBase u.incrementVtA.vtA) true hmoved rfl rfl (fun _ => hsame)
    (by rw [hself]; exact Nat.zero_le _)
    (by
      have hinUse := helse.inUse
      omega)
  rw [hself] at hrest
  rw [hzero]
  rw [hzero] at hltAck
  have hshift : u.incrementVtA.SafeFrom 0 ackSn.value nackSns
      ↔ s.SafeFrom (0 + 1) ackSn.value nackSns := by
    rw [safeFrom_incrementVtA hpos (by rw [helse.vtA]; exact hltAck)]
    exact helse.safeFrom_iff (show ahead s.vtA.value sn.value < 1 by omega)
  rw [← hshift]
  exact hrest

end

/-- **The loop over the acknowledged numbers.**  It keeps the books, and it fails exactly if a
NACKed number has lost its PDU. -/
theorem Kept.acknowledge (nackSns : List (Fin 1024)) (fuel : ℕ) : Acknowledges nackSns fuel := by
  induction fuel with
  | zero =>
    intro s sn ackSn increment _ _ _ _ _ hfuel
    exact absurd hfuel (Nat.not_lt_zero _)
  | succ fuel ih =>
    intro s sn ackSn increment h hsn hack hincrement hle hfuel
    unfold LteRlcAm.acknowledge
    rw [lt_eq (hsn.trans hack.symm), h.lt_vtS hsn, ok_bind, ok_bind, hsn]
    by_cases hgo : ahead s.vtA.value sn.value < ahead s.vtA.value ackSn.value
        ∧ ahead s.vtA.value sn.value < s.inUse
    swap
    · -- no number is left
      rw [if_neg (by
        rw [Bool.and_eq_true, decide_eq_true_eq, decide_eq_true_eq]
        exact hgo)]
      refine ⟨h, fun x hd hlt hin _ => ?_⟩
      exact absurd ⟨by omega, by omega⟩ hgo
    obtain ⟨hltAck, hltS⟩ := hgo
    obtain ⟨running, hcancel⟩ := cancelPoll_eq s sn.value
    have hk : Kept { s with pollRetransmitTimer := running } := { h with }
    rw [if_pos (by
      rw [Bool.and_eq_true, decide_eq_true_eq, decide_eq_true_eq]
      exact ⟨hltAck, hltS⟩), hcancel, safeFrom_iff rfl hltAck hltS]
    by_cases hnack : nackSns.contains sn.value = true
    · -- the number is NACKed
      rw [if_pos hnack]
      apply wp_of_bind
      refine (hk.nack sn.value).mono ?_ ?_
      · rintro t ⟨ht, helse, hheld⟩
        refine (settles_next ih ht { helse with } hltS hfuel hsn hack).mono ?_ ?_
        · rintro u ⟨hu, hsafe⟩
          exact ⟨hu, fun _ => hheld, hsafe⟩
        · rintro e ⟨he, hrisk⟩
          exact ⟨he, fun hsafe => hrisk hsafe.2⟩
      · rintro e ⟨he, hnone⟩
        refine ⟨he, fun hsafe => ?_⟩
        have hheld : (s.pduOf sn.value).isSome = true := hsafe.1 hnack
        rw [show s.pduOf sn.value = none from hnone] at hheld
        cases hheld
    · -- the number is acknowledged
      rw [if_neg hnack]
      apply wp_of_bind
      refine (hk.release sn.value).mono ?_ fun _ hfalse => hfalse.elim
      rintro t ⟨ht, helse', hnone⟩
      dsimp only
      generalize t.releaseRetx sn.value = u at ht helse' hnone
      have helse : Elsewhere sn.value s u := { helse' with }
      have hfirst : nackSns.contains sn.value = true → (s.pduOf sn.value).isSome = true :=
        fun hnacked => absurd hnacked hnack
      have hloop : Settles (s.SafeFrom (ahead s.vtA.value sn.value + 1) ackSn.value nackSns)
          (if increment = true then LteRlcAm.acknowledge nackSns fuel u.incrementVtA
            (sn.setModulusBase u.incrementVtA.vtA).next
            (ackSn.setModulusBase u.incrementVtA.vtA) true
          else LteRlcAm.acknowledge nackSns fuel u sn.next ackSn false) := by
        cases increment with
        | false =>
          rw [if_neg Bool.false_ne_true]
          exact settles_next ih ht helse hltS hfuel hsn hack
        | true =>
          rw [if_pos rfl]
          exact settles_incrementVtA ih ht helse hltS hfuel (hincrement rfl) hltAck hnone
      refine hloop.mono ?_ ?_
      · rintro v ⟨hv, hsafe⟩
        exact ⟨hv, hfirst, hsafe⟩
      · rintro e ⟨he, hrisk⟩
        exact ⟨he, fun hsafe => hrisk hsafe.2⟩

/-- **A STATUS PDU** keeps the books if it is safe, and else an assertion fails. -/
theorem Kept.receiveStatus (h : Kept s) (ackSn : Fin 1024) (nackSns : List (Fin 1024)) :
    Wp (s.receiveStatus ackSn nackSns) (fun t => Kept t ∧ s.StatusSafe ackSn nackSns)
      (fun e => e = .retxPduMissing ∧ ¬ s.StatusSafe ackSn nackSns) := by
  have hwindow := h.window
  have hzero : ahead s.vtA.value s.vtA.value = 0 := ahead_self _
  unfold LteRlcAm.receiveStatus
  dsimp only
  rw [setModulusBase_of_eq h.baseA, setModulusBase_of_eq h.baseS, setModulusBase_of_eq h.baseMs]
  have hloop := h.acknowledge nackSns 1024 s s.vtA
    (({ value := ackSn } : SequenceNumber10).setModulusBase s.vtA) true h.baseA rfl (fun _ => rfl)
    (by rw [hzero]; exact Nat.zero_le _)
    (by
      unfold windowSize at hwindow
      omega)
  rw [hzero] at hloop
  exact hloop

end LteRlcAm

end Ns3Dsme.Lte
