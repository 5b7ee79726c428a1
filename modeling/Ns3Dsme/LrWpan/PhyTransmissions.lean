/-
# Transmissions are confirmed once and truthfully

A request that the PHY accepts starts a frame and a timer; the timer finds out later what has
become of the frame by looking at the transceiver state and at one flag.  As long as no frame
is started under the timer of another one, and the timer finds the transmitter on, or off with
the flag set, every request is confirmed exactly once and a success means that the frame was
on the air for its whole duration.
-/
import Ns3Dsme.LrWpan.Phy

open Nat List Program

namespace Ns3Dsme

/-! ## What the trace says about a request -/

/-- The output ends request `u`: it confirms or withdraws it. -/
def PhyOutput.resolves (u : ℕ) : PhyOutput → Bool
  | .pdDataConfirm _ frame _ => frame == some u
  | .pdDataCancelled request => request == some u
  | _ => false

/-- The transceiver or the channel changes. -/
def PhyOutput.disturbs : PhyOutput → Bool
  | .trxState _ => true
  | .phyCurrentChannel _ => true
  | _ => false

/-- The output starts, confirms or withdraws request `u`. -/
def PhyOutput.concerns (u : ℕ) : PhyOutput → Prop
  | .phyTxBegin request _ => request = u
  | .pdDataConfirm _ frame _ => frame = some u
  | .pdDataCancelled request => request = some u
  | _ => False

/-- The output concerns no request that was accepted. -/
def PhyOutput.isOther : PhyOutput → Bool
  | .phyTxBegin _ _ => false
  | .pdDataConfirm status frame timer =>
    status != .phySuccess && frame.isNone && timer.isNone
  | .pdDataCancelled _ => false
  | _ => true

namespace LrWpanPhy

/-- How often a request has been confirmed or withdrawn. -/
def outcomes (u : ℕ) (trace : List (ℤ × PhyOutput)) : ℕ :=
  trace.countP fun x => x.2.resolves u

/-- A frame started at time `t₀` and the transmitter went on; since then neither the
transceiver nor the channel has changed, if `undisturbed` holds. -/
def Aired (trace : List (ℤ × PhyOutput)) (u size : ℕ) (t₀ : ℤ) (undisturbed : Prop) : Prop :=
  ∃ earlier air, trace = earlier ++ (t₀, .phyTxBegin u size) :: (t₀, .trxState .phyBusyTx) :: air
    ∧ (undisturbed → ∀ x ∈ air, x.2.disturbs = false)

/-- **Truthful confirms.**  Every accepted request is still on its way, with its own timer
running for the duration of the frame, or it has been confirmed or withdrawn exactly once; a
success is reported when the frame has been on the air for its whole duration; and a confirm is
about the frame whose timer issued it. -/
structure Truthful (s : LrWpanPhy) : Prop where
  outcome : ∀ t u size, (t, .phyTxBegin u size) ∈ s.trace →
    ((u, t + txTime size) ∈ s.pdDataRequest.pending ∧ s.currentTxPacket.1 = some u
      ∧ outcomes u s.trace = 0) ∨ outcomes u s.trace = 1
  success : ∀ before t frame timer,
    before ++ [(t, .pdDataConfirm .phySuccess frame timer)] <+: s.trace →
      ∃ u size t₀, frame = some u ∧ t = t₀ + txTime size ∧ Aired before u size t₀ True
  timer : ∀ t status frame k, (t, .pdDataConfirm status frame (some k)) ∈ s.trace →
    frame = some k

/-- Frames start one at a time, and a timer finds the transmitter on or the frame cut off. -/
def IsOrderly (s : LrWpanPhy) : PhyAction → Prop
  | .pdDataRequest psduLength _ =>
    psduLength ≤ aMaxPhyPacketSize → s.setTRXState = none → s.trxState = .phyTxOn →
      s.pdDataRequest.pending = []
  | .endTx _ =>
    s.trxState = .phyBusyTx ∨ s.trxState = .phyTrxOff ∧ s.currentTxPacket.2 = true
  | _ => True

instance (s : LrWpanPhy) : (a : PhyAction) → Decidable (s.IsOrderly a)
  | .pdDataRequest psduLength _ => inferInstanceAs (Decidable
      (psduLength ≤ aMaxPhyPacketSize → s.setTRXState = none → s.trxState = .phyTxOn →
        s.pdDataRequest.pending = []))
  | .endTx _ => inferInstanceAs (Decidable
      (s.trxState = .phyBusyTx ∨ s.trxState = .phyTrxOff ∧ s.currentTxPacket.2 = true))
  | .cancelPdDataRequest | .plmeCcaRequest | .ccaCancel | .plmeEdRequest
  | .plmeSetTRXStateRequest _ | .plmeSetAttributeRequest _ | .startRx _ _ _ | .endSetTRXState
  | .endRx _ _ _ | .endCca _ _ | .endEd _ _ | .tick _ => instDecidableTrue

/-! ## The invariant -/

/-- At most one `EndTx` is pending; it belongs to the current frame, which has no outcome yet
and, if the transmitter is still on, has been on the air undisturbed.  Transmitting is never a
state that is pending. -/
structure TxInv (s : LrWpanPhy) : Prop where
  truthful : s.Truthful
  single : ∀ x ∈ s.pdDataRequest.pending,
    s.pdDataRequest.pending = [x] ∧ s.pdDataRequest.held = some x.1
      ∧ s.currentTxPacket.1 = some x.1 ∧ outcomes x.1 s.trace = 0
      ∧ ∃ size t₀, x.2 = t₀ + txTime size
        ∧ Aired s.trace x.1 size t₀ (s.trxState = .phyBusyTx)
  known : ∀ x ∈ s.trace, ∀ u, x.2.concerns u → u < s.nextId
  pending : s.trxStatePending ≠ .phyBusyTx

variable {s r : LrWpanPhy}

/-- The invariant is about few of the members. -/
theorem TxInv.congr (h : s.TxInv) (hstate : r.trxState = s.trxState)
    (hcurrent : r.currentTxPacket.1 = s.currentTxPacket.1)
    (htimers : r.pdDataRequest = s.pdDataRequest) (hid : s.nextId ≤ r.nextId)
    (htrace : r.trace = s.trace) (hpending : r.trxStatePending ≠ .phyBusyTx) : r.TxInv where
  truthful := by
    refine ⟨?_, ?_, ?_⟩
    · rw [htrace, htimers, hcurrent]
      exact h.truthful.outcome
    · rw [htrace]
      exact h.truthful.success
    · rw [htrace]
      exact h.truthful.timer
  single := by
    rw [htrace, htimers, hcurrent, hstate]
    exact h.single
  known := by
    rw [htrace]
    exact fun x hx u hu => Nat.lt_of_lt_of_le (h.known x hx u hu) hid
  pending := hpending

/-- Leaving the transmitting state. -/
theorem TxInv.leave (h : s.TxInv) (state : LrWpanPhyEnumeration) (hne : state ≠ .phyBusyTx) :
    { s with trxState := state }.TxInv where
  truthful := { h.truthful with }
  single x hx := by
    obtain ⟨hall, hheld, hcurrent, hnone, size, t₀, htime, earlier, air, htrace, -⟩ := h.single x hx
    exact ⟨hall, hheld, hcurrent, hnone, size, t₀, htime, earlier, air, htrace,
      fun hbusy => absurd hbusy hne⟩
  known := h.known
  pending := h.pending

/-- An output that does not end a request leaves its outcomes alone. -/
theorem outcomes_append (u : ℕ) (trace : List (ℤ × PhyOutput)) (t : ℤ) (o : PhyOutput) :
    outcomes u (trace ++ [(t, o)]) = outcomes u trace + if o.resolves u then 1 else 0 := by
  unfold outcomes
  rw [countP_append, countP_singleton]

/-- What was aired stays so while nothing disturbs it. -/
theorem Aired.append {trace : List (ℤ × PhyOutput)} {u size : ℕ} {t₀ : ℤ} {P : Prop}
    (h : Aired trace u size t₀ P) (t : ℤ) (o : PhyOutput) (ho : P → o.disturbs = false) :
    Aired (trace ++ [(t, o)]) u size t₀ P := by
  obtain ⟨earlier, air, rfl, hquiet⟩ := h
  refine ⟨earlier, air ++ [(t, o)], by simp, fun hP x hx => ?_⟩
  rcases mem_append.mp hx with hx | hx
  · exact hquiet hP x hx
  · rw [mem_singleton.mp hx]
    exact ho hP

/-- Other outputs resolve nothing and concern no accepted request. -/
theorem resolves_of_isOther {o : PhyOutput} (ho : o.isOther = true) (u : ℕ) :
    o.resolves u = false ∧ ¬ o.concerns u := by
  cases o with
  | phyTxBegin request size => cases ho
  | pdDataConfirm status frame timer =>
    cases frame with
    | none => exact ⟨rfl, nofun⟩
    | some v => simp [PhyOutput.isOther] at ho
  | pdDataCancelled request => cases ho
  | _ => exact ⟨rfl, id⟩

/-- Any other output, if it is no disturbance of a transmission. -/
theorem TxInv.emit (h : s.TxInv) (o : PhyOutput) (ho : o.isOther = true)
    (hquiet : s.trxState = .phyBusyTx → o.disturbs = false) : (s.emit o).TxInv where
  truthful := by
    refine ⟨fun t u size hmem => ?_, fun before t frame timer hpre => ?_,
      fun t status frame k hmem => ?_⟩
    · have hsame : outcomes u (s.emit o).trace = outcomes u s.trace := by
        show outcomes u (s.trace ++ [(s.now, o)]) = _
        rw [outcomes_append, (resolves_of_isOther ho u).1]
        rfl
      rw [hsame]
      rcases mem_append.mp hmem with hmem | hmem
      · exact h.truthful.outcome t u size hmem
      · obtain ⟨-, rfl⟩ := Prod.mk.inj (mem_singleton.mp hmem)
        cases ho
    · rcases prefix_concat_iff.mp hpre with heq | hpre
      · obtain ⟨-, hlast⟩ := append_inj' heq rfl
        obtain ⟨-, rfl⟩ := Prod.mk.inj (singleton_inj.mp hlast)
        simp [PhyOutput.isOther] at ho
      · exact h.truthful.success before t frame timer hpre
    · rcases mem_append.mp hmem with hmem | hmem
      · exact h.truthful.timer t status frame k hmem
      · obtain ⟨-, rfl⟩ := Prod.mk.inj (mem_singleton.mp hmem)
        simp [PhyOutput.isOther] at ho
  single x hx := by
    obtain ⟨hall, hheld, hcurrent, hnone, size, t₀, htime, haired⟩ := h.single x hx
    refine ⟨hall, hheld, hcurrent, ?_, size, t₀, htime, haired.append _ o hquiet⟩
    show outcomes x.1 (s.trace ++ [(s.now, o)]) = 0
    rw [outcomes_append, (resolves_of_isOther ho x.1).1, hnone]
    rfl
  known x hx u hu := by
    rcases mem_append.mp hx with hx | hx
    · exact h.known x hx u hu
    · rw [mem_singleton.mp hx] at hu
      exact absurd hu (resolves_of_isOther ho u).2
  pending := h.pending

/-- `ChangeTrxState` to any state but transmitting. -/
theorem TxInv.changeTrxState (h : s.TxInv) (state : LrWpanPhyEnumeration)
    (hne : state ≠ .phyBusyTx) : (s.changeTrxState state).TxInv :=
  (h.leave state hne).emit _ rfl fun hbusy => absurd hbusy hne

/-! ## Handlers that start and end no frame -/

/-- `CancelEd`. -/
theorem TxInv.cancelEd (h : s.TxInv) (state : LrWpanPhyEnumeration) : (s.cancelEd state).TxInv := by
  unfold LrWpanPhy.cancelEd
  split
  · exact (h.congr (r := { s with edRequest := s.edRequest.cancel }) rfl rfl rfl le.refl rfl
      h.pending).emit _ rfl fun _ => rfl
  · exact h

/-- An assessment that is given up. -/
theorem TxInv.giveUpCca (h : s.TxInv) : s.giveUpCca.TxInv := by
  unfold LrWpanPhy.giveUpCca
  split
  · exact (h.congr (r := { s with ccaRequest := s.ccaRequest.cancel }) rfl rfl rfl le.refl rfl
      h.pending).emit _ rfl fun _ => rfl
  · exact h

/-- A reception that is terminated. -/
theorem TxInv.terminateReception (h : s.TxInv) : s.terminateReception.TxInv := by
  unfold LrWpanPhy.terminateReception
  split
  · exact h.congr rfl rfl rfl le.refl rfl h.pending
  · exact h

/-- A pending state that is applied. -/
theorem TxInv.applyPendingState (h : s.TxInv) : s.applyPendingState.TxInv := by
  unfold LrWpanPhy.applyPendingState
  split
  · have hleft := h.changeTrxState s.trxStatePending h.pending
    exact (hleft.congr (r := { s.changeTrxState s.trxStatePending with
      trxStatePending := .phyIdle }) rfl rfl rfl le.refl rfl nofun).emit _ rfl fun _ => rfl
  · exact h

/-- `EndSetTRXState`. -/
theorem TxInv.endSetTRXState (h : s.TxInv) : Post s.endSetTRXState TxInv := by
  unfold LrWpanPhy.endSetTRXState
  split
  · trivial
  · have hleft := h.changeTrxState s.trxStatePending h.pending
    exact (hleft.congr (r := { s.changeTrxState s.trxStatePending with
      trxStatePending := .phyIdle }) rfl rfl rfl le.refl rfl nofun).emit _ rfl fun _ => rfl

/-- `PlmeSetTRXStateRequest(TRX_OFF)`. -/
theorem TxInv.requestTrxOff (h : s.TxInv) : Post s.requestTrxOff TxInv := by
  have hed := h.cancelEd .phyTrxOff
  unfold LrWpanPhy.requestTrxOff
  dsimp only
  split
  · exact hed.congr rfl rfl rfl le.refl rfl nofun
  · split
    · exact (hed.changeTrxState .phyTrxOff nofun).emit _ rfl fun _ => rfl
    · trivial

/-- `PlmeSetTRXStateRequest(TX_ON)`. -/
theorem TxInv.requestTxOn (h : s.TxInv) : Post s.requestTxOn TxInv := by
  have hed := h.cancelEd .phyTxOn
  have hstart : ((s.cancelEd .phyTxOn).terminateReception.giveUpCca.startSetTRXState
      .phyTxOn).TxInv :=
    hed.terminateReception.giveUpCca.congr rfl rfl rfl le.refl rfl nofun
  unfold LrWpanPhy.requestTxOn
  dsimp only
  split
  · exact hstart
  · exact hstart
  · exact hed.emit _ rfl fun _ => rfl
  · exact hed.emit _ rfl fun _ => rfl
  · exact (hed.changeTrxState .phyTxOn nofun).emit _ rfl fun _ => rfl
  · trivial

/-- `PlmeSetTRXStateRequest(FORCE_TRX_OFF)`. -/
theorem TxInv.requestForceTrxOff (h : s.TxInv) : s.requestForceTrxOff.TxInv := by
  unfold LrWpanPhy.requestForceTrxOff
  refine TxInv.emit ?_ _ rfl fun _ => rfl
  dsimp only
  split
  · exact h
  · have hcut : (if s.terminateReception.trxState = .phyBusyTx then
        { s.terminateReception with
          currentTxPacket := (s.terminateReception.currentTxPacket.1, true) }
        else s.terminateReception).TxInv := by
      split
      · exact h.terminateReception.congr rfl rfl rfl le.refl rfl h.terminateReception.pending
      · exact h.terminateReception
    exact (hcut.changeTrxState .phyTrxOff nofun).congr rfl rfl rfl le.refl rfl nofun

/-- `PlmeSetTRXStateRequest(RX_ON)`. -/
theorem TxInv.requestRxOn (h : s.TxInv) : Post s.requestRxOn TxInv := by
  unfold LrWpanPhy.requestRxOn
  split
  · exact h.congr rfl rfl rfl le.refl rfl nofun
  · exact h.congr rfl rfl rfl le.refl rfl nofun
  · exact h.emit _ rfl fun _ => rfl
  · trivial

/-- `PlmeSetTRXStateRequest`. -/
theorem TxInv.plmeSetTRXStateRequest (h : s.TxInv) (state : LrWpanPhyEnumeration) :
    Post (s.plmeSetTRXStateRequest state) TxInv := by
  unfold LrWpanPhy.plmeSetTRXStateRequest
  split
  · trivial
  · split
    · exact h
    · have hgiven : { s with setTRXState := none, trxStatePending := .phyIdle }.TxInv :=
        h.congr rfl rfl rfl le.refl rfl nofun
      unfold LrWpanPhy.requestState
      split
      · exact hgiven.emit _ rfl fun _ => rfl
      · split
        · rename_i hbusy
          refine hgiven.congr rfl rfl rfl le.refl rfl fun hstate => ?_
          rcases hbusy.1 with hon | hoff
          · rw [hon] at hstate
            cases hstate
          · rw [hoff] at hstate
            cases hstate
        · split
          · exact hgiven.requestTrxOff
          · exact hgiven.requestTxOn
          · exact hgiven.requestForceTrxOff
          · exact hgiven.requestRxOn
          · trivial

/-- The transceiver is switched off before the PHY is asked whether it is busy, so it never is. -/
theorem TxInv.breakOff (h : s.TxInv) : s.breakOff.TxInv ∧ s.breakOff.trxState = .phyTrxOff := by
  have hoff := h.changeTrxState .phyTrxOff nofun
  unfold LrWpanPhy.breakOff
  extract_lets off given cut
  have hgiven : given.TxInv ∧ given.trxState = .phyTrxOff := by
    unfold given
    split
    · exact ⟨(hoff.congr (r := { off with trxStatePending := .phyIdle, setTRXState := none })
        rfl rfl rfl le.refl rfl nofun).emit _ rfl fun _ => rfl, rfl⟩
    · exact ⟨hoff, rfl⟩
  have hcut : cut.TxInv ∧ cut.trxState = .phyTrxOff := by
    unfold cut
    split
    · exact ⟨hgiven.1.congr rfl rfl rfl le.refl rfl hgiven.1.pending, hgiven.2⟩
    · exact hgiven
  rw [if_neg]
  · exact hcut
  · unfold phyIsBusy
    rw [hcut.2]
    decide

/-- Setting another channel. -/
theorem TxInv.switchChannel (h : s.TxInv) (channel : BitVec 8) :
    Post (s.switchChannel channel) TxInv := by
  obtain ⟨hoff, hstate⟩ := h.breakOff
  have hset : ({ s.breakOff with phyCurrentChannel := channel }.emit
      (.phyCurrentChannel channel)).TxInv := by
    refine TxInv.emit (hoff.congr (r := { s.breakOff with phyCurrentChannel := channel }) rfl rfl
      rfl le.refl rfl hoff.pending) (.phyCurrentChannel channel) rfl fun hbusy => ?_
    rw [show s.breakOff.trxState = .phyTrxOff from hstate] at hbusy
    cases hbusy
  unfold LrWpanPhy.switchChannel
  split
  · exact hset
  · trivial

/-- `PlmeSetAttributeRequest`. -/
theorem TxInv.plmeSetAttributeRequest (h : s.TxInv) (attr : Attribute) :
    Post (s.plmeSetAttributeRequest attr) TxInv := by
  have hconfirm (status : SetAttributeStatus) : (s.emit (.plmeSetAttributeConfirm status)).TxInv :=
    h.emit _ rfl fun _ => rfl
  unfold LrWpanPhy.plmeSetAttributeRequest
  cases attr with
  | phyCurrentPage page =>
    dsimp only
    split
    · trivial
    · split
      · exact hconfirm _
      · exact hconfirm _
  | phyCurrentChannel channel =>
    dsimp only
    split
    · trivial
    · split
      · refine (h.switchChannel channel).bind fun t ht => ?_
        exact ht.emit _ rfl fun _ => rfl
      · exact hconfirm _
  | phyChannelsSupported channels =>
    dsimp only
    split
    · exact hconfirm _
    · exact (h.congr (r := { s with phyChannelsSupported := channels }) rfl rfl rfl le.refl rfl
        h.pending).emit _ rfl fun _ => rfl
  | phyTransmitPower power =>
    dsimp only
    split
    · exact hconfirm _
    · exact hconfirm _
  | phyCCAMode mode =>
    dsimp only
    split
    · exact hconfirm _
    · exact (h.congr (r := { s with phyCCAMode := mode }) rfl rfl rfl le.refl rfl
        h.pending).emit _ rfl fun _ => rfl
  | unsupported => exact hconfirm _

/-- `CheckInterference`. -/
theorem TxInv.checkInterference (h : s.TxInv) (destroyed : Bool) :
    Post (s.checkInterference destroyed) TxInv := by
  unfold LrWpanPhy.checkInterference
  split
  · split
    · trivial
    · exact h.congr rfl rfl rfl le.refl rfl h.pending
  · exact h

/-- `StartRx`. -/
theorem TxInv.startRx (h : s.TxInv) (size : ℕ) (synchronizes destroyed : Bool) :
    Post (s.startRx size synchronizes destroyed) TxInv := by
  have hnext : { s with nextId := s.nextId + 1 }.TxInv :=
    h.congr rfl rfl rfl (le_succ _) rfl h.pending
  have hdrop : ({ s with nextId := s.nextId + 1 }.emit (.phyRxDrop s.nextId)).TxInv :=
    hnext.emit _ rfl fun _ => rfl
  have hend (t : LrWpanPhy) (ht : t.TxInv) :
      { t with endRx := t.endRx.post s.nextId (t.now + (txTime size - arrivalLead)) }.TxInv :=
    ht.congr rfl rfl rfl le.refl rfl ht.pending
  unfold LrWpanPhy.startRx
  dsimp only
  split
  · split
    · have hbusy := hnext.changeTrxState .phyBusyRx nofun
      exact hend _ ((hbusy.congr (r := { LrWpanPhy.changeTrxState .phyBusyRx
        { s with nextId := s.nextId + 1 } with currentRxPacket := (some s.nextId, false) })
        rfl rfl rfl le.refl rfl hbusy.pending).emit (.phyRxBegin s.nextId) rfl fun _ => rfl)
    · exact hend _ hdrop
  · split
    · exact (hdrop.checkInterference destroyed).bind hend
    · exact hend _ hdrop

/-- `EndRx`. -/
theorem TxInv.endRxOf (h : s.TxInv) (signal : ℕ) (destroyed corrupt : Bool) :
    Post (s.endRxOf signal destroyed corrupt) TxInv := by
  unfold LrWpanPhy.endRxOf
  split
  · refine (h.checkInterference destroyed).bind fun t ht => ?_
    show (t.endCurrentRx signal corrupt).TxInv
    unfold LrWpanPhy.endCurrentRx
    extract_lets told ended
    have htold : told.TxInv := by
      unfold told
      split
      · exact ht.emit _ rfl fun _ => rfl
      · exact ht.emit _ rfl fun _ => rfl
    have hended : ended.TxInv := htold.congr rfl rfl rfl le.refl rfl htold.pending
    split
    · exact hended.congr rfl rfl rfl le.refl rfl hended.pending
    · split
      · exact hended.applyPendingState
      · exact hended.changeTrxState .phyRxOn nofun
  · exact h

/-- `PlmeCcaRequest`. -/
theorem TxInv.plmeCcaRequest (h : s.TxInv) : s.plmeCcaRequest.TxInv := by
  unfold LrWpanPhy.plmeCcaRequest
  split
  · exact h.congr rfl rfl rfl (le_succ _) rfl h.pending
  · split
    · exact h.emit _ rfl fun _ => rfl
    · exact h.emit _ rfl fun _ => rfl

/-- `EndCca`. -/
theorem TxInv.endCca (h : s.TxInv) (aboveThreshold : Bool) : (s.endCca aboveThreshold).TxInv := by
  unfold LrWpanPhy.endCca
  split
  · exact h.emit _ rfl fun _ => rfl
  · split
    · exact h.emit _ rfl fun _ => rfl
    · exact h.emit _ rfl fun _ => rfl

/-- `PlmeEdRequest`. -/
theorem TxInv.plmeEdRequest (h : s.TxInv) : s.plmeEdRequest.TxInv := by
  unfold LrWpanPhy.plmeEdRequest
  split
  · exact h.congr rfl rfl rfl (le_succ _) rfl h.pending
  · split
    · exact h.emit _ rfl fun _ => rfl
    · exact h.emit _ rfl fun _ => rfl

/-! ## Starting and ending a frame -/

/-- A request that has not been made has no outcome. -/
theorem TxInv.outcomes_nextId (h : s.TxInv) : outcomes s.nextId s.trace = 0 := by
  refine countP_eq_zero.mpr fun x hx hres => ?_
  have hlt : s.nextId < s.nextId := by
    refine h.known x hx s.nextId ?_
    obtain ⟨t, o⟩ := x
    cases o with
    | pdDataConfirm status frame timer => exact eq_of_beq hres
    | pdDataCancelled request => exact eq_of_beq hres
    | _ => cases hres
  exact Nat.lt_irrefl _ hlt

/-- **Starting a frame** when no timer is pending. -/
theorem TxInv.startTx (h : s.TxInv) (hidle : s.pdDataRequest.pending = []) (size : ℕ) :
    (s.startTx size).TxInv := by
  have htrace : (s.startTx size).trace = s.trace ++ [(s.now, .phyTxBegin s.nextId size)]
      ++ [(s.now, .trxState .phyBusyTx)] := rfl
  have htimers : (s.startTx size).pdDataRequest.pending = [(s.nextId, s.now + txTime size)] := by
    show s.pdDataRequest.pending ++ [(s.nextId, s.now + txTime size)] = _
    rw [hidle]
    rfl
  have hsame (u : ℕ) : outcomes u (s.startTx size).trace = outcomes u s.trace := by
    rw [htrace, outcomes_append, outcomes_append]
    rfl
  have hmem {x : ℤ × PhyOutput} (hx : x ∈ (s.startTx size).trace) :
      x ∈ s.trace ∨ x = (s.now, .phyTxBegin s.nextId size)
        ∨ x = (s.now, .trxState .phyBusyTx) := by
    rw [htrace, mem_append, mem_append, mem_singleton, mem_singleton] at hx
    exact or_assoc.mp hx
  refine ⟨⟨fun t u n hbegin => ?_, fun before t frame timer hpre => ?_,
    fun t status frame k hconfirm => ?_⟩, fun x hx => ?_, fun x hx u hu => ?_, h.pending⟩
  · rw [hsame u, htimers]
    rcases hmem hbegin with hold | hnew | hother
    · refine .inr ((h.truthful.outcome t u n hold).resolve_left fun hway => ?_)
      rw [hidle] at hway
      cases hway.1
    · cases hnew
      exact .inl ⟨mem_singleton.mpr rfl, rfl, h.outcomes_nextId⟩
    · cases hother
  · rw [htrace] at hpre
    rcases prefix_concat_iff.mp hpre with heq | hpre
    · obtain ⟨-, hlast⟩ := append_inj' heq rfl
      cases singleton_inj.mp hlast
    · rcases prefix_concat_iff.mp hpre with heq | hpre
      · obtain ⟨-, hlast⟩ := append_inj' heq rfl
        cases singleton_inj.mp hlast
      · exact h.truthful.success before t frame timer hpre
  · rcases hmem hconfirm with hold | hnew | hother
    · exact h.truthful.timer t status frame k hold
    · cases hnew
    · cases hother
  · rw [htimers] at hx
    obtain rfl := mem_singleton.mp hx
    refine ⟨htimers, rfl, rfl, (hsame _).trans h.outcomes_nextId, size, s.now, rfl,
      s.trace, [], ?_, fun _ y hy => nomatch hy⟩
    rw [htrace, append_assoc]
    rfl
  · rcases hmem hx with hold | hnew | hother
    · exact lt_succ_of_lt (h.known x hold u hu)
    · subst hnew
      obtain rfl : s.nextId = u := hu
      exact lt_succ_self _
    · subst hother
      cases hu

/-- **Ending a frame.**  The output that ends the only request whose timer is pending; if it
reports a success, the timer is due and the transmitter still on. -/
theorem TxInv.resolve (h : s.TxInv) {x : ℕ × ℤ} (hx : x ∈ s.pdDataRequest.pending) (t : ℤ)
    (o : PhyOutput) (hres : ∀ v, o.resolves v = true ↔ v = x.1) (hcon : ∀ v, o.concerns v → v = x.1)
    (hsuccess : ∀ frame timer, o = .pdDataConfirm .phySuccess frame timer →
      frame = some x.1 ∧ t = x.2 ∧ s.trxState = .phyBusyTx)
    (htimer : ∀ status frame k, o = .pdDataConfirm status frame (some k) → frame = some k)
    (htimers : r.pdDataRequest.pending = []) (hid : r.nextId = s.nextId)
    (htrace : r.trace = s.trace ++ [(t, o)]) (hpending : r.trxStatePending = s.trxStatePending) :
    r.TxInv := by
  obtain ⟨hall, -, -, hnone, size, t₀, htime, haired⟩ := h.single x hx
  refine ⟨⟨fun t' u n hbegin => ?_, fun before t' frame timer hpre => ?_,
    fun t' status frame k hconfirm => ?_⟩, fun y hy => ?_, fun y hy u hu => ?_, ?_⟩
  · right
    rw [htrace] at hbegin ⊢
    rw [outcomes_append]
    rcases mem_append.mp hbegin with hold | hnew
    · by_cases hu : u = x.1
      · subst hu
        rw [hnone, if_pos ((hres x.1).mpr rfl)]
      · rw [if_neg fun hyes => hu ((hres u).mp hyes)]
        refine (h.truthful.outcome t' u n hold).resolve_left fun hway => hu ?_
        rw [hall] at hway
        rw [← mem_singleton.mp hway.1]
    · obtain ⟨-, rfl⟩ := Prod.mk.inj (mem_singleton.mp hnew)
      exact nomatch (hres x.1).mpr rfl
  · rw [htrace] at hpre
    rcases prefix_concat_iff.mp hpre with heq | hpre
    · obtain ⟨rfl, hlast⟩ := append_inj' heq rfl
      obtain ⟨rfl, rfl⟩ := Prod.mk.inj (singleton_inj.mp hlast)
      obtain ⟨hframe, hdue, hon⟩ := hsuccess frame timer rfl
      obtain ⟨earlier, air, hsplit, hquiet⟩ := haired
      exact ⟨x.1, size, t₀, hframe, hdue.trans htime, earlier, air, hsplit, fun _ => hquiet hon⟩
    · exact h.truthful.success before t' frame timer hpre
  · rw [htrace] at hconfirm
    rcases mem_append.mp hconfirm with hold | hnew
    · exact h.truthful.timer t' status frame k hold
    · obtain ⟨-, heq⟩ := Prod.mk.inj (mem_singleton.mp hnew)
      exact htimer status frame k heq.symm
  · rw [htimers] at hy
    cases hy
  · rw [htrace] at hy
    rw [hid]
    rcases mem_append.mp hy with hold | hnew
    · exact h.known y hold u hu
    · rw [mem_singleton.mp hnew] at hu
      have hbegun : ∃ e ∈ s.trace, e.2.concerns x.1 := by
        obtain ⟨earlier, air, hsplit, -⟩ := haired
        refine ⟨(t₀, .phyTxBegin x.1 size), ?_, rfl⟩
        rw [hsplit]
        simp
      obtain ⟨e, he, hconcerns⟩ := hbegun
      rw [hcon u hu]
      exact h.known e he x.1 hconcerns
  · rw [hpending]
    exact h.pending

/-- `PdDataRequest`. -/
theorem TxInv.pdDataRequestOf (h : s.TxInv) (psduLength size : ℕ)
    (horderly : s.IsOrderly (.pdDataRequest psduLength size)) :
    Post (s.pdDataRequestOf psduLength size) TxInv := by
  unfold LrWpanPhy.pdDataRequestOf
  split
  · exact h.emit _ rfl fun _ => rfl
  · rename_i hfits
    split
    · rename_i hswitch
      split
      · rename_i hon
        exact h.startTx (horderly (Nat.le_of_not_lt hfits) hswitch hon) size
      · rename_i hstate
        exact h.emit _ (by rw [hstate]; rfl) fun _ => rfl
      · rename_i hstate
        exact h.emit _ (by rw [hstate]; rfl) fun _ => rfl
      · rename_i hstate
        exact h.emit _ (by rw [hstate]; rfl) fun _ => rfl
      · trivial
    · exact h.emit _ rfl fun _ => rfl

/-- `CancelPdDataRequest`. -/
theorem TxInv.cancelPdDataRequest (h : s.TxInv) : s.cancelPdDataRequest.TxInv := by
  unfold LrWpanPhy.cancelPdDataRequest
  split
  · rename_i hrunning
    obtain ⟨k, time, hheld, hmem⟩ := s.pdDataRequest.isRunning_iff.mp hrunning
    obtain ⟨hall, -⟩ := h.single _ hmem
    refine h.resolve hmem s.now (.pdDataCancelled s.pdDataRequest.held) (fun v => ?_)
      (fun v hv => ?_) nofun nofun (Timers.pending_cancel_of_single hall hheld) rfl rfl rfl
    · rw [hheld]
      exact beq_iff_eq.trans ⟨fun heq => (Option.some.inj heq).symm, fun heq => by rw [heq]⟩
    · rw [hheld] at hv
      exact (Option.some.inj hv).symm
  · exact h

/-- **The timer.**  `EndTx` runs when the transmitter is on, or off with the frame cut off. -/
theorem TxInv.endTx (h : s.TxInv) (i : ℕ) (request : ℕ) (t : ℤ)
    (hi : s.pdDataRequest.pending[i]? = some (request, t)) (horderly : s.IsOrderly (.endTx i)) :
    Post ({ s with now := t, pdDataRequest := s.pdDataRequest.drop i }.endTx request) TxInv := by
  have hmem : (request, t) ∈ s.pdDataRequest.pending := mem_of_getElem? hi
  obtain ⟨hall, -, hcurrent, -⟩ := h.single _ hmem
  have hnone : (s.pdDataRequest.drop i).pending = [] := by
    rw [hall] at hi
    obtain ⟨hlt, -⟩ := List.getElem?_eq_some_iff.mp hi
    obtain rfl : i = 0 := by simpa using hlt
    show s.pdDataRequest.pending.eraseIdx 0 = []
    rw [hall]
    rfl
  have hres (v : ℕ) (status : LrWpanPhyEnumeration) :
      (PhyOutput.pdDataConfirm status s.currentTxPacket.1 (some request)).resolves v = true
        ↔ v = request := by
    rw [hcurrent]
    exact beq_iff_eq.trans ⟨fun heq => (Option.some.inj heq).symm, fun heq => by rw [heq]⟩
  have hcon (v : ℕ) (status : LrWpanPhyEnumeration)
      (hv : (PhyOutput.pdDataConfirm status s.currentTxPacket.1 (some request)).concerns v) :
      v = request := Option.some.inj (hv.symm.trans hcurrent)
  have hrest (u : LrWpanPhy) (hu : { u with currentTxPacket := (none, false) }.TxInv) :
      u.finishTx.TxInv := by
    unfold LrWpanPhy.finishTx
    dsimp only
    split
    · exact hu.applyPendingState
    · split
      · exact hu.changeTrxState .phyTxOn nofun
      · exact hu
  unfold LrWpanPhy.endTx
  split
  · rename_i hneither
    rcases horderly with hbusy | hoff
    · exact absurd hbusy hneither.1
    · exact absurd hoff.1 hneither.2
  · split
    · rename_i hflag
      refine hrest _ ?_
      refine h.resolve hmem t _ (fun v => hres v .phySuccess) (fun v => hcon v .phySuccess)
        (fun frame timer heq => ?_) (fun status frame k heq => ?_) hnone rfl rfl rfl
      · cases heq
        refine ⟨hcurrent, rfl, horderly.resolve_right fun hoff => ?_⟩
        rw [hflag] at hoff
        cases hoff.2
      · cases heq
        exact hcurrent
    · split
      · rename_i hoff
        refine hrest _ ?_
        refine h.resolve hmem t _ (fun v => hres v s.trxState) (fun v => hcon v s.trxState)
          (fun frame timer heq => ?_) (fun status frame k heq => ?_) hnone rfl rfl rfl
        · obtain ⟨hstatus, -⟩ := PhyOutput.pdDataConfirm.inj heq
          rw [show s.trxState = .phyTrxOff from hoff] at hstatus
          cases hstatus
        · cases heq
          exact hcurrent
      · trivial

/-! ## Runs -/

/-- **The step lemma.** -/
theorem TxInv.act (h : s.TxInv) (a : PhyAction) (horderly : s.IsOrderly a) :
    Post (s.act a) TxInv := by
  unfold LrWpanPhy.act
  cases a with
  | pdDataRequest psduLength size => exact h.pdDataRequestOf psduLength size horderly
  | cancelPdDataRequest => exact h.cancelPdDataRequest
  | plmeCcaRequest => exact h.plmeCcaRequest
  | ccaCancel => exact h.congr rfl rfl rfl le.refl rfl h.pending
  | plmeEdRequest => exact h.plmeEdRequest
  | plmeSetTRXStateRequest state => exact h.plmeSetTRXStateRequest state
  | plmeSetAttributeRequest attr => exact h.plmeSetAttributeRequest attr
  | startRx size synchronizes destroyed => exact h.startRx size synchronizes destroyed
  | endSetTRXState =>
    dsimp only
    split
    · rename_i t ht
      exact (h.congr (r := { s with now := t, setTRXState := none }) rfl rfl rfl le.refl rfl
        h.pending).endSetTRXState
    · exact h
  | endTx i =>
    dsimp only
    split
    · rename_i request t hi
      exact h.endTx i request t hi horderly
    · exact h
  | endRx i destroyed corrupt =>
    dsimp only
    split
    · rename_i signal t hi
      exact (h.congr (r := { s with now := t, endRx := s.endRx.drop i }) rfl rfl rfl le.refl
        rfl h.pending).endRxOf signal destroyed corrupt
    · exact h
  | endCca i aboveThreshold =>
    dsimp only
    split
    · rename_i t hi
      exact (h.congr (r := { s with now := t, ccaRequest := s.ccaRequest.drop i }) rfl rfl rfl
        le.refl rfl h.pending).endCca aboveThreshold
    · exact h
  | endEd i energyLevel =>
    dsimp only
    split
    · rename_i t hi
      exact (h.congr (r := { s with now := t, edRequest := s.edRequest.drop i }) rfl rfl rfl
        le.refl rfl h.pending).emit _ rfl fun _ => rfl
    · exact h
  | tick t => exact h.congr rfl rfl rfl le.refl rfl h.pending

/-- Nothing has happened to a new PHY. -/
theorem txInv_start : ({} : LrWpanPhy).TxInv where
  truthful := ⟨nofun, fun before t frame timer hpre => by simp at hpre, nofun⟩
  single := nofun
  known := nofun
  pending := nofun

/-- **Transmissions are confirmed once and truthfully** in every run in which no frame is started
while the timer of another one is pending, and every timer finds the transmitter on, or off with
the frame cut off. -/
theorem truthful_of_run (s : LrWpanPhy) (as : List PhyAction)
    (hrun : machine.Run IsOrderly {} as s) : s.Truthful :=
  (hrun.invariant TxInv (fun _ a h _ horderly => h.act a horderly) txInv_start).truthful

/-! ## Examples of runs -/

/-- A frame is sent, and another one is cut off. -/
def sendTwice : List PhyAction :=
  [.plmeSetTRXStateRequest .phyTxOn, .pdDataRequest 20 20, .endTx 0, .pdDataRequest 30 30,
    .plmeSetTRXStateRequest .phyForceTrxOff, .endTx 0]

/-- The first request succeeds and the second one is told that the transceiver is off. -/
theorem sendTwice_truthful : ∃ s, machine.Run IsOrderly {} sendTwice s
      ∧ (s.trace.map Prod.snd).filterMap (fun o => match o with
        | .pdDataConfirm status frame _ => some (status, frame)
        | _ => none) = [(.phySuccess, some 0), (.phyTrxOff, some 1)]
      ∧ s.Truthful := by
  have hexec : (machine.exec (fun s a => decide (s.IsOrderly a)) {} sendTwice).any
      (fun s => decide ((s.trace.map Prod.snd).filterMap (fun o => match o with
        | .pdDataConfirm status frame _ => some (status, frame)
        | _ => none) = [(.phySuccess, some 0), (.phyTrxOff, some 1)])) = true := by
    decide +kernel
  obtain ⟨s, hrun, htrace⟩ := Machine.exists_run_of_exec _ _ _ _ hexec
  have hrun : machine.Run IsOrderly {} sendTwice s :=
    hrun.mono fun _ _ horderly => of_decide_eq_true horderly
  exact ⟨s, hrun, of_decide_eq_true htrace, truthful_of_run s _ hrun⟩

/-- A long frame is cut off; another one is started before the timer of the first one has run. -/
def sendAfterForceOff : List PhyAction :=
  [.plmeSetTRXStateRequest .phyTxOn, .pdDataRequest 20 20,
    .plmeSetTRXStateRequest .phyForceTrxOff, .plmeSetTRXStateRequest .phyTxOn,
    .pdDataRequest 100 100, .endTx 0, .endTx 0]

/-- The timer of the first frame confirms the second one with success, before it has been on the
air for its duration, and the first request is never confirmed. -/
theorem sendAfterForceOff_not_truthful :
    ∃ s, machine.Run (fun _ _ => True) {} sendAfterForceOff s ∧ ¬ s.Truthful
      ∧ s.pdDataRequest.pending = [] ∧ outcomes 0 s.trace = 0 := by
  have hexec : (machine.exec (fun _ _ => true) {} sendAfterForceOff).any
      (fun s => s.trace.contains (832000, .pdDataConfirm .phySuccess (some 1) (some 0))
        && s.pdDataRequest.pending.isEmpty && outcomes 0 s.trace == 0) = true := by
    decide +kernel
  obtain ⟨s, hrun, htest⟩ := Machine.exists_run_of_exec _ _ _ _ hexec
  obtain ⟨htest, hzero⟩ := Bool.and_eq_true_iff.mp htest
  obtain ⟨hconfirm, hempty⟩ := Bool.and_eq_true_iff.mp htest
  refine ⟨s, hrun.mono fun _ _ _ => trivial, fun htruthful => ?_, isEmpty_iff.mp hempty,
    eq_of_beq hzero⟩
  cases htruthful.timer _ _ _ _ (contains_iff_mem.mp hconfirm)

end LrWpanPhy

end Ns3Dsme
