/-
# The transceiver states

A transceiver that is transmitting or receiving waits for the end of a frame, and a state that
is pending waits for one of three events.  Four kinds of steps break this: withdrawing a frame
that is on the air, sending or switching off during a reception that is already spoiled, and
the end of a reception that was cut off when the transceiver is in a state it does not expect.
All other runs keep it.
-/
import Ns3Dsme.LrWpan.Phy

open Program

namespace Ns3Dsme.LrWpanPhy

open LrWpanPhy

/-! ## What is expected of the states -/

/-- The end of the current transmission is pending. -/
def EndsTx (s : LrWpanPhy) : Prop :=
  ∃ request t, s.currentTxPacket.1 = some request ∧ (request, t) ∈ s.pdDataRequest.pending

/-- The end of the current reception is pending. -/
def EndsRx (s : LrWpanPhy) : Prop :=
  ∃ signal t, s.currentRxPacket.1 = some signal ∧ (signal, t) ∈ s.endRx.pending

/-- **Consistent states.**  Whoever waits for an event waits for one that is pending: a
transmitter and a receiver for the end of the current frame, a pending state for the event that
will apply it. -/
structure Consistent (s : LrWpanPhy) : Prop where
  busyTx : s.trxState = .phyBusyTx → s.EndsTx
  busyRx : s.trxState = .phyBusyRx → s.EndsRx
  pending : s.trxStatePending ≠ .phyIdle →
    s.setTRXState.isSome = true ∨ s.trxState = .phyBusyTx ∧ s.EndsTx
      ∨ s.trxState = .phyBusyRx ∧ s.EndsRx ∧ s.isRxCanceled = false

/-- The action does not run into one of the two fatal errors, and if it is the end of a
reception it does not change the state of a transmission. -/
structure Harmless (s : LrWpanPhy) (a : PhyAction) : Prop where
  unreachable : s.act a ≠ .error .unreachable
  unexpectedTransition : s.act a ≠ .error .unexpectedTransition
  endRx : ∀ i destroyed corrupt, a = .endRx i destroyed corrupt → s.trxState = .phyBusyTx →
    Post (s.act a) fun t => t.trxState = .phyBusyTx

/-- No frame is withdrawn while it is on the air, none is sent during a reception, the receiver
is switched off only while it is receiving well, and the end of the current reception finds the
transceiver in a state that fits: not receiving any more if the reception was canceled, and not
transmitting if it was not. -/
def IsProper (s : LrWpanPhy) : PhyAction → Prop
  | .pdDataRequest psduLength _ =>
    psduLength ≤ aMaxPhyPacketSize → s.setTRXState = none → s.trxState ≠ .phyBusyRx
  | .cancelPdDataRequest => s.trxState ≠ .phyBusyTx
  | .plmeSetTRXStateRequest state =>
    state = .phyTrxOff → s.trxState = .phyBusyRx →
      s.currentRxPacket.2 = false ∧ s.isRxCanceled = false
  | .endRx i _ _ => ∀ x ∈ s.endRx.pending[i]?, s.currentRxPacket.1 = some x.1 →
    s.trxState ≠ if s.isRxCanceled then .phyBusyRx else .phyBusyTx
  | _ => True

instance (s : LrWpanPhy) (a : PhyAction) : Decidable (s.IsProper a) := by
  cases a <;> dsimp only [IsProper] <;> infer_instance

/-! ## The invariant -/

/-- The transceiver is off or on and nothing is sent or received. -/
def IsQuiet (s : LrWpanPhy) : Prop :=
  s.trxState = .phyTrxOff ∨ s.trxState = .phyRxOn ∨ s.trxState = .phyTxOn

/-- Consistency, and what it takes to keep it: while the transceiver switches it neither
transmits nor receives for anybody, and otherwise a pending state waits for the end of a
frame. -/
structure StateInv (s : LrWpanPhy) : Prop where
  legal : s.IsQuiet ∨ s.trxState = .phyBusyRx ∨ s.trxState = .phyBusyTx
  busyTx : s.trxState = .phyBusyTx → s.EndsTx
  busyRx : s.trxState = .phyBusyRx → s.EndsRx
  switching : s.setTRXState ≠ none →
    (s.trxStatePending = .phyRxOn ∨ s.trxStatePending = .phyTxOn)
      ∧ s.trxState ≠ .phyBusyTx ∧ (s.trxState = .phyBusyRx → s.isRxCanceled = true)
  waiting : s.setTRXState = none → s.trxStatePending ≠ .phyIdle →
    (s.trxStatePending = .phyRxOn ∨ s.trxStatePending = .phyTrxOff)
      ∧ (s.trxState = .phyBusyTx ∨ s.trxState = .phyBusyRx ∧ s.isRxCanceled = false)

variable {s : LrWpanPhy}

/-- The invariant makes a state consistent. -/
theorem StateInv.consistent (h : s.StateInv) : s.Consistent where
  busyTx := h.busyTx
  busyRx := h.busyRx
  pending hpending := by
    cases hswitch : s.setTRXState with
    | some t => exact .inl rfl
    | none =>
      rcases (h.waiting hswitch hpending).2 with hbusy | hbusy
      · exact .inr (.inl ⟨hbusy, h.busyTx hbusy⟩)
      · exact .inr (.inr ⟨hbusy.1, h.busyRx hbusy.1, hbusy.2⟩)

/-- The trace does not matter. -/
theorem StateInv.emit (h : s.StateInv) (o : PhyOutput) : (s.emit o).StateInv :=
  { h with }

/-- Giving up the switch that is under way and the state that is pending. -/
theorem StateInv.giveUp (h : s.StateInv) :
    { s with setTRXState := none, trxStatePending := .phyIdle }.StateInv :=
  ⟨h.legal, h.busyTx, h.busyRx, fun hsome => absurd rfl hsome, fun _ hpending => absurd rfl hpending⟩

/-- A transceiver that is neither transmitting nor receiving has nothing pending unless it is
switching. -/
theorem StateInv.idle (h : s.StateInv) (hswitch : s.setTRXState = none)
    (htx : s.trxState ≠ .phyBusyTx) (hrx : s.trxState ≠ .phyBusyRx) :
    s.trxStatePending = .phyIdle := by
  by_contra hpending
  rcases (h.waiting hswitch hpending).2 with hbusy | hbusy
  · exact htx hbusy
  · exact hrx hbusy.1

/-- A quiet state with nothing pending. -/
theorem stateInv_of_quiet (hquiet : s.IsQuiet) (hswitch : s.setTRXState = none)
    (hpending : s.trxStatePending = .phyIdle) : s.StateInv := by
  refine ⟨.inl hquiet, fun hbusy => ?_, fun hbusy => ?_, fun hsome => absurd hswitch hsome,
    fun _ hsome => absurd hpending hsome⟩
  · simp [IsQuiet, hbusy] at hquiet
  · simp [IsQuiet, hbusy] at hquiet

/-- A state that is neither quiet nor transmitting is receiving. -/
theorem StateInv.receiving (h : s.StateInv) (hquiet : ¬ s.IsQuiet) (htx : s.trxState ≠ .phyBusyTx) :
    s.trxState = .phyBusyRx :=
  (h.legal.resolve_left hquiet).resolve_right htx

/-! ## Requests -/

/-- `CancelEd`. -/
theorem StateInv.cancelEd (h : s.StateInv) (state : LrWpanPhyEnumeration) :
    (s.cancelEd state).StateInv := by
  unfold LrWpanPhy.cancelEd
  split
  · exact { h with }
  · exact h

/-- `CancelEd` leaves the transceiver alone. -/
theorem cancelEd_eq (state : LrWpanPhyEnumeration) :
    (s.cancelEd state).trxState = s.trxState
      ∧ (s.cancelEd state).currentRxPacket = s.currentRxPacket
      ∧ (s.cancelEd state).isRxCanceled = s.isRxCanceled
      ∧ (s.cancelEd state).setTRXState = s.setTRXState
      ∧ (s.cancelEd state).trxStatePending = s.trxStatePending := by
  unfold cancelEd
  split
  · exact ⟨rfl, rfl, rfl, rfl, rfl⟩
  · exact ⟨rfl, rfl, rfl, rfl, rfl⟩

/-- The error is none of the two fatal ones. -/
def IsMild (e : PhyFault) : Prop :=
  e ≠ .unreachable ∧ e ≠ .unexpectedTransition

/-- `PlmeSetTRXStateRequest(TRX_OFF)` of a transceiver that is neither off nor transmitting. -/
theorem StateInv.requestTrxOff (h : s.StateInv) (hswitch : s.setTRXState = none)
    (hpending : s.trxStatePending = .phyIdle) (hoff : s.trxState ≠ .phyTrxOff)
    (htx : s.trxState ≠ .phyBusyTx)
    (hproper : s.trxState = .phyBusyRx → s.currentRxPacket.2 = false ∧ s.isRxCanceled = false) :
    Wp s.requestTrxOff StateInv IsMild := by
  obtain ⟨hstate, hcurrent, hflag, hnone, hidle⟩ := cancelEd_eq (s := s) .phyTrxOff
  have hed := h.cancelEd .phyTrxOff
  rw [← hstate, ← hcurrent, ← hflag] at hproper
  rw [← hstate] at hoff htx
  rw [← hnone] at hswitch
  rw [← hidle] at hpending
  unfold LrWpanPhy.requestTrxOff
  generalize s.cancelEd .phyTrxOff = t at *
  dsimp only
  split
  · rename_i hbusy
    exact ⟨hed.legal, hed.busyTx, hed.busyRx, fun hsome => absurd hswitch hsome,
      fun _ _ => ⟨.inr rfl, .inr ⟨hbusy.1, (hproper hbusy.1).2⟩⟩⟩
  · rename_i hnot
    split
    · exact stateInv_of_quiet (.inl rfl) hswitch hpending
    · rename_i hneither
      have hquiet : ¬ t.IsQuiet := fun hquiet => hneither (hquiet.resolve_left hoff)
      have hbusy := hed.receiving hquiet htx
      obtain ⟨signal, -, hsome, -⟩ := hed.busyRx hbusy
      exact absurd ⟨hbusy, by rw [hsome]; rfl, (hproper hbusy).1⟩ hnot

/-- Terminating a reception that is under way marks it as canceled. -/
theorem isRxCanceled_terminateReception (h : s.EndsRx) :
    s.terminateReception.isRxCanceled = true := by
  obtain ⟨signal, -, hsome, -⟩ := h
  unfold terminateReception
  rw [if_pos (by rw [hsome]; rfl)]

/-- Terminating a reception and giving up an assessment change neither the transceiver state nor
the frames. -/
theorem frames_giveUpCca_terminateReception : s.terminateReception.giveUpCca.trxState = s.trxState
      ∧ (s.EndsRx → s.terminateReception.giveUpCca.EndsRx)
      ∧ s.terminateReception.giveUpCca.isRxCanceled = s.terminateReception.isRxCanceled := by
  have hterm : s.terminateReception.trxState = s.trxState
      ∧ (s.EndsRx → s.terminateReception.EndsRx) := by
    unfold terminateReception
    split
    · exact ⟨rfl, id⟩
    · exact ⟨rfl, id⟩
  unfold giveUpCca
  split
  · exact ⟨hterm.1, hterm.2, rfl⟩
  · exact ⟨hterm.1, hterm.2, rfl⟩

/-- `PlmeSetTRXStateRequest(TX_ON)`. -/
theorem StateInv.requestTxOn (h : s.StateInv) (hswitch : s.setTRXState = none)
    (hpending : s.trxStatePending = .phyIdle) : Wp s.requestTxOn StateInv IsMild := by
  obtain ⟨hstate, -, -, hnone, hidle⟩ := cancelEd_eq (s := s) .phyTxOn
  have hed := h.cancelEd .phyTxOn
  obtain ⟨hsame, hrx, hflag⟩ := frames_giveUpCca_terminateReception (s := s.cancelEd .phyTxOn)
  have hstart (htx : (s.cancelEd .phyTxOn).trxState ≠ .phyBusyTx) :
      ((s.cancelEd .phyTxOn).terminateReception.giveUpCca.startSetTRXState .phyTxOn).StateInv := by
    refine ⟨?_, fun hbusy => ?_, fun hbusy => ?_, fun _ => ⟨.inr rfl, ?_, fun hbusy => ?_⟩, nofun⟩
    · have hlegal := hed.legal
      unfold IsQuiet at hlegal ⊢
      rw [← hsame] at hlegal
      exact hlegal
    · exact absurd (hsame.symm.trans hbusy) htx
    · exact hrx (hed.busyRx (hsame.symm.trans hbusy))
    · exact fun hbusy => htx (hsame.symm.trans hbusy)
    · exact hflag.trans (isRxCanceled_terminateReception (hed.busyRx (hsame.symm.trans hbusy)))
  unfold LrWpanPhy.requestTxOn
  dsimp only
  split
  · rename_i hbusy
    exact hstart (by rw [hbusy]; decide)
  · rename_i hon
    exact hstart (by rw [hon]; decide)
  · exact hed.emit _
  · exact hed.emit _
  · exact stateInv_of_quiet (.inr (.inr rfl)) (hnone.trans hswitch) (hidle.trans hpending)
  · rename_i hrxBusy hrxOn htxBusy htxOn hoff
    exact absurd (hed.receiving (by simp_all [IsQuiet]) htxBusy) hrxBusy

/-- `PlmeSetTRXStateRequest(FORCE_TRX_OFF)`. -/
theorem StateInv.requestForceTrxOff (h : s.StateInv) (hswitch : s.setTRXState = none) :
    s.requestForceTrxOff.StateInv := by
  unfold LrWpanPhy.requestForceTrxOff
  refine StateInv.emit ?_ _
  dsimp only
  split
  · exact h
  · have hnone : s.terminateReception.setTRXState = none := by
      unfold terminateReception
      split
      · exact hswitch
      · exact hswitch
    refine stateInv_of_quiet (.inl rfl) ?_ rfl
    show (if s.terminateReception.trxState = .phyBusyTx then
      { s.terminateReception with
        currentTxPacket := (s.terminateReception.currentTxPacket.1, true) }
      else s.terminateReception).setTRXState = none
    split
    · exact hnone
    · exact hnone

/-- `PlmeSetTRXStateRequest(RX_ON)` of a transceiver that neither listens nor transmits. -/
theorem StateInv.requestRxOn (h : s.StateInv) (hon : s.trxState ≠ .phyRxOn)
    (htx : s.trxState ≠ .phyBusyTx) : Wp s.requestRxOn StateInv IsMild := by
  have hstart (hrx : s.trxState ≠ .phyBusyRx) : (s.startSetTRXState .phyRxOn).StateInv :=
    ⟨h.legal, h.busyTx, h.busyRx, fun _ => ⟨.inl rfl, htx, fun hbusy => absurd hbusy hrx⟩, nofun⟩
  unfold LrWpanPhy.requestRxOn
  split
  · rename_i hstate
    exact hstart (by rw [hstate]; decide)
  · rename_i hstate
    exact hstart (by rw [hstate]; decide)
  · exact h.emit _
  · rename_i htxOn hoff hrx
    exact absurd (h.receiving (by simp_all [IsQuiet]) htx) hrx

/-- `PlmeSetTRXStateRequest`. -/
theorem StateInv.plmeSetTRXStateRequest (h : s.StateInv) (state : LrWpanPhyEnumeration)
    (hproper : s.IsProper (.plmeSetTRXStateRequest state)) :
    Wp (s.plmeSetTRXStateRequest state) StateInv IsMild := by
  unfold LrWpanPhy.plmeSetTRXStateRequest
  split
  · exact ⟨nofun, nofun⟩
  · rename_i hvalid
    split
    · exact h
    · have hgiven := h.giveUp
      unfold requestState
      split
      · exact hgiven.emit _
      · rename_i hother
        split
        · rename_i hbusy
          exact ⟨hgiven.legal, hgiven.busyTx, hgiven.busyRx, fun hsome => absurd rfl hsome,
            fun _ _ => ⟨hbusy.1, .inl hbusy.2⟩⟩
        · rename_i hnotBusy
          cases state with
          | phyTrxOff =>
            exact hgiven.requestTrxOff rfl rfl (Ne.symm hother)
              (fun hbusy => hnotBusy ⟨.inr rfl, hbusy⟩) (hproper rfl)
          | phyTxOn => exact hgiven.requestTxOn rfl rfl
          | phyForceTrxOff => exact hgiven.requestForceTrxOff rfl
          | phyRxOn =>
            exact hgiven.requestRxOn (Ne.symm hother) fun hbusy => hnotBusy ⟨.inl rfl, hbusy⟩
          | _ => exact absurd ⟨nofun, nofun, nofun, nofun⟩ hvalid

/-- `PdDataRequest`. -/
theorem StateInv.pdDataRequestOf (h : s.StateInv) (psduLength size : ℕ)
    (hproper : s.IsProper (.pdDataRequest psduLength size)) :
    Wp (s.pdDataRequestOf psduLength size) StateInv IsMild := by
  unfold LrWpanPhy.pdDataRequestOf
  split
  · exact h.emit _
  · rename_i hfits
    split
    · rename_i hswitch
      split
      · rename_i hon
        have hidle : s.trxStatePending = .phyIdle :=
          h.idle hswitch (by rw [hon]; decide) (by rw [hon]; decide)
        exact ⟨.inr (.inr rfl), fun _ => ⟨s.nextId, s.now + txTime size, rfl,
            List.mem_append.mpr (.inr (List.mem_singleton.mpr rfl))⟩, nofun,
          fun hsome => absurd hswitch hsome, fun _ hpending => absurd hidle hpending⟩
      · exact h.emit _
      · exact h.emit _
      · exact h.emit _
      · rename_i htxOn hrxOn hoff htxBusy
        exact absurd (h.receiving (by simp_all [IsQuiet]) htxBusy)
          (hproper (Nat.le_of_not_lt hfits) hswitch)
    · exact h.emit _

/-- `CancelPdDataRequest` outside a transmission. -/
theorem StateInv.cancelPdDataRequest (h : s.StateInv) (hproper : s.IsProper .cancelPdDataRequest) :
    s.cancelPdDataRequest.StateInv := by
  unfold LrWpanPhy.cancelPdDataRequest
  split
  · exact ⟨h.legal, fun hbusy => absurd hbusy hproper, h.busyRx, h.switching, h.waiting⟩
  · exact h

/-- The transceiver is off, and no other state is requested or pending. -/
theorem StateInv.breakOff (h : s.StateInv) : s.breakOff.trxState = .phyTrxOff
    ∧ s.breakOff.setTRXState = none ∧ s.breakOff.trxStatePending = .phyIdle := by
  unfold LrWpanPhy.breakOff
  extract_lets off given cut
  have hgiven : given.trxState = .phyTrxOff ∧ given.setTRXState = none
      ∧ given.trxStatePending = .phyIdle := by
    unfold given
    split
    · exact ⟨rfl, rfl, rfl⟩
    · rename_i hpending
      have hidle : s.trxStatePending = .phyIdle := not_not.mp hpending
      refine ⟨rfl, ?_, hidle⟩
      by_contra hsome
      rcases (h.switching hsome).1 with hon | hon
      · rw [hidle] at hon
        cases hon
      · rw [hidle] at hon
        cases hon
  have hcut : cut.trxState = .phyTrxOff ∧ cut.setTRXState = none
      ∧ cut.trxStatePending = .phyIdle := by
    unfold cut
    split
    · exact hgiven
    · exact hgiven
  rw [if_neg]
  · exact hcut
  · unfold phyIsBusy
    rw [hcut.1]
    decide

/-- Setting another channel. -/
theorem StateInv.switchChannel (h : s.StateInv) (channel : BitVec 8) :
    Wp (s.switchChannel channel) StateInv IsMild := by
  obtain ⟨hoff, hset, hpending⟩ := h.breakOff
  unfold LrWpanPhy.switchChannel
  split
  · exact stateInv_of_quiet (.inl hoff) hset hpending
  · exact ⟨nofun, nofun⟩

/-- `PlmeSetAttributeRequest`. -/
theorem StateInv.plmeSetAttributeRequest (h : s.StateInv) (attr : Attribute) :
    Wp (s.plmeSetAttributeRequest attr) StateInv IsMild := by
  unfold LrWpanPhy.plmeSetAttributeRequest
  cases attr with
  | phyCurrentPage page =>
    dsimp only
    split
    · exact ⟨nofun, nofun⟩
    · split
      · exact h.emit _
      · exact h.emit _
  | phyCurrentChannel channel =>
    dsimp only
    split
    · exact ⟨nofun, nofun⟩
    · split
      · refine (h.switchChannel channel).bind fun t ht => ?_
        exact ht.emit _
      · exact h.emit _
  | phyChannelsSupported channels =>
    dsimp only
    split
    · exact h.emit _
    · exact { h with }
  | phyTransmitPower power =>
    dsimp only
    split
    · exact h.emit _
    · exact h.emit _
  | phyCCAMode mode =>
    dsimp only
    split
    · exact h.emit _
    · exact { h with }
  | unsupported => exact h.emit _

/-! ## Receptions and timers -/

/-- `CheckInterference` can only spoil the current frame. -/
theorem StateInv.checkInterference (h : s.StateInv) (destroyed : Bool) :
    Wp (s.checkInterference destroyed)
      (fun t => t.StateInv ∧ t.trxState = s.trxState ∧ t.isRxCanceled = s.isRxCanceled) IsMild := by
  unfold LrWpanPhy.checkInterference
  split
  · split
    · exact ⟨nofun, nofun⟩
    · rename_i signal flag hcurrent
      refine ⟨⟨h.legal, h.busyTx, fun hbusy => ?_, h.switching, h.waiting⟩, rfl, rfl⟩
      obtain ⟨signal', t, hsome, hmem⟩ := h.busyRx hbusy
      rw [hcurrent] at hsome
      exact ⟨signal', t, hsome, hmem⟩
  · exact ⟨h, rfl, rfl⟩

/-- `StartRx`. -/
theorem StateInv.startRx (h : s.StateInv) (size : ℕ) (synchronizes destroyed : Bool) :
    Wp (s.startRx size synchronizes destroyed) StateInv IsMild := by
  have hdrop : ({ s with nextId := s.nextId + 1 }.emit (.phyRxDrop s.nextId)).StateInv :=
    { h with }
  have hend (t : LrWpanPhy) (ht : t.StateInv) :
      { t with endRx := t.endRx.post s.nextId (t.now + (txTime size - arrivalLead)) }.StateInv := by
    refine ⟨ht.legal, ht.busyTx, fun hbusy => ?_, ht.switching, ht.waiting⟩
    obtain ⟨signal, time, hsome, hmem⟩ := ht.busyRx hbusy
    exact ⟨signal, time, hsome, List.mem_append.mpr (.inl hmem)⟩
  unfold LrWpanPhy.startRx
  dsimp only
  split
  · rename_i hon
    split
    · have hidle : s.trxStatePending = .phyIdle :=
        h.idle hon.2 (by rw [hon.1]; decide) (by rw [hon.1]; decide)
      exact ⟨.inr (.inl rfl), nofun, fun _ => ⟨s.nextId, s.now + (txTime size - arrivalLead), rfl,
          List.mem_append.mpr (.inr (List.mem_singleton.mpr rfl))⟩,
        fun hsome => absurd hon.2 hsome, fun _ hpending => absurd hidle hpending⟩
    · exact hend _ hdrop
  · split
    · exact (hdrop.checkInterference destroyed).bind fun t ht => hend t ht.1
    · exact hend _ hdrop

/-- A state that is pending is applied unless the transceiver is switching. -/
theorem stateInv_applyPendingState
    (hnone : s.setTRXState = none → s.trxStatePending = .phyRxOn ∨ s.trxStatePending = .phyTrxOff)
    (hsome : s.setTRXState ≠ none → s.StateInv) : s.applyPendingState.StateInv := by
  unfold applyPendingState
  split
  · rename_i hswitch
    have hswitch : s.setTRXState = none := Option.isNone_iff_eq_none.mp hswitch
    refine stateInv_of_quiet ?_ hswitch rfl
    rcases hnone hswitch with hpending | hpending
    · exact .inr (.inl hpending)
    · exact .inl hpending
  · rename_i hswitch
    exact hsome fun hnone => hswitch (Option.isNone_iff_eq_none.mpr hnone)

/-- With nothing pending the transceiver is not switching. -/
theorem StateInv.not_switching (h : s.StateInv) (hidle : s.trxStatePending = .phyIdle) :
    s.setTRXState = none := by
  by_contra hsome
  have hpending := (h.switching hsome).1
  rw [hidle] at hpending
  simp at hpending

/-- The end of the current reception, in a state that fits.  Its event is not pending any
more. -/
theorem StateInv.endCurrentRx {ends : Timers ℕ} (h : { s with endRx := ends }.StateInv)
    (signal : ℕ) (corrupt : Bool)
    (hproper : s.trxState ≠ if s.isRxCanceled then .phyBusyRx else .phyBusyTx) :
    (s.endCurrentRx signal corrupt).StateInv
      ∧ (s.trxState = .phyBusyTx → (s.endCurrentRx signal corrupt).trxState = .phyBusyTx) := by
  unfold LrWpanPhy.endCurrentRx
  extract_lets told ended
  have hended : ended.trxState = s.trxState ∧ ended.trxStatePending = s.trxStatePending
      ∧ ended.setTRXState = s.setTRXState ∧ ended.isRxCanceled = s.isRxCanceled
      ∧ (s.EndsTx → ended.EndsTx) := by
    unfold ended told
    split
    · exact ⟨rfl, rfl, rfl, rfl, id⟩
    · exact ⟨rfl, rfl, rfl, rfl, id⟩
  obtain ⟨hstate, hpend, hswitch, hflag, htx⟩ := hended
  have hlegal : ended.IsQuiet ∨ ended.trxState = .phyBusyRx ∨ ended.trxState = .phyBusyTx := by
    unfold IsQuiet
    rw [hstate]
    exact h.legal
  split
  · rename_i hcanceled
    rw [← hflag, if_pos hcanceled] at hproper
    have hrx : ended.trxState ≠ .phyBusyRx := by
      rw [hstate]
      exact hproper
    refine ⟨⟨hlegal, fun hbusy => htx (h.busyTx (hstate ▸ hbusy)), fun hbusy => absurd hbusy hrx,
      fun hsome => ?_, fun hnone hpending => ?_⟩, fun hbusy => hstate.trans hbusy⟩
    · obtain ⟨hto, hnot, -⟩ := h.switching fun hnone => hsome (hswitch.trans hnone)
      exact ⟨by rw [hpend]; exact hto, by rw [hstate]; exact hnot, fun hbusy => absurd hbusy hrx⟩
    · obtain ⟨hto, hbusy⟩ := h.waiting (hswitch.symm.trans hnone) fun hidle =>
        hpending (hpend.trans hidle)
      refine ⟨by rw [hpend]; exact hto, .inl ?_⟩
      rw [hstate]
      exact hbusy.resolve_right fun hrxBusy => hproper hrxBusy.1
  · rename_i hcanceled
    have hnotFlag : s.isRxCanceled = false := by
      rw [← hflag]
      simpa using hcanceled
    rw [hnotFlag] at hproper
    have hnotTx : s.trxState ≠ .phyBusyTx := hproper
    refine ⟨?_, fun hbusy => absurd hbusy hnotTx⟩
    split
    · rename_i hpending
      rw [hpend] at hpending
      refine stateInv_applyPendingState (fun hnone => ?_) fun hsome => ?_
      · rw [hpend]
        exact (h.waiting (hswitch.symm.trans hnone) hpending).1
      · rw [hswitch] at hsome
        obtain ⟨hto, -, hrx⟩ := h.switching hsome
        have hnotRx : ended.trxState ≠ .phyBusyRx := fun hbusy => by
          have hcanceled := hrx (hstate ▸ hbusy)
          rw [hnotFlag] at hcanceled
          cases hcanceled
        exact ⟨hlegal, fun hbusy => absurd (hstate ▸ hbusy) hnotTx,
          fun hbusy => absurd hbusy hnotRx,
          fun _ => ⟨by rw [hpend]; exact hto, by rw [hstate]; exact hnotTx,
            fun hbusy => absurd hbusy hnotRx⟩,
          fun hnone => absurd (hswitch.symm.trans hnone) hsome⟩
    · rename_i hpending
      have hidle : ended.trxStatePending = .phyIdle := not_not.mp hpending
      exact stateInv_of_quiet (.inr (.inl rfl))
        (hswitch.trans (h.not_switching (hpend.symm.trans hidle))) hidle

/-- `EndRx` of pending event `i`. -/
theorem StateInv.endRx (h : s.StateInv) (i : ℕ) (destroyed corrupt : Bool)
    (hproper : s.IsProper (.endRx i destroyed corrupt)) :
    Wp (s.act (.endRx i destroyed corrupt))
      (fun t => t.StateInv ∧ (s.trxState = .phyBusyTx → t.trxState = .phyBusyTx)) IsMild := by
  unfold act
  dsimp only
  split
  · rename_i signal time hi
    unfold endRxOf
    split
    · rename_i hcurrent
      have hfits := hproper _ (Option.mem_def.mpr hi) hcurrent
      unfold LrWpanPhy.checkInterference
      split
      · split
        · exact ⟨nofun, nofun⟩
        · rename_i hbusy signal' flag hflag
          have hkept : { s with
              now := time
              currentRxPacket := (some signal', flag || destroyed) }.StateInv := by
            refine ⟨h.legal, h.busyTx, fun hrx => ?_, h.switching, h.waiting⟩
            obtain ⟨signal'', t, hsome, hmem⟩ := h.busyRx hrx
            rw [show s.currentRxPacket = (some signal', flag) from hflag] at hsome
            exact ⟨signal'', t, hsome, hmem⟩
          exact StateInv.endCurrentRx (s := { s with
            now := time
            endRx := s.endRx.drop i
            currentRxPacket := (some signal', flag || destroyed) }) hkept signal corrupt hfits
      · have hkept : { s with now := time }.StateInv :=
          { h with }
        exact StateInv.endCurrentRx (s := { s with now := time, endRx := s.endRx.drop i }) hkept
          signal corrupt hfits
    · rename_i hother
      refine ⟨⟨h.legal, h.busyTx, fun hbusy => ?_, h.switching, h.waiting⟩, id⟩
      obtain ⟨signal', time', hsome, hmem⟩ := h.busyRx hbusy
      refine ⟨signal', time', hsome, Timers.mem_pending_drop hi hmem fun hsame => hother ?_⟩
      rw [← hsame]
      exact hsome
  · exact ⟨h, id⟩

/-- The end of `EndTx`, in a transceiver that is off or transmitting. -/
theorem StateInv.finishTx {q : Timers ℕ} (h : { s with pdDataRequest := q }.StateInv)
    (hstate : s.trxState = .phyBusyTx ∨ s.trxState = .phyTrxOff) : s.finishTx.StateInv := by
  have hoff (hsome : s.setTRXState ≠ none) : s.trxState = .phyTrxOff :=
    hstate.resolve_left (h.switching hsome).2.1
  unfold LrWpanPhy.finishTx
  dsimp only
  split
  · rename_i hpending
    refine stateInv_applyPendingState (fun hnone => (h.waiting hnone hpending).1) fun hsome => ?_
    exact ⟨h.legal, fun hbusy => absurd hbusy (h.switching hsome).2.1, h.busyRx, h.switching,
      h.waiting⟩
  · rename_i hpending
    have hidle : s.trxStatePending = .phyIdle := not_not.mp hpending
    have hnone : s.setTRXState = none := h.not_switching hidle
    split
    · exact stateInv_of_quiet (.inr (.inr rfl)) hnone hidle
    · rename_i hother
      exact stateInv_of_quiet (.inl (not_not.mp hother)) hnone hidle

/-- `EndTx` of pending event `i`. -/
theorem StateInv.endTx (h : s.StateInv) (i : ℕ) : Wp (s.act (.endTx i)) StateInv IsMild := by
  unfold act
  dsimp only
  split
  · rename_i request time hi
    unfold LrWpanPhy.endTx
    split
    · rename_i hneither
      exact ⟨h.legal, fun hbusy => absurd hbusy hneither.1, h.busyRx, h.switching, h.waiting⟩
    · rename_i heither
      have hstate : s.trxState = .phyBusyTx ∨ s.trxState = .phyTrxOff := by
        by_contra hnot
        exact heither (not_or.mp hnot)
      have hkept (o : PhyOutput) :
          (LrWpanPhy.emit o { s with now := time, pdDataRequest := s.pdDataRequest.drop i }).finishTx.StateInv :=
        StateInv.finishTx (q := s.pdDataRequest)
          { h with } hstate
      split
      · exact hkept _
      · split
        · exact hkept _
        · exact ⟨nofun, nofun⟩
  · exact h

/-- `EndSetTRXState`. -/
theorem StateInv.endSetTRXState (h : s.StateInv) :
    Wp (s.act .endSetTRXState) StateInv IsMild := by
  unfold act
  dsimp only
  split
  · unfold LrWpanPhy.endSetTRXState
    split
    · exact ⟨nofun, nofun⟩
    · rename_i t hswitch hpending
      refine stateInv_of_quiet ?_ rfl rfl
      have hto := (h.switching fun hnone => by rw [hnone] at hswitch; cases hswitch).1
      rcases hto with hon | hon
      · exact .inr (.inl hon)
      · exact .inr (.inr hon)
  · exact h

/-! ## Runs -/

/-- **The step lemma.** -/
theorem StateInv.act (h : s.StateInv) (a : PhyAction) (hproper : s.IsProper a) :
    Wp (s.act a) StateInv IsMild := by
  cases a with
  | pdDataRequest psduLength size => exact h.pdDataRequestOf psduLength size hproper
  | cancelPdDataRequest => exact h.cancelPdDataRequest hproper
  | plmeCcaRequest =>
    show s.plmeCcaRequest.StateInv
    unfold plmeCcaRequest
    split
    · exact { h with }
    · split
      · exact h.emit _
      · exact h.emit _
  | ccaCancel => exact { h with }
  | plmeEdRequest =>
    show s.plmeEdRequest.StateInv
    unfold plmeEdRequest
    split
    · exact { h with }
    · split
      · exact h.emit _
      · exact h.emit _
  | plmeSetTRXStateRequest state => exact h.plmeSetTRXStateRequest state hproper
  | plmeSetAttributeRequest attr => exact h.plmeSetAttributeRequest attr
  | startRx size synchronizes destroyed => exact h.startRx size synchronizes destroyed
  | endSetTRXState => exact h.endSetTRXState
  | endTx i => exact h.endTx i
  | endRx i destroyed corrupt => exact (h.endRx i destroyed corrupt hproper).imp fun t ht => ht.1
  | endCca i aboveThreshold =>
    unfold LrWpanPhy.act
    dsimp only
    split
    · show (LrWpanPhy.endCca aboveThreshold _).StateInv
      unfold endCca
      split
      · exact { h with }
      · split
        · exact { h with }
        · exact { h with }
    · exact h
  | endEd i energyLevel =>
    unfold LrWpanPhy.act
    dsimp only
    split
    · exact { h with }
    · exact h
  | tick t => exact { h with }

/-- A new PHY is off. -/
theorem stateInv_start : ({} : LrWpanPhy).StateInv :=
  stateInv_of_quiet (.inl rfl) rfl rfl

/-- **The transceiver states** are consistent in every run of proper steps, and every further
proper step is harmless. -/
theorem consistent_of_run (s : LrWpanPhy) (as : List PhyAction)
    (hrun : machine.Run IsProper {} as s) :
    s.Consistent ∧ ∀ a, s.IsProper a → s.Harmless a := by
  have hinv : s.StateInv :=
    hrun.invariant StateInv (fun _ a h _ hproper => (h.act a hproper).mono (fun _ ht => ht)
      fun _ _ => trivial) stateInv_start
  refine ⟨hinv.consistent, fun a hproper => ⟨fun herror => ?_, fun herror => ?_, ?_⟩⟩
  · exact ((hinv.act a hproper).of_eq_error herror).1 rfl
  · exact ((hinv.act a hproper).of_eq_error herror).2 rfl
  · rintro i destroyed corrupt rfl hbusy
    exact (hinv.endRx i destroyed corrupt hproper).mono (fun t ht => ht.2 hbusy) fun _ _ => trivial

/-! ## Examples of runs -/

/-- A frame is received, an answer is sent and the receiver turned on again. -/
def answer : List PhyAction :=
  [.plmeSetTRXStateRequest .phyRxOn, .endSetTRXState, .startRx 20 true false, .endRx 0 false false,
    .plmeSetTRXStateRequest .phyTxOn, .endSetTRXState, .pdDataRequest 5 5,
    .plmeSetTRXStateRequest .phyRxOn]

/-- The receiver is pending until the answer has been sent. -/
theorem answer_consistent : ∃ s, machine.Run IsProper {} answer s
      ∧ (s.trxState, s.trxStatePending) = (.phyBusyTx, .phyRxOn)
      ∧ s.Consistent ∧ ∀ a, s.IsProper a → s.Harmless a := by
  have hexec : (machine.exec (fun s a => decide (s.IsProper a)) {} answer).any
      (fun s => decide ((s.trxState, s.trxStatePending) = (.phyBusyTx, .phyRxOn))) = true := by
    decide +kernel
  obtain ⟨s, hrun, hstate⟩ := Machine.exists_run_of_exec _ _ _ _ hexec
  have hrun : machine.Run IsProper {} answer s :=
    hrun.mono fun _ _ hproper => of_decide_eq_true hproper
  exact ⟨s, hrun, of_decide_eq_true hstate, consistent_of_run s _ hrun⟩

/-- A frame is being received. -/
def receive : List PhyAction :=
  [.plmeSetTRXStateRequest .phyRxOn, .endSetTRXState, .startRx 100 true false]

/-- During the reception the channel is changed and a frame is sent. -/
def switchAndSend : List PhyAction :=
  receive ++ [.plmeSetAttributeRequest (.phyCurrentChannel 12), .plmeSetTRXStateRequest .phyTxOn,
    .pdDataRequest 127 127]

/-- The end of the old reception turns the receiver on in the middle of the transmission; a frame
that is withdrawn leaves the transceiver transmitting for ever; and a frame to be sent during a
reception is a fatal error. -/
theorem not_consistent :
    (∃ s, machine.Run (fun _ _ => True) {} switchAndSend s ∧ s.trxState = .phyBusyTx
        ∧ s.enabled (.endRx 0 false false) = true ∧ ¬ s.Harmless (.endRx 0 false false))
      ∧ (∃ s, machine.Run (fun _ _ => True) {} (switchAndSend ++ [.cancelPdDataRequest]) s
        ∧ ¬ s.Consistent)
      ∧ ∃ s, machine.Run (fun _ _ => True) {} receive s
        ∧ ¬ s.Harmless (.pdDataRequest 20 20) := by
  refine ⟨?_, ?_, ?_⟩
  · have hexec : (machine.exec (fun _ _ => true) {} switchAndSend).any
        (fun s => decide (s.trxState = .phyBusyTx) && s.enabled (.endRx 0 false false)
          && match s.act (.endRx 0 false false) with
            | .ok t => decide (t.trxState = .phyRxOn)
            | .error _ => false) = true := by
      decide +kernel
    obtain ⟨s, hrun, htest⟩ := Machine.exists_run_of_exec _ _ _ _ hexec
    obtain ⟨htest, hafter⟩ := Bool.and_eq_true_iff.mp htest
    obtain ⟨hbusy, henabled⟩ := Bool.and_eq_true_iff.mp htest
    refine ⟨s, hrun.mono fun _ _ _ => trivial, of_decide_eq_true hbusy, henabled, fun hharmless => ?_⟩
    have hkept := hharmless.endRx 0 false false rfl (of_decide_eq_true hbusy)
    split at hafter
    · rename_i t hstep
      have hon : t.trxState = .phyRxOn := of_decide_eq_true hafter
      have hstill : t.trxState = .phyBusyTx := hkept.of_eq_ok hstep
      rw [hon] at hstill
      cases hstill
    · cases hafter
  · have hexec : (machine.exec (fun _ _ => true) {} (switchAndSend ++ [.cancelPdDataRequest])).any
        (fun s => decide (s.trxState = .phyBusyTx) && s.pdDataRequest.pending.isEmpty) = true := by
      decide +kernel
    obtain ⟨s, hrun, htest⟩ := Machine.exists_run_of_exec _ _ _ _ hexec
    obtain ⟨hbusy, hempty⟩ := Bool.and_eq_true_iff.mp htest
    refine ⟨s, hrun.mono fun _ _ _ => trivial, fun hconsistent => ?_⟩
    obtain ⟨request, t, -, hmem⟩ := hconsistent.busyTx (of_decide_eq_true hbusy)
    rw [List.isEmpty_iff.mp hempty] at hmem
    cases hmem
  · have hexec : (machine.exec (fun _ _ => true) {} receive).any
        (fun s => match s.act (.pdDataRequest 20 20) with
          | .error e => decide (e = .unreachable)
          | .ok _ => false) = true := by
      decide +kernel
    obtain ⟨s, hrun, htest⟩ := Machine.exists_run_of_exec _ _ _ _ hexec
    refine ⟨s, hrun.mono fun _ _ _ => trivial, fun hharmless => hharmless.unreachable ?_⟩
    split at htest
    · rename_i e herror
      rw [herror, of_decide_eq_true htest]
    · cases htest

end Ns3Dsme.LrWpanPhy
