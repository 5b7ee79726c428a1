/-
# What the handlers leave alone

For every handler, one lemma says which views it may disturb.  Most of them disturb none:
the list is then empty.  The order is that of the modules that define the handlers.
-/
import Ns3Dsme.LrWpan.Views
import Ns3Dsme.LrWpan.Device

open List Program Program.Views

namespace Ns3Dsme

open Keeps Mac

/-- A step that keeps every view, taken before a handler. -/
theorem touches_of_keeps {touched : List View} {s t : Mac} {x : Exec Mac} (h : views.Keeps [] s t)
    (hx : Touches touched t x) : Touches touched s x :=
  (h.mono (nil_subset _)).wp hx

/-! ## Allocations -/

variable (s : Mac) (p : Packet) (params : MlmeStartRequestParams)

theorem touches_addDsmeACTEntity (superframeID : ℕ) (entity : MacDSMEACTEntity) :
    Touches [.allocation] s (s.addDsmeACTEntity superframeID entity) := by
  unfold addDsmeACTEntity superframesPerMultisuperframe
  split
  · exact nofun
  · apply wp_of_bind
    show Wp (if _ then _ else _) _ _
    split
    · exact nofun
    · split
      · exact nofun
      · exact keeps_same fun v hv => by cases v <;> first | rfl | simp at hv

theorem keeps_deallocate (superframeID idx : ℕ) :
    views.Keeps [.allocation] s (s.deallocate superframeID idx) :=
  keeps_same fun v hv => by cases v <;> first | rfl | simp at hv

theorem keeps_expire (superframeID idx : ℕ) :
    views.Keeps [.allocation] s (s.expire superframeID idx) :=
  keeps_same fun v hv => by cases v <;> first | rfl | simp at hv

theorem keeps_purgeDsmeACT : views.Keeps [.allocation] s s.purgeDsmeACT :=
  keeps_same fun v hv => by cases v <;> first | rfl | simp at hv

theorem touches_scheduleEntry (pos : ℕ × ℕ) :
    Touches [.allocation] s (s.scheduleEntry pos) := by
  unfold scheduleEntry
  split
  · exact .refl _ s
  · split
    · exact .refl _ s
    · refine keeps_seq (touches_schedule s .gtsSchedulingEvent _ _ rfl (by simp)) fun t => ?_
      show Wp (if _ then _ else _) _ _
      split
      · exact keeps_same fun v hv => by cases v <;> first | rfl | simp at hv
      · exact nofun

theorem touches_scheduleGts (indication : Bool) :
    Touches [.allocation] s (s.scheduleGts indication) := by
  unfold scheduleGts
  split
  · exact .refl _ s
  · split
    · exact .refl _ s
    · refine wp_foldlM (views.Keeps [.allocation] s) _ _ _ ?_ s (.refl _ s)
      exact fun t pos _ ht => ht.wp (touches_scheduleEntry t pos)

theorem wp_shiftDifference (m n : ℕ) :
    Wp (shiftDifference m n) (fun _ => True) fun e => e ≠ .emptyQueue := by
  unfold shiftDifference
  split
  · trivial
  · exact nofun

theorem touches_resizeScheduleGTSsEvent (bcnOrder multisfrmOrd sfrmOrd : ℕ) :
    Touches [.counting] s (s.resizeScheduleGTSsEvent bcnOrder multisfrmOrd sfrmOrd) := by
  unfold resizeScheduleGTSsEvent
  refine (wp_shiftDifference _ _).bind fun m _ => ?_
  refine (wp_shiftDifference _ _).bind fun n _ => ?_
  exact keeps_same fun v hv => by cases v <;> first | rfl | simp at hv

/-! ## CSMA-CA -/

theorem touches_csmaStart : Touches [] s s.csmaStart := by
  unfold csmaStart
  dsimp only
  split
  · exact touches_of_keeps (keeps_same fun v _ => by cases v <;> rfl)
      (touches_schedule _ _ _ _ _ (by simp))
  · exact trans (keeps_same fun v _ => by cases v <;> rfl) (keeps_post _ _ _ _ _ (by simp))

theorem touches_randomBackoffDelay : Touches [] s s.randomBackoffDelay := by
  unfold randomBackoffDelay
  dsimp only
  by_cases hdraw : s.csma.randomBackoffPeriodsLeft = 0 ∨ s.csma.isSlotted = false
  · simp only [if_pos hdraw]
    split
    · exact touches_of_keeps (keeps_same fun v _ => by cases v <;> rfl)
        (touches_schedule _ _ _ _ _ (by simp))
    · split
      · exact touches_of_keeps (keeps_same fun v _ => by cases v <;> rfl)
          (touches_schedule _ _ _ _ _ (by simp))
      · exact touches_of_keeps (keeps_same fun v _ => by cases v <;> rfl)
          (touches_schedule _ _ _ _ _ (by simp))
  · simp only [if_neg hdraw]
    split
    · exact touches_schedule _ _ _ _ _ (by simp)
    · split
      · exact touches_of_keeps (keeps_same fun v _ => by cases v <;> rfl)
          (touches_schedule _ _ _ _ _ (by simp))
      · exact touches_schedule _ _ _ _ _ (by simp)

theorem touches_canProceed : Touches [] s s.canProceed := by
  unfold canProceed
  dsimp only
  split
  · exact nofun
  · split
    · exact touches_of_keeps (Keeps.trans (keeps_same fun v _ => by cases v <;> rfl)
          (keeps_emit _ _ (by simp)))
        (touches_schedule _ _ _ _ _ (by simp))
    · exact Keeps.trans (Keeps.trans (keeps_same fun v _ => by cases v <;> rfl)
          (keeps_emit _ _ (by simp))) (keeps_post _ _ _ _ _ (by simp))

/-- Cancelling CSMA-CA disturbs nothing else. -/
theorem keeps_csmaCancel : views.Keeps [.contention] s s.csmaCancel :=
  (((keeps_cancel s .randomBackoffEvent (by decide)).trans
    (keeps_cancel _ .requestCcaEvent (by decide))).trans
    (keeps_cancel _ .canProceedEvent (by decide))).trans (keeps_cancel _ .ccaRequest (by decide))

/-! ## Transmitting -/

/-- The transmit queue is disturbed by what enters it; what does not is confirmed. -/
theorem keeps_enqueueTxQElement (el : TxQueueElement) :
    views.Keeps [.transmit, .confirms] s (s.enqueueTxQElement el) := by
  unfold enqueueTxQElement
  split
  · exact Keeps.trans (keeps_same fun v hv => by cases v <;> first | rfl | simp at hv)
      (keeps_emit _ _ (by simp))
  · dsimp only
    split
    · exact (keeps_emit _ _ (by simp)).trans (keeps_emit _ _ (by simp))
    · exact keeps_emit _ _ (by simp)

theorem keeps_checkQueue : views.Keeps [] s s.checkQueue := by
  unfold checkQueue
  split
  · split
    · exact .refl [] s
    · rename_i el els hqueue
      split
      · split
        · refine trans (keeps_setTxPkt s _ (.inr ?_)) (keeps_post _ _ _ _ _ (by simp))
          rw [front, hqueue]
          rfl
        · exact .refl [] s
      · exact .refl [] s
  · exact .refl [] s

theorem keeps_waitIfs (ifsWaitSymbols : ℕ) :
    views.Keeps [] s (s.waitIfs ifsWaitSymbols) := by
  unfold waitIfs
  split
  · exact keeps_post _ _ _ _ _ (by simp)
  · exact .refl [] s

theorem keeps_leaveSending : views.Keeps [] s s.leaveSending := by
  unfold leaveSending
  split
  · exact (keeps_cancel s .setMacState (by decide)).trans (keeps_post _ _ _ _ _ (by simp))
  · exact (keeps_cancel s .setMacState (by decide)).trans (keeps_post _ _ _ _ _ (by simp))

theorem keeps_endPdDataConfirm (ifsWaitSymbols : ℕ) :
    views.Keeps [] s (s.endPdDataConfirm ifsWaitSymbols) :=
  (keeps_waitIfs s ifsWaitSymbols).trans (keeps_leaveSending _)

/-- A transmission that the PHY refuses or breaks off is only noted. -/
theorem touches_pdDataConfirm_failure (status : LrWpanPhyEnumeration)
    (hstatus : status ≠ .phySuccess) : Touches [] s (s.pdDataConfirm status) := by
  unfold pdDataConfirm
  split
  · exact nofun
  · split
    · exact nofun
    · exact keeps_endPdDataConfirm s 0

theorem touches_pdDataRequest (hp : s.tx.txPkt = some p) :
    Touches [] s (s.pdDataRequest p) := by
  unfold pdDataRequest
  dsimp only
  refine touches_of_keeps (keeps_emit_pdDataRequest s p hp) ?_
  split
  · exact touches_pdDataConfirm_failure _ _ (by decide)
  · unfold takeData
    cases (s.emit (.pdDataRequest p)).phy.data.headD none with
    | some refusal =>
      exact touches_of_keeps (keeps_same fun v _ => by cases v <;> rfl)
        (touches_pdDataConfirm_failure _ _ refusal.status_ne_phySuccess)
    | none =>
      exact touches_of_keeps (keeps_same fun v _ => by cases v <;> rfl)
        (touches_schedule _ _ _ _ _ (by simp))

theorem touches_plmeSetTRXStateConfirm (status : LrWpanPhyEnumeration) :
    Touches [] s (s.plmeSetTRXStateConfirm status) := by
  unfold plmeSetTRXStateConfirm
  split
  · split
    · exact nofun
    · rename_i p hp
      exact touches_pdDataRequest s p hp
  · split
    · exact touches_csmaStart s
    · split
      · split
        · exact keeps_checkQueue s
        · split
          · exact .refl [] s
          · exact nofun
      · split
        · split
          · exact .refl [] s
          · exact nofun
        · split
          · split
            · exact .refl [] s
            · exact nofun
          · split
            · exact .refl [] s
            · exact nofun

theorem touches_plmeSetTRXStateRequest : Touches [] s s.plmeSetTRXStateRequest := by
  unfold plmeSetTRXStateRequest takeTrx
  cases s.phy.trx.headD none with
  | some status =>
    exact touches_of_keeps (keeps_same fun v _ => by cases v <;> rfl)
      (touches_plmeSetTRXStateConfirm _ _)
  | none => exact keeps_same fun v _ => by cases v <;> rfl

/-- Asking for another state of the transceiver in another state of the MAC. -/
theorem touches_switchTo (newState : LrWpanMacState) (hstate : newState ≠ .macCsma) :
    Touches [] s (s.changeMacState newState).plmeSetTRXStateRequest :=
  touches_of_keeps (keeps_changeMacState s newState hstate) (touches_plmeSetTRXStateRequest _)

theorem touches_plmeSetAttributeRequest : Touches [] s s.plmeSetAttributeRequest := by
  unfold plmeSetAttributeRequest takeAttribute
  dsimp only
  have hdata (t : Mac) (c : Bool) : Touches [] t
      (if c = true then (t.cancel .pdDataRequest).pdDataConfirm .phyTrxOff else .ok t) := by
    split
    · exact touches_of_keeps (keeps_cancel _ _ (by decide))
        (touches_pdDataConfirm_failure _ _ (by decide))
    · exact .refl [] t
  split
  · refine keeps_seq ?_ fun t => hdata t _
    exact touches_of_keeps (keeps_same fun v _ => by cases v <;> rfl)
      (touches_plmeSetTRXStateConfirm _ _)
  · exact touches_of_keeps (keeps_same fun v _ => by cases v <;> rfl) (hdata _ _)

/-- A change of state is a start of CSMA-CA only for `MAC_CSMA`. -/
theorem touches_setLrWpanMacState (macState : LrWpanMacState) (hstate : macState ≠ .macCsma) :
    Touches [] s (s.setLrWpanMacState macState) := by
  unfold setLrWpanMacState
  rw [if_neg hstate]
  split
  · exact touches_switchTo _ _ (by decide)
  · split
    · exact touches_switchTo _ _ (by decide)
    · split
      · exact touches_switchTo _ _ (by decide)
      · split
        · exact trans (keeps_changeMacState _ _ (by decide)) (keeps_setTxPkt _ _ (.inl rfl))
        · exact .refl [] s

/-- Otherwise only the contention is disturbed. -/
theorem touches_setLrWpanMacState_macCsma :
    Touches [.contention] s (s.setLrWpanMacState .macCsma) := by
  unfold setLrWpanMacState
  simp only [reduceCtorEq, if_false, if_true]
  split
  · refine wp (t := s.changeMacState .macCsma) ?_
      (keeps_mono (touches_plmeSetTRXStateRequest _) (nil_subset _))
    exact keeps_same fun v hv => by cases v <;> first | rfl | simp at hv
  · exact nofun

theorem touches_setLrWpanMacStateToGTS (superframeID idx : ℕ) :
    Touches [] s (s.setLrWpanMacStateToGTS superframeID idx) := by
  unfold setLrWpanMacStateToGTS
  split
  · exact nofun
  · exact touches_switchTo _ _ (by decide)

theorem touches_lrWpanMacStateCallback (macState : LrWpanMacState) (hstate : macState ≠ .macCsma) :
    Touches [.contention] s (s.lrWpanMacStateCallback macState) :=
  (keeps_emit s (.csmaOutcome macState) (by simp)).wp
    (keeps_mono (touches_setLrWpanMacState _ macState hstate) (nil_subset _))

/-- A change of the members of CSMA-CA alone. -/
theorem keeps_csma (csma : CsmaCa) :
    views.Keeps [.contention] s { s with csma } :=
    keeps_same fun v hv => by cases v <;> first | rfl | simp at hv

/-- A change of the members of CSMA-CA, and what may come of it by the callback. -/
theorem touches_callBack {r : Option LrWpanMacState × Mac} (hkeeps : views.Keeps [.contention] s r.2)
    (hstate : r.1 ≠ some .macCsma) : Touches [.contention] s (callBack r) := by
  obtain ⟨_ | macState, t⟩ := r
  · exact hkeeps
  · exact hkeeps.wp (touches_lrWpanMacStateCallback t macState fun h => hstate (congrArg some h))

theorem keeps_confirmCca (status : LrWpanPhyEnumeration) :
    views.Keeps [.contention] s (s.confirmCca status).2
      ∧ (s.confirmCca status).1 ≠ some .macCsma := by
  have hpost (t : Mac) (m : Member) (e : MacEvent) (h : m.mayHold e = true)
      (he : e.view = none) : views.Keeps [.contention] t (t.scheduleNow m e h) :=
    keeps_post t m e 0 h (by rw [he]; exact nil_subset _)
  unfold confirmCca
  dsimp only
  split
  · split
    · split
      · split
        · exact ⟨keeps_csma s _, by simp⟩
        · exact ⟨(keeps_csma s _).trans (hpost _ _ _ _ rfl), by simp⟩
      · exact ⟨keeps_csma s _, by simp⟩
    · split
      · exact ⟨keeps_csma s _, by simp⟩
      · exact ⟨(keeps_csma s _).trans (hpost _ _ _ _ rfl), by simp⟩
  · exact ⟨.refl _ s, by simp⟩

theorem touches_plmeCcaConfirm (status : LrWpanPhyEnumeration) :
    Touches [.contention] s (s.plmeCcaConfirm status) :=
  touches_callBack s (keeps_confirmCca s status).1 (keeps_confirmCca s status).2

theorem touches_requestCCA : Touches [.contention] s s.requestCCA := by
  unfold requestCCA startCca
  dsimp only
  split
  · exact (keeps_csma s _).wp (touches_plmeCcaConfirm _ _)
  · exact (keeps_csma s _).trans ((keeps_post _ _ _ _ _ (by simp)).mono (nil_subset _))

theorem touches_deferCsmaTimeout : Touches [.contention] s s.deferCsmaTimeout :=
  touches_lrWpanMacStateCallback s _ (by decide)

theorem keeps_resumeGts : views.Keeps [] s s.resumeGts := by
  unfold resumeGts
  split
  · exact keeps_changeMacState _ _ (by decide)
  · exact .refl [] s

theorem touches_forwardInGts : Touches [] s s.forwardInGts := by
  unfold forwardInGts
  split
  · split
    · exact .refl [] s
    · rename_i el els hqueue
      have hfront : views.Keeps [] s (s.setTxPkt (some el.txQPkt)) := by
        refine keeps_setTxPkt s _ (.inr ?_)
        rw [front, hqueue]
        rfl
      dsimp only
      split
      · exact touches_of_keeps (Keeps.trans hfront (keeps_changeMacState _ _ (by decide)))
          (touches_plmeSetTRXStateRequest _)
      · exact hfront
  · exact .refl [] s

theorem touches_ifsWaitTimeout (ifsTime : ℤ) :
    Touches [] s (s.ifsWaitTimeout ifsTime) := by
  have hend (t : Mac) : views.Keeps [] t (t.emit (.macIfsEnd ifsTime)).checkQueue :=
    (keeps_emit t _ (by simp)).trans (keeps_checkQueue _)
  unfold ifsWaitTimeout
  split
  · refine keeps_seq ?_ fun t => hend t
    exact touches_of_keeps (keeps_resumeGts s) (touches_forwardInGts _)
  · split
    · exact (keeps_resumeGts s).trans (hend _)
    · exact hend s

/-! ## The superframe timeline -/

/-- The views that the start of a period disturbs. -/
def SuperframeType.views : SuperframeType → List View
  | .outgoing => [.timeline]
  | .incoming => []

theorem touches_startCAP (superframeType : SuperframeType) :
    Touches superframeType.views s (s.startCAP superframeType) := by
  unfold startCAP
  cases superframeType with
  | outgoing =>
    refine keeps_seq (wp (keeps_same fun v _ => by cases v <;> rfl)
      (touches_schedule _ _ _ _ _ (by simp [MacEvent.view, SuperframeType.views]))) fun t => ?_
    exact (keeps_checkQueue t).mono (nil_subset _)
  | incoming =>
    dsimp only
    generalize hr : difference _ _ _ _ _ = r
    have hkeeps := keeps_of_difference hr
    obtain ⟨capTime, t⟩ := r
    exact (trans (keeps_same fun v _ => by cases v <;> rfl) hkeeps).trans
      ((keeps_post t _ _ _ _ (by simp)).trans (keeps_checkQueue _))

theorem touches_startCFP (superframeType : SuperframeType) :
    Touches superframeType.views s (s.startCFP superframeType) := by
  unfold startCFP
  cases superframeType with
  | incoming =>
    dsimp only [SuperframeType.views]
    split
    · split
      · generalize hr : difference _ _ _ _ _ = r
        have hkeeps := keeps_of_difference hr
        obtain ⟨cfpTime, t⟩ := r
        refine (trans (keeps_same fun v _ => by cases v <;> rfl) hkeeps).trans ?_
        exact trans (keeps_same fun v _ => by cases v <;> rfl)
          (keeps_post _ _ _ _ _ (by simp))
      · exact trans (keeps_same fun v _ => by cases v <;> rfl)
          (keeps_post _ _ _ _ _ (by simp))
    · exact keeps_same fun v _ => by cases v <;> rfl
  | outgoing =>
    dsimp only [SuperframeType.views]
    split
    · split
      · exact wp (keeps_same fun v hv => by cases v <;> first | rfl | simp at hv)
          (touches_schedule _ _ _ _ _ (by simp))
      · exact trans (keeps_same fun v _ => by cases v <;> rfl)
          (keeps_post _ _ _ _ _ (by simp))
    · exact keeps_same fun v _ => by cases v <;> rfl

theorem touches_startRemainingPeriod (superframeType : SuperframeType) :
    Touches superframeType.views s (s.startRemainingPeriod superframeType) := by
  unfold startRemainingPeriod
  cases superframeType with
  | incoming =>
    dsimp only
    generalize hr : difference _ _ _ _ _ = r
    have hkeeps := keeps_of_difference hr
    obtain ⟨remaining, t⟩ := r
    exact hkeeps.trans (trans (keeps_same fun v _ => by cases v <;> rfl)
        (keeps_post _ _ _ _ _ (by simp)))
  | outgoing =>
    dsimp only [SuperframeType.views]
    refine keeps_seq (wp (keeps_same fun v _ => by cases v <;> rfl)
        (touches_schedule _ _ _ _ _ (by simp))) fun t => ?_
    exact touches_scheduleAnonymous _ _ _ (by simp)

theorem keeps_awaitBeacon : views.Keeps [] s s.awaitBeacon :=
  keeps_same fun v _ => by cases v <;> rfl

/-- A division by zero is not a look at an empty queue. -/
theorem wp_superframesPerMultisuperframe :
    Wp s.superframesPerMultisuperframe (fun _ => True) fun e => e ≠ .emptyQueue := by
  unfold superframesPerMultisuperframe
  split
  · exact nofun
  · trivial

theorem touches_startSuperframe : Touches [.counting] s s.startSuperframe := by
  have hend (t : Mac) (count : SuperframeCount) (delay : ℤ) :
      Touches [.counting] t (t.scheduleAnonymous .startSuperframe delay >>= fun u =>
        .ok { u with count }) :=
    keeps_seq (touches_scheduleAnonymous t _ _ (by simp)) fun u =>
      (keeps_same fun v hv => by cases v <;> first | rfl | simp at hv)
  unfold startSuperframe
  refine (wp_superframesPerMultisuperframe s).bind fun superframes _ => ?_
  dsimp only
  generalize hr : difference _ _ _ _ _ = r
  have hkeeps := keeps_of_difference hr
  obtain ⟨last, t⟩ := r
  exact touches_of_keeps hkeeps (hend t _ _)

theorem touches_startMultisuperframe (superframeType : SuperframeType) :
    Touches [.counting] s (s.startMultisuperframe superframeType) := by
  unfold startMultisuperframe
  cases superframeType with
  | outgoing =>
    dsimp only
    split
    · refine Keeps.trans (Keeps.trans ?_ (keeps_post _ _ _ _ _ (by simp)))
        (keeps_post _ _ _ _ _ (by simp))
      exact keeps_same fun v hv => by cases v <;> first | rfl | simp at hv
    · exact Keeps.trans (keeps_same fun v hv => by cases v <;> first | rfl | simp at hv)
        (keeps_post _ _ _ _ _ (by simp))
  | incoming =>
    dsimp only
    split
    · exact trans (keeps_same fun v hv => by cases v <;> first | rfl | simp at hv)
        (keeps_post _ _ _ _ _ (by simp))
    · exact keeps_same fun v hv => by cases v <;> first | rfl | simp at hv

theorem keeps_beaconSearchTimeout : views.Keeps [.tracking, .search] s s.beaconSearchTimeout := by
  unfold beaconSearchTimeout
  split
  · split
    · exact Keeps.trans (keeps_same fun v hv => by cases v <;> first | rfl | simp at hv)
        (keeps_emit _ _ (by simp))
    · exact .refl _ s
  · exact Keeps.trans (keeps_same fun v hv => by cases v <;> first | rfl | simp at hv)
      (keeps_post _ _ _ _ _ (by simp))

theorem touches_mlmeSyncRequest (trackBcn : Bool) :
    Touches [.tracking, .search] s (s.mlmeSyncRequest trackBcn) := by
  unfold mlmeSyncRequest
  refine keeps_seq (keeps_mono (touches_plmeSetAttributeRequest s) (nil_subset _))
    fun t => ?_
  refine keeps_seq (keeps_mono (touches_plmeSetTRXStateRequest t) (nil_subset _))
    fun u => ?_
  split
  · exact trans (trans (keeps_cancel u .trackingEvent (by decide))
        (keeps_same fun v hv => by cases v <;> first | rfl | simp at hv))
      (keeps_post _ _ _ _ _ (by simp))
  · exact trans (keeps_cancel u .trackingEvent (by decide))
      (keeps_same fun v hv => by cases v <;> first | rfl | simp at hv)

/-! ## A successful transmission -/

theorem touches_scheduleGtsInMac (indication : Bool) :
    Touches [.allocation] s (s.scheduleGtsInMac indication) := by
  unfold scheduleGtsInMac
  split
  · exact .refl _ s
  · exact touches_scheduleGts s indication

/-- A division by zero is not a look at an empty queue. -/
theorem wp_sdIndexInMultisuperframe (sdIndex multisuperframe superframe : ℕ) :
    Wp (sdIndexInMultisuperframe sdIndex multisuperframe superframe) (fun _ => True)
      fun e => e ≠ .emptyQueue := by
  unfold sdIndexInMultisuperframe
  split
  · exact nofun
  · trivial

theorem touches_startOutgoingSuperframe : Touches [.timeline] s s.startOutgoingSuperframe := by
  unfold startOutgoingSuperframe
  split
  · refine (wp_sdIndexInMultisuperframe _ _ _).bind fun r _ => ?_
    split
    · exact keeps_post _ _ _ _ _ (by simp)
    · exact trans (keeps_same fun v hv => by cases v <;> first | rfl | simp at hv)
        (keeps_post _ _ _ _ _ (by simp))
  · exact keeps_post _ _ _ _ _ (by simp)

theorem keeps_confirmStart (success : Bool) :
    views.Keeps [] s (s.confirmStart success) := by
  unfold confirmStart
  split
  · exact keeps_emit _ _ (by simp)
  · exact .refl [] s

theorem touches_beaconSent : Touches [.allocation, .timeline] s (s.beaconSent p) := by
  unfold beaconSent
  refine keeps_seq (wp ?_ (keeps_mono (touches_scheduleGtsInMac _ _) (by simp)))
    fun t => ?_
  · exact Keeps.trans (keeps_same fun v hv => by cases v <;> first | rfl | simp at hv)
      ((keeps_purgeDsmeACT _).mono (by simp))
  · refine keeps_seq (keeps_mono (touches_startOutgoingSuperframe t) (by simp)) fun u => ?_
    exact (keeps_confirmStart u true).mono (nil_subset _)

theorem keeps_awaitGroupAck : views.Keeps [.confirms] s (s.awaitGroupAck p) := by
  unfold awaitGroupAck
  split
  · split
    · exact keeps_same fun v hv => by cases v <;> first | rfl | simp at hv
    · exact keeps_same fun v hv => by cases v <;> first | rfl | simp at hv
    · exact .refl _ s
  · exact .refl _ s

theorem keeps_ackReqSent : views.Keeps [.confirms] s (s.ackReqSent p) := by
  have hcancel : views.Keeps [.confirms] s ((s.awaitGroupAck p).cancel .setMacState) :=
    (keeps_awaitGroupAck s p).trans (keeps_cancel _ _ (by decide))
  unfold ackReqSent
  dsimp only
  split
  · exact trans hcancel (trans (keeps_post _ .setMacState _ _ rfl (by simp))
      (keeps_post _ .ifsEvent _ _ _ (by simp)))
  · exact hcancel

theorem keeps_groupAckSent : views.Keeps [] s (s.groupAckSent p) := by
  unfold groupAckSent
  split
  · split
    · exact trans (keeps_same fun v _ => by cases v <;> rfl) (keeps_setTxPkt _ _ (.inl rfl))
    · exact trans (keeps_same fun v _ => by cases v <;> rfl) (keeps_setTxPkt _ _ (.inl rfl))
    · exact .refl [] s
  · exact .refl [] s

theorem keeps_traceSentPkt : views.Keeps [] s (s.traceSentPkt p) := by
  unfold traceSentPkt
  split
  · exact .refl [] s
  · exact keeps_emit _ _ (by simp)

theorem post_confirmFront : Post s.confirmFront (views.Keeps [.confirms] s) := by
  unfold confirmFront
  split
  · split
    · trivial
    · exact keeps_emit _ _ (by simp)
  · exact .refl _ s

theorem post_removeFirstTxQElement : Post s.removeFirstTxQElement (views.Keeps [.transmit] s) := by
  unfold removeFirstTxQElement
  split
  · trivial
  · rename_i el rest _
    refine ((keeps_traceSentPkt s el.txQPkt).mono (nil_subset _)).trans
      (Keeps.trans ?_ (keeps_emit _ _ (by simp)))
    exact keeps_same fun v hv => by cases v <;> first | rfl | simp at hv

/-- A frame that is no beacon leaves the allocations alone. -/
theorem post_frameSent_of_not_beacon (hbeacon : p.hdr.isBeacon = false) :
    Post (s.frameSent p) (views.Keeps [.transmit, .confirms] s) := by
  have hend (t : Mac) (n : ℕ) : views.Keeps [.transmit, .confirms] t (t.endPdDataConfirm n) :=
    (keeps_endPdDataConfirm t n).mono (nil_subset _)
  unfold frameSent
  split
  · exact ((keeps_groupAckSent s p).mono (nil_subset _)).trans (hend _ _)
  · rw [if_neg (by simp [hbeacon])]
    split
    · exact (keeps_ackReqSent s p).mono (by simp)
    · refine keeps_seq (keeps_mono (post_confirmFront s) (by simp)) fun t => ?_
      refine keeps_seq (keeps_mono (post_removeFirstTxQElement t) (by simp)) fun u => ?_
      exact hend u _

/-- The end of a beacon. -/
theorem keeps_beaconEnd : views.Keeps [] s ((s.setTxPkt none).endPdDataConfirm (ifsSize p)) :=
  (keeps_setTxPkt s none (.inl rfl)).trans (keeps_endPdDataConfirm _ _)

/-- Whatever frame was sent, only the queue, the allocations, the outgoing superframe and the
confirms are disturbed. -/
theorem post_frameSent :
    Post (s.frameSent p) (views.Keeps [.allocation, .transmit, .timeline, .confirms] s) := by
  cases hbeacon : p.hdr.isBeacon with
  | false => exact keeps_mono (post_frameSent_of_not_beacon s p hbeacon) (by simp)
  | true =>
    have hend (t : Mac) : views.Keeps [.allocation, .transmit, .timeline, .confirms] t
        ((t.setTxPkt none).endPdDataConfirm (ifsSize p)) :=
      (keeps_beaconEnd t p).mono (nil_subset _)
    unfold frameSent
    rw [if_pos hbeacon]
    split
    · exact ((keeps_groupAckSent s p).mono (nil_subset _)).trans
        ((keeps_endPdDataConfirm _ _).mono (nil_subset _))
    · split
      · refine keeps_seq ?_ fun t => hend t
        exact (keeps_mono (touches_beaconSent s p) (by simp)).mono (fun _ h => h) fun _ _ => trivial
      · exact hend s

theorem post_endTx :
    Post s.endTx (views.Keeps [.allocation, .transmit, .timeline, .confirms] s) := by
  unfold endTx
  split
  · rename_i status _
    by_cases hstatus : status = .phySuccess
    · unfold pdDataConfirm
      rw [hstatus]
      split
      · trivial
      · split
        · trivial
        · rw [if_pos rfl]
          exact wp (keeps_emit s _ (by simp)) (post_frameSent _ _)
    · exact (keeps_mono (touches_pdDataConfirm_failure s status hstatus) (nil_subset _)).mono
        (fun _ h => h) fun _ _ => trivial
  · exact .refl _ s

/-! ## Requests -/

theorem touches_mcpsDataRequest (params : Mac.McpsDataRequestParams) :
    Touches [.transmit, .confirms] s (s.mcpsDataRequest params) := by
  unfold mcpsDataRequest
  dsimp only
  split
  · split
    · refine wp ?_ (keeps_mono (touches_switchTo _ _ (by decide)) (nil_subset _))
      exact keeps_same fun v hv => by cases v <;> first | rfl | simp at hv
    · exact keeps_same fun v hv => by cases v <;> first | rfl | simp at hv
  · split
    · exact keeps_same fun v hv => by cases v <;> first | rfl | simp at hv
    · split
      · refine trans (trans ?_ (keeps_enqueueTxQElement _ _))
          ((keeps_checkQueue _).mono (nil_subset _))
        exact keeps_same fun v hv => by cases v <;> first | rfl | simp at hv
      · exact keeps_same fun v hv => by cases v <;> first | rfl | simp at hv

theorem touches_startBeaconPeriod : Touches [] s s.startBeaconPeriod := by
  unfold startBeaconPeriod
  split
  · split
    · refine (wp_sdIndexInMultisuperframe _ _ _).bind fun r _ => ?_
      exact keeps_same fun v _ => by cases v <;> rfl
    · exact keeps_same fun v _ => by cases v <;> rfl
  · exact .refl [] s

theorem touches_sendOneEnhancedBeacon :
    Touches [.hopping, .beacons, .transmit, .timeline] s s.sendOneEnhancedBeacon := by
  unfold sendOneEnhancedBeacon
  split
  · exact nofun
  · split
    · exact nofun
    · split
      · exact .refl _ s
      · refine keeps_seq (wp ?_ (keeps_mono (touches_startBeaconPeriod _)
          (nil_subset _))) fun t => ?_
        · exact keeps_same fun v hv => by cases v <;> first | rfl | simp at hv
        · refine wp ?_ (keeps_mono (touches_switchTo _ _ (by decide)) (nil_subset _))
          exact Keeps.trans (keeps_same fun v hv => by cases v <;> first | rfl | simp at hv)
            (keeps_emit _ _ (by simp))

/-! ## Starting a PAN -/

theorem wp_superframeField_set (bcnOrder frmOrder capSlot : ℕ)
    (battLifeExt panCoor assocPermit : Bool) :
    Wp (SuperframeField.set bcnOrder frmOrder capSlot battLifeExt panCoor assocPermit)
      (fun _ => True) fun e => e ≠ .emptyQueue := by
  unfold SuperframeField.set
  split
  · split
    · split
      · trivial
      · exact nofun
    · exact nofun
  · exact nofun

theorem touches_startDsme (spec : DsmeSuperFrameField) (bcnBitmap : BeaconBitmap) :
    Touches [.ownSlot, .timeline, .counting] s (s.startDsme params spec bcnBitmap) := by
  unfold startDsme
  refine (wp_superframeField_set _ _ _ _ _ _).bind fun field _ => ?_
  refine (wp_shiftDifference _ _).bind fun m _ => ?_
  refine (wp_shiftDifference _ _).bind fun n _ => ?_
  exact keeps_same fun v hv => by cases v <;> first | rfl | simp at hv

theorem wp_ownBcnBitmap (parent : BeaconBitmap) (n : ℕ) :
    Wp (ownBcnBitmap parent n) (fun _ => True) fun e => e ≠ .emptyQueue := by
  unfold ownBcnBitmap BeaconBitmap.setSDBitmapBit
  split
  · trivial
  · exact nofun

theorem touches_startDsmeFrom (desc : Option PanDescriptor) :
    Touches [.ownSlot, .timeline, .counting] s (s.startDsmeFrom params desc) := by
  unfold startDsmeFrom
  split
  · split
    · exact touches_startDsme _ _ _ _
    · refine (wp_ownBcnBitmap _ _).bind fun b _ => ?_
      exact touches_startDsme _ _ _ _
  · exact .refl _ s

/-- `EndStartRequest` copies the orders of the request and schedules nothing up to the start of
the beacons. -/
theorem post_startDsmeFrom (desc : Option PanDescriptor) :
    Post (s.startDsmeFrom params desc) fun t => t.sim = s.sim ∧ t.role = s.role
      ∧ t.slots = { s.slots with hopping := t.adv.hopping }
      ∧ (s.cfg.macDSMEenabled = true → desc = none → t.out.multiSuperframeDuration
        = 2 ^ (params.dsmeSuperframeSpec.multiSuperframeOrder : ℕ)
          * aBaseSuperframeDuration) := by
  have hstart (spec : DsmeSuperFrameField) (b : BeaconBitmap) :
      Post (s.startDsme params spec b) fun t => t.sim = s.sim ∧ t.role = s.role
        ∧ t.slots = { s.slots with hopping := t.adv.hopping }
        ∧ t.out.multiSuperframeDuration
          = 2 ^ (spec.multiSuperframeOrder : ℕ) * aBaseSuperframeDuration := by
    unfold startDsme
    refine post_bind fun field _ => ?_
    refine post_bind fun m _ => ?_
    exact post_bind fun n _ => ⟨rfl, rfl, rfl, rfl⟩
  unfold startDsmeFrom
  split
  · split
    · exact (hstart _ _).imp fun t ht => ⟨ht.1, ht.2.1, ht.2.2.1, fun _ _ => ht.2.2.2⟩
    · refine post_bind fun b _ => ?_
      exact (hstart _ b).imp fun t ht => ⟨ht.1, ht.2.1, ht.2.2.1, fun _ h => by cases h⟩
  · rename_i hdsme
    exact ⟨rfl, rfl, rfl, fun h => absurd h hdsme⟩

theorem touches_resizeSAB : Touches [] s s.resizeSAB := by
  unfold resizeSAB
  refine (wp_shiftDifference _ _).bind fun n _ => ?_
  exact keeps_same fun v _ => by cases v <;> rfl

theorem keeps_startBeacons : views.Keeps [.allocation, .timeline, .counting] s s.startBeacons := by
  unfold startBeacons
  split
  · refine Keeps.trans ?_ ((keeps_purgeDsmeACT _).mono (by simp))
    exact (keeps_post s .multisuperframeStartEvent _ _ rfl (by simp)).trans
      (keeps_post _ .beaconEvent _ _ rfl (by simp))
  · exact keeps_same fun v hv => by cases v <;> first | rfl | simp at hv

/-- The views that the start of a PAN disturbs, besides the role. -/
@[simp] abbrev startViews : List View :=
  [.ownSlot, .allocation, .contention, .search, .timeline, .counting]

theorem touches_startBeacon (desc : Option PanDescriptor) :
    Touches [.ownSlot, .allocation, .timeline, .counting] s (s.startBeacon params desc) := by
  unfold startBeacon
  refine keeps_seq (wp ?_ (keeps_mono (touches_startDsmeFrom _ _ _) (by simp))) fun t => ?_
  · exact keeps_same fun v hv => by cases v <;> first | rfl | simp at hv
  · refine keeps_seq (keeps_mono (touches_resizeSAB t) (nil_subset _)) fun u => ?_
    split
    · exact ((keeps_startBeacons u).mono (by simp)).wp
        (keeps_mono (touches_scheduleGtsInMac _ _) (by simp))
    · exact .refl _ u

theorem touches_startNonBeacon : Touches [.contention, .search, .timeline] s s.startNonBeacon := by
  have hcancel (t : Mac) : views.Keeps [.search, .timeline] t
      (((((t.cancel .capEvent).cancel .cfpEvent).cancel .incCapEvent).cancel
        .incCfpEvent).cancel .trackingEvent) :=
    ((((keeps_cancel t .capEvent (by decide)).trans (keeps_cancel _ .cfpEvent (by decide))).trans
      (keeps_cancel _ .incCapEvent (by decide))).trans
      (keeps_cancel _ .incCfpEvent (by decide))).trans
      (keeps_cancel _ .trackingEvent (by decide))
  unfold startNonBeacon
  refine wp ?_ (keeps_mono (touches_of_keeps (keeps_confirmStart _ _)
    (touches_plmeSetTRXStateRequest _)) (nil_subset _))
  refine Keeps.trans (Keeps.trans (keeps_same fun v _ => by cases v <;> rfl)
      ((keeps_csmaCancel _).mono (by simp))) ?_
  exact Keeps.trans ((hcancel _).mono (by simp))
    (keeps_same fun v hv => by cases v <;> first | rfl | simp at hv)

theorem touches_startPan (bcnOrd : ℕ) (desc : Option PanDescriptor) :
    Touches startViews s (s.startPan params bcnOrd desc) := by
  unfold startPan
  dsimp only
  split
  · exact touches_of_keeps (keeps_same fun v _ => by cases v <;> rfl)
      (keeps_mono (touches_startNonBeacon _) (by simp))
  · exact touches_of_keeps (keeps_same fun v _ => by cases v <;> rfl)
      (keeps_mono (touches_startBeacon _ params desc) (by simp))

theorem touches_endStartRequest :
    Touches (.panCoor :: startViews) s (s.endStartRequest params) := by
  have hrole : views.Keeps (.panCoor :: startViews) s (s.takeRole params) :=
    keeps_same fun v hv => by cases v <;> first | rfl | simp at hv
  have hstart (t : Mac) (bcnOrd : ℕ) (desc : Option PanDescriptor) :
      Touches (.panCoor :: startViews) t (t.startPan params bcnOrd desc) :=
    keeps_mono (touches_startPan t params bcnOrd desc) (subset_cons_self _ _)
  unfold endStartRequest
  dsimp only
  split
  · exact nofun
  · split
    · exact hrole.wp (hstart _ _ _)
    · split
      · exact nofun
      · exact hrole.wp (hstart _ _ _)

theorem touches_mlmeStartRequest (pageOk channelOk : Bool) :
    Touches (.panCoor :: startViews) s (s.mlmeStartRequest params pageOk channelOk) := by
  have hattribute (t : Mac) : Touches (.panCoor :: startViews) t t.plmeSetAttributeRequest :=
    keeps_mono (touches_plmeSetAttributeRequest t) (nil_subset _)
  unfold mlmeStartRequest
  refine keeps_seq (hattribute s) fun t => ?_
  split
  · refine keeps_seq (hattribute t) fun u => ?_
    split
    · exact touches_endStartRequest u params
    · exact .refl _ u
  · exact (keeps_confirmStart t false).mono (nil_subset _)

/-- How a device starts a PAN with beacons: a PAN coordinator by the request, any other
coordinator by the PAN it is associated with. -/
def StartsAs (s : Mac) (params : MlmeStartRequestParams) (t : Mac)
    (desc : Option PanDescriptor) : Prop :=
  match desc with
  | none => t.role.panCoor = true ∧ params.bcnOrd ≠ 15
  | some d => t.role.panCoor = false ∧ d ∈ s.cfg.panDescriptorList

/-- **The rule for MLME-START.**  It is refused, or starts a PAN without beacons, or one with
beacons, in the role that the device then has. -/
theorem post_mlmeStartRequest_role (pageOk channelOk : Bool) (Q : Mac → Prop)
    (hrefused : (pageOk && channelOk) = false → ∀ t, views.Keeps [] s t → Q t)
    (hnonBeacon : (pageOk && channelOk) = true → ∀ t, views.Keeps [.panCoor] s t →
      t.role.panCoor = (s.role.panCoor || params.panCoor) →
      (t.role.panCoor = true → params.bcnOrd = 15) → Post t.startNonBeacon Q)
    (hbeacon : (pageOk && channelOk) = true → ∀ t desc, views.Keeps [.panCoor] s t →
      t.role.panCoor = (s.role.panCoor || params.panCoor) → StartsAs s params t desc →
      Post (t.startBeacon params desc) Q) :
    Post (s.mlmeStartRequest params pageOk channelOk) Q := by
  unfold mlmeStartRequest
  refine (touches_plmeSetAttributeRequest s).post.bind fun t ht => ?_
  cases pageOk with
  | false => exact hrefused rfl _ (ht.trans (keeps_confirmStart t false))
  | true =>
    rw [if_pos rfl]
    refine (touches_plmeSetAttributeRequest t).post.bind fun u hu => ?_
    have hkeeps : views.Keeps [] s u := ht.trans hu
    cases channelOk with
    | false => exact hrefused rfl u hkeeps
    | true =>
      rw [if_pos rfl]
      have hrole (bcnOrd : ℕ) : views.Keeps [.panCoor] s { u.takeRole params with
          out := { u.out with macBeaconOrder := bcnOrd } } :=
        (hkeeps.mono (nil_subset _)).trans
          (keeps_same fun v hv => by cases v <;> first | rfl | simp at hv)
      have hpanCoor : (u.takeRole params).role.panCoor
          = (s.role.panCoor || params.panCoor) := by
        show (u.role.panCoor || params.panCoor) = _
        rw [show u.role.panCoor = s.role.panCoor from hkeeps .panCoor (by simp)]
      unfold endStartRequest
      dsimp only
      split
      · trivial
      · split
        · rename_i hpan
          unfold startPan
          dsimp only
          split
          · rename_i hord
            exact hnonBeacon rfl _ (hrole _) hpanCoor fun _ => hord
          · rename_i hord
            exact hbeacon rfl _ none (hrole _) hpanCoor ⟨hpan, hord⟩
        · rename_i hpan
          have hpan : (u.takeRole params).role.panCoor = false := by simpa using hpan
          split
          · trivial
          · rename_i d hd
            have hcfg : u.cfg = s.cfg := hkeeps .config (by simp)
            have hmem : d ∈ s.cfg.panDescriptorList := hcfg ▸ mem_of_getElem? hd
            unfold startPan
            dsimp only
            split
            · exact hnonBeacon rfl _ (hrole _) hpanCoor fun h => absurd h (by simp [hpan])
            · exact hbeacon rfl _ (some d) (hrole _) hpanCoor ⟨hpan, hmem⟩

/-- The rule for what does not depend on the role. -/
theorem post_mlmeStartRequest (pageOk channelOk : Bool) (Q : Mac → Prop)
    (hrefused : ∀ t, views.Keeps [] s t → Q t)
    (hnonBeacon : ∀ t, views.Keeps [.panCoor] s t → Post t.startNonBeacon Q)
    (hbeacon : ∀ t desc, views.Keeps [.panCoor] s t →
      (∀ d, desc = some d → d ∈ s.cfg.panDescriptorList) → Post (t.startBeacon params desc) Q) :
    Post (s.mlmeStartRequest params pageOk channelOk) Q := by
  refine post_mlmeStartRequest_role s params pageOk channelOk Q (fun _ => hrefused)
    (fun _ t ht _ _ => hnonBeacon t ht) fun _ t desc ht _ hdesc => hbeacon t desc ht ?_
  intro d hd
  subst hd
  exact hdesc.2

/-! ## Guaranteed time slots -/

theorem wp_gtsChannel (e : MacDSMEACTEntity) :
    Wp (s.gtsChannel e) (fun _ => True) fun e => e ≠ .emptyQueue := by
  unfold gtsChannel
  split
  · exact nofun
  · split
    · trivial
    · trivial

/-- Changes to the current GTS and to the allocations. -/
theorem keeps_gts (gts : Gts) :
    views.Keeps [.currentGts, .allocation] s { s with gts } :=
    keeps_same fun v hv => by cases v <;> first | rfl | simp at hv

theorem touches_scheduleEndGTS (superframeType : SuperframeType) (e : MacDSMEACTEntity) :
    Touches [] s (s.scheduleEndGTS superframeType e) := by
  unfold scheduleEndGTS
  cases superframeType with
  | outgoing => exact touches_schedule _ _ _ _ _ (by simp)
  | incoming => exact touches_schedule _ _ _ _ _ (by simp)

theorem keeps_scheduleNextGTS (idx alloc : ℕ) (e : MacDSMEACTEntity) :
    views.Keeps [.allocation] s (s.scheduleNextGTS idx alloc e) := by
  unfold scheduleNextGTS
  split
  · exact keeps_post _ _ _ _ _ (by simp)
  · exact .refl _ s

theorem touches_openGTS (superframeType : SuperframeType) (superframeID idx alloc : ℕ)
    (e : MacDSMEACTEntity) :
    Touches [.currentGts, .allocation] s (s.openGTS superframeType superframeID idx alloc e) := by
  refine wp ?_ (keeps_mono (touches_scheduleEndGTS _ _ _) (nil_subset _))
  exact (keeps_gts s _).trans ((keeps_scheduleNextGTS _ _ _ _).mono (by simp))

theorem keeps_takeFront : views.Keeps [] s s.takeFront := by
  unfold takeFront
  split
  · exact .refl [] s
  · rename_i el els hqueue
    refine keeps_setTxPkt s _ (.inr ?_)
    rw [front, hqueue]
    rfl

theorem touches_forwardFromCap : Touches [] s s.forwardFromCap := by
  unfold forwardFromCap
  split
  · split
    · exact touches_of_keeps ((keeps_takeFront s).trans (keeps_changeMacState _ _ (by decide)))
        (touches_plmeSetTRXStateRequest _)
    · exact keeps_takeFront s
  · exact .refl [] s

theorem touches_scheduleGroupAck (e : MacDSMEACTEntity) :
    Touches [] s (s.scheduleGroupAck e) := by
  unfold scheduleGroupAck
  split
  · split
    · refine keeps_seq (touches_scheduleAnonymous _ _ _ (by simp)) fun t => ?_
      exact keeps_same fun v _ => by cases v <;> rfl
    · exact .refl [] s
  · split
    · exact touches_scheduleAnonymous _ _ _ (by simp)
    · exact .refl [] s
  · exact .refl [] s

/-- `StartGTS` behind the scheduling of its own repetition and end. -/
theorem touches_enteredGTS (superframeID idx : ℕ) (e : MacDSMEACTEntity) :
    Touches [] s (do
      let ch ← s.gtsChannel e
      let s ← (s.emit (.phyCurrentChannel ch)).plmeSetAttributeRequest
      let s ← s.setLrWpanMacStateToGTS superframeID idx
      let s ← s.forwardFromCap
      s.scheduleGroupAck e) := by
  refine (wp_gtsChannel s e).bind fun ch _ => ?_
  refine keeps_seq (touches_of_keeps (keeps_emit s (.phyCurrentChannel ch) (by simp))
    (touches_plmeSetAttributeRequest _)) fun t => ?_
  refine keeps_seq (touches_setLrWpanMacStateToGTS t _ _) fun u => ?_
  exact keeps_seq (touches_forwardFromCap u) fun v => touches_scheduleGroupAck v e

theorem touches_startGTS (superframeType : SuperframeType) (superframeID idx alloc : ℕ) :
    Touches [.currentGts, .allocation] s (s.startGTS superframeType superframeID idx alloc) := by
  unfold startGTS
  split
  · exact nofun
  · rename_i e _
    split
    · exact .refl _ s
    · split
      · exact .refl _ s
      · refine keeps_seq (touches_openGTS _ _ _ _ _ _) fun t => ?_
        exact keeps_mono (touches_enteredGTS t _ _ e) (nil_subset _)

theorem touches_endGTS : Touches [] s s.endGTS := by
  have hend (t : Mac) : views.Keeps [] t
      ((((t.cancel .setMacState).scheduleNow .setMacState (.setLrWpanMacState .macIdle) rfl).setTxPkt
        none).cancel .pdDataRequest) :=
    (((keeps_cancel t .setMacState (by decide)).trans
      (keeps_post _ .setMacState _ _ rfl (by simp))).trans
      (keeps_setTxPkt _ none (.inl rfl))).trans (keeps_cancel _ .pdDataRequest (by decide))
  unfold endGTS
  refine keeps_seq (touches_plmeSetAttributeRequest s) fun t => ?_
  dsimp only
  split
  · exact (keeps_cancel t .ackWaitTimeout (by decide)).trans (hend _)
  · exact hend t

theorem touches_sendGroupAck (policy : LrWpanGroupAckPolicy) (body : FrameBody) (ieSize : ℕ) :
    Touches [.transmit] s (s.sendGroupAck policy body ieSize) := by
  unfold sendGroupAck
  split
  · exact nofun
  · split
    · exact nofun
    · split
      · exact .refl _ s
      · refine wp ?_ (keeps_mono (touches_switchTo _ _ (by decide)) (nil_subset _))
        exact keeps_same fun v hv => by cases v <;> first | rfl | simp at hv

/-! ## Receiving -/

theorem keeps_backToGts : views.Keeps [] s s.backToGts := by
  unfold backToGts
  split
  · exact keeps_changeMacState _ _ (by decide)
  · exact .refl [] s

theorem wp_generateHashTableKey (hash64 : List Char → BitVec 64) (bitmap : BitVec 64)
    (devAddr : Mac16Address) (packetSeq : ℕ) :
    Wp (generateHashTableKey hash64 bitmap devAddr packetSeq) (fun _ => True)
      fun e => e ≠ .emptyQueue := by
  have hprob (key count : ℕ) :
      Wp (doQuadraticProb bitmap key count) (fun _ => True) fun e => e ≠ .emptyQueue := by
    fun_induction doQuadraticProb bitmap key count with
    | case1 key count hlt hbit ih => exact ih
    | case2 key count hlt hbit => trivial
    | case3 key count hlt => exact fun he => by cases he
  unfold generateHashTableKey checkCollision isHashTableKeyCollision
  apply wp_of_bind
  rw [if_pos (by have := hashTableKey_lt hash64 devAddr packetSeq; omega)]
  show Wp (if _ then _ else _) _ _
  split
  · exact hprob _ _
  · trivial

theorem wp_enhancedMark (hash64 : List Char → BitVec 64) (g : GroupAck) (srcAddr : Mac16Address)
    (seqNum : BitVec 8) :
    Wp (g.enhancedMark hash64 srcAddr seqNum)
      (fun g' => g'.groupAckPktBuffer = g.groupAckPktBuffer
        ∧ g'.legacyGackGTSIdxBuffer = g.legacyGackGTSIdxBuffer) fun e => e ≠ .emptyQueue :=
  (wp_generateHashTableKey _ _ _ _).bind fun _ _ => ⟨rfl, rfl⟩

theorem wp_legacyMark (g : GroupAck) (curGTSIdx : ℕ) (srcAddr : Mac16Address) :
    Wp (g.legacyMark curGTSIdx srcAddr)
      (fun g' => g'.groupAckPktBuffer = g.groupAckPktBuffer
        ∧ g'.legacyGackGTSIdxBuffer = g.legacyGackGTSIdxBuffer) fun e => e ≠ .emptyQueue := by
  unfold GroupAck.legacyMark
  split
  · exact ⟨rfl, rfl⟩
  · exact nofun

/-- Changes to the bitmaps of the group acknowledgment. -/
theorem keeps_gack (gack : GroupAck) (hbuffer : gack.groupAckPktBuffer = s.gack.groupAckPktBuffer)
    (hlegacy : gack.legacyGackGTSIdxBuffer = s.gack.legacyGackGTSIdxBuffer) :
    views.Keeps [] s { s with gack } := by
  intro v hv
  by_cases hconfirms : v = .confirms
  · subst hconfirms
    refine ⟨?_, rfl⟩
    unfold accounts
    rw [hbuffer, hlegacy]
  · have hkeeps : views.Keeps [.confirms] s { s with gack } :=
    keeps_same fun v hv => by cases v <;> first | rfl | simp at hv
    exact hkeeps v (by simp [hconfirms])

theorem touches_markGroupAck : Touches [] s (s.markGroupAck p) := by
  unfold markGroupAck
  split
  · refine (wp_enhancedMark _ _ _ _).bind fun g hg => ?_
    exact trans (keeps_gack s g hg.1 hg.2) (keeps_backToGts _)
  · refine (wp_legacyMark _ _ _).bind fun g hg => ?_
    exact trans (keeps_gack s g hg.1 hg.2) (keeps_backToGts _)
  · exact .refl [] s

theorem touches_ackRequested : Touches [] s (s.ackRequested p) := by
  unfold ackRequested
  split
  · split
    · exact touches_of_keeps (Keeps.trans (keeps_cancel s .setMacState (by decide))
          (keeps_changeMacState _ _ (by decide)))
        (touches_markGroupAck _ p)
    · exact nofun
  · exact .refl [] s

theorem keeps_receiveSuperframe (spec : SuperframeField) :
    views.Keeps [] s (s.receiveSuperframe spec) := by
  have hkeeps : views.Keeps [.tracking] s (s.receiveSuperframe spec) :=
    keeps_same fun v hv => by cases v <;> first | rfl | simp at hv
  exact hkeeps.of_cons ⟨rfl, rfl, rfl, fun _ => Fin.is_lt _⟩

theorem touches_startIncomingMultisuperframe :
    Touches [.counting] s s.startIncomingMultisuperframe := by
  unfold startIncomingMultisuperframe
  split
  · refine (wp_sdIndexInMultisuperframe _ _ _).bind fun r _ => ?_
    split
    · exact keeps_post _ _ _ _ _ (by simp)
    · exact .refl _ s
  · exact .refl _ s

theorem keeps_noteSyncParent (beaconTimeStamp : BitVec 64) :
    views.Keeps [] s (s.noteSyncParent p beaconTimeStamp) := by
  unfold noteSyncParent
  split
  · exact keeps_same fun v _ => by cases v <;> rfl
  · exact .refl [] s

theorem touches_scheduleFirstBeacon : Touches [.timeline] s s.scheduleFirstBeacon := by
  unfold scheduleFirstBeacon
  split
  · refine keeps_seq (touches_schedule _ _ _ _ _ (by simp)) fun t => ?_
    refine keeps_seq (touches_schedule _ _ _ _ _ (by simp)) fun u => ?_
    exact keeps_same fun v hv => by cases v <;> first | rfl | simp at hv
  · exact .refl _ s

theorem touches_scheduleGtsOnBeacon : Touches [.allocation] s (s.scheduleGtsOnBeacon p) := by
  unfold scheduleGtsOnBeacon
  split
  · exact touches_scheduleGtsInMac s true
  · exact .refl _ s

theorem keeps_startIncomingCAP : views.Keeps [] s s.startIncomingCAP :=
  (keeps_post s .incCapEvent _ _ rfl (by simp)).trans (keeps_post _ .setMacState _ _ rfl (by simp))

theorem keeps_startIncomingFirstCFP : views.Keeps [] s s.startIncomingFirstCFP :=
  trans (keeps_same fun v _ => by cases v <;> rfl)
    (keeps_post _ .incCfpEvent _ _ rfl (by simp))

theorem touches_startIncomingSuperframe : Touches [.counting] s s.startIncomingSuperframe := by
  have hcap : views.Keeps [.counting] s s.startIncomingCAP :=
    (keeps_startIncomingCAP s).mono (nil_subset _)
  have hcfp : views.Keeps [.counting] s s.startIncomingFirstCFP :=
    (keeps_startIncomingFirstCFP s).mono (nil_subset _)
  unfold startIncomingSuperframe
  dsimp only
  split
  · split
    · exact hcfp
    · split
      · exact hcap.trans (keeps_same fun v hv => by cases v <;> first | rfl | simp at hv)
      · refine (wp_sdIndexInMultisuperframe _ _ _).bind fun r _ => ?_
        split
        · exact hcfp
        · exact hcap
  · exact hcap

theorem touches_receiveOwnPanBeacon (spec : SuperframeField) (beaconTimeStamp : BitVec 64) :
    Touches [.allocation, .contention, .timeline, .counting] s
      (s.receiveOwnPanBeacon p spec beaconTimeStamp) := by
  unfold receiveOwnPanBeacon
  refine keeps_seq (wp ?_ (keeps_mono (touches_startIncomingMultisuperframe _)
    (by simp))) fun t => ?_
  · exact ((keeps_csmaCancel s).mono (by simp)).trans
      ((keeps_receiveSuperframe _ spec).mono (nil_subset _))
  · refine keeps_seq (((keeps_noteSyncParent t p _).mono (nil_subset _)).wp
      (keeps_mono (touches_scheduleFirstBeacon _) (by simp))) fun u => ?_
    refine keeps_seq (keeps_mono ((keeps_purgeDsmeACT u).wp
      (touches_scheduleGtsOnBeacon _ p)) (by simp)) fun v => ?_
    exact keeps_mono (touches_startIncomingSuperframe v) (by simp)

theorem keeps_keepTracking : views.Keeps [.tracking, .search] s s.keepTracking := by
  unfold keepTracking
  dsimp only
  split
  · split
    · exact trans (trans (keeps_cancel s .trackingEvent (by decide))
          (keeps_same fun v hv => by cases v <;> first | rfl | simp at hv))
        (keeps_post _ _ _ _ _ (by simp))
    · exact trans (keeps_cancel s .trackingEvent (by decide))
        (keeps_same fun v hv => by cases v <;> first | rfl | simp at hv)
  · exact .refl _ s

theorem keeps_notifyBeacon (sduLength : ℕ) :
    views.Keeps [.tracking, .search] s (s.notifyBeacon p sduLength) := by
  have hpayload : views.Keeps [.tracking, .search] s (s.notifyPayload p sduLength) := by
    unfold notifyPayload
    split
    · exact keeps_emit _ _ (by simp)
    · exact .refl _ s
  unfold notifyBeacon
  split
  · exact hpayload.trans (keeps_keepTracking _)
  · exact .refl _ s

theorem keeps_noteBeacon : views.Keeps [.counting] s (s.noteBeacon p) :=
    keeps_same fun v hv => by cases v <;> first | rfl | simp at hv

theorem keeps_receiveDescriptor (d : DsmePANDescriptorIE) :
    views.Keeps [.ownSlot, .hopping] s (s.receiveDescriptor p d) :=
  keeps_same fun v hv => by cases v <;> first | rfl | simp at hv

theorem wp_readBeacon (spec : SuperframeField) (ie : Option DsmePANDescriptorIE) :
    Wp (s.readBeacon p spec ie) (fun r => views.Keeps [.ownSlot, .hopping] s r.1)
      fun e => e ≠ .emptyQueue := by
  unfold readBeacon
  split
  · split
    · exact keeps_receiveDescriptor s p _
    · exact nofun
  · exact .refl _ s

/-- Reading a beacon, its airtime included. -/
theorem post_readBeacon_noteBeacon (spec : SuperframeField) (ie : Option DsmePANDescriptorIE) :
    Post ((s.noteBeacon p).readBeacon p spec ie) fun r =>
      views.Keeps [.ownSlot, .hopping, .counting] s r.1 ∧ r.1.role = s.role := by
  unfold readBeacon
  split
  · cases ie with
    | none => trivial
    | some d =>
      exact ⟨Keeps.trans ((keeps_noteBeacon s p).mono (by simp))
        ((keeps_receiveDescriptor _ p d).mono (by simp)), rfl⟩
  · exact ⟨(keeps_noteBeacon s p).mono (by simp), rfl⟩

/-- The views that a beacon disturbs. -/
@[simp] abbrev beaconViews : List View :=
  [.ownSlot, .hopping, .allocation, .contention, .tracking, .search, .timeline, .counting]

theorem wp_receiveBeacon : Wp (s.receiveBeacon p) (fun r => views.Keeps beaconViews s r.1)
      fun e => e ≠ .emptyQueue := by
  have hnotify (t : Mac) (sduLength : ℕ) :
      views.Keeps beaconViews t (t.notifyBeacon p sduLength) :=
    (keeps_notifyBeacon t p sduLength).mono (by simp)
  unfold receiveBeacon
  split
  · rename_i spec ie sduLength _
    refine (wp_readBeacon (s.noteBeacon p) p spec ie).bind ?_
    rintro ⟨t, spec', beaconTimeStamp⟩ ht
    have hread : views.Keeps beaconViews s t :=
      ((keeps_noteBeacon s p).mono (by simp)).trans
        (ht.mono (by simp))
    dsimp only
    split
    · apply wp_of_bind
      refine (touches_receiveOwnPanBeacon t p spec' beaconTimeStamp).imp fun u hu => ?_
      exact (hread.trans (hu.mono (by simp))).trans (hnotify u _)
    · split
      · exact hread
      · exact hread.trans (hnotify t _)
  · exact nofun

theorem touches_resetCnt : Touches [.allocation] s s.resetCnt := by
  unfold resetCnt
  split
  · split
    · exact nofun
    · exact keeps_same fun v hv => by cases v <;> first | rfl | simp at hv
  · exact .refl _ s

theorem touches_receiveData : Touches [.allocation] s (s.receiveData p) := by
  unfold receiveData
  split
  · exact touches_of_keeps (keeps_emit s _ (by simp)) (touches_resetCnt _)
  · exact .refl _ s

/-- Confirms are all that a group acknowledgment reports. -/
theorem keeps_confirmVerdicts (verdicts : List Bool) :
    views.Keeps [.confirms] s (s.confirmVerdicts verdicts) := by
  have hquiet (p : Output → Bool) (hp : ∀ h st, p (.mcpsDataConfirm h st) = false) :
      (s.trace ++ (verdicts.filter id).map
        fun _ => Output.mcpsDataConfirm s.tx.msduHandle .success).filter p = s.trace.filter p := by
    simp [hp]
  unfold confirmVerdicts
  split
  · intro v hv
    cases v with
    | config => exact rfl
    | panCoor => exact rfl
    | clock => exact rfl
    | currentGts => exact ⟨rfl, rfl, rfl⟩
    | allocation => exact ⟨rfl, rfl, rfl⟩
    | ownSlot => exact ⟨rfl, rfl⟩
    | hopping => exact rfl
    | beacons => exact hquiet _ fun _ _ => rfl
    | transmit =>
      refine ⟨rfl, rfl, .inr (.inl rfl), [], ?_, by simp⟩
      rw [map_nil, append_nil]
      exact hquiet _ fun _ _ => rfl
    | contention => exact ⟨id, List.Subset.refl _, rfl, hquiet _ fun _ _ => rfl⟩
    | tracking => exact ⟨rfl, rfl, hquiet _ fun _ _ => rfl, id⟩
    | search => exact ⟨rfl, rfl⟩
    | timeline => exact ⟨rfl, rfl⟩
    | counting => exact ⟨rfl, rfl⟩
    | confirms => simp at hv
  · exact .refl _ s

theorem keeps_applyVerdicts (verdicts : List Bool) (gack : GroupAck) :
    views.Keeps [.confirms] s (s.applyVerdicts verdicts gack) := by
  have hreceived (t : Mac) : views.Keeps [.confirms] t t.groupAckReceived := by
    unfold groupAckReceived
    split
    · exact ((keeps_setTxPkt t none (.inl rfl)).trans
        (keeps_post _ .setMacState _ _ rfl (by simp))).trans
        (keeps_post _ .ifsEvent _ _ rfl (by simp))
    · exact .refl _ t
  exact (trans (keeps_same fun v hv => by cases v <;> first | rfl | simp at hv)
      (keeps_confirmVerdicts _ _)).trans (hreceived _)

theorem wp_enhancedVerdicts (hash64 : List Char → BitVec 64) (self : Mac16Address) (g : GroupAck)
    (received : BitVec 64) :
    Wp (g.enhancedVerdicts hash64 self received) (fun _ => True) fun e => e ≠ .emptyQueue := by
  have hverify (buffer : List ℕ) : ∀ own received,
      Wp (GroupAck.enhancedVerify hash64 self buffer own received) (fun _ => True)
        fun e => e ≠ .emptyQueue := by
    induction buffer with
    | nil => intro own received; trivial
    | cons seq buffer ih =>
      intro own received
      unfold GroupAck.enhancedVerify
      refine (wp_generateHashTableKey _ _ _ _).bind fun k _ => ?_
      dsimp only
      split
      · exact (ih _ _).bind fun _ _ => trivial
      · exact (ih _ _).bind fun _ _ => trivial
  unfold GroupAck.enhancedVerdicts
  split
  · trivial
  · exact (hverify _ _ _).bind fun _ _ => trivial

theorem touches_receiveGroupAck : Touches [.confirms] s (s.receiveGroupAck p) := by
  unfold receiveGroupAck
  split
  · split
    · split
      · split
        · exact .refl _ s
        · refine (wp_enhancedVerdicts _ _ _ _).bind fun v _ => ?_
          exact keeps_applyVerdicts _ _ _
      · exact nofun
    · split
      · split
        · exact .refl _ s
        · exact keeps_applyVerdicts _ _ _
      · exact nofun
    · exact .refl _ s
  · exact .refl _ s

/-- The reception of a frame that is not a beacon. -/
theorem touches_receiveFrame_of_not_beacon (hbeacon : p.hdr.isBeacon = false) :
    Touches [.allocation, .confirms] s (s.receiveFrame p) := by
  unfold receiveFrame
  refine keeps_seq (keeps_mono (touches_ackRequested s p) (nil_subset _)) fun t => ?_
  rw [hbeacon]
  refine keeps_seq (keeps_mono (touches_receiveData t p) (by simp)) fun u => ?_
  exact keeps_mono (touches_receiveGroupAck u p) (by simp)

/-- The views that the reception of a frame disturbs. -/
@[simp] abbrev receiveViews : List View := .confirms :: beaconViews

/-- The reception of any frame. -/
theorem touches_receiveFrame : Touches receiveViews s (s.receiveFrame p) := by
  cases hbeacon : p.hdr.isBeacon with
  | false =>
    exact keeps_mono (touches_receiveFrame_of_not_beacon s p hbeacon)
      (by simp)
  | true =>
    unfold receiveFrame
    refine keeps_seq (keeps_mono (touches_ackRequested s p) (nil_subset _)) fun t => ?_
    rw [hbeacon]
    refine (wp_receiveBeacon t p).bind ?_
    rintro ⟨u, goOn⟩ hu
    have hread : views.Keeps receiveViews t u := hu.mono (subset_cons_self _ _)
    dsimp only
    split
    · exact hread.wp (keeps_mono (touches_receiveGroupAck u p) (by simp))
    · exact hread

theorem keeps_acceptAllHilow : views.Keeps [] s (s.acceptAllHilow p) := by
  unfold acceptAllHilow
  split
  · exact keeps_emit _ _ (by simp)
  · exact .refl [] s

theorem touches_pdDataIndication (fcsOk : Bool) :
    Touches receiveViews s (s.pdDataIndication p fcsOk) := by
  unfold pdDataIndication
  split
  · exact nofun
  · split
    · split
      · exact touches_of_keeps (keeps_acceptAllHilow s p) (touches_receiveFrame _ p)
      · exact (keeps_acceptAllHilow s p).mono (nil_subset _)
    · exact .refl _ s

/-! ## What beacons say -/

/-- The PAN descriptor of a beacon frame. -/
def Packet.descriptor (p : Packet) : Option DsmePANDescriptorIE :=
  match p.body with
  | .beacon _ ie _ => ie
  | _ => none

/-- The PAN descriptor of a frame that is read as an enhanced beacon. -/
def Mac.heardDescriptor (p : Packet) (s : Mac) : Option DsmePANDescriptorIE :=
  if s.acceptFrame p && p.hdr.isBeacon && s.readsDescriptor p then p.descriptor else none

/-- Take over the PAN descriptor that was heard, if any. -/
def Mac.takeDescriptor (p : Packet) (d : Option DsmePANDescriptorIE) (s : Mac) : Mac :=
  (d.map (s.receiveDescriptor p)).getD s

/-- The views that only the PAN descriptor of a beacon disturbs. -/
def View.OfDescriptor (v : View) : Prop := v = .ownSlot ∨ v = .hopping

theorem View.OfDescriptor.same_receiveDescriptor {v : View} (hv : v.OfDescriptor) (s : Mac)
    (p : Packet) (d : DsmePANDescriptorIE) :
    v.Same (s.receiveDescriptor p d) ((s.noteBeacon p).receiveDescriptor p d) := by
  rcases hv with rfl | rfl
  · exact ⟨rfl, rfl⟩
  · exact rfl

/-- Of such a view, a beacon leaves what its descriptor makes of it. -/
theorem same_receiveBeacon {v : View} (hv : v.OfDescriptor) (s : Mac) (p : Packet)
    (haccept : s.acceptFrame p = true) (hbeacon : p.hdr.isBeacon = true) :
    Post (s.receiveBeacon p) fun r => v.Same (s.takeDescriptor p (s.heardDescriptor p)) r.1 := by
  have hheard : s.heardDescriptor p = if s.readsDescriptor p then p.descriptor else none := by
    unfold heardDescriptor
    rw [haccept, hbeacon]
    rfl
  rw [hheard]
  unfold receiveBeacon
  split
  · rename_i spec ie sduLength hbody
    have hie : p.descriptor = ie := by
      unfold Packet.descriptor
      rw [hbody]
    rw [hie]
    have hread : Post ((s.noteBeacon p).readBeacon p spec ie) fun r =>
        v.Same (s.takeDescriptor p (if s.readsDescriptor p then ie else none)) r.1 := by
      unfold readBeacon
      rw [show (s.noteBeacon p).readsDescriptor p = s.readsDescriptor p from rfl]
      split
      · cases ie with
        | none => trivial
        | some d => exact hv.same_receiveDescriptor s p d
      · exact keeps_noteBeacon s p v (by rcases hv with rfl | rfl <;> decide)
    refine hread.bind ?_
    rintro ⟨t, spec', beaconTimeStamp⟩ ht
    dsimp only at ht ⊢
    have hnotify (u : Mac) : v.Same u (u.notifyBeacon p sduLength) :=
      keeps_notifyBeacon u p sduLength v (by rcases hv with rfl | rfl <;> decide)
    split
    · apply wp_of_bind
      refine (touches_receiveOwnPanBeacon t p spec' beaconTimeStamp).post.imp fun u hu => ?_
      exact views.trans v _ _ _ (views.trans v _ _ _ ht
        (hu v (by rcases hv with rfl | rfl <;> decide))) (hnotify u)
    · split
      · exact ht
      · exact views.trans v _ _ _ ht (hnotify t)
  · trivial

/-- A reception leaves what the descriptor that was heard makes of such a view. -/
theorem same_pdDataIndication {v : View} (hv : v.OfDescriptor) (s : Mac) (p : Packet)
    (fcsOk : Bool) : Post (s.pdDataIndication p fcsOk) fun t =>
      v.Same (s.takeDescriptor p (if fcsOk then s.heardDescriptor p else none)) t := by
  have hdropped (h : (s.acceptFrame p && p.hdr.isBeacon) = false) :
      s.takeDescriptor p (if fcsOk then s.heardDescriptor p else none) = s := by
    unfold heardDescriptor
    rw [h, Bool.false_and, if_neg Bool.false_ne_true, ite_self]
    rfl
  cases hbeacon : p.hdr.isBeacon with
  | true =>
    unfold pdDataIndication
    rw [acceptAllHilow_of_isBeacon s hbeacon]
    split
    · trivial
    · cases fcsOk with
      | false => exact views.refl v s
      | true =>
        rw [if_pos rfl]
        split
        · rename_i haccept
          exact post_receiveFrame_of_isBeacon s _ hbeacon
            (same_receiveBeacon hv s p haccept hbeacon)
        · rename_i haccept
          rw [hdropped (by rw [Bool.eq_false_iff.mpr haccept, Bool.false_and])]
          exact views.refl v s
  | false =>
    rw [hdropped (by rw [hbeacon, Bool.and_false])]
    have hhilow : v.Same s (s.acceptAllHilow p) := keeps_acceptAllHilow s p v not_mem_nil
    unfold pdDataIndication
    split
    · trivial
    · split
      · split
        · refine (touches_receiveFrame_of_not_beacon _ p hbeacon).post.imp fun t ht => ?_
          exact views.trans v _ _ _ hhilow (ht v (by rcases hv with rfl | rfl <;> decide))
        · exact hhilow
      · exact views.refl v s

/-! ## Pending events and actions -/

/-- The views that the handler of a pending event may disturb. -/
def MacEvent.footprint : MacEvent → List View
  | .setLrWpanMacState .macCsma => [.contention]
  | .startCAP superframeType => superframeType.views
  | .startCFP superframeType => superframeType.views
  | .startRemainingPeriod superframeType => superframeType.views
  | .beaconSearchTimeout => [.tracking, .search]
  | .sendOneEnhancedBeacon => [.hopping, .beacons, .transmit, .timeline]
  | .purgeDsmeACT => [.allocation]
  | .startGTS _ _ _ _ => [.currentGts, .allocation]
  | .startSuperframe => [.counting]
  | .startMultisuperframe _ => [.counting]
  | .sendLegacyGroupAck => [.transmit]
  | .sendEnhancedGroupAck => [.transmit]
  | .randomBackoffDelay => [.contention]
  | .canProceed => [.contention]
  | .requestCCA => [.contention]
  | .deferCsmaTimeout => [.contention]
  | .endCca => [.contention]
  | .endTx => [.allocation, .transmit, .timeline, .confirms]
  | _ => []

section

attribute [local simp] MacEvent.footprint SuperframeType.views

/-- The events that a view is disturbed by, as far as it is told apart from others here. -/
def View.Of : View → MacEvent → Prop
  | .config, _ | .panCoor, _ | .ownSlot, _ => False
  | .beacons, e | .hopping, e => e = .sendOneEnhancedBeacon
  | .tracking, e | .search, e => e = .beaconSearchTimeout
  | .counting, e => e.isCounting = true
  | .transmit, e =>
    e = .sendOneEnhancedBeacon ∨ e = .sendLegacyGroupAck ∨ e = .sendEnhancedGroupAck ∨ e = .endTx
  | .confirms, e => e = .endTx
  | _, _ => True

/-- A pending event disturbs only views that it can disturb. -/
theorem MacEvent.of_mem_footprint {e : MacEvent} {v : View} (h : v ∈ .clock :: e.footprint) :
    v.Of e := by
  cases e with
  | setLrWpanMacState macState => cases macState <;> cases v <;> simp [View.Of] at h ⊢
  | startCAP t => cases t <;> cases v <;> simp [View.Of] at h ⊢
  | startCFP t => cases t <;> cases v <;> simp [View.Of] at h ⊢
  | startRemainingPeriod t => cases t <;> cases v <;> simp [View.Of] at h ⊢
  | _ => cases v <;> simp [View.Of, MacEvent.isCounting] at h ⊢

/-- The handler of an event disturbs the view that watches it. -/
theorem MacEvent.view_mem_footprint (e : MacEvent) (v : View) (h : e.view = some v) :
    v ∈ e.footprint := by
  cases e with
  | startCAP t => cases t <;> cases h; decide
  | startCFP t => cases t <;> cases h; decide
  | startRemainingPeriod t => cases t <;> cases h; decide
  | startGTS t k i alloc =>
    cases h
    simp
  | startMultisuperframe t =>
    cases h
    simp
  | _ => cases h <;> decide

end

/-- The handler of an event of CSMA-CA disturbs the contention. -/
theorem MacEvent.contention_mem_footprint (e : MacEvent) (h : e.isCsma = true) :
    View.contention ∈ e.footprint := by
  cases e <;> first | (cases h; done) | decide

/-- The footprint of a pending event. -/
theorem post_dispatch (event : MacEvent) :
    Post (s.dispatch event) (views.Keeps event.footprint s) := by
  cases event with
  | setLrWpanMacState macState =>
    by_cases hstate : macState = .macCsma
    · subst hstate
      exact (touches_setLrWpanMacState_macCsma s).post
    · exact keeps_mono (touches_setLrWpanMacState s macState hstate).post (nil_subset _)
  | setLrWpanMacStateToGTS superframeID idx => exact (touches_setLrWpanMacStateToGTS s _ _).post
  | ifsWaitTimeout ifsTime => exact (touches_ifsWaitTimeout s _).post
  | startCAP superframeType => exact (touches_startCAP s superframeType).post
  | startCFP superframeType => exact (touches_startCFP s superframeType).post
  | startRemainingPeriod superframeType =>
    exact (touches_startRemainingPeriod s superframeType).post
  | awaitBeacon => exact keeps_awaitBeacon s
  | beaconSearchTimeout => exact keeps_beaconSearchTimeout s
  | sendOneEnhancedBeacon => exact (touches_sendOneEnhancedBeacon s).post
  | purgeDsmeACT => exact keeps_purgeDsmeACT s
  | startGTS superframeType superframeID idx alloc => exact (touches_startGTS s _ _ _ _).post
  | endGTS superframeType => exact (touches_endGTS s).post
  | startSuperframe => exact (touches_startSuperframe s).post
  | startMultisuperframe superframeType => exact (touches_startMultisuperframe s _).post
  | sendLegacyGroupAck => exact (touches_sendGroupAck s _ _ _).post
  | sendEnhancedGroupAck => exact (touches_sendGroupAck s _ _ _).post
  | randomBackoffDelay =>
    exact keeps_mono (touches_randomBackoffDelay s).post (nil_subset _)
  | canProceed => exact keeps_mono (touches_canProceed s).post (nil_subset _)
  | requestCCA => exact (touches_requestCCA s).post
  | deferCsmaTimeout => exact (touches_deferCsmaTimeout s).post
  | endCca => exact (touches_plmeCcaConfirm s _).post
  | endTx => exact post_endTx s

/-- Taking an event out of the queue disturbs the clock and what its handler disturbs. -/
theorem keeps_take (sim : Sim) (i : ℕ) (e : Scheduled) (h : s.sim.take i = some (e, sim)) :
    views.Keeps (.clock :: e.event.footprint) s { s with sim } := by
  refine keeps_sim s sim (.inl (by simp)) (fun v hv => ?_) ?_ ?_
  · refine Sim.eventsOf_take_of_not _ _ i e _ h ?_
    unfold View.watches
    rw [beq_eq_false_iff_ne]
    exact fun hview => hv (mem_cons_of_mem _ (e.event.view_mem_footprint v hview))
  · by_cases hholder : e.holder = some .trackingEvent
    · have hhold := e.holder_ok _ hholder
      refine .inl (mem_cons_of_mem _ ?_)
      cases he : e.event with
      | beaconSearchTimeout => decide
      | _ =>
        rw [he] at hhold
        cases hhold
    · exact .inr (Sim.held_take_of_ne _ _ i e _ h hholder)
  · by_cases hcsma : e.event.isCsma = true
    · exact .inl (mem_cons_of_mem _ (e.event.contention_mem_footprint hcsma))
    · refine .inr ?_
      rw [Sim.eventsOf_take_of_not _ _ i e _ h (by simpa using hcsma)]
      exact List.Subset.refl _

/-- The footprint of an event that is run. -/
theorem post_fire (sim : Sim) (i : ℕ) (e : Scheduled) (h : s.sim.take i = some (e, sim)) :
    Post (s.fire i) (views.Keeps (.clock :: e.event.footprint) s) := by
  unfold fire
  rw [h]
  exact (keeps_take s sim i e h).wp
    (keeps_mono (post_dispatch _ _) (subset_cons_self _ _))

/-- The views that an action may disturb, for every action but the run of an event. -/
def Action.footprint : Action → List View
  | .mcpsDataRequest _ => [.transmit, .confirms]
  | .mlmeStartRequest _ _ _ => .panCoor :: startViews
  | .mlmeSyncRequest _ => [.tracking, .search]
  | .pdDataIndication _ _ => receiveViews
  | .ccaCancelled => [.contention]
  | .addDsmeACTEntity _ _ => [.allocation]
  | .resizeScheduleGTSsEvent _ _ _ => [.counting]
  | .deallocate _ _ => [.allocation]
  | .expire _ _ => [.allocation]
  | .scheduleGts _ => [.allocation]
  | .purgeDsmeACT => [.allocation]
  | .tick _ => [.clock]
  | _ => []

/-- The footprint of an action. -/
theorem post_act (a : Action) (ha : ∀ i, a ≠ .fire i) :
    Post (s.act a) (views.Keeps a.footprint s) := by
  cases a with
  | mcpsDataRequest params => exact (touches_mcpsDataRequest s params).post
  | mlmeStartRequest params pageOk channelOk =>
    exact (touches_mlmeStartRequest s params pageOk channelOk).post
  | mlmeSyncRequest trackBcn => exact (touches_mlmeSyncRequest s trackBcn).post
  | pdDataIndication p fcsOk => exact (touches_pdDataIndication s p fcsOk).post
  | plmeSetTRXStateConfirm status => exact (touches_plmeSetTRXStateConfirm s status).post
  | ccaCancelled =>
    exact wp (keeps_cancel s .ccaRequest (by decide)) (touches_plmeCcaConfirm _ .phyBusy).post
  | addDsmeACTEntity superframeID entity => exact (touches_addDsmeACTEntity s _ _).post
  | resizeScheduleGTSsEvent bcnOrder multisfrmOrd sfrmOrd =>
    exact (touches_resizeScheduleGTSsEvent s _ _ _).post
  | deallocate superframeID idx => exact keeps_deallocate s _ _
  | expire superframeID idx => exact keeps_expire s _ _
  | scheduleGts indication => exact (touches_scheduleGts s indication).post
  | purgeDsmeACT => exact keeps_purgeDsmeACT s
  | fire i => exact absurd rfl (ha i)
  | tick t =>
    refine keeps_sim s _ (.inl ?_) (fun _ _ => rfl) (.inr rfl) (.inr (List.Subset.refl _))
    simp [Action.footprint]

end Ns3Dsme
