/-
# Leaving the sending states

`MAC_SENDING` and `MAC_GTS_SENDING` are left by a pending event only: a change of the MAC
state, or the end of the GTS.  `PdDataConfirm` schedules such an event on every path but
one.  A frame that asks for an acknowledgment while no group acknowledgment is configured
makes it cancel the pending change of state and return, the immediate acknowledgment and
its timeout being commented out in the source.
-/
import Ns3Dsme.LrWpan.Device

open Program

namespace Ns3Dsme.Sending

/-! ## Events that leave the sending states -/

/-- The MAC is in one of the two states in which it waits for the PHY to send. -/
def isSending (s : Mac) : Bool :=
  s.macState == .macSending || s.macState == .macGtsSending

/-- The event leaves the sending states.  The other arguments of `SetLrWpanMacState` are
ignored in these states, or make it abort. -/
def leaves : MacEvent → Bool
  | .setLrWpanMacState .macIdle => true
  | .setLrWpanMacState .macAckPending => true
  | .setLrWpanMacStateToGTS _ _ => true
  | .endGTS _ => true
  | _ => false

/-- The MAC does not send, or an event is pending that makes it stop. -/
def NotStuck (s : Mac) : Prop := isSending s = false ∨ s.sim.Has leaves

/-- An event that has just been scheduled is pending. -/
theorem has_post (sim : Sim) (p : MacEvent → Bool) (m : Member) (event : MacEvent) (delay : ℤ)
    (h : m.mayHold event = true) (hp : p event = true) : (sim.post m event delay h).Has p :=
  ⟨(event, sim.now + delay), by simp, hp⟩

/-! ## After a confirm -/

/-- Most paths end by scheduling a change of state. -/
theorem notStuck_endPdDataConfirm (s : Mac) (n : ℕ) : NotStuck (s.endPdDataConfirm n) := by
  refine Or.inr ?_
  unfold Mac.endPdDataConfirm Mac.leaveSending
  split
  · exact has_post _ _ _ _ _ rfl rfl
  · exact has_post _ _ _ _ _ rfl rfl

/-- The frame asks for an acknowledgment that the MAC does not wait for, and no event that
leaves the sending states is pending beyond the one that is cancelled. -/
def WaitsForNothing (s : Mac) (p : Packet) : Prop :=
  p.isPayload = true ∧ p.hdr.ackReq = true ∧ s.cfg.groupAckPolicy ≠ .groupAckLegacy
    ∧ s.cfg.groupAckPolicy ≠ .groupAckEnhanced ∧ ¬ (s.sim.cancel .setMacState).Has leaves

/-- Without a group acknowledgment nothing is noted of a frame that was sent. -/
theorem awaitGroupAck_eq_self (s : Mac) (p : Packet)
    (hlegacy : s.cfg.groupAckPolicy ≠ .groupAckLegacy)
    (henhanced : s.cfg.groupAckPolicy ≠ .groupAckEnhanced) : s.awaitGroupAck p = s := by
  unfold Mac.awaitGroupAck
  split
  · split
    · rename_i hpolicy
      exact absurd hpolicy hlegacy
    · rename_i hpolicy
      exact absurd hpolicy henhanced
    · rfl
  · rfl

/-- After a frame that asks for an acknowledgment. -/
theorem notStuck_ackReqSent_iff (s : Mac) (p : Packet) (hsending : isSending s = true) :
    NotStuck (s.ackReqSent p) ↔
      ¬ (s.cfg.groupAckPolicy ≠ .groupAckLegacy ∧ s.cfg.groupAckPolicy ≠ .groupAckEnhanced
        ∧ ¬ (s.sim.cancel .setMacState).Has leaves) := by
  unfold Mac.ackReqSent
  dsimp only
  by_cases hpolicy : s.cfg.groupAckPolicy = .groupAckLegacy
      ∨ s.cfg.groupAckPolicy = .groupAckEnhanced
  · have hcfg : (s.awaitGroupAck p).cfg = s.cfg := by
      unfold Mac.awaitGroupAck
      split
      · split <;> rfl
      · rfl
    rw [if_pos (by rw [hcfg]; exact hpolicy)]
    have hleft : NotStuck ((((s.awaitGroupAck p).cancel .setMacState).scheduleNow .setMacState
        (.setLrWpanMacState .macAckPending) rfl).scheduleSymbols .ifsEvent
          (.ifsWaitTimeout (symbols macSIFSPeriod)) macSIFSPeriod rfl) :=
      Or.inr ((has_post _ _ .setMacState _ 0 rfl rfl).mono (Sim.eventsOf_subset_post _ _ _ _ _ rfl))
    exact iff_of_true hleft fun h => hpolicy.elim h.1 h.2.1
  · have hlegacy : s.cfg.groupAckPolicy ≠ .groupAckLegacy := fun h => hpolicy (Or.inl h)
    have henhanced : s.cfg.groupAckPolicy ≠ .groupAckEnhanced := fun h => hpolicy (Or.inr h)
    rw [awaitGroupAck_eq_self s p hlegacy henhanced, if_neg hpolicy]
    constructor
    · rintro (hleft | hleft) ⟨_, _, hnone⟩
      · have hsame : isSending (s.cancel .setMacState) = isSending s := rfl
        rw [hsame, hsending] at hleft
        cases hleft
      · exact hnone hleft
    · intro h
      by_contra hstuck
      exact h ⟨hlegacy, henhanced, fun hpending => hstuck (Or.inr hpending)⟩

/-- After any frame. -/
theorem notStuck_frameSent_iff (s : Mac) (p : Packet) (hsending : isSending s = true) :
    Post (s.frameSent p) fun t => NotStuck t ↔ ¬ WaitsForNothing s p := by
  unfold Mac.frameSent
  by_cases hack : p.hdr.isAcknowledgment = true
  · rw [if_pos hack]
    refine iff_of_true (notStuck_endPdDataConfirm _ _) fun h => ?_
    have hpayload := h.1
    simp [Packet.isPayload, hack] at hpayload
  · rw [if_neg hack]
    by_cases hbeacon : p.hdr.isBeacon = true
    · have hwaits : ¬ WaitsForNothing s p := fun h => by
        have hpayload := h.1
        simp [Packet.isPayload, hbeacon] at hpayload
      rw [if_pos hbeacon]
      split
      · refine post_bind fun t _ => ?_
        exact iff_of_true (notStuck_endPdDataConfirm _ _) hwaits
      · exact iff_of_true (notStuck_endPdDataConfirm _ _) hwaits
    · rw [if_neg hbeacon]
      have hpayload : p.isPayload = true := by simp [Packet.isPayload, hack, hbeacon]
      by_cases hackReq : p.hdr.ackReq = true
      · rw [if_pos hackReq]
        refine (notStuck_ackReqSent_iff s p hsending).trans (not_congr ?_)
        exact ⟨fun h => ⟨hpayload, hackReq, h⟩, fun h => h.2.2⟩
      · rw [if_neg hackReq]
        refine post_bind fun t _ => ?_
        refine post_bind fun u _ => ?_
        exact iff_of_true (notStuck_endPdDataConfirm _ _) fun h => hackReq h.2.1

/-- **When the MAC gets stuck.**  Whatever the state and the status, `PdDataConfirm` leaves the
MAC outside the sending states or with a pending event that leaves them, except after the
successful transmission of a frame that asks for an acknowledgment while no group
acknowledgment is configured and no GTS is about to end. -/
theorem notStuck_pdDataConfirm_iff (s : Mac) (status : LrWpanPhyEnumeration) :
    Post (s.pdDataConfirm status) fun t =>
      NotStuck t ↔ ¬ (status = .phySuccess ∧ ∃ p, s.tx.txPkt = some p ∧ WaitsForNothing s p) := by
  unfold Mac.pdDataConfirm
  split
  · trivial
  · rename_i hstate
    have hsending : isSending s = true := by
      unfold isSending
      by_cases hs : s.macState = .macSending
      · simp [hs]
      · simp [not_not.mp fun h => hstate ⟨hs, h⟩]
    split
    · trivial
    · rename_i p hp
      by_cases hstatus : status = .phySuccess
      · rw [if_pos hstatus]
        refine (notStuck_frameSent_iff (s.emit (.pdDataSuccess p)) p hsending).imp fun t ht => ?_
        refine ht.trans (not_congr ⟨fun h => ⟨hstatus, p, hp, h⟩, ?_⟩)
        rintro ⟨_, q, hq, hwaits⟩
        cases hp.symm.trans hq
        exact hwaits
      · rw [if_neg hstatus]
        exact iff_of_true (notStuck_endPdDataConfirm _ _) fun h => hstatus h.1

/-! ## A device that gets stuck -/

/-- A data frame that asks for an acknowledgment, sent with unslotted CSMA-CA up to the end of
its transmission. -/
def ackReqRun : List Input :=
  [⟨.mcpsDataRequest { dstAddr := 2, txOptionAck := true, txOptionDirect := true, msdu := List.replicate 10 0 },
      {}⟩,
    ⟨.fire 0, { trx := [some .phyRxOn] }⟩, ⟨.fire 0, {}⟩, ⟨.fire 0, {}⟩,
    ⟨.fire 0, { trx := [some .phyTxOn] }⟩]

/-- The end of the transmission is pending, and its confirm gets the MAC stuck. -/
def endsStuck (s : Mac) : Bool :=
  match s.sim.take 0 with
  | some (e, sim) =>
    e.event == .endTx &&
      match Mac.pdDataConfirm .phySuccess { s with sim } with
      | .ok t => isSending t && t.sim.timeline.all fun x => !leaves x.1
      | .error _ => false
  | none => false

/-- A device without group acknowledgments gets stuck. -/
theorem exists_run_stuck :
    ∃ s sim e t, Mac.machine.Run (fun _ _ => True) ({ cfg := { shortAddress := 1 } } : Mac)
        ackReqRun s
      ∧ s.sim.take 0 = some (e, sim) ∧ e.event = .endTx
      ∧ Mac.pdDataConfirm .phySuccess { s with sim } = .ok t ∧ ¬ NotStuck t := by
  have hexec : (Mac.machine.exec (fun _ _ => true) ({ cfg := { shortAddress := 1 } } : Mac)
      ackReqRun).any endsStuck = true := by decide +kernel
  obtain ⟨s, hrun, hs⟩ := Machine.exists_run_of_exec _ _ _ _ hexec
  unfold endsStuck at hs
  split at hs
  · rename_i e sim htake
    obtain ⟨hevent, hs⟩ := Bool.and_eq_true_iff.mp hs
    split at hs
    · rename_i t hconfirm
      obtain ⟨hsending, hnone⟩ := Bool.and_eq_true_iff.mp hs
      refine ⟨s, sim, e, t, hrun.mono fun _ _ _ => trivial, htake, eq_of_beq hevent, hconfirm, ?_⟩
      rintro (hleft | ⟨x, hx, hleaves⟩)
      · rw [hsending] at hleft
        cases hleft
      · have hx := List.all_eq_true.mp hnone x hx
        rw [hleaves] at hx
        cases hx
    · cases hs
  · cases hs

end Ns3Dsme.Sending
