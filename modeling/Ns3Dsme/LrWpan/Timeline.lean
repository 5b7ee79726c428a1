/-
# The superframe timeline of a coordinator

An outgoing superframe is a chain of events: the beacon, the CAP or the first CFP that takes
its place under CAP reduction, the CFP, the inactive period and the next beacon.  The CAP is
shortened by the time the beacon took, and the inactive period ends one beacon interval
behind the start of the beacon slot, so no delay accumulates.
-/
import Ns3Dsme.LrWpan.Footprint
import Mathlib.Data.List.Chain
import Mathlib.Tactic.Ring

open List Program Program.Views

namespace Ns3Dsme.Timeline

open Mac MacEvent

/-! ## The superframes of a run -/

/-- What happened in an outgoing superframe, and when. -/
structure Superframe where
  /-- The start of the beacon. -/
  beacon : ℤ
  /-- The beacon that the PHY reported as sent. -/
  sent : Option Packet := none
  /-- CSMA-CA was slotted then; otherwise nothing follows the beacon. -/
  slotted : Bool := false
  /-- The start of the CFP.  Under CAP reduction this is the CFP behind the first one, which
  fills the place of the CAP. -/
  cfp : Option ℤ := none
  /-- The end of the active period. -/
  activeEnd : Option ℤ := none
  /-- The end of the inactive period. -/
  inactiveEnd : Option ℤ := none

/-- Note an event of the outgoing superframe; the latest superframe comes first. -/
def note (log : List Superframe) (s : Mac) (i : Input) (e : Scheduled) : List Superframe :=
  match e.event with
  | .sendOneEnhancedBeacon =>
    let log := log.modifyHead fun sf => { sf with inactiveEnd := some e.time }
    if s.role.macPanId = 0xffff then log else { beacon := e.time } :: log
  | .endTx =>
    match s.tx.txPkt, i.answers.endTx with
    | some p, some .phySuccess =>
      if p.hdr.isBeacon then
        log.modifyHead fun sf => { sf with sent := some p, slotted := s.csma.isSlotted }
      else log
    | _, _ => log
  | .startCFP .outgoing =>
    if s.out.firstCFP then log
    else log.modifyHead fun sf => { sf with cfp := some e.time }
  | .startRemainingPeriod .outgoing =>
    log.modifyHead fun sf => { sf with activeEnd := some e.time }
  | _ => log

/-- The beacon was sent in a slotted PAN, and the superframe is not over. -/
def Superframe.GoesOn (sf : Superframe) : Prop := sf.slotted = true ∧ sf.inactiveEnd = none

/-- The superframes since the last MLME-START. -/
def record (log : List Superframe) (s : Mac) (i : Input) (_ : Mac) : List Superframe :=
  match i.action with
  | .mlmeStartRequest _ true true => []
  | .fire n =>
    match s.sim.pending[n]? with
    | some e => note log s i e
    | none => log
  | _ => log

/-- The pending events of the outgoing superframe. -/
def outgoing (s : Mac) : List (MacEvent × ℤ) := s.sim.eventsOf isTimeline

/-- A slot is exactly one sixteenth of a superframe. -/
def slotDuration (slots : Mac.Slots) : ℤ := symbols slots.superframeDuration / 16

/-- What comes after a beacon comes on time.  The PHY takes no frame that is longer than
`aMaxPhyPacketSize`. -/
structure OnTime (slots : Mac.Slots) (sf : Superframe) : Prop where
  cfp : ∀ c, sf.cfp = some c → ∃ p, sf.sent = some p ∧ (p.size ≤ aMaxPhyPacketSize →
    c = sf.beacon + (slots.fnlCapSlot + 1) * slotDuration slots)
  activeEnd : ∀ a, sf.activeEnd = some a → ∃ p, sf.sent = some p ∧
    (p.size ≤ aMaxPhyPacketSize → a = sf.beacon + 16 * slotDuration slots)
  inactiveEnd : ∀ e, sf.inactiveEnd = some e → e = sf.beacon + symbols slots.beaconInterval

/-- The inactive period of every superframe ends with the next beacon. -/
def Contiguous (log : List Superframe) : Prop :=
  log.IsChain fun sf prev => prev.inactiveEnd = some sf.beacon

/-! ## The invariant -/

/-- A beacon is in transmission. -/
def beaconInTx (s : Mac) : Bool := s.tx.txPkt.any fun p => p.hdr.isBeacon

/-- When the next event of a superframe is due whose beacon `p` was sent.  The time
`milliSeconds (frameSymbols p.size)` is zero for every beacon that a PHY can send. -/
def Due (dsme : Bool) (slots : Mac.Slots) (sf : Superframe) (p : Packet) (e : MacEvent)
    (τ : ℤ) : Prop :=
  let airtime := milliSeconds (frameSymbols p.size)
  let cap := symbols (capDuration slots.superframeDuration slots.fnlCapSlot)
  match e with
  | .startCAP .outgoing => slots.firstCFP = false ∧ slots.macBeaconTxTime = τ - airtime
  | .startCFP .outgoing =>
    if slots.firstCFP then dsme = true ∧ slots.macBeaconTxTime = τ - airtime
    else τ = sf.beacon + cap + airtime
  | .startRemainingPeriod .outgoing =>
    slots.firstCFP = false ∧ τ = sf.beacon + symbols slots.superframeDuration + airtime
  | .sendOneEnhancedBeacon =>
    slots.firstCFP = false ∧ τ = sf.beacon + symbols slots.beaconInterval
  | _ => False

/-- Where a device is in its outgoing superframes. -/
inductive Phase (s : Mac) : List Superframe → Prop
  /-- No superframe is going on. -/
  | idle (log : List Superframe) (hnext : outgoing s = []) (htx : beaconInTx s = false)
      (hsend : s.slots.sendBcn = false) (hfirst : s.slots.firstCFP = false)
      (hlast : ∀ sf ∈ log.head?, s.cfg.macDSMEenabled = true → ¬ sf.GoesOn) : Phase s log
  /-- The beacon of the parent decides on the first beacon. -/
  | awaiting (hnext : outgoing s = []) (htx : beaconInTx s = false)
      (hsend : s.slots.sendBcn = true) (hfirst : s.slots.firstCFP = false) : Phase s []
  /-- The first beacon is scheduled. -/
  | beginning (τ : ℤ) (hnext : outgoing s = [(.sendOneEnhancedBeacon, τ)])
      (htx : beaconInTx s = false) (hsend : s.slots.sendBcn = false)
      (hfirst : s.slots.firstCFP = false) : Phase s []
  /-- A beacon was handed to the PHY, and may still be in transmission. -/
  | sending (sf : Superframe) (older : List Superframe) (hnext : outgoing s = [])
      (hsend : s.slots.sendBcn = false) (hfirst : s.slots.firstCFP = false)
      (hslot : s.slots.startOfBcnSlot = sf.beacon) (hstart : s.slots.beaconStartTxTime = sf.beacon)
      (hcfp : sf.cfp = none) (hactive : sf.activeEnd = none) (hslotted : sf.slotted = false) :
      Phase s (sf :: older)
  /-- The beacon was sent, and the next event is due. -/
  | running (sf : Superframe) (older : List Superframe) (p : Packet) (e : MacEvent) (τ : ℤ)
      (hnext : outgoing s = [(e, τ)]) (htx : beaconInTx s = false)
      (hsend : s.slots.sendBcn = false) (hslot : s.slots.startOfBcnSlot = sf.beacon)
      (hstart : s.slots.beaconStartTxTime = sf.beacon) (hsent : sf.sent = some p)
      (hdue : Due s.cfg.macDSMEenabled s.slots sf p e τ) : Phase s (sf :: older)

/-- What does not depend on the phase. -/
structure Base (log : List Superframe) (s : Mac) : Prop where
  contiguous : Contiguous log
  onTime : ∀ sf ∈ log, OnTime s.slots sf
  capSlot : s.slots.fnlCapSlot ≤ 15
  superframe : 16 ∣ s.slots.superframeDuration
  queue : ∀ el ∈ s.tx.txQueue, el.txQPkt.hdr.isBeacon = false

structure Inv (log : List Superframe) (s : Mac) : Prop extends Base log s where
  phase : Phase s log

/-! ## What leaves the timeline alone -/

variable {log : List Superframe} {older : List Superframe} {sf : Superframe} {s : Mac} {p : Packet}
  {e : Scheduled} (superframeDuration fnlCapSlot : ℕ)

/-- The phase depends on the outgoing superframe and on whether a beacon is in transmission. -/
theorem phase_congr {s t : Mac} (hslots : t.slots = s.slots) (hout : outgoing t = outgoing s)
    (hcfg : t.cfg = s.cfg) (htx : beaconInTx s = false → beaconInTx t = false) (h : Phase s log) :
    Phase t log := by
  cases h with
  | idle _ hnext hs hsend hfirst hlast =>
    exact .idle _ (hout.trans hnext) (htx hs) (by rw [hslots]; exact hsend)
      (by rw [hslots]; exact hfirst) (by rw [hcfg]; exact hlast)
  | awaiting hnext hs hsend hfirst =>
    exact .awaiting (hout.trans hnext) (htx hs) (by rw [hslots]; exact hsend)
      (by rw [hslots]; exact hfirst)
  | beginning τ hnext hs hsend hfirst =>
    exact .beginning τ (hout.trans hnext) (htx hs) (by rw [hslots]; exact hsend)
      (by rw [hslots]; exact hfirst)
  | sending sf older hnext hsend hfirst hslot hstart hcfp hactive hslotted =>
    exact .sending sf older (hout.trans hnext) (by rw [hslots]; exact hsend)
      (by rw [hslots]; exact hfirst) (by rw [hslots]; exact hslot)
      (by rw [hslots]; exact hstart) hcfp hactive hslotted
  | running sf older p e τ hnext hs hsend hslot hstart hsent hdue =>
    exact .running sf older p e τ (hout.trans hnext) (htx hs) (by rw [hslots]; exact hsend)
      (by rw [hslots]; exact hslot) (by rw [hslots]; exact hstart) hsent
      (by rw [hslots, hcfg]; exact hdue)

/-- A step that neither schedules a period nor takes a beacon into transmission keeps the
invariant. -/
theorem inv_congr {s t : Mac} (hslots : t.slots = s.slots) (hout : outgoing t = outgoing s)
    (hcfg : t.cfg = s.cfg) (htx : beaconInTx s = false → beaconInTx t = false)
    (hqueue : ∀ el ∈ t.tx.txQueue, el ∈ s.tx.txQueue ∨ el.txQPkt.hdr.isBeacon = false)
    (hs : Inv log s) : Inv log t :=
  ⟨⟨hs.contiguous, by rw [hslots]; exact hs.onTime, by rw [hslots]; exact hs.capSlot,
    by rw [hslots]; exact hs.superframe,
    fun el hel => (hqueue el hel).elim (hs.queue el) id⟩,
    phase_congr hslots hout hcfg htx hs.phase⟩

/-- Only beacons that are queued could get into transmission. -/
theorem beaconInTx_of_transmits {s t : Mac} (h : s.Transmits t)
    (hqueue : ∀ el ∈ s.tx.txQueue, el.txQPkt.hdr.isBeacon = false) (hs : beaconInTx s = false) :
    beaconInTx t = false := by
  unfold beaconInTx at hs ⊢
  rcases h.txPkt with ht | ht | ht
  · rw [ht]
    rfl
  · rw [ht]
    exact hs
  · rw [ht]
    unfold front
    cases hq : s.tx.txQueue with
    | nil => rfl
    | cons el els => exact hqueue el (by rw [hq]; exact mem_cons_self)

theorem inv_of_keeps {touched : List View} {s t : Mac} (h : views.Keeps touched s t)
    (hapart : ∀ v ∈ [View.timeline, .transmit, .config], v ∉ touched) (hs : Inv log s) :
    Inv log t := by
  obtain ⟨hslots, hout⟩ := h .timeline (hapart _ (by simp))
  have htx : s.Transmits t := h .transmit (hapart _ (by simp))
  refine inv_congr hslots hout (h .config (hapart _ (by simp)))
    (beaconInTx_of_transmits htx hs.queue) ?_ hs
  rw [htx.txQueue]
  exact fun el hel => .inl hel

theorem inv_of_touches {touched : List View} {x : Exec Mac} (h : Post x (views.Keeps touched s))
    (hapart : ∀ v ∈ [View.timeline, .transmit, .config], v ∉ touched) (hs : Inv log s) :
    Post x (Inv log) :=
  h.imp fun _ ht => inv_of_keeps ht hapart hs

/-! ## Packets of other kinds -/

theorem inv_mcpsDataRequest (log : List Superframe) (s : Mac) (params : Mac.McpsDataRequestParams)
    (hs : Inv log s) :
    Post (s.mcpsDataRequest params) (Inv log) := by
  have hnoted : Inv log { s with tx := { s.tx with
      msduHandle := params.msduHandle, macDsn := s.tx.macDsn + 1
      nextUid := s.tx.nextUid + 1 } } :=
    inv_congr (s := s) rfl rfl rfl id (fun _ hel => .inl hel) hs
  unfold mcpsDataRequest
  dsimp only
  split
  · split
    · refine inv_of_touches (touches_plmeSetTRXStateRequest _).post (by simp) ?_
      refine inv_congr (s := s) rfl rfl rfl (fun _ => rfl) (fun _ hel => .inl hel) hs
    · exact hnoted
  · split
    · exact hnoted
    · split
      · refine inv_of_keeps (keeps_checkQueue _) (by simp) ?_
        unfold enqueueTxQElement
        split
        · refine inv_congr (s := s) rfl rfl rfl id (fun el hel => ?_) hs
          rcases mem_append.mp hel with hel | hel
          · exact .inl hel
          · rw [mem_singleton.mp hel]
            exact .inr rfl
        · dsimp only
          split
          · exact inv_congr (s := s) rfl rfl rfl id (fun _ hel => .inl hel) hs
          · exact inv_congr (s := s) rfl rfl rfl id (fun _ hel => .inl hel) hs
      · exact hnoted

theorem inv_sendGroupAck (log : List Superframe) (s : Mac) (policy : LrWpanGroupAckPolicy)
    (body : FrameBody) (ieSize : ℕ) (hs : Inv log s) :
    Post (s.sendGroupAck policy body ieSize) (Inv log) := by
  unfold sendGroupAck
  split
  · trivial
  · split
    · trivial
    · split
      · exact hs
      · refine inv_of_touches (touches_plmeSetTRXStateRequest _).post (by simp) ?_
        exact inv_congr (s := s) rfl rfl rfl (fun _ => rfl) (fun _ hel => .inl hel) hs

/-! ## The periods -/

/-- What comes after a beacon depends on the lengths alone. -/
theorem OnTime.congr {slots slots' : Mac.Slots} (h : OnTime slots sf)
    (hduration : slots'.superframeDuration = slots.superframeDuration)
    (hcapSlot : slots'.fnlCapSlot = slots.fnlCapSlot)
    (hinterval : slots'.beaconInterval = slots.beaconInterval) : OnTime slots' sf := by
  refine ⟨?_, ?_, ?_⟩
  · rw [hcapSlot, slotDuration, hduration]
    exact h.cfp
  · rw [slotDuration, hduration]
    exact h.activeEnd
  · rw [hinterval]
    exact h.inactiveEnd

/-- The superframe divides into slots without remainder. -/
theorem symbols_capDuration (h : 16 ∣ superframeDuration) :
    symbols (capDuration superframeDuration fnlCapSlot)
      = (fnlCapSlot + 1) * (symbols superframeDuration / 16) := by
  obtain ⟨k, rfl⟩ := h
  unfold capDuration symbols
  rw [Nat.mul_div_cancel_left k (by decide)]
  push_cast
  rw [show 16000 * (16 * (k : ℤ)) = 16 * (16000 * k) by ring,
    Int.mul_ediv_cancel_left _ (by decide)]
  ring

/-- A superframe is sixteen slots long. -/
theorem symbols_superframeDuration (slots : Mac.Slots) (h : 16 ∣ slots.superframeDuration) :
    symbols slots.superframeDuration = 16 * slotDuration slots := by
  obtain ⟨k, hk⟩ := h
  unfold slotDuration symbols
  omega

/-- The CAP and the CFP make up the superframe. -/
theorem symbols_cfpDuration (h : 16 ∣ superframeDuration) (hcapSlot : fnlCapSlot ≤ 15) :
    symbols (capDuration superframeDuration fnlCapSlot)
        + symbols (cfpDuration superframeDuration fnlCapSlot)
      = symbols superframeDuration := by
  obtain ⟨k, rfl⟩ := h
  rw [← symbols_add]
  unfold capDuration cfpDuration
  rw [Nat.mul_div_cancel_left k (by decide), ← Nat.mul_add,
    show fnlCapSlot + 1 + (15 - fnlCapSlot) = 16 by omega, Nat.mul_comm]

theorem contiguous_modify (sf sf' : Superframe) (older : List Superframe)
    (hbeacon : sf'.beacon = sf.beacon) (h : Contiguous (sf :: older)) :
    Contiguous (sf' :: older) := by
  unfold Contiguous at h ⊢
  cases older with
  | nil => exact isChain_singleton _
  | cons prev older =>
    rw [isChain_cons_cons] at h ⊢
    exact ⟨by rw [hbeacon]; exact h.1, h.2⟩

/-- Between two events of a superframe: the last one was taken out, the next one is not yet
scheduled. -/
structure Open (sf : Superframe) (older : List Superframe) (p : Packet) (s : Mac) : Prop
    extends Base (sf :: older) s where
  none : outgoing s = []
  tx : beaconInTx s = false
  sendBcn : s.slots.sendBcn = false
  slot : s.slots.startOfBcnSlot = sf.beacon
  start : s.slots.beaconStartTxTime = sf.beacon
  sent : sf.sent = some p

variable (hs : Open sf older p s)
include hs

/-- Scheduling the event that is due. -/
theorem inv_post (m : Member) (e : MacEvent) (delay : ℤ) (h : m.mayHold e = true)
    (he : e.isTimeline = true) (hdue : Due s.cfg.macDSMEenabled s.slots sf p e (s.sim.now + delay)) :
    Inv (sf :: older) { s with sim := s.sim.post m e delay h } := by
  refine ⟨{ hs with }, ?_⟩
  refine .running sf older p e (s.sim.now + delay) ?_ hs.tx hs.sendBcn hs.slot hs.start hs.sent hdue
  refine (Sim.eventsOf_post _ _ _ _ _ h).trans ?_
  rw [if_pos he, show s.sim.eventsOf isTimeline = [] from hs.none]
  rfl

theorem inv_schedule (m : Member) (e : MacEvent) (delay : ℤ) (h : m.mayHold e = true)
    (he : e.isTimeline = true) (hdue : Due s.cfg.macDSMEenabled s.slots sf p e (s.sim.now + delay)) :
    Post (s.schedule m e delay h) (Inv (sf :: older)) := by
  unfold schedule
  split
  · trivial
  · exact inv_post hs m e delay h he hdue

/-- No further event: without the DSME the superframe is the last one. -/
theorem Open.inv (hfirst : s.slots.firstCFP = false) (hdsme : ¬ s.cfg.macDSMEenabled = true) :
    Inv (sf :: older) s :=
  ⟨hs.toBase, .idle _ hs.none hs.tx hs.sendBcn hfirst fun _ _ h => absurd h hdsme⟩

omit hs in
/-- The CFP is due at the end of the CAP. -/
theorem due_of_not_first {dsme : Bool} {slots : Mac.Slots} {τ : ℤ} (hfirst : slots.firstCFP = false)
    (hτ : τ = sf.beacon + symbols (capDuration slots.superframeDuration slots.fnlCapSlot)
      + milliSeconds (frameSymbols p.size)) :
    Due dsme slots sf p (.startCFP .outgoing) τ := by
  unfold Due
  dsimp only
  rw [if_neg (by rw [hfirst]; decide)]
  exact hτ

/-- The time from now to the end of the CAP, when the beacon was sent just now. -/
theorem due_startCFP
    (hsent : s.slots.macBeaconTxTime = s.sim.now - milliSeconds (frameSymbols p.size)) :
    s.sim.now + (symbols (capDuration s.out.superframeDuration s.out.fnlCapSlot)
        - s.beaconAirtime)
      = sf.beacon + symbols (capDuration s.out.superframeDuration s.out.fnlCapSlot)
        + milliSeconds (frameSymbols p.size) := by
  have hstart := hs.start
  unfold beaconAirtime
  change s.out.macBeaconTxTime = _ at hsent
  change s.out.beaconStartTxTime = _ at hstart
  omega

theorem inv_startCAP (hdue : Due s.cfg.macDSMEenabled s.slots sf p (.startCAP .outgoing) s.sim.now) :
    Post (s.startCAP .outgoing) (Inv (sf :: older)) := by
  obtain ⟨hfirst, hsent⟩ := hdue
  have htime := due_startCFP hs hsent
  have hopen : Open sf older p { s with
      inc := { s.inc with incSuperframe := false }
      out := { s.out with outSuperframeStatus := .cap } } :=
    ⟨{ hs with }, hs.none, hs.tx,
      hs.sendBcn, hs.slot, hs.start, hs.sent⟩
  unfold Mac.startCAP
  dsimp only
  refine (inv_schedule hopen _ _ _ _ rfl ?_).bind fun t ht => ?_
  · exact due_of_not_first hfirst htime
  · exact inv_of_keeps (keeps_checkQueue t) (by simp) ht

/-- `StartCFP` under CAP reduction, in the place of the CAP. -/
theorem inv_startFirstCFP (hfirst : s.slots.firstCFP = true)
    (hdue : Due s.cfg.macDSMEenabled s.slots sf p (.startCFP .outgoing) s.sim.now) :
    Post (s.startCFP .outgoing) (Inv (sf :: older)) := by
  unfold Due at hdue
  dsimp only at hdue
  rw [if_pos hfirst] at hdue
  have hopen (status : SuperframeStatus) : Open sf older p { s with
      out := { s.out with outSuperframeStatus := status, firstCFP := false } } :=
    ⟨⟨hs.contiguous, fun sf' hsf => (hs.onTime sf' hsf).congr rfl rfl rfl, hs.capSlot,
      hs.superframe, hs.queue⟩, hs.none, hs.tx, hs.sendBcn, hs.slot, hs.start, hs.sent⟩
  unfold Mac.startCFP
  dsimp only
  rw [if_pos hdue.1, if_pos (show s.out.firstCFP = true from hfirst)]
  have htime := due_startCFP hs hdue.2
  exact inv_schedule (hopen _) _ _ _ _ rfl (due_of_not_first rfl htime)

/-- `StartCFP` behind the CAP or behind the first CFP. -/
theorem inv_startCFP (hfirst : s.slots.firstCFP = false)
    (hdue : Due s.cfg.macDSMEenabled s.slots sf p (.startCFP .outgoing) s.sim.now) :
    Post (s.startCFP .outgoing) (Inv ({ sf with cfp := some s.sim.now } :: older)) := by
  unfold Due at hdue
  dsimp only at hdue
  rw [if_neg (by rw [hfirst]; decide)] at hdue
  have hcap := symbols_capDuration _ s.slots.fnlCapSlot hs.superframe
  have hcfp := symbols_cfpDuration _ _ hs.superframe hs.capSlot
  have hopen (status : SuperframeStatus) :
      Open { sf with cfp := some s.sim.now } older p { s with
        out := { s.out with outSuperframeStatus := status } } := by
    refine ⟨⟨contiguous_modify sf _ older rfl hs.contiguous, fun sf' hsf => ?_, hs.capSlot, hs.superframe,
      hs.queue⟩, hs.none, hs.tx, hs.sendBcn, hs.slot, hs.start, hs.sent⟩
    rcases mem_cons.mp hsf with rfl | hsf
    · have hhead := hs.onTime sf mem_cons_self
      refine ⟨fun c hc => ⟨p, hs.sent, fun hsize => ?_⟩, hhead.activeEnd, hhead.inactiveEnd⟩
      obtain rfl := Option.some.inj hc
      rw [hdue, milliSeconds_frameSymbols _ hsize, hcap, Int.add_zero]
      rfl
    · exact hs.onTime sf' (mem_cons_of_mem _ hsf)
  unfold Mac.startCFP
  dsimp only
  split
  · rw [if_neg (by rw [show s.out.firstCFP = false from hfirst]; decide)]
    refine inv_post (hopen _) .cfpEvent (.startRemainingPeriod .outgoing) _ _ rfl ⟨hfirst, ?_⟩
    change s.sim.now + symbols (cfpDuration s.slots.superframeDuration s.slots.fnlCapSlot) = _
    dsimp only
    change _ = sf.beacon + symbols s.slots.superframeDuration + _
    omega
  · rename_i hdsme
    exact (hopen _).inv hfirst hdsme

theorem inv_startRemainingPeriod
    (hdue : Due s.cfg.macDSMEenabled s.slots sf p (.startRemainingPeriod .outgoing) s.sim.now) :
    Post (s.startRemainingPeriod .outgoing)
      (Inv ({ sf with activeEnd := some s.sim.now } :: older)) := by
  obtain ⟨hfirst, hnow⟩ := hdue
  have hslot := symbols_superframeDuration s.slots hs.superframe
  have hopen (status : SuperframeStatus) :
      Open { sf with activeEnd := some s.sim.now } older p { s with
        out := { s.out with outSuperframeStatus := status } } := by
    refine ⟨⟨contiguous_modify sf _ older rfl hs.contiguous, fun sf' hsf => ?_, hs.capSlot, hs.superframe,
      hs.queue⟩, hs.none, hs.tx, hs.sendBcn, hs.slot, hs.start, hs.sent⟩
    rcases mem_cons.mp hsf with rfl | hsf
    · have hhead := hs.onTime sf mem_cons_self
      refine ⟨hhead.cfp, fun a ha => ⟨p, hs.sent, fun hsize => ?_⟩, hhead.inactiveEnd⟩
      obtain rfl := Option.some.inj ha
      rw [hnow, milliSeconds_frameSymbols _ hsize, hslot, Int.add_zero]
      rfl
    · exact hs.onTime sf' (mem_cons_of_mem _ hsf)
  unfold Mac.startRemainingPeriod
  dsimp only
  generalize (if symbols s.out.beaconInterval - (s.sim.now - s.out.startOfBcnSlot) ≥ 1000000000
    then SuperframeStatus.remaining else s.out.outSuperframeStatus) = status
  refine (inv_schedule (hopen status) .beaconEvent
    .sendOneEnhancedBeacon _ _ rfl ⟨hfirst, ?_⟩).bind fun t ht => ?_
  · have hbcn := hs.slot
    change s.out.startOfBcnSlot = _ at hbcn
    change s.sim.now + (symbols s.out.beaconInterval - (s.sim.now - s.out.startOfBcnSlot))
      = sf.beacon + symbols s.out.beaconInterval
    omega
  · have hpurge (delay : ℤ) : Touches [] t (t.scheduleAnonymous .purgeDsmeACT delay) :=
      touches_scheduleAnonymous t _ _ (by simp)
    exact inv_of_touches (hpurge _).post (by simp) ht

omit hs

/-! ## Beacons -/

/-- The superframe before ends with the next beacon. -/
def closeSuperframe (now : ℤ) (log : List Superframe) : List Superframe :=
  log.modifyHead fun sf => { sf with inactiveEnd := some now }

theorem base_closeSuperframe (hs : Base log s)
    (hlast : ∀ sf older, log = sf :: older →
      s.sim.now = sf.beacon + symbols s.slots.beaconInterval) :
    Base (closeSuperframe s.sim.now log) s := by
  cases log with
  | nil => exact hs
  | cons sf older =>
    refine ⟨contiguous_modify sf _ older rfl hs.contiguous, fun sf' hsf => ?_, hs.capSlot,
      hs.superframe, hs.queue⟩
    rcases mem_cons.mp hsf with rfl | hsf
    · have hhead := hs.onTime sf mem_cons_self
      refine ⟨hhead.cfp, hhead.activeEnd, fun e he => ?_⟩
      obtain rfl := Option.some.inj he
      exact hlast sf older rfl
    · exact hs.onTime sf' (mem_cons_of_mem _ hsf)

/-- The next superframe follows without a gap. -/
theorem contiguous_cons (now : ℤ) (log : List Superframe)
    (h : Contiguous (closeSuperframe now log)) :
    Contiguous ({ beacon := now } :: closeSuperframe now log) := by
  cases log with
  | nil => exact isChain_singleton _
  | cons sf older =>
    unfold Contiguous closeSuperframe at h ⊢
    rw [modifyHead_cons, isChain_cons_cons]
    exact ⟨rfl, h⟩

/-- Nothing has come yet after a beacon that has just started. -/
theorem onTime_new (slots : Mac.Slots) (now : ℤ) : OnTime slots { beacon := now } :=
  ⟨by simp, by simp, by simp⟩

theorem inv_sendOneEnhancedBeacon (hs : Base log s) (hnone : outgoing s = [])
    (htx : beaconInTx s = false) (hsend : s.slots.sendBcn = false)
    (hfirst : s.slots.firstCFP = false)
    (hlast : ∀ sf older, log = sf :: older →
      s.sim.now = sf.beacon + symbols s.slots.beaconInterval) :
    Post s.sendOneEnhancedBeacon (Inv (if s.role.macPanId = 0xffff then
      closeSuperframe s.sim.now log
      else { beacon := s.sim.now } :: closeSuperframe s.sim.now log)) := by
  have hclosed := base_closeSuperframe hs hlast
  have hreported (t : Mac) (p : Packet) (n : ℕ) : views.Keeps [.beacons] t
      ((t.emit (.enhancedBeacon p n)).changeMacState .macSending) :=
    Keeps.trans (keeps_emit t _ (by simp)) (keeps_changeMacState _ _ (by decide))
  unfold Mac.sendOneEnhancedBeacon
  split
  · trivial
  · split
    · trivial
    · split
      · refine ⟨hclosed, .idle _ hnone htx hsend hfirst fun sf hsf _ hgoes => ?_⟩
        -- the superframe has just ended
        cases log with
        | nil => cases hsf
        | cons sf' older =>
          cases hsf
          cases hgoes.2
      · refine (touches_startBeaconPeriod _).post.bind fun t ht => ?_
        obtain ⟨hslots, hout⟩ := ht .timeline (by simp)
        have hnow : t.sim.now = s.sim.now := ht .clock (by simp)
        have htransmits : Mac.Transmits _ t := ht .transmit (by simp)
        have hstarted : ({ t with
            out := { t.out with beaconStartTxTime := t.sim.now } } : Mac).slots
              = { s.slots with startOfBcnSlot := s.sim.now, beaconStartTxTime := s.sim.now } := by
          show { t.slots with beaconStartTxTime := t.sim.now } = _
          rw [hslots, hnow]
          rfl
        refine inv_of_touches (touches_plmeSetTRXStateRequest _).post (by simp) ?_
        refine inv_of_keeps (hreported _ _ _) (by simp) ?_
        refine ⟨⟨contiguous_cons _ _ hclosed.contiguous, fun sf hsf => ?_, ?_, ?_, ?_⟩, ?_⟩
        · rw [hstarted]
          rcases mem_cons.mp hsf with rfl | hsf
          · exact onTime_new _ _
          · exact (hclosed.onTime sf hsf).congr rfl rfl rfl
        · rw [hstarted]
          exact hs.capSlot
        · rw [hstarted]
          exact hs.superframe
        · show ∀ el ∈ t.tx.txQueue, _
          rw [htransmits.txQueue]
          exact hs.queue
        · refine .sending _ _ (hout.trans hnone) ?_ ?_ ?_ ?_ rfl rfl rfl
          · rw [hstarted]
            exact hsend
          · rw [hstarted]
            exact hfirst
          · rw [hstarted]
          · rw [hstarted]

/-! ## The end of a transmission -/

theorem inv_removeFirstTxQElement (log : List Superframe) (s : Mac) (hs : Inv log s) :
    Post s.removeFirstTxQElement (Inv log) := by
  unfold removeFirstTxQElement
  split
  · trivial
  · rename_i el rest hqueue
    have htraced : views.Keeps [] s (s.traceSentPkt el.txQPkt) := keeps_traceSentPkt s _
    refine inv_congr (s := s.traceSentPkt el.txQPkt) rfl rfl rfl (fun _ => rfl)
      (fun el' hel => ?_) (inv_of_keeps htraced (by simp) hs)
    have htransmits : s.Transmits (s.traceSentPkt el.txQPkt) := htraced .transmit (by simp)
    rw [htransmits.txQueue, hqueue]
    exact .inl (mem_cons_of_mem _ hel)

/-- A frame of another kind. -/
theorem inv_frameSent_of_not_beacon (log : List Superframe) (s : Mac) (p : Packet)
    (hbeacon : p.hdr.isBeacon = false) (hs : Inv log s) : Post (s.frameSent p) (Inv log) := by
  unfold frameSent
  split
  · exact inv_of_keeps ((keeps_groupAckSent s p).trans (keeps_endPdDataConfirm _ _)) (by simp) hs
  · rw [if_neg (by simp [hbeacon])]
    split
    · exact inv_of_keeps (keeps_ackReqSent s p) (by simp) hs
    · apply wp_of_bind
      refine (inv_of_touches (post_confirmFront s) (by simp) hs).imp
        fun t ht => ?_
      refine (inv_removeFirstTxQElement log t ht).bind fun u hu => ?_
      exact inv_of_keeps (keeps_endPdDataConfirm u _) (by simp) hu

/-- What starts behind a beacon. -/
theorem post_startOutgoingSuperframe (s : Mac) :
    Post s.startOutgoingSuperframe fun t =>
      (t.slots = s.slots ∧ outgoing t = outgoing s ++ [(.startCAP .outgoing, s.sim.now)])
      ∨ (s.cfg.macDSMEenabled = true ∧ t.slots = { s.slots with firstCFP := true }
        ∧ outgoing t = outgoing s ++ [(.startCFP .outgoing, s.sim.now)]) := by
  have hcap : outgoing (s.scheduleNow .capEvent (.startCAP .outgoing) rfl)
      = outgoing s ++ [(.startCAP .outgoing, s.sim.now)] := by
    refine (Sim.eventsOf_post s.sim _ _ _ _ rfl).trans ?_
    rw [if_pos (by rfl), Int.add_zero]
    rfl
  have hcfp : outgoing (s.scheduleNow .cfpEvent (.startCFP .outgoing) rfl)
      = outgoing s ++ [(.startCFP .outgoing, s.sim.now)] := by
    refine (Sim.eventsOf_post s.sim _ _ _ _ rfl).trans ?_
    rw [if_pos (by rfl), Int.add_zero]
    rfl
  unfold startOutgoingSuperframe
  split
  · rename_i hreduced
    refine post_bind fun r _ => ?_
    split
    · exact .inl ⟨rfl, hcap⟩
    · exact .inr ⟨(Bool.and_eq_true_iff.mp hreduced).1, rfl, hcfp⟩
  · exact .inl ⟨rfl, hcap⟩

/-- The superframe whose beacon is in transmission has no CFP yet, so it is not late. -/
theorem base_sent (hs : Base (sf :: older) s) (hcfp : sf.cfp = none) (hactive : sf.activeEnd = none)
    (p : Packet) (slotted : Bool) : Base ({ sf with sent := some p, slotted } :: older) s := by
  refine ⟨contiguous_modify sf _ older rfl hs.contiguous, fun sf' hsf => ?_, hs.capSlot,
    hs.superframe, hs.queue⟩
  rcases mem_cons.mp hsf with rfl | hsf
  · refine ⟨fun c hc => ?_, fun a ha => ?_, (hs.onTime sf mem_cons_self).inactiveEnd⟩
    · exact absurd (hcfp.symm.trans hc) (by simp)
    · exact absurd (hactive.symm.trans ha) (by simp)
  · exact hs.onTime sf' (mem_cons_of_mem _ hsf)

/-- The end of a beacon: the airtime is noted, and the CAP or the first CFP begins. -/
theorem post_beaconSent (s : Mac) (p : Packet) (hnone : outgoing s = []) :
    Post (s.beaconSent p) fun t => t.cfg = s.cfg ∧ t.tx.txQueue = s.tx.txQueue
      ∧ ∃ e firstCFP, outgoing t = [(e, s.sim.now)]
        ∧ t.slots = { s.slots with
            macBeaconTxTime := s.sim.now - milliSeconds (frameSymbols p.size), firstCFP }
        ∧ (e = .startCAP .outgoing ∧ firstCFP = s.slots.firstCFP
          ∨ e = .startCFP .outgoing ∧ firstCFP = true ∧ s.cfg.macDSMEenabled = true) := by
  let u : Mac := { s with out := { s.out with
    macBeaconTxTime := s.sim.now - milliSeconds (frameSymbols p.size) } }
  unfold beaconSent
  apply wp_of_bind
  refine Wp.imp (((keeps_purgeDsmeACT u).wp (touches_scheduleGtsInMac _ false).post)) fun t ht => ?_
  obtain ⟨hslots, hout⟩ := ht .timeline (by simp)
  refine (wp_bind _ _ _ _).mpr (((post_startOutgoingSuperframe t).and
    (touches_startOutgoingSuperframe t).post).mono (fun v hv => ?_) fun _ _ => trivial)
  obtain ⟨hnext, hv⟩ := hv
  have hconfirm : views.Keeps [] v (v.confirmStart true) := keeps_confirmStart v true
  obtain ⟨hslots', hout'⟩ := hconfirm .timeline (by simp)
  have hnow : t.sim.now = s.sim.now := ht .clock (by simp)
  have hcfg : t.cfg = s.cfg := ht .config (by simp)
  have hnothing : outgoing t = [] := hout.trans hnone
  have htransmits : u.Transmits t := ht .transmit (by simp)
  have hqueue : t.tx.txQueue = s.tx.txQueue := htransmits.txQueue
  have hqueue' : v.tx.txQueue = t.tx.txQueue := Mac.Transmits.txQueue (hv .transmit (by simp))
  have hqueue'' : (v.confirmStart true).tx.txQueue = v.tx.txQueue :=
    Mac.Transmits.txQueue (hconfirm .transmit (by simp))
  refine ⟨(hconfirm .config (by simp)).trans ((hv .config (by simp)).trans hcfg),
    hqueue''.trans (hqueue'.trans hqueue), ?_⟩
  rcases hnext with ⟨hsame, hcap⟩ | ⟨hdsme, hfirst, hcfp⟩
  · rw [hnothing, hnow] at hcap
    refine ⟨.startCAP .outgoing, s.slots.firstCFP, hout'.trans hcap, ?_, .inl ⟨rfl, rfl⟩⟩
    exact hslots'.trans (hsame.trans hslots)
  · rw [hnothing, hnow] at hcfp
    refine ⟨.startCFP .outgoing, true, hout'.trans hcfp, ?_,
      .inr ⟨rfl, rfl, by rw [← hcfg]; exact hdsme⟩⟩
    refine hslots'.trans (hfirst.trans ?_)
    rw [hslots]
    rfl

/-- A beacon starts the superframe it was sent for. -/
theorem inv_beaconSent (hs : Base (sf :: older) s) (hnone : outgoing s = [])
    (hsend : s.slots.sendBcn = false) (hfirst : s.slots.firstCFP = false)
    (hslot : s.slots.startOfBcnSlot = sf.beacon) (hstart : s.slots.beaconStartTxTime = sf.beacon)
    (hsent : sf.sent = some p) (n : ℕ) :
    Post (s.beaconSent p) fun t =>
      Inv (sf :: older) ((t.setTxPkt none).endPdDataConfirm n) := by
  refine (post_beaconSent s p hnone).imp fun t ht => ?_
  obtain ⟨hcfg, hqueue, e, firstCFP, hnext, hslots, hkind⟩ := ht
  refine inv_of_keeps (keeps_endPdDataConfirm _ n) (by simp) ?_
  have hsame : (t.setTxPkt none).slots = t.slots := rfl
  refine ⟨⟨hs.contiguous, fun sf' hsf => ?_, ?_, ?_, ?_⟩, ?_⟩
  · rw [hsame, hslots]
    exact (hs.onTime sf' hsf).congr rfl rfl rfl
  · rw [hsame, hslots]
    exact hs.capSlot
  · rw [hsame, hslots]
    exact hs.superframe
  · show ∀ el ∈ t.tx.txQueue, _
    rw [hqueue]
    exact hs.queue
  · refine .running sf older p e s.sim.now hnext rfl ?_ ?_ ?_ hsent ?_
    · rw [hsame, hslots]
      exact hsend
    · rw [hsame, hslots]
      exact hslot
    · rw [hsame, hslots]
      exact hstart
    · rw [hsame, hslots, show (t.setTxPkt none).cfg = s.cfg from hcfg]
      rcases hkind with ⟨rfl, rfl⟩ | ⟨rfl, rfl, hdsme⟩
      · exact ⟨hfirst, rfl⟩
      · exact ⟨hdsme, rfl⟩

/-- The end of a transmission keeps the invariant; only a beacon that was sent is noted. -/
theorem inv_endTx (log : List Superframe) (s : Mac) (hs : Inv log s) :
    Post s.endTx (Inv (match s.tx.txPkt, s.phy.endTx with
      | some p, some .phySuccess =>
        if p.hdr.isBeacon then
          log.modifyHead fun sf => { sf with sent := some p, slotted := s.csma.isSlotted }
        else log
      | _, _ => log)) := by
  unfold Mac.endTx
  cases hend : s.phy.endTx with
  | none =>
    cases htx : s.tx.txPkt with
    | none => exact hs
    | some p => exact hs
  | some status =>
    dsimp only
    by_cases hstatus : status = .phySuccess
    · subst hstatus
      unfold pdDataConfirm
      split
      · trivial
      · cases htx : s.tx.txPkt with
        | none => trivial
        | some p =>
          dsimp only
          rw [if_pos rfl]
          have hnoted : Inv log (s.emit (.pdDataSuccess p)) :=
            inv_congr (s := s) rfl rfl rfl id (fun _ hel => .inl hel) hs
          cases hbeacon : p.hdr.isBeacon with
          | false =>
            rw [if_neg (by decide)]
            exact inv_frameSent_of_not_beacon log _ p hbeacon hnoted
          | true =>
            rw [if_pos rfl]
            have hintx : beaconInTx s = true := by
              unfold beaconInTx
              rw [htx]
              exact hbeacon
            cases hs.phase with
            | idle _ _ h _ _ _ => rw [hintx] at h; cases h
            | awaiting _ h _ _ => rw [hintx] at h; cases h
            | beginning _ _ h _ _ => rw [hintx] at h; cases h
            | running _ _ _ _ _ _ h _ _ _ _ _ => rw [hintx] at h; cases h
            | sending sf older hnone hsend hfirst hslot hstart hcfp hactive _ =>
              have hbase := base_sent hnoted.toBase hcfp hactive p s.csma.isSlotted
              unfold frameSent
              rw [if_neg (by simp [(frmType_of_isBeacon hbeacon).2.2]), if_pos hbeacon]
              split
              · exact (wp_bind _ _ _ _).mpr
                  (inv_beaconSent hbase hnone hsend hfirst hslot hstart rfl _)
              · rename_i hmode
                refine inv_of_keeps (keeps_beaconEnd _ p) (by simp) ⟨hbase, ?_⟩
                exact .sending _ older hnone hsend hfirst hslot hstart hcfp hactive
                  (Bool.eq_false_iff.mpr hmode)
    · have hlog : (match s.tx.txPkt, some status with
          | some p, some .phySuccess =>
            if p.hdr.isBeacon then
              log.modifyHead fun sf => { sf with sent := some p, slotted := s.csma.isSlotted }
            else log
          | _, _ => log) = log := by
        split
        · rename_i h
          exact absurd (Option.some.inj h) hstatus
        · rfl
      rw [hlog]
      exact inv_of_touches (touches_pdDataConfirm_failure s status hstatus).post (by simp) hs

/-! ## Receiving -/

/-- The first beacon of a coordinator that waits for its parent is the only event. -/
theorem inv_scheduleFirstBeacon (log : List Superframe) (s : Mac) (hs : Inv log s) :
    Post s.scheduleFirstBeacon (Inv log) := by
  unfold scheduleFirstBeacon
  split
  · rename_i hready
    have hready : s.slots.sendBcn = true := hready.2.2.2.2
    have hidle (delay : ℤ) :
        Touches [] s (s.schedule .setMacState (.setLrWpanMacState .macIdle) delay rfl) :=
      touches_schedule s _ _ _ _ (by simp)
    cases hs.phase with
    | idle _ _ _ hsend _ _ => rw [hready] at hsend; cases hsend
    | beginning _ _ _ hsend _ => rw [hready] at hsend; cases hsend
    | sending _ _ _ hsend _ _ _ _ _ _ => rw [hready] at hsend; cases hsend
    | running _ _ _ _ _ _ _ hsend _ _ _ _ => rw [hready] at hsend; cases hsend
    | awaiting hnone htx _ hfirst =>
      refine (hidle _).post.bind fun t ht => ?_
      obtain ⟨hslots, hout⟩ := ht .timeline (by simp)
      have htx' := beaconInTx_of_transmits (ht .transmit (by simp)) hs.queue htx
      have hbase := (inv_of_keeps ht (by simp) hs).toBase
      apply wp_of_bind
      unfold schedule
      split
      · trivial
      · refine ⟨⟨hbase.contiguous, by simp, hbase.capSlot, hbase.superframe, hbase.queue⟩, ?_⟩
        have hbegin := Sim.eventsOf_post t.sim isTimeline .beaconEvent
          .sendOneEnhancedBeacon (symbols (s.inc.incomingSuperframeDuration
            * s.cfg.choosedSDIndexToSendBcn) - (s.sim.now - s.inc.startOfBcnSlotOfSyncParent)) rfl
        rw [show t.sim.eventsOf isTimeline = [] from hout.trans hnone, if_pos (by rfl)]
          at hbegin
        exact .beginning _ hbegin htx' rfl ((congrArg Mac.Slots.firstCFP hslots).trans hfirst)
  · exact hs

theorem inv_receiveOwnPanBeacon (log : List Superframe) (s : Mac) (p : Packet)
    (spec : SuperframeField) (beaconTimeStamp : BitVec 64) (hs : Inv log s) :
    Post (s.receiveOwnPanBeacon p spec beaconTimeStamp) (Inv log) := by
  unfold receiveOwnPanBeacon
  apply wp_of_bind
  have hreceived : Inv log (s.csmaCancel.receiveSuperframe spec) :=
    inv_of_keeps (keeps_receiveSuperframe _ spec) (by simp)
      (inv_of_keeps (keeps_csmaCancel s) (by simp) hs)
  refine (inv_of_touches (touches_startIncomingMultisuperframe _).post (by simp)
    hreceived).imp fun t ht => ?_
  refine (inv_scheduleFirstBeacon log _ ?_).bind fun u hu => ?_
  · exact inv_of_keeps (keeps_noteSyncParent t p _) (by simp) ht
  · apply wp_of_bind
    refine (inv_of_touches (touches_scheduleGtsOnBeacon _ p).post (by simp)
      (inv_of_keeps (keeps_purgeDsmeACT u) (by simp) hu)).imp fun v hv => ?_
    exact inv_of_touches (touches_startIncomingSuperframe v).post (by simp) hv

theorem inv_receiveBeacon (log : List Superframe) (s : Mac) (p : Packet) (hs : Inv log s) :
    Post (s.receiveBeacon p) fun r => Inv log r.1 := by
  have hnotify (t : Mac) (sduLength : ℕ) (ht : Inv log t) :
      Inv log (t.notifyBeacon p sduLength) :=
    inv_of_keeps (keeps_notifyBeacon t p sduLength) (by simp) ht
  unfold receiveBeacon
  split
  · rename_i spec ie sduLength _
    refine (wp_bind _ _ _ _).mpr ((wp_readBeacon (s.noteBeacon p) p spec ie).mono ?_
      fun _ _ => trivial)
    rintro ⟨t, spec', beaconTimeStamp⟩ ht
    have hread : Inv log t := inv_of_keeps ht (by simp)
      (inv_of_keeps (keeps_noteBeacon s p) (by simp) hs)
    dsimp only
    split
    · apply wp_of_bind
      refine (inv_receiveOwnPanBeacon log t p spec' beaconTimeStamp hread).imp fun u hu => ?_
      exact hnotify u _ hu
    · split
      · exact hread
      · exact hnotify t _ hread
  · trivial

theorem inv_pdDataIndication (log : List Superframe) (s : Mac) (p : Packet) (fcsOk : Bool)
    (hs : Inv log s) : Post (s.pdDataIndication p fcsOk) (Inv log) := by
  cases hbeacon : p.hdr.isBeacon with
  | true =>
    exact post_pdDataIndication_of_isBeacon s fcsOk _ hbeacon hs
      fun _ _ => inv_receiveBeacon log s p hs
  | false =>
    have hhilow : Inv log (s.acceptAllHilow p) :=
      inv_of_keeps (keeps_acceptAllHilow s p) (by simp) hs
    unfold pdDataIndication
    split
    · trivial
    · split
      · split
        · exact inv_of_touches (touches_receiveFrame_of_not_beacon _ p hbeacon).post (by simp)
            hhilow
        · exact hhilow
      · exact hs

/-! ## Starting a PAN -/

/-- No superframe is going on, and none is to come. -/
structure NoSuperframe (s : Mac) : Prop where
  none : outgoing s = []
  tx : beaconInTx s = false
  sendBcn : s.slots.sendBcn = false

theorem Phase.firstCFP (h : Phase s log) (hs : NoSuperframe s) :
    s.slots.firstCFP = false := by
  cases h with
  | idle _ _ _ _ hfirst _ => exact hfirst
  | awaiting _ _ _ hfirst => exact hfirst
  | beginning _ _ _ _ hfirst => exact hfirst
  | sending _ _ _ _ hfirst _ _ _ _ _ => exact hfirst
  | running _ _ _ _ _ hnext _ _ _ _ _ _ =>
    rw [hs.none] at hnext
    cases hnext

/-- Cancelling schedules nothing. -/
theorem eventsOf_cancel_eq_nil (sim : Sim) (m : Member) (p : MacEvent → Bool)
    (h : sim.eventsOf p = []) : (sim.cancel m).eventsOf p = [] := by
  unfold Sim.eventsOf Sim.timeline Sim.cancel at *
  rw [filter_eq_nil_iff] at h ⊢
  intro x hx
  obtain ⟨e, he, rfl⟩ := mem_map.mp hx
  exact h _ (mem_map.mpr ⟨e, (mem_filter.mp he).1, rfl⟩)

/-- A PAN without beacons has no outgoing superframes. -/
theorem post_startNonBeacon (s : Mac) (hnone : outgoing s = []) :
    Post s.startNonBeacon fun t => outgoing t = []
      ∧ t.slots = { s.slots with fnlCapSlot := 15, beaconInterval := 0 } := by
  let t : Mac := csmaCancel { s with
    out := { s.out with macSuperframeOrder := 15, fnlCapSlot := 15, beaconInterval := 0 } }
  let u : Mac := ((((t.cancel .capEvent).cancel .cfpEvent).cancel .incCapEvent).cancel
    .incCfpEvent).cancel .trackingEvent
  have hcancelled : outgoing u = [] := by
    have hcsma : views.Keeps [.contention] _ t := keeps_csmaCancel _
    have ht : t.sim.eventsOf isTimeline = [] :=
      (hcsma .timeline (by simp)).2.trans hnone
    have hcap := eventsOf_cancel_eq_nil t.sim .capEvent _ ht
    have hcfp := eventsOf_cancel_eq_nil _ .cfpEvent _ hcap
    have hinc := eventsOf_cancel_eq_nil _ .incCapEvent _ hcfp
    exact eventsOf_cancel_eq_nil _ .trackingEvent _
      (eventsOf_cancel_eq_nil _ .incCfpEvent _ hinc)
  unfold startNonBeacon
  refine (touches_of_keeps (keeps_confirmStart { u with csma := { u.csma with isSlotted := false } }
    true) (touches_plmeSetTRXStateRequest _)).post.imp fun v hv => ?_
  obtain ⟨hslots, hout⟩ := hv .timeline (by simp)
  exact ⟨hout.trans hcancelled, hslots⟩

/-- A beacon that is not in transmission does not get there by the start of a PAN. -/
theorem txs_of_transmits {s t : Mac} (h : s.Transmits t) (hs : Inv log s)
    (htx : beaconInTx s = false) :
    (∀ el ∈ t.tx.txQueue, el.txQPkt.hdr.isBeacon = false) ∧ beaconInTx t = false :=
  ⟨by rw [h.txQueue]; exact hs.queue, beaconInTx_of_transmits h hs.queue htx⟩

theorem inv_startNonBeacon (log : List Superframe) (s : Mac) (hs : Inv log s)
    (hnone : NoSuperframe s) : Post s.startNonBeacon (Inv []) := by
  refine ((post_startNonBeacon s hnone.none).and (touches_startNonBeacon s).post).mono
    (fun t ht => ?_) fun _ _ => trivial
  obtain ⟨⟨hout, hslots⟩, hkeeps⟩ := ht
  obtain ⟨hqueue, htx⟩ := txs_of_transmits (hkeeps .transmit (by simp)) hs hnone.tx
  refine ⟨⟨isChain_nil, by simp, ?_, ?_, hqueue⟩, .idle [] hout htx ?_ ?_ (by simp)⟩
  · rw [hslots]
  · rw [hslots]
    exact hs.superframe
  · rw [hslots]
    exact hnone.sendBcn
  · rw [hslots]
    exact hs.phase.firstCFP hnone

/-- What a PAN with beacons has in its slots, whoever sends the first beacon. -/
theorem post_startBeacon (s : Mac) (params : MlmeStartRequestParams) (desc : Option PanDescriptor)
    (hnone : outgoing s = []) :
    Post (s.startBeacon params desc) fun t => 16 ∣ t.slots.superframeDuration
      ∧ t.slots.fnlCapSlot = 8 ∧ t.slots.firstCFP = s.slots.firstCFP
      ∧ (outgoing t = [] ∧ t.slots.sendBcn = s.slots.sendBcn
        ∨ outgoing t = [(.sendOneEnhancedBeacon, s.sim.now)]
          ∧ t.slots.sendBcn = s.slots.sendBcn
        ∨ outgoing t = [] ∧ t.slots.sendBcn = true) := by
  let started := s.startSuperframeStructure params desc
  have hdvd : 16 ∣ started.slots.superframeDuration := by
    show 16 ∣ 2 ^ _ * aBaseSuperframeDuration
    exact Dvd.dvd.mul_left (by decide) _
  unfold startBeacon
  refine (post_startDsmeFrom started params desc).bind fun t ht => ?_
  obtain ⟨hsim, -, hslots, -⟩ := ht
  refine (touches_resizeSAB t).post.bind fun u hu => ?_
  obtain ⟨hslots', hout⟩ := hu .timeline (by simp)
  have hnow : u.sim.now = s.sim.now := by
    rw [show u.sim.now = t.sim.now from hu .clock (by simp), hsim]
    rfl
  have hnone' : u.sim.eventsOf isTimeline = [] := by
    rw [hout, hsim]
    exact hnone
  have hu' : 16 ∣ u.slots.superframeDuration ∧ u.slots.fnlCapSlot = 8
      ∧ u.slots.firstCFP = s.slots.firstCFP ∧ u.slots.sendBcn = s.slots.sendBcn := by
    rw [hslots', hslots]
    exact ⟨hdvd, rfl, rfl, rfl⟩
  split
  · refine (touches_scheduleGtsInMac _ false).post.imp fun v hv => ?_
    obtain ⟨hslots'', hout'⟩ := hv .timeline (by simp)
    rw [hslots'', show outgoing v = outgoing u.startBeacons from hout']
    unfold startBeacons
    split
    · have hstart := Sim.eventsOf_post u.sim isTimeline .multisuperframeStartEvent
        (.startMultisuperframe .outgoing) 0 rfl
      rw [hnone', if_neg (by decide)] at hstart
      have hbeacon := Sim.eventsOf_post (u.sim.post .multisuperframeStartEvent
        (.startMultisuperframe .outgoing) 0 rfl) isTimeline .beaconEvent
        .sendOneEnhancedBeacon 0 rfl
      rw [hstart, if_pos (by rfl), Int.add_zero] at hbeacon
      change _ = [(_, u.sim.now)] at hbeacon
      rw [hnow] at hbeacon
      exact ⟨hu'.1, hu'.2.1, hu'.2.2.1, .inr (.inl ⟨hbeacon, hu'.2.2.2⟩)⟩
    · exact ⟨hu'.1, hu'.2.1, hu'.2.2.1, .inr (.inr ⟨hnone', rfl⟩)⟩
  · exact ⟨hu'.1, hu'.2.1, hu'.2.2.1, .inl ⟨hnone', hu'.2.2.2⟩⟩

theorem inv_startBeacon (log : List Superframe) (s : Mac) (params : MlmeStartRequestParams)
    (desc : Option PanDescriptor) (hs : Inv log s) (hnone : NoSuperframe s) :
    Post (s.startBeacon params desc) (Inv []) := by
  refine ((post_startBeacon s params desc hnone.none).and
    (touches_startBeacon s params desc).post).mono (fun t ht => ?_) fun _ _ => trivial
  obtain ⟨⟨hdvd, hcapSlot, hfirst, hstarted⟩, hkeeps⟩ := ht
  obtain ⟨hqueue, htx⟩ := txs_of_transmits (hkeeps .transmit (by simp)) hs hnone.tx
  have hfirst' : t.slots.firstCFP = false := hfirst.trans (hs.phase.firstCFP hnone)
  refine ⟨⟨isChain_nil, by simp, by omega, hdvd, hqueue⟩, ?_⟩
  rcases hstarted with ⟨hout, hsend⟩ | ⟨hout, hsend⟩ | ⟨hout, hsend⟩
  · exact .idle [] hout htx (hsend.trans hnone.sendBcn) hfirst' (by simp)
  · exact .beginning _ hout htx (hsend.trans hnone.sendBcn) hfirst'
  · exact .awaiting hout htx hsend hfirst'

/-- MLME-START when no superframe is going on. -/
theorem inv_mlmeStartRequest (log : List Superframe) (s : Mac) (params : MlmeStartRequestParams)
    (pageOk channelOk : Bool) (hs : Inv log s)
    (hnone : (pageOk && channelOk) = true → NoSuperframe s) :
    Post (s.mlmeStartRequest params pageOk channelOk)
      (Inv (if pageOk && channelOk then [] else log)) := by
  have htaken (t : Mac) (ht : views.Keeps [.panCoor] s t) (h : NoSuperframe s) :
      NoSuperframe t := by
    obtain ⟨hslots, hout⟩ := ht .timeline (by simp)
    refine ⟨hout.trans h.none, ?_, by rw [hslots]; exact h.sendBcn⟩
    exact (txs_of_transmits (ht .transmit (by simp)) hs h.tx).2
  refine post_mlmeStartRequest_role s params pageOk channelOk _ (fun hrefused t ht => ?_)
    (fun haccepted t ht _ _ => ?_) fun haccepted t desc ht _ _ => ?_
  · rw [hrefused]
    exact inv_of_keeps ht (by simp) hs
  · rw [haccepted]
    exact inv_startNonBeacon log t (inv_of_keeps ht (by simp) hs)
      (htaken t ht (hnone haccepted))
  · rw [haccepted]
    exact inv_startBeacon log t params desc (inv_of_keeps ht (by simp) hs)
      (htaken t ht (hnone haccepted))

/-! ## Steps and runs -/

theorem Phase.length_outgoing (h : Phase s log) :
    (outgoing s).length ≤ 1 := by
  cases h with
  | idle _ hnext _ _ _ _ => rw [hnext]; exact Nat.zero_le 1
  | awaiting hnext _ _ _ => rw [hnext]; exact Nat.zero_le 1
  | beginning τ hnext _ _ _ => rw [hnext]; exact Nat.le_refl 1
  | sending _ _ hnext _ _ _ _ _ _ _ => rw [hnext]; exact Nat.zero_le 1
  | running _ _ _ _ _ hnext _ _ _ _ _ _ => rw [hnext]; exact Nat.le_refl 1

/-- An event of the outgoing superframe that is taken out was the only one. -/
theorem outgoing_of_take {sim : Sim} {n : ℕ} (hs : Phase s log)
    (htake : s.sim.take n = some (e, sim)) (he : e.event.isTimeline = true) :
    outgoing s = [(e.event, e.time)] ∧ sim.eventsOf isTimeline = [] := by
  have hperm := Sim.eventsOf_take _ _ n e isTimeline htake
  have hlen := hs.length_outgoing
  rw [if_pos he] at hperm
  have hcount := hperm.length_eq
  unfold outgoing at hlen ⊢
  rw [length_append, length_singleton] at hcount
  have hnil : sim.eventsOf isTimeline = [] := length_eq_zero_iff.mp (by omega)
  rw [hnil, append_nil] at hperm
  exact ⟨perm_singleton.mp hperm, hnil⟩

/-- The event of a superframe is the one that is due. -/
theorem open_of_take {sim : Sim} {n : ℕ} (hs : Inv log s) (htake : s.sim.take n = some (e, sim))
    (he : e.event.isTimeline = true) (hbeacon : e.event ≠ .sendOneEnhancedBeacon ∨ log ≠ []) :
    ∃ sf older p, log = sf :: older ∧ Open sf older p { s with sim }
      ∧ Due s.cfg.macDSMEenabled s.slots sf p e.event sim.now := by
  obtain ⟨hout, hnil⟩ := outgoing_of_take hs.phase htake he
  rw [Sim.now_of_take htake]
  cases hs.phase with
  | idle _ hnext _ _ _ _ => rw [hnext] at hout; cases hout
  | awaiting hnext _ _ _ => rw [hnext] at hout; cases hout
  | sending _ _ hnext _ _ _ _ _ _ _ => rw [hnext] at hout; cases hout
  | beginning τ hnext _ _ _ =>
    rw [hnext] at hout
    obtain ⟨hevent, -⟩ := Prod.mk.inj (singleton_inj.mp hout)
    rcases hbeacon with hbeacon | hbeacon
    · exact absurd hevent.symm hbeacon
    · exact absurd rfl hbeacon
  | running sf older p e' τ hnext htx hsend hslot hstart hsent hdue =>
    rw [hnext] at hout
    obtain ⟨rfl, rfl⟩ := Prod.mk.inj (singleton_inj.mp hout)
    refine ⟨sf, older, p, rfl, ?_, hdue⟩
    exact ⟨{ hs with }, hnil, htx, hsend,
      hslot, hstart, hsent⟩

/-- The beacon is due, the first one or the one behind an inactive period. -/
theorem inv_fireBeacon {sim : Sim} {n : ℕ} (hs : Inv log s) (htake : s.sim.take n = some (e, sim))
    (he : e.event = .sendOneEnhancedBeacon) :
    Post (sendOneEnhancedBeacon { s with sim }) (Inv (if s.role.macPanId = 0xffff then
      closeSuperframe e.time log else { beacon := e.time } :: closeSuperframe e.time log)) := by
  have htimeline : e.event.isTimeline = true := by
    rw [he]
    rfl
  obtain ⟨hout, hnil⟩ := outgoing_of_take hs.phase htake htimeline
  have hnow := Sim.now_of_take htake
  have hbase : Base log { s with sim } :=
    { hs with }
  rw [← hnow]
  cases log with
  | nil =>
    cases hs.phase with
    | idle _ hnext _ _ _ _ => rw [hnext] at hout; cases hout
    | awaiting hnext _ _ _ => rw [hnext] at hout; cases hout
    | beginning τ hnext htx hsend hfirst =>
      exact inv_sendOneEnhancedBeacon hbase hnil htx hsend hfirst (by simp)
  | cons sf older =>
    obtain ⟨sf', older', p, hlog, hopen, hdue⟩ :=
      open_of_take hs htake htimeline (.inr (cons_ne_nil _ _))
    obtain ⟨rfl, rfl⟩ := List.cons.inj hlog
    rw [he] at hdue
    refine inv_sendOneEnhancedBeacon hbase hnil hopen.tx hopen.sendBcn hdue.1 ?_
    intro sf' older' h
    obtain ⟨rfl, rfl⟩ := List.cons.inj h
    exact hdue.2

/-- The events that no superframe depends on. -/
theorem MacEvent.footprint_of_not_timeline (e : MacEvent) (he : e.isTimeline = false)
    (hack : e ≠ .sendLegacyGroupAck ∧ e ≠ .sendEnhancedGroupAck) (htx : e ≠ .endTx) :
    View.timeline ∉ .clock :: e.footprint ∧ View.transmit ∉ .clock :: e.footprint := by
  cases e with
  | setLrWpanMacState macState => cases macState <;> simp [footprint]
  | startCAP t =>
    cases t with
    | outgoing => cases he
    | incoming => simp [footprint, SuperframeType.views]
  | startCFP t =>
    cases t with
    | outgoing => cases he
    | incoming => simp [footprint, SuperframeType.views]
  | startRemainingPeriod t =>
    cases t with
    | outgoing => cases he
    | incoming => simp [footprint, SuperframeType.views]
  | sendOneEnhancedBeacon => cases he
  | sendLegacyGroupAck => exact absurd rfl hack.1
  | sendEnhancedGroupAck => exact absurd rfl hack.2
  | endTx => exact absurd rfl htx
  | _ => simp [footprint]

/-- An event keeps the invariant. -/
theorem inv_fire (log : List Superframe) (s : Mac) (i : Input) (n : ℕ) (sim : Sim) (e : Scheduled)
    (htake : s.sim.take n = some (e, sim)) (hphy : s.phy = i.answers) (hs : Inv log s) :
    Post (s.fire n) (Inv (note log s i e)) := by
  have hnow := Sim.now_of_take htake
  -- without an event of the outgoing superframe, the superframes go on as before
  have hquiet (hp : e.event.isTimeline = false) : Inv log { s with sim } :=
    inv_congr (s := s) rfl (Sim.eventsOf_take_of_not s.sim sim n e _ htake hp) rfl id
      (fun _ hel => .inl hel) hs
  by_cases htimeline : e.event.isTimeline = true
  · have hopen := open_of_take hs htake htimeline
    have hbeacon := inv_fireBeacon hs htake
    unfold fire note
    rw [htake]
    dsimp only
    cases he : e.event with
    | startCAP t =>
      rw [he] at hopen htimeline
      cases t with
      | incoming => cases htimeline
      | outgoing =>
        obtain ⟨sf, older, p, rfl, hopen, hdue⟩ := hopen (.inl (by simp))
        exact inv_startCAP hopen hdue
    | startCFP t =>
      rw [he] at hopen htimeline
      cases t with
      | incoming => cases htimeline
      | outgoing =>
        obtain ⟨sf, older, p, rfl, hopen, hdue⟩ := hopen (.inl (by simp))
        dsimp only
        split
        · rename_i hfirst
          exact inv_startFirstCFP hopen hfirst hdue
        · rename_i hfirst
          rw [← hnow]
          exact inv_startCFP hopen (Bool.eq_false_iff.mpr hfirst) hdue
    | startRemainingPeriod t =>
      rw [he] at hopen htimeline
      cases t with
      | incoming => cases htimeline
      | outgoing =>
        obtain ⟨sf, older, p, rfl, hopen, hdue⟩ := hopen (.inl (by simp))
        rw [← hnow]
        exact inv_startRemainingPeriod hopen hdue
    | sendOneEnhancedBeacon => exact hbeacon he
    | _ =>
      rw [he] at htimeline
      cases htimeline
  · have htimeline : e.event.isTimeline = false := by simpa using htimeline
    have hs' := hquiet htimeline
    by_cases hown : e.event = .sendLegacyGroupAck ∨ e.event = .sendEnhancedGroupAck
      ∨ e.event = .endTx
    · unfold fire note
      rw [htake]
      dsimp only
      rcases hown with he | he | he
      · rw [he]
        exact inv_sendGroupAck log _ _ _ _ hs'
      · rw [he]
        exact inv_sendGroupAck log _ _ _ _ hs'
      · rw [he, ← hphy]
        exact inv_endTx log _ hs'
    · simp only [not_or] at hown
      obtain ⟨hlegacy, henhanced, htx⟩ := hown
      obtain ⟨hview, htransmit⟩ :=
        MacEvent.footprint_of_not_timeline e.event htimeline ⟨hlegacy, henhanced⟩ htx
      have hlog : note log s i e = log := by
        unfold note
        split
        · rename_i he
          rw [he] at htimeline
          cases htimeline
        · rename_i he
          exact absurd he htx
        · rename_i he
          rw [he] at htimeline
          cases htimeline
        · rename_i he
          rw [he] at htimeline
          cases htimeline
        · rfl
      rw [hlog]
      refine (post_fire s sim n e htake).imp fun t ht => ?_
      refine inv_of_keeps ht ?_ hs
      simp only [forall_mem_cons]
      exact ⟨hview, htransmit, of_mem_footprint, nofun⟩

/-- The structure is started once: a further MLME-START comes only when no outgoing superframe
is going on. -/
def StartsQuiet (s : Mac) (i : Input) : Prop :=
  match i.action with
  | .mlmeStartRequest _ true true => NoSuperframe s
  | _ => True

theorem inv_step (log : List Superframe) (s : Mac) (i : Input) (hs : Inv log s)
    (hi : StartsQuiet s i) : Post (step s i) fun t => Inv (record log s i t) t := by
  obtain ⟨a, answers⟩ := i
  have hs' : Inv log { s with phy := answers } :=
    inv_congr (s := s) rfl rfl rfl id (fun _ hel => .inl hel) hs
  unfold step
  cases a with
  | fire n =>
    cases htake : s.sim.take n with
    | none =>
      have hpending : s.sim.pending[n]? = none := Sim.getElem?_of_take_none htake
      unfold record
      dsimp only
      rw [hpending]
      show Post (fire n { s with phy := answers }) (Inv log)
      unfold fire
      rw [show ({ s with phy := answers } : Mac).sim.take n = none from htake]
      exact hs'
    | some r =>
      obtain ⟨e, sim⟩ := r
      unfold record
      dsimp only
      rw [Sim.getElem?_of_take htake]
      exact inv_fire log { s with phy := answers } ⟨.fire n, answers⟩ n sim e htake rfl hs'
  | mcpsDataRequest params => exact inv_mcpsDataRequest log _ params hs'
  | mlmeStartRequest params pageOk channelOk =>
    have hstart := inv_mlmeStartRequest log { s with phy := answers } params pageOk channelOk hs'
    cases pageOk with
    | false => exact hstart (by simp)
    | true =>
      cases channelOk with
      | false => exact hstart (by simp)
      | true =>
        exact hstart fun _ => { hi with }
  | pdDataIndication p fcsOk => exact inv_pdDataIndication log _ p fcsOk hs'
  | _ =>
    refine inv_of_touches (post_act _ _ (by simp)) ?_ hs'
    simp [Action.footprint]

/-- A device that is not started yet. -/
structure Quiet (s : Mac) : Prop extends NoSuperframe s where
  firstCFP : s.out.firstCFP = false
  capSlot : s.out.fnlCapSlot ≤ 15
  superframe : 16 ∣ s.out.superframeDuration
  queue : ∀ el ∈ s.tx.txQueue, el.txQPkt.hdr.isBeacon = false

theorem inv_of_quiet (h : Quiet s) : Inv [] s :=
  ⟨⟨isChain_nil, by simp, h.capSlot, h.superframe, h.queue⟩,
    .idle [] h.none h.tx h.sendBcn h.firstCFP (by simp)⟩

/-- The superframes follow each other at the distance of the beacon interval. -/
theorem beacon_of_contiguous (log : List Superframe) (d : ℤ) (h : Contiguous log)
    (hlate : ∀ sf ∈ log, ∀ e, sf.inactiveEnd = some e → e = sf.beacon + d) (k : ℕ)
    (first sf : Superframe) (hfirst : log.reverse[0]? = some first)
    (hsf : log.reverse[k]? = some sf) : sf.beacon = first.beacon + k * d := by
  induction log generalizing k sf with
  | nil => cases hfirst
  | cons last older ih =>
    rw [reverse_cons] at hfirst hsf
    cases older with
    | nil =>
      cases k with
      | zero =>
        obtain rfl := Option.some.inj (hfirst.symm.trans hsf)
        simp
      | succ k => simp at hsf
    | cons prev older =>
      obtain ⟨hlink, hrest⟩ := isChain_cons_cons.mp h
      have hlate' : ∀ sf ∈ prev :: older, ∀ e, sf.inactiveEnd = some e → e = sf.beacon + d :=
        fun sf hsf => hlate sf (mem_cons_of_mem _ hsf)
      have hpos : 0 < (prev :: older).reverse.length := by simp
      rw [List.getElem?_append_left hpos] at hfirst
      by_cases hk : k < (prev :: older).reverse.length
      · rw [List.getElem?_append_left hk] at hsf
        exact ih hrest hlate' k sf hfirst hsf
      · -- the last superframe follows the one before it
        rw [List.getElem?_append_right (by omega)] at hsf
        have hlast : k = older.length + 1 := by
          obtain ⟨hlt, -⟩ := List.getElem?_eq_some_iff.mp hsf
          simp only [length_reverse, length_cons, length_nil] at hlt hk
          omega
        subst hlast
        have hprev : (prev :: older).reverse[older.length]? = some prev := by
          rw [reverse_cons, List.getElem?_append_right (by simp)]
          simp
        have hbefore := ih hrest hlate' older.length prev hfirst hprev
        have hlast : last = sf := by simpa using hsf
        subst hlast
        have hend := hlate prev (by simp) _ hlink
        rw [hend, hbefore]
        push_cast
        ring

/-- The superframes are regular: the beacons start at multiples of the beacon interval, what
follows them is on time, no gap is left between two superframes, the event to come is at its
time, and behind a beacon that was sent there is one as long as its superframe goes on. -/
structure Regular (log : List Superframe) (s : Mac) : Prop where
  /-- There is no drift. -/
  beacon : ∀ (k : ℕ) (first sf : Superframe), log.reverse[0]? = some first →
    log.reverse[k]? = some sf → sf.beacon = first.beacon + k * symbols s.out.beaconInterval
  onTime : ∀ sf ∈ log, OnTime s.slots sf
  contiguous : Contiguous log
  next : ∀ sf older e τ, log = sf :: older → (e, τ) ∈ outgoing s → ∃ p, sf.sent = some p
    ∧ (p.size ≤ aMaxPhyPacketSize → match e with
      | .startCFP .outgoing => s.out.firstCFP = false →
        τ = sf.beacon + (s.out.fnlCapSlot + 1) * slotDuration s.slots
      | .startRemainingPeriod .outgoing => τ = sf.beacon + 16 * slotDuration s.slots
      | .sendOneEnhancedBeacon => τ = sf.beacon + symbols s.out.beaconInterval
      | _ => True)
  pending : ∀ sf older, log = sf :: older → s.cfg.macDSMEenabled = true → sf.GoesOn →
    ∃ e, outgoing s = [e]

theorem Inv.regular (h : Inv log s) : Regular log s := by
  refine ⟨fun k first sf hfirst hsf => ?_, h.onTime, h.contiguous, fun sf older e τ hlog hmem => ?_,
    fun sf older hlog hdsme hgoes => ?_⟩
  · exact beacon_of_contiguous log _ h.contiguous (fun sf hsf => (h.onTime sf hsf).inactiveEnd) k
      first sf hfirst hsf
  · subst hlog
    cases h.phase with
    | idle _ hnext _ _ _ _ => rw [hnext] at hmem; cases hmem
    | sending _ _ hnext _ _ _ _ _ _ _ => rw [hnext] at hmem; cases hmem
    | running _ _ p e' τ' hnext htx hsend hslot hstart hsent hdue =>
      rw [hnext] at hmem
      obtain ⟨rfl, rfl⟩ := Prod.mk.inj (mem_singleton.mp hmem)
      refine ⟨p, hsent, fun hsize => ?_⟩
      have hairtime := milliSeconds_frameSymbols _ hsize
      unfold Due at hdue
      dsimp only at hdue
      rw [hairtime] at hdue
      split
      · intro hfirst
        rw [if_neg (by rw [show s.slots.firstCFP = false from hfirst]; decide),
          symbols_capDuration _ _ h.superframe, Int.add_zero] at hdue
        exact hdue
      · rw [symbols_superframeDuration _ h.superframe] at hdue
        exact hdue.2.trans (Int.add_zero _)
      · exact hdue.2
      · trivial
  · subst hlog
    cases h.phase with
    | idle _ _ _ _ _ hlast => exact absurd hgoes (hlast sf rfl hdsme)
    | sending _ _ _ _ _ _ _ _ _ hslotted => cases hslotted.symm.trans hgoes.1
    | running _ _ _ _ _ hnext _ _ _ _ _ _ => exact ⟨_, hnext⟩

/-- A test for runs that start one superframe structure at a time. -/
def startsQuietTest (s : Mac) (i : Input) : Bool :=
  match i.action with
  | .mlmeStartRequest _ true true =>
    (outgoing s).isEmpty && !beaconInTx s && !s.slots.sendBcn
  | _ => true

theorem startsQuiet_of_test (s : Mac) (i : Input) (h : startsQuietTest s i = true) :
    StartsQuiet s i := by
  unfold startsQuietTest at h
  unfold StartsQuiet
  split
  · rename_i haction
    rw [haction] at h
    simp only [Bool.and_eq_true, Bool.not_eq_true', List.isEmpty_iff] at h
    exact ⟨h.1.1, h.1.2, h.2⟩
  · trivial

/-- A device that is not started yet. -/
def idleDevice : Mac where
  cfg := { shortAddress := 1, macDSMEenabled := true }

/-- MLME-START for superframes of order 0 in a beacon interval of order 1, and the events up to
the second beacon. -/
def secondBeacon : List Input :=
  [⟨.mlmeStartRequest
      { panId := 7, bcnOrd := 1, sfrmOrd := 0, panCoor := true
        dsmeSuperframeSpec := { multiSuperframeOrder := 0 }
        bcnBitmap := { sdIndex := 0, sdBitmapLen := 1, sdBitmap := [1] } } true true, {}⟩,
    ⟨.fire 0, {}⟩, ⟨.fire 0, { trx := [some .phyTxOn] }⟩, ⟨.fire 2, {}⟩, ⟨.fire 2, {}⟩,
    ⟨.fire 3, {}⟩, ⟨.fire 2, {}⟩, ⟨.fire 2, {}⟩, ⟨.fire 0, {}⟩, ⟨.fire 0, {}⟩, ⟨.fire 0, {}⟩,
    ⟨.fire 0, {}⟩, ⟨.fire 0, {}⟩, ⟨.fire 0, {}⟩, ⟨.fire 0, { trx := [some .phyTxOn] }⟩]

end Ns3Dsme.Timeline
