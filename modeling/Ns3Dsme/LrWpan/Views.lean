/-
# Views of a device

Results about runs of the device look at a small part of its state each.  A `View` is such
a part.  The lemmas at the end say which views a single change of the state leaves alone:
an assignment, a report, an event that is scheduled or cancelled.
-/
import Ns3Dsme.Lib.Footprint
import Ns3Dsme.LrWpan.State

open List Program Program.Views

namespace Ns3Dsme

open MacEvent

/-! ## The views -/

/-- The parts of a device that results about runs look at. -/
inductive View
  | config
  | panCoor
  /-- The simulated time. -/
  | clock
  /-- The GTS that was started last. -/
  | currentGts
  /-- The allocation counter table and the pending starts of GTSs. -/
  | allocation
  /-- The own superframe index and the beacon bitmap. -/
  | ownSlot
  /-- The sequence number of the PAN coordinator's beacons. -/
  | hopping
  /-- The beacons sent so far. -/
  | beacons
  | transmit
  | contention
  /-- The supervision of the coordinator's beacons. -/
  | tracking
  /-- The end of the search for the coordinator's beacon. -/
  | search
  /-- The periods of the outgoing superframe. -/
  | timeline
  /-- The superframe counters. -/
  | counting
  /-- The confirms, and what they are made from. -/
  | confirms
  deriving DecidableEq

/-- The event is a start of a GTS. -/
def MacEvent.isStartGTS : MacEvent → Bool
  | .startGTS _ _ _ _ => true
  | _ => false

/-- The event carries CSMA-CA on. -/
def MacEvent.isCsma : MacEvent → Bool
  | .randomBackoffDelay => true
  | .canProceed => true
  | .requestCCA => true
  | .deferCsmaTimeout => true
  | .endCca => true
  | _ => false

/-- The event is the end of the search for a beacon. -/
def MacEvent.isSearch : MacEvent → Bool
  | .beaconSearchTimeout => true
  | _ => false

/-- The event opens the next period of the outgoing superframe. -/
def MacEvent.isTimeline : MacEvent → Bool
  | .startCAP .outgoing => true
  | .startCFP .outgoing => true
  | .startRemainingPeriod .outgoing => true
  | .sendOneEnhancedBeacon => true
  | _ => false

/-- The event counts superframes. -/
def MacEvent.isCounting : MacEvent → Bool
  | .startSuperframe => true
  | .startMultisuperframe _ => true
  | _ => false

/-- The view that watches whether the event is pending.  The view of the contention is not among
them: it is disturbed only when an event of CSMA-CA is lost. -/
@[simp]
def MacEvent.view : MacEvent → Option View
  | .startGTS _ _ _ _ => some .allocation
  | .beaconSearchTimeout => some .search
  | .startCAP .outgoing => some .timeline
  | .startCFP .outgoing => some .timeline
  | .startRemainingPeriod .outgoing => some .timeline
  | .sendOneEnhancedBeacon => some .timeline
  | .startSuperframe => some .counting
  | .startMultisuperframe _ => some .counting
  | _ => none

/-- The member holds an event that carries CSMA-CA on. -/
def Member.isCsma : Member → Bool
  | .randomBackoffEvent => true
  | .canProceedEvent => true
  | .requestCcaEvent => true
  | .endCapEvent => true
  | .ccaRequest => true
  | _ => false

/-- The views that watch the events a member may hold. -/
def Member.views : Member → List View
  | .gtsSchedulingEvent => [.allocation]
  | .capEvent => [.timeline]
  | .cfpEvent => [.timeline]
  | .incCapEvent => [.timeline]
  | .incCfpEvent => [.timeline]
  | .beaconEvent => [.timeline]
  | .trackingEvent => [.search]
  | .multisuperframeStartEvent => [.counting]
  | .multisuperframeEndEvent => [.counting]
  | .incMultisuperframeStartEvent => [.counting]
  | .startFirstSuperframeEvent => [.counting]
  | .randomBackoffEvent => [.contention]
  | .canProceedEvent => [.contention]
  | .requestCcaEvent => [.contention]
  | .endCapEvent => [.contention]
  | .ccaRequest => [.contention]
  | _ => []

/-- The events of CSMA-CA are held by its own members. -/
theorem Member.mayHold_of_isCsma (m : Member) (e : MacEvent) (hm : m.isCsma = false)
    (he : e.isCsma = true) : m.mayHold e = false := by
  cases e <;> first
    | (cases he; done)
    | (cases m <;> first | rfl | cases hm)

/-- A member holds only events that one of its views watches. -/
theorem Member.view_mem_views (m : Member) (e : MacEvent) (v : View) (h : m.mayHold e = true)
    (hv : e.view = some v) : v ∈ m.views := by
  cases e with
  | startCAP superframeType =>
    cases superframeType <;> cases hv; cases m <;> first | (cases h; done) | decide
  | startCFP superframeType =>
    cases superframeType <;> cases hv; cases m <;> first | (cases h; done) | decide
  | startRemainingPeriod superframeType =>
    cases superframeType <;> cases hv; cases m <;> first | (cases h; done) | decide
  | _ => cases hv <;> cases m <;> first | (cases h; done) | decide

/-- A member that holds an event of CSMA-CA is watched for the contention. -/
theorem Member.contention_mem_views (m : Member) (hm : m.isCsma = true) :
    View.contention ∈ m.views := by
  cases m <;> first | (cases hm; done) | decide

/-- The output is an enhanced beacon. -/
def Output.isBeacon : Output → Bool
  | .enhancedBeacon _ _ => true
  | _ => false

/-- The output is an outcome of CSMA-CA. -/
def Output.isOutcome : Output → Bool
  | .csmaOutcome _ => true
  | _ => false

/-- The output is a stage in the life of a packet that is sent. -/
def Output.isTransmit : Output → Bool
  | .macTxEnqueue _ => true
  | .macTxDequeue _ => true
  | .pdDataRequest _ => true
  | .pdDataSuccess _ => true
  | _ => false

/-- The output reports the loss of the coordinator's beacons. -/
def Output.isSyncLoss : Output → Bool
  | .mlmeSyncLossIndication => true
  | _ => false

/-- The output confirms a data request. -/
def Output.isConfirm : Output → Bool
  | .mcpsDataConfirm _ _ => true
  | _ => false

/-- The view whose log the output belongs to. -/
@[simp]
def Output.view : Output → Option View
  | .enhancedBeacon _ _ => some .beacons
  | .csmaOutcome _ => some .contention
  | .macTxEnqueue _ => some .transmit
  | .macTxDequeue _ => some .transmit
  | .pdDataRequest _ => some .transmit
  | .pdDataSuccess _ => some .transmit
  | .mlmeSyncLossIndication => some .tracking
  | .mcpsDataConfirm _ _ => some .confirms
  | _ => none

namespace Mac

/-- The packet at the front of the transmit queue. -/
def front (s : Mac) : Option Packet := s.tx.txQueue.head?.map TxQueueElement.txQPkt

/-- Packets are only taken from the front of the queue into transmission, given up, or handed
to the PHY. -/
structure Transmits (s s' : Mac) : Prop where
  txQueue : s'.tx.txQueue = s.tx.txQueue
  nextUid : s'.tx.nextUid = s.tx.nextUid
  txPkt : s'.tx.txPkt = none ∨ s'.tx.txPkt = s.tx.txPkt ∨ s'.tx.txPkt = s.front
  log : ∃ ps : List Packet,
    s'.trace.filter Output.isTransmit
        = s.trace.filter Output.isTransmit ++ ps.map Output.pdDataRequest
      ∧ ∀ p ∈ ps, s.tx.txPkt = some p ∨ s.front = some p

theorem Transmits.front_eq {s s' : Mac} (h : s.Transmits s') : s'.front = s.front := by
  unfold Mac.front
  rw [h.txQueue]

theorem Transmits.refl (s : Mac) : s.Transmits s :=
  ⟨rfl, rfl, .inr (.inl rfl), [], by simp, by simp⟩

variable {s t u : Mac}

theorem Transmits.trans (h : s.Transmits t) (h' : t.Transmits u) :
    s.Transmits u := by
  obtain ⟨ps, hps, hmem⟩ := h.log
  obtain ⟨qs, hqs, hmem'⟩ := h'.log
  refine ⟨h'.txQueue.trans h.txQueue, h'.nextUid.trans h.nextUid, ?_, ps ++ qs, ?_, ?_⟩
  · rcases h'.txPkt with hu | hu | hu
    · exact .inl hu
    · rw [hu]
      exact h.txPkt
    · rw [hu, h.front_eq]
      exact .inr (.inr rfl)
  · rw [hqs, hps, map_append, append_assoc]
  · intro p hp
    rcases mem_append.mp hp with hp | hp
    · exact hmem p hp
    · rcases hmem' p hp with ht | ht
      · rcases h.txPkt with hs | hs | hs
        · rw [hs] at ht
          cases ht
        · exact .inl (hs ▸ ht)
        · exact .inr (hs ▸ ht)
      · rw [h.front_eq] at ht
        exact .inr ht

/-- CSMA-CA is neither started nor stopped, and reports nothing. -/
structure Contends (s s' : Mac) : Prop where
  macState : s'.macState = .macCsma → s.macState = .macCsma
  events : s.sim.eventsOf isCsma ⊆ s'.sim.eventsOf isCsma
  ccaRequestRunning : s'.csma.ccaRequestRunning = s.csma.ccaRequestRunning
  outcomes : s'.trace.filter Output.isOutcome = s.trace.filter Output.isOutcome

theorem Contends.refl (s : Mac) : s.Contends s :=
  ⟨id, List.Subset.refl _, rfl, rfl⟩

theorem Contends.trans (h : s.Contends t) (h' : t.Contends u) :
    s.Contends u :=
  ⟨h.macState ∘ h'.macState, List.Subset.trans h.events h'.events,
    h'.ccaRequestRunning.trans h.ccaRequestRunning, h'.outcomes.trans h.outcomes⟩

/-- No beacon is counted as lost, no loss is reported, and a beacon order that is taken over
is one. -/
structure Tracks (s s' : Mac) : Prop where
  numLostBeacons : s'.inc.numLostBeacons = s.inc.numLostBeacons
  beaconTrackingOn : s'.inc.beaconTrackingOn = s.inc.beaconTrackingOn
  losses : s'.trace.filter Output.isSyncLoss = s.trace.filter Output.isSyncLoss
  beaconOrder : s.inc.incomingBeaconOrder < 16 → s'.inc.incomingBeaconOrder < 16

theorem Tracks.refl (s : Mac) : s.Tracks s := ⟨rfl, rfl, rfl, id⟩

theorem Tracks.trans (h : s.Tracks t) (h' : t.Tracks u) : s.Tracks u :=
  ⟨h'.numLostBeacons.trans h.numLostBeacons, h'.beaconTrackingOn.trans h.beaconTrackingOn,
    h'.losses.trans h.losses, h'.beaconOrder ∘ h.beaconOrder⟩

/-- What the outgoing superframe and the next beacon are made from. -/
structure Slots where
  superframeDuration : ℕ
  fnlCapSlot : ℕ
  beaconInterval : ℕ
  startOfBcnSlot : ℤ
  beaconStartTxTime : ℤ
  macBeaconTxTime : ℤ
  firstCFP : Bool
  sendBcn : Bool
  hopping : HoppingDescriptor

def slots (s : Mac) : Slots where
  superframeDuration := s.out.superframeDuration
  fnlCapSlot := s.out.fnlCapSlot
  beaconInterval := s.out.beaconInterval
  startOfBcnSlot := s.out.startOfBcnSlot
  beaconStartTxTime := s.out.beaconStartTxTime
  macBeaconTxTime := s.out.macBeaconTxTime
  firstCFP := s.out.firstCFP
  sendBcn := s.role.sendBcn
  hopping := s.adv.hopping

/-- What the superframes are counted by. -/
structure Superframes where
  count : SuperframeCount
  superframeDuration : ℕ
  multiSuperframeDuration : ℕ
  numOfMultisuperframes : ℕ
  numOfSuperframes : ℕ

def superframes (s : Mac) : Superframes where
  count := s.count
  superframeDuration := s.out.superframeDuration
  multiSuperframeDuration := s.out.multiSuperframeDuration
  numOfMultisuperframes := s.out.numOfMultisuperframes
  numOfSuperframes := s.out.numOfSuperframes

/-- What confirms are made from, apart from the transmit queue. -/
structure Accounts where
  msduHandle : ℕ
  groupAckPktBuffer : List ℕ
  legacyGackGTSIdxBuffer : List ℕ

def accounts (s : Mac) : Accounts where
  msduHandle := s.tx.msduHandle
  groupAckPktBuffer := s.gack.groupAckPktBuffer
  legacyGackGTSIdxBuffer := s.gack.legacyGackGTSIdxBuffer

end Mac

/-- How a step may change the device that leaves a view alone. -/
def View.Same : View → Mac → Mac → Prop
  | .config, s, s' => s'.cfg = s.cfg
  | .panCoor, s, s' => s'.role.panCoor = s.role.panCoor
  | .clock, s, s' => s'.sim.now = s.sim.now
  | .currentGts, s, s' =>
    s'.gts.curGTSSuperframeID = s.gts.curGTSSuperframeID ∧ s'.gts.curGTSIdx = s.gts.curGTSIdx
      ∧ s'.gts.currentGTSIdx = s.gts.currentGTSIdx
  | .allocation, s, s' =>
    s'.gts.macDsmeACT = s.gts.macDsmeACT ∧ s'.gts.nextAlloc = s.gts.nextAlloc
      ∧ s'.sim.eventsOf isStartGTS = s.sim.eventsOf isStartGTS
  | .ownSlot, s, s' =>
    s'.adv.macSDindex = s.adv.macSDindex ∧ s'.adv.macSDBitmap = s.adv.macSDBitmap
  | .hopping, s, s' => s'.adv.macPANCoordinatorBSN = s.adv.macPANCoordinatorBSN
  | .beacons, s, s' => s'.trace.filter Output.isBeacon = s.trace.filter Output.isBeacon
  | .transmit, s, s' => s.Transmits s'
  | .contention, s, s' => s.Contends s'
  | .tracking, s, s' => s.Tracks s'
  | .search, s, s' =>
    s'.sim.held .trackingEvent = s.sim.held .trackingEvent
      ∧ s'.sim.eventsOf isSearch = s.sim.eventsOf isSearch
  | .timeline, s, s' =>
    s'.slots = s.slots
      ∧ s'.sim.eventsOf isTimeline = s.sim.eventsOf isTimeline
  | .counting, s, s' =>
    s'.superframes = s.superframes
      ∧ s'.sim.eventsOf isCounting = s.sim.eventsOf isCounting
  | .confirms, s, s' =>
    s'.accounts = s.accounts
      ∧ s'.trace.filter Output.isConfirm = s.trace.filter Output.isConfirm

/-- The type of what a view looks at. -/
def View.Looked : View → Type
  | .config => Config
  | .panCoor => Bool
  | .clock => ℤ
  | .currentGts => ℕ × ℕ × ℕ
  | .allocation => ActTable × ℕ × List (MacEvent × ℤ)
  | .ownSlot => ℕ × BeaconBitmap
  | .hopping => BitVec 8
  | .beacons => List Output
  | .transmit => List TxQueueElement × ℕ × Option Packet × List Output
  | .contention => LrWpanMacState × List (MacEvent × ℤ) × Bool × List Output
  | .tracking => ℕ × Bool × List Output × ℕ
  | .search => List (MacEvent × ℤ) × List (MacEvent × ℤ)
  | .timeline => Mac.Slots × List (MacEvent × ℤ)
  | .counting => Mac.Superframes × List (MacEvent × ℤ)
  | .confirms => Mac.Accounts × List Output

/-- What a view looks at. -/
def View.look : (v : View) → Mac → v.Looked
  | .config, s => s.cfg
  | .panCoor, s => s.role.panCoor
  | .clock, s => s.sim.now
  | .currentGts, s => (s.gts.curGTSSuperframeID, s.gts.curGTSIdx, s.gts.currentGTSIdx)
  | .allocation, s => (s.gts.macDsmeACT, s.gts.nextAlloc, s.sim.eventsOf isStartGTS)
  | .ownSlot, s => (s.adv.macSDindex, s.adv.macSDBitmap)
  | .hopping, s => s.adv.macPANCoordinatorBSN
  | .beacons, s => s.trace.filter Output.isBeacon
  | .transmit, s => (s.tx.txQueue, s.tx.nextUid, s.tx.txPkt, s.trace.filter Output.isTransmit)
  | .contention, s =>
    (s.macState, s.sim.eventsOf isCsma, s.csma.ccaRequestRunning,
      s.trace.filter Output.isOutcome)
  | .tracking, s =>
    (s.inc.numLostBeacons, s.inc.beaconTrackingOn, s.trace.filter Output.isSyncLoss,
      s.inc.incomingBeaconOrder)
  | .search, s => (s.sim.held .trackingEvent, s.sim.eventsOf isSearch)
  | .timeline, s => (s.slots, s.sim.eventsOf isTimeline)
  | .counting, s => (s.superframes, s.sim.eventsOf isCounting)
  | .confirms, s => (s.accounts, s.trace.filter Output.isConfirm)

/-- A step that changes nothing a view looks at leaves the view alone. -/
theorem View.same_of_look (v : View) {s s' : Mac} (h : v.look s' = v.look s) : v.Same s s' := by
  unfold View.look at h
  cases v with
  | config => exact h
  | panCoor => exact h
  | clock => exact h
  | currentGts => exact (Prod.mk.inj h).imp_right Prod.mk.inj
  | allocation => exact (Prod.mk.inj h).imp_right Prod.mk.inj
  | ownSlot => exact Prod.mk.inj h
  | hopping => exact h
  | beacons => exact h
  | transmit =>
    obtain ⟨hqueue, h⟩ := Prod.mk.inj h
    obtain ⟨huid, h⟩ := Prod.mk.inj h
    obtain ⟨hpkt, hlog⟩ := Prod.mk.inj h
    exact ⟨hqueue, huid, .inr (.inl hpkt), [], by simpa using hlog, by simp⟩
  | contention =>
    obtain ⟨hstate, h⟩ := Prod.mk.inj h
    obtain ⟨hevents, h⟩ := Prod.mk.inj h
    obtain ⟨hrunning, houtcomes⟩ := Prod.mk.inj h
    exact ⟨fun hcsma => hstate.symm.trans hcsma, hevents ▸ List.Subset.refl _, hrunning,
      houtcomes⟩
  | tracking =>
    obtain ⟨hlost, h⟩ := Prod.mk.inj h
    obtain ⟨hon, h⟩ := Prod.mk.inj h
    obtain ⟨hlosses, horder⟩ := Prod.mk.inj h
    exact ⟨hlost, hon, hlosses, fun hlt => lt_of_eq_of_lt horder hlt⟩
  | search => exact Prod.mk.inj h
  | timeline => exact Prod.mk.inj h
  | counting => exact Prod.mk.inj h
  | confirms => exact Prod.mk.inj h

/-- The views of a device. -/
def views : Views View Mac where
  Same := View.Same
  refl := by
    intro v s
    cases v with
    | config => exact rfl
    | panCoor => exact rfl
    | clock => exact rfl
    | currentGts => exact ⟨rfl, rfl, rfl⟩
    | allocation => exact ⟨rfl, rfl, rfl⟩
    | ownSlot => exact ⟨rfl, rfl⟩
    | hopping => exact rfl
    | beacons => exact rfl
    | transmit => exact Mac.Transmits.refl s
    | contention => exact Mac.Contends.refl s
    | tracking => exact Mac.Tracks.refl s
    | search => exact ⟨rfl, rfl⟩
    | timeline => exact ⟨rfl, rfl⟩
    | counting => exact ⟨rfl, rfl⟩
    | confirms => exact ⟨rfl, rfl⟩
  trans := by
    intro v s t u h h'
    cases v with
    | config => exact h'.trans h
    | panCoor => exact h'.trans h
    | clock => exact h'.trans h
    | currentGts => exact ⟨h'.1.trans h.1, h'.2.1.trans h.2.1, h'.2.2.trans h.2.2⟩
    | allocation => exact ⟨h'.1.trans h.1, h'.2.1.trans h.2.1, h'.2.2.trans h.2.2⟩
    | ownSlot => exact ⟨h'.1.trans h.1, h'.2.trans h.2⟩
    | hopping => exact h'.trans h
    | beacons => exact h'.trans h
    | transmit => exact h.trans h'
    | contention => exact h.trans h'
    | tracking => exact h.trans h'
    | search => exact ⟨h'.1.trans h.1, h'.2.trans h.2⟩
    | timeline => exact ⟨h'.1.trans h.1, h'.2.trans h.2⟩
    | counting => exact ⟨h'.1.trans h.1, h'.2.trans h.2⟩
    | confirms => exact ⟨h'.1.trans h.1, h'.2.trans h.2⟩

/-- The handler `x`, run from `s`, disturbs at most the views in `touched`, and never looks at
the front of an empty queue. -/
abbrev Touches (touched : List View) (s : Mac) (x : Exec Mac) : Prop :=
  Wp x (views.Keeps touched s) fun e => e ≠ .emptyQueue

/-- The footprint alone, without the remark on the empty queue. -/
theorem Touches.post {touched : List View} {s : Mac} {x : Exec Mac} (h : Touches touched s x) :
    Post x (views.Keeps touched s) :=
  h.mono (fun _ ht => ht) fun _ _ => trivial

/-! ## Single changes -/

section SingleChanges

variable {touched : List View}

/-- A change that no view outside `touched` looks at. -/
theorem keeps_same {s s' : Mac} (h : ∀ v, v ∉ touched → v.look s' = v.look s) :
    views.Keeps touched s s' :=
  fun v hv => v.same_of_look (h v hv)

/-- The events that a view watches. -/
def View.watches (v : View) (e : MacEvent) : Bool := e.view == some v

variable (s : Mac) (e : MacEvent)

theorem View.watches_allocation : View.allocation.watches e = e.isStartGTS := by
  cases e <;> first | rfl | (rename_i t; cases t <;> rfl)

theorem View.watches_search : View.search.watches e = e.isSearch := by
  cases e <;> first | rfl | (rename_i t; cases t <;> rfl)

theorem View.watches_timeline : View.timeline.watches e = e.isTimeline := by
  cases e <;> first | rfl | (rename_i t; cases t <;> rfl)

theorem View.watches_counting : View.counting.watches e = e.isCounting := by
  cases e <;> first | rfl | (rename_i t; cases t <;> rfl)

/-- A change of the pending events alone. -/
theorem keeps_sim (sim : Sim) (hnow : View.clock ∈ touched ∨ sim.now = s.sim.now)
    (hevents : ∀ v, v ∉ touched → sim.eventsOf v.watches = s.sim.eventsOf v.watches)
    (hheld : View.search ∈ touched ∨ sim.held .trackingEvent = s.sim.held .trackingEvent)
    (hcsma : View.contention ∈ touched
      ∨ s.sim.eventsOf isCsma ⊆ sim.eventsOf isCsma) :
    views.Keeps touched s { s with sim } := by
  intro v hv
  have hsame : sim.eventsOf v.watches = s.sim.eventsOf v.watches := hevents v hv
  cases v with
  | config => exact rfl
  | panCoor => exact rfl
  | clock => exact hnow.resolve_left hv
  | currentGts => exact ⟨rfl, rfl, rfl⟩
  | allocation =>
    rw [funext View.watches_allocation] at hsame
    exact ⟨rfl, rfl, hsame⟩
  | ownSlot => exact ⟨rfl, rfl⟩
  | hopping => exact rfl
  | beacons => exact rfl
  | transmit => exact ⟨rfl, rfl, .inr (.inl rfl), [], (append_nil _).symm, by simp⟩
  | contention => exact ⟨id, hcsma.resolve_left hv, rfl, rfl⟩
  | tracking => exact ⟨rfl, rfl, rfl, id⟩
  | search =>
    rw [funext View.watches_search] at hsame
    exact ⟨hheld.resolve_left hv, hsame⟩
  | timeline =>
    rw [funext View.watches_timeline] at hsame
    exact ⟨rfl, hsame⟩
  | counting =>
    rw [funext View.watches_counting] at hsame
    exact ⟨rfl, hsame⟩
  | confirms => exact ⟨rfl, rfl⟩

/-- Scheduling an event disturbs at most the view that watches it. -/
theorem keeps_post (m : Member) (event : MacEvent) (delay : ℤ) (h : m.mayHold event = true)
    (hevent : event.view.toList ⊆ touched) :
    views.Keeps touched s { s with sim := s.sim.post m event delay h } := by
  refine keeps_sim s _ (.inr rfl) (fun v hv => ?_) ?_ (.inr ?_)
  · have hview : v.watches event = false := by
      unfold View.watches
      rw [beq_eq_false_iff_ne]
      exact fun he => hv (hevent (by rw [he]; exact mem_singleton_self v))
    rw [Sim.eventsOf_post, hview]
    simp
  · by_cases hm : m = .trackingEvent
    · subst hm
      cases event with
      | beaconSearchTimeout => exact .inl (hevent (mem_singleton_self _))
      | _ => cases h
    · exact .inr (Sim.held_post_of_ne _ _ _ _ _ _ hm)
  · exact Sim.eventsOf_subset_post _ _ _ _ _ _

/-- The same without a member. -/
theorem keeps_postAnonymous (event : MacEvent) (delay : ℤ) (hevent : event.view.toList ⊆ touched) :
    views.Keeps touched s { s with sim := s.sim.postAnonymous event delay } := by
  refine keeps_sim s _ (.inr rfl) (fun v hv => ?_) (.inr ?_) (.inr ?_)
  · have hview : v.watches event = false := by
      unfold View.watches
      rw [beq_eq_false_iff_ne]
      exact fun he => hv (hevent (by rw [he]; exact mem_singleton_self v))
    rw [Sim.eventsOf_postAnonymous, hview]
    simp
  · exact Sim.held_postAnonymous _ _ _ _
  · rw [Sim.eventsOf_postAnonymous]
    exact subset_append_left _ _

/-- Cancelling a member disturbs at most the views that watch the events it may hold. -/
theorem keeps_cancel (m : Member) (hm : m.views ⊆ touched) :
    views.Keeps touched s (s.cancel m) := by
  refine keeps_sim s _ (.inr rfl) (fun v hv => ?_) ?_ ?_
  · refine Sim.eventsOf_cancel _ _ _ fun e he => ?_
    by_contra hhold
    exact hv (hm (m.view_mem_views e v (by simpa using hhold) (by simpa [View.watches] using he)))
  · by_cases htracking : m = .trackingEvent
    · subst htracking
      exact .inl (hm (by decide))
    · exact .inr (Sim.held_cancel_of_ne _ _ _ htracking)
  · by_cases hcsma : m.isCsma = true
    · exact .inl (hm (m.contention_mem_views hcsma))
    · refine .inr ?_
      rw [Sim.eventsOf_cancel _ _ _ fun e => m.mayHold_of_isCsma e (by simpa using hcsma)]
      exact List.Subset.refl _

/-- A report disturbs at most the view whose log it belongs to. -/
theorem keeps_emit (o : Output) (ho : o.view.toList ⊆ touched) :
    views.Keeps touched s (s.emit o) := by
  have hlog (p : Output → Bool) (v : View) (hv : v ∉ touched)
      (hp : ∀ o', p o' = true → o'.view = some v) :
      (s.emit o).trace.filter p = s.trace.filter p := by
    have hpo : p o = false := by
      by_contra hne
      exact hv (ho (by rw [hp o (by simpa using hne)]; exact mem_singleton_self v))
    simp [hpo]
  intro v hv
  cases v with
  | config => exact rfl
  | panCoor => exact rfl
  | clock => exact rfl
  | currentGts => exact ⟨rfl, rfl, rfl⟩
  | allocation => exact ⟨rfl, rfl, rfl⟩
  | ownSlot => exact ⟨rfl, rfl⟩
  | hopping => exact rfl
  | beacons => exact hlog _ _ hv fun o' h => by cases o' <;> first | rfl | cases h
  | transmit =>
    refine ⟨rfl, rfl, .inr (.inl rfl), [], ?_, by simp⟩
    rw [map_nil, append_nil]
    exact hlog _ _ hv fun o' h => by cases o' <;> first | rfl | cases h
  | contention =>
    exact ⟨id, List.Subset.refl _, rfl,
      hlog _ _ hv fun o' h => by cases o' <;> first | rfl | cases h⟩
  | tracking =>
    exact ⟨rfl, rfl, hlog _ _ hv fun o' h => (by cases o' <;> first | rfl | cases h), id⟩
  | search => exact ⟨rfl, rfl⟩
  | timeline => exact ⟨rfl, rfl⟩
  | counting => exact ⟨rfl, rfl⟩
  | confirms => exact ⟨rfl, hlog _ _ hv fun o' h => by cases o' <;> first | rfl | cases h⟩

/-- Entering any state but `MAC_CSMA`. -/
theorem keeps_changeMacState (newState : LrWpanMacState) (hstate : newState ≠ .macCsma) :
    views.Keeps touched s (s.changeMacState newState) := by
  have hkeeps : views.Keeps (.contention :: touched) s (s.changeMacState newState) := by
    refine keeps_same fun v hv => ?_
    cases v with
    | contention => exact absurd mem_cons_self hv
    | _ => rfl
  exact hkeeps.of_cons ⟨fun h => absurd h hstate, List.Subset.refl _, rfl, rfl⟩

/-- Giving up the packet in transmission, or taking the front of the queue. -/
theorem keeps_setTxPkt (p : Option Packet) (hp : p = none ∨ p = s.front) :
    views.Keeps touched s (s.setTxPkt p) := by
  have hkeeps : views.Keeps (.transmit :: touched) s (s.setTxPkt p) := by
    refine keeps_same fun v hv => ?_
    cases v with
    | transmit => exact absurd mem_cons_self hv
    | _ => rfl
  exact hkeeps.of_cons ⟨rfl, rfl, hp.elim .inl (.inr ∘ .inr), [],
    (append_nil _).symm, by simp⟩

/-- Handing the packet in transmission to the PHY. -/
theorem keeps_emit_pdDataRequest (p : Packet) (hp : s.tx.txPkt = some p) :
    views.Keeps touched s (s.emit (.pdDataRequest p)) := by
  have hkeeps : views.Keeps (.transmit :: touched) s (s.emit (.pdDataRequest p)) :=
    keeps_emit s _ (by simp)
  refine hkeeps.of_cons ⟨rfl, rfl, .inr (.inl rfl), [p], by simp [Output.isTransmit], ?_⟩
  intro q hq
  rw [mem_singleton.mp hq]
  exact .inl hp

/-- An unsigned difference reports at most an underflow. -/
theorem keeps_of_difference {s : Mac} {site : Difference} {width m n : ℕ} {r : ℕ × Mac}
    (h : s.difference site width m n = r) : views.Keeps [] s r.2 := by
  unfold Mac.difference at h
  split at h
  · subst h
    exact Keeps.refl [] s
  · subst h
    exact keeps_emit s (.underflow site) (nil_subset _)

/-- `Schedule` disturbs at most the view that watches the event. -/
theorem touches_schedule (m : Member) (event : MacEvent) (delay : ℤ) (h : m.mayHold event = true)
    (hevent : event.view.toList ⊆ touched) :
    Touches touched s (s.schedule m event delay h) := by
  unfold Mac.schedule
  split
  · exact nofun
  · exact keeps_post s m event delay h hevent

/-- The same without a member. -/
theorem touches_scheduleAnonymous (event : MacEvent) (delay : ℤ)
    (hevent : event.view.toList ⊆ touched) :
    Touches touched s (s.scheduleAnonymous event delay) := by
  unfold Mac.scheduleAnonymous
  split
  · exact nofun
  · exact keeps_postAnonymous s event delay hevent

end SingleChanges

end Ns3Dsme
