/-
# Beacon tracking

A device that tracks its coordinator waits for each beacon with a timer.  The timer is armed
in three places: by MLME-SYNC, by its own timeout, and by a beacon that is heard in time.  The
first two wait `(2^BO + 1) * aBaseSuperframeDuration` symbols; the third drops the fraction of
a second.  A loss is reported when more than `aMaxLostBeacons` beacons have been counted
*before* the timeout, which is two beacons late.
-/
import Ns3Dsme.LrWpan.Footprint

open List Program Program.Views

namespace Ns3Dsme.BeaconTracking

open Mac MacEvent

/-! ## What happens to the timer -/

/-- The step is a timeout of the search for a beacon: the beacon was missed. -/
def timesOut (s : Mac) (i : Input) : Bool :=
  match i.action with
  | .fire n => (s.sim.pending[n]?).any fun e => e.event.isSearch
  | _ => false

/-- The frame is a beacon, and the device belongs to a PAN. -/
def isTracked (p : Packet) (s : Mac) : Bool :=
  s.acceptFrame p && p.hdr.isBeacon
    && (s.role.macPanId == p.hdr.dstPanId || s.role.macPanId != 0xffff)

/-- The step brings a beacon. -/
def arrives (s : Mac) (i : Input) : Bool :=
  match i.action with
  | .pdDataIndication p fcsOk => fcsOk && isTracked p s
  | _ => false

/-- The step asks for tracking. -/
def startsTracking (i : Input) : Bool :=
  match i.action with
  | .mlmeSyncRequest trackBcn => trackBcn
  | _ => false

/-- The step runs through one of the places where the timer is armed. -/
def arms (s : Mac) (i : Input) : Bool :=
  timesOut s i || startsTracking i || (arrives s i && s.isRunning .trackingEvent)

/-- The losses reported so far. -/
def losses (s : Mac) : ℕ := (s.trace.filter Output.isSyncLoss).length

/-- What an observer of a device writes down: how many beacons were missed in a row; for every
step, how many that makes if the step is a miss, and whether a loss is reported; and the beacon
order and the waiting time whenever the timer is armed. -/
structure Watch where
  missed : ℕ := 0
  reports : List (ℕ × Bool) := []
  waits : List (ℕ × ℤ) := []

def Watch.record (b : Watch) (s : Mac) (i : Input) (t : Mac) : Watch where
  missed :=
    if timesOut s i then if losses s < losses t then 0 else b.missed + 1
    else if arrives s i || startsTracking i then 0
    else b.missed
  reports := b.reports
    ++ [(if timesOut s i then b.missed + 1 else 0, decide (losses s < losses t))]
  waits := b.waits
    ++ if arms s i then
        (t.sim.held .trackingEvent).map fun x => (t.inc.incomingBeaconOrder, x.2 - t.sim.now)
      else []

/-- **What tracking promises.**  A loss is reported exactly at the `aMaxLostBeacons`-th beacon
that is missed in a row, and the timer always waits `searchSymbols`. -/
structure Watch.Right (b : Watch) : Prop where
  reports : ∀ r ∈ b.reports, r.2 = true ↔ r.1 = aMaxLostBeacons
  waits : ∀ w ∈ b.waits, w.2 = symbols (searchSymbols w.1)

/-! ## What leaves the timer alone -/

/-- Neither the timer nor the count of the lost beacons is disturbed. -/
structure Undisturbed (s t : Mac) : Prop where
  cfg : t.cfg = s.cfg
  tracks : s.Tracks t
  held : t.sim.held .trackingEvent = s.sim.held .trackingEvent
  eventsOf : t.sim.eventsOf isSearch = s.sim.eventsOf isSearch

theorem undisturbed_of_keeps {touched : List View} {s t : Mac} (h : views.Keeps touched s t)
    (hapart : ∀ v ∈ [View.config, .tracking, .search], v ∉ touched) : Undisturbed s t := by
  obtain ⟨hheld, hevents⟩ := h .search (hapart _ (by simp))
  exact ⟨h .config (hapart _ (by simp)), h .tracking (hapart _ (by simp)), hheld, hevents⟩

theorem Undisturbed.losses {s t : Mac} (h : Undisturbed s t) : losses t = losses s := by
  unfold BeaconTracking.losses
  rw [h.tracks.losses]

theorem Undisturbed.isRunning {s t : Mac} (h : Undisturbed s t) :
    t.isRunning .trackingEvent = s.isRunning .trackingEvent := by
  rw [Bool.eq_iff_iff]
  show t.sim.isRunning _ = true ↔ s.sim.isRunning _ = true
  rw [Sim.isRunning_iff_held, Sim.isRunning_iff_held, h.held]

/-- The tracking member holds nothing but timeouts of the search. -/
theorem isSearch_of_mayHold (e : MacEvent) (h : Member.trackingEvent.mayHold e = true) :
    e.isSearch = true := by
  cases e <;> first | rfl | cases h

/-- A beacon that is heard to the end leads to `keepTracking`; nothing else that is received
disturbs the timer. -/
theorem post_receiveBeacon (s : Mac) (p : Packet) (hauto : s.cfg.macAutoRequest = true) :
    Post (s.receiveBeacon p) fun r => ∃ u, Undisturbed s u ∧
      r.1 = if s.role.macPanId == p.hdr.dstPanId || s.role.macPanId != 0xffff then u.keepTracking
        else u := by
  have hnotify (t : Mac) (n : ℕ) (ht : Undisturbed s t) :
      ∃ u, Undisturbed s u ∧ t.notifyBeacon p n = u.keepTracking := by
    have hpayload : views.Keeps [] t (t.notifyPayload p n) := by
      unfold notifyPayload
      split
      · exact keeps_emit _ _ (by simp)
      · exact .refl _ t
    have hu := undisturbed_of_keeps hpayload (by simp)
    refine ⟨t.notifyPayload p n, ⟨hu.cfg.trans ht.cfg, ht.tracks.trans hu.tracks,
      hu.held.trans ht.held, hu.eventsOf.trans ht.eventsOf⟩, ?_⟩
    unfold notifyBeacon
    rw [if_pos (by rw [ht.cfg]; exact hauto)]
  unfold receiveBeacon
  split
  · rename_i spec ie sduLength _
    refine (post_readBeacon_noteBeacon s p spec ie).bind ?_
    rintro ⟨t, spec', beaconTimeStamp⟩ ⟨ht, hrole⟩
    dsimp only at ht hrole ⊢
    rw [hrole]
    split
    · rename_i hpan
      apply wp_of_bind
      refine (touches_receiveOwnPanBeacon t p spec' beaconTimeStamp).post.imp fun u hu => ?_
      have hkeeps : views.Keeps [.ownSlot, .hopping, .allocation, .contention, .timeline, .counting]
          s u :=
        (ht.mono (by simp)).trans (hu.mono (by simp))
      obtain ⟨v, hv, heq⟩ :=
        hnotify u sduLength (undisturbed_of_keeps hkeeps (by simp))
      refine ⟨v, hv, ?_⟩
      rw [if_pos (by simp [hpan])]
      exact heq
    · rename_i hpan
      have ht' := undisturbed_of_keeps ht (by simp)
      split
      · rename_i hnone
        refine ⟨t, ht', ?_⟩
        have hdst : (s.role.macPanId == p.hdr.dstPanId) = false := beq_eq_false_iff_ne.mpr hpan
        have hpanId : (s.role.macPanId != 0xffff) = false := by
          rw [hnone]
          decide
        rw [hdst, hpanId]
        rfl
      · rename_i hsome
        obtain ⟨v, hv, heq⟩ := hnotify t sduLength ht'
        refine ⟨v, hv, ?_⟩
        have hpanId : (s.role.macPanId != 0xffff) = true := bne_iff_ne.mpr hsome
        rw [hpanId, Bool.or_true, if_pos rfl]
        exact heq
  · trivial

theorem post_pdDataIndication (s : Mac) (p : Packet) (fcsOk : Bool)
    (hauto : s.cfg.macAutoRequest = true) :
    Post (s.pdDataIndication p fcsOk) fun t => ∃ u, Undisturbed s u ∧
      t = if fcsOk && isTracked p s then u.keepTracking else u := by
  have hkeep {u : Mac} {touched : List View} (h : views.Keeps touched s u)
      (hapart : ∀ v ∈ [View.config, .tracking, .search], v ∉ touched)
      (hdrop : (fcsOk && isTracked p s) = false) :
      ∃ v, Undisturbed s v ∧ u = if fcsOk && isTracked p s then v.keepTracking else v := by
    rw [hdrop]
    exact ⟨u, undisturbed_of_keeps h hapart, rfl⟩
  have hhilow := keeps_acceptAllHilow s p
  unfold pdDataIndication
  split
  · trivial
  · split
    · rename_i hfcs
      cases hbeacon : p.hdr.isBeacon with
      | true =>
        rw [acceptAllHilow_of_isBeacon s hbeacon]
        split
        · rename_i haccept
          refine post_receiveFrame_of_isBeacon s _ hbeacon ?_
          unfold isTracked
          rw [hfcs, haccept, hbeacon]
          exact post_receiveBeacon s p hauto
        · rename_i haccept
          exact hkeep (.refl [] s) (by simp) (by simp [isTracked, haccept])
      | false =>
        have hdrop : (fcsOk && isTracked p s) = false := by simp [isTracked, hbeacon]
        split
        · refine (touches_receiveFrame_of_not_beacon _ p hbeacon).post.imp fun t ht => ?_
          exact hkeep ((hhilow.mono (nil_subset _)).trans ht) (by simp) hdrop
        · exact hkeep hhilow (by simp) hdrop
    · rename_i hfcs
      exact hkeep (.refl [] s) (by simp) (by simp [hfcs])

/-- MLME-START disturbs the timer only by cancelling it. -/
theorem post_mlmeStartRequest (s : Mac) (params : MlmeStartRequestParams)
    (pageOk channelOk : Bool) :
    Post (s.mlmeStartRequest params pageOk channelOk) fun t =>
      Undisturbed s t ∨ ∃ u, Undisturbed s u ∧ Undisturbed (u.cancel .trackingEvent) t := by
  refine Ns3Dsme.post_mlmeStartRequest s params pageOk channelOk _ (fun t ht => ?_)
    (fun t ht => ?_) fun t desc ht _ => ?_
  · exact Or.inl (undisturbed_of_keeps ht (by simp))
  · have htimeline (u : Mac) : views.Keeps [.timeline] u
        ((((u.cancel .capEvent).cancel .cfpEvent).cancel .incCapEvent).cancel .incCfpEvent) :=
      (((keeps_cancel u .capEvent (by decide)).trans (keeps_cancel _ .cfpEvent (by decide))).trans
        (keeps_cancel _ .incCapEvent (by decide))).trans (keeps_cancel _ .incCfpEvent (by decide))
    have hcancel : views.Keeps [.panCoor, .contention, .timeline] s
        (((({ t with out := { t.out with
          macSuperframeOrder := 15
          fnlCapSlot := 15
          beaconInterval := 0 } }.csmaCancel.cancel .capEvent).cancel .cfpEvent).cancel
          .incCapEvent).cancel .incCfpEvent) := by
      refine (ht.mono (by simp)).trans ?_
      exact Keeps.trans (keeps_same fun v hv => by cases v <;> first | rfl | simp at hv)
        (((keeps_csmaCancel _).mono (by simp)).trans
        ((htimeline _).mono (by simp)))
    unfold startNonBeacon
    dsimp only
    refine (touches_of_keeps (keeps_confirmStart _ _)
      (touches_plmeSetTRXStateRequest _)).post.imp fun u hu => Or.inr ?_
    refine ⟨_, undisturbed_of_keeps hcancel (by simp), ?_⟩
    exact @undisturbed_of_keeps [.contention] _ _
      (Keeps.trans (keeps_same fun v _ => by cases v <;> rfl)
      (hu.mono (by simp))) (by simp)
  · refine Wp.imp (touches_startBeacon t params desc).post fun u hu => Or.inl ?_
    have hstarted : views.Keeps [.panCoor, .ownSlot, .allocation, .timeline, .counting] s u :=
      (ht.mono (by simp)).trans (hu.mono (by simp))
    exact undisturbed_of_keeps hstarted (by simp)

/-! ## One step -/

/-- The observer and the device agree: at most one timeout is pending, and while it is, tracking
is on and the device has counted the beacons that were missed in a row. -/
structure Watch.Follows (b : Watch) (s : Mac) : Prop where
  macAutoRequest : s.cfg.macAutoRequest = true
  sole : s.sim.Sole .trackingEvent isSearch
  incomingBeaconOrder : s.inc.incomingBeaconOrder < 16
  counts : s.sim.held .trackingEvent ≠ [] →
    b.missed = s.inc.numLostBeacons ∧ s.inc.beaconTrackingOn = true

/-- The step reports a loss. -/
def reportsLoss (s : Mac) (i : Input) : Bool :=
  timesOut s i && decide (aMaxLostBeacons < s.inc.numLostBeacons)
    && s.cfg.mlmeSyncLossIndicationCallback

/-- How long the timer waits when a step arms it. -/
def waitSymbols (s : Mac) (i : Input) (incomingBeaconOrder : ℕ) : ℕ :=
  if timesOut s i || startsTracking i then searchSymbols incomingBeaconOrder
  else searchSymbols incomingBeaconOrder / 62500 * 62500

/-- What a step does to the timer. -/
structure Watch.Step (b : Watch) (s : Mac) (i : Input) (t : Mac) : Prop where
  follows : (b.record s i t).Follows t
  losses : losses s < losses t ↔ reportsLoss s i = true
  waits : arms s i = true → ∀ x ∈ t.sim.held .trackingEvent,
    x.2 - t.sim.now = symbols (waitSymbols s i t.inc.incomingBeaconOrder)
  rearmed : (arrives s i && s.isRunning .trackingEvent) = true →
    t.sim.held .trackingEvent ≠ []

variable {b : Watch} {s t u : Mac} {i : Input}

theorem Undisturbed.follows (h : Undisturbed s t) (hb : b.Follows s) : b.Follows t where
  macAutoRequest := by rw [h.cfg]; exact hb.macAutoRequest
  sole := ⟨by rw [h.eventsOf, h.held]; exact hb.sole.eventsOf,
    by rw [h.held]; exact hb.sole.length⟩
  incomingBeaconOrder := h.tracks.beaconOrder hb.incomingBeaconOrder
  counts := by
    rw [h.held, h.tracks.numLostBeacons, h.tracks.beaconTrackingOn]
    exact hb.counts

/-- While a timeout is pending, the device has counted the missed beacons. -/
theorem Watch.Follows.counts_of_pending (hb : b.Follows s) {e : Scheduled} (he : e ∈ s.sim.pending)
    (hsearch : e.event.isSearch = true) :
    b.missed = s.inc.numLostBeacons ∧ s.inc.beaconTrackingOn = true := by
  refine hb.counts ?_
  rw [← hb.sole.eventsOf]
  exact (Sim.has_iff_eventsOf_ne_nil _ _).mp
    ⟨(e.event, e.time), mem_map.mpr ⟨e, he, rfl⟩, hsearch⟩

theorem not_running_iff : s.isRunning .trackingEvent = false ↔ s.sim.held .trackingEvent = [] := by
  show s.sim.isRunning _ = false ↔ _
  rw [← Bool.not_eq_true, Sim.isRunning_iff_held, not_not]

/-- A device whose timer is not running agrees with every observer. -/
theorem follows_of_idle (b : Watch) (hauto : s.cfg.macAutoRequest = true)
    (hidle : s.sim.eventsOf isSearch = []) (horder : s.inc.incomingBeaconOrder < 16) :
    b.Follows s where
  macAutoRequest := hauto
  sole := Sim.sole_of_eventsOf_eq_nil _ _ _ isSearch_of_mayHold hidle
  incomingBeaconOrder := horder
  counts := by
    intro hheld
    have hsub := s.sim.held_subset_eventsOf .trackingEvent _ isSearch_of_mayHold
    rw [hidle] at hsub
    exact absurd (subset_nil.mp hsub) hheld

/-- A device that has just armed its timer. -/
theorem follows_of_armed (delay : ℤ) (hauto : s.cfg.macAutoRequest = true)
    (hidle : s.sim.eventsOf isSearch = []) (horder : s.inc.incomingBeaconOrder < 16)
    (hmissed : b.missed = s.inc.numLostBeacons) (hon : s.inc.beaconTrackingOn = true) :
    b.Follows { s with sim := s.sim.post .trackingEvent .beaconSearchTimeout delay } where
  macAutoRequest := hauto
  sole := Sim.sole_post _ _ _ _ _ rfl rfl hidle
  incomingBeaconOrder := horder
  counts := fun _ => ⟨hmissed, hon⟩

/-- The time that is left to a timeout that has just been scheduled. -/
theorem wait_of_armed (delay : ℤ) (h : Member.trackingEvent.mayHold .beaconSearchTimeout = true) :
    ∀ x ∈ (s.sim.post .trackingEvent .beaconSearchTimeout delay h).held .trackingEvent,
      x.2 - s.sim.now = delay := by
  intro x hx
  rw [Sim.held_post, mem_singleton] at hx
  rw [hx]
  show s.sim.now + delay - s.sim.now = delay
  omega

/-- A step that leaves the timer alone. -/
theorem step_of_undisturbed (hb : b.Follows s) (h : Undisturbed s t) (htimes : timesOut s i = false)
    (hstarts : startsTracking i = false)
    (harrives : arrives s i = true → s.isRunning .trackingEvent = false) : b.Step s i t := by
  have hlosses : ¬ losses s < losses t := by rw [h.losses]; exact lt_irrefl _
  have hidle : (arrives s i && s.isRunning .trackingEvent) = false := by
    cases ha : arrives s i with
    | true => rw [harrives ha]; rfl
    | false => rfl
  refine ⟨⟨(h.follows hb).macAutoRequest, (h.follows hb).sole,
    (h.follows hb).incomingBeaconOrder, fun hheld => ?_⟩, ?_, ?_, ?_⟩
  · have hrunning : arrives s i = false := by
      by_contra ha
      rw [h.held] at hheld
      exact hheld (not_running_iff.mp (harrives (by simpa using ha)))
    have hmissed : (b.record s i t).missed = b.missed := by
      simp [Watch.record, htimes, hstarts, hrunning]
    rw [hmissed]
    exact (h.follows hb).counts hheld
  · simp [hlosses, reportsLoss, htimes]
  · simp [arms, htimes, hstarts, hidle]
  · simp [hidle]

/-- A step that leaves the timer stopped, and neither brings a beacon nor asks for tracking. -/
theorem step_of_idle (hauto : t.cfg.macAutoRequest = true)
    (hidle : t.sim.eventsOf isSearch = []) (horder : t.inc.incomingBeaconOrder < 16)
    (hlosses : losses t = losses s) (htimes : timesOut s i = false)
    (hstarts : startsTracking i = false) (harrives : arrives s i = false) : b.Step s i t := by
  have hquiet : ¬ losses s < losses t := by rw [hlosses]; exact lt_irrefl _
  refine ⟨follows_of_idle _ hauto hidle horder, ?_, ?_, ?_⟩
  · exact iff_of_false hquiet (by simp [reportsLoss, htimes])
  · simp [arms, htimes, hstarts, harrives]
  · simp [harrives]

/-- MLME-SYNC stops the timer and, if tracking is asked for, arms it. -/
theorem step_mlmeSyncRequest (hb : b.Follows s) (trackBcn : Bool)
    (hi : i.action = .mlmeSyncRequest trackBcn) :
    Post (s.mlmeSyncRequest trackBcn) (b.Step s i) := by
  have htimes : timesOut s i = false := by rw [timesOut, hi]
  have harrives : arrives s i = false := by rw [arrives, hi]
  have hstarts : startsTracking i = trackBcn := by rw [startsTracking, hi]
  unfold mlmeSyncRequest
  refine (touches_plmeSetAttributeRequest s).post.bind fun v hv => ?_
  refine (touches_plmeSetTRXStateRequest v).post.bind fun u hu => ?_
  have hu : Undisturbed s u := undisturbed_of_keeps (hv.trans hu) (by simp)
  have hub := hu.follows hb
  have hidle : (u.cancel .trackingEvent).sim.eventsOf isSearch = [] :=
    hub.sole.eventsOf_cancel isSearch_of_mayHold
  cases trackBcn with
  | true =>
    have hquiet : ¬ losses s < losses u := by rw [hu.losses]; exact lt_irrefl _
    rw [if_pos rfl]
    refine ⟨follows_of_armed _ hub.macAutoRequest hidle hub.incomingBeaconOrder ?_ rfl,
      ?_, fun _ => ?_, fun h => ?_⟩
    · simp [Watch.record, htimes, hstarts]
    · exact iff_of_false hquiet (by simp [reportsLoss, htimes])
    · rw [waitSymbols, htimes, hstarts]
      exact wait_of_armed _ rfl
    · rw [harrives] at h
      cases h
  | false =>
    exact step_of_idle hub.macAutoRequest hidle hub.incomingBeaconOrder hu.losses htimes hstarts
      harrives

/-- A timeout that is no loss yet counts the beacon and arms the timer again. -/
theorem step_beaconSearchTimeout (hb : b.Follows s) (n : ℕ) (e : Scheduled) (sim : Sim)
    (htake : s.sim.take n = some (e, sim)) (hi : i.action = .fire n)
    (he : e.event = .beaconSearchTimeout) :
    b.Step s i (beaconSearchTimeout { s with sim }) := by
  have hsearch : e.event.isSearch = true := by rw [he]; rfl
  have hpending : s.sim.pending[n]? = some e := Sim.getElem?_of_take htake
  have htimes : timesOut s i = true := by
    rw [timesOut, hi]
    simp [hpending, hsearch]
  have harrives : arrives s i = false := by rw [arrives, hi]
  have hidle : sim.eventsOf isSearch = [] := hb.sole.eventsOf_take htake hsearch
  obtain ⟨hmissed, hon⟩ := hb.counts_of_pending (mem_of_getElem? hpending) hsearch
  have hrearmed : ¬ (arrives s i && s.isRunning .trackingEvent) = true := by simp [harrives]
  have hnil : sim.held .trackingEvent = [] :=
    subset_nil.mp (hidle ▸ sim.held_subset_eventsOf .trackingEvent _ isSearch_of_mayHold)
  unfold Mac.beaconSearchTimeout
  split
  · rename_i hlost
    have hlost : aMaxLostBeacons < s.inc.numLostBeacons := hlost
    split
    · rename_i hcallback
      have hcallback : s.cfg.mlmeSyncLossIndicationCallback = true := hcallback
      have hreport : losses s < losses (emit { s with sim } .mlmeSyncLossIndication) := by
        simp [losses, Output.isSyncLoss]
      refine ⟨follows_of_idle _ hb.macAutoRequest hidle hb.incomingBeaconOrder, ?_,
        fun _ x hx => ?_, fun h => absurd h hrearmed⟩
      · exact iff_of_true hreport (by simp [reportsLoss, htimes, hcallback, hlost])
      · exact absurd (hnil ▸ hx) not_mem_nil
    · rename_i hcallback
      have hcallback : s.cfg.mlmeSyncLossIndicationCallback = false := by simpa using hcallback
      refine ⟨follows_of_idle _ hb.macAutoRequest hidle hb.incomingBeaconOrder, ?_,
        fun _ x hx => ?_, fun h => absurd h hrearmed⟩
      · exact iff_of_false (lt_irrefl _) (by simp [reportsLoss, hcallback])
      · exact absurd (hnil ▸ hx) not_mem_nil
  · rename_i hlost
    have hlost : ¬ aMaxLostBeacons < s.inc.numLostBeacons := hlost
    have hquiet : ¬ losses s < losses s := lt_irrefl _
    refine ⟨follows_of_armed _ hb.macAutoRequest hidle hb.incomingBeaconOrder ?_ hon, ?_,
      fun _ => ?_, fun h => absurd h hrearmed⟩
    · show (if timesOut s i then if losses s < losses s then 0 else b.missed + 1 else _) = _
      rw [htimes, if_pos rfl, if_neg hquiet, hmissed]
    · exact iff_of_false hquiet (by simp [reportsLoss, hlost])
    · rw [waitSymbols, htimes]
      exact wait_of_armed _ rfl

/-- A beacon that comes while the timer runs arms it again, for whole seconds. -/
theorem step_keepTracking (hb : b.Follows s) (hu : Undisturbed s u) (htimes : timesOut s i = false)
    (hstarts : startsTracking i = false) (harrives : arrives s i = true) :
    b.Step s i u.keepTracking := by
  cases hrunning : s.isRunning .trackingEvent with
  | false =>
    have hstopped : u.isRunning .trackingEvent = false := hu.isRunning.trans hrunning
    have hsame : u.keepTracking = u := by
      unfold keepTracking
      rw [if_neg (by simpa using hstopped)]
    rw [hsame]
    exact step_of_undisturbed hb hu htimes hstarts fun _ => hrunning
  | true =>
    have hub := hu.follows hb
    have hgoes : u.isRunning .trackingEvent = true := hu.isRunning.trans hrunning
    have hon : u.inc.beaconTrackingOn = true :=
      (hub.counts ((Sim.isRunning_iff_held _ _).mp hgoes)).2
    have hidle : (u.cancel .trackingEvent).sim.eventsOf isSearch = [] :=
      hub.sole.eventsOf_cancel isSearch_of_mayHold
    have hquiet : ¬ losses s < losses u := by rw [hu.losses]; exact lt_irrefl _
    unfold keepTracking
    rw [if_pos hgoes]
    dsimp only
    rw [if_pos hon]
    refine ⟨follows_of_armed _ hub.macAutoRequest hidle hub.incomingBeaconOrder ?_ hon, ?_,
      fun _ => ?_, fun _ => ?_⟩
    · simp [Watch.record, htimes, harrives]
    · exact iff_of_false hquiet (by simp [reportsLoss, htimes])
    · rw [waitSymbols, htimes, hstarts]
      exact wait_of_armed _ rfl
    · have hmay : Member.trackingEvent.mayHold .beaconSearchTimeout = true := rfl
      show (Sim.post _ .trackingEvent .beaconSearchTimeout _ hmay).held _ ≠ []
      rw [Sim.held_post]
      simp

/-- What an action does to the timer. -/
theorem step_act (hb : b.Follows s) (a : Action) (answers : PhyAnswers) :
    Post (s.act a) (b.Step s ⟨a, answers⟩) := by
  have hsame (t : Mac) (touched : List View) (h : views.Keeps touched s t)
      (hapart : ∀ v ∈ [View.config, .tracking, .search], v ∉ touched)
      (htimes : timesOut s ⟨a, answers⟩ = false)
      (hstarts : startsTracking ⟨a, answers⟩ = false)
      (harrives : arrives s ⟨a, answers⟩ = false) : b.Step s ⟨a, answers⟩ t :=
    step_of_undisturbed hb (undisturbed_of_keeps h hapart) htimes hstarts
      fun h => by rw [harrives] at h; cases h
  cases a with
  | mlmeSyncRequest trackBcn => exact step_mlmeSyncRequest hb trackBcn rfl
  | mlmeStartRequest params pageOk channelOk =>
    refine (post_mlmeStartRequest s params pageOk channelOk).imp fun t ht => ?_
    rcases ht with ht | ⟨u, hu, ht⟩
    · exact step_of_undisturbed hb ht rfl rfl nofun
    · refine step_of_idle ?_ ?_ ?_ ?_ rfl rfl rfl
      · rw [ht.cfg]
        exact (hu.follows hb).macAutoRequest
      · rw [ht.eventsOf]
        exact (hu.follows hb).sole.eventsOf_cancel isSearch_of_mayHold
      · exact ht.tracks.beaconOrder (hu.follows hb).incomingBeaconOrder
      · exact Eq.trans ht.losses hu.losses
  | pdDataIndication p fcsOk =>
    refine (post_pdDataIndication s p fcsOk hb.macAutoRequest).imp ?_
    rintro t ⟨u, hu, rfl⟩
    split
    · rename_i harrives
      exact step_keepTracking hb hu rfl rfl harrives
    · rename_i harrives
      exact step_of_undisturbed hb hu rfl rfl fun h => absurd h harrives
  | fire n =>
    show Post (s.fire n) _
    cases htake : s.sim.take n with
    | none =>
      have hpending := Sim.getElem?_of_take_none htake
      have htimes : timesOut s ⟨.fire n, answers⟩ = false := by simp [timesOut, hpending]
      unfold fire
      rw [htake]
      exact hsame s [] (.refl [] s) (by simp) htimes rfl rfl
    | some r =>
      obtain ⟨e, sim⟩ := r
      have hpending := Sim.getElem?_of_take htake
      cases hsearch : e.event.isSearch with
      | true =>
        have he : e.event = .beaconSearchTimeout := by
          revert hsearch
          cases e.event <;> intro h <;> first | rfl | cases h
        unfold fire
        rw [htake]
        dsimp only
        rw [he]
        exact step_beaconSearchTimeout hb n e sim htake rfl he
      | false =>
        have htimes : timesOut s ⟨.fire n, answers⟩ = false := by
          simp [timesOut, hpending, hsearch]
        have hother (h : View.tracking ∈ .clock :: e.event.footprint
            ∨ View.search ∈ .clock :: e.event.footprint) : False := by
          have he : e.event = .beaconSearchTimeout :=
            h.elim of_mem_footprint of_mem_footprint
          rw [he] at hsearch
          cases hsearch
        refine (post_fire s sim n e htake).imp fun t ht => ?_
        refine hsame t _ ht ?_ htimes rfl rfl
        simp only [forall_mem_cons]
        exact ⟨of_mem_footprint, hother ∘ Or.inl, hother ∘ Or.inr, nofun⟩
  | _ =>
    refine (post_act s _ (by simp)).imp fun t ht => ?_
    exact hsame t _ ht (by simp [Action.footprint]) rfl rfl rfl

/-- **The step lemma.**  What every step does to the timer. -/
theorem step_of_follows (hb : b.Follows s) (i : Input) :
    Post (step s i) (b.Step s i) := by
  have hb : b.Follows { s with phy := i.answers } :=
    { hb with }
  exact (step_act hb i.action i.answers).imp fun t h => { h with }

/-! ## Runs -/

/-- No beacon comes while the timer runs, and no `aMaxLostBeacons`-th beacon is missed. -/
structure Mild (s : Mac) (i : Input) : Prop where
  arrives : arrives s i = true → s.isRunning .trackingEvent = false
  timesOut : timesOut s i = true → s.inc.numLostBeacons + 1 < aMaxLostBeacons

/-- Whole seconds are never what the search takes. -/
theorem whole_seconds_ne (n : ℕ) (h : n < 16) :
    searchSymbols n / 62500 * 62500 ≠ searchSymbols n := by
  revert n
  decide

theorem symbols_injective {m n : ℕ} (h : symbols m = symbols n) : m = n := by
  unfold symbols at h
  omega

/-- The beacons that a timeout counts are those that were missed. -/
theorem missed_of_timesOut (hb : b.Follows s) (htimes : timesOut s i = true) :
    b.missed = s.inc.numLostBeacons := by
  unfold BeaconTracking.timesOut at htimes
  split at htimes
  · rename_i n _
    cases hpending : s.sim.pending[n]? with
    | none =>
      rw [hpending] at htimes
      cases htimes
    | some e =>
      rw [hpending] at htimes
      exact (hb.counts_of_pending (mem_of_getElem? hpending) htimes).1
  · cases htimes

/-- What is written down after a step, as far as it was right before. -/
theorem Watch.Right.record_iff (hb : b.Right) :
    (b.record s i t).Right ↔
      ((losses s < losses t) ↔ (if timesOut s i then b.missed + 1 else 0) = aMaxLostBeacons)
        ∧ (arms s i = true → ∀ x ∈ t.sim.held .trackingEvent,
            x.2 - t.sim.now = symbols (searchSymbols t.inc.incomingBeaconOrder)) := by
  constructor
  · intro h
    refine ⟨?_, fun harms x hx => ?_⟩
    · have hlast := h.reports (if timesOut s i then b.missed + 1 else 0,
        decide (losses s < losses t)) (by simp [Watch.record])
      rw [decide_eq_true_eq] at hlast
      exact hlast
    · refine h.waits (t.inc.incomingBeaconOrder, x.2 - t.sim.now) ?_
      unfold Watch.record
      rw [if_pos harms]
      exact mem_append_right _ (mem_map.mpr ⟨x, hx, rfl⟩)
  · rintro ⟨hreports, hwaits⟩
    refine ⟨fun r hr => ?_, fun w hw => ?_⟩
    · rcases mem_append.mp hr with hr | hr
      · exact hb.reports r hr
      · rw [mem_singleton.mp hr, decide_eq_true_eq]
        exact hreports
    · rcases mem_append.mp hw with hw | hw
      · exact hb.waits w hw
      · split at hw
        · rename_i harms
          obtain ⟨x, hx, rfl⟩ := mem_map.mp hw
          exact hwaits harms x hx
        · cases hw

/-- What is written down is never taken back. -/
theorem right_of_right_record (h : (b.record s i t).Right) : b.Right :=
  ⟨fun r hr => h.reports r (mem_append_left _ hr),
    fun w hw => h.waits w (mem_append_left _ hw)⟩

/-- As long as tracking keeps its promises, fewer than `aMaxLostBeacons` beacons were missed in a
row. -/
structure Watch.Fair (b : Watch) (s : Mac) : Prop where
  follows : b.Follows s
  missed : b.missed < aMaxLostBeacons
  right : b.Right

/-- A mild step keeps the promises. -/
theorem fair_of_mild (hb : b.Fair s) (hi : Mild s i) :
    Post (step s i) fun t => (b.record s i t).Fair t := by
  refine (step_of_follows hb.follows i).imp fun t ht => ?_
  have hno : ¬ losses s < losses t := by
    rw [ht.losses]
    cases htimes : timesOut s i with
    | false => simp [reportsLoss, htimes]
    | true =>
      have hfew := hi.timesOut htimes
      have hlost : ¬ aMaxLostBeacons < s.inc.numLostBeacons := by omega
      simp [reportsLoss, hlost]
  refine ⟨ht.follows, ?_, hb.right.record_iff.mpr ⟨iff_of_false hno ?_, fun harms x hx => ?_⟩⟩
  · show (if timesOut s i then if losses s < losses t then 0 else b.missed + 1
      else if arrives s i || startsTracking i then 0 else b.missed) < _
    rw [if_neg hno]
    split
    · rename_i htimes
      have hfew := hi.timesOut htimes
      rw [missed_of_timesOut hb.follows htimes]
      exact hfew
    · split
      · decide
      · exact hb.missed
  · split
    · rename_i htimes
      have hfew := hi.timesOut htimes
      rw [missed_of_timesOut hb.follows htimes]
      omega
    · decide
  · have hwait := ht.waits harms x hx
    have hsite : (timesOut s i || startsTracking i) = true := by
      unfold arms at harms
      cases harrives : arrives s i with
      | false => simpa [harrives] using harms
      | true => simpa [hi.arrives harrives] using harms
    rw [hwait, waitSymbols, if_pos hsite]

/-- A step that is not mild breaks a promise: it waits for whole seconds only, or misses the
`aMaxLostBeacons`-th beacon in silence. -/
theorem not_right_of_not_mild (hb : b.Fair s) (hi : ¬ Mild s i) :
    Post (step s i) fun t => ¬ (b.record s i t).Right := by
  refine (step_of_follows hb.follows i).imp fun t ht hright => ?_
  obtain ⟨hreports, hwaits⟩ := hb.right.record_iff.mp hright
  refine hi ⟨fun harrives => ?_, fun htimes => ?_⟩
  · by_contra hrunning
    rw [Bool.not_eq_false] at hrunning
    have hon : (arrives s i && s.isRunning .trackingEvent) = true := by
      rw [harrives, hrunning]
      rfl
    have harms : arms s i = true := by rw [arms, hon, Bool.or_true]
    have hsite : (timesOut s i || startsTracking i) = false := by
      obtain ⟨a, answers⟩ := i
      cases a <;> first | rfl | cases harrives
    obtain ⟨x, hx⟩ := exists_mem_of_ne_nil _ (ht.rearmed hon)
    have hwait := (ht.waits harms x hx).symm.trans (hwaits harms x hx)
    rw [waitSymbols, hsite] at hwait
    exact whole_seconds_ne _ ht.follows.incomingBeaconOrder (symbols_injective hwait)
  · by_contra hmany
    have hmissed := missed_of_timesOut hb.follows htimes
    have hfew := hb.missed
    rw [if_pos htimes, ht.losses] at hreports
    have hreport := hreports.mpr (by omega)
    have hlost : ¬ aMaxLostBeacons < s.inc.numLostBeacons := by omega
    simp [reportsLoss, hlost] at hreport

/-- **When tracking keeps its promises.**  Of every run of a device that is not tracking yet,
losses are reported exactly at the `aMaxLostBeacons`-th missed beacon and the timer always waits
`searchSymbols`, if and only if no beacon comes while the timer runs and no `aMaxLostBeacons`-th
beacon is missed. -/
theorem right_iff_mild (s t : Mac) (is : List Input) (hauto : s.cfg.macAutoRequest = true)
    (hidle : s.sim.eventsOf isSearch = []) (horder : s.inc.incomingBeaconOrder < 16)
    (hrun : machine.Run (fun _ _ => True) s is t) :
    (machine.ledger Watch.record {} s is).Right ↔ machine.Run Mild s is t := by
  refine hrun.good_ledger_iff Watch.record Watch.Fair Watch.Right (fun b u hb => hb.right)
    (fun b u i hb _ hi => fair_of_mild hb hi) (fun b u i hb _ hi => not_right_of_not_mild hb hi)
    (fun b u i v => right_of_right_record) {} ?_
  exact ⟨follows_of_idle _ hauto hidle horder, by decide, by simp, by simp⟩

/-! ## Examples of runs -/

/-- A device of PAN 7 that is not tracking yet. -/
def tracker : Mac where
  cfg := { shortAddress := 2 }
  role := { macPanId := 7 }

/-- A beacon of the coordinator, with beacon order 8. -/
def trackedBeacon : Packet where
  hdr :=
    { frmType := .beacon, frmVer := 1, dstAddrMode := .shortAddr, dstPanId := 7
      shortDstAddr := 0xffff, srcAddrMode := .shortAddr, srcPanId := 7, shortSrcAddr := 1 }
  body := .beacon { bcnOrder := 8, sprFrmOrder := 3, fnlCapSlot := 8 } none 0
  size := 17
  uid := 100

/-- Track the coordinator, and miss `n` beacons. -/
def missing (n : ℕ) : List Input :=
  ⟨.mlmeSyncRequest true, {}⟩ :: List.replicate n ⟨.fire 0, {}⟩

/-- A test for mild steps. -/
def isMild (s : Mac) (i : Input) : Bool :=
  !(arrives s i && s.isRunning .trackingEvent)
    && (!timesOut s i || decide (s.inc.numLostBeacons + 1 < aMaxLostBeacons))

theorem mild_of_isMild (s : Mac) (i : Input) (h : isMild s i = true) : Mild s i := by
  obtain ⟨harrives, htimes⟩ := Bool.and_eq_true_iff.mp h
  refine ⟨fun ha => ?_, fun ht => ?_⟩
  · simpa [ha] using harrives
  · simpa [ht] using htimes

/-- Three missed beacons are no loss. -/
theorem tracker_right_iff_mild : ∃ t, machine.Run Mild tracker (missing 3) t
      ∧ (machine.ledger Watch.record {} tracker (missing 3)).missed = 3
      ∧ ((machine.ledger Watch.record {} tracker (missing 3)).Right
        ↔ machine.Run Mild tracker (missing 3) t) := by
  have hexec : (machine.exec isMild tracker (missing 3)).any (fun _ => true) = true := by
    decide +kernel
  obtain ⟨t, hrun, -⟩ := Machine.exists_run_of_exec _ _ _ _ hexec
  refine ⟨t, hrun.mono mild_of_isMild, by decide +kernel, ?_⟩
  exact right_iff_mild tracker t _ rfl rfl (by decide) (hrun.mono fun _ _ _ => trivial)

/-- The fourth missed beacon is not reported, but the sixth one is; and a beacon of order 8 is
waited for during 3 s and not 3.94752 s. -/
theorem exists_run_not_right : (∃ t, machine.Run (fun _ _ => True) tracker (missing 6) t)
      ∧ (machine.ledger Watch.record {} tracker (missing 6)).reports
        = [(0, false), (1, false), (2, false), (3, false), (4, false), (5, false), (6, true)]
      ∧ ¬ (machine.ledger Watch.record {} tracker (missing 6)).Right
      ∧ (∃ t, machine.Run (fun _ _ => True) tracker
          (missing 0 ++ [⟨.pdDataIndication trackedBeacon true, {}⟩]) t)
      ∧ (machine.ledger Watch.record {} tracker
          (missing 0 ++ [⟨.pdDataIndication trackedBeacon true, {}⟩])).waits
        = [(15, symbols (searchSymbols 15)), (8, 3000000000)]
      ∧ symbols (searchSymbols 8) = 3947520000
      ∧ ¬ (machine.ledger Watch.record {} tracker
          (missing 0 ++ [⟨.pdDataIndication trackedBeacon true, {}⟩])).Right := by
  have hexec (is : List Input)
      (h : (machine.exec (fun _ _ => true) tracker is).any (fun _ => true) = true) :
      ∃ t, machine.Run (fun _ _ => True) tracker is t := by
    obtain ⟨t, hrun, -⟩ := Machine.exists_run_of_exec _ _ _ _ h
    exact ⟨t, hrun.mono fun _ _ _ => trivial⟩
  have hreports : (machine.ledger Watch.record {} tracker (missing 6)).reports
      = [(0, false), (1, false), (2, false), (3, false), (4, false), (5, false), (6, true)] := by
    decide +kernel
  have hwaits : (machine.ledger Watch.record {} tracker
        (missing 0 ++ [⟨.pdDataIndication trackedBeacon true, {}⟩])).waits
      = [(15, symbols (searchSymbols 15)), (8, 3000000000)] := by decide +kernel
  have hsearch : symbols (searchSymbols 8) = 3947520000 := by decide +kernel
  refine ⟨hexec _ (by decide +kernel), hreports, fun hright => ?_, hexec _ (by decide +kernel),
    hwaits, hsearch, fun hright => ?_⟩
  · have hfourth := hright.reports (4, false) (by rw [hreports]; decide)
    exact absurd (hfourth.mpr rfl) (by decide)
  · have hsecond := hright.waits (8, 3000000000) (by rw [hwaits]; simp)
    rw [hsearch] at hsecond
    exact absurd hsecond (by decide)

end Ns3Dsme.BeaconTracking
