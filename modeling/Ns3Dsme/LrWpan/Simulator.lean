/-
# Pending events

The part of `ns3::Simulator` the MAC uses.  An `EventId` member of the MAC, of CSMA-CA
or of the PHY is a `Member`; a pending event remembers which member still refers to it.
Assigning a member forgets the event it referred to without cancelling it, exactly as
assigning an `EventId` does, and `Cancel` removes only the event the member refers to.
-/
import Ns3Dsme.LrWpan.Basic
import Mathlib.Data.List.Basic

open List

namespace Ns3Dsme

/-- The handlers that are ever scheduled, with their arguments. -/
inductive MacEvent
  | setLrWpanMacState (macState : LrWpanMacState)
  | setLrWpanMacStateToGTS (superframeID idx : ℕ)
  | ifsWaitTimeout (ifsTime : ℤ)
  | startCAP (superframeType : SuperframeType)
  | startCFP (superframeType : SuperframeType)
  | startRemainingPeriod (superframeType : SuperframeType)
  | awaitBeacon
  | beaconSearchTimeout
  | sendOneEnhancedBeacon
  | purgeDsmeACT
  /-- `StartGTS(superframeType, superframeID, idx)`.  `alloc` is a ghost: the number of the
  allocation the event was scheduled for, which no handler reads. -/
  | startGTS (superframeType : SuperframeType) (superframeID idx alloc : ℕ)
  | endGTS (superframeType : SuperframeType)
  | startSuperframe
  | startMultisuperframe (superframeType : SuperframeType)
  | sendLegacyGroupAck
  | sendEnhancedGroupAck
  | randomBackoffDelay
  | canProceed
  | requestCCA
  | deferCsmaTimeout
  /-- `LrWpanPhy::EndCca`. -/
  | endCca
  /-- `LrWpanPhy::EndTx`. -/
  | endTx
  deriving DecidableEq, Repr

/-- The `EventId` members. -/
inductive Member
  | setMacState
  | ifsEvent
  | gtsEvent
  | incGtsEvent
  | gtsSchedulingEvent
  | capEvent
  | cfpEvent
  | incCapEvent
  | incCfpEvent
  | beaconEvent
  | trackingEvent
  | multisuperframeStartEvent
  | multisuperframeEndEvent
  | incMultisuperframeStartEvent
  | startFirstSuperframeEvent
  | randomBackoffEvent
  | requestCcaEvent
  | canProceedEvent
  | endCapEvent
  | ackWaitTimeout
  /-- `LrWpanPhy::m_ccaRequest`. -/
  | ccaRequest
  /-- `LrWpanPhy::m_pdDataRequest`. -/
  | pdDataRequest
  deriving DecidableEq, Repr

/-- Which handlers the source ever assigns to which member. -/
def Member.mayHold : Member → MacEvent → Bool
  | setMacState, .setLrWpanMacState _ => true
  | setMacState, .setLrWpanMacStateToGTS _ _ => true
  | ifsEvent, .ifsWaitTimeout _ => true
  | gtsEvent, .endGTS _ => true
  | incGtsEvent, .endGTS _ => true
  | gtsSchedulingEvent, .startGTS _ _ _ _ => true
  | capEvent, .startCAP _ => true
  | capEvent, .startCFP _ => true
  | cfpEvent, .startCFP _ => true
  | cfpEvent, .startRemainingPeriod _ => true
  | incCapEvent, .startCAP _ => true
  | incCapEvent, .startCFP _ => true
  | incCfpEvent, .startCFP _ => true
  | incCfpEvent, .startRemainingPeriod _ => true
  | beaconEvent, .sendOneEnhancedBeacon => true
  | beaconEvent, .awaitBeacon => true
  | trackingEvent, .beaconSearchTimeout => true
  | multisuperframeStartEvent, .startMultisuperframe _ => true
  | multisuperframeEndEvent, .startMultisuperframe _ => true
  | incMultisuperframeStartEvent, .startMultisuperframe _ => true
  | startFirstSuperframeEvent, .startSuperframe => true
  | randomBackoffEvent, .randomBackoffDelay => true
  | requestCcaEvent, .requestCCA => true
  | canProceedEvent, .canProceed => true
  | endCapEvent, .deferCsmaTimeout => true
  | ccaRequest, .endCca => true
  | pdDataRequest, .endTx => true
  | _, _ => false

/-- A pending event.  `holder` is the member that refers to it, if one still does; a
member only ever refers to the handlers it may hold. -/
structure Scheduled where
  event : MacEvent
  time : ℤ
  holder : Option Member
  holder_ok : ∀ m, holder = some m → m.mayHold event = true

/-- The event with no member referring to it any more. -/
def Scheduled.release (e : Scheduled) : Scheduled where
  event := e.event
  time := e.time
  holder := none
  holder_ok := by simp

@[simp] theorem Scheduled.event_release (e : Scheduled) : e.release.event = e.event := rfl

@[simp] theorem Scheduled.time_release (e : Scheduled) : e.release.time = e.time := rfl

/-- The simulator: the current time and the pending events. -/
structure Sim where
  now : ℤ
  pending : List Scheduled

namespace Sim

/-- Forget which event member `m` refers to. -/
def forget (sim : Sim) (m : Member) : List Scheduled :=
  sim.pending.map fun e => if e.holder = some m then e.release else e

/-- `m = Simulator::Schedule(delay, event)` for a delay that is not negative. -/
def post (sim : Sim) (m : Member) (event : MacEvent) (delay : ℤ)
    (h : m.mayHold event = true := by exact Eq.refl true) : Sim where
  now := sim.now
  pending := sim.forget m ++ [⟨event, sim.now + delay, some m, by
    intro m' hm'
    cases hm'
    exact h⟩]

/-- `Simulator::Schedule(delay, event)` with its `EventId` thrown away. -/
def postAnonymous (sim : Sim) (event : MacEvent) (delay : ℤ) : Sim where
  now := sim.now
  pending := sim.pending ++ [⟨event, sim.now + delay, none, by simp⟩]

/-- `m.Cancel()`. -/
def cancel (sim : Sim) (m : Member) : Sim where
  now := sim.now
  pending := sim.pending.filter fun e => e.holder ≠ some m

/-- `m.IsRunning()`. -/
def isRunning (sim : Sim) (m : Member) : Bool :=
  sim.pending.any fun e => e.holder == some m

/-- Take event number `i` out of the queue and let its time be the current time. -/
def take (sim : Sim) (i : ℕ) : Option (Scheduled × Sim) :=
  match sim.pending[i]? with
  | some e => some (e, ⟨e.time, sim.pending.eraseIdx i⟩)
  | none => none

/-- The pending handlers with the times at which they run. -/
def timeline (sim : Sim) : List (MacEvent × ℤ) :=
  sim.pending.map fun e => (e.event, e.time)

/-- The part of the timeline whose handlers satisfy `p`. -/
def eventsOf (sim : Sim) (p : MacEvent → Bool) : List (MacEvent × ℤ) :=
  sim.timeline.filter fun x => p x.1

/-- The handler that member `m` refers to, with its time. -/
def held (sim : Sim) (m : Member) : List (MacEvent × ℤ) :=
  (sim.pending.filter fun e => e.holder = some m).map fun e => (e.event, e.time)

/-- Some pending handler satisfies `p`. -/
def Has (sim : Sim) (p : MacEvent → Bool) : Prop :=
  ∃ x ∈ sim.timeline, p x.1 = true

/-! ## What scheduling and cancelling do to the timeline -/

/-- Forgetting a member leaves the timeline alone. -/
theorem map_forget (sim : Sim) (m : Member) :
    (sim.forget m).map (fun e => (e.event, e.time)) = sim.timeline := by
  unfold forget timeline
  rw [map_map]
  refine map_congr_left fun e _ => ?_
  by_cases h : e.holder = some m
  · simp [h]
  · simp [h]

@[simp] theorem timeline_post (sim : Sim) (m : Member) (event : MacEvent) (delay : ℤ)
    (h : m.mayHold event = true) :
    (sim.post m event delay h).timeline = sim.timeline ++ [(event, sim.now + delay)] := by
  rw [← sim.map_forget m]
  simp [post, timeline]

@[simp] theorem timeline_postAnonymous (sim : Sim) (event : MacEvent) (delay : ℤ) :
    (sim.postAnonymous event delay).timeline
      = sim.timeline ++ [(event, sim.now + delay)] := by
  simp [postAnonymous, timeline]

@[simp] theorem eventsOf_post (sim : Sim) (p : MacEvent → Bool) (m : Member)
    (event : MacEvent) (delay : ℤ) (h : m.mayHold event = true) :
    (sim.post m event delay h).eventsOf p
      = sim.eventsOf p ++ if p event then [(event, sim.now + delay)] else [] := by
  unfold eventsOf
  rw [timeline_post, filter_append]
  cases hp : p event <;> simp [hp]

/-- Scheduling loses no event. -/
theorem eventsOf_subset_post (sim : Sim) (p : MacEvent → Bool) (m : Member) (event : MacEvent)
    (delay : ℤ) (h : m.mayHold event = true) :
    sim.eventsOf p ⊆ (sim.post m event delay h).eventsOf p := by
  rw [eventsOf_post]
  exact subset_append_left _ _

@[simp] theorem eventsOf_postAnonymous (sim : Sim) (p : MacEvent → Bool)
    (event : MacEvent) (delay : ℤ) :
    (sim.postAnonymous event delay).eventsOf p
      = sim.eventsOf p ++ if p event then [(event, sim.now + delay)] else [] := by
  unfold eventsOf
  rw [timeline_postAnonymous, filter_append]
  cases hp : p event <;> simp [hp]

/-- After an assignment the member refers to the new event only. -/
@[simp] theorem held_post (sim : Sim) (m : Member) (event : MacEvent) (delay : ℤ)
    (h : m.mayHold event = true) :
    (sim.post m event delay h).held m = [(event, sim.now + delay)] := by
  have hforget : (sim.forget m).filter (fun e => e.holder = some m) = [] := by
    rw [filter_eq_nil_iff]
    intro e he
    obtain ⟨e', _, rfl⟩ := mem_map.mp he
    by_cases hm : e'.holder = some m
    · simp [hm, Scheduled.release]
    · simp [hm]
  unfold held post
  rw [filter_append, hforget]
  simp

/-- An assignment to one member does not change what the others refer to. -/
theorem held_post_of_ne (sim : Sim) (m m' : Member) (event : MacEvent) (delay : ℤ)
    (h : m.mayHold event = true) (hne : m ≠ m') :
    (sim.post m event delay h).held m' = sim.held m' := by
  have hforget (es : List Scheduled) :
      (es.map fun e => if e.holder = some m then e.release else e).filter
          (fun e => e.holder = some m') = es.filter fun e => e.holder = some m' := by
    induction es with
    | nil => rfl
    | cons e es ih =>
      rw [map_cons, filter_cons, filter_cons, ih]
      by_cases hm : e.holder = some m
      · simp [hm, hne, Scheduled.release]
      · simp [hm]
  unfold held post forget
  rw [filter_append, hforget]
  simp [hne]

/-- Scheduling without a member does not change what the members refer to. -/
theorem held_postAnonymous (sim : Sim) (m : Member) (event : MacEvent) (delay : ℤ) :
    (sim.postAnonymous event delay).held m = sim.held m := by
  unfold held postAnonymous
  rw [filter_append]
  simp

/-- Cancelling one member does not change what the others refer to. -/
theorem held_cancel_of_ne (sim : Sim) (m m' : Member) (hne : m ≠ m') :
    (sim.cancel m).held m' = sim.held m' := by
  unfold held cancel
  rw [filter_filter]
  congr 1
  refine filter_congr fun e _ => ?_
  by_cases hm : e.holder = some m'
  · simp [hm, hne.symm]
  · simp [hm]

/-- A member is running exactly if it refers to an event. -/
theorem isRunning_iff_held (sim : Sim) (m : Member) : sim.isRunning m = true ↔ sim.held m ≠ [] := by
  unfold isRunning held
  rw [any_eq_true, ne_eq, map_eq_nil_iff, filter_eq_nil_iff]
  simp

/-- Cancelling a member removes none of the handlers that member cannot hold. -/
theorem eventsOf_cancel (sim : Sim) (p : MacEvent → Bool) (m : Member)
    (h : ∀ event, p event = true → m.mayHold event = false) :
    (sim.cancel m).eventsOf p = sim.eventsOf p := by
  unfold eventsOf timeline cancel
  rw [filter_map, filter_map, filter_filter]
  congr 1
  refine filter_congr fun e _ => ?_
  by_cases hp : p e.event = true
  · have hne : e.holder ≠ some m := fun hm => by
      have := e.holder_ok m hm
      rw [h e.event hp] at this
      cases this
    simp [hp, hne]
  · simp [hp]

variable {sim sim' : Sim} {p : MacEvent → Bool} {e : Scheduled} {i : ℕ}

/-- An event that is taken out was pending. -/
theorem getElem?_of_take (h : sim.take i = some (e, sim')) :
    sim.pending[i]? = some e := by
  unfold take at h
  split at h
  · rename_i e' he'
    cases h
    exact he'
  · cases h

/-- No event is taken out only where none is pending. -/
theorem getElem?_of_take_none {sim : Sim} (h : sim.take i = none) :
    sim.pending[i]? = none := by
  unfold take at h
  cases hi : sim.pending[i]? with
  | none => rfl
  | some e =>
    rw [hi] at h
    cases h

/-- The time of an event that is taken out becomes the current time. -/
theorem now_of_take (h : sim.take i = some (e, sim')) :
    sim'.now = e.time := by
  unfold take at h
  split at h
  · cases h
    rfl
  · cases h

/-- Taking an event out leaves those before it and behind it. -/
theorem pending_take (h : sim.take i = some (e, sim')) :
    ∃ before behind, sim.pending = before ++ e :: behind ∧ sim'.pending = before ++ behind := by
  obtain ⟨hi, rfl⟩ := List.getElem?_eq_some_iff.mp (getElem?_of_take h)
  unfold take at h
  rw [List.getElem?_eq_getElem hi] at h
  cases h
  refine ⟨sim.pending.take i, sim.pending.drop (i + 1), ?_, eraseIdx_eq_take_drop_succ ..⟩
  rw [← drop_eq_getElem_cons hi, take_append_drop]

/-- Taking an event out leaves the other handlers in place. -/
theorem eventsOf_take (sim sim' : Sim) (i : ℕ) (e : Scheduled) (p : MacEvent → Bool)
    (h : sim.take i = some (e, sim')) :
    (sim.eventsOf p).Perm
      ((if p e.event then [(e.event, e.time)] else []) ++ sim'.eventsOf p) := by
  obtain ⟨before, behind, hbefore, hafter⟩ := pending_take h
  have hperm : sim.pending.Perm (e :: sim'.pending) := by
    rw [hbefore, hafter]
    exact perm_middle
  have hmap := (hperm.map fun e => (e.event, e.time)).filter fun x => p x.1
  rw [map_cons, filter_cons] at hmap
  unfold eventsOf timeline
  split at hmap
  · rename_i hp
    simpa [hp] using hmap
  · rename_i hp
    simpa [hp] using hmap

/-- Taking out an event that does not satisfy `p` leaves that part of the timeline alone. -/
theorem eventsOf_take_of_not (sim sim' : Sim) (i : ℕ) (e : Scheduled) (p : MacEvent → Bool)
    (h : sim.take i = some (e, sim')) (hp : p e.event = false) :
    sim'.eventsOf p = sim.eventsOf p := by
  obtain ⟨before, behind, hbefore, hafter⟩ := pending_take h
  unfold eventsOf timeline
  simp only [hbefore, hafter, map_append, map_cons, filter_append,
    filter_cons, hp, Bool.false_eq_true, if_false]

/-- Taking out an event that a member does not refer to does not change what it refers to. -/
theorem held_take_of_ne (sim sim' : Sim) (i : ℕ) (e : Scheduled) (m : Member)
    (h : sim.take i = some (e, sim')) (hm : e.holder ≠ some m) : sim'.held m = sim.held m := by
  obtain ⟨before, behind, hbefore, hafter⟩ := pending_take h
  unfold held
  simp only [hbefore, hafter, filter_append, filter_cons, hm, decide_false,
    Bool.false_eq_true, if_false]

/-- What a member refers to is pending. -/
theorem held_subset_eventsOf (sim : Sim) (m : Member) (p : MacEvent → Bool)
    (h : ∀ event, m.mayHold event = true → p event = true) : sim.held m ⊆ sim.eventsOf p := by
  intro x hx
  obtain ⟨e, he, rfl⟩ := mem_map.mp hx
  obtain ⟨hmem, hholder⟩ := mem_filter.mp he
  exact mem_filter.mpr ⟨mem_map.mpr ⟨e, hmem, rfl⟩,
    h _ (e.holder_ok m (by simpa using hholder))⟩

/-- Cancelling a member takes out of the timeline what it refers to. -/
theorem eventsOf_perm_cancel (sim : Sim) (m : Member) (p : MacEvent → Bool)
    (h : ∀ event, m.mayHold event = true → p event = true) :
    (sim.eventsOf p).Perm (sim.held m ++ (sim.cancel m).eventsOf p) := by
  have hall : (sim.pending.filter fun e => e.holder = some m).filter
      (fun e => p e.event) = sim.pending.filter fun e => e.holder = some m := by
    refine filter_eq_self.mpr fun e he => ?_
    exact h _ (e.holder_ok m (by simpa using (mem_filter.mp he).2))
  have hperm := ((filter_append_perm (fun e : Scheduled => decide (e.holder = some m))
    sim.pending).symm.filter fun e => p e.event).map fun e => (e.event, e.time)
  rw [filter_append, hall, map_append] at hperm
  unfold eventsOf timeline held cancel
  rw [filter_map, filter_map]
  simpa [Function.comp_def] using hperm

/-- At most one event satisfies `p`, and member `m` refers to it. -/
structure Sole (sim : Sim) (m : Member) (p : MacEvent → Bool) : Prop where
  eventsOf : sim.eventsOf p = sim.held m
  length : (sim.held m).length ≤ 1

/-- Nothing is pending that satisfies `p`. -/
theorem sole_of_eventsOf_eq_nil (sim : Sim) (m : Member) (p : MacEvent → Bool)
    (h : ∀ event, m.mayHold event = true → p event = true) (hnil : sim.eventsOf p = []) :
    sim.Sole m p := by
  have hheld : sim.held m = [] :=
    subset_nil.mp (hnil ▸ sim.held_subset_eventsOf m p h)
  exact ⟨hnil.trans hheld.symm, by rw [hheld]; decide⟩

/-- Cancelling the member of the only event leaves none. -/
theorem Sole.eventsOf_cancel {sim : Sim} {m : Member} (hs : sim.Sole m p)
    (h : ∀ event, m.mayHold event = true → p event = true) :
    (sim.cancel m).eventsOf p = [] := by
  have hlen := (sim.eventsOf_perm_cancel m p h).length_eq
  rw [hs.eventsOf, length_append] at hlen
  exact length_eq_zero_iff.mp (by omega)

/-- Taking the only event out leaves none. -/
theorem Sole.eventsOf_take {m : Member} (hs : sim.Sole m p) (htake : sim.take i = some (e, sim'))
    (he : p e.event = true) : sim'.eventsOf p = [] := by
  have hlen := (Sim.eventsOf_take sim sim' i e p htake).length_eq
  have hone := hs.length
  rw [hs.eventsOf, if_pos he, length_append, length_singleton] at hlen
  exact length_eq_zero_iff.mp (by omega)

/-- The only event is the one that was scheduled when there was none. -/
theorem sole_post (sim : Sim) (m : Member) (p : MacEvent → Bool) (event : MacEvent) (delay : ℤ)
    (h : m.mayHold event = true) (hevent : p event = true) (hnil : sim.eventsOf p = []) :
    (sim.post m event delay h).Sole m p := by
  refine ⟨?_, by rw [held_post]; exact Nat.le_refl 1⟩
  rw [eventsOf_post, held_post, hnil, if_pos hevent]
  rfl

/-- A pending handler stays pending when another one is scheduled. -/
theorem Has.mono (h : sim.Has p) (hsub : sim.eventsOf p ⊆ sim'.eventsOf p) :
    sim'.Has p := by
  obtain ⟨x, hx, hp⟩ := h
  have hmem : x ∈ sim'.eventsOf p := hsub (mem_filter.mpr ⟨hx, hp⟩)
  exact ⟨x, (mem_filter.mp hmem).1, hp⟩

/-- Some handler is pending exactly when the part of the timeline is not empty. -/
theorem has_iff_eventsOf_ne_nil (sim : Sim) (p : MacEvent → Bool) :
    sim.Has p ↔ sim.eventsOf p ≠ [] := by
  constructor
  · rintro ⟨x, hx, hp⟩ hnil
    have hmem : x ∈ sim.eventsOf p := mem_filter.mpr ⟨hx, hp⟩
    rw [hnil] at hmem
    cases hmem
  · intro hne
    obtain ⟨x, hx⟩ := exists_mem_of_ne_nil _ hne
    exact ⟨x, (mem_filter.mp hx).1, (mem_filter.mp hx).2⟩

end Sim

end Ns3Dsme
