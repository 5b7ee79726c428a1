/-
# The simulator

`DefaultSimulatorImpl` takes the events out of its scheduler one after the other, moves the clock
to each and invokes it; the handlers schedule, cancel and remove events meanwhile.  Whether an
event is expired is not looked up: the time and the number of the current event decide it.

Everything holds as long as no event is given a time before the present one.  `Schedule` asserts
this of its delay; `ScheduleWithContext` does not.
-/
import Ns3Dsme.Core.ListScheduler
import Ns3Dsme.Lib.Machine

open List Program

namespace Ns3Dsme.Core

/-! ## Event identifiers -/

/-- `EventId`; the pointer is the number of an implementation. -/
structure EventId where
  eventImpl : Option ℕ
  ts : BitVec 64
  context : BitVec 32
  uid : BitVec 32
  deriving DecidableEq

/-- `EventId()`. -/
def EventId.default : EventId := ⟨none, 0, 0, 0⟩

/-- `EventId::UID::DESTROY`. -/
def uidDestroy : BitVec 32 := 2

/-- `EventId::UID::VALID`. -/
def uidValid : BitVec 32 := 4

/-- The identifier that is handed out for an event. -/
def Event.id (e : Event) : EventId := ⟨some e.impl, e.key.ts, e.key.context, e.key.uid⟩

/-! ## The simulator -/

/-- The members of `DefaultSimulatorImpl` over a scheduler.  `cancelled` has the implementations
whose `m_cancel` is set; `m_unscheduledEvents` is an `int` of 32 bits. -/
structure DefaultSimulatorImpl (S : CorrectScheduler) where
  stop : Bool
  uid : BitVec 32
  currentUid : BitVec 32
  currentTs : BitVec 64
  currentContext : BitVec 32
  unscheduledEvents : BitVec 32
  eventCount : BitVec 64
  events : S.Queue
  destroyEvents : List EventId
  cancelled : List ℕ

namespace DefaultSimulatorImpl

variable {S : CorrectScheduler}

/-- The constructor, and `SetScheduler`. -/
def construct (S : CorrectScheduler) : DefaultSimulatorImpl S where
  stop := false
  uid := uidValid
  currentUid := 0
  currentTs := 0
  currentContext := 0xffffffff
  unscheduledEvents := 0
  eventCount := 0
  events := S.create
  destroyEvents := []
  cancelled := []

/-- `EventImpl::IsCancelled`. -/
def isCancelled (s : DefaultSimulatorImpl S) (impl : ℕ) : Bool := s.cancelled.contains impl

/-- `EventImpl::Cancel`. -/
def cancelImpl (s : DefaultSimulatorImpl S) (impl : ℕ) : DefaultSimulatorImpl S :=
  { s with cancelled := impl :: s.cancelled }

/-- The event that the next insertion makes. -/
def newEvent (s : DefaultSimulatorImpl S) (context : BitVec 32) (delay : BitVec 64)
    (event : ℕ) : Event :=
  ⟨event, ⟨delay + s.currentTs, s.uid, context⟩⟩

/-- The counters after an insertion. -/
def inserted (s : DefaultSimulatorImpl S) (events : S.Queue) : DefaultSimulatorImpl S :=
  { s with uid := s.uid + 1, unscheduledEvents := s.unscheduledEvents + 1, events := events }

/-- The common part of `Schedule` and `ScheduleWithContext`.  The identifier that `Schedule`
returns is that of the event returned here. -/
def insertEvent (s : DefaultSimulatorImpl S) (context : BitVec 32) (delay : BitVec 64)
    (event : ℕ) : Except Fault (Event × DefaultSimulatorImpl S) :=
  (S.call s.events (.insert (s.newEvent context delay event))).map fun r =>
    (s.newEvent context delay event, s.inserted r.2)

/-- `Schedule`; a `Time` is a signed number of 64 bits. -/
def schedule (s : DefaultSimulatorImpl S) (delay : BitVec 64) (event : ℕ) :
    Except Fault (Event × DefaultSimulatorImpl S) :=
  if 0 ≤ delay.toInt then s.insertEvent s.currentContext delay event
  else .error .assertFailed

/-- `ScheduleWithContext`, called on the main thread. -/
def scheduleWithContext (s : DefaultSimulatorImpl S) (context : BitVec 32) (delay : BitVec 64)
    (event : ℕ) : Except Fault (Event × DefaultSimulatorImpl S) :=
  s.insertEvent context delay event

def scheduleNow (s : DefaultSimulatorImpl S) (event : ℕ) :
    Except Fault (Event × DefaultSimulatorImpl S) :=
  s.schedule 0 event

/-- The identifier that `ScheduleDestroy` makes. -/
def destroyId (s : DefaultSimulatorImpl S) (event : ℕ) : EventId :=
  ⟨some event, s.currentTs, 0xffffffff, uidDestroy⟩

def scheduleDestroy (s : DefaultSimulatorImpl S) (event : ℕ) :
    EventId × DefaultSimulatorImpl S :=
  (s.destroyId event,
    { s with uid := s.uid + 1, destroyEvents := s.destroyEvents ++ [s.destroyId event] })

def isExpired (s : DefaultSimulatorImpl S) (id : EventId) : Bool :=
  match id.eventImpl with
  | none => true
  | some impl =>
    if id.uid = uidDestroy then
      if s.isCancelled impl then true else !s.destroyEvents.contains id
    else
      decide (id.ts < s.currentTs ∨ id.ts = s.currentTs ∧ id.uid ≤ s.currentUid) ||
        s.isCancelled impl

def cancel (s : DefaultSimulatorImpl S) (id : EventId) : DefaultSimulatorImpl S :=
  match id.eventImpl with
  | none => s
  | some impl => if s.isExpired id then s else s.cancelImpl impl

/-- `Remove` for an event of time that is not expired. -/
def removeEvent (s : DefaultSimulatorImpl S) (ev : Event) :
    Except Fault (DefaultSimulatorImpl S) :=
  (S.call s.events (.remove ev)).map fun r =>
    { s.cancelImpl ev.impl with
      events := r.2, unscheduledEvents := s.unscheduledEvents - 1 }

def remove (s : DefaultSimulatorImpl S) (id : EventId) : Except Fault (DefaultSimulatorImpl S) :=
  if id.uid = uidDestroy then .ok { s with destroyEvents := s.destroyEvents.erase id }
  else
    match id.eventImpl with
    | none => .ok s
    | some impl =>
      if s.isExpired id then .ok s else s.removeEvent ⟨impl, ⟨id.ts, id.uid, id.context⟩⟩

/-- `ProcessOneEvent` as far as the event is known. -/
def moveTo (s : DefaultSimulatorImpl S) (next : Event) (events : S.Queue) :
    DefaultSimulatorImpl S :=
  { s with
    events := events
    unscheduledEvents := s.unscheduledEvents - 1
    eventCount := s.eventCount + 1
    currentTs := next.key.ts
    currentContext := next.key.context
    currentUid := next.key.uid }

/-- `ProcessOneEvent` up to the call of `Invoke`, which does nothing if the event is cancelled. -/
def processOneEvent (s : DefaultSimulatorImpl S) :
    Except Fault (Event × DefaultSimulatorImpl S) := do
  let r ← S.call s.events .removeNext
  match r.1 with
  | none => .error .emptyQueue
  | some next =>
    if next.key.ts < s.currentTs then .error .assertFailed
    else .ok (next, s.moveTo next r.2)

/-- The test that ends `Run`: no event was lost if none is left. -/
def endOfRun (s : DefaultSimulatorImpl S) : Except Fault (DefaultSimulatorImpl S) :=
  if S.isEmpty s.events = true ∧ s.unscheduledEvents ≠ 0 then .error .assertFailed else .ok s

/-- The time and the number of the current event. -/
def now (s : DefaultSimulatorImpl S) : ℕ ×ₗ ℕ := toLex (s.currentTs.toNat, s.currentUid.toNat)

end DefaultSimulatorImpl

/-! ## The program around the simulator -/

/-- The simulator, whether `Run` is active, how many implementations were made, and a record of
what happened: the events in the order in which they were scheduled, each with the time it was
scheduled for; the events that were invoked, each with the time shown by the clock; the same of
the events for `Destroy`; and the identifiers on which `Cancel` or `Remove` was called before
the event was invoked. -/
structure World (S : CorrectScheduler) where
  sim : DefaultSimulatorImpl S
  running : Bool
  impls : ℕ
  scheduled : List (Event × ℤ)
  invoked : List (Event × ℤ)
  destroys : List EventId
  destroyed : List EventId
  withdrawn : List EventId

/-- What the program and the handlers do.  `processOneEvent` and `destroyOne` are turns of the
loops of `Run` and `Destroy`; what follows one of them is done by its handler. -/
inductive Input
  | schedule (delay : BitVec 64)
  | scheduleWithContext (context : BitVec 32) (delay : BitVec 64)
  | scheduleNow
  | scheduleDestroy
  | cancel (id : EventId)
  | remove (id : EventId)
  | stop
  | run
  | processOneEvent
  | endOfRun
  | destroyOne
  deriving DecidableEq

namespace World

variable {S : CorrectScheduler}

def start (S : CorrectScheduler) : World S :=
  ⟨.construct S, false, 0, [], [], [], [], []⟩

/-- The identifiers that the program holds. -/
def issued (w : World S) : List EventId := w.scheduled.map (fun a => a.1.id) ++ w.destroys

/-- What happened to the events so far. -/
def ended (w : World S) : List EventId := w.invoked.map (fun a => a.1.id) ++ w.destroyed

/-- The time a delay leads to. -/
def dueAfter (w : World S) (delay : BitVec 64) : ℤ := w.sim.currentTs.toNat + delay.toInt

/-- An event was scheduled; `MakeEvent` had made its implementation. -/
def addScheduled (w : World S) (delay : BitVec 64) (r : Event × DefaultSimulatorImpl S) :
    World S :=
  { w with
    sim := r.2
    impls := w.impls + 1
    scheduled := w.scheduled ++ [(r.1, w.dueAfter delay)] }

def addDestroy (w : World S) (r : EventId × DefaultSimulatorImpl S) : World S :=
  { w with sim := r.2, impls := w.impls + 1, destroys := w.destroys ++ [r.1] }

/-- `Cancel` or `Remove` was called. -/
def addWithdrawn (w : World S) (id : EventId) (sim : DefaultSimulatorImpl S) : World S :=
  { w with sim := sim, withdrawn := if id ∈ w.ended then w.withdrawn else id :: w.withdrawn }

/-- An event was taken from the scheduler and, unless it is cancelled, its handler is called. -/
def addInvoked (w : World S) (r : Event × DefaultSimulatorImpl S) : World S :=
  { w with
    sim := r.2
    invoked :=
      if r.2.isCancelled r.1.impl then w.invoked
      else w.invoked ++ [(r.1, (r.2.currentTs.toNat : ℤ))] }

/-- What a turn of the loop of `Destroy` does with the first of `m_destroyEvents`. -/
def destroyOne (w : World S) (id : EventId) : World S :=
  { w with
    sim := { w.sim with destroyEvents := w.sim.destroyEvents.tail }
    destroyed :=
      if (id.eventImpl.map w.sim.isCancelled).getD false then w.destroyed
      else w.destroyed ++ [id] }

/-- A turn of the loop of `Destroy`. -/
def destroyFront (w : World S) : Except Fault (World S) :=
  match w.sim.destroyEvents.head? with
  | some id => .ok (w.destroyOne id)
  | none => .error .emptyQueue

/-- One input. -/
def step (w : World S) : Input → Except Fault (World S)
  | .schedule delay => (w.sim.schedule delay w.impls).map (w.addScheduled delay)
  | .scheduleWithContext context delay =>
    (w.sim.scheduleWithContext context delay w.impls).map (w.addScheduled delay)
  | .scheduleNow => (w.sim.scheduleNow w.impls).map (w.addScheduled 0)
  | .scheduleDestroy => .ok (w.addDestroy (w.sim.scheduleDestroy w.impls))
  | .cancel id => .ok (w.addWithdrawn id (w.sim.cancel id))
  | .remove id => (w.sim.remove id).map (w.addWithdrawn id)
  | .stop => .ok { w with sim := { w.sim with stop := true } }
  | .run => .ok { w with running := true, sim := { w.sim with stop := false } }
  | .processOneEvent => w.sim.processOneEvent.map w.addInvoked
  | .endOfRun => w.sim.endOfRun.map fun sim => { w with running := false, sim := sim }
  | .destroyOne => w.destroyFront

/-- Fewer than `2 ^ 32 - 4` events are scheduled in total. -/
def Room (w : World S) : Prop := w.scheduled.length + w.destroys.length + 1 < 2 ^ 32 - 4

/-- What the program may do: the delay of `Schedule` is not negative, identifiers are those that
were handed out, and the loops take their turns. -/
def Enabled (w : World S) : Input → Prop
  | .schedule delay => 0 ≤ delay.toInt ∧ w.Room
  | .scheduleWithContext _ _ => w.Room
  | .scheduleNow => w.Room
  | .scheduleDestroy => w.Room
  | .cancel id => id ∈ w.issued ∨ id = .default
  | .remove id => id ∈ w.issued ∨ id = .default
  | .stop => True
  | .run => w.running = false
  | .processOneEvent =>
    w.running = true ∧ S.isEmpty w.sim.events = false ∧ w.sim.stop = false
  | .endOfRun => w.running = true ∧ (S.isEmpty w.sim.events = true ∨ w.sim.stop = true)
  | .destroyOne => w.running = false ∧ w.sim.destroyEvents ≠ []

def machine (S : CorrectScheduler) : Machine (World S) Input Fault where
  enabled := Enabled
  step := step

/-- What is promised of a state that a run reaches. -/
structure Proper (w : World S) : Prop where
  /-- Invocations are in the order of time, and of scheduling where the times are equal. -/
  ordered : w.invoked.Pairwise fun a b =>
    a.2 < b.2 ∨ a.2 = b.2 ∧ w.scheduled.idxOf a < w.scheduled.idxOf b
  /-- What is invoked was scheduled, for the time that the clock shows. -/
  timely : ∀ a ∈ w.invoked, a ∈ w.scheduled
  /-- Nothing is invoked twice. -/
  scheduled_nodup : w.scheduled.Nodup
  invoked_nodup : w.invoked.Nodup
  destroyed_nodup : w.destroyed.Nodup
  /-- Nothing that was cancelled or removed is invoked. -/
  withdrawn : ∀ id ∈ w.ended, id ∉ w.withdrawn
  /-- No event is lost: what was not invoked or called off is in the scheduler. -/
  accounted : ∀ a ∈ w.scheduled,
    a.1 ∈ S.stored w.sim.events ∨ a ∈ w.invoked ∨ a.1.id ∈ w.withdrawn
  /-- If the scheduler has no more events, all were invoked that were not called off. -/
  settled : S.isEmpty w.sim.events = true →
    ∀ a ∈ w.scheduled, a ∈ w.invoked ∨ a.1.id ∈ w.withdrawn
  destroys_settled : w.sim.destroyEvents = [] →
    ∀ id ∈ w.destroys, id ∈ w.destroyed ∨ id ∈ w.withdrawn
  /-- `IsExpired` tells which events are over or called off. -/
  expired : ∀ id ∈ w.issued, w.sim.isExpired id = true ↔ id ∈ w.ended ∨ id ∈ w.withdrawn
  counts : w.sim.unscheduledEvents.toInt = (S.stored w.sim.events).card
  /-- No assertion fails. -/
  progress : ∀ i, w.Enabled i → ∃ w', w.step i = .ok w'

/-- No event is given a time before the present one or after the last that a `Time` can have,
and `m_unscheduledEvents` can count the events. -/
def Fits (w : World S) : Input → Prop
  | .schedule delay => w.dueAfter delay < 2 ^ 63 ∧ (S.stored w.sim.events).card + 1 < 2 ^ 31
  | .scheduleWithContext _ delay =>
    0 ≤ delay.toInt ∧ w.dueAfter delay < 2 ^ 63 ∧ (S.stored w.sim.events).card + 1 < 2 ^ 31
  | .scheduleNow => (S.stored w.sim.events).card + 1 < 2 ^ 31
  | _ => True

/-! ## What holds between the calls -/

/-- The numbers and the implementations of the events that were scheduled. -/
structure Numbering (w : World S) : Prop where
  next : w.sim.uid.toNat = 4 + w.scheduled.length + w.destroys.length
  room : w.scheduled.length + w.destroys.length < 2 ^ 32 - 4
  uids : ∀ a ∈ w.scheduled, 4 ≤ a.1.key.uid.toNat ∧ a.1.key.uid.toNat < w.sim.uid.toNat
  increasing : w.scheduled.Pairwise fun a b => a.1.key.uid.toNat < b.1.key.uid.toNat
  due : ∀ a ∈ w.scheduled, a.2 = a.1.key.ts.toNat
  destroy_uids : ∀ id ∈ w.destroys, id.uid = uidDestroy
  owned : ∀ id ∈ w.issued, ∃ n < w.impls, id.eventImpl = some n
  separate : ∀ id ∈ w.issued, ∀ id' ∈ w.issued, id.eventImpl = id'.eventImpl → id = id'
  marked : ∀ n ∈ w.sim.cancelled, n < w.impls
  known : ∀ id ∈ w.withdrawn, id ∈ w.issued ∨ id = .default

/-- What the scheduler holds is ahead of the current event. -/
structure Ahead (w : World S) : Prop where
  scheduled : ∀ e ∈ S.stored w.sim.events, ∃ a ∈ w.scheduled, a.1 = e
  nodup : ((S.stored w.sim.events).map fun e => e.key.uid).Nodup
  later : ∀ e ∈ S.stored w.sim.events, w.sim.now < e.rank
  current : w.sim.currentUid.toNat < w.sim.uid.toNat
  count : w.sim.unscheduledEvents.toNat = (S.stored w.sim.events).card
  small : (S.stored w.sim.events).card < 2 ^ 31

/-- What was invoked is not ahead, and no event is lost. -/
structure Past (w : World S) : Prop where
  past : ∀ a ∈ w.invoked, a.1.rank ≤ w.sim.now
  scheduled : ∀ a ∈ w.invoked, a ∈ w.scheduled
  sorted : w.invoked.Pairwise fun a b => a.1.rank < b.1.rank
  accounted : ∀ a ∈ w.scheduled,
    a.1 ∈ S.stored w.sim.events ∨ a ∈ w.invoked ∨ a.1.id ∈ w.withdrawn
  flags : ∀ a ∈ w.scheduled, a.1.impl ∈ w.sim.cancelled ↔ a.1.id ∈ w.withdrawn
  exclusive : ∀ a ∈ w.invoked, a.1.id ∉ w.withdrawn

/-- The same of the events for `Destroy`; those that were removed keep their flag. -/
structure Destruction (w : World S) : Prop where
  pending : ∀ id ∈ w.sim.destroyEvents, id ∈ w.destroys
  pending_nodup : w.sim.destroyEvents.Nodup
  destroyed : ∀ id ∈ w.destroyed, id ∈ w.destroys
  destroyed_nodup : w.destroyed.Nodup
  gone : ∀ id ∈ w.destroyed, id ∉ w.sim.destroyEvents
  accounted : ∀ id ∈ w.destroys,
    id ∈ w.sim.destroyEvents ∨ id ∈ w.destroyed ∨ id ∈ w.withdrawn
  flags : ∀ id ∈ w.destroys, ∀ n ∈ w.sim.cancelled, id.eventImpl = some n → id ∈ w.withdrawn
  flagged : ∀ id ∈ w.sim.destroyEvents, id ∈ w.withdrawn →
    ∃ n ∈ w.sim.cancelled, id.eventImpl = some n
  exclusive : ∀ id ∈ w.destroyed, id ∉ w.withdrawn

structure Inv (w : World S) : Prop where
  numbering : w.Numbering
  ahead : w.Ahead
  past : w.Past
  destruction : w.Destruction

theorem inv_start (S : CorrectScheduler) : (start S).Inv := by
  have hstored : S.stored (start S).sim.events = 0 := S.stored_create
  constructor
  · constructor
    case next => rfl
    case room => exact Nat.zero_lt_succ _
    all_goals simp [start, issued, DefaultSimulatorImpl.construct]
  · constructor
    case current => exact Nat.zero_lt_succ _
    case count =>
      rw [hstored]
      rfl
    all_goals simp [hstored]
  · constructor <;> simp [start]
  · constructor <;> simp [start, DefaultSimulatorImpl.construct]

/-! ## Looking up an identifier -/

theorem id_injective {e e' : Event} (h : e.id = e'.id) : e = e' := by
  obtain ⟨impl, ts, uid, context⟩ := e
  obtain ⟨impl', ts', uid', context'⟩ := e'
  unfold Event.id at h
  simp only [EventId.mk.injEq, Option.some.injEq] at h
  obtain ⟨rfl, rfl, rfl, rfl⟩ := h
  rfl

theorem mem_issued (w : World S) (id : EventId) :
    id ∈ w.issued ↔ (∃ a ∈ w.scheduled, a.1.id = id) ∨ id ∈ w.destroys := by
  unfold issued
  rw [mem_append, mem_map]

theorem issued_of_scheduled {w : World S} {a : Event × ℤ} (ha : a ∈ w.scheduled) :
    a.1.id ∈ w.issued :=
  (w.mem_issued _).mpr (.inl ⟨a, ha, rfl⟩)

theorem issued_of_destroys {w : World S} {id : EventId} (hid : id ∈ w.destroys) :
    id ∈ w.issued :=
  (w.mem_issued _).mpr (.inr hid)

namespace Numbering

variable {w : World S}

/-- An event of time does not have the number of those for `Destroy`. -/
theorem uid_ne (h : w.Numbering) {a : Event × ℤ} (ha : a ∈ w.scheduled) :
    a.1.id.uid ≠ uidDestroy := by
  intro huid
  have hfour := (h.uids a ha).1
  have htwo : a.1.key.uid.toNat = 2 := congrArg BitVec.toNat huid
  omega

theorem id_ne_of_destroys (h : w.Numbering) {a : Event × ℤ} (ha : a ∈ w.scheduled) {id : EventId}
    (hid : id ∈ w.destroys) : a.1.id ≠ id := by
  rintro rfl
  exact h.uid_ne ha (h.destroy_uids _ hid)

/-- An event was scheduled once. -/
theorem eq_of_fst_eq (h : w.Numbering) {a b : Event × ℤ} (ha : a ∈ w.scheduled)
    (hb : b ∈ w.scheduled) (hab : a.1 = b.1) : a = b := by
  have hdue : a.2 = b.2 := by rw [h.due a ha, h.due b hb, hab]
  exact Prod.ext hab hdue

theorem nodup (h : w.Numbering) : w.scheduled.Nodup :=
  h.increasing.imp fun hlt heq => absurd hlt (by rw [heq]; exact lt_irrefl _)

end Numbering

namespace Inv

variable {w : World S}

theorem mem_ended_event (h : w.Inv) {a : Event × ℤ} (ha : a ∈ w.scheduled) :
    a.1.id ∈ w.ended ↔ a ∈ w.invoked := by
  unfold ended
  rw [mem_append, mem_map]
  constructor
  · rintro (⟨b, hb, hid⟩ | hdestroyed)
    · have heq := h.numbering.eq_of_fst_eq (h.past.scheduled b hb) ha (id_injective hid)
      rwa [← heq]
    · exact absurd rfl (h.numbering.id_ne_of_destroys ha (h.destruction.destroyed _ hdestroyed))
  · intro hmem
    exact .inl ⟨a, hmem, rfl⟩

variable {id : EventId}

theorem mem_ended_destroy (h : w.Inv) (hid : id ∈ w.destroys) :
    id ∈ w.ended ↔ id ∈ w.destroyed := by
  unfold ended
  rw [mem_append, mem_map]
  constructor
  · rintro (⟨b, hb, rfl⟩ | hdestroyed)
    · exact absurd rfl (h.numbering.id_ne_of_destroys (h.past.scheduled b hb) hid)
    · exact hdestroyed
  · exact .inr

theorem expired_iff_rank (w : World S) {e : Event} (huid : e.key.uid ≠ uidDestroy) :
    w.sim.isExpired e.id = true ↔ e.rank ≤ w.sim.now ∨ e.impl ∈ w.sim.cancelled := by
  have hrank : e.rank ≤ w.sim.now ↔
      e.key.ts < w.sim.currentTs ∨ e.key.ts = w.sim.currentTs ∧ e.key.uid ≤ w.sim.currentUid := by
    unfold Event.rank EventKey.rank DefaultSimulatorImpl.now
    rw [Prod.Lex.toLex_le_toLex, BitVec.lt_def, BitVec.le_def, ← BitVec.toNat_inj]
  unfold DefaultSimulatorImpl.isExpired
  show (if e.key.uid = uidDestroy then _ else _) = true ↔ _
  rw [if_neg huid, Bool.or_eq_true, decide_eq_true_iff]
  exact or_congr hrank.symm contains_iff_mem

/-- **Expiry is execution.**  An event is behind the current one exactly if it was invoked. -/
theorem expired_event (h : w.Inv) {a : Event × ℤ} (ha : a ∈ w.scheduled) :
    w.sim.isExpired a.1.id = true ↔ a ∈ w.invoked ∨ a.1.id ∈ w.withdrawn := by
  rw [expired_iff_rank w (h.numbering.uid_ne ha), h.past.flags a ha]
  constructor
  · rintro (hle | hwithdrawn)
    · rcases h.past.accounted a ha with hstored | hrest
      · exact absurd hle (not_le_of_gt (h.ahead.later _ hstored))
      · exact hrest
    · exact .inr hwithdrawn
  · rintro (hinvoked | hwithdrawn)
    · exact .inl (h.past.past a hinvoked)
    · exact .inr hwithdrawn

theorem expired_destroy (h : w.Inv) (hid : id ∈ w.destroys) :
    w.sim.isExpired id = true ↔ id ∈ w.destroyed ∨ id ∈ w.withdrawn := by
  obtain ⟨n, -, hn⟩ := h.numbering.owned id (issued_of_destroys hid)
  unfold DefaultSimulatorImpl.isExpired DefaultSimulatorImpl.isCancelled
  rw [hn]
  dsimp only
  rw [if_pos (h.numbering.destroy_uids id hid)]
  split
  · rename_i hflag
    exact iff_of_true rfl (.inr (h.destruction.flags id hid n (by simpa using hflag) hn))
  · rename_i hflag
    rw [Bool.not_eq_true', ← Bool.not_eq_true, contains_iff_mem]
    constructor
    · intro hgone
      rcases h.destruction.accounted id hid with hpending | hrest
      · exact absurd hpending hgone
      · exact hrest
    · rintro (hdestroyed | hwithdrawn) hpending
      · exact h.destruction.gone id hdestroyed hpending
      · obtain ⟨m, hm, heq⟩ := h.destruction.flagged id hpending hwithdrawn
        rw [hn, Option.some_inj] at heq
        exact hflag (by rw [heq]; simpa using hm)

/-- `IsExpired` tells what is over or called off. -/
theorem expired (h : w.Inv) (hid : id ∈ w.issued) :
    w.sim.isExpired id = true ↔ id ∈ w.ended ∨ id ∈ w.withdrawn := by
  rcases (w.mem_issued id).mp hid with ⟨a, ha, rfl⟩ | hdestroy
  · rw [h.mem_ended_event ha, h.expired_event ha]
  · rw [h.mem_ended_destroy hdestroy, h.expired_destroy hdestroy]

end Inv

/-! ## Scheduling -/

section Scheduling

variable {w : World S} {delay : BitVec 64}

/-- The time of a new event, where 64 bits are enough for it. -/
theorem ts_newEvent (context : BitVec 32) (hpos : 0 ≤ delay.toInt) (hdue : w.dueAfter delay < 2 ^ 64) (event : ℕ) :
    ((w.sim.newEvent context delay event).key.ts.toNat : ℤ) = w.dueAfter delay := by
  have hdelay : delay.toInt = delay.toNat := by
    rw [BitVec.toInt_eq_toNat_cond] at hpos ⊢
    split at hpos
    · rename_i hsmall
      rw [if_pos hsmall]
    · have hlt := delay.isLt
      omega
  unfold dueAfter at hdue ⊢
  rw [hdelay] at hdue ⊢
  show ((delay + w.sim.currentTs).toNat : ℤ) = _
  rw [BitVec.toNat_add, Nat.mod_eq_of_lt (by omega)]
  omega

/-- A new event is ahead of the current one. -/
theorem now_lt_newEvent (context : BitVec 32) (hcurrent : w.sim.currentUid.toNat < w.sim.uid.toNat)
    (hpos : 0 ≤ delay.toInt) (hdue : w.dueAfter delay < 2 ^ 64) (event : ℕ) :
    w.sim.now < (w.sim.newEvent context delay event).rank := by
  have hts := ts_newEvent context hpos hdue event
  unfold dueAfter at hts
  unfold DefaultSimulatorImpl.now Event.rank EventKey.rank
  rw [Prod.Lex.toLex_lt_toLex]
  have hcases : w.sim.currentTs.toNat < (w.sim.newEvent context delay event).key.ts.toNat ∨
      w.sim.currentTs.toNat = (w.sim.newEvent context delay event).key.ts.toNat := by omega
  exact hcases.imp_right fun heq => ⟨heq, hcurrent⟩

/-- The next number, as long as there is room. -/
theorem Numbering.toNat_succ (h : w.Numbering) (hroom : w.Room) :
    (w.sim.uid + 1).toNat = w.sim.uid.toNat + 1 := by
  have hnext := h.next
  unfold Room at hroom
  rw [BitVec.toNat_add]
  exact Nat.mod_eq_of_lt (by show w.sim.uid.toNat + 1 < 2 ^ 32; omega)

/-- An implementation that was just made belongs to no other identifier. -/
theorem Numbering.fresh (h : w.Numbering) {id : EventId} (hid : id ∈ w.issued) :
    id.eventImpl ≠ some w.impls := by
  intro heq
  obtain ⟨n, hn, himpl⟩ := h.owned id hid
  rw [heq, Option.some_inj] at himpl
  omega

variable {new : EventId}

/-- Identifiers stay apart when one for a new implementation joins them. -/
theorem Numbering.separate_cons (h : w.Numbering) (hnew : new.eventImpl = some w.impls) :
    ∀ id, id ∈ w.issued ∨ id = new → ∀ id', id' ∈ w.issued ∨ id' = new →
      id.eventImpl = id'.eventImpl → id = id' := by
  rintro id (hid | rfl) id' (hid' | rfl) heq
  · exact h.separate id hid id' hid' heq
  · exact absurd (heq.trans hnew) (h.fresh hid)
  · exact absurd (heq.symm.trans hnew) (h.fresh hid')
  · rfl

theorem Numbering.owned_cons (h : w.Numbering) (hnew : new.eventImpl = some w.impls) :
    ∀ id, id ∈ w.issued ∨ id = new → ∃ n < w.impls + 1, id.eventImpl = some n := by
  rintro id (hid | rfl)
  · obtain ⟨n, hn, himpl⟩ := h.owned id hid
    exact ⟨n, by omega, himpl⟩
  · exact ⟨w.impls, by omega, hnew⟩

theorem mem_issued_addScheduled (ev : Event) (q : S.Queue) (id : EventId) :
    id ∈ (w.addScheduled delay (ev, w.sim.inserted q)).issued ↔ id ∈ w.issued ∨ id = ev.id := by
  rw [mem_issued, mem_issued]
  show (∃ a ∈ w.scheduled ++ [(ev, w.dueAfter delay)], a.1.id = id) ∨ id ∈ w.destroys ↔ _
  constructor
  · rintro (⟨a, ha, hid⟩ | hid)
    · rcases mem_append.mp ha with hold | hnew
      · exact .inl (.inl ⟨a, hold, hid⟩)
      · rw [mem_singleton.mp hnew] at hid
        exact .inr hid.symm
    · exact .inl (.inr hid)
  · rintro ((⟨a, ha, hid⟩ | hid) | rfl)
    · exact .inl ⟨a, mem_append_left _ ha, hid⟩
    · exact .inr hid
    · exact .inl ⟨_, mem_append_right _ (mem_singleton_self _), rfl⟩

theorem Numbering.addScheduled (h : w.Numbering) (hroom : w.Room) (hpos : 0 ≤ delay.toInt)
    (hdue : w.dueAfter delay < 2 ^ 64) (q : S.Queue) :
    (w.addScheduled delay (w.sim.newEvent context delay w.impls, w.sim.inserted q)).Numbering := by
  have hsucc := h.toNat_succ hroom
  have hnext := h.next
  constructor
  case next =>
    show (w.sim.uid + 1).toNat = 4 + (w.scheduled ++ [_]).length + w.destroys.length
    rw [hsucc, hnext, length_append, length_singleton]
    omega
  case room =>
    show (w.scheduled ++ [_]).length + w.destroys.length < _
    rw [length_append, length_singleton]
    unfold Room at hroom
    omega
  case uids =>
    intro a ha
    show _ ∧ _ < (w.sim.uid + 1).toNat
    rw [hsucc]
    rcases mem_append.mp ha with hold | hnew
    · have huids := h.uids a hold
      omega
    · rw [mem_singleton.mp hnew]
      show 4 ≤ w.sim.uid.toNat ∧ w.sim.uid.toNat < w.sim.uid.toNat + 1
      omega
  case increasing =>
    refine pairwise_append.mpr ⟨h.increasing, pairwise_singleton _ _, ?_⟩
    intro a ha b hb
    rw [mem_singleton.mp hb]
    exact (h.uids a ha).2
  case due =>
    intro a ha
    rcases mem_append.mp ha with hold | hnew
    · exact h.due a hold
    · rw [mem_singleton.mp hnew]
      exact (ts_newEvent _ hpos hdue _).symm
  case destroy_uids => exact h.destroy_uids
  case owned =>
    intro id hid
    exact h.owned_cons rfl id ((mem_issued_addScheduled _ _ _).mp hid)
  case separate =>
    intro id hid id' hid'
    exact h.separate_cons rfl id ((mem_issued_addScheduled _ _ _).mp hid) id'
      ((mem_issued_addScheduled _ _ _).mp hid')
  case marked => exact fun n hn => (h.marked n hn).trans (Nat.lt_succ_self _)
  case known =>
    intro id hid
    exact (h.known id hid).imp_left fun hold => (mem_issued_addScheduled _ _ _).mpr (.inl hold)

theorem Ahead.addScheduled (h : w.Ahead) (hnumbering : w.Numbering) (hroom : w.Room)
    (hpos : 0 ≤ delay.toInt) (hdue : w.dueAfter delay < 2 ^ 64)
    (hcard : (S.stored w.sim.events).card + 1 < 2 ^ 31) (q : S.Queue)
    (hq : S.stored q =
      w.sim.newEvent context delay w.impls ::ₘ S.stored w.sim.events) :
    (w.addScheduled delay (w.sim.newEvent context delay w.impls, w.sim.inserted q)).Ahead := by
  have hstored : S.stored (w.addScheduled delay
      (w.sim.newEvent context delay w.impls, w.sim.inserted q)).sim.events = _ := hq
  constructor
  case scheduled =>
    rw [hstored]
    intro e he
    rcases Multiset.mem_cons.mp he with rfl | hold
    · exact ⟨_, mem_append_right _ (mem_singleton_self _), rfl⟩
    · obtain ⟨a, ha, heq⟩ := h.scheduled e hold
      exact ⟨a, mem_append_left _ ha, heq⟩
  case nodup =>
    rw [hstored, Multiset.map_cons, Multiset.nodup_cons]
    refine ⟨fun hmem => ?_, h.nodup⟩
    obtain ⟨e, he, huid⟩ := Multiset.mem_map.mp hmem
    obtain ⟨a, ha, rfl⟩ := h.scheduled e he
    have hlt := (hnumbering.uids a ha).2
    rw [huid] at hlt
    exact absurd hlt (lt_irrefl w.sim.uid.toNat)
  case later =>
    rw [hstored]
    intro e he
    rcases Multiset.mem_cons.mp he with rfl | hold
    · exact now_lt_newEvent _ h.current hpos hdue _
    · exact h.later e hold
  case current =>
    show w.sim.currentUid.toNat < (w.sim.uid + 1).toNat
    rw [hnumbering.toNat_succ hroom]
    have hcurrent := h.current
    omega
  case count =>
    rw [hstored, Multiset.card_cons]
    show (w.sim.unscheduledEvents + 1).toNat = _
    have hcount := h.count
    rw [BitVec.toNat_add, hcount]
    exact Nat.mod_eq_of_lt (by show (S.stored w.sim.events).card + 1 < 2 ^ 32; omega)
  case small =>
    rw [hstored, Multiset.card_cons]
    exact hcard

/-- A new identifier was not withdrawn. -/
theorem Numbering.not_withdrawn (h : w.Numbering) (hnew : new.eventImpl = some w.impls) :
    new ∉ w.withdrawn := by
  intro hmem
  rcases h.known new hmem with hold | rfl
  · exact h.fresh hold hnew
  · cases hnew

theorem Past.addScheduled (h : w.Past) (hnumbering : w.Numbering) (q : S.Queue) (ev : Event)
    (hev : ev.impl = w.impls) (hq : S.stored q = ev ::ₘ S.stored w.sim.events) :
    (w.addScheduled delay (ev, w.sim.inserted q)).Past := by
  have hfresh : ev.id ∉ w.withdrawn := hnumbering.not_withdrawn (congrArg some hev)
  constructor
  case past => exact h.past
  case scheduled => exact fun a ha => mem_append_left _ (h.scheduled a ha)
  case sorted => exact h.sorted
  case accounted =>
    intro a ha
    show a.1 ∈ S.stored q ∨ _
    rw [hq, Multiset.mem_cons]
    rcases mem_append.mp ha with hold | hnew
    · exact (h.accounted a hold).imp_left .inr
    · rw [mem_singleton.mp hnew]
      exact .inl (.inl rfl)
  case flags =>
    intro a ha
    rcases mem_append.mp ha with hold | hnew
    · exact h.flags a hold
    · rw [mem_singleton.mp hnew]
      refine iff_of_false (fun hmem => ?_) hfresh
      have hlt := hnumbering.marked _ hmem
      rw [hev] at hlt
      exact lt_irrefl _ hlt
  case exclusive => exact h.exclusive

theorem Destruction.addScheduled (h : w.Destruction) (q : S.Queue) (ev : Event) :
    (w.addScheduled delay (ev, w.sim.inserted q)).Destruction :=
  { h with }

/-- An insertion succeeds, whatever the delay. -/
theorem Inv.exists_insertEvent (h : w.Inv) (context : BitVec 32) (delay : BitVec 64) :
    ∃ q, w.sim.insertEvent context delay w.impls =
        .ok (w.sim.newEvent context delay w.impls, w.sim.inserted q) ∧
      S.stored q = w.sim.newEvent context delay w.impls ::ₘ S.stored w.sim.events := by
  have hnumbered : Call.Numbered (S.stored w.sim.events)
      (.insert (w.sim.newEvent context delay w.impls)) := by
    refine ⟨h.ahead.nodup, ?_⟩
    rintro ev hev e he huid
    cases hev
    obtain ⟨a, ha, rfl⟩ := h.ahead.scheduled e he
    have hlt := (h.numbering.uids a ha).2
    rw [huid] at hlt
    exact lt_irrefl w.sim.uid.toNat hlt
  obtain ⟨answer, q, hcall, -, hq⟩ := S.serves _ _ hnumbered trivial
  refine ⟨q, ?_, hq⟩
  unfold DefaultSimulatorImpl.insertEvent
  rw [hcall]
  rfl

/-- **Scheduling.** -/
theorem Inv.insertEvent (h : w.Inv) (context : BitVec 32) (hroom : w.Room) (hpos : 0 ≤ delay.toInt)
    (hdue : w.dueAfter delay < 2 ^ 64) (hcard : (S.stored w.sim.events).card + 1 < 2 ^ 31) :
    Post ((w.sim.insertEvent context delay w.impls).map (w.addScheduled delay)) Inv := by
  obtain ⟨q, hinsert, hq⟩ := h.exists_insertEvent context delay
  rw [hinsert]
  exact ⟨h.numbering.addScheduled hroom hpos hdue q,
    h.ahead.addScheduled h.numbering hroom hpos hdue hcard q hq,
    h.past.addScheduled h.numbering q _ rfl hq, h.destruction.addScheduled q _⟩

theorem mem_issued_addDestroy (new : EventId) (sim : DefaultSimulatorImpl S) (id : EventId) :
    id ∈ (w.addDestroy (new, sim)).issued ↔ id ∈ w.issued ∨ id = new := by
  rw [mem_issued, mem_issued]
  show _ ∨ id ∈ w.destroys ++ [new] ↔ _
  rw [mem_append, mem_singleton, or_assoc]
  rfl

/-- **Scheduling for `Destroy`.** -/
theorem Inv.scheduleDestroy (h : w.Inv) (hroom : w.Room) :
    (w.addDestroy (w.sim.scheduleDestroy w.impls)).Inv := by
  have hsucc := h.numbering.toNat_succ hroom
  have hnext := h.numbering.next
  have hnew : (w.sim.destroyId w.impls).eventImpl = some w.impls := rfl
  have hfresh : w.sim.destroyId w.impls ∉ w.issued := fun hmem => h.numbering.fresh hmem hnew
  have hdestroys : w.sim.destroyId w.impls ∉ w.destroys :=
    fun hmem => hfresh (issued_of_destroys hmem)
  have hwithdrawn := h.numbering.not_withdrawn hnew
  constructor
  · constructor
    case next =>
      show (w.sim.uid + 1).toNat = 4 + w.scheduled.length + (w.destroys ++ [_]).length
      rw [hsucc, hnext, length_append, length_singleton]
      omega
    case room =>
      show w.scheduled.length + (w.destroys ++ [_]).length < _
      rw [length_append, length_singleton]
      unfold Room at hroom
      omega
    case uids =>
      intro a ha
      show _ ∧ _ < (w.sim.uid + 1).toNat
      rw [hsucc]
      have huids := h.numbering.uids a ha
      omega
    case increasing => exact h.numbering.increasing
    case due => exact h.numbering.due
    case destroy_uids =>
      intro id hid
      rcases mem_append.mp hid with hold | hid
      · exact h.numbering.destroy_uids id hold
      · rw [mem_singleton.mp hid]
        rfl
    case owned =>
      intro id hid
      exact h.numbering.owned_cons hnew id ((mem_issued_addDestroy _ _ _).mp hid)
    case separate =>
      intro id hid id' hid'
      exact h.numbering.separate_cons hnew id ((mem_issued_addDestroy _ _ _).mp hid) id'
        ((mem_issued_addDestroy _ _ _).mp hid')
    case marked => exact fun n hn => (h.numbering.marked n hn).trans (Nat.lt_succ_self _)
    case known =>
      intro id hid
      exact (h.numbering.known id hid).imp_left
        fun hold => (mem_issued_addDestroy _ _ _).mpr (.inl hold)
  · refine ⟨h.ahead.scheduled, h.ahead.nodup, h.ahead.later, ?_, h.ahead.count, h.ahead.small⟩
    show w.sim.currentUid.toNat < (w.sim.uid + 1).toNat
    rw [hsucc]
    have hcurrent := h.ahead.current
    omega
  · exact { h.past with }
  · have hd := h.destruction
    constructor
    case pending =>
      intro id hid
      exact mem_append.mpr ((mem_append.mp hid).imp_left (hd.pending id))
    case pending_nodup =>
      refine nodup_append.mpr ⟨hd.pending_nodup, nodup_singleton _, ?_⟩
      rintro id hid _ hlast rfl
      rw [mem_singleton.mp hlast] at hid
      exact hdestroys (hd.pending _ hid)
    case destroyed => exact fun id hid => mem_append_left _ (hd.destroyed id hid)
    case destroyed_nodup => exact hd.destroyed_nodup
    case gone =>
      intro id hid hmem
      rcases mem_append.mp hmem with hold | hlast
      · exact hd.gone id hid hold
      · rw [mem_singleton.mp hlast] at hid
        exact hdestroys (hd.destroyed _ hid)
    case accounted =>
      intro id hid
      rcases mem_append.mp hid with hold | hlast
      · exact (hd.accounted id hold).imp_left (mem_append_left _)
      · exact .inl (mem_append_right _ hlast)
    case flags =>
      intro id hid n hn himpl
      rcases mem_append.mp hid with hold | hlast
      · exact hd.flags id hold n hn himpl
      · have heq : w.impls = n := by
          rw [mem_singleton.mp hlast] at himpl
          exact Option.some_inj.mp (hnew.symm.trans himpl)
        exact absurd (h.numbering.marked n hn) (by rw [heq]; exact lt_irrefl _)
    case flagged =>
      intro id hid hgone
      rcases mem_append.mp hid with hold | hlast
      · exact hd.flagged id hold hgone
      · rw [mem_singleton.mp hlast] at hgone
        exact absurd hgone hwithdrawn
    case exclusive => exact hd.exclusive

end Scheduling

/-! ## Calling off -/

section CallingOff

variable {w : World S}

/-- `Cancel` and `Remove` put an identifier on the record, except after its event was invoked. -/
theorem mem_withdrawn_addWithdrawn (id : EventId) (sim : DefaultSimulatorImpl S) (id' : EventId) :
    id' ∈ (w.addWithdrawn id sim).withdrawn ↔ id' ∈ w.withdrawn ∨ id' = id ∧ id ∉ w.ended := by
  show id' ∈ (if id ∈ w.ended then w.withdrawn else id :: w.withdrawn) ↔ _
  split
  · rename_i hended
    simp [hended]
  · rename_i hended
    simp [hended, or_comm]

variable {id : EventId} {sim : DefaultSimulatorImpl S} {a : Event × ℤ}

/-- Where the identifier is over or was withdrawn before, the record says nothing new. -/
theorem mem_withdrawn_of_expired (hid : id ∈ w.ended ∨ id ∈ w.withdrawn) (id' : EventId) :
    id' ∈ (w.addWithdrawn id sim).withdrawn ↔ id' ∈ w.withdrawn := by
  rw [mem_withdrawn_addWithdrawn]
  constructor
  · rintro (hold | ⟨rfl, hnot⟩)
    · exact hold
    · exact hid.resolve_left hnot
  · exact .inl

/-- What was invoked does not come on the record. -/
theorem not_withdrawn_addWithdrawn {id' : EventId} (hended : id' ∈ w.ended)
    (hold : id' ∉ w.withdrawn) :
    id' ∉ (w.addWithdrawn id sim).withdrawn := by
  rw [mem_withdrawn_addWithdrawn]
  rintro (hmem | ⟨rfl, hnot⟩)
  · exact hold hmem
  · exact hnot hended

theorem ended_of_invoked (ha : a ∈ w.invoked) : a.1.id ∈ w.ended :=
  mem_append_left _ (mem_map.mpr ⟨a, ha, rfl⟩)

theorem ended_of_destroyed (hid : id ∈ w.destroyed) : id ∈ w.ended :=
  mem_append_right _ hid

theorem Numbering.addWithdrawn (h : w.Numbering) (hid : id ∈ w.issued ∨ id = .default)
    (huid : sim.uid = w.sim.uid) (hmarked : ∀ n ∈ sim.cancelled, n < w.impls) :
    (w.addWithdrawn id sim).Numbering := by
  constructor
  case next => exact (congrArg BitVec.toNat huid).trans h.next
  case uids =>
    intro a ha
    show _ ∧ _ < sim.uid.toNat
    rw [huid]
    exact h.uids a ha
  case known =>
    intro id' hid'
    rcases (mem_withdrawn_addWithdrawn _ _ _).mp hid' with hold | ⟨rfl, -⟩
    · exact h.known id' hold
    · exact hid
  case marked => exact hmarked
  all_goals first
    | exact h.room
    | exact h.increasing
    | exact h.due
    | exact h.destroy_uids
    | exact h.owned
    | exact h.separate

/-- Calling off changes what is past only through the flags and through what is stored. -/
theorem Past.addWithdrawn (h : w.Past) (hnow : sim.now = w.sim.now)
    (hstored : ∀ a ∈ w.scheduled, a.1 ∈ S.stored w.sim.events → a.1 ∈ S.stored sim.events ∨
      a.1.id ∈ (w.addWithdrawn id sim).withdrawn)
    (hflags : ∀ a ∈ w.scheduled,
      a.1.impl ∈ sim.cancelled ↔ a.1.id ∈ (w.addWithdrawn id sim).withdrawn) :
    (w.addWithdrawn id sim).Past := by
  constructor
  case past =>
    intro a ha
    show _ ≤ sim.now
    rw [hnow]
    exact h.past a ha
  case scheduled => exact h.scheduled
  case sorted => exact h.sorted
  case accounted =>
    intro a ha
    rcases h.accounted a ha with hold | hinvoked | hwithdrawn
    · exact (hstored a ha hold).imp_right .inr
    · exact .inr (.inl hinvoked)
    · exact .inr (.inr ((mem_withdrawn_addWithdrawn _ _ _).mpr (.inl hwithdrawn)))
  case flags => exact hflags
  case exclusive =>
    exact fun a ha => not_withdrawn_addWithdrawn (ended_of_invoked ha) (h.exclusive a ha)

/-- The same of the events for `Destroy`. -/
theorem Destruction.addWithdrawn (h : w.Destruction) (hsub : sim.destroyEvents.Sublist w.sim.destroyEvents)
    (hpending : ∀ id' ∈ w.sim.destroyEvents, id' ∈ sim.destroyEvents ∨
      id' ∈ (w.addWithdrawn id sim).withdrawn)
    (hflags : ∀ id' ∈ w.destroys, ∀ n ∈ sim.cancelled, id'.eventImpl = some n →
      id' ∈ (w.addWithdrawn id sim).withdrawn)
    (hflagged : ∀ id' ∈ sim.destroyEvents, id' ∈ (w.addWithdrawn id sim).withdrawn →
      ∃ n ∈ sim.cancelled, id'.eventImpl = some n) :
    (w.addWithdrawn id sim).Destruction := by
  constructor
  case pending => exact fun id' hid' => h.pending id' (hsub.subset hid')
  case pending_nodup => exact h.pending_nodup.sublist hsub
  case destroyed => exact h.destroyed
  case destroyed_nodup => exact h.destroyed_nodup
  case gone => exact fun id' hid' hmem => h.gone id' hid' (hsub.subset hmem)
  case accounted =>
    intro id' hid'
    rcases h.accounted id' hid' with hold | hdestroyed | hwithdrawn
    · exact (hpending id' hold).imp_right .inr
    · exact .inr (.inl hdestroyed)
    · exact .inr (.inr ((mem_withdrawn_addWithdrawn _ _ _).mpr (.inl hwithdrawn)))
  case flags => exact hflags
  case flagged => exact hflagged
  case exclusive =>
    exact fun id' hid' => not_withdrawn_addWithdrawn (ended_of_destroyed hid') (h.exclusive id' hid')

/-- A call on an expired identifier, or on one of no event, leaves all as it is. -/
theorem Inv.addWithdrawn_expired (h : w.Inv)
    (hid : id ∈ w.issued ∧ w.sim.isExpired id = true ∨ id = .default) :
    (w.addWithdrawn id w.sim).Inv := by
  -- identifiers of events are on the record exactly if they were before
  have hrecord : ∀ id' ∈ w.issued,
      id' ∈ (w.addWithdrawn id w.sim).withdrawn ↔ id' ∈ w.withdrawn := by
    intro id' hid'
    rcases hid with ⟨hissued, hexpired⟩ | rfl
    · exact mem_withdrawn_of_expired ((h.expired hissued).mp hexpired) id'
    · rw [mem_withdrawn_addWithdrawn]
      refine or_iff_left ?_
      rintro ⟨rfl, -⟩
      obtain ⟨n, -, hn⟩ := h.numbering.owned _ hid'
      cases hn
  constructor
  · exact h.numbering.addWithdrawn (hid.imp_left And.left) rfl h.numbering.marked
  · exact { h.ahead with }
  · refine h.past.addWithdrawn rfl (fun a _ => .inl) fun a ha => ?_
    rw [hrecord _ (issued_of_scheduled ha)]
    exact h.past.flags a ha
  · refine h.destruction.addWithdrawn (List.Sublist.refl _) (fun _ => .inl) ?_ ?_
    · intro id' hid' n hn himpl
      rw [hrecord _ (issued_of_destroys hid')]
      exact h.destruction.flags id' hid' n hn himpl
    · intro id' hid' hwithdrawn
      rw [hrecord _ (issued_of_destroys (h.destruction.pending id' hid'))] at hwithdrawn
      exact h.destruction.flagged id' hid' hwithdrawn

/-- A flag more is a record more. -/
theorem Inv.flags_cons (h : w.Inv) (hid : id ∈ w.issued) {n : ℕ} (hn : id.eventImpl = some n)
    {id' : EventId} (hid' : id' ∈ w.issued) :
    (∃ m ∈ n :: w.sim.cancelled, id'.eventImpl = some m) ↔
      (∃ m ∈ w.sim.cancelled, id'.eventImpl = some m) ∨ id' = id := by
  constructor
  · rintro ⟨m, hm, himpl⟩
    rcases mem_cons.mp hm with rfl | hold
    · exact .inr (h.numbering.separate id' hid' id hid (himpl.trans hn.symm))
    · exact .inl ⟨m, hold, himpl⟩
  · rintro (⟨m, hm, himpl⟩ | rfl)
    · exact ⟨m, mem_cons_of_mem _ hm, himpl⟩
    · exact ⟨n, mem_cons_self, hn⟩

/-- An identifier that is not expired comes on the record. -/
theorem Inv.mem_withdrawn_of_not_expired (h : w.Inv) (hid : id ∈ w.issued)
    (hexpired : ¬ w.sim.isExpired id = true) (sim : DefaultSimulatorImpl S) (id' : EventId) :
    id' ∈ (w.addWithdrawn id sim).withdrawn ↔ id' ∈ w.withdrawn ∨ id' = id := by
  have hnot : id ∉ w.ended := fun hended => hexpired ((h.expired hid).mpr (.inl hended))
  rw [mem_withdrawn_addWithdrawn]
  exact or_congr_right (and_iff_left hnot)

/-- The flags of the events of time, with one more. -/
theorem Inv.event_flags_cons (h : w.Inv) (hid : id ∈ w.issued) {n : ℕ} (hn : id.eventImpl = some n)
    (ha : a ∈ w.scheduled) :
    a.1.impl ∈ n :: w.sim.cancelled ↔ a.1.id ∈ w.withdrawn ∨ a.1.id = id := by
  rw [← h.past.flags a ha]
  have hflags := h.flags_cons hid hn (issued_of_scheduled ha)
  have hself (l : List ℕ) : (∃ m ∈ l, a.1.id.eventImpl = some m) ↔ a.1.impl ∈ l := by
    constructor
    · rintro ⟨m, hm, himpl⟩
      cases himpl
      exact hm
    · exact fun hmem => ⟨_, hmem, rfl⟩
  rwa [hself, hself] at hflags

/-- **Cancelling** an event that is not expired. -/
theorem Inv.cancelImpl (h : w.Inv) (hid : id ∈ w.issued) (hexpired : ¬ w.sim.isExpired id = true)
    {n : ℕ} (hn : id.eventImpl = some n) :
    (w.addWithdrawn id (w.sim.cancelImpl n)).Inv := by
  have hrecord := h.mem_withdrawn_of_not_expired hid hexpired (w.sim.cancelImpl n)
  constructor
  · refine h.numbering.addWithdrawn (.inl hid) rfl fun m hm => ?_
    rcases mem_cons.mp hm with rfl | hold
    · obtain ⟨m', hm', himpl⟩ := h.numbering.owned id hid
      rw [hn, Option.some_inj] at himpl
      rwa [himpl]
    · exact h.numbering.marked m hold
  · exact { h.ahead with }
  · refine h.past.addWithdrawn rfl (fun a _ => .inl) fun a ha => ?_
    rw [hrecord]
    exact h.event_flags_cons hid hn ha
  · refine h.destruction.addWithdrawn (List.Sublist.refl _) (fun _ => .inl) ?_ ?_
    · intro id' hid' m hm himpl
      rw [hrecord]
      refine ((h.flags_cons hid hn (issued_of_destroys hid')).mp ⟨m, hm, himpl⟩).imp_left ?_
      rintro ⟨m', hm', himpl'⟩
      exact h.destruction.flags id' hid' m' hm' himpl'
    · intro id' hid' hwithdrawn
      rw [hrecord] at hwithdrawn
      have hissued := issued_of_destroys (h.destruction.pending id' hid')
      exact (h.flags_cons hid hn hissued).mpr
        (hwithdrawn.imp_left (h.destruction.flagged id' hid'))

theorem Inv.cancel (h : w.Inv) (hid : id ∈ w.issued ∨ id = .default) :
    (w.addWithdrawn id (w.sim.cancel id)).Inv := by
  unfold DefaultSimulatorImpl.cancel
  split
  · rename_i hnone
    refine h.addWithdrawn_expired (hid.imp_left fun hissued => ?_)
    obtain ⟨n, -, hn⟩ := h.numbering.owned id hissued
    rw [hnone] at hn
    cases hn
  · rename_i n hn
    have hissued : id ∈ w.issued := by
      refine hid.resolve_right ?_
      rintro rfl
      cases hn
    split
    · rename_i hexpired
      exact h.addWithdrawn_expired (.inl ⟨hissued, hexpired⟩)
    · rename_i hexpired
      exact h.cancelImpl hissued hexpired hn

/-- **Removing** an event of time that is not expired. -/
theorem Inv.removeEvent (h : w.Inv) (ha : a ∈ w.scheduled)
    (hexpired : ¬ w.sim.isExpired a.1.id = true) :
    ∃ sim, w.sim.removeEvent a.1 = .ok sim ∧ (w.addWithdrawn a.1.id sim).Inv := by
  have hid := issued_of_scheduled ha
  have hnot := mt (h.expired_event ha).mpr hexpired
  have hstored : a.1 ∈ S.stored w.sim.events := (h.past.accounted a ha).resolve_right hnot
  have hnumbered : Call.Numbered (S.stored w.sim.events) (.remove a.1) :=
    ⟨h.ahead.nodup, by rintro ev ⟨⟩⟩
  obtain ⟨answer, q, hcall, -, hq⟩ := S.serves _ _ hnumbered hstored
  obtain ⟨sim, hsim⟩ : ∃ sim : DefaultSimulatorImpl S, sim = { w.sim.cancelImpl a.1.impl with
      events := q, unscheduledEvents := w.sim.unscheduledEvents - 1 } := ⟨_, rfl⟩
  have hresult : w.sim.removeEvent a.1 = .ok sim := by
    unfold DefaultSimulatorImpl.removeEvent
    rw [hcall, hsim]
    rfl
  have hevents : S.stored sim.events = (S.stored w.sim.events).erase a.1 := by
    rw [hsim]
    exact hq
  have hcancelled : sim.cancelled = a.1.impl :: w.sim.cancelled := by rw [hsim]; rfl
  have hdestroy : sim.destroyEvents = w.sim.destroyEvents := by rw [hsim]; rfl
  have huid : sim.uid = w.sim.uid := by rw [hsim]; rfl
  have hnow : sim.now = w.sim.now := by rw [hsim]; rfl
  have hcurrent : sim.currentUid = w.sim.currentUid := by rw [hsim]; rfl
  have hcount : sim.unscheduledEvents = w.sim.unscheduledEvents - 1 := by rw [hsim]
  have hrecord := h.mem_withdrawn_of_not_expired hid hexpired sim
  have hcard := Multiset.card_erase_add_one hstored
  have hsub : (S.stored w.sim.events).erase a.1 ≤ S.stored w.sim.events := Multiset.erase_le _ _
  refine ⟨sim, hresult, ?_⟩
  constructor
  · refine h.numbering.addWithdrawn (.inl hid) huid fun m hm => ?_
    rw [hcancelled] at hm
    rcases mem_cons.mp hm with rfl | hold
    · obtain ⟨m', hm', himpl⟩ := h.numbering.owned _ hid
      cases himpl
      exact hm'
    · exact h.numbering.marked m hold
  · have hstored' : S.stored (w.addWithdrawn a.1.id sim).sim.events = _ := hevents
    constructor
    case scheduled =>
      rw [hstored']
      exact fun e he => h.ahead.scheduled e (Multiset.mem_of_le hsub he)
    case nodup =>
      rw [hstored']
      exact Multiset.nodup_of_le (Multiset.map_le_map hsub) h.ahead.nodup
    case later =>
      rw [hstored']
      intro e he
      show sim.now < e.rank
      rw [hnow]
      exact h.ahead.later e (Multiset.mem_of_le hsub he)
    case current =>
      show sim.currentUid.toNat < sim.uid.toNat
      rw [hcurrent, huid]
      exact h.ahead.current
    case count =>
      rw [hstored']
      show sim.unscheduledEvents.toNat = _
      have hcount' := h.ahead.count
      have hlt := w.sim.unscheduledEvents.isLt
      rw [hcount, BitVec.toNat_sub_of_le (by rw [BitVec.le_def]; show 1 ≤ _; omega), hcount']
      show _ - 1 = _
      omega
    case small =>
      rw [hstored']
      have hsmall := h.ahead.small
      omega
  · refine h.past.addWithdrawn hnow ?_ fun b hb => ?_
    · intro b hb hmem
      rw [hevents, hrecord]
      by_cases heq : b.1 = a.1
      · exact .inr (.inr (congrArg Event.id heq))
      · exact .inl ((Multiset.mem_erase_of_ne heq).mpr hmem)
    · rw [hrecord, hcancelled]
      exact h.event_flags_cons hid rfl hb
  · refine h.destruction.addWithdrawn (by rw [hdestroy]) (fun id' hid' => .inl ?_) ?_ ?_
    · rwa [hdestroy]
    · intro id' hid' m hm himpl
      rw [hrecord]
      rw [hcancelled] at hm
      refine ((h.flags_cons hid rfl (issued_of_destroys hid')).mp ⟨m, hm, himpl⟩).imp_left ?_
      rintro ⟨m', hm', himpl'⟩
      exact h.destruction.flags id' hid' m' hm' himpl'
    · intro id' hid' hwithdrawn
      rw [hrecord] at hwithdrawn
      rw [hdestroy] at hid'
      have hdestroys := h.destruction.pending id' hid'
      obtain ⟨m, hm, himpl⟩ := h.destruction.flagged id' hid'
        (hwithdrawn.resolve_right fun heq => h.numbering.id_ne_of_destroys ha hdestroys heq.symm)
      exact ⟨m, by rw [hcancelled]; exact mem_cons_of_mem _ hm, himpl⟩

/-- Removing an event for `Destroy`, which may have been cancelled before. -/
theorem Inv.removeDestroy (h : w.Inv) (hid : id ∈ w.destroys) :
    (w.addWithdrawn id
      { w.sim with destroyEvents := w.sim.destroyEvents.erase id }).Inv := by
  have hrecord := mem_withdrawn_addWithdrawn (w := w) id
    { w.sim with destroyEvents := w.sim.destroyEvents.erase id }
  constructor
  · exact h.numbering.addWithdrawn (.inl (issued_of_destroys hid)) rfl h.numbering.marked
  · exact { h.ahead with }
  · refine h.past.addWithdrawn rfl (fun a _ => .inl) fun a ha => ?_
    rw [hrecord, or_iff_left fun hboth => h.numbering.id_ne_of_destroys ha hid hboth.1]
    exact h.past.flags a ha
  · refine h.destruction.addWithdrawn erase_sublist (fun id' hid' => ?_) ?_ ?_
    · rw [hrecord]
      by_cases heq : id' = id
      · subst heq
        refine .inr (.inr ⟨rfl, fun hended => ?_⟩)
        exact h.destruction.gone id' ((h.mem_ended_destroy hid).mp hended) hid'
      · exact .inl ((mem_erase_of_ne heq).mpr hid')
    · intro id' hid' m hm himpl
      exact (hrecord _).mpr (.inl (h.destruction.flags id' hid' m hm himpl))
    · intro id' hid' hwithdrawn
      obtain ⟨hne, hmem⟩ := (h.destruction.pending_nodup.mem_erase_iff).mp hid'
      exact h.destruction.flagged id' hmem
        (((hrecord _).mp hwithdrawn).resolve_right fun hboth => hne hboth.1)

theorem Inv.remove (h : w.Inv) (hid : id ∈ w.issued ∨ id = .default) :
    ∃ sim, w.sim.remove id = .ok sim ∧ (w.addWithdrawn id sim).Inv := by
  rcases hid with hissued | rfl
  · rcases (w.mem_issued id).mp hissued with ⟨a, ha, rfl⟩ | hdestroy
    · have hremove : w.sim.remove a.1.id =
          if w.sim.isExpired a.1.id then .ok w.sim else w.sim.removeEvent a.1 :=
        if_neg (h.numbering.uid_ne ha)
      rw [hremove]
      split
      · rename_i hexpired
        exact ⟨w.sim, rfl, h.addWithdrawn_expired (.inl ⟨hissued, hexpired⟩)⟩
      · rename_i hexpired
        exact h.removeEvent ha hexpired
    · exact ⟨_, if_pos (h.numbering.destroy_uids id hdestroy), h.removeDestroy hdestroy⟩
  · exact ⟨w.sim, rfl, h.addWithdrawn_expired (.inr rfl)⟩

end CallingOff

/-! ## Invoking -/

section Invoking

variable {w : World S}

/-- Among events with distinct numbers the others come strictly later. -/
theorem rank_lt_of_erase {stored : Multiset Event} {next e : Event}
    (hnodup : (stored.map fun e => e.key.uid).Nodup) (hnext : IsNext stored next)
    (he : e ∈ stored.erase next) : next.rank < e.rank := by
  have hmem : e ∈ stored := Multiset.mem_of_mem_erase he
  refine lt_of_le_of_ne (hnext.least e hmem) fun heq => ?_
  have huid : next.key.uid = e.key.uid :=
    BitVec.toNat_inj.mp (congrArg Prod.snd (toLex.injective heq))
  have hsame : next = e := Multiset.inj_on_of_nodup_map hnodup next hnext.mem e hmem huid
  rw [← hsame] at he
  exact (Multiset.Nodup.notMem_erase hnodup.of_map) he

/-- What a turn of the loop of `Run` takes from the scheduler. -/
theorem Inv.exists_next (h : w.Inv) (hnonempty : S.isEmpty w.sim.events = false) :
    ∃ a ∈ w.scheduled, ∃ q, w.sim.processOneEvent = .ok (a.1, w.sim.moveTo a.1 q) ∧
      IsNext (S.stored w.sim.events) a.1 ∧ S.stored q = (S.stored w.sim.events).erase a.1 := by
  have hne : S.stored w.sim.events ≠ 0 := by
    intro hzero
    rw [(S.isEmpty_iff _).mpr hzero] at hnonempty
    cases hnonempty
  have hnumbered : Call.Numbered (S.stored w.sim.events) .removeNext :=
    ⟨h.ahead.nodup, by rintro ev ⟨⟩⟩
  obtain ⟨answer, q, hcall, next, rfl, hnext, hq⟩ := S.serves _ _ hnumbered hne
  obtain ⟨a, ha, rfl⟩ := h.ahead.scheduled next hnext.mem
  refine ⟨a, ha, q, ?_, hnext, hq⟩
  have hlater := h.ahead.later a.1 hnext.mem
  have hts : ¬ a.1.key.ts < w.sim.currentTs := by
    intro hlt
    refine absurd hlater (not_lt_of_ge (le_of_lt ?_))
    exact Prod.Lex.toLex_lt_toLex.mpr (.inl hlt)
  unfold DefaultSimulatorImpl.processOneEvent
  rw [hcall, ok_bind]
  exact if_neg hts

/-- **A turn of the loop of `Run`.** -/
theorem Inv.addInvoked (h : w.Inv) {a : Event × ℤ} (ha : a ∈ w.scheduled) {q : S.Queue}
    (hnext : IsNext (S.stored w.sim.events) a.1)
    (hq : S.stored q = (S.stored w.sim.events).erase a.1) :
    (w.addInvoked (a.1, w.sim.moveTo a.1 q)).Inv := by
  have hnow : w.sim.now < (w.sim.moveTo a.1 q).now := h.ahead.later a.1 hnext.mem
  have hcard := Multiset.card_erase_add_one hnext.mem
  have hentry : (a.1, ((w.sim.moveTo a.1 q).currentTs.toNat : ℤ)) = a :=
    Prod.ext rfl (h.numbering.due a ha).symm
  have hstored : S.stored (w.addInvoked (a.1, w.sim.moveTo a.1 q)).sim.events = _ := hq
  have hinvoked : (w.addInvoked (a.1, w.sim.moveTo a.1 q)).invoked =
      if w.sim.isCancelled a.1.impl then w.invoked else w.invoked ++ [a] := by
    rw [← hentry]
    rfl
  have hmem : ∀ b ∈ (w.addInvoked (a.1, w.sim.moveTo a.1 q)).invoked,
      b ∈ w.invoked ∨ b = a ∧ a.1.id ∉ w.withdrawn := by
    intro b hb
    rw [hinvoked] at hb
    split at hb
    · exact .inl hb
    · rename_i hflag
      rcases mem_append.mp hb with hold | hlast
      · exact .inl hold
      · refine .inr ⟨mem_singleton.mp hlast, fun hwithdrawn => hflag ?_⟩
        exact contains_iff_mem.mpr ((h.past.flags a ha).mpr hwithdrawn)
  constructor
  · exact { h.numbering with }
  · constructor
    case scheduled =>
      rw [hstored]
      exact fun e he => h.ahead.scheduled e (Multiset.mem_of_mem_erase he)
    case nodup =>
      rw [hstored]
      exact Multiset.nodup_of_le (Multiset.map_le_map (Multiset.erase_le _ _)) h.ahead.nodup
    case later =>
      rw [hstored]
      exact fun e he => rank_lt_of_erase h.ahead.nodup hnext he
    case current => exact (h.numbering.uids a ha).2
    case count =>
      rw [hstored]
      have hcount := h.ahead.count
      show (w.sim.unscheduledEvents - 1).toNat = _
      have hlt := w.sim.unscheduledEvents.isLt
      rw [BitVec.toNat_sub_of_le (by rw [BitVec.le_def]; show 1 ≤ _; omega), hcount]
      show _ - 1 = _
      omega
    case small =>
      rw [hstored]
      have hsmall := h.ahead.small
      omega
  · constructor
    case past =>
      intro b hb
      rcases hmem b hb with hold | ⟨rfl, -⟩
      · exact (h.past.past b hold).trans hnow.le
      · exact le_refl _
    case scheduled =>
      intro b hb
      rcases hmem b hb with hold | ⟨rfl, -⟩
      · exact h.past.scheduled b hold
      · exact ha
    case sorted =>
      rw [hinvoked]
      split
      · exact h.past.sorted
      · refine pairwise_append.mpr ⟨h.past.sorted, pairwise_singleton _ _, ?_⟩
        intro b hb c hc
        rw [mem_singleton.mp hc]
        exact (h.past.past b hb).trans_lt hnow
    case accounted =>
      intro b hb
      rw [hstored, hinvoked]
      show _ ∨ _ ∨ b.1.id ∈ w.withdrawn
      rcases h.past.accounted b hb with hold | hdone | hwithdrawn
      · by_cases heq : b.1 = a.1
        · have hab := h.numbering.eq_of_fst_eq hb ha heq
          subst hab
          right
          split
          · rename_i hflag
            exact .inr ((h.past.flags b hb).mp (contains_iff_mem.mp hflag))
          · exact .inl (mem_append_right _ (mem_singleton_self _))
        · exact .inl ((Multiset.mem_erase_of_ne heq).mpr hold)
      · right
        left
        split
        · exact hdone
        · exact mem_append_left _ hdone
      · exact .inr (.inr hwithdrawn)
    case flags => exact h.past.flags
    case exclusive =>
      intro b hb
      rcases hmem b hb with hold | ⟨rfl, hnot⟩
      · exact h.past.exclusive b hold
      · exact hnot
  · exact { h.destruction with }

/-- **A turn of the loop of `Destroy`.** -/
theorem Inv.destroyOne (h : w.Inv) {id : EventId} (hhead : w.sim.destroyEvents.head? = some id) :
    (w.destroyOne id).Inv := by
  have hd := h.destruction
  have hcons : w.sim.destroyEvents = id :: w.sim.destroyEvents.tail :=
    (cons_head?_tail hhead).symm
  have hnodup := hd.pending_nodup
  rw [hcons, nodup_cons] at hnodup
  have hid : id ∈ w.sim.destroyEvents := mem_of_mem_head? hhead
  have hdestroys := hd.pending id hid
  obtain ⟨n, -, hn⟩ := h.numbering.owned id (issued_of_destroys hdestroys)
  have hdestroyed : (w.destroyOne id).destroyed =
      if w.sim.isCancelled n then w.destroyed else w.destroyed ++ [id] := by
    unfold World.destroyOne
    rw [hn]
    rfl
  have hmem : ∀ id' ∈ (w.destroyOne id).destroyed,
      id' ∈ w.destroyed ∨ id' = id ∧ id ∉ w.withdrawn := by
    intro id' hid'
    rw [hdestroyed] at hid'
    split at hid'
    · exact .inl hid'
    · rename_i hflag
      rcases mem_append.mp hid' with hold | hlast
      · exact .inl hold
      · refine .inr ⟨mem_singleton.mp hlast, fun hwithdrawn => hflag ?_⟩
        obtain ⟨m, hm, himpl⟩ := hd.flagged id hid hwithdrawn
        rw [hn, Option.some_inj] at himpl
        rw [himpl]
        exact contains_iff_mem.mpr hm
  constructor
  · exact { h.numbering with }
  · exact { h.ahead with }
  · exact { h.past with }
  · constructor
    case pending => exact fun id' hid' => hd.pending id' (mem_of_mem_tail hid')
    case pending_nodup => exact hnodup.2
    case destroyed =>
      intro id' hid'
      rcases hmem id' hid' with hold | ⟨rfl, -⟩
      · exact hd.destroyed id' hold
      · exact hdestroys
    case destroyed_nodup =>
      rw [hdestroyed]
      split
      · exact hd.destroyed_nodup
      · refine nodup_append.mpr ⟨hd.destroyed_nodup, nodup_singleton _, ?_⟩
        rintro id' hid' _ hlast rfl
        rw [mem_singleton.mp hlast] at hid'
        exact hd.gone id hid' hid
    case gone =>
      intro id' hid' htail
      rcases hmem id' hid' with hold | ⟨rfl, -⟩
      · exact hd.gone id' hold (mem_of_mem_tail htail)
      · exact hnodup.1 htail
    case accounted =>
      intro id' hid'
      rw [hdestroyed]
      show id' ∈ w.sim.destroyEvents.tail ∨ _ ∨ id' ∈ w.withdrawn
      rcases hd.accounted id' hid' with hpending | hdone | hwithdrawn
      · rw [hcons] at hpending
        rcases mem_cons.mp hpending with rfl | htail
        · right
          split
          · rename_i hflag
            exact .inr (hd.flags id' hid' n (contains_iff_mem.mp hflag) hn)
          · exact .inl (mem_append_right _ (mem_singleton_self _))
        · exact .inl htail
      · right
        left
        split
        · exact hdone
        · exact mem_append_left _ hdone
      · exact .inr (.inr hwithdrawn)
    case flags => exact hd.flags
    case flagged =>
      exact fun id' hid' hwithdrawn => hd.flagged id' (mem_of_mem_tail hid') hwithdrawn
    case exclusive =>
      intro id' hid'
      rcases hmem id' hid' with hold | ⟨rfl, hnot⟩
      · exact hd.exclusive id' hold
      · exact hnot

end Invoking

/-! ## Every run -/

section Runs

variable {w : World S}

/-- Neither `m_stop` nor whether `Run` is active matters. -/
theorem Inv.setFlags (h : w.Inv) (stop running : Bool) :
    ({ w with running := running, sim := { w.sim with stop := stop } } : World S).Inv :=
  ⟨{ h.numbering with },
    { h.ahead with },
    { h.past with },
    { h.destruction with }⟩

/-- No event was lost when the scheduler is empty. -/
theorem Inv.endOfRun_eq (h : w.Inv) : w.sim.endOfRun = .ok w.sim := by
  unfold DefaultSimulatorImpl.endOfRun
  refine if_neg ?_
  rintro ⟨hempty, hcount⟩
  have hcard := h.ahead.count
  rw [(S.isEmpty_iff _).mp hempty] at hcard
  exact hcount (BitVec.eq_of_toNat_eq hcard)

/-- An input that is possible is carried out, even if the event it schedules is misplaced. -/
theorem Inv.exists_step (h : w.Inv) (i : Input) (hi : w.Enabled i) :
    ∃ w', w.step i = .ok w' := by
  -- scheduling cannot fail, and the identifiers are those of events
  have hinsert (context : BitVec 32) (delay : BitVec 64) :
      ∃ w', (w.sim.insertEvent context delay w.impls).map (w.addScheduled delay) = .ok w' := by
    obtain ⟨q, hq, -⟩ := h.exists_insertEvent context delay
    rw [hq]
    exact ⟨_, rfl⟩
  cases i with
  | schedule delay =>
    have hschedule : w.sim.schedule delay w.impls =
        w.sim.insertEvent w.sim.currentContext delay w.impls := if_pos hi.1
    obtain ⟨w', hw'⟩ := hinsert w.sim.currentContext delay
    rw [← hschedule] at hw'
    exact ⟨w', hw'⟩
  | scheduleWithContext context delay => exact hinsert context delay
  | scheduleNow => exact hinsert w.sim.currentContext 0
  | remove id =>
    obtain ⟨sim, hremove, -⟩ := h.remove hi
    refine ⟨w.addWithdrawn id sim, ?_⟩
    show (w.sim.remove id).map _ = _
    rw [hremove]
    rfl
  | processOneEvent =>
    obtain ⟨a, -, q, hprocess, -, -⟩ := h.exists_next hi.2.1
    refine ⟨w.addInvoked (a.1, w.sim.moveTo a.1 q), ?_⟩
    show w.sim.processOneEvent.map _ = _
    rw [hprocess]
    rfl
  | endOfRun =>
    refine ⟨{ w with running := false, sim := w.sim }, ?_⟩
    show w.sim.endOfRun.map _ = _
    rw [h.endOfRun_eq]
    rfl
  | destroyOne =>
    obtain ⟨id, rest, hcons⟩ := exists_cons_of_ne_nil hi.2
    refine ⟨w.destroyOne id, ?_⟩
    show w.destroyFront = _
    unfold destroyFront
    rw [hcons]
    rfl
  | scheduleDestroy => exact ⟨_, rfl⟩
  | cancel id => exact ⟨_, rfl⟩
  | stop => exact ⟨_, rfl⟩
  | run => exact ⟨_, rfl⟩

/-- One input keeps the invariant. -/
theorem Inv.step (h : w.Inv) (i : Input) (hi : w.Enabled i) (hfits : w.Fits i) :
    Post (w.step i) Inv := by
  cases i with
  | schedule delay =>
    have hschedule : w.sim.schedule delay w.impls =
        w.sim.insertEvent w.sim.currentContext delay w.impls := if_pos hi.1
    show Post ((w.sim.schedule delay w.impls).map _) _
    rw [hschedule]
    exact h.insertEvent _ hi.2 hi.1 (hfits.1.trans (by decide)) hfits.2
  | scheduleWithContext context delay =>
    exact h.insertEvent context hi hfits.1 (hfits.2.1.trans (by decide)) hfits.2.2
  | scheduleNow =>
    have hdue : w.dueAfter 0 < 2 ^ 64 := by
      have hlt := w.sim.currentTs.isLt
      have hzero : BitVec.toInt (0 : BitVec 64) = 0 := by decide
      unfold dueAfter
      omega
    exact h.insertEvent w.sim.currentContext hi (by decide) hdue hfits
  | scheduleDestroy => exact h.scheduleDestroy hi
  | cancel id => exact h.cancel hi
  | remove id =>
    obtain ⟨sim, hremove, hinv⟩ := h.remove hi
    show Post ((w.sim.remove id).map _) _
    rw [hremove]
    exact hinv
  | stop => exact h.setFlags true w.running
  | run => exact h.setFlags false true
  | processOneEvent =>
    obtain ⟨a, ha, q, hprocess, hnext, hq⟩ := h.exists_next hi.2.1
    show Post (w.sim.processOneEvent.map _) _
    rw [hprocess]
    exact h.addInvoked ha hnext hq
  | endOfRun =>
    show Post (w.sim.endOfRun.map _) _
    rw [h.endOfRun_eq]
    exact h.setFlags w.sim.stop false
  | destroyOne =>
    show Post w.destroyFront _
    unfold destroyFront
    split
    · rename_i id hhead
      exact h.destroyOne hhead
    · trivial

/-- In a list that increases, what has the smaller value is found first. -/
theorem idxOf_lt_of_lt {α : Type} [BEq α] [LawfulBEq α] {l : List α} {f : α → ℕ}
    (hl : l.Pairwise fun a b => f a < f b) {a b : α} (ha : a ∈ l) (hb : b ∈ l) (hab : f a < f b) :
    l.idxOf a < l.idxOf b := by
  have hia := idxOf_lt_length_of_mem ha
  have hib := idxOf_lt_length_of_mem hb
  have hgeta : l[l.idxOf a] = a := getElem_idxOf hia
  have hgetb : l[l.idxOf b] = b := getElem_idxOf hib
  rcases lt_trichotomy (l.idxOf a) (l.idxOf b) with hlt | heq | hgt
  · exact hlt
  · have hsame : a = b := (idxOf_inj ha).mp heq
    rw [hsame] at hab
    exact absurd hab (lt_irrefl _)
  · have hba := pairwise_iff_getElem.mp hl _ _ hib hia hgt
    rw [hgeta, hgetb] at hba
    omega

/-- Between the calls all is as it is promised. -/
theorem Inv.proper (h : w.Inv) : w.Proper := by
  constructor
  case ordered =>
    refine h.past.sorted.imp_of_mem fun {a b} ha hb hab => ?_
    have hsa := h.past.scheduled a ha
    have hsb := h.past.scheduled b hb
    rw [h.numbering.due a hsa, h.numbering.due b hsb]
    rcases (Prod.Lex.toLex_lt_toLex.mp hab) with hts | ⟨hts, huid⟩
    · exact .inl (by exact_mod_cast hts)
    · exact .inr ⟨by exact_mod_cast hts, idxOf_lt_of_lt h.numbering.increasing hsa hsb huid⟩
  case timely => exact h.past.scheduled
  case scheduled_nodup => exact h.numbering.nodup
  case invoked_nodup =>
    refine h.past.sorted.imp fun hlt heq => ?_
    rw [heq] at hlt
    exact lt_irrefl _ hlt
  case destroyed_nodup => exact h.destruction.destroyed_nodup
  case withdrawn =>
    intro id hid
    rcases mem_append.mp hid with hevent | hdestroyed
    · obtain ⟨a, ha, rfl⟩ := mem_map.mp hevent
      exact h.past.exclusive a ha
    · exact h.destruction.exclusive id hdestroyed
  case accounted => exact h.past.accounted
  case settled =>
    intro hempty a ha
    refine (h.past.accounted a ha).resolve_left ?_
    rw [(S.isEmpty_iff _).mp hempty]
    exact Multiset.notMem_zero _
  case destroys_settled =>
    intro hempty id hid
    refine (h.destruction.accounted id hid).resolve_left ?_
    rw [hempty]
    exact not_mem_nil
  case expired => exact fun id hid => h.expired hid
  case counts =>
    have hcount := h.ahead.count
    have hsmall := h.ahead.small
    rw [BitVec.toInt_eq_toNat_cond, if_pos (by omega), hcount]
  case progress => exact h.exists_step

/-- **The simulator keeps its promises in every run in which each event has its time ahead.** -/
theorem proper_of_run (S : CorrectScheduler) (is : List Input) (w : World S)
    (hrun : (machine S).Run Fits (start S) is w) : w.Proper := by
  have hinv : w.Inv :=
    hrun.invariant Inv (fun w i hw hi hfits => hw.step i hi hfits) (inv_start S)
  exact hinv.proper

end Runs

instance {S : CorrectScheduler} (w : World S) : Decidable w.Room :=
  inferInstanceAs (Decidable (_ < _))

instance {S : CorrectScheduler} (w : World S) (i : Input) :
    Decidable ((machine S).enabled w i) := by
  cases i <;> dsimp only [machine, Enabled] <;> infer_instance

instance {S : CorrectScheduler} (w : World S) (i : Input) : Decidable (w.Fits i) := by
  cases i <;> dsimp only [Fits] <;> infer_instance

/-- Two events of one time, one that is cancelled by the first of them, one that is removed and
one for `Destroy`. -/
def sampleInputs : List Input :=
  [.schedule 5, .schedule 7, .schedule 5, .schedule 6, .scheduleDestroy, .run, .processOneEvent,
    .cancel ⟨some 1, 7, 0xffffffff, 5⟩, .remove ⟨some 3, 6, 0xffffffff, 7⟩,
    .scheduleWithContext 2 0, .processOneEvent, .processOneEvent, .processOneEvent, .endOfRun,
    .destroyOne]

theorem proper_of_run_sample :
    ∃ w, (machine ListScheduler.correct).Run Fits (start _) sampleInputs w ∧
      w.invoked.map (fun a => (a.1.impl, a.2)) = [(0, 5), (2, 5), (5, 5)] ∧
      w.destroyed.length = 1 ∧ w.Proper := by
  obtain ⟨w, hrun, htest⟩ := Machine.exists_run_of_exec (m := machine ListScheduler.correct)
    (fun w i => decide (Fits w i))
    (fun w => decide (w.invoked.map (fun a => (a.1.impl, a.2)) = [(0, 5), (2, 5), (5, 5)] ∧
      w.destroyed.length = 1)) (start _) sampleInputs (by decide +kernel)
  have hfits := hrun.mono fun w i hi => of_decide_eq_true hi
  obtain ⟨hinvoked, hdestroyed⟩ := of_decide_eq_true htest
  exact ⟨w, hfits, hinvoked, hdestroyed, proper_of_run _ _ w hfits⟩

/-- A handler that gives `ScheduleWithContext` a negative delay. -/
def misplacingInputs : List Input :=
  [.scheduleWithContext 0 5, .run, .processOneEvent, .scheduleWithContext 0 (BitVec.ofInt 64 (-3))]

/-- Without the condition: the event lies before the current time, and the assertion of
`ProcessOneEvent` fails instead of invoking it. -/
theorem not_proper_of_run : ¬ ∀ (S : CorrectScheduler) (is : List Input) (w : World S),
      (machine S).Run (fun _ _ => True) (start S) is w → w.Proper := by
  intro hproper
  obtain ⟨w, hrun, htest⟩ := Machine.exists_run_of_exec (m := machine ListScheduler.correct)
    (fun _ _ => true)
    (fun w => decide ((machine _).enabled w .processOneEvent ∧
      (w.step .processOneEvent).isOk = false)) (start _) misplacingInputs (by decide +kernel)
  obtain ⟨henabled, hfails⟩ := of_decide_eq_true htest
  obtain ⟨w', hstep⟩ := (hproper _ _ w (hrun.mono fun _ _ _ => trivial)).progress .processOneEvent henabled
  rw [hstep] at hfails
  cases hfails

end World

end Ns3Dsme.Core
