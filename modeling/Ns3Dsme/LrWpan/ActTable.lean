/-
# Allocating, scheduling and purging GTSs

`AddDsmeACTEntity`, `ScheduleGts` and `PurgeDsmeACT`: the handlers that own the
allocation counter table.  `ScheduleGts` walks over the table and schedules a
`StartGTS` event for every entry that has not been scheduled yet; the event names the
entry by superframe ID and vector index.
-/
import Ns3Dsme.LrWpan.State

open List

namespace Ns3Dsme.Mac

/-! ## Adding entries -/

/-- `m_numOfSuperframes / m_numOfMultisuperframes`. -/
def superframesPerMultisuperframe (s : Mac) : Exec ℕ :=
  if s.out.numOfMultisuperframes = 0 then .error .divByZero
  else .ok (s.out.numOfSuperframes / s.out.numOfMultisuperframes)

/-- `1 << (m - n)` for the difference of two orders; a negative shift is undefined. -/
def shiftDifference (m n : ℕ) : Exec ℕ :=
  if n ≤ m then .ok (2 ^ (m - n)) else .error .undefinedShift

/-- `ResizeScheduleGTSsEvent`. -/
def resizeScheduleGTSsEvent (bcnOrder multisfrmOrd sfrmOrd : ℕ) (s : Mac) : Exec Mac := do
  let numOfMultisuperframes ← shiftDifference bcnOrder multisfrmOrd
  let numOfSuperframes ← shiftDifference bcnOrder sfrmOrd
  .ok { s with
    out := { s.out with numOfMultisuperframes, numOfSuperframes }
    gts := { s.gts with
      scheduleGTSsEventSize := numOfSuperframes / numOfMultisuperframes } }

/-- The number of CFP slots an entry may start in: 15 under CAP reduction, else 7. -/
def numOfCfpSlots (s : Mac) : ℕ := if s.out.macCAPReductionFlag then 15 else 7

/-- `AddDsmeACTEntity`.  The entry is numbered as the next allocation. -/
def addDsmeACTEntity (superframeID : ℕ) (entity : MacDSMEACTEntity) (s : Mac) :
    Exec Mac := do
  let numOfSuperframes ← s.superframesPerMultisuperframe
  if superframeID ≥ numOfSuperframes then .error .fatalError
  else if entity.slotID ≥ s.numOfCfpSlots then .error .fatalError
  else
    let entity := { entity with alloc := s.gts.nextAlloc }
    .ok { s with gts := { s.gts with
      macDsmeACT := s.gts.macDsmeACT.pushBack superframeID entity
      nextAlloc := s.gts.nextAlloc + 1 } }

/-- Mark an entry as deallocated, as the next higher layer does in the table. -/
def deallocate (superframeID idx : ℕ) (s : Mac) : Mac :=
  { s with gts := { s.gts with
    macDsmeACT := s.gts.macDsmeACT.modify superframeID idx ({ · with deallocated := true }) } }

/-- Mark an entry as expired. -/
def expire (superframeID idx : ℕ) (s : Mac) : Mac :=
  { s with gts := { s.gts with
    macDsmeACT := s.gts.macDsmeACT.modify superframeID idx ({ · with expired := true }) } }

/-! ## Scheduling -/

/-- The delay after which `ScheduleGts` starts the GTS of an entry. -/
def startGtsTime (s : Mac) (e : MacDSMEACTEntity) : ℤ :=
  if s.role.coord then
    let eachTimeslotDuration := s.out.superframeDuration / 16
    let superframeTime := symbols (uint32 (e.superframeID * s.out.superframeDuration))
    let cfpTime := symbols (eachTimeslotDuration * e.slotID)
    if s.out.macCAPReductionFlag then
      superframeTime + symbols (eachTimeslotDuration * 1) + cfpTime
    else
      superframeTime + symbols (eachTimeslotDuration * (s.out.fnlCapSlot + 1)) + cfpTime
  else
    let eachTimeslotDuration := s.inc.incomingSuperframeDuration / 16
    let superframeTime := symbols (uint32 (e.superframeID * s.inc.incomingSuperframeDuration))
    let cfpTime := symbols (eachTimeslotDuration * e.slotID)
    let sinceBeacon := s.sim.now - s.inc.macBeaconRxTime
    if s.out.macCAPReductionFlag then
      superframeTime + (symbols (eachTimeslotDuration * 1) - sinceBeacon) + cfpTime
    else
      superframeTime
        + (symbols (eachTimeslotDuration * (s.inc.incomingFnlCapSlot + 1)) - sinceBeacon)
        + cfpTime

/-- The body of the loops of `ScheduleGts`: schedule entry `i` of superframe `k` unless it
has been scheduled before.  The event names the superframe ID *of the entry*. -/
def scheduleEntry (s : Mac) (pos : ℕ × ℕ) : Exec Mac :=
  match s.gts.macDsmeACT.lookup pos.1 pos.2 with
  | none => .ok s
  | some e =>
    if e.allocated then .ok s
    else do
      let s' ← s.schedule .gtsSchedulingEvent
        (.startGTS e.superframeType e.superframeID pos.2 e.alloc) (s.startGtsTime e)
      if e.superframeID < s.gts.scheduleGTSsEventSize then
        .ok { s' with gts := { s'.gts with
          macDsmeACT := s'.gts.macDsmeACT.modify pos.1 pos.2 ({ · with allocated := true }) } }
      else .error .outOfRange

/-- `ScheduleGts`. -/
def scheduleGts (indication : Bool) (s : Mac) : Exec Mac :=
  if s.role.coord && indication then .ok s
  else if s.role.panCoor then .ok s
  else s.gts.macDsmeACT.positions.foldlM scheduleEntry s

/-- `ScheduleGts` where the MAC calls it itself, not a next higher layer. -/
def scheduleGtsInMac (indication : Bool) (s : Mac) : Exec Mac :=
  if s.cfg.forDsmeNetDeviceIntegrateWithHigerLayer then .ok s else s.scheduleGts indication

/-! ## Purging -/

/-- The loop over one vector.  After `erase(begin() + i)` the loop still increments `i`, so
the element behind an erased one is never looked at. -/
def purgeRow : List MacDSMEACTEntity → List MacDSMEACTEntity
  | [] => []
  | e :: es =>
    if e.deallocated then
      match es with
      | [] => []
      | e' :: es' => e' :: purgeRow es'
    else e :: purgeRow es

theorem purgeRow_nil : purgeRow [] = [] := rfl

/-- `PurgeDsmeACT`. -/
def purgeDsmeACT (s : Mac) : Mac :=
  { s with gts := { s.gts with macDsmeACT := s.gts.macDsmeACT.mapRows purgeRow purgeRow_nil } }

/-- No two neighbours in a vector are deallocated. -/
abbrev NoneAdjacent (es : List MacDSMEACTEntity) : Prop :=
  es.IsChain fun e e' => ¬ (e.deallocated = true ∧ e'.deallocated = true)

/-- An entry that is kept puts no condition on the ones behind it. -/
theorem noneAdjacent_cons_of_not (e : MacDSMEACTEntity) (es : List MacDSMEACTEntity)
    (he : ¬ e.deallocated = true) : NoneAdjacent (e :: es) ↔ NoneAdjacent es := by
  cases es with
  | nil => exact ⟨fun _ => .nil, fun _ => .singleton e⟩
  | cons e' es =>
    rw [NoneAdjacent, isChain_cons_cons]
    exact ⟨fun h => h.2, fun h => ⟨fun hboth => he hboth.1, h⟩⟩

/-- One vector loses its deallocated entries, and only these, exactly if no two of them are
neighbours. -/
theorem purgeRow_eq_filter_iff (es : List MacDSMEACTEntity) :
    purgeRow es = es.filter (fun e => !e.deallocated) ↔ NoneAdjacent es := by
  fun_induction purgeRow es with
  | case1 => exact ⟨fun _ => .nil, fun _ => rfl⟩
  | case2 e he =>
    refine ⟨fun _ => .singleton e, fun _ => ?_⟩
    rw [filter_cons_of_neg (by simp [he]), filter_nil]
  | case3 e he e' es ih =>
    rw [filter_cons_of_neg (by simp [he]), NoneAdjacent, isChain_cons_cons]
    by_cases he' : e'.deallocated = true
    · -- the neighbour is not looked at, and it stays
      rw [filter_cons_of_neg (by simp [he'])]
      constructor
      · intro h
        have hmem : e' ∈ es.filter fun e => !e.deallocated := h ▸ mem_cons_self
        have hkept := (mem_filter.mp hmem).2
        simp [he'] at hkept
      · intro h
        exact absurd ⟨he, he'⟩ h.1
    · rw [filter_cons_of_pos (by simp [he']), cons_inj_right, ih]
      have hcons := noneAdjacent_cons_of_not e' es he'
      exact ⟨fun h => ⟨fun hboth => he' hboth.2, hcons.mpr h⟩, fun h => hcons.mp h.2⟩
  | case4 e es he ih =>
    rw [filter_cons_of_pos (by simp [he]), cons_inj_right, ih,
      noneAdjacent_cons_of_not e es he]

/-- **When the purge is a filter**: every superframe keeps its other entries, in their order, and
loses the deallocated ones, exactly if none of these stand next to each other. -/
theorem purgeDsmeACT_eq_filter_iff (s : Mac) :
    (∀ k, s.purgeDsmeACT.gts.macDsmeACT.row k =
      (s.gts.macDsmeACT.row k).filter fun e => !e.deallocated) ↔
      ∀ k, NoneAdjacent (s.gts.macDsmeACT.row k) :=
  forall_congr' fun k => purgeRow_eq_filter_iff (s.gts.macDsmeACT.row k)

/-- Two deallocated entries in the vector of superframe 0. -/
def twoDeallocated : Mac where
  gts.macDsmeACT :=
    let e : MacDSMEACTEntity :=
      { superframeID := 0, slotID := 0, numSlot := 1, deallocated := true }
    (ActTable.empty.pushBack 0 e).pushBack 0 e

/-- The second of two neighbours stays. -/
theorem not_purgeDsmeACT_eq_filter : ¬ ∀ s : Mac, ∀ k, s.purgeDsmeACT.gts.macDsmeACT.row k =
      (s.gts.macDsmeACT.row k).filter fun e => !e.deallocated := by
  intro hall
  exact absurd (hall twoDeallocated 0) (by decide)

end Ns3Dsme.Mac
