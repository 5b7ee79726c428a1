/-
# The list scheduler

`ListScheduler` keeps its events in one list, in the order in which they are due.
-/
import Ns3Dsme.Core.Scheduler

open List

namespace Ns3Dsme.Core

/-- `m_events`, which is sorted. -/
structure ListScheduler where
  events : List Event
  sorted : events.Pairwise fun a b => a.rank ≤ b.rank

namespace ListScheduler

/-- The loop of `Insert`: in front of the first event that is due later. -/
def insertBefore (ev : Event) : List Event → List Event
  | [] => [ev]
  | i :: rest => if ev.key.isLess i.key then ev :: i :: rest else i :: insertBefore ev rest

theorem insertBefore_perm (ev : Event) (l : List Event) : (insertBefore ev l).Perm (ev :: l) := by
  induction l with
  | nil => exact List.Perm.refl _
  | cons i rest ih =>
    unfold insertBefore
    split
    · exact List.Perm.refl _
    · exact (ih.cons i).trans (List.Perm.swap ev i rest)

theorem sorted_insertBefore (ev : Event) (l : List Event)
    (hl : l.Pairwise fun a b => a.rank ≤ b.rank) :
    (insertBefore ev l).Pairwise fun a b => a.rank ≤ b.rank := by
  induction l with
  | nil => exact pairwise_singleton _ _
  | cons i rest ih =>
    obtain ⟨hi, hrest⟩ := pairwise_cons.mp hl
    unfold insertBefore
    split
    · rename_i hless
      have hev : ev.rank ≤ i.rank := ((EventKey.isLess_iff _ _).mp hless).le
      refine pairwise_cons.mpr ⟨fun e he => ?_, hl⟩
      rcases mem_cons.mp he with rfl | hmem
      · exact hev
      · exact hev.trans (hi e hmem)
    · rename_i hless
      have hev : i.rank ≤ ev.rank :=
        (EventKey.isLess_eq_false_iff _ _).mp (Bool.not_eq_true _ ▸ hless)
      refine pairwise_cons.mpr ⟨fun e he => ?_, ih hrest⟩
      rcases mem_cons.mp ((insertBefore_perm ev rest).mem_iff.mp he) with rfl | hmem
      · exact hev
      · exact hi e hmem

def insert (s : ListScheduler) (ev : Event) : ListScheduler :=
  ⟨insertBefore ev s.events, sorted_insertBefore ev s.events s.sorted⟩

def isEmpty (s : ListScheduler) : Bool := s.events.isEmpty

def peekNext (s : ListScheduler) : Except Fault Event :=
  match s.events.head? with
  | some next => .ok next
  | none => .error .emptyQueue

def popFront (s : ListScheduler) : ListScheduler :=
  ⟨s.events.tail, s.sorted.sublist (tail_sublist _)⟩

def removeNext (s : ListScheduler) : Except Fault (Event × ListScheduler) := do
  let next ← s.peekNext
  return (next, s.popFront)

/-- `m_events.erase(i)` at the first event with the number. -/
def erase (s : ListScheduler) (uid : BitVec 32) : ListScheduler :=
  ⟨s.events.eraseP fun i => i.key.uid == uid, s.sorted.sublist eraseP_sublist⟩

def remove (s : ListScheduler) (ev : Event) : Except Fault ListScheduler :=
  match s.events.find? fun i => i.key.uid == ev.key.uid with
  | some i => if ev.impl = i.impl then .ok (s.erase ev.key.uid) else .error .assertFailed
  | none => .error .assertFailed

def call (s : ListScheduler) : Call → Except Fault (Option Event × ListScheduler)
  | .insert ev => .ok (none, s.insert ev)
  | .peekNext => s.peekNext.map fun next => (some next, s)
  | .removeNext => s.removeNext.map fun r => (some r.1, r.2)
  | .remove ev => (s.remove ev).map fun t => (none, t)

/-! ## It is a priority queue -/

def stored (s : ListScheduler) : Multiset Event := s.events

theorem isEmpty_iff (s : ListScheduler) : s.isEmpty = true ↔ s.stored = 0 := by
  unfold isEmpty stored
  rw [List.isEmpty_iff, Multiset.coe_eq_zero]

theorem stored_insert (s : ListScheduler) (ev : Event) :
    (s.insert ev).stored = ev ::ₘ s.stored :=
  Multiset.coe_eq_coe.mpr (insertBefore_perm ev s.events)

/-- What is first in a sorted list is next. -/
theorem exists_front (s : ListScheduler) (hs : s.stored ≠ 0) :
    ∃ next, s.peekNext = .ok next ∧ IsNext s.stored next ∧
      s.popFront.stored = s.stored.erase next := by
  obtain ⟨events, hsorted⟩ := s
  cases events with
  | nil => exact absurd rfl hs
  | cons next rest =>
    have hnext := (pairwise_cons.mp hsorted).1
    refine ⟨next, rfl, ⟨Multiset.mem_coe.mpr (by simp), fun e he => ?_⟩, ?_⟩
    · rcases mem_cons.mp (Multiset.mem_coe.mp he) with rfl | hmem
      · exact le_refl _
      · exact hnext e hmem
    · show (rest : Multiset Event) = Multiset.erase (next :: rest : List Event) next
      rw [Multiset.coe_erase, erase_cons_head]

/-- Where only `ev` has its number, the number tells which event is meant. -/
theorem eraseP_uid (l : List Event) (ev : Event) (hinj : ∀ i ∈ l, i.key.uid = ev.key.uid → i = ev) :
    l.eraseP (fun i => i.key.uid == ev.key.uid) = l.erase ev := by
  induction l with
  | nil => rfl
  | cons i rest ih =>
    by_cases hi : i = ev
    · subst hi
      rw [erase_cons_head, eraseP_cons_of_pos (by simp)]
    · have huid : i.key.uid ≠ ev.key.uid := fun h => hi (hinj i (by simp) h)
      rw [erase_cons_tail (by simpa using hi), eraseP_cons_of_neg (by simpa using huid)]
      rw [ih fun e he => hinj e (mem_cons_of_mem _ he)]

theorem remove_eq (s : ListScheduler) (ev : Event)
    (hnodup : (s.stored.map fun e => e.key.uid).Nodup) (hev : ev ∈ s.stored) :
    ∃ t, s.remove ev = .ok t ∧ t.stored = s.stored.erase ev := by
  have hmem : ev ∈ s.events := hev
  have hinj : ∀ i ∈ s.events, i.key.uid = ev.key.uid → i = ev := by
    intro i hi huid
    exact inj_on_of_nodup_map hnodup hi hmem huid
  have hfind : s.events.find? (fun i => i.key.uid == ev.key.uid) = some ev := by
    cases hcase : s.events.find? (fun i => i.key.uid == ev.key.uid) with
    | none => exact absurd (List.find?_eq_none.mp hcase ev hmem) (by simp)
    | some i =>
      have huid : i.key.uid = ev.key.uid := by simpa using List.find?_some hcase
      rw [hinj i (mem_of_find?_eq_some hcase) huid]
  refine ⟨s.erase ev.key.uid, ?_, ?_⟩
  · unfold remove
    rw [hfind]
    exact if_pos rfl
  · have heq : s.events.eraseP (fun i => i.key.uid == ev.key.uid) = s.events.erase ev := by
      exact eraseP_uid s.events ev hinj
    show ((s.events.eraseP _ : List Event) : Multiset Event) = _
    rw [heq, ← Multiset.coe_erase]
    rfl

/-- **`ListScheduler` is a correct scheduler.** -/
def correct : CorrectScheduler where
  Queue := ListScheduler
  create := ⟨[], List.Pairwise.nil⟩
  isEmpty := isEmpty
  call := call
  stored := stored
  stored_create := rfl
  isEmpty_iff := isEmpty_iff
  serves s c hnumbered hallowed := by
    cases c with
    | insert ev => exact ⟨none, s.insert ev, rfl, rfl, s.stored_insert ev⟩
    | peekNext =>
      obtain ⟨next, hpeek, hnext, -⟩ := s.exists_front hallowed
      refine ⟨some next, s, ?_, next, rfl, hnext, rfl⟩
      unfold call
      rw [hpeek]
      rfl
    | removeNext =>
      obtain ⟨next, hpeek, hnext, hpop⟩ := s.exists_front hallowed
      refine ⟨some next, s.popFront, ?_, next, rfl, hnext, hpop⟩
      unfold call removeNext
      rw [hpeek]
      rfl
    | remove ev =>
      obtain ⟨t, hremove, hstored⟩ := s.remove_eq ev hnumbered.nodup hallowed
      refine ⟨none, t, ?_, rfl, hstored⟩
      show (s.remove ev).map _ = _
      rw [hremove]
      rfl

end ListScheduler

end Ns3Dsme.Core
