/-
# What is stored decides the answers

The heap and the calendar keep their events in different ways.  While both store the same events,
each with a number of its own, they answer alike, whatever was done to them before.
-/
import Ns3Dsme.Core.CalendarScheduler
import Ns3Dsme.Core.HeapScheduler

namespace Ns3Dsme.Core

open HeapScheduler (event fittingCalls)

/-- Events with numbers of their own have at most one next event. -/
theorem IsNext.unique {stored : Multiset Event} (hnodup : (stored.map fun e => e.key.uid).Nodup)
    {e e' : Event} (h : IsNext stored e) (h' : IsNext stored e') : e = e' := by
  have hrank : e.rank = e'.rank := le_antisymm (h.least e' h'.mem) (h'.least e h.mem)
  have huid : e.key.uid = e'.key.uid :=
    BitVec.toNat_inj.mp (congrArg Prod.snd (toLex.injective hrank))
  exact Multiset.inj_on_of_nodup_map hnodup e h.mem e' h'.mem huid

/-- Whoever numbers the events gets one answer only. -/
theorem Serves.unique {stored s s' : Multiset Event} {c : Call} {a a' : Option Event}
    (hnumbered : c.Numbered stored) (h : Serves stored c a s) (h' : Serves stored c a' s') :
    a = a' ∧ s = s' := by
  cases c with
  | insert ev => exact ⟨h.1.trans h'.1.symm, h.2.trans h'.2.symm⟩
  | remove ev => exact ⟨h.1.trans h'.1.symm, h.2.trans h'.2.symm⟩
  | peekNext =>
    obtain ⟨e, rfl, hnext, rfl⟩ := h
    obtain ⟨e', rfl, hnext', rfl⟩ := h'
    exact ⟨congrArg some (hnext.unique hnumbered.nodup hnext'), rfl⟩
  | removeNext =>
    obtain ⟨e, rfl, hnext, rfl⟩ := h
    obtain ⟨e', rfl, hnext', rfl⟩ := h'
    obtain rfl := hnext.unique hnumbered.nodup hnext'
    exact ⟨rfl, rfl⟩

/-- **The heap and the calendar answer alike.**  After any runs of calls that fit, if they store the
same events, a further call that fits both gets the same answer from both, and they store the same
events afterwards. -/
theorem schedulers_agree (reverse : Bool) (cs cs' : List Call) (h : HeapScheduler)
    (d : CalendarScheduler.Driven) (c : Call)
    (hheap : HeapScheduler.machine.Run HeapScheduler.Fits {} cs h)
    (hcalendar : CalendarScheduler.machine.Run CalendarScheduler.Fits ⟨0, .construct reverse⟩ cs' d)
    (hsame : d.scheduler.stored = h.stored) (hallowed : c.Allowed h.stored)
    (hnumbered : c.Numbered h.stored) (hfits : h.Fits c)
    (htimely : CalendarScheduler.Timely d.last c) (hfits' : CalendarScheduler.Fits d c) :
    ∃ answer h' t, h.call c = .ok (answer, h') ∧ d.scheduler.call c = .ok (answer, t) ∧
      t.stored = h'.stored := by
  obtain ⟨hfirst, hin⟩ := HeapScheduler.inOrder_of_run cs h hheap
  obtain ⟨a, h', hcall, hserves, -⟩ := (h.meets_iff_fits c hfirst hin hallowed).1.mpr hfits
  rw [← hsame] at hallowed hnumbered hserves
  obtain ⟨a', t, hcall', hserves', -⟩ :=
    (CalendarScheduler.sound_of_run reverse cs' d hcalendar).call c hallowed htimely hfits'
  obtain ⟨rfl, hstored⟩ := hserves.unique hnumbered hserves'
  exact ⟨a, h', t, hcall, hcall', hstored.symm⟩

/-- A calendar that stores what the heap stores after `fittingCalls`, by other calls. -/
def agreeingCalls : List Call :=
  [.insert (event 4), .insert (event 0), .removeNext,
    .insert (event 3), .insert (event 1)]

theorem schedulers_agree_sample :
    ∃ h d a h' t, HeapScheduler.machine.Run HeapScheduler.Fits {} fittingCalls h ∧
      CalendarScheduler.machine.Run CalendarScheduler.Fits ⟨0, .construct true⟩ agreeingCalls d ∧
      h.call .removeNext = .ok (a, h') ∧ d.scheduler.call .removeNext = .ok (a, t) := by
  let stored : Multiset Event := [event 1, event 3, event 4]
  obtain ⟨h, hheap, hstored⟩ := Machine.exists_run_of_exec (m := HeapScheduler.machine)
    (fun h c => decide (h.Fits c)) (fun h => decide (h.stored = stored)) {}
    fittingCalls (by decide +kernel)
  obtain ⟨d, hcalendar, hstored'⟩ := Machine.exists_run_of_exec (m := CalendarScheduler.machine)
    (fun d c => decide (CalendarScheduler.Fits d c))
    (fun d => decide (d.scheduler.stored = stored)) ⟨0, .construct true⟩ agreeingCalls
    (by decide +kernel)
  have hheap := hheap.mono fun h c hc => of_decide_eq_true hc
  have hcalendar := hcalendar.mono fun d c hc => of_decide_eq_true hc
  have hstored : h.stored = stored := of_decide_eq_true hstored
  have hnumbered : Call.removeNext.Numbered stored := ⟨by decide, nofun⟩
  obtain ⟨a, h', t, hcall, hcall', -⟩ := schedulers_agree true _ _ h d .removeNext hheap hcalendar
    ((of_decide_eq_true hstored').trans hstored.symm) (by rw [hstored]; decide)
    (by rw [hstored]; exact hnumbered) trivial trivial trivial
  exact ⟨h, d, a, h', t, hheap, hcalendar, hcall, hcall'⟩

end Ns3Dsme.Core
