/-
# Timers behind one handle

The pending events of one handler, each with the key it was scheduled under and the time at
which it runs.  A handle refers to the event that was scheduled last: scheduling again leaves
the earlier events pending, and only the last one can be cancelled.
-/
import Mathlib.Data.List.Perm.Basic
import Mathlib.Data.Int.Notation

/-- The pending events of a handler, and the key that its handle refers to. -/
structure Timers (κ : Type*) where
  pending : List (κ × ℤ) := []
  held : Option κ := none

namespace Timers

variable {κ : Type*} [DecidableEq κ]

/-- Schedule an event and let the handle refer to it. -/
def post (k : κ) (time : ℤ) (ts : Timers κ) : Timers κ where
  pending := ts.pending ++ [(k, time)]
  held := some k

/-- The event the handle refers to is pending. -/
def isRunning (ts : Timers κ) : Bool :=
  ts.held.any fun k => ts.pending.any fun x => x.1 == k

/-- Cancel the event the handle refers to. -/
def cancel (ts : Timers κ) : Timers κ where
  pending := ts.pending.filter fun x => ts.held != some x.1
  held := ts.held

/-- Take event number `i` out. -/
def drop (i : ℕ) (ts : Timers κ) : Timers κ where
  pending := ts.pending.eraseIdx i
  held := ts.held

/-- The times at which events are pending. -/
def times (ts : Timers κ) : List ℤ :=
  ts.pending.map Prod.snd

/-- A handle that is running refers to a pending event. -/
theorem isRunning_iff (ts : Timers κ) :
    ts.isRunning = true ↔ ∃ k time, ts.held = some k ∧ (k, time) ∈ ts.pending := by
  unfold isRunning
  rw [Option.any_eq_true]
  constructor
  · rintro ⟨k, hheld, hany⟩
    obtain ⟨⟨k', time⟩, hmem, hkey⟩ := List.any_eq_true.mp hany
    obtain rfl : k' = k := eq_of_beq hkey
    exact ⟨k', time, hheld, hmem⟩
  · rintro ⟨k, time, hheld, hmem⟩
    exact ⟨k, hheld, List.any_eq_true.mpr ⟨_, hmem, beq_self_eq_true k⟩⟩

/-- Cancelling the only event leaves none. -/
theorem pending_cancel_of_single {ts : Timers κ} {k : κ} {time : ℤ}
    (hpending : ts.pending = [(k, time)]) (hheld : ts.held = some k) :
    ts.cancel.pending = [] := by
  unfold cancel
  rw [hpending, hheld]
  simp

omit [DecidableEq κ] in
/-- Taking out one event leaves those of the other keys. -/
theorem mem_pending_drop {ts : Timers κ} {i : ℕ} {k k' : κ} {time time' : ℤ}
    (hi : ts.pending[i]? = some (k, time)) (hmem : (k', time') ∈ ts.pending) (hne : k' ≠ k) :
    (k', time') ∈ (ts.drop i).pending := by
  obtain ⟨hlt, hget⟩ := List.getElem?_eq_some_iff.mp hi
  have hperm : ts.pending.Perm ((k, time) :: ts.pending.eraseIdx i) := by
    rw [← hget]
    exact (List.getElem_cons_eraseIdx_perm hlt).symm
  rcases List.mem_cons.mp (hperm.mem_iff.mp hmem) with heq | hrest
  · exact absurd (Prod.mk.inj heq).1 hne
  · exact hrest

end Timers
