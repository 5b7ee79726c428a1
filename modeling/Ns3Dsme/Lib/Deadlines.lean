/-
# Deadlines in a queue, and the events that watch them

A queue of deadlines in the order of time, and pending events of one handler.  The handler need not
run at each deadline: it is enough that some event is due no later than the first of them, and that
an event which finds nothing to do waits for the next.
-/
import Mathlib.Data.List.Basic
import Mathlib.Order.Lattice

open List

namespace Deadlines

variable {τ : Type*} [LinearOrder τ]

/-- No deadline and no event is passed over, and an event is due before each deadline is over. -/
structure Watched (now : τ) (times events : List τ) : Prop where
  due : ∀ t ∈ times, now ≤ t
  sorted : times.Pairwise (· ≤ ·)
  late : ∀ e ∈ events, now ≤ e
  scheduled : ∀ t ∈ times, ∃ e ∈ events, e ≤ t

variable {now t : τ} {times times' events : List τ}

theorem watched_nil (now : τ) : Watched now [] [] where
  due := by simp
  sorted := List.Pairwise.nil
  late := by simp
  scheduled := by simp

/-- Time passes, but no event. -/
theorem Watched.tick (h : Watched now times events) (hlate : ∀ e ∈ events, t ≤ e) :
    Watched t times events where
  due := by
    intro t' ht'
    obtain ⟨e, he, hle⟩ := h.scheduled t' ht'
    exact (hlate e he).trans hle
  sorted := h.sorted
  late := hlate
  scheduled := h.scheduled

/-- A deadline is given up. -/
theorem Watched.sublist (h : Watched now times events) (hsub : times'.Sublist times) :
    Watched now times' events where
  due := fun t ht => h.due t (hsub.subset ht)
  sorted := h.sorted.sublist hsub
  late := h.late
  scheduled := fun t ht => h.scheduled t (hsub.subset ht)

/-- **A deadline is added** behind the others; for the first one an event is scheduled. -/
theorem Watched.concat (h : Watched now times events) (hnow : now ≤ t)
    (hlast : ∀ x ∈ times, x ≤ t) :
    Watched now (times ++ [t]) (if times.isEmpty then events ++ [t] else events) where
  due := by
    intro x hx
    rcases mem_append.mp hx with hx | hx
    · exact h.due x hx
    · exact (mem_singleton.mp hx) ▸ hnow
  sorted := by
    rw [pairwise_append]
    refine ⟨h.sorted, pairwise_singleton _ _, ?_⟩
    intro x hx y hy
    exact (mem_singleton.mp hy) ▸ hlast x hx
  late := by
    intro e he
    split at he
    · rcases mem_append.mp he with he | he
      · exact h.late e he
      · exact (mem_singleton.mp he) ▸ hnow
    · exact h.late e he
  scheduled := by
    intro x hx
    cases times with
    | nil => exact ⟨t, by simp, by simp_all⟩
    | cons first rest =>
      obtain ⟨e, he, hle⟩ := h.scheduled first mem_cons_self
      refine ⟨e, he, ?_⟩
      rcases mem_append.mp hx with hx | hx
      · rcases mem_cons.mp hx with rfl | hx
        · exact hle
        · exact hle.trans (rel_of_pairwise_cons h.sorted hx)
      · exact (mem_singleton.mp hx) ▸ hle.trans (hlast first mem_cons_self)

/-- **An event runs**, takes the deadlines that have come out, and schedules the next event for the
first that is left. -/
theorem Watched.fire (h : Watched now times events) (hsub : times'.Sublist times) :
    Watched now times' (events.erase now ++ times'.head?.toList) where
  due := fun t ht => h.due t (hsub.subset ht)
  sorted := h.sorted.sublist hsub
  late := by
    intro e he
    rcases mem_append.mp he with he | he
    · exact h.late e (mem_of_mem_erase he)
    · have hhead : times'.head? = some e := Option.mem_toList.mp he
      exact h.due e (hsub.subset (mem_of_mem_head? hhead))
  scheduled := by
    intro x hx
    cases times' with
    | nil => cases hx
    | cons first rest =>
      refine ⟨first, mem_append_right _ mem_cons_self, ?_⟩
      rcases mem_cons.mp hx with rfl | hx
      · exact le_refl _
      · exact rel_of_pairwise_cons (h.sorted.sublist hsub) hx

end Deadlines
