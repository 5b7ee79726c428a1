/-
# Repositories whose tuples expire

The tuples of a repository have keys, and for every tuple an event is pending that carries its
key and comes in time.  This is kept when a tuple is added with a new event, when tuples are
removed, when a tuple is refreshed that has an event early enough, and when an event runs.
-/
import Ns3Dsme.Olsr.Frames

open List KeyedList Program Program.Views

namespace Ns3Dsme.Olsr

/-- Timers are set a microsecond behind the expiration time. -/
def granularity : ℤ := 1000

/-- An event with the action is pending, and comes in time. -/
def Awaits (events : List Event) (action : TimerAction) (expirationTime : ℤ) : Prop :=
  ∃ e ∈ events, e.action = action ∧ e.time ≤ expirationTime + granularity

/-- A repository, the keys of its tuples, and the timers that go by these keys. -/
structure TimedRepository (τ κ : Type) where
  view : NodeView
  tuples : OlsrState → List τ
  tuples_same : ∀ s t, OlsrState.Same view s t → tuples t = tuples s
  key : τ → κ
  expirationTime : τ → ℤ
  action : κ → TimerAction
  action_injective : ∀ k l, action k = action l → k = l

namespace TimedRepository

variable {τ κ : Type} (R : TimedRepository τ κ)

/-- Keys are unique, and every tuple has an event. -/
structure Guarded (ts : List τ) (events : List Event) : Prop where
  distinct : (ts.map R.key).Nodup
  pending : ∀ t ∈ ts, Awaits events (R.action (R.key t)) (R.expirationTime t)

/-- The repository of a node. -/
abbrev GuardedAt (n : RoutingProtocol) : Prop := R.Guarded (R.tuples n.state) n.events

variable {R} {ts us : List τ} {events events' : List Event} {t u : τ} {k : κ}

variable (h : R.Guarded ts events)
include h

theorem Guarded.mono (hsub : events ⊆ events') : R.Guarded ts events' where
  distinct := h.distinct
  pending t ht := by
    obtain ⟨e, he, hrest⟩ := h.pending t ht
    exact ⟨e, hsub he, hrest⟩

/-- Tuples are removed. -/
theorem Guarded.sublist (hsub : us.Sublist ts) : R.Guarded us events where
  distinct := h.distinct.sublist (hsub.map _)
  pending t ht := h.pending t (hsub.subset ht)

/-- A tuple is added, with an event. -/
theorem Guarded.insert (hnew : ∀ u ∈ ts, R.key u ≠ R.key t)
    (hpending : Awaits events (R.action (R.key t)) (R.expirationTime t)) :
    R.Guarded (ts ++ [t]) events where
  distinct := by
    rw [map_append, map_cons, map_nil]
    apply h.distinct.append (nodup_singleton _)
    intro k hk hmem
    rw [mem_singleton] at hmem
    obtain ⟨u, hu, rfl⟩ := mem_map.mp hk
    exact hnew u hu hmem
  pending u hu := by
    rcases mem_append.mp hu with hu | hu
    · exact h.pending u hu
    · rw [mem_singleton.mp hu]
      exact hpending

/-- A tuple is refreshed, which has an event early enough. -/
theorem Guarded.refresh {p : τ → Bool} {f : τ → τ} (hkey : ∀ t, R.key (f t) = R.key t)
    (hpending : ∀ t ∈ ts, p t = true → Awaits events (R.action (R.key t)) (R.expirationTime (f t))) :
    R.Guarded (updateFirst p f ts) events where
  distinct := by
    rw [map_updateFirst fun t _ => hkey t]
    exact h.distinct
  pending u hu := by
    rcases mem_updateFirst hu with hu | ⟨t, ht, hp, rfl⟩
    · exact h.pending u hu
    · rw [hkey]
      exact hpending t ht hp

/-- Tuples are refreshed where they are. -/
theorem Guarded.map {f : τ → τ} (hkey : ∀ t, R.key (f t) = R.key t)
    (hpending : ∀ t ∈ ts, Awaits events (R.action (R.key t)) (R.expirationTime (f t))) :
    R.Guarded (ts.map f) events where
  distinct := by
    have hkeys : R.key ∘ f = R.key := funext hkey
    rw [map_map, hkeys]
    exact h.distinct
  pending u hu := by
    obtain ⟨t, ht, rfl⟩ := mem_map.mp hu
    rw [hkey]
    exact hpending t ht

/-- Keys tell tuples apart. -/
theorem Guarded.eq_of_key_eq (ht : t ∈ ts) (hu : u ∈ ts) (hkey : R.key t = R.key u) : t = u :=
  inj_on_of_nodup_map h.distinct ht hu hkey

/-- An event is gone that no tuple waits for. -/
theorem Guarded.erase_event (e : Event) (hother : ∀ t ∈ ts, R.action (R.key t) ≠ e.action) :
    R.Guarded ts (events.erase e) where
  distinct := h.distinct
  pending t ht := by
    obtain ⟨e', he', haction, htime⟩ := h.pending t ht
    have hne : e' ≠ e := by
      rintro rfl
      exact hother t ht haction.symm
    exact ⟨e', (mem_erase_of_ne hne).mpr he', haction, htime⟩

/-- **The timer of a tuple runs.** -/
theorem Guarded.fire (e : Event) (hk : e.action = R.action k) (found : Option τ)
    (hfound : ∀ t, found = some t → t ∈ ts ∧ R.key t = k)
    (hnone : found = none → ∀ t ∈ ts, R.key t ≠ k) :
    (found = none → R.Guarded ts (events.erase e)) ∧
    ∀ t, found = some t →
      (∀ p : τ → Bool, p t = true → (∀ u ∈ ts, p u = true → R.key u = R.key t) →
        R.Guarded (ts.eraseP p) (events.erase e)) ∧
      ∀ time, time ≤ R.expirationTime t + granularity →
        R.Guarded ts (events.erase e ++ [⟨time, R.action k⟩]) := by
  have hother (t : τ) (ht : R.key t ≠ k) : R.action (R.key t) ≠ e.action := by
    intro heq
    exact ht (R.action_injective _ _ (heq.trans hk))
  constructor
  · exact fun hfound => h.erase_event e fun t ht => hother t (hnone hfound t ht)
  · intro t ht
    obtain ⟨hmem, rfl⟩ := hfound t ht
    constructor
    · intro p hp hkey
      apply (h.sublist eraseP_sublist).erase_event
      exact fun u hu => hother u ((mem_eraseP_iff h.distinct hmem hp hkey).mp hu).2
    · intro time htime
      refine ⟨h.distinct, fun u hu => ?_⟩
      -- the tuple that was found waits for the new event, the others for what they waited for
      by_cases hkey : R.key u = R.key t
      · rw [h.eq_of_key_eq hu hmem hkey]
        exact ⟨_, mem_append_right _ mem_cons_self, rfl, htime⟩
      · obtain ⟨e', he', haction, htime'⟩ := h.pending u hu
        have hne : e' ≠ e := by
          rintro rfl
          exact hother u hkey haction.symm
        exact ⟨e', mem_append_left _ ((mem_erase_of_ne hne).mpr he'), haction, htime'⟩

omit h

/-! ## In a node -/

variable {n m : RoutingProtocol}

/-- A step that leaves the repository alone. -/
theorem Guarded.of_keeps {touched : List NodeView} (h : R.GuardedAt n)
    (hkeeps : nodeViews.Keeps touched n m) (hapart : ∀ v ∈ [R.view, .events], v ∉ touched) :
    R.GuardedAt m := by
  have hset : R.tuples m.state = R.tuples n.state := by
    apply R.tuples_same
    have hsame : RoutingProtocol.Same R.view n m := hkeeps _ (hapart _ (by simp))
    cases hv : R.view
    case config => trivial
    case clock => trivial
    case ansn => trivial
    case events => trivial
    case queue => trivial
    all_goals rw [hv] at hsame; exact hsame
  obtain ⟨-, hsub, -⟩ : RoutingProtocol.Same .events n m := hkeeps .events (hapart _ (by simp))
  show R.Guarded (R.tuples m.state) m.events
  rw [hset]
  exact h.mono hsub

end TimedRepository

end Ns3Dsme.Olsr
