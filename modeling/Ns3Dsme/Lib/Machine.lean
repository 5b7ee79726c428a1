/-
# Machines driven by inputs, and their runs

A machine reads inputs one at a time; a step may fail, and an input is offered only
in the states that enable it.  `Run m C s is s'` is a run whose steps all meet the
condition `C`.  The rules below prove facts of every state such a run reaches, by
induction on the run.
-/
import Ns3Dsme.Lib.Program

open Program

/-- A machine: which inputs a state accepts, and what it does with them. -/
structure Machine (σ ι ε : Type*) where
  enabled : σ → ι → Prop
  step : σ → ι → Except ε σ

namespace Machine

variable {σ ι ε : Type*} (m : Machine σ ι ε)

/-- The runs of `m` from one state to another whose steps all meet `C`. -/
inductive Run (C : σ → ι → Prop) : σ → List ι → σ → Prop
  | nil (s : σ) : Run C s [] s
  | cons (s t u : σ) (i : ι) (is : List ι) (henabled : m.enabled s i) (hC : C s i)
      (hstep : m.step s i = .ok t) (hrun : Run C t is u) : Run C s (i :: is) u

variable {m}

variable {C : σ → ι → Prop} {is : List ι} {s u : σ} {β : Type*}

/-- **The invariant rule.**  What every step meeting the condition keeps, holds in every
state that a run of such steps reaches. -/
theorem Run.invariant (I : σ → Prop)
    (hstep : ∀ s i, I s → m.enabled s i → C s i → Post (m.step s i) I) (h : m.Run C s is u) (hs : I s) : I u := by
  induction h with
  | nil s => exact hs
  | cons s t u i is henabled hC hst hrun ih =>
    exact ih ((hstep s i hs henabled hC).of_eq_ok hst)

/-- A weaker condition admits at least the same runs. -/
theorem Run.mono {C D : σ → ι → Prop} (hCD : ∀ s i, C s i → D s i) (h : m.Run C s is u) : m.Run D s is u := by
  induction h with
  | nil s => exact .nil s
  | cons s t u i is henabled hC hst hrun ih =>
    exact .cons s t u i is henabled (hCD s i hC) hst ih

/-- Runs compose. -/
theorem Run.append {s t u : σ} {is js : List ι} (h : m.Run C s is t) (h' : m.Run C t js u) :
    m.Run C s (is ++ js) u := by
  induction h with
  | nil s => exact h'
  | cons s t v i is henabled hC hst hrun ih =>
    exact .cons s t u i (is ++ js) henabled hC hst (ih h')

/-- The last step of a run. -/
theorem Run.last {i : ι} (h : m.Run C s (is ++ [i]) u) :
    ∃ t, m.Run C s is t ∧ m.enabled t i ∧ C t i ∧ m.step t i = .ok u := by
  induction is generalizing s with
  | nil =>
    cases h with
    | cons _ t _ _ _ henabled hC hst hrun =>
      cases hrun
      exact ⟨s, .nil s, henabled, hC, hst⟩
  | cons j is ih =>
    cases h with
    | cons _ t _ _ _ henabled hC hst hrun =>
      obtain ⟨v, hv, hlast⟩ := ih hrun
      exact ⟨v, .cons s t v j is henabled hC hst hv, hlast⟩

/-- **The simulation rule.**  If related states take the same steps to related states, a run
from the one is matched by a run from the other on the same inputs. -/
theorem Run.simulate (R : σ → σ → Prop)
    (hstep : ∀ s t i s', R s t → m.enabled s i → C s i → m.step s i = .ok s' →
      m.enabled t i ∧ C t i ∧ ∃ t', m.step t i = .ok t' ∧ R s' t') {s u t : σ} (h : m.Run C s is u)
    (hst : R s t) : ∃ v, m.Run C t is v ∧ R u v := by
  induction h generalizing t with
  | nil s => exact ⟨t, .nil t, hst⟩
  | cons s s' u i is henabled hC hs hrun ih =>
    obtain ⟨henabled', hC', t', ht, hnext⟩ := hstep s t i s' hst henabled hC hs
    obtain ⟨v, hv, huv⟩ := ih hnext
    exact ⟨v, .cons t t' v i is henabled' hC' ht hv, huv⟩

/-- What a run leaves behind in a record that every step adds to. -/
def ledger {β : Type*} (m : Machine σ ι ε) (record : β → σ → ι → σ → β) : β → σ → List ι → β
  | b, _, [] => b
  | b, s, i :: is =>
    match m.step s i with
    | .ok t => m.ledger record (record b s i t) t is
    | .error _ => b

/-- **The ledger rule.**  A relation between the record and the state that every step meeting
the condition keeps, holds at the end of a run of such steps. -/
theorem Run.ledger (record : β → σ → ι → σ → β) (R : β → σ → Prop)
    (hstep : ∀ b s i, R b s → m.enabled s i → C s i →
      Post (m.step s i) fun t => R (record b s i t) t) (h : m.Run C s is u) (b : β) (hb : R b s) :
    R (m.ledger record b s is) u := by
  induction h generalizing b with
  | nil s => exact hb
  | cons s t u i is henabled hC hst hrun ih =>
    have hnext : R (record b s i t) t := (hstep b s i hb henabled hC).of_eq_ok hst
    unfold Machine.ledger
    rw [hst]
    exact ih _ hnext

/-- **When a record stays good.**  If a relation to the state makes the record good, steps that
meet the condition keep the relation, and a step that does not spoils the record for good, then
the record of a run is good exactly if all its steps meet the condition. -/
theorem Run.good_ledger_iff (record : β → σ → ι → σ → β) (R : β → σ → Prop) (Good : β → Prop)
    (hgood : ∀ b s, R b s → Good b)
    (hstep : ∀ b s i, R b s → m.enabled s i → C s i →
      Post (m.step s i) fun t => R (record b s i t) t)
    (hspoiled : ∀ b s i, R b s → m.enabled s i → ¬ C s i →
      Post (m.step s i) fun t => ¬ Good (record b s i t))
    (hgrows : ∀ b s i t, Good (record b s i t) → Good b) {D : σ → ι → Prop} (h : m.Run D s is u) (b : β) (hb : R b s) :
    Good (m.ledger record b s is) ↔ m.Run C s is u := by
  have hfirst (is : List ι) : ∀ b s, Good (m.ledger record b s is) → Good b := by
    induction is with
    | nil => exact fun b s hgood => hgood
    | cons i is ih =>
      intro b s hgood
      unfold Machine.ledger at hgood
      split at hgood
      · exact hgrows _ _ _ _ (ih _ _ hgood)
      · exact hgood
  induction h generalizing b with
  | nil s => exact iff_of_true (hgood b s hb) (.nil s)
  | cons s t u i is henabled hD hst hrun ih =>
    unfold Machine.ledger
    rw [hst]
    dsimp only
    by_cases hC : C s i
    · have hnext : R (record b s i t) t := (hstep b s i hb henabled hC).of_eq_ok hst
      refine (ih _ hnext).trans ⟨fun hrest => .cons s t u i is henabled hC hst hrest, fun hall => ?_⟩
      cases hall with
      | cons _ t' _ _ _ _ _ hst' hrest =>
        rw [hst] at hst'
        cases hst'
        exact hrest
    · have hbad : ¬ Good (record b s i t) := (hspoiled b s i hb henabled hC).of_eq_ok hst
      refine iff_of_false (fun hrest => hbad (hfirst is _ _ hrest)) fun hall => ?_
      cases hall with
      | cons _ _ _ _ _ _ hC' _ _ => exact hC hC'

/-- The machine that carries its record along, so that conditions on its steps can look at what
happened before. -/
def recording {β : Type*} (m : Machine σ ι ε) (record : β → σ → ι → σ → β) :
    Machine (β × σ) ι ε where
  enabled c i := m.enabled c.2 i
  step c i := (m.step c.2 i).map fun t => (record c.1 c.2 i t, t)

instance {β : Type*} [∀ s i, Decidable (m.enabled s i)] (record : β → σ → ι → σ → β) (c : β × σ)
    (i : ι) : Decidable ((m.recording record).enabled c i) :=
  inferInstanceAs (Decidable (m.enabled c.2 i))

/-- The ledger rule, for conditions that look at the record. -/
theorem Run.recorded {C : β × σ → ι → Prop} {record : β → σ → ι → σ → β} (R : β → σ → Prop)
    (hstep : ∀ b s i, R b s → m.enabled s i → C (b, s) i →
      Post (m.step s i) fun t => R (record b s i t) t) {b b' : β}
    (h : (m.recording record).Run C (b, s) is (b', u)) (hb : R b s) : R b' u := by
  refine h.invariant (fun c => R c.1 c.2) (fun c i hc henabled hC => ?_) hb
  exact (wp_map _ _ _ _).mpr (hstep c.1 c.2 i hc henabled hC)

/-- Run the machine on given inputs, as long as each is enabled and meets the test `c`. -/
def exec (m : Machine σ ι ε) [∀ s i, Decidable (m.enabled s i)] (c : σ → ι → Bool) :
    σ → List ι → Option σ
  | s, [] => some s
  | s, i :: is =>
    if m.enabled s i ∧ c s i = true then
      match m.step s i with
      | .ok t => m.exec c t is
      | .error _ => none
    else none

/-- What can be executed is a run. -/
theorem exists_run_of_exec [∀ s i, Decidable (m.enabled s i)] (c : σ → ι → Bool) (P : σ → Bool)
    (s : σ) (is : List ι) (h : (m.exec c s is).any P = true) :
    ∃ t, m.Run (fun s i => c s i = true) s is t ∧ P t = true := by
  induction is generalizing s with
  | nil => exact ⟨s, .nil s, h⟩
  | cons i is ih =>
    unfold exec at h
    split at h
    · rename_i hen
      split at h
      · rename_i t hstep
        obtain ⟨u, hrun, hu⟩ := ih t h
        exact ⟨u, .cons s t u i is hen.1 hen.2 hstep hrun, hu⟩
      · cases h
    · cases h

end Machine
