/-
# Event schedulers

The interface `ns3::Scheduler`: events with their keys, the calls, and what a priority queue
answers to each of them.  The implementations are in the modules that import this one.
-/
import Ns3Dsme.LrWpan.Basic
import Mathlib.Data.Multiset.AddSub
import Mathlib.Data.Multiset.MapFold
import Mathlib.Data.Multiset.Dedup
import Mathlib.Data.Prod.Lex

namespace Ns3Dsme.Core

/-! ## Events -/

/-- `Scheduler::EventKey`. -/
structure EventKey where
  ts : BitVec 64
  uid : BitVec 32
  context : BitVec 32
  deriving DecidableEq

/-- `Scheduler::Event`; `impl` stands for the pointer to the implementation. -/
structure Event where
  impl : ℕ
  key : EventKey
  deriving DecidableEq

namespace EventKey

/-- `operator<`. -/
def isLess (a b : EventKey) : Bool :=
  if a.ts < b.ts then true
  else if a.ts = b.ts ∧ a.uid < b.uid then true
  else false

/-- `operator>`. -/
def isGreater (a b : EventKey) : Bool :=
  if b.ts < a.ts then true
  else if a.ts = b.ts ∧ b.uid < a.uid then true
  else false

/-- Keys are ordered by time, then by number; the context does not count. -/
def rank (a : EventKey) : ℕ ×ₗ ℕ := toLex (a.ts.toNat, a.uid.toNat)

theorem rank_lt_iff (a b : EventKey) :
    a.rank < b.rank ↔ a.ts < b.ts ∨ a.ts = b.ts ∧ a.uid < b.uid := by
  unfold rank
  rw [Prod.Lex.toLex_lt_toLex, BitVec.lt_def, BitVec.lt_def, ← BitVec.toNat_inj]

theorem isLess_iff (a b : EventKey) : a.isLess b = true ↔ a.rank < b.rank := by
  rw [rank_lt_iff]
  unfold isLess
  split
  · rename_i hts
    exact iff_of_true rfl (Or.inl hts)
  · rename_i hts
    split
    · rename_i huid
      exact iff_of_true rfl (Or.inr huid)
    · rename_i huid
      refine iff_of_false Bool.false_ne_true ?_
      rintro (h | h)
      · exact hts h
      · exact huid h

theorem isLess_eq_false_iff (a b : EventKey) : a.isLess b = false ↔ b.rank ≤ a.rank := by
  rw [← not_lt, ← isLess_iff, Bool.not_eq_true]

theorem isGreater_eq_isLess (a b : EventKey) : a.isGreater b = b.isLess a := by
  unfold isGreater isLess
  simp only [eq_comm]

end EventKey

/-- The rank of an event is that of its key. -/
def Event.rank (e : Event) : ℕ ×ₗ ℕ := e.key.rank

/-! ## Calls -/

/-- The calls that change a schedule or look at it. -/
inductive Call
  | insert (ev : Event)
  | peekNext
  | removeNext
  | remove (ev : Event)
  deriving DecidableEq

/-- What a caller has to respect: nothing is taken from an empty schedule, and only stored
events are removed. -/
def Call.Allowed (stored : Multiset Event) : Call → Prop
  | .insert _ => True
  | .peekNext => stored ≠ 0
  | .removeNext => stored ≠ 0
  | .remove ev => ev ∈ stored

instance (stored : Multiset Event) (c : Call) : Decidable (c.Allowed stored) := by
  cases c <;> dsimp only [Call.Allowed] <;> infer_instance

/-! ## What a priority queue answers -/

/-- A stored event that no other one has to precede. -/
structure IsNext (stored : Multiset Event) (e : Event) : Prop where
  mem : e ∈ stored
  least : ∀ e' ∈ stored, e.rank ≤ e'.rank

/-- Among events with distinct keys the next one is the head of their sorted list. -/
theorem isNext_iff_head? (l : List Event) (hl : l.Pairwise fun e e' => e.rank < e'.rank)
    (e : Event) : IsNext (l : Multiset Event) e ↔ l.head? = some e := by
  cases l with
  | nil =>
    refine iff_of_false (fun h => ?_) (by simp)
    exact absurd h.mem (by simp)
  | cons first rest =>
    have hfirst := (List.pairwise_cons.mp hl).1
    rw [List.head?_cons, Option.some_inj]
    constructor
    · intro h
      rcases List.mem_cons.mp (Multiset.mem_coe.mp h.mem) with heq | hrest
      · exact heq.symm
      · have hle : e.rank ≤ first.rank := h.least first (by simp)
        exact absurd (hfirst e hrest) (not_lt_of_ge hle)
    · rintro rfl
      constructor
      · simp
      · intro e' he'
        rcases List.mem_cons.mp (Multiset.mem_coe.mp he') with rfl | hrest
        · exact le_refl _
        · exact (hfirst e' hrest).le

/-- A call on a priority queue that stores `stored`: its answer, and what it stores next. -/
def Serves (stored : Multiset Event) (c : Call) (answer : Option Event)
    (stored' : Multiset Event) : Prop :=
  match c with
  | .insert ev => answer = none ∧ stored' = ev ::ₘ stored
  | .peekNext => ∃ e, answer = some e ∧ IsNext stored e ∧ stored' = stored
  | .removeNext => ∃ e, answer = some e ∧ IsNext stored e ∧ stored' = stored.erase e
  | .remove ev => answer = none ∧ stored' = stored.erase ev

/-! ## Correct schedulers -/

/-- No two stored events have one number, and an event that is inserted brings a new one. -/
structure Call.Numbered (stored : Multiset Event) (c : Call) : Prop where
  nodup : (stored.map fun e => e.key.uid).Nodup
  fresh : ∀ ev, c = .insert ev → ∀ e ∈ stored, e.key.uid ≠ ev.key.uid

/-- A scheduler that is a priority queue to whoever gives each event a number of its own. -/
structure CorrectScheduler where
  Queue : Type
  create : Queue
  isEmpty : Queue → Bool
  call : Queue → Call → Except Fault (Option Event × Queue)
  stored : Queue → Multiset Event
  stored_create : stored create = 0
  isEmpty_iff : ∀ q, isEmpty q = true ↔ stored q = 0
  serves : ∀ q c, c.Numbered (stored q) → c.Allowed (stored q) →
    ∃ answer q', call q c = .ok (answer, q') ∧ Serves (stored q) c answer (stored q')

end Ns3Dsme.Core
