/-
# The backoff periods that are waited

The backoffs that a slotted `LrWpanCsmaCa` draws, and the time it spends on each of them in one
CAP after the other.  What is left at the end of a CAP is kept in `m_randomBackoffPeriodsLeft`,
where 0 stands for a backoff yet to be drawn.  So every backoff is waited for exactly, unless it
ends together with a CAP, where another one is drawn in the next, or is broken off by a CAP with 3
or 5 periods left, of which one is not counted.
-/
import Ns3Dsme.LrWpan.BackoffParameters

open List Program

namespace Ns3Dsme.BackoffPeriods

open CsmaCancel BackoffParameters

/-! ## The backoffs of a run -/

/-- A backoff. -/
structure Backoff where
  drawn : ℕ
  /-- The whole backoff periods that have been waited. -/
  waited : ℕ
  deriving DecidableEq

/-- The whole backoff periods that fit into a time. -/
def periods (time : ℤ) : ℕ := (time / symbols aUnitBackoffPeriod).toNat

/-- What is written down in a run. -/
structure Ledger where
  /-- The backoff under way, up to the last end of a CAP. -/
  current : Option Backoff := none
  /-- When it was begun in this CAP. -/
  since : ℤ := 0
  /-- The backoffs after which CSMA-CA proceeded. -/
  finished : List Backoff := []
  /-- Backoffs drawn while another one was under way. -/
  redrawn : ℕ := 0
  /-- Backoffs gone on with or finished where none was drawn. -/
  undrawn : ℕ := 0

namespace Ledger

/-- The backoff under way, if this CAP's share of it ends at `time`. -/
def settled (b : Ledger) (time : ℤ) : Option Backoff :=
  b.current.map fun k => { k with waited := k.waited + periods (time - b.since) }

/-- `RandomBackoffDelay` runs at `time`; `draw` is what it draws, if it draws. -/
def begin (b : Ledger) (time : ℤ) (draw : Option ℕ) : Ledger :=
  match draw with
  | some r =>
    { b with
      current := some ⟨r, 0⟩
      since := time
      redrawn := if b.current.isSome then b.redrawn + 1 else b.redrawn }
  | none =>
    { b with
      since := time
      undrawn := if b.current.isSome then b.undrawn else b.undrawn + 1 }

/-- CSMA-CA proceeds at `time`. -/
def finish (b : Ledger) (time : ℤ) : Ledger :=
  { b with
    current := none
    finished := b.finished ++ (b.settled time).toList
    undrawn := if b.current.isSome then b.undrawn else b.undrawn + 1 }

/-- What a handler adds, when it runs in the device `s`. -/
def fire (b : Ledger) (s : Mac) (event : MacEvent) : Ledger :=
  match event with
  | .randomBackoffDelay =>
    b.begin s.sim.now (if s.csma.randomBackoffPeriodsLeft = 0 ∨ s.csma.isSlotted = false then
      some (drawBackoff s).csma.randomBackoffPeriodsLeft else none)
  | .canProceed => b.finish s.sim.now
  | .deferCsmaTimeout => { b with current := b.settled s.sim.now }
  | _ => b

/-- What a step adds.  A cancelled backoff is not under way any more. -/
def record (b : Ledger) (s : Mac) (i : CsmaInput) (_ : Mac) : Ledger :=
  match i.call with
  | .cancel => { b with current := none }
  | .fire n =>
    match s.sim.take n with
    | some (e, sim) => b.fire { s with phy := i.answers, sim } e.event
    | none => b
  | _ => b

/-- **Conservation.**  Before CSMA-CA proceeds it has waited for the periods that were drawn, and
never for more; no backoff is drawn again, and none is waited for that was not drawn. -/
structure Conserved (b : Ledger) : Prop where
  finished : ∀ k ∈ b.finished, k.waited = k.drawn
  current : ∀ k, b.current = some k → k.waited ≤ k.drawn
  redrawn : b.redrawn = 0
  undrawn : b.undrawn = 0

end Ledger

/-! ## Where backoffs end -/

/-- The backoff does not end together with the CAP, and a CAP that ends before it does not end in 3
or 5 backoff periods, which would be counted as 2 and 4. -/
structure Apart (s : Mac) : Prop where
  ne : symbols (s.csma.randomBackoffPeriodsLeft * aUnitBackoffPeriod) ≠ s.getTimeLeftInCap
  three : s.getTimeLeftInCap ≠ symbols (3 * aUnitBackoffPeriod)
    ∨ s.csma.randomBackoffPeriodsLeft ≤ 3
  five : s.getTimeLeftInCap ≠ symbols (5 * aUnitBackoffPeriod)
    ∨ s.csma.randomBackoffPeriodsLeft ≤ 5

instance (s : Mac) : Decidable (Apart s) :=
  decidable_of_iff (_ ∧ _ ∧ _)
    ⟨fun ⟨hne, hthree, hfive⟩ => ⟨hne, hthree, hfive⟩, fun h => ⟨h.ne, h.three, h.five⟩⟩

/-- Every backoff ends apart from the CAP. -/
def EndsApart (s : Mac) (i : CsmaInput) : Prop :=
  ∀ n e sim, i.call = .fire n → s.sim.take n = some (e, sim) → e.event = .randomBackoffDelay →
    Apart (drawBackoff { s with phy := i.answers, sim })

/-- One attempt at a time, cancelled only where no backoff periods are left, and no backoff that
ends together with the CAP or is miscounted at its end. -/
structure Regular (x : Ledger × Mac) (i : CsmaInput) : Prop where
  oneAttempt : OneAttempt x.2 i
  keepsConfiguration : KeepsConfiguration x.2 i
  cancels : i.call = .cancel → x.2.csma.randomBackoffPeriodsLeft = 0
  endsApart : EndsApart x.2 i

/-! ## The invariant -/

/-- What is left is what is still owed to the backoff under way, and 0 only if there is none. -/
def Owes (current : Option Backoff) (left : ℕ) : Prop :=
  match current with
  | some k => k.waited + left = k.drawn ∧ 0 < left
  | none => left = 0

/-- The ledger and what is pending.  A backoff that ends inside the CAP is complete when it ends,
and something is owed to one that does not. -/
structure Ledger.Tracks (b : Ledger) (s : Mac) : Prop where
  proceeds : ∀ e ∈ s.sim.pending, e.event = .canProceed →
    ∃ d, b.settled e.time = some ⟨d, d⟩
  deferred : ∀ e ∈ s.sim.pending, e.event = .deferCsmaTimeout →
    Owes (b.settled e.time) s.csma.randomBackoffPeriodsLeft
  owes : (∀ e ∈ s.sim.pending, e.event ≠ .canProceed ∧ e.event ≠ .deferCsmaTimeout) →
    Owes b.current s.csma.randomBackoffPeriodsLeft

/-- What is written down of the past is as it should be. -/
structure Ledger.Clean (b : Ledger) : Prop where
  finished : ∀ k ∈ b.finished, k.waited = k.drawn
  drawn : ∀ k, b.current = some k → k.drawn < 7
  redrawn : b.redrawn = 0
  undrawn : b.undrawn = 0

/-- The relation between the ledger and the state. -/
structure Ledger.Holds (b : Ledger) (s : Mac) : Prop extends b.Clean, b.Tracks s where
  single : Single s
  isSlotted : s.csma.isSlotted = true

/-- `symbols` counts whole backoff periods. -/
theorem periods_symbols (n : ℕ) : periods (symbols (n * aUnitBackoffPeriod)) = n := by
  unfold periods symbols aUnitBackoffPeriod
  omega

/-- A backoff longer than the time that is left in the CAP is not used up by it. -/
theorem periods_lt {time : ℤ} {n : ℕ} (h : time < symbols (n * aUnitBackoffPeriod))
    (htime : 0 ≤ time) : periods time < n := by
  unfold periods
  unfold symbols aUnitBackoffPeriod at *
  omega

variable {b : Ledger} {s : Mac} {event : MacEvent} {i : CsmaInput}

/-- **The whole periods are counted** at the end of a CAP. -/
theorem Apart.usedBackoffs (h : Apart s) (hdrawn : s.csma.randomBackoffPeriodsLeft < 7)
    (hlt : s.getTimeLeftInCap < symbols (s.csma.randomBackoffPeriodsLeft * aUnitBackoffPeriod))
    (htime : 0 ≤ s.getTimeLeftInCap) :
    Mac.usedBackoffs s.getTimeLeftInCap = periods s.getTimeLeftInCap := by
  have hthree := h.three
  have hfive := h.five
  unfold symbols aUnitBackoffPeriod at hlt hthree hfive
  apply Mac.usedBackoffs_eq htime
  · unfold symbols aUnitBackoffPeriod
    omega
  · unfold symbols aUnitBackoffPeriod
    omega
  · unfold symbols aUnitBackoffPeriod
    omega

/-- With one event pending at most, the waited periods are at most the drawn ones. -/
theorem Ledger.Holds.conserved (h : b.Holds s) : b.Conserved where
  finished := h.finished
  redrawn := h.redrawn
  undrawn := h.undrawn
  current k hk := by
    have hsettled (time : ℤ) : b.settled time
        = some { k with waited := k.waited + periods (time - b.since) } := by
      unfold Ledger.settled
      rw [hk]
      rfl
    have howes (hother : ∀ e ∈ s.sim.pending, e.event ≠ .canProceed
        ∧ e.event ≠ .deferCsmaTimeout) : k.waited ≤ k.drawn := by
      have hsum := h.owes hother
      rw [hk] at hsum
      have hsum : k.waited + s.csma.randomBackoffPeriodsLeft = k.drawn := hsum.1
      omega
    rcases h.single with hnone | ⟨e, -, hone, -, -⟩
    · exact howes fun e he => by rw [hnone] at he; cases he
    · have hmem : e ∈ s.sim.pending := hone ▸ mem_singleton_self e
      by_cases hproceed : e.event = .canProceed
      · obtain ⟨d, hd⟩ := h.proceeds e hmem hproceed
        have hk' := Option.some.inj ((hsettled e.time).symm.trans hd)
        have hdrawn : k.drawn = d := congrArg Backoff.drawn hk'
        have hwaited : k.waited + periods (e.time - b.since) = d := congrArg Backoff.waited hk'
        omega
      · by_cases hdefer : e.event = .deferCsmaTimeout
        · have hsum := h.deferred e hmem hdefer
          rw [hsettled] at hsum
          have hsum : k.waited + periods (e.time - b.since) + s.csma.randomBackoffPeriodsLeft
              = k.drawn := hsum.1
          omega
        · refine howes fun e' he' => ?_
          rw [hone] at he'
          rw [mem_singleton.mp he']
          exact ⟨hproceed, hdefer⟩

namespace Ledger

variable {b : Ledger} {s : Mac}

/-- Nothing pending ends a backoff. -/
theorem Tracks.of_others (hothers : ∀ e ∈ s.sim.pending, e.event ≠ .canProceed
    ∧ e.event ≠ .deferCsmaTimeout) (howes : Owes b.current s.csma.randomBackoffPeriodsLeft) :
    b.Tracks s where
  proceeds e he hproceed := absurd hproceed (hothers e he).1
  deferred e he hdefer := absurd hdefer (hothers e he).2
  owes _ := howes

/-- The end of the backoff is pending. -/
theorem Tracks.of_canProceed {e : Scheduled} (hone : s.sim.pending = [e])
    (hevent : e.event = .canProceed) {d : ℕ} (hd : b.settled e.time = some ⟨d, d⟩) :
    b.Tracks s := by
  have hmem : e ∈ s.sim.pending := hone ▸ mem_singleton_self e
  refine ⟨fun e' he' _ => ⟨d, ?_⟩, fun e' he' hdefer => ?_, fun hothers => ?_⟩
  · rw [hone] at he'
    rw [mem_singleton.mp he']
    exact hd
  · rw [hone] at he'
    rw [mem_singleton.mp he', hevent] at hdefer
    cases hdefer
  · exact absurd hevent (hothers e hmem).1

/-- The end of the CAP is pending. -/
theorem Tracks.of_deferCsmaTimeout {e : Scheduled} (hone : s.sim.pending = [e])
    (hevent : e.event = .deferCsmaTimeout)
    (howes : Owes (b.settled e.time) s.csma.randomBackoffPeriodsLeft) : b.Tracks s := by
  have hmem : e ∈ s.sim.pending := hone ▸ mem_singleton_self e
  refine ⟨fun e' he' hproceed => ?_, fun e' he' _ => ?_, fun hothers => ?_⟩
  · rw [hone] at he'
    rw [mem_singleton.mp he', hevent] at hproceed
    cases hproceed
  · rw [hone] at he'
    rw [mem_singleton.mp he']
    exact howes
  · exact absurd hevent (hothers e hmem).2

/-- What is pending may be withdrawn, if nothing is owed. -/
theorem Tracks.of_none (hcurrent : b.current = none)
    (hproceed : ∀ e ∈ s.sim.pending, e.event ≠ .canProceed)
    (hleft : s.csma.randomBackoffPeriodsLeft = 0) : b.Tracks s where
  proceeds e he hevent := absurd hevent (hproceed e he)
  deferred e _ _ := by
    unfold settled
    rw [hcurrent]
    exact hleft
  owes _ := by
    rw [hcurrent]
    exact hleft

end Ledger

/-! ## Handlers -/

/-- **A backoff goes on.**  It ends inside the CAP, or after it with something left. -/
theorem tracks_scheduleBackoff {s t : Mac} {k : Backoff} (ht : scheduleBackoff s = .ok t)
    (hnone : s.sim.pending = []) (hmode : s.csma.isSlotted = true) (hcurrent : b.current = some k)
    (hsince : b.since = s.sim.now) (hsum : k.waited + s.csma.randomBackoffPeriodsLeft = k.drawn)
    (hdrawn : k.drawn < 7) (happart : Apart s) :
    b.Tracks t := by
  have hsettled (delay : ℤ) : b.settled (s.sim.now + delay)
      = some { k with waited := k.waited + periods delay } := by
    unfold Ledger.settled
    rw [hcurrent, hsince, show s.sim.now + delay - s.sim.now = delay by omega]
    rfl
  unfold scheduleBackoff at ht
  rw [if_neg (by rw [hmode]; decide)] at ht
  split at ht
  · rename_i hle
    obtain ⟨htime, rfl⟩ := schedule_ok ht
    have hbefore : s.getTimeLeftInCap
        < symbols (s.csma.randomBackoffPeriodsLeft * aUnitBackoffPeriod) :=
      lt_of_le_of_ne hle happart.ne.symm
    have hlt : periods s.getTimeLeftInCap < s.csma.randomBackoffPeriodsLeft :=
      periods_lt hbefore htime
    rw [happart.usedBackoffs (by omega) hbefore htime]
    refine .of_deferCsmaTimeout (congrArg Sim.pending (post_of_nil hnone _ _ _ rfl)) rfl ?_
    rw [show _ = _ from hsettled s.getTimeLeftInCap]
    constructor
    · show k.waited + periods s.getTimeLeftInCap
        + (s.csma.randomBackoffPeriodsLeft - periods s.getTimeLeftInCap) = k.drawn
      omega
    · exact Nat.sub_pos_of_lt hlt
  · obtain ⟨-, rfl⟩ := schedule_ok ht
    refine .of_canProceed (congrArg Sim.pending (post_of_nil hnone _ _ _ rfl)) rfl
      (d := k.drawn) ?_
    rw [show _ = _ from hsettled _, periods_symbols, hsum]

/-- **`RandomBackoffDelay`.**  It draws a backoff if none is under way, and only then. -/
theorem Ledger.Clean.randomBackoffDelay {s t : Mac} (hb : b.Clean)
    (howes : Owes b.current s.csma.randomBackoffPeriodsLeft) (hnone : s.sim.pending = [])
    (hmode : s.csma.isSlotted = true) (happart : Apart (drawBackoff s))
    (ht : s.randomBackoffDelay = .ok t) :
    (b.fire s .randomBackoffDelay).Clean ∧ (b.fire s .randomBackoffDelay).Tracks t := by
  rw [randomBackoffDelay_eq] at ht
  unfold Ledger.fire
  dsimp only
  cases hcurrent : b.current with
  | none =>
    rw [hcurrent] at howes
    have hzero : s.csma.randomBackoffPeriodsLeft = 0 := howes
    have hdraw : drawBackoff s
        = { s with csma := { s.csma with randomBackoffPeriodsLeft := s.phy.random % 7 } } := by
      unfold drawBackoff
      rw [if_pos (Or.inl hzero)]
    rw [if_pos (Or.inl hzero)]
    unfold Ledger.begin
    dsimp only
    rw [hcurrent]
    have hdrawn : s.phy.random % 7 < 7 := Nat.mod_lt _ (by decide)
    rw [hdraw] at ht happart ⊢
    refine ⟨⟨hb.finished, fun k hk => ?_, hb.redrawn, hb.undrawn⟩, ?_⟩
    · cases hk
      exact hdrawn
    · exact tracks_scheduleBackoff ht hnone hmode rfl rfl (Nat.zero_add _) hdrawn happart
  | some k =>
    rw [hcurrent] at howes
    obtain ⟨hsum, hpos⟩ : k.waited + s.csma.randomBackoffPeriodsLeft = k.drawn
      ∧ 0 < s.csma.randomBackoffPeriodsLeft := howes
    have hgoes : ¬ (s.csma.randomBackoffPeriodsLeft = 0 ∨ s.csma.isSlotted = false) := by
      rw [hmode]
      rintro (hzero | hother)
      · omega
      · cases hother
    have hdraw : drawBackoff s = s := by
      unfold drawBackoff
      rw [if_neg hgoes]
    rw [if_neg hgoes]
    unfold Ledger.begin
    dsimp only
    rw [hcurrent]
    refine ⟨⟨hb.finished, fun k' hk' => ?_, hb.redrawn, hb.undrawn⟩, ?_⟩
    · exact hb.drawn k' (hcurrent.trans hk')
    · rw [hdraw] at ht happart
      exact tracks_scheduleBackoff ht hnone hmode rfl rfl hsum (hb.drawn k hcurrent) happart

/-- **`CanProceed`.**  The backoff is complete, and nothing is left of it. -/
theorem Ledger.Clean.canProceed {s t : Mac} {d : ℕ} (hb : b.Clean)
    (hd : b.settled s.sim.now = some ⟨d, d⟩) (hnone : s.sim.pending = [])
    (ht : s.canProceed = .ok t) :
    (b.fire s .canProceed).Clean ∧ (b.fire s .canProceed).Tracks t := by
  have hsome : b.current.isSome = true := by
    unfold Ledger.settled at hd
    obtain ⟨k, hk, -⟩ := Option.map_eq_some_iff.mp hd
    rw [hk]
    rfl
  constructor
  · unfold Ledger.fire Ledger.finish
    dsimp only
    rw [hd, if_pos hsome]
    refine ⟨fun k hk => ?_, fun _ hk => ?_, hb.redrawn, hb.undrawn⟩
    · rcases mem_append.mp hk with hk | hk
      · exact hb.finished k hk
      · rw [mem_singleton.mp hk]
    · cases hk
  · rw [canProceed_eq] at ht
    split at ht
    · unfold proceedWith at ht
      split at ht
      · obtain ⟨-, rfl⟩ := schedule_ok ht
        refine .of_none rfl (fun e he => ?_) rfl
        rw [show _ = _ from congrArg Sim.pending (post_of_nil hnone _ _ _ rfl)] at he
        rw [mem_singleton.mp he]
        rintro ⟨⟩
      · cases ht
        refine .of_none rfl (fun e he => ?_) rfl
        rw [show _ = _ from congrArg Sim.pending (post_of_nil hnone _ _ _ rfl)] at he
        rw [mem_singleton.mp he]
        rintro ⟨⟩
    · cases ht

/-- A confirm leaves the backoff alone. -/
theorem left_confirmCca (s : Mac) (status : LrWpanPhyEnumeration) :
    (s.confirmCca status).2.csma.randomBackoffPeriodsLeft = s.csma.randomBackoffPeriodsLeft
      ∧ (s.confirmCca status).2.csma.isSlotted = s.csma.isSlotted := by
  unfold Mac.confirmCca
  dsimp only
  split
  · split
    · split
      · split
        · exact ⟨rfl, rfl⟩
        · exact ⟨rfl, rfl⟩
      · exact ⟨rfl, rfl⟩
    · split
      · exact ⟨rfl, rfl⟩
      · exact ⟨rfl, rfl⟩
  · exact ⟨rfl, rfl⟩

theorem others_post {sim : Sim} (hnone : sim.pending = []) {m : Member} {delay : ℤ}
    (h : m.mayHold event = true) (hproceed : event ≠ .canProceed)
    (hdefer : event ≠ .deferCsmaTimeout) : ∀ e ∈ (sim.post m event delay h).pending,
      e.event ≠ .canProceed ∧ e.event ≠ .deferCsmaTimeout := by
  intro e he
  rw [post_of_nil hnone] at he
  rw [mem_singleton.mp he]
  exact ⟨hproceed, hdefer⟩

/-- After a confirm another assessment or another backoff is pending, or nothing. -/
theorem others_confirmCca (hnone : s.sim.pending = []) (status : LrWpanPhyEnumeration) :
    ∀ e ∈ (s.confirmCca status).2.sim.pending,
      e.event ≠ .canProceed ∧ e.event ≠ .deferCsmaTimeout := by
  have hempty : ∀ e ∈ s.sim.pending, e.event ≠ .canProceed ∧ e.event ≠ .deferCsmaTimeout := by
    intro e he
    rw [hnone] at he
    cases he
  unfold Mac.confirmCca
  dsimp only
  split
  · split
    · split
      · split
        · exact hempty
        · exact others_post hnone rfl (by decide) (by decide)
      · exact hempty
    · split
      · exact hempty
      · exact others_post hnone rfl (by decide) (by decide)
  · exact hempty

theorem tracks_confirmCca (hnone : s.sim.pending = [])
    (howes : Owes b.current s.csma.randomBackoffPeriodsLeft) (status : LrWpanPhyEnumeration) :
    b.Tracks (Mac.report (s.confirmCca status)) := by
  have hsim := (isSlotted_report (s.confirmCca status)).2
  refine .of_others ?_ ?_
  · rw [hsim]
    exact others_confirmCca hnone status
  · rw [csma_report, (left_confirmCca s status).1]
    exact howes

/-- **The ledger through the handlers**, where nothing else is pending. -/
theorem Ledger.Clean.runCsma {s t : Mac} (hb : b.Clean) (hnone : s.sim.pending = [])
    (hmode : s.csma.isSlotted = true)
    (hproceeds : event = .canProceed → ∃ d, b.settled s.sim.now = some ⟨d, d⟩)
    (hdeferred : event = .deferCsmaTimeout →
      Owes (b.settled s.sim.now) s.csma.randomBackoffPeriodsLeft)
    (howes : event ≠ .canProceed ∧ event ≠ .deferCsmaTimeout →
      Owes b.current s.csma.randomBackoffPeriodsLeft)
    (happart : event = .randomBackoffDelay → Apart (drawBackoff s)) (ht : s.runCsma event = .ok t) :
    (b.fire s event).Clean ∧ (b.fire s event).Tracks t := by
  have hempty : ∀ e ∈ s.sim.pending, e.event ≠ .canProceed ∧ e.event ≠ .deferCsmaTimeout := by
    intro e he
    rw [hnone] at he
    cases he
  cases event with
  | randomBackoffDelay =>
    exact hb.randomBackoffDelay (howes ⟨by decide, by decide⟩) hnone hmode (happart rfl) ht
  | canProceed =>
    obtain ⟨d, hd⟩ := hproceeds rfl
    exact hb.canProceed hd hnone ht
  | requestCCA =>
    cases ht
    refine ⟨hb, ?_⟩
    have howes := howes ⟨by decide, by decide⟩
    unfold Mac.assess Mac.startCca
    dsimp only
    split
    · exact tracks_confirmCca (by exact hnone) (by exact howes) _
    · exact .of_others (others_post hnone rfl (by decide) (by decide)) howes
  | deferCsmaTimeout =>
    cases ht
    refine ⟨{ hb with drawn := fun k hk => ?_ }, .of_others hempty (hdeferred rfl)⟩
    obtain ⟨k', hk', rfl⟩ := Option.map_eq_some_iff.mp hk
    exact hb.drawn k' hk'
  | endCca =>
    cases ht
    exact ⟨hb, tracks_confirmCca hnone (howes ⟨by decide, by decide⟩) _⟩
  | _ =>
    cases ht
    refine ⟨hb, .of_others hempty (howes ?_)⟩
    constructor
    · rintro ⟨⟩
    · rintro ⟨⟩

theorem isSlotted_runCsma {s t : Mac} (ht : s.runCsma event = .ok t) :
    t.csma.isSlotted = s.csma.isSlotted := by
  have hconfirm (u : Mac) (status : LrWpanPhyEnumeration) :
      (Mac.report (u.confirmCca status)).csma.isSlotted = u.csma.isSlotted := by
    rw [csma_report]
    exact (left_confirmCca u status).2
  unfold Mac.runCsma at ht
  split at ht
  · exact (sameCounts_randomBackoffDelay ht).isSlotted
  · exact (sameCounts_canProceed ht).isSlotted
  · cases ht
    unfold Mac.assess Mac.startCca
    dsimp only
    split
    · exact hconfirm _ _
    · rfl
  · cases ht
    rfl
  · cases ht
    exact hconfirm s _
  · cases ht
    rfl

/-! ## Steps and runs -/

/-- A cancel withdraws the end of a backoff. -/
theorem ne_canProceed_of_cancel (hs : Single s) :
    ∀ e ∈ s.csmaCancel.sim.pending, e.event ≠ .canProceed := by
  intro e he hevent
  have hkept : e ∈ s.sim.pending ∧ e.holder ≠ some .canProceedEvent := by
    obtain ⟨he, -⟩ := mem_filter.mp (show e ∈ List.filter _ (List.filter _ _) from he)
    obtain ⟨he, hholder⟩ := mem_filter.mp he
    exact ⟨filter_sublist.trans filter_sublist |>.subset he, of_decide_eq_true hholder⟩
  rcases hs with hnone | ⟨e', m, hone, hholder, -⟩
  · rw [hnone] at hkept
    cases hkept.1
  · rw [hone] at hkept
    obtain rfl := mem_singleton.mp hkept.1
    have hmay := e.holder_ok m hholder
    rw [hevent] at hmay
    have hm : m = .canProceedEvent := by
      cases m with
      | canProceedEvent => rfl
      | _ => cases hmay
    exact hkept.2 (hholder.trans (congrArg some hm))

/-- **Every regular step keeps the relation.** -/
theorem Ledger.Holds.step (h : b.Holds s) (henabled : machine.enabled s i) (hC : Regular (b, s) i) :
    Post (machine.step s i) fun t => (b.record s i t).Holds t := by
  refine post_of_forall fun t ht => ?_
  have hsingle : Single t := (single_step s i h.single henabled hC.oneAttempt).of_eq_ok ht
  obtain ⟨call, answers⟩ := i
  cases call with
  | start =>
    have hnone : s.sim.pending = [] := hC.oneAttempt rfl
    have ht : Mac.csmaStart { s with phy := answers } = .ok t := ht
    rw [csmaStart_eq] at ht
    cases ht
    have howes : Owes b.current s.csma.randomBackoffPeriodsLeft := h.owes fun e he => by
      rw [hnone] at he
      cases he
    have hleft : (startCsma { s with phy := answers }).randomBackoffPeriodsLeft
        = s.csma.randomBackoffPeriodsLeft
        ∧ (startCsma { s with phy := answers }).isSlotted = s.csma.isSlotted := by
      unfold startCsma
      split
      · exact ⟨rfl, rfl⟩
      · exact ⟨rfl, rfl⟩
    refine ⟨h.toClean, .of_others (others_post hnone rfl (by decide) (by decide)) ?_, hsingle,
      hleft.2.trans h.isSlotted⟩
    show Owes b.current (startCsma { s with phy := answers }).randomBackoffPeriodsLeft
    rw [hleft.1]
    exact howes
  | cancel =>
    cases ht
    exact ⟨{ h with drawn := fun _ hk => by cases hk },
      .of_none rfl (ne_canProceed_of_cancel (s := { s with phy := answers }) h.single)
        (hC.cancels rfl), hsingle, h.isSlotted⟩
  | fire n =>
    have ht : act (.fire n) { s with phy := answers } = .ok t := ht
    unfold act at ht
    unfold Ledger.record
    dsimp only at ht ⊢
    cases htake : s.sim.take n with
    | none =>
      rw [htake] at ht
      cases ht
      exact ⟨h.toClean, { h with }, hsingle, h.isSlotted⟩
    | some r =>
      obtain ⟨e, sim⟩ := r
      rw [htake] at ht
      have hone : s.sim.pending = [e] := by
        have hmem := mem_of_getElem? (Sim.getElem?_of_take htake)
        rcases h.single with hnone | ⟨e', -, hone, -, -⟩
        · rw [hnone] at hmem
          cases hmem
        · rw [hone] at hmem
          rw [hone, mem_singleton.mp hmem]
      have hmem : e ∈ s.sim.pending := hone ▸ mem_singleton_self e
      have hnow : sim.now = e.time := Sim.now_of_take htake
      obtain ⟨hclean, htracks⟩ := h.toClean.runCsma (s := { s with phy := answers, sim })
        (h.single.pending_of_take htake) h.isSlotted
        (fun hevent => by
          rw [show _ = _ from hnow]
          exact h.proceeds e hmem hevent)
        (fun hevent => by
          rw [show _ = _ from hnow]
          exact h.deferred e hmem hevent)
        (fun hevent => h.owes fun e' he' => by
          rw [hone] at he'
          rw [mem_singleton.mp he']
          exact hevent)
        (fun hevent => hC.endsApart n e sim rfl htake hevent) ht
      exact ⟨hclean, htracks, hsingle, (isSlotted_runCsma ht).trans h.isSlotted⟩
  | ccaCancelled =>
    cases ht
    have hrunning : s.isRunning .ccaRequest = true := henabled
    have howes : Owes b.current s.csma.randomBackoffPeriodsLeft := by
      obtain ⟨e, he, hholder⟩ := any_eq_true.mp hrunning
      have hmay := e.holder_ok .ccaRequest (eq_of_beq hholder)
      refine h.owes fun e' he' => ?_
      rcases h.single with hnone | ⟨e'', -, hone, -, -⟩
      · rw [hnone] at he
        cases he
      · rw [hone] at he he'
        obtain rfl := mem_singleton.mp he
        rw [mem_singleton.mp he']
        constructor
        · intro hevent
          rw [hevent] at hmay
          cases hmay
        · intro hevent
          rw [hevent] at hmay
          cases hmay
    refine ⟨h.toClean, tracks_confirmCca
      (s := { s with phy := answers, sim := s.sim.cancel .ccaRequest })
      (h.single.pending_cancel hrunning) howes .phyBusy, hsingle, ?_⟩
    rw [csma_report, (left_confirmCca _ _).2]
    exact h.isSlotted
  | configure c => exact absurd rfl (hC.keepsConfiguration c)
  | elsewhere e =>
    cases ht
    exact ⟨h.toClean, { h with }, hsingle, h.isSlotted⟩

/-- **Backoff conservation.**  In every run of a slotted CSMA-CA whose backoffs never end together
with the CAP, CSMA-CA waits for every drawn backoff exactly, however many CAPs that takes. -/
theorem conserved_of_run {s t : Mac} {is : List CsmaInput} {b : Ledger}
    (hmode : s.csma.isSlotted = true)
    (h : (machine.recording Ledger.record).Run Regular ({}, fresh s) is (b, t)) :
    b.Conserved := by
  have hstart : Ledger.Holds {} (fresh s) := by
    refine ⟨⟨fun k hk => ?_, fun k hk => ?_, rfl, rfl⟩, .of_others (fun e he => ?_) rfl,
      Or.inl rfl, hmode⟩
    · cases hk
    · cases hk
    · cases he
  have hholds : b.Holds t :=
    h.recorded Ledger.Holds (fun b u i hu henabled hC => hu.step henabled hC) hstart
  exact hholds.conserved

/-- The test for steps of one attempt that nothing disturbs. -/
def isUndisturbed (s : Mac) (i : CsmaInput) : Bool :=
  match i.call with
  | .start => s.sim.pending.isEmpty
  | .cancel => false
  | .configure _ => false
  | _ => true

theorem undisturbed_of_test (h : isUndisturbed s i = true) :
    OneAttempt s i ∧ KeepsConfiguration s i ∧ i.call ≠ .cancel := by
  obtain ⟨call, answers⟩ := i
  refine ⟨fun hstart => ?_, fun c hc => ?_, fun hcancel => ?_⟩
  · obtain rfl : call = .start := hstart
    exact isEmpty_iff.mp h
  · obtain rfl : call = .configure c := hc
    cases h
  · obtain rfl : call = .cancel := hcancel
    cases h

/-- The test for backoffs that end apart from the CAP. -/
def endsApart (s : Mac) (i : CsmaInput) : Bool :=
  match i.call with
  | .fire n =>
    match s.sim.take n with
    | some (e, sim) =>
      if e.event = .randomBackoffDelay then
        decide (Apart (drawBackoff { s with phy := i.answers, sim }))
      else true
    | none => true
  | _ => true

theorem endsApart_of_test (h : endsApart s i = true) :
    EndsApart s i := by
  intro n e sim hcall htake hevent
  unfold endsApart at h
  rw [hcall] at h
  dsimp only at h
  rw [htake] at h
  dsimp only at h
  rw [if_pos hevent] at h
  exact of_decide_eq_true h

/-- A superframe with a CAP of `n` backoff periods that begins at `time`. -/
def superframe (time : ℤ) (n : ℕ) : Mac where
  sim := ⟨time, []⟩
  tx := { txPkt := some { hdr := {}, body := .data [], size := 31, uid := 0 } }
  role := { coord := true }
  out := { superframeDuration := 16 * (aUnitBackoffPeriod * n), macBeaconTxTime := time }
  csma := { isSlotted := true }

/-- Of 3 periods, 1 is waited for in the first CAP and 2 in the next. -/
theorem conserved_of_run_three :
    ∃ b t, (machine.recording Ledger.record).Run Regular ({}, fresh (superframe 0 2))
        [⟨.start, {}⟩, ⟨.fire 0, { random := 3 }⟩, ⟨.fire 0, {}⟩,
          ⟨.elsewhere (superframe 1000000 30), {}⟩, ⟨.start, {}⟩, ⟨.fire 0, {}⟩, ⟨.fire 0, {}⟩] (b, t)
      ∧ b.finished = [⟨3, 3⟩] ∧ b.Conserved := by
  obtain ⟨⟨b, t⟩, hrun, htest⟩ := Machine.exists_run_of_exec
    (m := machine.recording Ledger.record)
    (fun x i => isUndisturbed x.2 i && endsApart x.2 i) (fun x => x.1.finished == [⟨3, 3⟩])
    ({}, fresh (superframe 0 2))
    [⟨.start, {}⟩, ⟨.fire 0, { random := 3 }⟩, ⟨.fire 0, {}⟩,
      ⟨.elsewhere (superframe 1000000 30), {}⟩, ⟨.start, {}⟩, ⟨.fire 0, {}⟩, ⟨.fire 0, {}⟩]
    (by decide +kernel)
  have hregular := hrun.mono fun x i hx => by
    obtain ⟨hundisturbed, happart⟩ := Bool.and_eq_true_iff.mp hx
    obtain ⟨hone, hkeeps, hcancel⟩ := undisturbed_of_test hundisturbed
    exact Regular.mk (x := x) hone hkeeps (fun h => absurd h hcancel) (endsApart_of_test happart)
  exact ⟨b, t, hregular, eq_of_beq htest, conserved_of_run rfl hregular⟩

/-- A backoff of 1 period ends together with the CAP, and another one is drawn in the next. -/
theorem not_conserved : ¬ ∀ (s t : Mac) (is : List CsmaInput) (b : Ledger),
    s.csma.isSlotted = true →
    (machine.recording Ledger.record).Run
      (fun x i => OneAttempt x.2 i ∧ KeepsConfiguration x.2 i ∧ i.call ≠ .cancel)
      ({}, fresh s) is (b, t) → b.Conserved := by
  intro hall
  obtain ⟨⟨b, t⟩, hrun, htest⟩ := Machine.exists_run_of_exec
    (m := machine.recording Ledger.record)
    (fun x i => isUndisturbed x.2 i) (fun x => x.1.redrawn == 1) ({}, fresh (superframe 0 2))
    [⟨.start, {}⟩, ⟨.fire 0, { random := 1 }⟩, ⟨.fire 0, {}⟩,
      ⟨.elsewhere (superframe 1000000 2), {}⟩, ⟨.start, {}⟩, ⟨.fire 0, { random := 4 }⟩]
    (by decide +kernel)
  have hnone := (hall _ t _ b rfl (hrun.mono fun _ _ => undisturbed_of_test)).redrawn
  have hredrawn : b.redrawn = 1 := eq_of_beq htest
  omega

end Ns3Dsme.BackoffPeriods
