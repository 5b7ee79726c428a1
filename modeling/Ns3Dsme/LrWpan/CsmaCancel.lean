/-
# Cancelling CSMA-CA

`LrWpanCsmaCa` by itself: `Start` and `Cancel` are called from outside, its pending events run,
the PHY confirms assessments, and everything else in the device may change meanwhile.  What
`m_lrWpanMacStateCallback` makes the MAC do comes as further calls.

`Cancel` withdraws the events that its members refer to, except the one that waits for the end
of the CAP, and it resets nothing.  So a cancelled attempt is over if no end of the CAP is
pending and no event was overwritten, and the next attempt is a fresh one if no backoff periods
are left over.
-/
import Ns3Dsme.Lib.Machine
import Ns3Dsme.LrWpan.Transmission
import Ns3Dsme.LrWpan.Views

open List Program

namespace Ns3Dsme

namespace Mac

open Mac

/-! ## Functions that report to the MAC -/

/-- `m_lrWpanMacStateCallback`, up to what the MAC makes of it. -/
def report : Option LrWpanMacState × Mac → Mac
  | (some macState, s) => s.emit (.csmaOutcome macState)
  | (none, s) => s

/-- `LrWpanCsmaCa::RequestCCA`, with the confirm if the PHY answers at once. -/
def assess (s : Mac) : Mac := report s.startCca

/-- A pending event of CSMA-CA runs, or the PHY ends an assessment. -/
def runCsma (event : MacEvent) (s : Mac) : Exec Mac :=
  match event with
  | .randomBackoffDelay => s.randomBackoffDelay
  | .canProceed => s.canProceed
  | .requestCCA => .ok s.assess
  | .deferCsmaTimeout => .ok (report (some .macCsmaDeferred, s))
  | .endCca => .ok (report (s.confirmCca s.phy.sensed))
  | _ => .ok s

/-- The setters of `LrWpanCsmaCa`. -/
def configureCsma (c : CsmaCa) (s : Mac) : Mac :=
  { s with csma := { s.csma with
    isSlotted := c.isSlotted
    macMinBE := c.macMinBE
    macMaxBE := c.macMaxBE
    macMaxCSMABackoffs := c.macMaxCSMABackoffs
    macBattLifeExt := c.macBattLifeExt } }

/-- Everything but CSMA-CA changes to what it is in `e`, and time passes. -/
def elsewhere (s e : Mac) : Mac :=
  { e with
    phy := s.phy
    sim := ⟨e.sim.now, s.sim.pending⟩
    csma := s.csma
    trace := s.trace }

end Mac

/-! ## The engine -/

/-- What can happen to `LrWpanCsmaCa`. -/
inductive CsmaCall
  | start
  | cancel
  /-- The pending event with this number runs. -/
  | fire (i : ℕ)
  /-- The PHY gives up an assessment and confirms a busy channel. -/
  | ccaCancelled
  | configure (c : CsmaCa)
  | elsewhere (e : Mac)

/-- A call, with what the PHY answers and the random number drawn. -/
structure CsmaInput where
  call : CsmaCall
  answers : PhyAnswers := {}

namespace CsmaCancel

open Mac

/-- Carry out a call. -/
def act (call : CsmaCall) (s : Mac) : Exec Mac :=
  match call with
  | .start => s.csmaStart
  | .cancel => .ok s.csmaCancel
  | .fire i =>
    match s.sim.take i with
    | some (e, sim) => { s with sim }.runCsma e.event
    | none => .ok s
  | .ccaCancelled => .ok (report ((s.cancel .ccaRequest).confirmCca .phyBusy))
  | .configure c => .ok (s.configureCsma c)
  | .elsewhere e => .ok (s.elsewhere e)

/-- The earliest events run first, and time passes up to the next of them. -/
def enabled (s : Mac) (i : CsmaInput) : Bool :=
  match i.call with
  | .fire n =>
    match s.sim.pending[n]? with
    | some e => s.sim.pending.all fun e' => e.time ≤ e'.time
    | none => false
  | .ccaCancelled => s.isRunning .ccaRequest
  | .elsewhere e => decide (s.sim.now ≤ e.sim.now) && s.sim.pending.all fun e' => e.sim.now ≤ e'.time
  | _ => true

/-- CSMA-CA as a machine. -/
def machine : Machine Mac CsmaInput Fault where
  enabled s i := enabled s i = true
  step s i := act i.call { s with phy := i.answers }

instance (s : Mac) (i : CsmaInput) : Decidable (machine.enabled s i) :=
  inferInstanceAs (Decidable (enabled s i = true))

/-! ## What a cancel is for -/

/-- The step hands a confirm of the PHY to CSMA-CA, and CSMA-CA is waiting for one. -/
def actsOnCca (s : Mac) (i : CsmaInput) : Bool :=
  match i.call with
  | .ccaCancelled => s.csma.ccaRequestRunning
  | .fire n =>
    match s.sim.pending[n]? with
    | some e =>
      match e.event with
      | .endCca => s.csma.ccaRequestRunning
      | .requestCCA => i.answers.cca.isSome
      | _ => false
    | none => false
  | _ => false

/-- The number of calls of `m_lrWpanMacStateCallback`. -/
def callbacks (s : Mac) : ℕ := s.trace.countP Output.isOutcome

/-- The device with a new `LrWpanCsmaCa` of the same configuration. -/
def fresh (s : Mac) : Mac :=
  { s with
    csma := { s.csma with
      nb := 0, cw := 2, be := 3, incCsma := false, ccaRequestRunning := false
      randomBackoffPeriodsLeft := 0 }
    sim := ⟨s.sim.now, []⟩ }

/-- A step that does not call the setters. -/
def KeepsConfiguration (_ : Mac) (i : CsmaInput) : Prop := ∀ c, i.call ≠ .configure c

/-- A `Start` and whatever comes after it runs as with a new `LrWpanCsmaCa`: the same runs are
possible, with the same callbacks and the same pending events. -/
structure StartsFresh (s : Mac) : Prop where
  fresh_of : ∀ (answers : PhyAnswers) (is : List CsmaInput) (t : Mac),
    machine.Run KeepsConfiguration s (⟨.start, answers⟩ :: is) t →
      ∃ t', machine.Run KeepsConfiguration (fresh s) (⟨.start, answers⟩ :: is) t'
        ∧ t'.trace = t.trace ∧ t'.sim = t.sim
  of_fresh : ∀ (answers : PhyAnswers) (is : List CsmaInput) (t' : Mac),
    machine.Run KeepsConfiguration (fresh s) (⟨.start, answers⟩ :: is) t' →
      ∃ t, machine.Run KeepsConfiguration s (⟨.start, answers⟩ :: is) t
        ∧ t.trace = t'.trace ∧ t.sim = t'.sim

/-- What is watched in a run. -/
structure Watch where
  /-- `Cancel` was called, and `Start` not since. -/
  cancelled : Bool := false
  /-- Callbacks and confirms acted upon while that was so. -/
  leaks : ℕ := 0
  /-- The states in which `Start` was called while that was so. -/
  restarts : List Mac := []

/-- What a step adds. -/
def Watch.record (b : Watch) (s : Mac) (i : CsmaInput) (t : Mac) : Watch :=
  match i.call with
  | .start =>
    { b with
      cancelled := false
      restarts := if b.cancelled then b.restarts ++ [s] else b.restarts }
  | .cancel => { b with cancelled := true }
  | _ =>
    if b.cancelled && (actsOnCca s i || decide (callbacks t ≠ callbacks s)) then
      { b with leaks := b.leaks + 1 }
    else b

/-- **Cancelling is final.**  A cancelled attempt reports nothing and acts on no assessment, and
the next attempt is a fresh one. -/
structure Watch.Final (b : Watch) : Prop where
  leaks : b.leaks = 0
  restarts : ∀ s ∈ b.restarts, StartsFresh s

/-- Every pending event is one that `Cancel` withdraws. -/
def Withdrawable (s : Mac) : Prop :=
  ∀ e ∈ s.sim.pending, e.holder = some .randomBackoffEvent ∨ e.holder = some .requestCcaEvent
    ∨ e.holder = some .canProceedEvent ∨ e.holder = some .ccaRequest

/-- `Cancel` is called where it withdraws every pending event, and a slotted `Start` after it
where no backoff periods are left over. -/
def Clean (c : Watch × Mac) (i : CsmaInput) : Prop :=
  match i.call with
  | .cancel => Withdrawable c.2
  | .start => c.1.cancelled = true → c.2.csma.isSlotted = true →
    c.2.csma.randomBackoffPeriodsLeft = 0
  | _ => True

/-! ## What is left over -/

/-- The members that `Start` does not always set. -/
structure Leftover where
  cw : ℕ
  incCsma : Bool
  ccaRequestRunning : Bool
  randomBackoffPeriodsLeft : ℕ

/-- The device with other leftovers. -/
@[simp] abbrev withLeftover (l : Leftover) (s : Mac) : Mac :=
  { s with csma := { s.csma with
    cw := l.cw
    incCsma := l.incCsma
    ccaRequestRunning := l.ccaRequestRunning
    randomBackoffPeriodsLeft := l.randomBackoffPeriodsLeft } }

/-- The leftovers make no difference: a slotted attempt has set what it uses, an unslotted one
does not use it, and the flag is the same whenever the PHY is about to confirm. -/
structure Harmless (s : Mac) (l : Leftover) : Prop where
  slotted : s.csma.isSlotted = true → l.cw = s.csma.cw ∧ l.incCsma = s.csma.incCsma
    ∧ l.randomBackoffPeriodsLeft = s.csma.randomBackoffPeriodsLeft
  unslotted : s.csma.isSlotted = false → ∀ e ∈ s.sim.pending, e.event ≠ .canProceed
  flag : ∀ e ∈ s.sim.pending, e.event = .endCca →
    l.ccaRequestRunning = s.csma.ccaRequestRunning

/-- The handler `f` takes the device and the one with harmless leftovers the same way. -/
def Matches (f : Mac → Exec Mac) (s : Mac) (l : Leftover) : Prop :=
  ∀ t, f s = .ok t → ∃ l', f (withLeftover l s) = .ok (withLeftover l' t) ∧ Harmless t l'

variable {s : Mac} {l : Leftover} {event : MacEvent} {m : Member} {delay : ℤ}
  {hold : m.mayHold event = true} {i : CsmaInput} {e : Scheduled} {sim : Sim}

theorem mem_post {h : m.mayHold event = true} (he : e ∈ (sim.post m event delay h).pending) :
    (∃ e' ∈ sim.pending, e.event = e'.event) ∨ e.event = event := by
  rcases mem_append.mp he with he | he
  · obtain ⟨e', he', rfl⟩ := mem_map.mp he
    refine .inl ⟨e', he', ?_⟩
    split
    · exact e'.event_release
    · rfl
  · rw [mem_singleton.mp he]
    exact .inr rfl

/-- Scheduling an event keeps leftovers harmless, if the event does. -/
theorem Harmless.post (h : Harmless s l) (m : Member) (event : MacEvent) (delay : ℤ)
    (hold : m.mayHold event = true) (hproceed : s.csma.isSlotted = false → event ≠ .canProceed)
    (hcca : event = .endCca → l.ccaRequestRunning = s.csma.ccaRequestRunning) :
    Harmless { s with sim := s.sim.post m event delay hold } l where
  slotted := h.slotted
  unslotted hmode e he := by
    rcases mem_post (h := hold) he with ⟨e', he', hevent⟩ | hevent
    · rw [hevent]
      exact h.unslotted hmode e' he'
    · rw [hevent]
      exact hproceed hmode
  flag e he hend := by
    rcases mem_post (h := hold) he with ⟨e', he', hevent⟩ | hevent
    · exact h.flag e' he' (hevent ▸ hend)
    · exact hcca (hevent ▸ hend)

/-- Fewer pending events keep leftovers harmless. -/
theorem Harmless.of_subset (h : Harmless s l) (hsub : sim.pending ⊆ s.sim.pending) :
    Harmless { s with sim } l where
  slotted := h.slotted
  unslotted hmode e he := h.unslotted hmode e (hsub he)
  flag e he := h.flag e (hsub he)

/-- In a slotted attempt only the flag may be left over. -/
theorem Harmless.eq_of_slotted (h : Harmless s l) (hmode : s.csma.isSlotted = true) :
    withLeftover l s
      = { s with csma := { s.csma with ccaRequestRunning := l.ccaRequestRunning } } := by
  obtain ⟨hcw, hinc, hleft⟩ := h.slotted hmode
  unfold withLeftover
  rw [hcw, hinc, hleft]

/-! ## Parts of the handlers -/

/-- The first half of `RandomBackoffDelay`: draw a backoff unless one is left over. -/
def drawBackoff (s : Mac) : Mac :=
  if s.csma.randomBackoffPeriodsLeft = 0 ∨ s.csma.isSlotted = false then
    { s with csma := { s.csma with randomBackoffPeriodsLeft := s.phy.random % 7 } }
  else s

/-- Wait for the end of the CAP, and keep the backoff periods that do not fit into it. -/
def deferBackoff (s : Mac) : Exec Mac :=
  schedule { s with csma := { s.csma with
    randomBackoffPeriodsLeft := s.csma.randomBackoffPeriodsLeft
      - usedBackoffs s.getTimeLeftInCap } }
    .endCapEvent .deferCsmaTimeout s.getTimeLeftInCap

/-- The second half: schedule what comes after the backoff. -/
def scheduleBackoff (s : Mac) : Exec Mac :=
  if s.csma.isSlotted = false then
    s.schedule .requestCcaEvent .requestCCA
      (symbols (s.csma.randomBackoffPeriodsLeft * aUnitBackoffPeriod))
  else if symbols (s.csma.randomBackoffPeriodsLeft * aUnitBackoffPeriod) ≥ s.getTimeLeftInCap then
    deferBackoff s
  else
    s.schedule .canProceedEvent .canProceed
      (symbols (s.csma.randomBackoffPeriodsLeft * aUnitBackoffPeriod))

theorem randomBackoffDelay_eq (s : Mac) :
    s.randomBackoffDelay = scheduleBackoff (drawBackoff s) := rfl

/-- `CanProceed` for a packet. -/
def proceedWith (p : Packet) (s : Mac) : Exec Mac :=
  let t := emit { s with csma := { s.csma with randomBackoffPeriodsLeft := 0 } }
    (.macTransCost (transactionSymbols s.csma.cw p))
  if symbols (transactionSymbols s.csma.cw p) > s.getTimeLeftInCap then
    t.schedule .endCapEvent .deferCsmaTimeout s.getTimeLeftInCap
  else .ok (t.scheduleNow .requestCcaEvent .requestCCA)

theorem canProceed_eq (s : Mac) : s.canProceed = match s.tx.txPkt with
    | some p => proceedWith p s
    | none => .error .assertFailed := by
  unfold canProceed
  dsimp only
  cases s.tx.txPkt with
  | none => rfl
  | some p => rfl

theorem schedule_ok {s t : Mac} (h : s.schedule m event delay hold = .ok t) :
    0 ≤ delay ∧ t = { s with sim := s.sim.post m event delay hold } := by
  unfold schedule at h
  split at h
  · cases h
  · exact ⟨by omega, (Except.ok.inj h).symm⟩

theorem schedule_eq (h : 0 ≤ delay) :
    s.schedule m event delay hold = .ok { s with sim := s.sim.post m event delay hold } := by
  unfold schedule
  rw [if_neg (by omega)]

/-- Scheduling does not look at the members of `LrWpanCsmaCa`. -/
theorem schedule_csma (f : CsmaCa → CsmaCa) (s : Mac) (m : Member) (event : MacEvent) (delay : ℤ)
    (h : m.mayHold event = true) : schedule { s with csma := f s.csma } m event delay h
      = (s.schedule m event delay h).map fun t => { t with csma := f t.csma } := by
  unfold schedule
  split
  · rfl
  · rfl

/-- `Start` in a slotted CSMA-CA, up to the scheduling. -/
def prepareSlotted (s : Mac) : Mac :=
  { s with csma := { s.csma with
    nb := 0
    cw := 1
    be := if s.csma.macBattLifeExt then min 2 s.csma.macMinBE else s.csma.macMinBE
    incCsma := s.inc.incSuperframe } }

theorem csmaStart_slotted (hmode : s.csma.isSlotted = true) :
    s.csmaStart = (prepareSlotted s).schedule .randomBackoffEvent .randomBackoffDelay
      (s.getTimeToNextSlot s.inc.incSuperframe) := by
  unfold csmaStart
  rw [if_pos hmode]
  rfl

/-! ## The flag alone -/

/-- The device with another flag. -/
@[simp] abbrev withFlag (f : Bool) (s : Mac) : Mac :=
  { s with csma := { s.csma with ccaRequestRunning := f } }

theorem randomBackoffDelay_withFlag (f : Bool) (s : Mac) :
    (withFlag f s).randomBackoffDelay = s.randomBackoffDelay.map (withFlag f) := by
  have hdraw : drawBackoff (withFlag f s) = withFlag f (drawBackoff s) := by
    unfold drawBackoff
    split
    · rfl
    · rfl
  have hschedule (t : Mac) :
      scheduleBackoff (withFlag f t) = (scheduleBackoff t).map (withFlag f) := by
    unfold scheduleBackoff
    by_cases hmode : t.csma.isSlotted = false
    · rw [if_pos (by exact hmode), if_pos hmode]
      exact schedule_csma (fun c => { c with ccaRequestRunning := f }) t _ _ _ _
    · rw [if_neg (by exact hmode), if_neg hmode]
      by_cases hdefer : symbols (t.csma.randomBackoffPeriodsLeft * aUnitBackoffPeriod)
          ≥ t.getTimeLeftInCap
      · rw [if_pos (by exact hdefer), if_pos hdefer]
        exact schedule_csma (fun c => { c with ccaRequestRunning := f })
          { t with csma := { t.csma with
            randomBackoffPeriodsLeft := t.csma.randomBackoffPeriodsLeft
              - usedBackoffs t.getTimeLeftInCap } } _ _ _ _
      · rw [if_neg (by exact hdefer), if_neg hdefer]
        exact schedule_csma (fun c => { c with ccaRequestRunning := f }) t _ _ _ _
  rw [randomBackoffDelay_eq, hdraw, hschedule, ← randomBackoffDelay_eq]

theorem canProceed_withFlag (f : Bool) (s : Mac) :
    (withFlag f s).canProceed = s.canProceed.map (withFlag f) := by
  rw [canProceed_eq, canProceed_eq]
  show (match s.tx.txPkt with
    | some p => proceedWith p (withFlag f s)
    | none => _) = _
  cases s.tx.txPkt with
  | none => rfl
  | some p =>
    show proceedWith p _ = (proceedWith p s).map _
    unfold proceedWith
    by_cases hfits : symbols (transactionSymbols s.csma.cw p) > s.getTimeLeftInCap
    · rw [if_pos (by exact hfits), if_pos hfits]
      exact schedule_csma (fun c => { c with ccaRequestRunning := f }) (emit
        { s with csma := { s.csma with randomBackoffPeriodsLeft := 0 } }
        (.macTransCost (transactionSymbols s.csma.cw p))) _ _ _ _
    · rw [if_neg (by exact hfits), if_neg hfits]
      rfl

/-- The step stays in its mode, does not touch the flag, and schedules no end of an
assessment. -/
structure Goes (s t : Mac) : Prop where
  isSlotted : t.csma.isSlotted = s.csma.isSlotted
  flag : t.csma.ccaRequestRunning = s.csma.ccaRequestRunning
  events : ∀ e ∈ t.sim.pending, e.event = .endCca → ∃ e' ∈ s.sim.pending, e'.event = .endCca

theorem goes_post (s : Mac) (m : Member) (event : MacEvent) (delay : ℤ)
    (hold : m.mayHold event = true) (hevent : event ≠ .endCca) :
    Goes s { s with sim := s.sim.post m event delay hold } := by
  refine ⟨rfl, rfl, fun e he hend => ?_⟩
  rcases mem_post (h := hold) he with ⟨e', he', hsame⟩ | hsame
  · exact ⟨e', he', hsame ▸ hend⟩
  · exact absurd (hsame ▸ hend) hevent

theorem goes_schedule {s t : Mac} (h : s.schedule m event delay hold = .ok t)
    (hevent : event ≠ .endCca) : Goes s t := by
  obtain ⟨-, rfl⟩ := schedule_ok h
  exact goes_post s m event delay hold hevent

theorem goes_randomBackoffDelay {s t : Mac} (h : s.randomBackoffDelay = .ok t) : Goes s t := by
  have hdraw : ∃ n, drawBackoff s
      = { s with csma := { s.csma with randomBackoffPeriodsLeft := n } } := by
    unfold drawBackoff
    split
    · exact ⟨_, rfl⟩
    · exact ⟨_, rfl⟩
  obtain ⟨n, hdraw⟩ := hdraw
  rw [randomBackoffDelay_eq, hdraw] at h
  unfold scheduleBackoff at h
  have hgoes (m : ℕ) (u : Mac)
      (hu : Goes { s with csma := { s.csma with randomBackoffPeriodsLeft := m } } u) : Goes s u :=
    { hu with }
  split at h
  · exact hgoes _ _ (goes_schedule h (by decide))
  · split at h
    · exact hgoes _ _ (goes_schedule h (by decide))
    · exact hgoes _ _ (goes_schedule h (by decide))

theorem goes_canProceed {s t : Mac} (h : s.canProceed = .ok t) : Goes s t := by
  rw [canProceed_eq] at h
  cases hpkt : s.tx.txPkt with
  | none =>
    rw [hpkt] at h
    cases h
  | some p =>
    rw [hpkt] at h
    dsimp only at h
    unfold proceedWith at h
    split at h
    · have hgoes := goes_schedule h (by decide)
      exact { hgoes with }
    · obtain rfl := Except.ok.inj h
      have hgoes := goes_post (emit
        { s with csma := { s.csma with randomBackoffPeriodsLeft := 0 } }
        (.macTransCost (transactionSymbols s.csma.cw p))) .requestCcaEvent .requestCCA 0 rfl
        (by decide)
      exact { hgoes with }

/-! ## Leftovers make no difference -/

/-- In a slotted attempt, a handler that does not look at the flag. -/
theorem Harmless.matches_of_slotted (h : Harmless s l) (hmode : s.csma.isSlotted = true)
    {f : Mac → Exec Mac}
    (hf : f (withFlag l.ccaRequestRunning s) = (f s).map (withFlag l.ccaRequestRunning))
    (hgoes : ∀ t, f s = .ok t → Goes s t) : Matches f s l := by
  intro t ht
  have hnext := hgoes t ht
  refine ⟨⟨t.csma.cw, t.csma.incCsma, l.ccaRequestRunning, t.csma.randomBackoffPeriodsLeft⟩,
    ?_, fun _ => ⟨rfl, rfl, rfl⟩, fun hother => ?_, fun e he hend => ?_⟩
  · rw [h.eq_of_slotted hmode]
    refine hf.trans ?_
    rw [ht]
    rfl
  · rw [hnext.isSlotted, hmode] at hother
    cases hother
  · obtain ⟨e', he', hend'⟩ := hnext.events e he hend
    rw [hnext.flag]
    exact h.flag e' he' hend'

theorem matches_csmaStart (h : Harmless s l) :
    Matches csmaStart s l := by
  intro t ht
  by_cases hmode : s.csma.isSlotted = true
  · rw [csmaStart_slotted hmode] at ht
    rw [csmaStart_slotted (by exact hmode)]
    obtain ⟨hdelay, rfl⟩ := schedule_ok ht
    refine ⟨⟨1, s.inc.incSuperframe, l.ccaRequestRunning, l.randomBackoffPeriodsLeft⟩,
      schedule_eq hdelay, ?_⟩
    have hset : Harmless (prepareSlotted s)
        ⟨1, s.inc.incSuperframe, l.ccaRequestRunning, l.randomBackoffPeriodsLeft⟩ :=
      ⟨fun _ => ⟨rfl, rfl, (h.slotted hmode).2.2⟩, h.unslotted, h.flag⟩
    exact hset.post .randomBackoffEvent .randomBackoffDelay _ rfl (fun _ => by decide)
      nofun
  · unfold csmaStart at ht ⊢
    rw [if_neg hmode] at ht
    rw [if_neg (by exact hmode)]
    cases ht
    refine ⟨l, rfl, ?_⟩
    have hset : Harmless { s with csma := { s.csma with nb := 0, be := s.csma.macMinBE } } l :=
      { h with }
    exact hset.post .randomBackoffEvent .randomBackoffDelay 0 rfl (fun _ => by decide)
      nofun

theorem matches_randomBackoffDelay (h : Harmless s l) :
    Matches randomBackoffDelay s l := by
  cases hmode : s.csma.isSlotted with
  | true =>
    exact h.matches_of_slotted hmode (randomBackoffDelay_withFlag _ s)
      fun t ht => goes_randomBackoffDelay ht
  | false =>
    -- a backoff is drawn in any case
    have hdraw (t : Mac) (ht : t.csma.isSlotted = false) : t.randomBackoffDelay =
        schedule { t with csma := { t.csma with randomBackoffPeriodsLeft := t.phy.random % 7 } }
          .requestCcaEvent .requestCCA (symbols (t.phy.random % 7 * aUnitBackoffPeriod)) := by
      rw [randomBackoffDelay_eq]
      unfold drawBackoff
      rw [if_pos (.inr ht)]
      unfold scheduleBackoff
      rw [if_pos (by exact ht)]
    intro t ht
    rw [hdraw s hmode] at ht
    obtain ⟨hdelay, rfl⟩ := schedule_ok ht
    refine ⟨{ l with randomBackoffPeriodsLeft := s.phy.random % 7 },
      (hdraw (withLeftover l s) hmode).trans (schedule_eq hdelay), ?_⟩
    have hset : Harmless { s with csma := { s.csma with
        randomBackoffPeriodsLeft := s.phy.random % 7 } }
        { l with randomBackoffPeriodsLeft := s.phy.random % 7 } := by
      refine ⟨fun hother => ?_, h.unslotted, h.flag⟩
      rw [show s.csma.isSlotted = true from hother] at hmode
      cases hmode
    exact hset.post .requestCcaEvent .requestCCA _ rfl (fun _ => by decide) nofun

theorem matches_canProceed (h : Harmless s l) (hmode : s.csma.isSlotted = true) :
    Matches canProceed s l :=
  h.matches_of_slotted hmode (canProceed_withFlag _ s) fun _ ht => goes_canProceed ht

/-- The leftovers that a device has itself. -/
def ownLeftover (s : Mac) : Leftover :=
  ⟨s.csma.cw, s.csma.incCsma, s.csma.ccaRequestRunning, s.csma.randomBackoffPeriodsLeft⟩

theorem isSlotted_report (r : Option LrWpanMacState × Mac) :
    (report r).csma.isSlotted = r.2.csma.isSlotted ∧ (report r).sim = r.2.sim := by
  obtain ⟨macState, t⟩ := r
  cases macState <;> exact ⟨rfl, rfl⟩

theorem isSlotted_confirmCca (s : Mac) (status : LrWpanPhyEnumeration) :
    (s.confirmCca status).2.csma.isSlotted = s.csma.isSlotted := by
  unfold confirmCca
  dsimp only
  split
  · split
    · split
      · split
        · rfl
        · rfl
      · rfl
    · split
      · rfl
      · rfl
  · rfl

/-- A confirm in an unslotted attempt. -/
def confirmUnslotted (status : LrWpanPhyEnumeration) (s : Mac) : Option LrWpanMacState × Mac :=
  if status = .phyIdle then (some .channelIdle, withFlag false s)
  else
    let s := { s with csma := { s.csma with
      be := min (s.csma.be + 1) s.csma.macMaxBE
      nb := (s.csma.nb + 1) % 256
      ccaRequestRunning := false } }
    if s.csma.nb > s.csma.macMaxCSMABackoffs then (some .channelAccessFailure, s)
    else (none, s.scheduleNow .randomBackoffEvent .randomBackoffDelay)

theorem confirmCca_unslotted (hflag : s.csma.ccaRequestRunning = true)
    (hmode : s.csma.isSlotted = false) (status : LrWpanPhyEnumeration) :
    s.confirmCca status = confirmUnslotted status s := by
  unfold confirmCca confirmUnslotted
  rw [if_pos hflag]
  dsimp only
  split
  · rw [if_neg (by simp [hmode])]
  · rw [if_neg (c := s.csma.isSlotted = true) (by simp [hmode])]

/-- A confirm, if the flags agree. -/
theorem exists_confirmCca (h : Harmless s l)
    (hflag : l.ccaRequestRunning = s.csma.ccaRequestRunning) (status : LrWpanPhyEnumeration) :
    ∃ l', report ((withLeftover l s).confirmCca status)
        = withLeftover l' (report (s.confirmCca status))
      ∧ Harmless (report (s.confirmCca status)) l' := by
  cases hrunning : s.csma.ccaRequestRunning with
  | false =>
    have hignored (t : Mac) (ht : t.csma.ccaRequestRunning = false) :
        t.confirmCca status = (none, t) := by
      unfold confirmCca
      rw [if_neg (by simp [ht])]
    rw [hignored s hrunning, hignored (withLeftover l s) (hflag.trans hrunning)]
    exact ⟨l, rfl, h⟩
  | true =>
    cases hmode : s.csma.isSlotted with
    | true =>
      -- nothing at all is left over
      have hsame : withLeftover l s = s := by
        rw [h.eq_of_slotted hmode, hflag]
      rw [hsame]
      have hslotted : (report (s.confirmCca status)).csma.isSlotted = true := by
        rw [(isSlotted_report _).1, isSlotted_confirmCca, hmode]
      refine ⟨ownLeftover (report (s.confirmCca status)), rfl, fun _ => ⟨rfl, rfl, rfl⟩,
        fun hother => ?_, fun _ _ _ => rfl⟩
      rw [hslotted] at hother
      cases hother
    | false =>
      rw [confirmCca_unslotted hrunning hmode,
        confirmCca_unslotted (hflag.trans hrunning) (by exact hmode)]
      have hset (t : Mac) (ht : t.csma.isSlotted = false) (hsim : t.sim = s.sim)
          (hoff : t.csma.ccaRequestRunning = false) :
          Harmless t { l with ccaRequestRunning := false } := by
        refine ⟨fun hother => ?_, fun _ => hsim ▸ h.unslotted hmode, fun _ _ _ => hoff.symm⟩
        rw [ht] at hother
        cases hother
      refine ⟨{ l with ccaRequestRunning := false }, ?_⟩
      unfold confirmUnslotted
      split
      · exact ⟨rfl, hset _ hmode rfl rfl⟩
      · dsimp only
        split
        · exact ⟨rfl, hset _ hmode rfl rfl⟩
        · have hbusy := hset { s with csma := { s.csma with
            be := min (s.csma.be + 1) s.csma.macMaxBE
            nb := (s.csma.nb + 1) % 256
            ccaRequestRunning := false } } hmode rfl rfl
          exact ⟨rfl, hbusy.post .randomBackoffEvent .randomBackoffDelay 0 rfl
            (fun _ => by decide) nofun⟩

/-- A request, with the confirm if it comes at once. -/
theorem exists_assess (h : Harmless s l) :
    ∃ l', (withLeftover l s).assess = withLeftover l' s.assess ∧ Harmless s.assess l' := by
  have hset : Harmless (withFlag true s) { l with ccaRequestRunning := true } :=
    ⟨h.slotted, h.unslotted, fun _ _ _ => rfl⟩
  unfold assess startCca
  dsimp only
  cases s.phy.cca with
  | some status => exact exists_confirmCca hset rfl status
  | none =>
    exact ⟨{ l with ccaRequestRunning := true }, rfl, hset.post .ccaRequest .endCca _ rfl
      (fun _ => by decide) fun _ => rfl⟩

theorem subset_of_take {sim sim' : Sim} {i : ℕ} (h : sim.take i = some (e, sim')) :
    sim'.pending ⊆ sim.pending := by
  obtain ⟨before, behind, hbefore, hafter⟩ := Sim.pending_take h
  rw [hbefore, hafter]
  exact (List.Sublist.append_left (sublist_cons_self _ _) _).subset

theorem length_of_take {sim sim' : Sim} {i : ℕ} (h : sim.take i = some (e, sim')) :
    sim'.pending.length + 1 = sim.pending.length := by
  obtain ⟨before, behind, hbefore, hafter⟩ := Sim.pending_take h
  rw [hbefore, hafter, length_append, length_append, length_cons]
  rfl

/-- A pending event runs the same way. -/
theorem matches_fire (h : Harmless s l) (i : ℕ) :
    Matches (act (.fire i)) s l := by
  intro t ht
  unfold act at ht ⊢
  dsimp only at ht ⊢
  cases htake : s.sim.take i with
  | none =>
    rw [htake] at ht
    cases ht
    exact ⟨l, rfl, h⟩
  | some r =>
    obtain ⟨e, sim⟩ := r
    rw [htake] at ht
    have hmem : e ∈ s.sim.pending := mem_of_getElem? (Sim.getElem?_of_take htake)
    have hrest : Harmless { s with sim } l := h.of_subset (subset_of_take htake)
    unfold runCsma at ht ⊢
    dsimp only at ht ⊢
    cases hevent : e.event with
    | randomBackoffDelay =>
      rw [hevent] at ht
      exact matches_randomBackoffDelay hrest t ht
    | canProceed =>
      rw [hevent] at ht
      have hmode : s.csma.isSlotted = true := by
        by_contra hother
        exact h.unslotted (by simpa using hother) e hmem hevent
      exact matches_canProceed hrest hmode t ht
    | requestCCA =>
      rw [hevent] at ht
      cases ht
      obtain ⟨l', hassess, hharmless⟩ := exists_assess hrest
      exact ⟨l', congrArg Except.ok hassess, hharmless⟩
    | deferCsmaTimeout =>
      rw [hevent] at ht
      cases ht
      exact ⟨l, rfl, hrest.slotted, hrest.unslotted, hrest.flag⟩
    | endCca =>
      rw [hevent] at ht
      cases ht
      obtain ⟨l', hconfirm, hharmless⟩ := exists_confirmCca hrest (h.flag e hmem hevent) s.phy.sensed
      exact ⟨l', congrArg Except.ok hconfirm, hharmless⟩
    | _ =>
      rw [hevent] at ht
      cases ht
      exact ⟨l, rfl, hrest⟩

/-- Every call but a setter goes the same way. -/
theorem matches_act (h : Harmless s l) (call : CsmaCall) (hcall : ∀ c, call ≠ .configure c)
    (hrunning : call = .ccaCancelled →
      s.isRunning .ccaRequest = true) : Matches (act call) s l := by
  cases call with
  | start => exact matches_csmaStart h
  | cancel =>
    intro t ht
    cases ht
    refine ⟨l, rfl, h.of_subset ?_⟩
    exact fun e he => mem_of_mem_filter (mem_of_mem_filter (mem_of_mem_filter
      (mem_of_mem_filter he)))
  | fire i => exact matches_fire h i
  | ccaCancelled =>
    intro t ht
    cases ht
    -- the assessment is still pending
    have hflag : l.ccaRequestRunning = s.csma.ccaRequestRunning := by
      obtain ⟨e, he, hholder⟩ := any_eq_true.mp (hrunning rfl)
      have hhold := e.holder_ok _ (by simpa using hholder)
      refine h.flag e he ?_
      cases hevent : e.event with
      | endCca => rfl
      | _ =>
        rw [hevent] at hhold
        cases hhold
    have hrest : Harmless (s.cancel .ccaRequest) l :=
      h.of_subset fun e he => mem_of_mem_filter he
    obtain ⟨l', hconfirm, hharmless⟩ := exists_confirmCca hrest hflag .phyBusy
    exact ⟨l', congrArg Except.ok hconfirm, hharmless⟩
  | configure c => exact absurd rfl (hcall c)
  | elsewhere e =>
    intro t ht
    cases ht
    refine ⟨l, ?_, ?_⟩
    · rfl
    · exact { h with }

/-- The devices differ in harmless leftovers only. -/
def Alike (s t : Mac) : Prop := ∃ l, t = withLeftover l s ∧ Harmless s l

theorem Alike.symm {s t : Mac} (h : Alike s t) : Alike t s := by
  obtain ⟨l, rfl, h⟩ := h
  refine ⟨ownLeftover s, rfl, fun hmode => ?_, h.unslotted, fun e he hend => ?_⟩
  · obtain ⟨hcw, hinc, hleft⟩ := h.slotted hmode
    exact ⟨hcw.symm, hinc.symm, hleft.symm⟩
  · exact (h.flag e he hend).symm

/-- Devices that are alike take the same steps. -/
theorem Alike.step {s t : Mac} (h : Alike s t) {s' : Mac} (henabled : machine.enabled s i)
    (hkeeps : KeepsConfiguration s i) (hs : machine.step s i = .ok s') :
    machine.enabled t i ∧ KeepsConfiguration t i
      ∧ ∃ t', machine.step t i = .ok t' ∧ Alike s' t' := by
  obtain ⟨l, rfl, h⟩ := h
  obtain ⟨call, answers⟩ := i
  have hanswers : Harmless { s with phy := answers } l := { h with }
  obtain ⟨l', hnext, hharmless⟩ := matches_act hanswers call hkeeps
    (fun hcancelled => by
      subst hcancelled
      exact henabled) s' hs
  refine ⟨?_, hkeeps, withLeftover l' s', hnext, l', rfl, hharmless⟩
  cases call with
  | _ => exact henabled

/-- A run of a device is one of any that is alike. -/
theorem Alike.run {s t u : Mac} {is : List CsmaInput} (h : Alike s t)
    (hrun : machine.Run KeepsConfiguration s is u) :
    ∃ v, machine.Run KeepsConfiguration t is v ∧ v.trace = u.trace ∧ v.sim = u.sim := by
  obtain ⟨v, hv, l, rfl, -⟩ := hrun.simulate Alike
    (fun _ _ _ _ h henabled hkeeps hs => h.step henabled hkeeps hs) h
  exact ⟨_, hv, rfl, rfl⟩

/-- Where nothing is pending and no backoff is left over, `Start` does what it does with a new
`LrWpanCsmaCa`, up to harmless leftovers. -/
theorem exists_csmaStart_fresh (hnone : s.sim.pending = [])
    (hleft : s.csma.isSlotted = true → s.csma.randomBackoffPeriodsLeft = 0) :
    ∃ l, (fresh s).csmaStart = s.csmaStart.map (withLeftover l)
      ∧ ∀ t, s.csmaStart = .ok t → Harmless t l := by
  have hbackoff {t : Mac} {delay : ℤ} (ht : t.sim = s.sim.post .randomBackoffEvent
      .randomBackoffDelay delay) (e : Scheduled) (he : e ∈ t.sim.pending) :
      e.event = .randomBackoffDelay := by
    rw [ht] at he
    rcases mem_post he with ⟨e', he', -⟩ | hevent
    · rw [hnone] at he'
      cases he'
    · exact hevent
  have hfresh : fresh s = { s with csma := { s.csma with
      nb := 0, cw := 2, be := 3, incCsma := false, ccaRequestRunning := false
      randomBackoffPeriodsLeft := 0 } } := by
    unfold fresh
    rw [← hnone]
  rw [hfresh]
  by_cases hmode : s.csma.isSlotted = true
  · rw [csmaStart_slotted hmode, csmaStart_slotted (by exact hmode)]
    refine ⟨⟨1, s.inc.incSuperframe, false, 0⟩, ?_, fun t ht => ?_⟩
    · exact schedule_csma (fun c => { c with
        cw := 1, incCsma := s.inc.incSuperframe, ccaRequestRunning := false
        randomBackoffPeriodsLeft := 0 }) (prepareSlotted s) _ _ _ _
    obtain ⟨-, rfl⟩ := schedule_ok ht
    refine ⟨fun _ => ⟨rfl, rfl, (hleft hmode).symm⟩, fun _ e he => ?_, fun e he hend => ?_⟩
    · rw [hbackoff rfl e he]
      decide
    · rw [hbackoff rfl e he] at hend
      cases hend
  · unfold csmaStart
    rw [if_neg (by exact hmode), if_neg hmode]
    refine ⟨⟨2, false, false, 0⟩, rfl, fun t ht => ?_⟩
    cases ht
    refine ⟨fun hother => absurd hother hmode, fun _ e he => ?_, fun e he hend => ?_⟩
    · rw [hbackoff rfl e he]
      decide
    · rw [hbackoff rfl e he] at hend
      cases hend

/-- **The next attempt.**  Where nothing is pending and no backoff is left over, `Start` behaves
as with a new `LrWpanCsmaCa`. -/
theorem startsFresh (hnone : s.sim.pending = [])
    (hleft : s.csma.isSlotted = true → s.csma.randomBackoffPeriodsLeft = 0) : StartsFresh s := by
  have hstart (answers : PhyAnswers) := exists_csmaStart_fresh
    (s := { s with phy := answers }) hnone hleft
  constructor
  · intro answers is t hrun
    obtain ⟨l, hfresh, hharmless⟩ := hstart answers
    cases hrun with
    | cons _ u _ _ _ henabled hkeeps hstep hrest =>
      have hu : csmaStart { s with phy := answers } = .ok u := hstep
      obtain ⟨v, hv, htrace, hsim⟩ := Alike.run ⟨l, rfl, hharmless u hu⟩ hrest
      refine ⟨v, .cons _ (withLeftover l u) _ _ _ henabled hkeeps ?_ hv, htrace, hsim⟩
      exact hfresh.trans (by rw [hu]; rfl)
  · intro answers is t' hrun
    obtain ⟨l, hfresh, hharmless⟩ := hstart answers
    cases hrun with
    | cons _ u' _ _ _ henabled hkeeps hstep hrest =>
      have hu' : (csmaStart { s with phy := answers }).map (withLeftover l) = .ok u' :=
        hfresh.symm.trans hstep
      cases hu : csmaStart { s with phy := answers } with
      | error fault =>
        rw [hu] at hu'
        cases hu'
      | ok u =>
        rw [hu] at hu'
        cases hu'
        have halike : Alike (withLeftover l u) u := Alike.symm ⟨l, rfl, hharmless u hu⟩
        obtain ⟨v, hv, htrace, hsim⟩ := halike.run hrest
        exact ⟨v, .cons _ u _ _ _ henabled hkeeps hu hv, htrace, hsim⟩

/-! ## Runs -/

/-- A cancelled attempt has left nothing pending, and the watch is satisfied so far. -/
structure Watch.Holds (b : Watch) (s : Mac) : Prop where
  final : b.Final
  pending : b.cancelled = true → s.sim.pending = []

/-- `Cancel` withdraws every event that it can. -/
theorem pending_csmaCancel (h : Withdrawable s) : s.csmaCancel.sim.pending = [] := by
  refine eq_nil_iff_forall_not_mem.mpr fun e he => ?_
  obtain ⟨he, hcca⟩ := mem_filter.mp he
  obtain ⟨he, hproceed⟩ := mem_filter.mp he
  obtain ⟨he, hrequest⟩ := mem_filter.mp he
  obtain ⟨he, hbackoff⟩ := mem_filter.mp he
  rcases h e he with hholder | hholder | hholder | hholder
  · exact absurd hholder (of_decide_eq_true hbackoff)
  · exact absurd hholder (of_decide_eq_true hrequest)
  · exact absurd hholder (of_decide_eq_true hproceed)
  · exact absurd hholder (of_decide_eq_true hcca)

/-- Where nothing is pending, only calls from outside are possible, and none but `Start` makes
CSMA-CA do anything. -/
theorem Watch.Holds.other {b : Watch} (h : b.Holds s) (henabled : machine.enabled s i)
    (hstart : i.call ≠ .start) (hcancel : i.call ≠ .cancel) :
    Post (machine.step s i) fun t => (b.record s i t).Holds t := by
  obtain ⟨call, answers⟩ := i
  have hactive (hcancelled : b.cancelled = false) (t : Mac) :
      (b.record s ⟨call, answers⟩ t).Holds t := by
    have hsame : b.record s ⟨call, answers⟩ t = b := by
      cases call with
      | start => exact absurd rfl hstart
      | cancel => exact absurd rfl hcancel
      | _ =>
        unfold Watch.record
        rw [hcancelled]
        rfl
    rw [hsame]
    refine ⟨h.final, fun hother => ?_⟩
    rw [hcancelled] at hother
    cases hother
  cases hcancelled : b.cancelled with
  | false => exact post_of_forall fun t _ => hactive hcancelled t
  | true =>
    have hnone := h.pending hcancelled
    cases call with
    | start => exact absurd rfl hstart
    | cancel => exact absurd rfl hcancel
    | fire n =>
      have hfalse : enabled s ⟨.fire n, answers⟩ = false := by
        unfold enabled
        simp [hnone]
      exact absurd henabled (by simp [machine, hfalse])
    | ccaCancelled =>
      have hfalse : enabled s ⟨.ccaCancelled, answers⟩ = false := by
        unfold enabled
        simp [Sim.isRunning, hnone]
      exact absurd henabled (by simp [machine, hfalse])
    | configure c =>
      have hsame : b.record s ⟨.configure c, answers⟩
          (configureCsma c { s with phy := answers }) = b := by
        unfold Watch.record
        simp [actsOnCca, callbacks, configureCsma]
      show (b.record s _ _).Holds _
      rw [hsame]
      exact ⟨h.final, fun _ => hnone⟩
    | elsewhere e =>
      have hsame : b.record s ⟨.elsewhere e, answers⟩
          (elsewhere { s with phy := answers } e) = b := by
        unfold Watch.record
        simp [actsOnCca, callbacks, elsewhere]
      show (b.record s _ _).Holds _
      rw [hsame]
      exact ⟨h.final, fun _ => hnone⟩

/-- A clean step keeps the watch satisfied. -/
theorem Watch.Holds.step {b : Watch} (h : b.Holds s) (henabled : machine.enabled s i)
    (hclean : Clean (b, s) i) :
    Post (machine.step s i) fun t => (b.record s i t).Holds t := by
  obtain ⟨call, answers⟩ := i
  cases call with
  | start =>
    refine post_of_forall fun t _ => ⟨⟨h.final.leaks, fun u hu => ?_⟩, nofun⟩
    have hu : u ∈ if b.cancelled then b.restarts ++ [s] else b.restarts := hu
    split at hu
    · rename_i hcancelled
      rcases mem_append.mp hu with hu | hu
      · exact h.final.restarts u hu
      · rw [mem_singleton.mp hu]
        exact startsFresh (h.pending hcancelled) (hclean hcancelled)
    · exact h.final.restarts u hu
  | cancel =>
    exact ⟨⟨h.final.leaks, h.final.restarts⟩,
      fun _ => pending_csmaCancel (s := { s with phy := answers }) hclean⟩
  | _ => exact h.other henabled (by simp) (by simp)

/-- **Cancelling is final.**  In every run whose steps are clean, whatever a cancelled attempt
could still do is over, and the attempt after it is a fresh one. -/
theorem final_of_run {b : Watch} {s t : Mac} {is : List CsmaInput}
    (h : (machine.recording Watch.record).Run Clean ({}, s) is (b, t)) : b.Final := by
  have hholds : b.Holds t := h.recorded Watch.Holds
    (fun b u i hu henabled hclean => hu.step henabled hclean)
    ⟨⟨rfl, fun s hs => by cases hs⟩, nofun⟩
  exact hholds.final

/-- A device that contends near the end of slot 0, which may be the last one of the CAP. -/
def contender (fnlCapSlot : ℕ) : Mac where
  tx := { txPkt := some { hdr := {}, body := .data [], size := 31, uid := 0 } }
  role := { coord := true }
  out := { superframeDuration := 7680, fnlCapSlot, macBeaconTxTime := -7360000 }
  csma := { isSlotted := true }

/-- The test for clean steps. -/
def isClean (c : Watch × Mac) (i : CsmaInput) : Bool :=
  match i.call with
  | .cancel => c.2.sim.pending.all fun e => decide (e.holder = some .randomBackoffEvent
      ∨ e.holder = some .requestCcaEvent ∨ e.holder = some .canProceedEvent
      ∨ e.holder = some .ccaRequest)
  | .start => !c.1.cancelled || !c.2.csma.isSlotted || c.2.csma.randomBackoffPeriodsLeft == 0
  | _ => true

theorem clean_of_isClean {c : Watch × Mac} (h : isClean c i = true) :
    Clean c i := by
  obtain ⟨call, answers⟩ := i
  cases call with
  | cancel => exact fun e he => of_decide_eq_true (all_eq_true.mp h e he)
  | start =>
    intro hcancelled hmode
    have htest : (!c.1.cancelled || !c.2.csma.isSlotted
      || c.2.csma.randomBackoffPeriodsLeft == 0) = true := h
    simpa [hcancelled, hmode] using htest
  | _ => trivial

/-- Cancelled during an assessment, and started again. -/
theorem final_assessing : ∃ b t, (machine.recording Watch.record).Run Clean ({}, contender 9)
        [⟨.start, {}⟩, ⟨.fire 0, {}⟩, ⟨.fire 0, {}⟩, ⟨.fire 0, {}⟩, ⟨.cancel, {}⟩, ⟨.start, {}⟩]
        (b, t)
      ∧ b.restarts.length = 1 ∧ b.Final := by
  obtain ⟨⟨b, t⟩, hrun, htest⟩ := Machine.exists_run_of_exec (m := machine.recording Watch.record)
    isClean (fun c => c.1.restarts.any fun s => s.csma.ccaRequestRunning && c.1.restarts.length == 1)
    ({}, contender 9) [⟨.start, {}⟩, ⟨.fire 0, {}⟩, ⟨.fire 0, {}⟩, ⟨.fire 0, {}⟩, ⟨.cancel, {}⟩,
      ⟨.start, {}⟩] (by decide +kernel)
  obtain ⟨s, -, hs⟩ := any_eq_true.mp htest
  have hclean := hrun.mono fun c i => clean_of_isClean
  exact ⟨b, t, hclean, by simpa using (Bool.and_eq_true_iff.mp hs).2, final_of_run hclean⟩

/-- An attempt that waits for the end of the CAP is cancelled, and calls back. -/
theorem not_final : ¬ ∀ (s t : Mac) (is : List CsmaInput) (b : Watch),
    (machine.recording Watch.record).Run (fun _ _ => True) ({}, fresh s) is (b, t) → b.Final := by
  intro hall
  obtain ⟨⟨b, t⟩, hrun, htest⟩ := Machine.exists_run_of_exec (m := machine.recording Watch.record)
    (fun _ _ => true) (fun c => c.1.leaks == 1) ({}, fresh (contender 0))
    [⟨.start, {}⟩, ⟨.fire 0, {}⟩, ⟨.cancel, {}⟩, ⟨.fire 0, {}⟩] (by decide +kernel)
  have hnone := (hall _ t _ b (hrun.mono fun _ _ _ => trivial)).leaks
  rw [of_decide_eq_true htest] at hnone
  cases hnone

/-! ## One attempt at a time -/

/-- The members that hold the events of CSMA-CA and the assessment of the PHY. -/
def members : List Member :=
  [.randomBackoffEvent, .canProceedEvent, .requestCcaEvent, .endCapEvent, .ccaRequest]

/-- At most one event is pending, and a member refers to it. -/
def Single (s : Mac) : Prop :=
  s.sim.pending = [] ∨ ∃ e m, s.sim.pending = [e] ∧ e.holder = some m ∧ m ∈ members

/-- Scheduling an event where nothing is pending. -/
theorem post_of_nil (hnone : sim.pending = []) (m : Member) (event : MacEvent) (delay : ℤ)
    (h : m.mayHold event = true) : sim.post m event delay h
      = ⟨sim.now, [⟨event, sim.now + delay, some m, by rintro _ ⟨⟩; exact h⟩]⟩ := by
  unfold Sim.post Sim.forget
  rw [hnone]
  rfl

theorem single_post {s t : Mac} (hnone : s.sim.pending = []) (hm : m ∈ members)
    (h : m.mayHold event = true) (ht : t.sim = s.sim.post m event delay h) :
    Single t := by
  rw [post_of_nil hnone] at ht
  exact .inr ⟨_, m, congrArg Sim.pending ht, rfl, hm⟩

theorem single_schedule {s t : Mac} {h : m.mayHold event = true}
    (ht : s.schedule m event delay h = .ok t) (hnone : s.sim.pending = []) (hm : m ∈ members) :
    Single t := by
  obtain ⟨-, rfl⟩ := schedule_ok ht
  exact single_post hnone hm h rfl

theorem single_confirmCca (hnone : s.sim.pending = []) (status : LrWpanPhyEnumeration) :
    Single (report (s.confirmCca status)) := by
  unfold confirmCca
  dsimp only
  split
  · split
    · split
      · split
        · exact .inl hnone
        · exact single_post hnone (by decide) rfl rfl
      · exact .inl hnone
    · split
      · exact .inl hnone
      · exact single_post hnone (by decide) rfl rfl
  · exact .inl hnone

theorem single_runCsma {s t : Mac} (hnone : s.sim.pending = []) (ht : s.runCsma event = .ok t) :
    Single t := by
  unfold runCsma at ht
  split at ht
  · have hdraw : (drawBackoff s).sim.pending = [] := by
      unfold drawBackoff
      split
      · exact hnone
      · exact hnone
    rw [randomBackoffDelay_eq] at ht
    unfold scheduleBackoff deferBackoff at ht
    split at ht
    · exact single_schedule ht hdraw (by decide)
    · split at ht
      · exact single_schedule ht hdraw (by decide)
      · exact single_schedule ht hdraw (by decide)
  · rw [canProceed_eq] at ht
    split at ht
    · unfold proceedWith at ht
      split at ht
      · exact single_schedule ht hnone (by decide)
      · cases ht
        exact single_post hnone (by decide) rfl rfl
    · cases ht
  · cases ht
    unfold assess startCca
    dsimp only
    split
    · exact single_confirmCca (by exact hnone) _
    · exact single_post hnone (by decide) rfl rfl
  · cases ht
    exact .inl hnone
  · cases ht
    exact single_confirmCca hnone _
  · cases ht
    exact .inl hnone

/-- `Start` is called only where no attempt is under way. -/
def OneAttempt (s : Mac) (i : CsmaInput) : Prop := i.call = .start → s.sim.pending = []

theorem Single.of_sublist {s t : Mac} (h : Single s)
    (hsub : List.Sublist t.sim.pending s.sim.pending) : Single t := by
  rcases h with hnone | ⟨e, m, hone, hholder, hm⟩
  · rw [hnone] at hsub
    exact .inl (sublist_nil.mp hsub)
  · rw [hone] at hsub
    rcases sublist_singleton.mp hsub with hnil | hsame
    · exact .inl hnil
    · exact .inr ⟨e, m, hsame, hholder, hm⟩

/-- Nothing is left while the one event runs. -/
theorem Single.pending_of_take (hs : Single s) {n : ℕ} (h : s.sim.take n = some (e, sim)) :
    sim.pending = [] := by
  rcases hs with hnone | ⟨e', m, hone, -, -⟩
  · exact subset_nil.mp (hnone ▸ subset_of_take h)
  · have hlen : sim.pending.length + 1 = s.sim.pending.length := length_of_take h
    rw [hone] at hlen
    exact length_eq_zero_iff.mp (Nat.succ.inj hlen)

/-- Nothing is left when the one event is cancelled. -/
theorem Single.pending_cancel (hs : Single s) (h : s.isRunning m = true) :
    (s.cancel m).sim.pending = [] := by
  obtain ⟨e, he, hholder⟩ := any_eq_true.mp h
  rcases hs with hnone | ⟨e', m', hone, -, -⟩
  · rw [hnone] at he
    cases he
  · rw [hone] at he
    obtain rfl := mem_singleton.mp he
    show s.sim.pending.filter _ = []
    rw [hone, filter_cons_of_neg (by simpa using hholder)]
    rfl

theorem single_step (s : Mac) (i : CsmaInput) (hs : Single s) (henabled : machine.enabled s i)
    (hone : OneAttempt s i) : Post (machine.step s i) Single := by
  obtain ⟨call, answers⟩ := i
  refine post_of_forall fun t ht => ?_
  cases call with
  | start =>
    have hnone : s.sim.pending = [] := hone rfl
    have ht : csmaStart { s with phy := answers } = .ok t := ht
    by_cases hmode : s.csma.isSlotted = true
    · rw [csmaStart_slotted (by exact hmode)] at ht
      exact single_schedule ht (by exact hnone) (by decide)
    · unfold csmaStart at ht
      rw [if_neg (by exact hmode)] at ht
      cases ht
      exact single_post hnone (by decide) rfl rfl
  | cancel =>
    cases ht
    refine hs.of_sublist ?_
    exact filter_sublist.trans (filter_sublist.trans (filter_sublist.trans
      filter_sublist))
  | fire n =>
    have ht : act (.fire n) { s with phy := answers } = .ok t := ht
    unfold act at ht
    dsimp only at ht
    cases htake : s.sim.take n with
    | none =>
      rw [htake] at ht
      cases ht
      exact hs
    | some r =>
      obtain ⟨e, sim⟩ := r
      rw [htake] at ht
      have hrest : sim.pending = [] := hs.pending_of_take htake
      exact single_runCsma (s := { s with phy := answers, sim }) hrest ht
  | ccaCancelled =>
    cases ht
    have hrest : (s.cancel .ccaRequest).sim.pending = [] := hs.pending_cancel henabled
    exact single_confirmCca (s := { s with phy := answers, sim := s.sim.cancel .ccaRequest }) hrest _
  | configure c =>
    cases ht
    exact hs
  | elsewhere e =>
    cases ht
    exact hs

/-! ## What is left of the backoff -/

/-- The next backoff boundary is never behind. -/
theorem getTimeToNextSlot_nonneg (s : Mac) (incCsma : Bool) : 0 ≤ s.getTimeToNextSlot incCsma := by
  unfold getTimeToNextSlot
  dsimp only
  generalize (if incCsma then s.sim.now - s.inc.macBeaconRxTime
    else s.sim.now - s.out.macBeaconTxTime) = elapsed
  generalize hsymbols : (elapsed / 16000).toNat = n
  have hboundary : n + 1 ≤ n + (aUnitBackoffPeriod - n % aUnitBackoffPeriod) := by
    have hmod : n % aUnitBackoffPeriod < aUnitBackoffPeriod := Nat.mod_lt n (by decide)
    omega
  have hle : symbols (n + 1) ≤ symbols (n + (aUnitBackoffPeriod - n % aUnitBackoffPeriod)) := by
    unfold symbols
    omega
  have hlt : elapsed < symbols (n + 1) := by
    unfold symbols
    omega
  omega

end CsmaCancel

end Ns3Dsme
