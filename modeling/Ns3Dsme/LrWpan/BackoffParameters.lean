/-
# Backoff exponent, number of backoffs and contention window

`LrWpanCsmaCa` by itself, with the backoffs that it draws written down.  `RandomBackoffDelay` draws
from `[0, 7)` whatever `m_BE` is, which suits every exponent from 3 on.  `Start` sets the exponent to
`m_macMinBE`, or to no more than 2 with the battery life extension, and no more than
`m_macMaxBE` is ever reached.
-/
import Mathlib.Algebra.Group.Nat.Defs
import Ns3Dsme.LrWpan.CsmaCancel

open Bool Program

namespace Ns3Dsme.BackoffParameters

open CsmaCancel

/-! ## Starting -/

/-- The backoff exponent of a new attempt. -/
def startBE (c : CsmaCa) : ℕ :=
  if c.isSlotted = true ∧ c.macBattLifeExt = true then min 2 c.macMinBE else c.macMinBE

/-- What `Start` makes of the members. -/
def startCsma (s : Mac) : CsmaCa :=
  if s.csma.isSlotted then
    { s.csma with nb := 0, cw := 1, be := startBE s.csma, incCsma := s.inc.incSuperframe }
  else { s.csma with nb := 0, be := startBE s.csma }

/-- The delay of the first backoff. -/
def startDelay (s : Mac) : ℤ :=
  if s.csma.isSlotted then s.getTimeToNextSlot s.inc.incSuperframe else 0

/-- **What `Start` does.** -/
theorem csmaStart_eq (s : Mac) : s.csmaStart
    = .ok { s with
        csma := startCsma s
        sim := s.sim.post .randomBackoffEvent .randomBackoffDelay (startDelay s) } := by
  unfold startCsma startDelay startBE
  cases hmode : s.csma.isSlotted with
  | true =>
    refine (csmaStart_slotted hmode).trans ((schedule_eq (getTimeToNextSlot_nonneg s _)).trans ?_)
    unfold prepareSlotted
    cases s.csma.macBattLifeExt <;> rfl
  | false =>
    unfold Mac.csmaStart
    rw [hmode]
    rfl

/-! ## What is seen -/

/-- A report of a channel access failure. -/
def isFailure : Output → Bool
  | .csmaOutcome .channelAccessFailure => true
  | _ => false

/-- The number of channel access failures reported. -/
def failures (s : Mac) : ℕ := s.trace.countP isFailure

/-- The backoff that is drawn when pending event `n` runs, if any, and the exponent it is drawn
for. -/
def drawn (s : Mac) (n : ℕ) (answers : PhyAnswers) : List (ℕ × ℕ) :=
  match s.sim.pending[n]? with
  | some e =>
    if e.event = .randomBackoffDelay
        ∧ (s.csma.randomBackoffPeriodsLeft = 0 ∨ s.csma.isSlotted = false) then
      [((drawBackoff { s with phy := answers }).csma.randomBackoffPeriodsLeft, s.csma.be)]
    else []
  | none => []

/-- What is seen of a run. -/
structure Seen where
  /-- The backoffs drawn, with the exponent of the time. -/
  draws : List (ℕ × ℕ) := []
  /-- A channel access failure was reported since the last `Start`. -/
  failed : Bool := false

/-- What a step adds. -/
def Seen.record (b : Seen) (s : Mac) (i : CsmaInput) (t : Mac) : Seen :=
  match i.call with
  | .start => { b with failed := false }
  | .fire n =>
    { draws := b.draws ++ drawn s n i.answers
      failed := b.failed || decide (failures t ≠ failures s) }
  | _ => { b with failed := b.failed || decide (failures t ≠ failures s) }

/-- Exponent, number of backoffs and contention window are within their bounds.  A window that is
decremented at zero goes to 255. -/
structure InBounds (failed : Bool) (c : CsmaCa) : Prop where
  be_le : c.be ≤ c.macMaxBE
  nb_le : c.nb ≤ c.macMaxCSMABackoffs ∨ failed = true
  cw_le : c.cw ≤ 2

/-- So are they, and all the backoffs that were drawn. -/
structure Seen.Sound (b : Seen) (c : CsmaCa) : Prop extends InBounds b.failed c where
  draws : ∀ d ∈ b.draws, d.1 ≤ 2 ^ d.2 - 1

/-- A new `LrWpanCsmaCa` with the configuration of `c`. -/
def new (c : CsmaCa) : CsmaCa where
  isSlotted := c.isSlotted
  macMinBE := c.macMinBE
  macMaxBE := c.macMaxBE
  macMaxCSMABackoffs := c.macMaxCSMABackoffs
  macBattLifeExt := c.macBattLifeExt

/-- One attempt at a time, and no call of the setters. -/
def Undisturbed (x : Seen × Mac) (i : CsmaInput) : Prop :=
  OneAttempt x.2 i ∧ KeepsConfiguration x.2 i

/-- With the configuration of `c` everything stays within its bounds. -/
def StaysSound (c : CsmaCa) : Prop :=
  ∀ (s t : Mac) (is : List CsmaInput) (b : Seen), s.csma = new c → s.sim.pending = [] →
    (machine.recording Seen.record).Run Undisturbed ({}, s) is (b, t) → b.Sound t.csma

/-! ## The invariant -/

/-- What configuration, exponent, number of backoffs and contention window have to do with one
another. -/
structure Counts (failed : Bool) (c : CsmaCa) : Prop extends InBounds failed c where
  three_le_start : 3 ≤ startBE c
  start_le : startBE c ≤ c.macMaxBE
  three_le : 3 ≤ c.be

/-- The relation between what is seen and the state.  In a slotted attempt under way the
window is open. -/
structure Seen.Holds (b : Seen) (s : Mac) : Prop where
  single : Single s
  counts : Counts b.failed s.csma
  window : s.csma.isSlotted = true → s.sim.pending ≠ [] → 0 < s.csma.cw
  draws : ∀ d ∈ b.draws, d.1 ≤ 2 ^ d.2 - 1

variable {failed : Bool} {s : Mac}

theorem Seen.Holds.sound {b : Seen} (h : b.Holds s) : b.Sound s.csma where
  toInBounds := h.counts.toInBounds
  draws := h.draws

theorem Counts.mono {failed failed' : Bool} {c : CsmaCa} (h : Counts failed c)
    (hle : failed = true → failed' = true) : Counts failed' c :=
  { h with nb_le := h.nb_le.imp id hle }

/-- The members that the bounds are about do not change. -/
structure SameCounts (c d : CsmaCa) : Prop where
  isSlotted : d.isSlotted = c.isSlotted
  macMinBE : d.macMinBE = c.macMinBE
  macMaxBE : d.macMaxBE = c.macMaxBE
  macMaxCSMABackoffs : d.macMaxCSMABackoffs = c.macMaxCSMABackoffs
  macBattLifeExt : d.macBattLifeExt = c.macBattLifeExt
  nb : d.nb = c.nb
  cw : d.cw = c.cw
  be : d.be = c.be

theorem Counts.of_same {c d : CsmaCa} (h : Counts failed c) (hsame : SameCounts c d) :
    Counts failed d := by
  have hstart : startBE d = startBE c := by
    unfold startBE
    rw [hsame.isSlotted, hsame.macBattLifeExt, hsame.macMinBE]
  constructor
  · constructor
    · rw [hsame.be, hsame.macMaxBE]
      exact h.be_le
    · rw [hsame.nb, hsame.macMaxCSMABackoffs]
      exact h.nb_le
    · rw [hsame.cw]
      exact h.cw_le
  · rw [hstart]
    exact h.three_le_start
  · rw [hstart, hsame.macMaxBE]
    exact h.start_le
  · rw [hsame.be]
    exact h.three_le

/-- A new attempt. -/
theorem Counts.start (h : Counts failed s.csma) :
    Counts false (startCsma s) := by
  unfold startCsma
  cases hmode : s.csma.isSlotted with
  | true =>
    exact ⟨⟨h.start_le, .inl (Nat.zero_le _), Nat.le_succ 1⟩, h.three_le_start, h.start_le,
      h.three_le_start⟩
  | false =>
    exact ⟨⟨h.start_le, .inl (Nat.zero_le _), h.cw_le⟩, h.three_le_start, h.start_le,
      h.three_le_start⟩

/-! ## Handlers -/

theorem csma_report (r : Option LrWpanMacState × Mac) : (Mac.report r).csma = r.2.csma := by
  obtain ⟨macState, t⟩ := r
  cases macState <;> rfl

/-- A report of a failure is counted. -/
theorem failures_report {r : Option LrWpanMacState × Mac} (h : r.1 = some .channelAccessFailure) :
    failures (Mac.report r) = failures r.2 + 1 := by
  obtain ⟨macState, t⟩ := r
  obtain rfl : macState = some .channelAccessFailure := h
  exact List.countP_append

theorem trace_confirmCca (s : Mac) (status : LrWpanPhyEnumeration) :
    (s.confirmCca status).2.trace = s.trace := by
  unfold Mac.confirmCca
  dsimp only
  split
  · split
    · split
      · split
        · rfl
        · rfl
      · rfl
    · split
      · rfl
      · rfl
  · rfl

/-- **What a confirm does to the counts.**  A window that goes on is open, and a number of
backoffs beyond the bound is reported. -/
theorem Counts.confirmCca (h : Counts failed s.csma) (hnone : s.sim.pending = [])
    (hwindow : s.csma.isSlotted = true → 0 < s.csma.cw) (status : LrWpanPhyEnumeration) :
    Counts (failed || decide ((s.confirmCca status).1 = some .channelAccessFailure))
        (s.confirmCca status).2.csma
      ∧ ((s.confirmCca status).2.csma.isSlotted = true →
        (s.confirmCca status).2.sim.pending ≠ [] → 0 < (s.confirmCca status).2.csma.cw) := by
  have hbe : 3 ≤ min (s.csma.be + 1) s.csma.macMaxBE := by
    have hstart := h.three_le_start
    have hmax := h.start_le
    have hthree := h.three_le
    omega
  have hmono {c : CsmaCa} {new : Bool} (hc : Counts failed c) : Counts (failed || new) c :=
    hc.mono fun hfailed => by rw [hfailed, Bool.true_or]
  unfold Mac.confirmCca
  dsimp only
  split
  · split
    · split
      · rename_i hmode
        have hcw := h.cw_le
        have hpos := hwindow hmode
        have hdecrement : (s.csma.cw + 255) % 256 = s.csma.cw - 1 := by omega
        have hcounts : Counts failed { s.csma with
            ccaRequestRunning := false, cw := (s.csma.cw + 255) % 256 } := by
          refine { h with cw_le := ?_ }
          show (s.csma.cw + 255) % 256 ≤ 2
          omega
        split
        · refine ⟨hmono hcounts, fun _ hpending => absurd hnone hpending⟩
        · rename_i hne
          exact ⟨hmono hcounts, fun _ _ => Nat.pos_of_ne_zero hne⟩
      · refine ⟨hmono { h with }, fun _ hpending => absurd hnone hpending⟩
    · -- busy: the exponent grows up to its bound
      have hcw : (if s.csma.isSlotted = true then 2 else s.csma.cw) ≤ 2 := by
        have hle := h.cw_le
        split <;> omega
      split
      · exact ⟨⟨⟨Nat.min_le_right _ _, .inr (by simp), hcw⟩, h.three_le_start, h.start_le, hbe⟩,
          fun _ hpending => absurd hnone hpending⟩
      · rename_i hle
        refine ⟨⟨⟨Nat.min_le_right _ _, .inl (Nat.not_lt.mp hle), hcw⟩, h.three_le_start,
          h.start_le, hbe⟩, fun hmode _ => ?_⟩
        show 0 < if s.csma.isSlotted = true then 2 else s.csma.cw
        rw [if_pos hmode]
        decide
  · exact ⟨hmono h, fun _ hpending => absurd hnone hpending⟩

/-- The backoff periods that are left are not among the counts. -/
theorem sameCounts_left (c : CsmaCa) (n : ℕ) :
    SameCounts c { c with randomBackoffPeriodsLeft := n } :=
  ⟨rfl, rfl, rfl, rfl, rfl, rfl, rfl, rfl⟩

theorem exists_drawBackoff (s : Mac) :
    ∃ n, drawBackoff s = { s with csma := { s.csma with randomBackoffPeriodsLeft := n } } := by
  unfold drawBackoff
  split
  · exact ⟨_, rfl⟩
  · exact ⟨_, rfl⟩

theorem sameCounts_randomBackoffDelay {s t : Mac} (h : s.randomBackoffDelay = .ok t) :
    SameCounts s.csma t.csma := by
  obtain ⟨n, hdraw⟩ := exists_drawBackoff s
  rw [randomBackoffDelay_eq, hdraw] at h
  unfold scheduleBackoff deferBackoff at h
  split at h
  · obtain ⟨-, rfl⟩ := schedule_ok h
    exact sameCounts_left s.csma n
  · split at h
    · obtain ⟨-, rfl⟩ := schedule_ok h
      exact sameCounts_left s.csma _
    · obtain ⟨-, rfl⟩ := schedule_ok h
      exact sameCounts_left s.csma n

theorem sameCounts_canProceed {s t : Mac} (h : s.canProceed = .ok t) :
    SameCounts s.csma t.csma := by
  rw [canProceed_eq] at h
  split at h
  · unfold proceedWith at h
    split at h
    · obtain ⟨-, rfl⟩ := schedule_ok h
      exact sameCounts_left s.csma 0
    · cases h
      exact sameCounts_left s.csma 0
  · cases h

/-- What a step of an attempt under way leads to, where nothing else is pending. -/
def Continues (failed : Bool) (s t : Mac) : Prop :=
  Counts (failed || decide (failures t ≠ failures s)) t.csma
    ∧ (t.csma.isSlotted = true → t.sim.pending ≠ [] → 0 < t.csma.cw)

theorem Continues.of_same {s t : Mac} (h : Counts failed s.csma)
    (hwindow : s.csma.isSlotted = true → 0 < s.csma.cw) (hsame : SameCounts s.csma t.csma) :
    Continues failed s t := by
  refine ⟨(h.of_same hsame).mono fun hfailed => ?_, fun hmode _ => ?_⟩
  · rw [hfailed, Bool.true_or]
  · rw [hsame.cw]
    exact hwindow (hsame.isSlotted ▸ hmode)

/-- A confirm, with its report. -/
theorem Continues.confirmCca (h : Counts failed s.csma) (hnone : s.sim.pending = [])
    (hwindow : s.csma.isSlotted = true → 0 < s.csma.cw) (status : LrWpanPhyEnumeration) :
    Continues failed s (Mac.report (s.confirmCca status)) := by
  obtain ⟨hcounts, hopen⟩ := h.confirmCca hnone hwindow status
  have hsim := (isSlotted_report (s.confirmCca status)).2
  unfold Continues
  rw [csma_report, hsim]
  refine ⟨hcounts.mono fun hfailed => ?_, hopen⟩
  rcases or_eq_true_iff.mp hfailed with hold | hnew
  · rw [hold, Bool.true_or]
  · have hcount := failures_report (of_decide_eq_true hnew)
    have hbefore : failures (s.confirmCca status).2 = failures s :=
      congrArg (List.countP isFailure) (trace_confirmCca s status)
    rw [hcount, hbefore, decide_eq_true (Nat.succ_ne_self _), Bool.or_true]

/-- **The invariant through the handlers.** -/
theorem Continues.runCsma {s t : Mac} {event : MacEvent} (h : Counts failed s.csma)
    (hnone : s.sim.pending = []) (hwindow : s.csma.isSlotted = true → 0 < s.csma.cw)
    (ht : s.runCsma event = .ok t) :
    Continues failed s t := by
  unfold Mac.runCsma at ht
  split at ht
  · exact .of_same h hwindow (sameCounts_randomBackoffDelay ht)
  · exact .of_same h hwindow (sameCounts_canProceed ht)
  · cases ht
    have hset : Counts failed { s.csma with ccaRequestRunning := true } := { h with }
    unfold Mac.assess Mac.startCca
    dsimp only
    split
    · exact Continues.confirmCca (s := { s with csma := { s.csma with ccaRequestRunning := true } })
        hset hnone hwindow _
    · exact .of_same h hwindow ⟨rfl, rfl, rfl, rfl, rfl, rfl, rfl, rfl⟩
  · cases ht
    exact .of_same h hwindow ⟨rfl, rfl, rfl, rfl, rfl, rfl, rfl, rfl⟩
  · cases ht
    exact .confirmCca h hnone hwindow _
  · cases ht
    exact .of_same h hwindow ⟨rfl, rfl, rfl, rfl, rfl, rfl, rfl, rfl⟩

/-- What is drawn fits the exponent, if that is at least 3. -/
theorem le_of_mem_drawn {n : ℕ} {answers : PhyAnswers} (hbe : 3 ≤ s.csma.be) {d : ℕ × ℕ}
    (hd : d ∈ drawn s n answers) : d.1 ≤ 2 ^ d.2 - 1 := by
  unfold drawn at hd
  split at hd
  · split at hd
    · rename_i hdraws
      rw [List.mem_singleton.mp hd]
      have hleft : (drawBackoff { s with phy := answers }).csma.randomBackoffPeriodsLeft
          = answers.random % 7 := by
        unfold drawBackoff
        rw [if_pos hdraws.2]
      have hrange : 2 ^ 3 ≤ 2 ^ s.csma.be := Nat.pow_le_pow_right (by decide) hbe
      have hmod : answers.random % 7 < 7 := Nat.mod_lt _ (by decide)
      show (drawBackoff { s with phy := answers }).csma.randomBackoffPeriodsLeft ≤ _
      rw [hleft]
      show _ ≤ 2 ^ s.csma.be - 1
      omega
    · cases hd
  · cases hd

/-! ## Steps and runs -/

/-- **Every step keeps the invariant.** -/
theorem Seen.Holds.step {b : Seen} {i : CsmaInput} (h : b.Holds s) (henabled : machine.enabled s i)
    (hC : Undisturbed (b, s) i) :
    Post (machine.step s i) fun t => (b.record s i t).Holds t := by
  refine post_of_forall fun t ht => ?_
  have hsingle : Single t := (single_step s i h.single henabled hC.1).of_eq_ok ht
  obtain ⟨call, answers⟩ := i
  cases call with
  | start =>
    have ht : Mac.csmaStart { s with phy := answers } = .ok t := ht
    rw [csmaStart_eq] at ht
    cases ht
    refine ⟨hsingle, Counts.start (s := { s with phy := answers }) h.counts, fun hmode _ => ?_,
      h.draws⟩
    have hsame : s.csma.isSlotted = true := by
      unfold startCsma at hmode
      split at hmode
      · assumption
      · exact hmode
    show 0 < (startCsma { s with phy := answers }).cw
    unfold startCsma
    rw [if_pos (by exact hsame)]
    exact Nat.one_pos
  | cancel =>
    cases ht
    refine ⟨hsingle, h.counts.mono fun hfailed => ?_, fun hmode hpending => ?_, h.draws⟩
    · exact or_eq_true_iff.mpr (.inl hfailed)
    · refine h.window hmode fun hnone => hpending ?_
      show ((((s.sim.pending.filter _).filter _).filter _).filter _) = []
      rw [hnone]
      rfl
  | fire n =>
    have hdraws : ∀ d ∈ b.draws ++ drawn s n answers, d.1 ≤ 2 ^ d.2 - 1 := by
      intro d hd
      rcases List.mem_append.mp hd with hd | hd
      · exact h.draws d hd
      · exact le_of_mem_drawn h.counts.three_le hd
    have ht : act (.fire n) { s with phy := answers } = .ok t := ht
    unfold act at ht
    dsimp only at ht
    cases htake : s.sim.take n with
    | none =>
      rw [htake] at ht
      cases ht
      exact ⟨hsingle, h.counts.mono fun hfailed => or_eq_true_iff.mpr (.inl hfailed),
        h.window, hdraws⟩
    | some r =>
      obtain ⟨e, sim⟩ := r
      rw [htake] at ht
      have hpending : s.sim.pending ≠ [] := by
        intro hnone
        have hlen := length_of_take htake
        rw [hnone] at hlen
        cases hlen
      obtain ⟨hcounts, hwindow⟩ := Continues.runCsma (s := { s with phy := answers, sim })
        h.counts (h.single.pending_of_take htake) (fun hmode => h.window hmode hpending) ht
      exact ⟨hsingle, hcounts, hwindow, hdraws⟩
  | ccaCancelled =>
    cases ht
    have hrunning : s.isRunning .ccaRequest = true := henabled
    have hpending : s.sim.pending ≠ [] := by
      intro hnone
      unfold Mac.isRunning Sim.isRunning at hrunning
      rw [hnone] at hrunning
      cases hrunning
    obtain ⟨hcounts, hwindow⟩ := Continues.confirmCca
      (s := { s with phy := answers, sim := s.sim.cancel .ccaRequest })
      h.counts (h.single.pending_cancel hrunning) (fun hmode => h.window hmode hpending) .phyBusy
    exact ⟨hsingle, hcounts, hwindow, h.draws⟩
  | configure c => exact absurd rfl (hC.2 c)
  | elsewhere e =>
    cases ht
    exact ⟨hsingle, h.counts.mono fun hfailed => or_eq_true_iff.mpr (.inl hfailed),
      h.window, h.draws⟩

/-- Exponents from 3 on stay sound. -/
theorem staysSound_of_three_le {c : CsmaCa} (hmax : c.macMinBE ≤ c.macMaxBE)
    (hstart : 3 ≤ startBE c) : StaysSound c := by
  intro s t is b hcsma hnone hrun
  have hle : startBE c ≤ c.macMinBE := by
    unfold startBE
    split
    · exact Nat.min_le_right _ _
    · exact le_rfl
  have hnew : Counts false (new c) :=
    ⟨⟨show 3 ≤ c.macMaxBE by omega, .inl (Nat.zero_le _), le_rfl⟩, hstart,
      show startBE c ≤ c.macMaxBE by omega, le_rfl⟩
  have hholds : b.Holds t := hrun.recorded Seen.Holds
    (fun b u i hu henabled hC => hu.step henabled hC)
    ⟨.inl hnone, hcsma ▸ hnew, fun _ hpending => absurd hnone hpending, fun d hd => by cases hd⟩
  exact hholds.sound

/-! ## A draw that does not fit the exponent -/

/-- A new device that is in a CAP for two backoff periods. -/
def inCap (c : CsmaCa) : Mac where
  role := { coord := true }
  out := { superframeDuration := 640, fnlCapSlot := 0 }
  csma := new c

/-- A `Start`, and 6 drawn. -/
def drawSix : List CsmaInput := [⟨.start, {}⟩, ⟨.fire 0, { random := 6 }⟩]

/-- A backoff is scheduled, if a slotted one has time left in the CAP. -/
theorem exists_scheduleBackoff (hcap : s.csma.isSlotted = true → 0 ≤ s.getTimeLeftInCap) :
    ∃ t, scheduleBackoff s = .ok t := by
  unfold scheduleBackoff deferBackoff
  split
  · exact ⟨_, schedule_eq (symbols_nonneg _)⟩
  · rename_i hmode
    split
    · exact ⟨_, schedule_eq (by exact hcap (eq_true_of_not_eq_false hmode))⟩
    · exact ⟨_, schedule_eq (symbols_nonneg _)⟩

/-- The draw for the exponent that `Start` sets. -/
theorem exists_run_drawSix (c : CsmaCa) : ∃ b t,
    (machine.recording Seen.record).Run Undisturbed ({}, inCap c) drawSix (b, t)
      ∧ b.draws = [(6, startBE c)] := by
  let s := inCap c
  let t : Mac := { s with
    csma := startCsma s
    sim := s.sim.post .randomBackoffEvent .randomBackoffDelay (startDelay s) }
  let u : Mac := { t with phy := { random := 6 }, sim := ⟨startDelay s, []⟩ }
  have hbe : t.csma.be = startBE c := by
    show (startCsma s).be = _
    unfold startCsma
    split <;> rfl
  have hmode : t.csma.isSlotted = c.isSlotted := by
    show (startCsma s).isSlotted = _
    unfold startCsma
    split <;> rfl
  have hleft : t.csma.randomBackoffPeriodsLeft = 0 := by
    show (startCsma s).randomBackoffPeriodsLeft = _
    unfold startCsma
    split <;> rfl
  have hdraw : drawBackoff u
      = { u with csma := { u.csma with randomBackoffPeriodsLeft := 6 } } := by
    unfold drawBackoff
    rw [if_pos (.inl hleft)]
    rfl
  have hcap : (drawBackoff u).csma.isSlotted = true → 0 ≤ (drawBackoff u).getTimeLeftInCap := by
    rw [hdraw]
    intro hslotted
    have hslotted : c.isSlotted = true := hmode ▸ hslotted
    have hdelay : startDelay s = 320000 := by
      show (if c.isSlotted = true then _ else _) = _
      rw [if_pos hslotted]
      rfl
    have hleft :
      ({ u with csma := { u.csma with randomBackoffPeriodsLeft := 6 } } : Mac).getTimeLeftInCap
        = (if (startCsma s).incCsma = true then 0 else 0) + symbols (640 / 16 * 1) - startDelay s :=
      rfl
    rw [hleft, hdelay]
    split <;> decide
  obtain ⟨v, hv⟩ := exists_scheduleBackoff hcap
  have hstart : machine.step s ⟨.start, {}⟩ = .ok t := csmaStart_eq s
  have hfire : machine.step t ⟨.fire 0, { random := 6 }⟩ = .ok v := by
    have htime : (0 : ℤ) + startDelay s = startDelay s := Int.zero_add _
    show Mac.randomBackoffDelay { t with
      phy := { random := 6 }, sim := ⟨0 + startDelay s, []⟩ } = _
    rw [htime]
    exact hv
  have hfires : machine.enabled t ⟨.fire 0, { random := 6 }⟩ := by
    show (List.all _ _) = true
    simp [t, s, inCap, Sim.post, Sim.forget]
  have hdrawn : drawn t 0 { random := 6 } = [(6, startBE c)] := by
    show (if MacEvent.randomBackoffDelay = .randomBackoffDelay
        ∧ (t.csma.randomBackoffPeriodsLeft = 0 ∨ t.csma.isSlotted = false) then
      [((drawBackoff { t with phy := { random := 6 } }).csma.randomBackoffPeriodsLeft, t.csma.be)]
      else []) = _
    rw [if_pos ⟨rfl, .inl hleft⟩, hbe]
    unfold drawBackoff
    rw [if_pos (.inl hleft)]
    rfl
  refine ⟨(({} : Seen).record s ⟨.start, {}⟩ t).record t ⟨.fire 0, { random := 6 }⟩ v, v,
    .cons _ (({} : Seen).record s ⟨.start, {}⟩ t, t) _ _ _ rfl ⟨fun _ => rfl, by rintro c ⟨⟩⟩ ?_
      (.cons _ _ _ _ _ hfires ⟨by rintro ⟨⟩, by rintro c ⟨⟩⟩ ?_ (.nil _)), ?_⟩
  · exact congrArg (Except.map _) hstart
  · exact congrArg (Except.map _) hfire
  · exact hdrawn

/-- **Backoff parameters.**  Every drawn backoff lies within the exponent of the time, and
exponent, number of backoffs and contention window stay within their bounds, exactly if
`m_macMinBE` is at least 3 and a slotted CSMA-CA does not use the battery life extension. -/
theorem staysSound_iff (c : CsmaCa) (h : c.macMinBE ≤ c.macMaxBE) : StaysSound c ↔
    3 ≤ c.macMinBE ∧ ¬ (c.isSlotted = true ∧ c.macBattLifeExt = true) := by
  have hcondition : 3 ≤ startBE c
      ↔ 3 ≤ c.macMinBE ∧ ¬ (c.isSlotted = true ∧ c.macBattLifeExt = true) := by
    unfold startBE
    split
    · rename_i hext
      refine iff_of_false ?_ fun hnot => hnot.2 hext
      have hle := Nat.min_le_left 2 c.macMinBE
      omega
    · rename_i hext
      exact (and_iff_left hext).symm
  rw [← hcondition]
  constructor
  · intro hsound
    obtain ⟨b, t, hrun, hdraws⟩ := exists_run_drawSix c
    have hle : 6 ≤ 2 ^ startBE c - 1 :=
      (hsound _ t _ b rfl rfl hrun).draws (6, startBE c) (hdraws ▸ List.mem_singleton_self _)
    by_contra hlow
    have hpow : 2 ^ startBE c ≤ 2 ^ 2 := Nat.pow_le_pow_right (by decide) (by omega)
    omega
  · exact staysSound_of_three_le h

/-- The default configuration, and one with the battery life extension. -/
theorem staysSound_default :
    StaysSound { isSlotted := true } ∧ ¬ StaysSound { isSlotted := true, macBattLifeExt := true } :=
  ⟨(staysSound_iff { isSlotted := true } (by decide)).mpr (by decide),
    fun h => (staysSound_iff { isSlotted := true, macBattLifeExt := true } (by decide)).mp h |>.2
      ⟨rfl, rfl⟩⟩

/-- With the battery life extension the exponent is 2, and 6 may be drawn. -/
theorem not_staysSound : ¬ ∀ c : CsmaCa, c.macMinBE ≤ c.macMaxBE →
    ∀ (s t : Mac) (is : List CsmaInput) (b : Seen), s.csma = new c → s.sim.pending = [] →
      (machine.recording Seen.record).Run (fun _ _ => True) ({}, s) is (b, t) →
      b.Sound t.csma := by
  intro hall
  obtain ⟨⟨b, t⟩, hrun, htest⟩ := Machine.exists_run_of_exec (m := machine.recording Seen.record)
    (fun _ _ => true) (fun x => x.1.draws == [(6, 2)])
    ({}, inCap { isSlotted := true, macBattLifeExt := true }) drawSix (by decide +kernel)
  have hsound := hall _ (by decide) _ t _ b rfl rfl (hrun.mono fun _ _ _ => trivial)
  have hdraws : b.draws = [(6, 2)] := eq_of_beq htest
  have hle : 6 ≤ 2 ^ 2 - 1 := hsound.draws (6, 2) (hdraws ▸ List.mem_singleton_self _)
  omega

end Ns3Dsme.BackoffParameters
