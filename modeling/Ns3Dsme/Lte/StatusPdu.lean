/-
# STATUS PDUs and the opportunities they are built for

All counters of the receiver share `VR(R)` as their base, so that they compare.  A STATUS PDU has a
NACK for each missing number until none fits in; but the test counts one octet too few when three
divides the opportunity.
-/
import Ns3Dsme.Lte.RlcAmReceiver
import Ns3Dsme.Lte.RlcAmHeaderRoundTrip

open List Program

namespace Ns3Dsme.Lte

open Receiver SequenceNumber10

namespace Receiver

/-! ## Counters with one base -/

/-- The counters that move with `VR(R)` have it as their base. -/
structure Aligned (s : Receiver) : Prop where
  vrR : s.vrR.modulusBase = s.vrR.value
  vrX : s.vrX.modulusBase = s.vrR.value
  vrMs : s.vrMs.modulusBase = s.vrR.value
  vrH : s.vrH.modulusBase = s.vrR.value
  size : s.statusPduBufferSize ≤ 4

/-- All counters have it. -/
structure Based (s : Receiver) : Prop extends Aligned s where
  vrMr : s.vrMr.modulusBase = s.vrR.value

theorem post_true {ε α : Type} (x : Except ε α) : Post x fun _ => True := by
  cases x with
  | ok _ => trivial
  | error _ => trivial

section

variable {s : Receiver}

variable (h : s.Based)
include h

/-- The bases of the window are set already. -/
theorem Based.isInsideReceivingWindow (seqNumber : SequenceNumber10) :
    Post (s.isInsideReceivingWindow seqNumber) fun r => r.1 = s := by
  unfold Receiver.isInsideReceivingWindow
  dsimp only
  rw [setModulusBase_of_eq h.vrR, setModulusBase_of_eq h.vrMr]
  refine (post_true _).bind ?_
  intro above _
  split
  · refine (wp_map _ _ _ _).mpr ((post_true _).imp ?_)
    intro below _
    rfl
  · exact rfl

omit h in
/-- The base of a number that moves up stays. -/
theorem skipComplete_base (s : Receiver) (first : Fin 1024) (fuel : ℕ) (sn : SequenceNumber10) :
    Post (s.skipComplete first fuel sn) fun sn' => sn'.modulusBase = sn.modulusBase := by
  induction fuel generalizing sn with
  | zero => trivial
  | succ fuel ih =>
    unfold skipComplete
    split
    · split
      · trivial
      · exact ih sn.next
    · exact rfl

omit h in
/-- Whenever `VR(R)` moves up, the others take it as their base. -/
theorem Aligned.deliver (first : Fin 1024) (fuel : ℕ) (h : s.Aligned) :
    Post (deliver first fuel s) Aligned := by
  induction fuel generalizing s with
  | zero => trivial
  | succ fuel ih =>
    unfold deliver
    split
    · dsimp only
      split
      · trivial
      · exact ih ⟨rfl, rfl, rfl, rfl, h.size⟩
    · exact h

theorem Based.requestStatus (pollingBit : Bool) : (s.requestStatus pollingBit).Based := by
  unfold Receiver.requestStatus
  split
  · exact ⟨⟨h.vrR, h.vrX, h.vrMs, h.vrH, Nat.le_refl 4⟩, h.vrMr⟩
  · exact h

theorem Based.place (sn : Fin 1024) : (s.place sn).Based := by
  unfold Receiver.place
  split
  · exact h
  · exact ⟨{ h with }, h.vrMr⟩

theorem Based.updateVrH {seqNumber : SequenceNumber10} (hbase : seqNumber.modulusBase = s.vrR.value) :
    Post (s.updateVrH seqNumber) Based := by
  unfold Receiver.updateVrH
  refine (post_true _).bind ?_
  intro above _
  rw [wp_pure]
  split
  · exact ⟨⟨h.vrR, h.vrX, h.vrMs, hbase, h.size⟩, h.vrMr⟩
  · exact h

theorem Based.updateVrMs : Post s.updateVrMs Based := by
  unfold Receiver.updateVrMs
  refine (skipComplete_base s _ _ _).bind ?_
  intro vrMs hbase
  exact ⟨⟨h.vrR, h.vrX, hbase.trans h.vrMs, h.vrH, h.size⟩, h.vrMr⟩

theorem Based.updateVrR (seqNumber : SequenceNumber10) : Post (s.updateVrR seqNumber) Based := by
  unfold Receiver.updateVrR
  split
  · refine (h.toAligned.deliver _ _).bind ?_
    intro delivered hdelivered
    have hbase : ∀ delta, (delivered.vrR.add delta).modulusBase = delivered.vrR.value :=
      fun _ => hdelivered.vrR
    exact ⟨⟨hdelivered.vrR, hdelivered.vrX, hdelivered.vrMs, hdelivered.vrH, hdelivered.size⟩,
      hbase 512⟩
  · exact h

theorem Based.stopReordering : Post s.stopReordering Based := by
  unfold Receiver.stopReordering
  split
  · split
    · exact ⟨{ h with }, h.vrMr⟩
    · refine (h.isInsideReceivingWindow _).bind ?_
      rintro ⟨s', inside⟩ rfl
      rw [wp_pure]
      split
      · exact ⟨{ h with }, h.vrMr⟩
      · exact h
  · exact h

theorem Based.startReordering : Post s.startReordering Based := by
  unfold Receiver.startReordering
  split
  · exact h
  · refine (post_true _).bind ?_
    intro above _
    rw [wp_pure]
    split
    · exact ⟨⟨h.vrR, h.vrH, h.vrMs, h.vrH, h.size⟩, h.vrMr⟩
    · exact h

theorem Based.receiveData (sn : Fin 1024) (pollingBit : Bool) :
    Post (s.receiveData sn pollingBit) Based := by
  have hrequest := h.requestStatus pollingBit
  have hvrR : (s.requestStatus pollingBit).vrR = s.vrR := by
    unfold Receiver.requestStatus
    split
    · rfl
    · rfl
  unfold Receiver.receiveData
  refine (hrequest.isInsideReceivingWindow _).bind ?_
  rintro ⟨s', inside⟩ rfl
  dsimp only
  split
  · have hplace := hrequest.place sn
    have hplaced : ((s.requestStatus pollingBit).place sn).vrR = s.vrR := by
      unfold Receiver.place
      split
      · exact hvrR
      · exact hvrR
    refine (hplace.updateVrH ?_).bind ?_
    · rw [hplaced]
    · intro s₁ h₁
      refine h₁.updateVrMs.bind ?_
      intro s₂ h₂
      refine (h₂.updateVrR _).bind ?_
      intro s₃ h₃
      refine h₃.stopReordering.bind ?_
      intro s₄ h₄
      exact h₄.startReordering
  · exact hrequest

theorem Based.expireReorderingTimer : Post s.expireReorderingTimer Based := by
  unfold Receiver.expireReorderingTimer
  refine (skipComplete_base s _ _ _).bind ?_
  intro vrMs hbase
  refine (post_true _).bind ?_
  intro above _
  refine ⟨⟨h.vrR, ?_, hbase.trans h.vrX, h.vrH, h.size⟩, h.vrMr⟩
  show (if above = true then s.vrH else s.vrX).modulusBase = s.vrR.value
  split
  · exact h.vrH
  · exact h.vrX

theorem Based.doNotifyTxOpportunity (uninitialized : Octet) (bytes : ℕ) :
    Post (s.doNotifyTxOpportunity uninitialized bytes) fun r => r.1.Based := by
  unfold Receiver.doNotifyTxOpportunity
  split
  · trivial
  · split
    · split
      · trivial
      · refine (post_true _).bind ?_
        intro header _
        split
        · trivial
        · exact ⟨⟨h.vrR, h.vrX, h.vrMs, h.vrH, Nat.zero_le 4⟩, h.vrMr⟩
    · exact h

/-- **Every call** keeps the bases. -/
theorem Based.step (input : Input) : Post (s.step input) Based := by
  cases input with
  | receiveData sn pollingBit => exact h.receiveData sn pollingBit
  | expireReorderingTimer => exact h.expireReorderingTimer
  | expireStatusProhibitTimer => exact ⟨{ h with }, h.vrMr⟩
  | notifyTxOpportunity uninitialized bytes =>
    exact (wp_map _ _ _ _).mpr (h.doNotifyTxOpportunity uninitialized bytes)

omit h

/-- The counters of every receiver have one base. -/
theorem Reachable.based (h : Reachable s) : s.Based := by
  induction h with
  | create => exact ⟨⟨rfl, rfl, rfl, rfl, Nat.zero_le 4⟩, rfl⟩
  | call input _ hstep ih => exact (ih.step input).of_eq_ok hstep

end

/-! ## The numbers between `VR(R)` and `VR(MS)` -/

/-- Numbers from `first` on. -/
def numbers (first : Fin 1024) (count : ℕ) : List (Fin 1024) :=
  (List.range count).map fun i => tenBits (first.val + i)

/-- The numbers of them whose PDU is missing. -/
def missingOf (s : Receiver) (sns : List (Fin 1024)) : List (Fin 1024) :=
  sns.filter fun sn => !s.isComplete sn

/-- The numbers below `VR(MS)` whose PDU is missing. -/
def missing (s : Receiver) : List (Fin 1024) :=
  s.missingOf (numbers s.vrR.value (ahead s.vrR.value s.vrMs.value))

theorem numbers_succ (first : Fin 1024) (count : ℕ) :
    numbers first (count + 1) = first :: numbers (tenBits (first.val + 1)) count := by
  have hlt := first.isLt
  unfold numbers
  rw [range_succ_eq_map, map_cons, map_map]
  congr 1
  · apply Fin.ext
    show (first.val + 0) % 1024 = first.val
    omega
  · apply map_congr_left
    intro i _
    apply Fin.ext
    show (first.val + (i + 1)) % 1024 = ((first.val + 1) % 1024 + i) % 1024
    omega

theorem length_missing_le (s : Receiver) : s.missing.length ≤ 1023 := by
  have hahead := ahead_lt s.vrR.value s.vrMs.value
  have hfilter := length_filter_le (fun sn => !s.isComplete sn)
    (numbers s.vrR.value (ahead s.vrR.value s.vrMs.value))
  have hnumbers : (numbers s.vrR.value
      (ahead s.vrR.value s.vrMs.value)).length ≤ 1023 := by
    unfold numbers
    rw [length_map, length_range]
    omega
  exact hfilter.trans hnumbers

/-! ## How many NACKs are pushed -/

/-- One more NACK passes the test behind `count` of them. -/
def WouldFit (bytes count : ℕ) : Prop :=
  2 + LengthFields.fieldOctets count + count % 2 < bytes

instance (bytes count : ℕ) : Decidable (WouldFit bytes count) := inferInstanceAs (Decidable (_ < _))

/-- From `count` NACKs to `count'`, with `missing` numbers ahead. -/
structure Pushed (bytes count missing count' : ℕ) : Prop where
  le : count ≤ count'
  le_add : count' ≤ count + missing
  fits : ∀ k, count ≤ k → k < count' → WouldFit bytes k
  stops : count' = count + missing ∨ ¬ WouldFit bytes count'

theorem Pushed.refl_of_not {bytes count missing : ℕ} (h : ¬ WouldFit bytes count) :
    Pushed bytes count missing count :=
  ⟨Nat.le_refl _, Nat.le_add_right _ _, fun _ hle hlt => absurd hle (Nat.not_le_of_lt hlt),
    Or.inr h⟩

/-- One NACK, and the others. -/
theorem Pushed.push {bytes count missing count' : ℕ} (hfit : WouldFit bytes count)
    (h : Pushed bytes (count + 1) missing count') : Pushed bytes count (missing + 1) count' := by
  have hle := h.le
  have hle' := h.le_add
  refine ⟨by omega, by omega, ?_, ?_⟩
  · intro k hk hk'
    rcases Nat.eq_or_lt_of_le hk with rfl | hmore
    · exact hfit
    · exact h.fits k hmore hk'
  · rcases h.stops with hall | hnot
    · exact Or.inl (by omega)
    · exact Or.inr hnot

/-- `OneMoreNackWouldFitIn`, as long as the length can be counted. -/
theorem oneMoreNackWouldFitIn_eq {h : AmHeader} {nacks : List (BitVec 32)} (hs : h.IsStatus nacks)
    (hcount : nacks.length ≤ 1023) (bytes : BitVec 16) :
    h.oneMoreNackWouldFitIn bytes = some (decide (WouldFit bytes.toNat nacks.length)) := by
  have hlength : h.lengths.headerLength.toNat = 2 + LengthFields.fieldOctets nacks.length :=
    hs.getSerializedSize_eq_iff.mpr (by omega)
  unfold AmHeader.oneMoreNackWouldFitIn
  rw [if_pos hs.isStatusPdu, hs.nackSnList, hlength]
  split
  · apply congrArg some
    apply decide_eq_decide.mpr
    unfold WouldFit
    omega
  · apply congrArg some
    apply decide_eq_decide.mpr
    unfold WouldFit
    omega

section

variable {s : Receiver}

/-- **The loop over the numbers** pushes a NACK for each missing one while the test passes. -/
theorem Based.nackMissing (hs : s.Based) (bytes : BitVec 16) {fuel remaining : ℕ}
    {sn : SequenceNumber10} {h : AmHeader} {nacks : List (BitVec 32)} (hfuel : remaining < fuel)
    (hbase : sn.modulusBase = s.vrR.value)
    (hremaining : ahead s.vrR.value sn.value + remaining =
      ahead s.vrR.value s.vrMs.value) (hstatus : h.IsStatus nacks)
    (hcount : nacks.length + remaining ≤ 1023) :
    ∃ sn' h' nacks', s.nackMissing bytes fuel sn h = .ok (sn', h') ∧ h'.IsStatus nacks' ∧
      sn'.modulusBase = s.vrR.value ∧
      ahead s.vrR.value sn'.value ≤
        ahead s.vrR.value s.vrMs.value ∧
      Pushed bytes.toNat nacks.length (s.missingOf (numbers sn.value remaining)).length
        nacks'.length := by
  induction remaining generalizing fuel sn h nacks with
  | zero =>
    obtain ⟨fuel, rfl⟩ := Nat.exists_eq_succ_of_ne_zero (Nat.ne_of_gt hfuel)
    have hlt := lt_eq (hbase.trans hs.vrMs.symm)
    rw [hbase] at hlt
    refine ⟨sn, h, nacks, ?_, hstatus, hbase, by omega, ?_⟩
    · unfold Receiver.nackMissing
      rw [hlt, decide_eq_false (by omega)]
      rfl
    · exact ⟨Nat.le_refl _, Nat.le_refl _, fun _ hle hless => absurd hle (Nat.not_le_of_lt hless),
        Or.inl rfl⟩
  | succ remaining ih =>
    obtain ⟨fuel, rfl⟩ := Nat.exists_eq_succ_of_ne_zero (Nat.ne_of_gt (Nat.zero_lt_of_lt hfuel))
    have hmax := ahead_lt s.vrR.value s.vrMs.value
    have hlt := lt_eq (hbase.trans hs.vrMs.symm)
    rw [hbase] at hlt
    have hnext := ahead_next
      (show ahead s.vrR.value sn.value < 1023 by omega)
    have hremaining' : ahead s.vrR.value sn.next.value + remaining =
        ahead s.vrR.value s.vrMs.value := by
      show ahead s.vrR.value (tenBits (sn.value.val + 1)) + remaining = _
      omega
    have hbase' : sn.next.modulusBase = s.vrR.value := hbase
    unfold Receiver.nackMissing
    rw [hlt, decide_eq_true (by omega), oneMoreNackWouldFitIn_eq hstatus (by omega)]
    dsimp only [compare, Except.mapError, bind, Except.bind]
    rw [if_pos rfl, numbers_succ]
    by_cases hfit : WouldFit bytes.toNat nacks.length
    · rw [decide_eq_true hfit]
      dsimp only
      by_cases hcomplete : s.isComplete sn.value = true
      · rw [if_pos hcomplete]
        have hmissing : s.missingOf (sn.value :: numbers (tenBits (sn.value.val + 1)) remaining) =
            s.missingOf (numbers sn.next.value remaining) :=
          filter_cons_of_neg (by rw [hcomplete]; decide)
        rw [hmissing]
        exact ih (by omega) hbase' hremaining' hstatus (by omega)
      · obtain ⟨pushed, hpush, hpushed, -⟩ := hstatus.pushNack (BitVec.ofNat 32 sn.value)
        have hmissing : s.missingOf (sn.value :: numbers (tenBits (sn.value.val + 1)) remaining) =
            sn.value :: s.missingOf (numbers sn.next.value remaining) :=
          filter_cons_of_pos (by rw [Bool.eq_false_iff.mpr hcomplete]; decide)
        have hlength : (nacks ++ [BitVec.ofNat 32 sn.value.val]).length = nacks.length + 1 := by
          rw [length_append, length_singleton]
        obtain ⟨sn', h', nacks', hrun, hstatus', hbase', hahead, hdone⟩ :=
          ih (Nat.lt_of_succ_lt_succ hfuel) hbase' hremaining' hpushed (by omega)
        rw [if_neg hcomplete, hpush, hmissing]
        rw [hlength] at hdone
        exact ⟨sn', h', nacks', hrun, hstatus', hbase', hahead, hdone.push hfit⟩
    · rw [decide_eq_false hfit]
      exact ⟨sn, h, nacks, rfl, hstatus, hbase, by omega, Pushed.refl_of_not hfit⟩

/-- The loop that finds ACK_SN stops at `VR(MS)`. -/
theorem Based.findAckSn (hs : s.Based) {fuel : ℕ} {sn : SequenceNumber10}
    (hbase : sn.modulusBase = s.vrR.value)
    (hahead : ahead s.vrR.value sn.value ≤
      ahead s.vrR.value s.vrMs.value)
    (hfuel : ahead s.vrR.value s.vrMs.value <
      ahead s.vrR.value sn.value + fuel) :
    ∃ sn', s.findAckSn fuel sn = .ok sn' ∧ sn'.modulusBase = s.vrR.value ∧
      ahead s.vrR.value sn'.value ≤
        ahead s.vrR.value s.vrMs.value := by
  induction fuel generalizing sn with
  | zero => omega
  | succ fuel ih =>
    have hlt := lt_eq (hbase.trans hs.vrMs.symm)
    rw [hbase] at hlt
    unfold Receiver.findAckSn
    rw [hlt]
    dsimp only [compare, Except.mapError, bind, Except.bind]
    split
    · rename_i hgo
      have hless := of_decide_eq_true (Bool.and_eq_true_iff.mp hgo).1
      have hmax := ahead_lt s.vrR.value s.vrMs.value
      have hnext : ahead s.vrR.value sn.next.value =
          ahead s.vrR.value sn.value + 1 :=
        ahead_next (by omega)
      have hbase' : sn.next.modulusBase = s.vrR.value := hbase
      exact ih hbase' (by omega) (by omega)
    · exact ⟨sn, rfl, hbase, hahead⟩

/-- **The STATUS PDU** is always built, with as many NACKs as are pushed. -/
theorem Based.statusHeader (hs : s.Based) (uninitialized : Octet) (bytes : ℕ) :
    ∃ h nacks, s.statusHeader uninitialized bytes = .ok h ∧ h.IsStatus nacks ∧
      Pushed (bytes % 2 ^ 16) 0 s.missing.length nacks.length := by
  have hself := ahead_self s.vrR.value
  have hmax := ahead_lt s.vrR.value s.vrMs.value
  have hfuel : ahead s.vrR.value s.vrMs.value < 1025 := by omega
  obtain ⟨sn, h, nacks, hrun, hstatus, hbase, hahead, hpushed⟩ :=
    hs.nackMissing (BitVec.ofNat 16 bytes) hfuel hs.vrR (by rw [hself, Nat.zero_add])
      (AmHeader.isStatus_setControlPdu uninitialized) (by rw [length_nil]; omega)
  have hfuel' : ahead s.vrR.value s.vrMs.value <
      ahead s.vrR.value sn.value + 1025 := by omega
  obtain ⟨sn', hrun', hbase', hahead'⟩ := hs.findAckSn hbase hahead hfuel'
  have hle := le_eq (hbase'.trans hs.vrMs.symm)
  rw [hbase', decide_eq_true hahead'] at hle
  refine ⟨h.setAckSn sn', nacks, ?_, hstatus.setAckSn sn', ?_⟩
  · unfold Receiver.statusHeader
    dsimp only
    rw [hrun]
    dsimp only [bind, Except.bind]
    rw [hrun']
    dsimp only
    rw [hle]
    rfl
  · rw [BitVec.toNat_ofNat] at hpushed
    exact hpushed

end

/-! ## What is expected -/

/-- The STATUS PDU is built, and it is not larger than the opportunity. -/
def StatusFits (s : Receiver) (bytes : ℕ) : Prop :=
  ∀ uninitialized, ∃ s' pdu, s.doNotifyTxOpportunity uninitialized bytes = .ok (s', some pdu) ∧
    pdu.length ≤ bytes

/-- Where the test lets one NACK too many pass: an even number of them leaves one octet, and there
is another missing number. -/
def Exceeds (s : Receiver) (bytes : ℕ) : Prop :=
  bytes < 2 ^ 16 ∧ 3 ∣ bytes ∧ 2 * (bytes / 3) ≤ s.missing.length + 1

/-- The octets of so many NACKs. -/
theorem Pushed.le_iff {bytes missing count : ℕ} (h : Pushed (bytes % 2 ^ 16) 0 missing count)
    (hbytes : 4 ≤ bytes) (hmissing : missing ≤ 1023) :
    2 + LengthFields.fieldOctets count ≤ bytes ↔
      ¬ (bytes < 2 ^ 16 ∧ 3 ∣ bytes ∧ 2 * (bytes / 3) ≤ missing + 1) := by
  have hadd := h.le_add
  have hfits := h.fits
  have hstops := h.stops
  unfold WouldFit LengthFields.fieldOctets at *
  rcases Nat.lt_or_ge bytes (2 ^ 16) with hsmall | hlarge
  · rw [Nat.mod_eq_of_lt hsmall] at hfits hstops
    constructor
    · rintro hle ⟨-, hthree, hmany⟩
      -- the loop goes on until the last NACK takes two octets
      rcases hstops with hall | hnot
      · omega
      · omega
    · intro hnot
      rcases Nat.eq_zero_or_pos count with hzero | hpos
      · omega
      · have hlast := hfits (count - 1) (Nat.zero_le _) (by omega)
        by_contra hlarge
        apply hnot
        refine ⟨hsmall, ?_, ?_⟩
        · omega
        · omega
  · omega

theorem Based.statusFits_iff {s : Receiver} (hs : s.Based)
    (hrequested : s.statusPduRequested = true) (hprohibit : s.statusProhibitTimer = false) {bytes : ℕ} (hbytes : 4 ≤ bytes) :
    s.StatusFits bytes ↔ ¬ s.Exceeds bytes := by
  have hsize := hs.size
  have hrun (uninitialized : Octet) : ∃ s' pdu,
      s.doNotifyTxOpportunity uninitialized bytes = .ok (s', some pdu) ∧
        (pdu.length ≤ bytes ↔ ¬ s.Exceeds bytes) := by
    obtain ⟨h, nacks, hheader, hstatus, hpushed⟩ := hs.statusHeader uninitialized bytes
    have hgo : s.statusPduRequested = true ∧ ¬ s.statusProhibitTimer = true := by
      rw [hprohibit]
      exact ⟨hrequested, Bool.false_ne_true⟩
    refine ⟨{ s with
      statusPduRequested := false
      statusPduBufferSize := 0
      statusProhibitTimer := true }, h.statusOctets nacks, ?_, ?_⟩
    · unfold Receiver.doNotifyTxOpportunity
      rw [if_neg (Nat.not_lt_of_le hbytes), if_pos hgo,
        if_neg (Nat.not_lt_of_le (hsize.trans hbytes)), hheader]
      dsimp only [bind, Except.bind]
      rw [hstatus.serialize_eq]
      rfl
    · rw [AmHeader.length_statusOctets]
      exact hpushed.le_iff hbytes s.length_missing_le
  constructor
  · intro hfits
    obtain ⟨s', pdu, hpdu, hlength⟩ := hfits 0
    obtain ⟨s'', pdu', hpdu', hiff⟩ := hrun 0
    rw [hpdu] at hpdu'
    cases hpdu'
    exact hiff.mp hlength
  · intro hnot uninitialized
    obtain ⟨s', pdu, hpdu, hiff⟩ := hrun uninitialized
    exact ⟨s', pdu, hpdu, hiff.mpr hnot⟩

/-! ## Three lost PDUs -/

/-- PDUs 0 to 2 are lost, and PDU 3 arrives. -/
def threeLost : Receiver :=
  { vrX := ⟨tenBits 4, tenBits 0⟩
    vrH := ⟨tenBits 4, tenBits 0⟩
    rxonBuffer := Function.update (fun _ => none) (tenBits 3) (some true)
    reorderingTimer := true
    statusPduRequested := true
    statusPduBufferSize := 4 }

/-- The reordering timer expires. -/
def threeMissing : Receiver :=
  { threeLost with vrMs := ⟨tenBits 4, tenBits 0⟩, reorderingTimer := false }

theorem reachable_threeMissing : Reachable threeMissing := by
  have hlost : Reachable threeLost := .call (.receiveData (tenBits 3) true) .create rfl
  exact .call .expireReorderingTimer hlost rfl

theorem requested_threeMissing : threeMissing.statusPduRequested = true := rfl

theorem not_prohibited_threeMissing : threeMissing.statusProhibitTimer = false := rfl

theorem length_missing_threeMissing : threeMissing.missing.length = 3 := by
  decide +kernel

end Receiver

/-- **When the header comes back and the STATUS PDU fits**: a data PDU if the upper octet of its
segment offset is clear and its length can be counted, a STATUS PDU if its length can be counted;
and a STATUS PDU fits its opportunity unless a NACK too many passes the test. -/
theorem amHeader_roundTrips_iff_and_statusFits_iff (uninitialized : Octet) (d : AmHeader.DataFields)
    (hlis : ∀ li ∈ d.lengthIndicators, li.toNat < 2048) (ackSn : SequenceNumber10)
    (nacks : List (BitVec 32)) (hnacks : ∀ nack ∈ nacks, nack.toNat < 1024) {s : Receiver}
    (hs : s.Reachable) (hrequested : s.statusPduRequested = true)
    (hprohibit : s.statusProhibitTimer = false) {bytes : ℕ} (hbytes : 4 ≤ bytes) :
    ((AmHeader.ofData uninitialized d).RoundTrips AmHeader.SameData ↔
        (d.segmentOffset &&& 0x7FFF).toNat < 256 ∧ d.lengthIndicators.length ≤ 43687) ∧
      (∃ h, AmHeader.ofStatus uninitialized ackSn nacks = some h ∧ h.ackSn = ackSn ∧
        h.nackSnList = nacks ∧ (h.RoundTrips AmHeader.SameStatus ↔ nacks.length ≤ 43688)) ∧
      (s.StatusFits bytes ↔ ¬ s.Exceeds bytes) := by
  obtain ⟨h, hbuilt, hstatus, hack⟩ := AmHeader.exists_ofStatus uninitialized ackSn nacks
  refine ⟨(AmHeader.isData_ofData uninitialized d).readsBack_iff hlis,
    ⟨h, hbuilt, hack, hstatus.nackSnList, hstatus.readsBack_iff hnacks⟩, ?_⟩
  exact hs.based.statusFits_iff hrequested hprohibit hbytes

/-- Three length indicators behind an offset of 5, three NACKs, and an opportunity of seven octets
for three missing PDUs. -/
theorem amHeader_roundTrips_iff_and_statusFits_iff_sample :
    (AmHeader.ofData 0 ⟨{}, 2, 1, 0, 1, 5, [7, 2047, 1]⟩).RoundTrips AmHeader.SameData ∧
    (∃ h, AmHeader.ofStatus 0 {} [1, 1023, 5] = some h ∧ h.RoundTrips AmHeader.SameStatus) ∧
    threeMissing.StatusFits 7 := by
  obtain ⟨hdata, ⟨h, hbuilt, -, -, hstatus⟩, hfits⟩ :=
    amHeader_roundTrips_iff_and_statusFits_iff 0 ⟨{}, 2, 1, 0, 1, 5, [7, 2047, 1]⟩ (by simp) {}
      [1, 1023, 5] (by simp) reachable_threeMissing requested_threeMissing
      not_prohibited_threeMissing (show 4 ≤ 7 by decide)
  refine ⟨hdata.mpr ⟨by decide, by decide⟩, ⟨h, hbuilt, hstatus.mpr (by decide)⟩, ?_⟩
  apply hfits.mpr
  rintro ⟨-, hthree, -⟩
  exact absurd hthree (by decide)

/-- An offset of 256 octets does not come back, and three missing PDUs take seven octets of six. -/
theorem not_roundTrips_and_not_statusFits : (¬ ∀ (uninitialized : Octet) (d : AmHeader.DataFields),
      (∀ li ∈ d.lengthIndicators, li.toNat < 2048) →
        (AmHeader.ofData uninitialized d).RoundTrips AmHeader.SameData) ∧
    ¬ ∀ s : Receiver, s.Reachable → s.statusPduRequested = true →
      s.statusProhibitTimer = false → ∀ bytes, 4 ≤ bytes → s.StatusFits bytes := by
  constructor
  · intro hall
    have hreads := hall 0 ⟨{}, 0, 1, 0, 0, 256, []⟩ (by simp)
    have hoffset := ((AmHeader.isData_ofData 0 _).readsBack_iff (by simp)).mp hreads
    exact absurd hoffset.1 (by decide)
  · intro hall
    have hfits := hall threeMissing reachable_threeMissing
      requested_threeMissing not_prohibited_threeMissing 6 (by decide)
    have hiff := reachable_threeMissing.based.statusFits_iff
      requested_threeMissing not_prohibited_threeMissing
      (show 4 ≤ 6 by decide)
    refine hiff.mp hfits ⟨by decide, by decide, ?_⟩
    rw [length_missing_threeMissing]

end Ns3Dsme.Lte
