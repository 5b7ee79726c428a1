/-
# The SACK list of the receive buffer

The blocks of the list are parts of what is stored behind RCV.NXT, and the first one is about the
last packet.  `UpdateSackList` joins blocks only where they touch: the list has overlapping blocks as
soon as a segment swallows a packet that a block reports.
-/
import Ns3Dsme.Internet.TcpRxDelivery

open List Program Intervals

namespace Ns3Dsme.Internet

open Network SequenceNumber32

namespace RxRun

/-- The position is in a block of the SACK list. -/
def Reports (c : ByteStream) (w : RxRun) (x : ℕ) : Prop :=
  ∃ block ∈ w.buffer.sackList, block.1.le (c.seq x) = true ∧ (c.seq x).lt block.2 = true

/-- The segment is behind a gap, and a stored packet, some of which is reported, lies strictly
inside the part of it that is in the window. -/
def Swallows (c : ByteStream) (w : RxRun) : RxCall → Prop
  | .add x len => w.rcvNxt c < x ∧ ∃ y z, (c.seq y, c.slice y z) ∈ w.buffer.data ∧ x < y ∧ y < z ∧
      z < x + len ∧ (∀ e, w.storedEnd c = some e → z < e) ∧
        ∃ v, y ≤ v ∧ v < z ∧ w.Reports c v
  | .fin => False
  | .extract _ => False

/-- What is promised of the SACK list: at most four blocks of octets that are stored behind RCV.NXT,
which neither overlap nor touch. -/
structure SackTruthful (c : ByteStream) (w : RxRun) : Prop where
  length : w.buffer.sackList.length ≤ 4
  blocks : ∃ sb : List (ℕ × ℕ), w.buffer.sackList = sb.map c.block ∧
    (∀ p ∈ sb, w.rcvNxt c < p.1 ∧ p.1 < p.2 ∧ Near p.2 (w.rcvNxt c) ∧
      ∀ x, p.1 ≤ x → x < p.2 → w.Holds c x) ∧
    sb.Pairwise fun p q => p.2 < q.1 ∨ q.2 < p.1

/-- A packet that was stored behind a gap is in the first block. -/
def ReportsFirst (w w' : RxRun) : Prop :=
  ∀ q ∈ w'.buffer.data, q ∉ w.buffer.data → q.1.gt w.buffer.nextRxSeq = true →
    ∃ block, w'.buffer.sackList.head? = some block ∧ block.1.le q.1 = true ∧
      (TcpRxBuffer.lastByteSeq q).le block.2 = true

/-- The invariant, with blocks that are apart. -/
structure SackInv (c : ByteStream) (w : RxRun) (ps sb : List (ℕ × ℕ)) : Prop where
  inv : w.Inv c ps sb
  length : sb.length ≤ 4
  apart : sb.Pairwise BlockList.Apart

section

variable {c : ByteStream} {w w' : RxRun} {ps sb ps' : List (ℕ × ℕ)} {x e : ℕ} {q : ℕ × ℕ}

/-! ## What `Add` reports -/

theorem length_report (b : ℕ × ℕ) (h : sb.length ≤ 4) : (ByteStream.report b sb).length ≤ 4 := by
  have hgather : (BlockList.gather sb.length b sb).length ≤ sb.length + 1 :=
    BlockList.length_gather sb.length
  unfold ByteStream.report
  split
  · rw [length_dropLast]
    omega
  · omega

namespace Inv

/-- A block that overlaps what is stored reports something that is swallowed. -/
theorem swallows_of_overlap (h : w.Inv c ps sb) (hnew : New w c ps x e ps' q) (hgap : w.next < q.1)
    {len : ℕ} (hlen : x + len ≤ c.octets.length) (hle : e ≤ x + len)
    (hwindow : ∀ y ∈ w.storedEnd c, e ≤ y) {p : ℕ × ℕ} (hp : p ∈ sb)
    (hoverlap : ¬ BlockList.Clear q p) : Swallows c w (.add x len) := by
  unfold BlockList.Clear at hoverlap
  rw [not_or, not_le, not_le] at hoverlap
  have hstart := h.start_le
  have hcases := h.rcvNxt_cases
  have hlt := hnew.lt
  have hlast := hnew.le
  obtain ⟨hbehind, hne, hcov⟩ := h.blocks p hp
  -- the octet at RCV.NXT is missing: the segment starts behind it
  have hstarts : w.next < x := by
    by_contra hbelow
    rcases (hnew.covers w.next).mp (Or.inr ⟨by omega, by omega⟩) with
      ⟨r, hr, hcov⟩ | ⟨hlow, -⟩
    · exact h.missing ⟨r, hnew.sublist.subset hr, hcov⟩
    · omega
  -- an octet that the block has in common with what is stored
  obtain ⟨v, hv⟩ : ∃ v, v = max q.1 p.1 := ⟨_, rfl⟩
  obtain ⟨r, hr, hlow, hhigh⟩ := hcov v (by omega) (by omega)
  have hgone : r ∉ ps' := by
    intro hstays
    have hapart := hnew.apart r hstays
    omega
  obtain ⟨hinside, hinside'⟩ := hnew.removed r hr hgone
  obtain ⟨hbase, hne', hhalf, -⟩ := h.inside r hr
  obtain ⟨r', hr', hlow', hhigh'⟩ := hcov (p.2 - 1) (by omega) (by omega)
  have hend := h.inside r' hr'
  refine ⟨by omega, r.1, r.2, ?_, by omega, hne', by omega, fun y hy => ?_, v, hlow, hhigh, c.block p, ?_,
    ?_, ?_⟩
  · rw [h.data]
    exact mem_map_of_mem hr
  · have hy' := hwindow y hy
    omega
  · rw [h.sackList]
    exact mem_map_of_mem hp
  · have hle' : (c.seq p.1).le (c.seq v) = decide (p.1 ≤ v) :=
      le_ofPos (ByteStream.near_of_mem (z := w.extracted.length) (by omega) (by omega))
    exact hle'.trans (decide_eq_true (by omega))
  · have hlt' : (c.seq v).lt (c.seq p.2) = decide (v < p.2) :=
      lt_ofPos (ByteStream.near_of_mem (z := w.extracted.length) (by omega) (by omega))
    exact hlt'.trans (decide_eq_true (by omega))

/-- **Nothing that is reported is swallowed**: the blocks stay apart. -/
theorem pairwise_reported (h : w.Inv c ps sb) (hnew : New w c ps x e ps' q) {len : ℕ}
    (hlen : x + len ≤ c.octets.length) (hle : e ≤ x + len) (hwindow : ∀ y ∈ w.storedEnd c, e ≤ y)
    (hswallows : ¬ Swallows c w (.add x len)) (hapart : sb.Pairwise BlockList.Apart) :
    (reported w sb q).Pairwise BlockList.Apart := by
  unfold reported
  split
  · rename_i hgap
    refine List.Pairwise.sublist (ByteStream.report_sublist q sb) ?_
    apply BlockList.pairwise_gather
    · exact Nat.le_refl _
    · exact hnew.lt
    · exact fun p hp => (h.blocks p hp).2.1
    · exact hapart
    · intro p hp
      by_contra hoverlap
      exact hswallows (h.swallows_of_overlap hnew hgap hlen hle hwindow hp hoverlap)
  · exact hapart

/-- The first block after a packet was stored behind a gap. -/
theorem head_reported (h : w.Inv c ps sb) (hnew : New w c ps x e ps' q) (hgap : w.next < q.1) :
    ∃ p rest, (reported w sb q).filter (fun p =>
        decide (Intervals.reach (Intervals.insert q ps') w.next < p.2)) = p :: rest ∧
      p.1 ≤ q.1 ∧ q.2 ≤ p.2 := by
  have hblocks : ∀ p ∈ sb, p.1 < p.2 := fun p hp => (h.blocks p hp).2.1
  obtain ⟨p, rest, hgather, hlow, hhigh⟩ := BlockList.head_gather sb.length hnew.lt hblocks
  have hlt := hnew.lt
  -- RCV.NXT stays where it is
  obtain ⟨hreach, hcovered, -⟩ := hnew.reach h
  have hstop : Intervals.reach (Intervals.insert q ps') w.next = w.next := by
    by_contra hmoved
    have hstart := h.start_le
    rcases (hnew.covers_insert w.next).mp (hcovered w.next hstart (by omega)) with hcov | ⟨-, -⟩
    · exact h.missing hcov
    · rcases (Intervals.covers_insert q ps' w.next).mp (hcovered w.next hstart (by omega)) with
        hcov | ⟨r, hr, hr'⟩
      · omega
      · exact h.missing ⟨r, hnew.sublist.subset hr, hr'⟩
  have hhead : ∃ rest', reported w sb q = p :: rest' := by
    unfold reported ByteStream.report
    rw [if_pos hgap, hgather]
    split
    · rename_i hfour
      cases rest with
      | nil =>
        rw [length_singleton] at hfour
        omega
      | cons r rest => exact ⟨_, rfl⟩
    · exact ⟨rest, rfl⟩
  obtain ⟨rest', hrest⟩ := hhead
  refine ⟨p, rest'.filter fun p => decide (w.next < p.2), ?_, hlow, hhigh⟩
  rw [hstop, hrest, filter_cons, if_pos (decide_eq_true (by omega))]

end Inv

/-! ## One call -/

/-- **`Add`** keeps the blocks apart, unless it swallows something that is reported. -/
theorem SackInv.add (h : SackInv c w ps sb) (hM : c.maxBuffer.toNat < 2 ^ 31) {len : ℕ}
    (henabled : Enabled c w (.add x len)) (hfits : Fits c w (.add x len))
    (hswallows : ¬ Swallows c w (.add x len)) :
    ∃ w' ps' sb', step c w (.add x len) = .ok w' ∧ SackInv c w' ps' sb' := by
  obtain ⟨w', ps', sb', hstep, hinv, hstores⟩ := h.inv.exists_add hM henabled hfits
  refine ⟨w', ps', sb', hstep, hinv, ?_, ?_⟩
  · cases hstores with
    | nothing => exact h.length
    | new e ps' q hnew hle hwindow =>
      refine (length_filter_le _ _).trans ?_
      unfold Inv.reported
      split
      · exact length_report q h.length
      · exact h.length
  · cases hstores with
    | nothing => exact h.apart
    | new e ps' q hnew hle hwindow =>
      refine List.Pairwise.sublist filter_sublist ?_
      exact h.inv.pairwise_reported hnew henabled.1 hle hwindow hswallows h.apart

theorem SackInv.step (h : SackInv c w ps sb) (hM : c.maxBuffer.toNat < 2 ^ 31) {call : RxCall}
    (henabled : Enabled c w call) (hfits : Fits c w call) (hswallows : ¬ Swallows c w call) :
    ∃ w' ps' sb', RxRun.step c w call = .ok w' ∧ SackInv c w' ps' sb' := by
  cases call with
  | add x len => exact h.add hM henabled hfits hswallows
  | fin =>
    obtain ⟨w', ps', hstep, hinv⟩ := h.inv.exists_fin henabled
    exact ⟨w', ps', sb, hstep, hinv, h.length, h.apart⟩
  | extract maxSize =>
    obtain ⟨w', ps', hstep, hinv⟩ := h.inv.exists_extract hfits
    exact ⟨w', ps', sb, hstep, hinv, h.length, h.apart⟩

theorem extracted_of_add {len : ℕ} (hstep : RxRun.step c w (.add x len) = .ok w') :
    w'.extracted = w.extracted := by
  simp only [RxRun.step] at hstep
  cases hadd : w.buffer.add (c.slice x (x + len)) (c.seq x) with
  | error f =>
    rw [hadd] at hstep
    cases hstep
  | ok r =>
    rw [hadd] at hstep
    cases hstep
    rfl

/-- **The last packet comes first.** -/
theorem Inv.reportsFirst (h : w.Inv c ps sb) (hM : c.maxBuffer.toNat < 2 ^ 31) {len : ℕ}
    (henabled : Enabled c w (.add x len)) (hfits : Fits c w (.add x len))
    (hstep : RxRun.step c w (.add x len) = .ok w') : ReportsFirst w w' := by
  obtain ⟨w'', ps', sb', hstep', hinv, hstores⟩ := h.exists_add hM henabled hfits
  rw [hstep] at hstep'
  cases hstep'
  intro r hr hnot hgt
  rw [hinv.data] at hr
  rw [h.data] at hnot
  obtain ⟨p, hp, rfl⟩ := mem_map.mp hr
  cases hstores with
  | nothing => exact absurd (mem_map_of_mem hp) hnot
  | new e ps' q hnew hle hwindow =>
    rcases mem_cons.mp ((perm_insert q ps').subset hp) with rfl | hp
    · obtain ⟨hbase, hne, hhalf, hlen⟩ := hinv.inside p hp
      have hnext := h.next_le
      have hstart := h.start_le
      have hcases := h.rcvNxt_cases
      have hsame := congrArg List.length (extracted_of_add hstep)
      rw [hsame] at hbase hhalf
      have hlow := hnew.start
      have hgap : w.next < p.1 := by
        have hgt' : (c.seq p.1).gt (c.seq (w.rcvNxt c)) = decide (w.rcvNxt c < p.1) :=
          gt_ofPos ⟨by omega, by omega⟩
        rw [h.nextRxSeq] at hgt
        have hbehind := of_decide_eq_true (hgt'.symm.trans hgt)
        omega
      obtain ⟨r, rest, hfilter, hlow, hhigh⟩ := h.head_reported hnew hgap
      obtain ⟨hbehind, hne', hcov⟩ := hinv.blocks r (by rw [hfilter]; exact mem_cons_self)
      obtain ⟨u, hu, -, hu'⟩ := hcov (r.2 - 1) (by omega) (by omega)
      obtain ⟨-, -, hend, -⟩ := hinv.inside u hu
      rw [hsame] at hend
      have hlow' := hinv.start_le
      have hmoved := (hnew.reach h).1
      refine ⟨c.block r, ?_, ?_, ?_⟩
      · rw [hinv.sackList, hfilter]
        rfl
      · have hle' : (c.seq r.1).le (c.seq p.1) = decide (r.1 ≤ p.1) :=
          le_ofPos (ByteStream.near_of_mem (z := w.extracted.length) (by omega) (by omega))
        exact hle'.trans (decide_eq_true hlow)
      · rw [ByteStream.lastByteSeq_packet hne hlen]
        have hle' : (c.seq p.2).le (c.seq r.2) = decide (p.2 ≤ r.2) :=
          le_ofPos (ByteStream.near_of_mem (z := w.extracted.length) (by omega) (by omega))
        exact hle'.trans (decide_eq_true hhigh)
    · exact absurd (mem_map_of_mem (hnew.sublist.subset hp)) hnot

theorem SackInv.truthful (h : SackInv c w ps sb) : w.SackTruthful c := by
  constructor
  · rw [h.inv.sackList, length_map]
    exact h.length
  · refine ⟨sb, h.inv.sackList, fun p hp => ?_, h.apart⟩
    obtain ⟨hbehind, hne, hcov⟩ := h.inv.blocks p hp
    obtain ⟨r, hr, -, hhigh⟩ := hcov (p.2 - 1) (by omega) (by omega)
    have hr' := h.inv.inside r hr
    have hstart := h.inv.start_le
    have hnext := h.inv.next_le
    have hcases := h.inv.rcvNxt_cases
    refine ⟨by omega, hne, ⟨by omega, by omega⟩, fun x hx hx' => h.inv.holds (hcov x hx hx')⟩

end

/-! ## Over a run -/

def reports (c : ByteStream) (w : RxRun) (x : ℕ) : Bool :=
  w.buffer.sackList.any fun block => block.1.le (c.seq x) && (c.seq x).lt block.2

/-- The packet is stored at these positions, and some of it is reported. -/
def isReported (c : ByteStream) (w : RxRun) (y z : ℕ) : Bool :=
  w.buffer.data.any (fun q => decide (q = (c.seq y, c.slice y z))) &&
    (List.range z).any fun v => decide (y ≤ v) && reports c w v

/-- The test for `Swallows`. -/
def swallows (c : ByteStream) (w : RxRun) : RxCall → Bool
  | .add x len => decide (w.rcvNxt c < x) && (List.range (x + len)).any fun z =>
      (List.range z).any fun y => decide (x < y) && isReported c w y z
  | .fin => false
  | .extract _ => false

theorem swallows_of_eq {c : ByteStream} {w : RxRun} {call : RxCall}
    (htest : swallows c w call = false) : ¬ Swallows c w call := by
  intro h
  cases call with
  | add x len =>
    obtain ⟨hgap, y, z, hdata, hlow, hne, hhigh, -, v, hv, hv', block, hblock, hle, hlt⟩ := h
    apply Bool.eq_false_iff.mp htest
    have hreports : reports c w v = true :=
      any_eq_true.mpr ⟨block, hblock, Bool.and_eq_true_iff.mpr ⟨hle, hlt⟩⟩
    have hreported : isReported c w y z = true := by
      apply Bool.and_eq_true_iff.mpr
      constructor
      · exact any_eq_true.mpr ⟨_, hdata, decide_eq_true rfl⟩
      · refine any_eq_true.mpr ⟨v, mem_range.mpr hv', ?_⟩
        exact Bool.and_eq_true_iff.mpr ⟨decide_eq_true hv, hreports⟩
    apply Bool.and_eq_true_iff.mpr
    refine ⟨decide_eq_true hgap, any_eq_true.mpr ⟨z, mem_range.mpr hhigh, ?_⟩⟩
    refine any_eq_true.mpr ⟨y, mem_range.mpr hne, ?_⟩
    exact Bool.and_eq_true_iff.mpr ⟨decide_eq_true hlow, hreported⟩
  | fin => exact h
  | extract maxSize => exact h

/-- **The SACK list is truthful**, in every state that a run of calls reaches that never swallows
what is reported, and what is stored next is in its first block. -/
theorem sackTruthful_of_run (c : ByteStream) (hM : c.maxBuffer.toNat < 2 ^ 31) (calls : List RxCall)
    (w : RxRun)
    (hrun : (machine c).Run (fun w call => Fits c w call ∧ ¬ Swallows c w call) (start c) calls w) :
    w.SackTruthful c ∧ ∀ x len w', (machine c).enabled w (.add x len) → Fits c w (.add x len) →
      (machine c).step w (.add x len) = .ok w' → ReportsFirst w w' := by
  have hinv : ∃ ps sb, SackInv c w ps sb := by
    refine hrun.invariant (fun w => ∃ ps sb, SackInv c w ps sb) ?_ ⟨[], [], ?_⟩
    · rintro s call ⟨ps, sb, h⟩ henabled ⟨hfits, hswallows⟩
      obtain ⟨s', ps', sb', hstep, h'⟩ := h.step hM henabled hfits hswallows
      have hstep' : (machine c).step s call = .ok s' := hstep
      rw [hstep']
      exact ⟨ps', sb', h'⟩
    · exact ⟨inv_start c, Nat.zero_le _, List.Pairwise.nil⟩
  obtain ⟨ps, sb, h⟩ := hinv
  refine ⟨h.truthful, fun x len w' henabled hfits hstep => ?_⟩
  exact h.inv.reportsFirst hM henabled hfits hstep

/-- Segments behind gaps, in three blocks of which two are joined, and what was missing. -/
def sackCalls : List RxCall := [.add 2 1, .add 6 2, .add 10 1, .add 8 2, .add 0 2]

theorem sackTruthful_of_run_sample : ∃ w, (machine sampleStream).Run
        (fun w call => Fits sampleStream w call ∧ ¬ Swallows sampleStream w call)
        (start sampleStream) sackCalls w ∧
      w.buffer.sackList = [sampleStream.block (6, 11)] ∧ w.SackTruthful sampleStream := by
  obtain ⟨w, hrun, htest⟩ := Machine.exists_run_of_exec (m := machine sampleStream)
    (fun w call => decide (Fits sampleStream w call) && !swallows sampleStream w call)
    (fun w => decide (w.buffer.sackList = [sampleStream.block (6, 11)]))
    (start sampleStream) sackCalls (by decide +kernel)
  have hfits : (machine sampleStream).Run
      (fun w call => Fits sampleStream w call ∧ ¬ Swallows sampleStream w call)
      (start sampleStream) sackCalls w := by
    refine hrun.mono fun w call hcall => ?_
    obtain ⟨hfits, hswallows⟩ := Bool.and_eq_true_iff.mp hcall
    exact ⟨of_decide_eq_true hfits, swallows_of_eq ((Bool.not_eq_true' _).mp hswallows)⟩
  refine ⟨w, hfits, of_decide_eq_true htest, ?_⟩
  exact (sackTruthful_of_run sampleStream (by decide) _ w hfits).1

/-- A segment of which the middle came before. -/
def swallowingCalls : List RxCall := [.add 4 2, .add 2 6]

/-- Without the condition: the packet that was reported is swallowed, and both blocks stay. -/
theorem not_sackTruthful_of_run :
    ¬ ∀ (c : ByteStream) (calls : List RxCall) (w : RxRun), c.maxBuffer.toNat < 2 ^ 31 →
      (machine c).Run (Fits c) (start c) calls w → w.SackTruthful c := by
  intro htruthful
  obtain ⟨w, hrun, htest⟩ := Machine.exists_run_of_exec (m := machine sampleStream)
    (fun w call => decide (Fits sampleStream w call))
    (fun w => decide (w.buffer.sackList = [sampleStream.block (2, 8), sampleStream.block (4, 6)] ∧
      w.rcvNxt sampleStream = 0))
    (start sampleStream) swallowingCalls (by decide +kernel)
  obtain ⟨hlist, hnext⟩ := of_decide_eq_true htest
  obtain ⟨-, sb, hsb, hblocks, hapart⟩ := htruthful sampleStream swallowingCalls w (by decide)
    (hrun.mono fun w call hcall => of_decide_eq_true hcall)
  -- the positions of the two blocks follow from their sequence numbers
  have hpos : ∀ {x y : ℕ}, Near x 0 → y < 9 → sampleStream.seq x = sampleStream.seq y → x = y := by
    intro x y hx hy hseq
    have hnear : Near x y := ⟨by have := hx.1; omega, by omega⟩
    exact (ofPos_inj hnear).mp hseq
  obtain ⟨p, rest, rfl, hp, hrest⟩ := map_eq_cons_iff.mp (hsb.symm.trans hlist)
  obtain ⟨q, rest, rfl, hq, -⟩ := map_eq_cons_iff.mp hrest
  obtain ⟨-, hne, hnear, -⟩ := hblocks p mem_cons_self
  obtain ⟨-, hne', hnear', -⟩ := hblocks q (mem_cons_of_mem _ mem_cons_self)
  rw [hnext] at hnear hnear'
  obtain ⟨hp₁, hp₂⟩ := Prod.mk.inj hp
  obtain ⟨hq₁, hq₂⟩ := Prod.mk.inj hq
  have h₁ := hpos ⟨by have := hnear.1; omega, by omega⟩ (by decide) hp₁
  have h₂ := hpos hnear (by decide) hp₂
  have h₃ := hpos ⟨by have := hnear'.1; omega, by omega⟩ (by decide) hq₁
  have h₄ := hpos hnear' (by decide) hq₂
  have hclear := rel_of_pairwise_cons hapart mem_cons_self
  rw [h₁, h₂, h₃, h₄] at hclear
  exact absurd hclear (by decide)

end RxRun

end Ns3Dsme.Internet
