/-
# The receive buffer delivers the byte stream

The invariant of a run, in terms of positions: which intervals of the stream are stored, what was
received of it, and what RCV.NXT is.  Each call is one lemma.
-/
import Ns3Dsme.Internet.TcpRxSegments

open Nat List Program Intervals

namespace Ns3Dsme.Internet

open ByteStream Network SequenceNumber32

namespace RxRun

/-- A received segment has this position. -/
def Got (w : RxRun) (x : ℕ) : Prop := ∃ p ∈ w.received, p.1 ≤ x ∧ x < p.2

/-- The intervals `ps` are stored, and the blocks `sb` are in the SACK list. -/
structure Inv (c : ByteStream) (w : RxRun) (ps sb : List (ℕ × ℕ)) : Prop where
  data : w.buffer.data = ps.map c.packet
  ordered : Ordered w.extracted.length ps
  inside : c.Inside w.extracted.length ps
  covered : ∀ x, w.extracted.length ≤ x → x < w.next → Covers ps x
  missing : ¬ Covers ps w.next
  size : w.buffer.size = total ps
  nextRxSeq : w.buffer.nextRxSeq = c.seq (w.rcvNxt c)
  extracted : w.extracted = c.slice 0 w.extracted.length
  length : w.extracted.length ≤ c.octets.length
  fin : w.buffer.gotFin = true →
    w.buffer.finSeq = c.seq c.octets.length ∧ c.octets.length < w.next + 2 ^ 31
  maxBuffer : w.buffer.maxBuffer = c.maxBuffer
  sackList : w.buffer.sackList = sb.map c.block
  blocks : ∀ p ∈ sb, w.next < p.1 ∧ p.1 < p.2 ∧ ∀ x, p.1 ≤ x → x < p.2 → Covers ps x
  got : ∀ x, x < w.extracted.length ∨ Covers ps x → w.Got x
  kept : ∀ p ∈ w.inWindow, ∀ x, p.1 ≤ x → x < p.2 → x < w.extracted.length ∨ Covers ps x

theorem inv_start (c : ByteStream) : (start c).Inv c [] [] := by
  have hnext : (start c).next = 0 := rfl
  refine ⟨rfl, trivial, fun p hp => absurd hp not_mem_nil, fun x _ hx => ?_,
    not_covers_nil _, rfl, ?_, rfl, zero_le _, ?_, rfl, rfl,
    fun p hp => absurd hp not_mem_nil, fun x hx => ?_, fun p hp => absurd hp not_mem_nil⟩
  · rw [hnext] at hx
    omega
  · show c.isn = c.isn + BitVec.ofNat 32 0
    exact (BitVec.add_zero _).symm
  · rintro ⟨⟩
  · rcases hx with hx | hx
    · exact absurd hx (not_lt_zero _)
    · exact absurd hx (not_covers_nil x)

namespace Inv

variable {c : ByteStream} {w : RxRun} {ps sb : List (ℕ × ℕ)}

/-! ## What follows from the invariant -/

theorem start_le (_h : w.Inv c ps sb) : w.extracted.length ≤ w.next := le_add_right _ _

/-- RCV.NXT is in the stream, and less than half the sequence space from what is unread. -/
theorem next_le (h : w.Inv c ps sb) :
    w.next ≤ c.octets.length ∧ w.next < w.extracted.length + 2 ^ 31 := by
  have hstart := h.start_le
  have hlen := h.length
  rcases eq_or_lt_of_le hstart with heq | hlt
  · omega
  · -- the octet before it is stored
    obtain ⟨p, hp, hlow, hhigh⟩ := h.covered (w.next - 1) (by omega) (by omega)
    obtain ⟨-, -, hhalf, hend⟩ := h.inside p hp
    omega

theorem rcvNxt_cases (_h : w.Inv c ps sb) : w.rcvNxt c = w.next ∨
    w.rcvNxt c = c.octets.length + 1 ∧ w.next = c.octets.length ∧ w.buffer.gotFin = true := by
  unfold rcvNxt
  split
  · rename_i hfin
    exact .inr ⟨by rw [hfin.2], hfin.2, hfin.1⟩
  · exact .inl rfl

/-- The first stored octet is the first unread one, or there is no unread one. -/
theorem first_cases (h : w.Inv c ps sb) {p : ℕ × ℕ} (hp : ps.head? = some p) :
    p ∈ ps ∧ (p.1 = w.extracted.length ∨
      w.extracted.length < p.1 ∧ w.next = w.extracted.length) := by
  cases ps with
  | nil => cases hp
  | cons q ps =>
    cases hp
    refine ⟨mem_cons_self, ?_⟩
    have hlow := h.ordered.1
    have hstart := h.start_le
    by_cases heq : p.1 = w.extracted.length
    · exact .inl heq
    · right
      refine ⟨by omega, ?_⟩
      by_contra hne
      have hfirst := h.covered w.extracted.length (le_refl _) (by omega)
      rw [covers_cons] at hfirst
      rcases hfirst with hfirst | hfirst
      · omega
      · have hlater := h.ordered.2.2.le_of_covers hfirst
        have hne' := h.ordered.2.1
        omega

/-- The end of the window that `Add` looks at, in positions. -/
theorem storedEnd_eq (h : w.Inv c ps sb) {p : ℕ × ℕ} (hp : ps.head? = some p) :
    w.storedEnd c = some (p.1 + c.maxBuffer.toNat) := by
  obtain ⟨hmem, -⟩ := h.first_cases hp
  obtain ⟨hlow, hne, hhalf, -⟩ := h.inside p hmem
  have hdist : (c.seq p.1).minus (c.seq w.extracted.length) = p.1 - w.extracted.length :=
    minus_ofPos hlow (by omega)
  unfold storedEnd
  rw [h.data, List.head?_map, hp, Option.map_some, Option.map_some, h.maxBuffer]
  show some (_ + (c.seq p.1).minus _ + _) = _
  rw [hdist]
  congr 2
  omega

theorem seq_add_maxBuffer (c : ByteStream) (x : ℕ) :
    c.seq x + c.maxBuffer = c.seq (x + c.maxBuffer.toNat) := by
  rw [← seq_plus]
  show _ = c.seq x + BitVec.ofNat 32 c.maxBuffer.toNat
  rw [BitVec.ofNat_toNat, BitVec.setWidth_eq]

/-- All calls of `Add` leave these as they were. -/
theorem total_lt (h : w.Inv c ps sb) : total ps < 2 ^ 31 := by
  rcases eq_nil_or_concat ps with rfl | ⟨init, p, hps⟩
  · exact Nat.two_pow_pos 31
  · have hp : p ∈ ps := by
      rw [hps, concat_eq_append]
      exact mem_append_right _ mem_cons_self
    obtain ⟨hlow, hne, hhalf, -⟩ := h.inside p hp
    have hle := h.ordered.total_le (z := w.extracted.length + 2 ^ 31 - 1) (by omega)
      fun q hq => by
        have hq' := h.inside q hq
        omega
    omega

/-! ## `Add` -/

variable {ps' : List (ℕ × ℕ)} {x t : ℕ} {q : ℕ × ℕ}

/-- Nothing changes but the list of what came. -/
theorem add_same (h : w.Inv c ps sb) (hlow : ∀ y, x ≤ y → y < min t w.windowEnd →
    y < w.extracted.length ∨ Covers ps y) :
    ({ w with
      received := (x, t) :: w.received
      inWindow := (x, min t w.windowEnd) :: w.inWindow } : RxRun).Inv c ps sb := by
  refine ⟨h.data, h.ordered, h.inside, h.covered, h.missing, h.size, h.nextRxSeq, h.extracted,
    h.length, h.fin, h.maxBuffer, h.sackList, h.blocks, fun y hy => ?_, fun p hp => ?_⟩
  · obtain ⟨p, hp, hin⟩ := h.got y hy
    exact ⟨p, mem_cons_of_mem _ hp, hin⟩
  · rcases mem_cons.mp hp with rfl | hp
    · exact hlow
    · exact h.kept p hp

/-- The part of a segment that fits in the window, in positions. -/
theorem trimToWindow_eq (h : w.Inv c ps sb) (hx : Near x (w.rcvNxt c)) (ht : Near t (w.rcvNxt c))
    (hxt : x ≤ t) (hend : ∀ e, w.storedEnd c = some e → Near t e ∧ Near (w.rcvNxt c) e) :
    ∃ t', t' ≤ t ∧ (ps = [] → t' = t) ∧
      (∀ p, ps.head? = some p → t' = min t (p.1 + c.maxBuffer.toNat)) ∧
      w.buffer.trimToWindow (c.seq x) (c.seq t) =
        (c.seq (if ps ≠ [] ∧ t' < max x (w.rcvNxt c) then t' else max x (w.rcvNxt c)),
          c.seq t') := by
  have hmax : (if (c.seq x).lt (c.seq (w.rcvNxt c)) = true then c.seq (w.rcvNxt c) else c.seq x) =
      c.seq (max x (w.rcvNxt c)) := by
    have hlt : (c.seq x).lt (c.seq (w.rcvNxt c)) = decide (x < w.rcvNxt c) := lt_ofPos hx
    rw [hlt]
    by_cases hold : x < w.rcvNxt c
    · rw [if_pos (decide_eq_true hold), max_eq_right hold.le]
    · rw [if_neg (by rw [decide_eq_true_eq]; exact hold), max_eq_left (by omega)]
  unfold TcpRxBuffer.trimToWindow
  rw [h.nextRxSeq, hmax, h.data]
  cases ps with
  | nil =>
    refine ⟨t, le_refl _, fun _ => rfl, by rintro p ⟨⟩, ?_⟩
    rw [if_neg fun hne => hne.1 rfl]
    rfl
  | cons p ps =>
    obtain ⟨hnear, hnear'⟩ := hend _ (h.storedEnd_eq (p := p) rfl)
    refine ⟨min t (p.1 + c.maxBuffer.toNat), min_le_left _ _, ?_, ?_, ?_⟩
    · rintro ⟨⟩
    · rintro q ⟨⟩
      rfl
    · have hlt : (c.seq (p.1 + c.maxBuffer.toNat)).lt (c.seq t) =
          decide (p.1 + c.maxBuffer.toNat < t) := lt_ofPos hnear.symm
      have htail : (if (c.seq (p.1 + c.maxBuffer.toNat)).lt (c.seq t) = true then
          c.seq (p.1 + c.maxBuffer.toNat) else c.seq t) =
          c.seq (min t (p.1 + c.maxBuffer.toNat)) := by
        rw [hlt]
        by_cases hcut : p.1 + c.maxBuffer.toNat < t
        · rw [if_pos (decide_eq_true hcut), min_eq_right hcut.le]
        · rw [if_neg (by rw [decide_eq_true_eq]; exact hcut), min_eq_left (by omega)]
      have hnear'' : Near (min t (p.1 + c.maxBuffer.toNat)) (max x (w.rcvNxt c)) := by
        unfold SequenceNumber32.Near at *
        omega
      have hlt' : (c.seq (min t (p.1 + c.maxBuffer.toNat))).lt (c.seq (max x (w.rcvNxt c))) =
          decide (min t (p.1 + c.maxBuffer.toNat) < max x (w.rcvNxt c)) := lt_ofPos hnear''
      rw [map_cons]
      dsimp only
      rw [show (c.packet p).1 = c.seq p.1 from rfl, h.maxBuffer, seq_add_maxBuffer, htail, hlt']
      congr 1
      by_cases hold : min t (p.1 + c.maxBuffer.toNat) < max x (w.rcvNxt c)
      · rw [if_pos (decide_eq_true hold), if_pos ⟨cons_ne_nil _ _, hold⟩]
      · rw [if_neg (by rw [decide_eq_true_eq]; exact hold), if_neg fun hne => hold hne.2]

/-- What is below the first missing octet was extracted or is stored. -/
theorem below_next (h : w.Inv c ps sb) {y : ℕ} (hy : y < w.next) :
    y < w.extracted.length ∨ Covers ps y := by
  by_cases hold : y < w.extracted.length
  · exact .inl hold
  · exact .inr (h.covered y (by omega) hy)

theorem length_slice_add {x len : ℕ} (hlen : x + len ≤ c.octets.length) :
    (c.slice x (x + len)).length = len := by
  unfold slice
  rw [length_take, length_drop]
  omega

/-- Where the segment is trimmed to, for octets in the window. -/
theorem windowEnd_le (h : w.Inv c ps sb) {t t' : ℕ} (hnil : ps = [] → t' = t)
    (hcons : ∀ p, ps.head? = some p → t' = min t (p.1 + c.maxBuffer.toNat)) :
    min t w.windowEnd ≤ t' := by
  unfold windowEnd
  rw [h.maxBuffer]
  cases ps with
  | nil =>
    rw [hnil rfl]
    exact min_le_left _ _
  | cons p ps =>
    have hfirst := h.ordered.1
    rw [hcons p rfl]
    omega

/-- **Nothing of the segment is new**: the buffer stays as it is. -/
theorem add_nothing (h : w.Inv c ps sb) {x len t' : ℕ} (hlen : x + len ≤ c.octets.length)
    (ht : Near (x + len) (w.rcvNxt c)) (hnil : ps = [] → t' = x + len)
    (htrim : w.buffer.trimToWindow (c.seq x) (c.seq (x + len)) =
      (c.seq (if ps ≠ [] ∧ t' < max x (w.rcvNxt c) then t' else max x (w.rcvNxt c)), c.seq t'))
    (hold : t' < max x (w.rcvNxt c)) :
    w.buffer.add (c.slice x (x + len)) (c.seq x) = .ok (w.buffer, false) := by
  have hdone : ∃ head tail, TcpRxBuffer.removeOverlap w.buffer.data
      (c.seq (if ps ≠ [] ∧ t' < max x (w.rcvNxt c) then t' else max x (w.rcvNxt c))) (c.seq t')
      w.buffer.size = ⟨w.buffer.data, head, tail, w.buffer.size⟩ ∧ head.ge tail = true := by
    rw [h.data]
    by_cases hempty : ps = []
    · subst hempty
      rw [if_neg fun hne => hne.1 rfl]
      refine ⟨_, _, rfl, ?_⟩
      have hge : (c.seq (max x (w.rcvNxt c))).ge (c.seq t') =
          decide (t' ≤ max x (w.rcvNxt c)) := by
        refine ge_ofPos ?_
        rw [hnil rfl] at hold ⊢
        unfold SequenceNumber32.Near at *
        omega
      rw [hge]
      exact decide_eq_true hold.le
    · rw [if_pos ⟨hempty, hold⟩]
      exact removeOverlap_of_eq h.inside h.ordered _ _
  obtain ⟨head, tail, hloop, hge⟩ := hdone
  unfold TcpRxBuffer.add
  rw [length_slice_add hlen, seq_plus, htrim]
  dsimp only
  rw [hloop]
  dsimp only
  rw [if_pos hge]

/-- What is left of the segment is new. -/
structure New (w : RxRun) (c : ByteStream) (ps : List (ℕ × ℕ)) (x t : ℕ) (ps' : List (ℕ × ℕ))
    (q : ℕ × ℕ) : Prop where
  ordered : Ordered w.extracted.length ps'
  sublist : ps'.Sublist ps
  start : max x w.next ≤ q.1
  lt : q.1 < q.2
  le : q.2 ≤ t
  half : q.2 < w.extracted.length + 2 ^ 31
  covers : ∀ y, Covers ps y ∨ max x w.next ≤ y ∧ y < t ↔ Covers ps' y ∨ q.1 ≤ y ∧ y < q.2
  apart : ∀ p ∈ ps', p.2 ≤ q.1 ∨ q.2 ≤ p.1
  removed : ∀ p ∈ ps, p ∉ ps' → max x w.next < p.1 ∧ p.2 < t

namespace New

variable {x t : ℕ} {ps' : List (ℕ × ℕ)} {q : ℕ × ℕ}

/-- With the new interval, all that was stored and all that is new of the segment is covered. -/
theorem covers_insert (hnew : New w c ps x t ps' q) (y : ℕ) :
    Covers (Intervals.insert q ps') y ↔ Covers ps y ∨ max x w.next ≤ y ∧ y < t := by
  rw [Intervals.covers_insert, or_comm, ← hnew.covers y]

theorem inside (hnew : New w c ps x t ps' q) (h : w.Inv c ps sb) (ht : t ≤ c.octets.length) :
    c.Inside w.extracted.length (Intervals.insert q ps') := by
  intro p hp
  rcases mem_cons.mp ((perm_insert q ps').subset hp) with rfl | hp
  · have hstart := hnew.start
    have hle := h.start_le
    have hlast := hnew.le
    exact ⟨by omega, hnew.lt, hnew.half, by omega⟩
  · exact h.inside p (hnew.sublist.subset hp)

/-- No interval starts before RCV.NXT and ends behind it. -/
theorem not_inside (hnew : New w c ps x t ps' q) (h : w.Inv c ps sb) :
    ∀ p ∈ Intervals.insert q ps', ¬ (p.1 < w.next ∧ w.next < p.2) := by
  rintro p hp ⟨hlow, hhigh⟩
  rcases mem_cons.mp ((perm_insert q ps').subset hp) with rfl | hp
  · have hstart := hnew.start
    omega
  · exact h.missing ⟨p, hnew.sublist.subset hp, hlow.le, hhigh⟩

/-- **What the application can read and what is missing**, with the new interval. -/
theorem reach (hnew : New w c ps x t ps' q) (h : w.Inv c ps sb) :
    w.next ≤ Intervals.reach (Intervals.insert q ps') w.next ∧
      (∀ y, w.extracted.length ≤ y → y < Intervals.reach (Intervals.insert q ps') w.next →
        Covers (Intervals.insert q ps') y) ∧
      ¬ Covers (Intervals.insert q ps') (Intervals.reach (Intervals.insert q ps') w.next) := by
  have hordered : Ordered w.extracted.length (Intervals.insert q ps') := by
    refine hnew.ordered.insert ?_ hnew.lt hnew.apart
    have hstart := hnew.start
    have hle := h.start_le
    omega
  obtain ⟨hle, hcov, hend⟩ := reach_spec hordered (hnew.not_inside h)
  refine ⟨hle, fun y hlow hhigh => ?_, hend⟩
  by_cases hold : y < w.next
  · exact (hnew.covers_insert y).mpr (.inl (h.covered y hlow hold))
  · exact hcov y (by omega) hhigh

end New

/-- The SACK list before RCV.NXT moves: a packet behind a gap is reported. -/
def reported (w : RxRun) (sb : List (ℕ × ℕ)) (q : ℕ × ℕ) : List (ℕ × ℕ) :=
  if w.next < q.1 then report q sb else sb

/-- The blocks of the list, old and new, hold octets behind RCV.NXT. -/
theorem reported_spec (h : w.Inv c ps sb) (hnew : New w c ps x t ps' q) :
    ∀ p ∈ reported w sb q, w.next < p.1 ∧ p.1 < p.2 ∧ p.2 < w.extracted.length + 2 ^ 31 ∧
      ∀ y, p.1 ≤ y → y < p.2 → Covers (Intervals.insert q ps') y := by
  have hold : ∀ p ∈ sb, w.next < p.1 ∧ p.1 < p.2 ∧ p.2 < w.extracted.length + 2 ^ 31 ∧
      ∀ y, p.1 ≤ y → y < p.2 → Covers (Intervals.insert q ps') y := by
    intro p hp
    obtain ⟨hbehind, hne, hcov⟩ := h.blocks p hp
    obtain ⟨r, hr, hlow, hhigh⟩ := hcov (p.2 - 1) (by omega) (by omega)
    have hr' := h.inside r hr
    exact ⟨hbehind, hne, by omega, fun y hy hy' =>
      (hnew.covers_insert y).mpr (.inl (hcov y hy hy'))⟩
  unfold reported
  split
  · rename_i hbehind
    refine forall_report ?_ ⟨hbehind, hnew.lt, hnew.half, fun y hy hy' => ?_⟩ hold
    · rintro a b d ⟨hn, hab, -, hcov⟩ ⟨-, hbd, hd, hcov'⟩
      refine ⟨hn, hab.trans hbd, hd, fun y hy hy' => ?_⟩
      by_cases hfirst : y < b
      · exact hcov y hy hfirst
      · exact hcov' y (Nat.le_of_not_lt hfirst) hy'
    · exact (Intervals.covers_insert q ps' y).mpr (.inl ⟨hy, hy'⟩)
  · exact hold

/-- **The SACK list** after something new was stored. -/
theorem reportBlock_eq (h : w.Inv c ps sb) (hnew : New w c ps x t ps' q) :
    TcpRxBuffer.reportBlock (c.seq w.next) (c.seq q.1) (c.seq q.2) w.buffer.sackList =
      .ok ((reported w sb q).map c.block) := by
  have hnext := h.next_le
  have hle := h.start_le
  have hstart := hnew.start
  have hlt := hnew.lt
  have hhalf := hnew.half
  have hgt : (c.seq q.1).gt (c.seq w.next) = decide (w.next < q.1) :=
    gt_ofPos (near_of_mem (z := w.extracted.length) (by omega) (by omega))
  unfold TcpRxBuffer.reportBlock reported
  rw [hgt, h.sackList]
  by_cases hbehind : w.next < q.1
  · rw [if_pos (decide_eq_true hbehind), if_pos hbehind]
    refine updateSackList_eq (z := w.extracted.length) ?_ (by omega) hbehind
    refine forall_mem_cons.mpr ⟨⟨by omega, hlt, hhalf⟩, fun p hp => ?_⟩
    obtain ⟨hafter, hne, hcov⟩ := h.blocks p hp
    obtain ⟨r, hr, -, hhigh⟩ := hcov (p.2 - 1) (by omega) (by omega)
    have hr' := h.inside r hr
    omega
  · rw [if_neg (by rw [decide_eq_true_eq]; exact hbehind), if_neg hbehind]

/-- What a call of `Add` makes of the stored intervals and of the blocks of the SACK list. -/
inductive Stores (w : RxRun) (c : ByteStream) (ps sb : List (ℕ × ℕ)) (x t : ℕ) :
    List (ℕ × ℕ) → List (ℕ × ℕ) → Prop
  | nothing : Stores w c ps sb x t ps sb
  | new (e : ℕ) (ps' : List (ℕ × ℕ)) (q : ℕ × ℕ) (hnew : New w c ps x e ps' q) (hle : e ≤ t)
    (hwindow : ∀ y ∈ w.storedEnd c, e ≤ y) :
    Stores w c ps sb x t (Intervals.insert q ps') ((reported w sb q).filter fun p =>
      decide (Intervals.reach (Intervals.insert q ps') w.next < p.2))

namespace New

variable {len : ℕ} (h : w.Inv c ps sb) (hnew : New w c ps x t ps' q)

include h hnew

theorem ordered_insert : Ordered w.extracted.length (Intervals.insert q ps') :=
  hnew.ordered.insert ((h.start_le.trans (le_max_right ..)).trans hnew.start) hnew.lt hnew.apart

/-- The part of the segment that is new is cut out of it. -/
theorem createFragment_eq (hlen : x + len ≤ c.octets.length) (hx : x + 2 ^ 31 > w.next)
    (ht : t ≤ x + len) :
    TcpRxBuffer.createFragment (c.slice x (x + len)) ((c.seq q.1).minus (c.seq x))
      ((c.seq q.2).minus (c.seq q.1)) = .ok (c.slice q.1 q.2) := by
  have hle := h.start_le
  have hnext := h.next_le
  have hstart := hnew.start
  have hlt := hnew.lt
  have hhalf := hnew.half
  have hlast := hnew.le
  have hminus : (c.seq q.1).minus (c.seq x) = q.1 - x := minus_ofPos (by omega) (by omega)
  have hminus' : (c.seq q.2).minus (c.seq q.1) = q.2 - q.1 := minus_ofPos hlt.le (by omega)
  unfold TcpRxBuffer.createFragment
  rw [hminus, hminus', length_slice_add hlen, if_pos (by omega)]
  exact congrArg Except.ok (slice_slice (by omega) (by omega))

theorem size_eq (ht : t ≤ c.octets.length) :
    Word32.add (total ps') (q.2 - q.1) = total (Intervals.insert q ps') := by
  have hinside := hnew.inside h ht
  have hbound := (hnew.ordered_insert h).total_le (z := w.extracted.length + 2 ^ 31 - 1) (by omega)
    fun p hp => by
      have hp' := hinside p hp
      omega
  rw [total_insert] at hbound ⊢
  rw [Word32.add_eq (by omega), add_comm]

/-- Every octet that is stored was received. -/
theorem got (ht : t ≤ x + len) {y : ℕ}
    (hy : y < w.extracted.length ∨ Covers (Intervals.insert q ps') y) :
    ∃ p ∈ (x, x + len) :: w.received, p.1 ≤ y ∧ y < p.2 := by
  by_cases hold : y < w.extracted.length ∨ Covers ps y
  · obtain ⟨p, hp, hin⟩ := h.got y hold
    exact ⟨p, mem_cons_of_mem _ hp, hin⟩
  · have hcov : Covers (Intervals.insert q ps') y :=
      hy.resolve_left fun hlow => hold (.inl hlow)
    rcases (hnew.covers_insert y).mp hcov with hcov | hin
    · exact absurd (.inr hcov) hold
    · refine ⟨(x, x + len), mem_cons_self, ?_⟩
      dsimp only
      omega

/-- Every octet that came inside the window is stored. -/
theorem kept (hwindow : min (x + len) w.windowEnd ≤ t) :
    ∀ p ∈ (x, min (x + len) w.windowEnd) :: w.inWindow, ∀ y, p.1 ≤ y → y < p.2 →
      y < w.extracted.length ∨ Covers (Intervals.insert q ps') y := by
  intro p hp y hlow hhigh
  rcases mem_cons.mp hp with rfl | hp
  · dsimp only at hlow hhigh
    by_cases hold : y < w.next
    · exact (h.below_next hold).imp_right fun hcov => (hnew.covers_insert y).mpr (.inl hcov)
    · exact .inr ((hnew.covers_insert y).mpr (.inr ⟨by omega, by omega⟩))
  · exact (h.kept p hp y hlow hhigh).imp_right fun hcov =>
      (hnew.covers_insert y).mpr (.inl hcov)

end New

/-- The FIN counts as one octet. -/
theorem seq_fin (h : w.Inv c ps sb) {m : ℕ} (hlow : w.next ≤ m) (hm : m ≤ c.octets.length) :
    (if w.buffer.gotFin ∧ c.seq m = w.buffer.finSeq then c.seq m + 1 else c.seq m) =
      c.seq (m + if w.buffer.gotFin ∧ m = c.octets.length then 1 else 0) := by
  by_cases hfin : w.buffer.gotFin = true
  · obtain ⟨hfinSeq, hfinNear⟩ := h.fin hfin
    have hiff : c.seq m = w.buffer.finSeq ↔ m = c.octets.length := by
      rw [hfinSeq]
      exact ofPos_inj ⟨by omega, by omega⟩
    by_cases hend : m = c.octets.length
    · rw [if_pos ⟨hfin, hiff.mpr hend⟩, if_pos ⟨hfin, hend⟩]
      exact seq_plus m 1
    · rw [if_neg fun hboth => hend (hiff.mp hboth.2), if_neg fun hboth => hend hboth.2,
        add_zero]
  · rw [if_neg fun hboth => hfin hboth.1, if_neg fun hboth => hfin hboth.1, add_zero]

/-- **Something of the segment is new**: it is stored, and RCV.NXT moves as far as it can. -/
theorem add_new (h : w.Inv c ps sb) {x len t : ℕ} (hlen : x + len ≤ c.octets.length)
    (hx : Near x w.next) (ht : t ≤ x + len) (hnext : w.rcvNxt c = w.next)
    (hnew : New w c ps x t ps' q) (hwindow : min (x + len) w.windowEnd ≤ t)
    (hloop : TcpRxBuffer.removeOverlap w.buffer.data
      (w.buffer.trimToWindow (c.seq x) (c.seq (x + len))).1
      (w.buffer.trimToWindow (c.seq x) (c.seq (x + len))).2 w.buffer.size =
        ⟨ps'.map c.packet, c.seq q.1, c.seq q.2, total ps'⟩) :
    ∃ b, w.buffer.add (c.slice x (x + len)) (c.seq x) = .ok (b, true) ∧
      ({ w with
        buffer := b
        received := (x, x + len) :: w.received
        inWindow := (x, min (x + len) w.windowEnd) :: w.inWindow } : RxRun).Inv c
          (Intervals.insert q ps') ((reported w sb q).filter fun p =>
            decide (Intervals.reach (Intervals.insert q ps') w.next < p.2)) := by
  obtain ⟨-, hnear⟩ := hx
  have hstart := hnew.start
  have hlt := hnew.lt
  have hhalf := hnew.half
  have hlast := hnew.le
  have hle := h.start_le
  have hnext' := h.next_le
  have hinside := hnew.inside h (by omega)
  have hinside' : c.Inside w.extracted.length ps' := fun p hp =>
    h.inside p (hnew.sublist.subset hp)
  have hdiff : ∀ p ∈ ps', p.1 ≠ q.1 := by
    intro p hp heq
    have hp' := hnew.ordered.bounds p hp
    have hq := hnew.apart p hp
    omega
  have hq : w.extracted.length ≤ q.1 ∧ q.1 < w.extracted.length + 2 ^ 31 := ⟨by omega, by omega⟩
  have hordered := hnew.ordered_insert h
  obtain ⟨hreach, hcovered, hmissing⟩ := hnew.reach h
  have hsack := h.reportBlock_eq hnew
  have hsb₁ := h.reported_spec hnew
  have hlength : (c.slice q.1 q.2).length = q.2 - q.1 := length_slice hlt (by omega)
  have hfragment := hnew.createFragment_eq h hlen (by omega) ht
  have hsize := hnew.size_eq h (ht.trans hlen)
  have havail : w.buffer.availBytes = w.next - w.extracted.length := by
    unfold next
    omega
  have hmove := moveNext_eq (c := c) (n := w.next)
    (a := w.buffer.availBytes) hinside hordered (hnew.not_inside h) (by omega) (by omega)
    (fun p hp => by
      have hp' := hsb₁ p hp
      omega)
    (fun p hp => by
      have hp' := hsb₁ p hp
      omega)
  obtain ⟨m, hm⟩ : ∃ m, m = Intervals.reach (Intervals.insert q ps') w.next := ⟨_, rfl⟩
  rw [← hm] at hreach hcovered hmissing hmove ⊢
  have hmlen : m ≤ c.octets.length := by
    rcases eq_or_lt_of_le hreach with heq | hgt
    · omega
    · obtain ⟨p, hp, hlow, hhigh⟩ := hcovered (m - 1) (by omega) (by omega)
      have hp' := hinside p hp
      omega
  refine ⟨{ w.buffer with
      data := (Intervals.insert q ps').map c.packet
      sackList := ((reported w sb q).filter fun p => decide (m < p.2)).map c.block
      size := total (Intervals.insert q ps')
      nextRxSeq := if w.buffer.gotFin ∧ c.seq m = w.buffer.finSeq then c.seq m + 1 else c.seq m
      availBytes := w.buffer.availBytes + (m - w.next) }, ?_, ?_⟩
  · -- the call
    have hge : (c.seq q.1).ge (c.seq q.2) = decide (q.2 ≤ q.1) :=
      ge_ofPos (near_of_mem (z := w.extracted.length) (by omega) (by omega))
    unfold TcpRxBuffer.add
    rw [length_slice_add hlen, seq_plus]
    dsimp only
    rw [hloop]
    dsimp only
    rw [hge, if_neg (by rw [decide_eq_true_eq]; omega), hfragment, ok_bind,
      hasData_eq_false hinside' hq hdiff, if_neg Bool.false_ne_true,
      insertData_eq hinside' hq hdiff, h.nextRxSeq, hnext, hsack, ok_bind, hmove,
      ok_bind]
    dsimp only
    rw [hlength, hsize]
    rfl
  · -- the new state
    have hnew' : ∀ b : TcpRxBuffer, b.availBytes = w.buffer.availBytes + (m - w.next) →
        ({ w with
          buffer := b
          received := (x, x + len) :: w.received
          inWindow := (x, min (x + len) w.windowEnd) :: w.inWindow } : RxRun).next = m := by
      intro b hb
      unfold next at *
      dsimp only
      omega
    refine ⟨rfl, hordered, hinside, ?_, ?_, rfl, ?_, h.extracted, h.length, ?_, h.maxBuffer, rfl,
      ?_, ?_, ?_⟩
    · rw [hnew' _ rfl]
      exact hcovered
    · rw [hnew' _ rfl]
      exact hmissing
    · unfold rcvNxt
      rw [hnew' _ rfl]
      exact h.seq_fin hreach hmlen
    · intro hfin
      rw [hnew' _ rfl]
      obtain ⟨hfinSeq, hfinNear⟩ := h.fin hfin
      exact ⟨hfinSeq, by omega⟩
    · rw [hnew' _ rfl]
      intro p hp
      obtain ⟨hmem, hbehind⟩ := mem_filter.mp hp
      have hbehind : m < p.2 := of_decide_eq_true hbehind
      obtain ⟨hn, hne, -, hcov⟩ := hsb₁ p hmem
      refine ⟨?_, hne, hcov⟩
      by_contra hbefore
      exact hmissing (hcov m (by omega) hbehind)
    · exact fun y hy => hnew.got h ht hy
    · exact hnew.kept h hwindow

/-- **`Add`.** -/
theorem exists_add (h : w.Inv c ps sb) (hM : c.maxBuffer.toNat < 2 ^ 31) {x len : ℕ}
    (henabled : Enabled c w (.add x len)) (hfits : Fits c w (.add x len)) :
    ∃ w' ps' sb', step c w (.add x len) = .ok w' ∧ w'.Inv c ps' sb' ∧
      Stores w c ps sb x (x + len) ps' sb' := by
  obtain ⟨hlen, hx, ht⟩ := henabled
  obtain ⟨t, hle, hnil, hcons, htrim⟩ := h.trimToWindow_eq hx ht (le_add_right x len) hfits
  have hwindow := h.windowEnd_le hnil hcons
  have hcases := h.rcvNxt_cases
  have hnext := h.next_le
  have hstart := h.start_le
  -- what the call leaves where nothing is stored
  have hsame : (w.buffer.add (c.slice x (x + len)) (c.seq x) = .ok (w.buffer, false)) →
      (∀ y, x ≤ y → y < min (x + len) w.windowEnd → y < w.extracted.length ∨ Covers ps y) →
      ∃ w' ps' sb', step c w (.add x len) = .ok w' ∧ w'.Inv c ps' sb' ∧
        Stores w c ps sb x (x + len) ps' sb' := by
    intro hadd hbelow
    refine ⟨_, ps, sb, ?_, h.add_same hbelow, .nothing⟩
    unfold step
    dsimp only
    rw [hadd]
    rfl
  by_cases hold : t < max x (w.rcvNxt c)
  · exact hsame (h.add_nothing hlen ht hnil htrim hold) fun y hlow hhigh =>
      h.below_next (by omega)
  · have hV : w.rcvNxt c = w.next := by
      rcases hcases with heq | ⟨hfin, -, -⟩
      · exact heq
      · omega
    rw [hV] at hx ht hold htrim
    rw [if_neg fun hne => hold hne.2] at htrim
    -- all positions are in half the sequence space from the first unread octet on
    have hhalf : t < w.extracted.length + 2 ^ 31 := by
      cases ps with
      | nil =>
        have hempty : w.next = w.extracted.length := by
          by_contra hne
          exact not_covers_nil _ (h.covered w.extracted.length (le_refl _) (by omega))
        have heq := hnil rfl
        have hnear := ht.1
        omega
      | cons p ps =>
        have heq := hcons p rfl
        have hnear := ht.1
        obtain ⟨-, hfirst | ⟨-, hfirst⟩⟩ := h.first_cases (p := p) rfl
        · omega
        · omega
    have hloop := removeOverlap_eq (c := c) (z := w.extracted.length)
      (h := max x w.next) (t := t) (k := 0) h.inside (by omega) (by omega) (by
        have htotal := h.total_lt
        omega)
    rw [zero_add, zero_add] at hloop
    have hspec := trim_spec h.ordered (max x w.next) t
    have hstored : ∀ p ∈ ps, (w.extracted.length ≤ p.1 ∧ p.1 < w.extracted.length + 2 ^ 31) ∧
        (w.extracted.length ≤ p.2 ∧ p.2 < w.extracted.length + 2 ^ 31) := fun p hp => by
      have hp' := h.inside p hp
      omega
    have hends := trim_ends (fun y => w.extracted.length ≤ y ∧ y < w.extracted.length + 2 ^ 31)
      (h := max x w.next) (t := t) (by omega) (by omega) hstored
    obtain ⟨r, hr⟩ : ∃ r, r = trim ps (max x w.next) t := ⟨_, rfl⟩
    rw [← hr] at hloop hspec hends
    by_cases hnew : r.2.1 < r.2.2
    · obtain ⟨hlow, hhigh⟩ := hspec.inside hnew
      have hpart : New w c ps x t r.1 r.2 := ⟨hspec.ordered, hspec.sublist, hlow, hnew, hhigh,
        hends.2.2, hspec.covers, hspec.apart hnew, fun p hp hout => by
          rw [hr] at hout
          exact trim_removed hp hout⟩
      obtain ⟨b, hadd, hinv⟩ := h.add_new hlen hx hle hV hpart hwindow (by
        rw [htrim, h.data, h.size]
        exact hloop)
      refine ⟨_, _, _, ?_, hinv, .new t r.1 r.2 hpart hle fun e he => ?_⟩
      · unfold step
        dsimp only
        rw [hadd]
        rfl
      · cases ps with
        | nil =>
          unfold storedEnd at he
          rw [h.data] at he
          cases he
        | cons p ps =>
          rw [h.storedEnd_eq (p := p) rfl] at he
          cases he
          rw [hcons p rfl]
          exact min_le_right _ _
    · have hkeep : r.1 = ps := by
        rw [hr] at hnew ⊢
        exact trim_eq_self h.ordered (Nat.le_of_not_lt hnew)
      refine hsame ?_ fun y hlow hhigh => ?_
      · have hge : (c.seq r.2.1).ge (c.seq r.2.2) = decide (r.2.2 ≤ r.2.1) :=
          ge_ofPos (near_of_mem hends.1 hends.2)
        unfold TcpRxBuffer.add
        rw [length_slice_add hlen, seq_plus, htrim, h.data, h.size]
        dsimp only
        rw [hloop]
        dsimp only
        rw [hge, if_pos (decide_eq_true (Nat.le_of_not_lt hnew)), hkeep, ← h.data, ← h.size]
      · by_cases hbelow : y < w.next
        · exact h.below_next hbelow
        · -- what is not below RCV.NXT is stored already
          rcases (hspec.covers y).mp (.inr ⟨by omega, by omega⟩) with hcov | hin
          · rw [hkeep] at hcov
            exact .inr hcov
          · omega

/-! ## `SetFinSequence` and `Extract` -/

/-- **`SetFinSequence`.** -/
theorem exists_fin (h : w.Inv c ps sb) (henabled : Enabled c w .fin) :
    ∃ w' ps', step c w .fin = .ok w' ∧ w'.Inv c ps' sb := by
  have hnear : Near c.octets.length (w.rcvNxt c) := henabled
  refine ⟨_, ps, rfl, h.data, h.ordered, h.inside, h.covered, h.missing, h.size, ?_,
    h.extracted, h.length, fun _ => ⟨rfl, ?_⟩, h.maxBuffer, h.sackList, h.blocks, h.got, h.kept⟩
  · have hiff : w.buffer.nextRxSeq = c.seq c.octets.length ↔ w.rcvNxt c = c.octets.length := by
      rw [h.nextRxSeq]
      exact ofPos_inj hnear.symm
    have hnew : ({ w with buffer := w.buffer.setFinSequence (c.seq c.octets.length) } : RxRun).rcvNxt
        c = w.next + if w.next = c.octets.length then 1 else 0 := by
      show w.next + (if true = true ∧ w.next = c.octets.length then 1 else 0) = _
      congr 1
      exact if_congr (and_iff_right rfl) rfl rfl
    rw [hnew]
    show (if w.buffer.nextRxSeq = c.seq c.octets.length then w.buffer.nextRxSeq + 1
      else w.buffer.nextRxSeq) = _
    rcases h.rcvNxt_cases with heq | ⟨heq, hend, -⟩
    · by_cases hend : w.next = c.octets.length
      · rw [if_pos (hiff.mpr (heq.trans hend)), if_pos hend, h.nextRxSeq, heq]
        exact seq_plus w.next 1
      · rw [if_neg fun hboth => hend (heq.symm.trans (hiff.mp hboth)), if_neg hend, h.nextRxSeq,
          heq, add_zero]
    · -- the FIN came before
      rw [if_neg fun hboth => absurd (hiff.mp hboth) (by omega), if_pos hend, h.nextRxSeq, heq, hend]
  · show c.octets.length < w.next + 2 ^ 31
    obtain ⟨hlow, -⟩ := hnear
    have hcases := h.rcvNxt_cases
    omega

/-- **`Extract`.** -/
theorem exists_extract (h : w.Inv c ps sb) {maxSize : ℕ} (hfits : Fits c w (.extract maxSize)) :
    ∃ w' ps', step c w (.extract maxSize) = .ok w' ∧ w'.Inv c ps' sb := by
  have hnear : Near (w.rcvNxt c) w.extracted.length := hfits
  have hnext := h.next_le
  have hcases := h.rcvNxt_cases
  have havail : w.next = w.extracted.length + w.buffer.availBytes := rfl
  by_cases hnone : min maxSize w.buffer.availBytes = 0
  · refine ⟨w, ps, ?_, h⟩
    unfold step TcpRxBuffer.extract
    dsimp only
    rw [if_pos hnone]
    show Except.ok { w with extracted := w.extracted ++ [] } = _
    rw [append_nil]
  · obtain ⟨m, hm⟩ : ∃ m, m = min maxSize w.buffer.availBytes := ⟨_, rfl⟩
    obtain ⟨a, ha⟩ : ∃ a, w.buffer.availBytes = m + a := Nat.exists_eq_add_of_le (by omega)
    have htotal := h.total_lt
    have hloop := extractFrom_eq (c := c) (z := w.extracted.length)
      (e := w.extracted.length) (m := m) (s := 0) (a := a) (v := w.rcvNxt c) h.inside h.ordered
      (fun x hx hx' => h.covered x hx (by omega)) (by omega) (le_refl _) hnear.1
      (by omega) (by omega)
    rw [zero_add, zero_add, ← ha] at hloop
    have hlength : (c.slice w.extracted.length (w.extracted.length + m)).length = m := by
      unfold slice
      rw [length_take, length_drop]
      omega
    have hout : (w.extracted ++ c.slice w.extracted.length (w.extracted.length + m)).length =
        w.extracted.length + m := by
      rw [length_append, hlength]
    have hcut := fun x => covers_cut h.ordered (w.extracted.length + m) x
    refine ⟨{ w with
      buffer := { w.buffer with
        data := (cut ps (w.extracted.length + m)).map c.packet
        size := total (cut ps (w.extracted.length + m))
        availBytes := a }
      extracted := w.extracted ++ c.slice w.extracted.length (w.extracted.length + m) },
      cut ps (w.extracted.length + m), ?_, ?_⟩
    · unfold step TcpRxBuffer.extract
      dsimp only
      rw [if_neg hnone, ← hm, h.nextRxSeq, h.data, h.size, hloop]
      rfl
    · have hsame : ({ w with
          buffer := { w.buffer with
            data := (cut ps (w.extracted.length + m)).map c.packet
            size := total (cut ps (w.extracted.length + m))
            availBytes := a }
          extracted := w.extracted ++ c.slice w.extracted.length (w.extracted.length + m) } :
            RxRun).next = w.next := by
        show (w.extracted ++ _).length + a = w.next
        rw [hout]
        omega
      -- what is below the new position was extracted, the rest is still stored
      have hkeep : ∀ x, x < w.extracted.length ∨ Covers ps x →
          x < (w.extracted ++ c.slice w.extracted.length (w.extracted.length + m)).length ∨
            Covers (cut ps (w.extracted.length + m)) x := by
        intro x hx
        rw [hout]
        by_cases hlow : x < w.extracted.length + m
        · exact .inl hlow
        · refine .inr ((hcut x).mpr ⟨hx.resolve_left (by omega), by omega⟩)
      refine ⟨rfl, ?_, ?_, ?_, ?_, rfl, ?_, ?_, ?_, ?_, h.maxBuffer, h.sackList, ?_, ?_, ?_⟩
      · show Ordered (w.extracted ++ _).length _
        rw [hout]
        exact h.ordered.cut _
      · show c.Inside (w.extracted ++ _).length _
        rw [hout]
        intro p hp
        have hin := (h.ordered.cut (w.extracted.length + m)).bounds p hp
        have hpart := (hcut (p.2 - 1)).mp ⟨p, hp, by omega, by omega⟩
        obtain ⟨⟨q, hq, hlow, hhigh⟩, -⟩ := hpart
        have hq' := h.inside q hq
        have hend := mem_cut hp
        obtain ⟨r, hr, heq⟩ := hend
        have hr' := h.inside r hr
        omega
      · intro x hlow hhigh
        rw [hsame] at hhigh
        have hlow' : w.extracted.length + m ≤ x := by
          rw [← hout]
          exact hlow
        exact (hcut x).mpr ⟨h.covered x (by omega) hhigh, hlow'⟩
      · rw [hsame]
        exact fun hcov => h.missing ((hcut w.next).mp hcov).1
      · show w.buffer.nextRxSeq = _
        unfold rcvNxt
        rw [hsame]
        exact h.nextRxSeq
      · show _ = c.slice 0 (w.extracted ++ _).length
        rw [hout, ← slice_append (zero_le _) (le_add_right _ m), ← h.extracted]
      · show (w.extracted ++ _).length ≤ _
        rw [hout]
        omega
      · intro hfin
        rw [hsame]
        exact h.fin hfin
      · rw [hsame]
        intro p hp
        obtain ⟨hbehind, hne, hcov⟩ := h.blocks p hp
        exact ⟨hbehind, hne, fun x hx hx' => (hcut x).mpr ⟨hcov x hx hx', by omega⟩⟩
      · intro x hx
        refine h.got x ?_
        rcases hx with hx | hx
        · have hx' : x < w.extracted.length + m := by
            rw [← hout]
            exact hx
          exact h.below_next (by omega)
        · exact .inr ((hcut x).mp hx).1
      · exact fun p hp x hx hx' => hkeep x (h.kept p hp x hx hx')

/-- **One call.** -/
theorem exists_step (h : w.Inv c ps sb) (hM : c.maxBuffer.toNat < 2 ^ 31) {call : RxCall}
    (henabled : Enabled c w call) (hfits : Fits c w call) :
    ∃ w' ps' sb', step c w call = .ok w' ∧ w'.Inv c ps' sb' := by
  cases call with
  | add x len =>
    obtain ⟨w', ps', sb', hstep, hinv, -⟩ := h.exists_add hM henabled hfits
    exact ⟨w', ps', sb', hstep, hinv⟩
  | fin =>
    obtain ⟨w', ps', hstep, hinv⟩ := h.exists_fin henabled
    exact ⟨w', ps', sb, hstep, hinv⟩
  | extract maxSize =>
    obtain ⟨w', ps', hstep, hinv⟩ := h.exists_extract hfits
    exact ⟨w', ps', sb, hstep, hinv⟩

/-! ## What is promised -/

theorem holds (h : w.Inv c ps sb) {x : ℕ} (hx : Covers ps x) : w.Holds c x := by
  obtain ⟨p, hp, hlow, hhigh⟩ := hx
  obtain ⟨-, -, -, hlen⟩ := h.inside p hp
  refine ⟨c.packet p, ?_, x - p.1, c.octets[x], ?_, ?_, List.getElem?_eq_getElem _⟩
  · rw [h.data]
    exact mem_map_of_mem hp
  · exact (getElem?_slice hlow hhigh rfl).trans (List.getElem?_eq_getElem _)
  · show (c.seq p.1).plus _ = _
    rw [seq_plus, Nat.add_sub_cancel' hlow]

theorem covers_of_occupied (h : w.Inv c ps sb) {x : ℕ} (hlow : w.extracted.length ≤ x)
    (hhigh : x < w.extracted.length + 2 ^ 31) (hx : w.Occupied c x) : Covers ps x := by
  obtain ⟨q, hq, i, hi, hseq⟩ := hx
  rw [h.data] at hq
  obtain ⟨p, hp, rfl⟩ := mem_map.mp hq
  obtain ⟨hbase, hne, hhalf, hlen⟩ := h.inside p hp
  have hlength : (c.packet p).2.length = p.2 - p.1 := length_slice hne hlen
  have heq : p.1 + i = x := by
    have hnear : Near (p.1 + i) x :=
      near_of_mem (z := w.extracted.length) (by omega) ⟨hlow, hhigh⟩
    have hiff : c.seq (p.1 + i) = c.seq x ↔ p.1 + i = x := ofPos_inj hnear
    exact hiff.mp ((seq_plus p.1 i).symm.trans hseq)
  exact ⟨p, hp, by omega, by omega⟩

theorem sum_length (h : w.Inv c ps sb) :
    w.buffer.size = (w.buffer.data.map fun q => q.2.length).sum := by
  rw [h.size, h.data, map_map]
  unfold total
  congr 1
  refine map_congr_left fun p hp => ?_
  obtain ⟨-, hne, -, hlen⟩ := h.inside p hp
  exact (length_slice hne hlen).symm

/-- **The window** reaches as far from the first unread octet as the buffer is large. -/
theorem maxRxSequence_eq (h : w.Inv c ps sb) (hfin : w.buffer.gotFin = false) :
    w.buffer.maxRxSequence = c.seq w.windowEnd := by
  have hnext := h.next_le
  have hstart := h.start_le
  have hV : w.rcvNxt c = w.next := by
    rcases h.rcvNxt_cases with heq | ⟨-, -, hgot⟩
    · exact heq
    · rw [hfin] at hgot
      cases hgot
  unfold TcpRxBuffer.maxRxSequence windowEnd
  rw [if_neg (by rw [hfin]; exact Bool.false_ne_true), h.nextRxSeq, hV, h.data, h.maxBuffer]
  cases ps with
  | nil =>
    have hempty : w.next = w.extracted.length := by
      by_contra hne
      exact not_covers_nil _ (h.covered w.extracted.length (le_refl _) (by omega))
    rw [← hempty]
    exact seq_add_maxBuffer c w.next
  | cons p ps =>
    obtain ⟨hp, hfirst⟩ := h.first_cases (p := p) rfl
    have hp' := h.inside p hp
    have hgt : (c.seq w.next).gt (c.seq p.1) = decide (p.1 < w.next) :=
      gt_ofPos (near_of_mem (z := w.extracted.length) (by omega) (by omega))
    rw [map_cons]
    dsimp only
    rw [show (c.packet p).1 = c.seq p.1 from rfl, hgt]
    rcases hfirst with hfirst | ⟨hgap, hempty⟩
    · -- the first unread octet is stored, and more behind it
      have hlt : p.1 < w.next := by
        by_contra hle
        exact h.missing ⟨p, hp, by omega, by omega⟩
      rw [if_pos (decide_eq_true hlt), seq_add_maxBuffer, hfirst]
    · rw [if_neg (by rw [decide_eq_true_eq]; omega), seq_add_maxBuffer, hempty]

theorem delivers (h : w.Inv c ps sb) (hM : c.maxBuffer.toNat < 2 ^ 31) : w.Delivers c := by
  have hnext := h.next_le
  have hstart := h.start_le
  refine ⟨?_, h.nextRxSeq, fun x hx => h.got x (h.below_next hx), ?_, ⟨ps, h.data,
    h.ordered.pairwise, fun p hp => ?_⟩, h.sum_length, fun x hx hx' => h.holds (h.covered x hx hx'),
    fun hocc => h.missing (h.covers_of_occupied hstart hnext.2 hocc), ?_, h.maxRxSequence_eq, ?_⟩
  · rw [h.extracted]
    exact take_prefix _ _
  · rintro p hp ⟨hlow, hhigh⟩
    rcases h.kept p hp w.next hlow hhigh with hold | hcov
    · omega
    · exact h.missing hcov
  · obtain ⟨hlow, hne, -, hlen⟩ := h.inside p hp
    exact ⟨hlow, hne, hlen⟩
  · exact fun p hp x hlow hhigh => (h.kept p hp x hlow hhigh).imp_right h.holds
  · intro call henabled hfits
    obtain ⟨w', -, -, hstep, -⟩ := h.exists_step hM henabled hfits
    exact ⟨w', hstep⟩

end Inv

instance (c : ByteStream) (w : RxRun) (call : RxCall) :
    Decidable ((machine c).enabled w call) :=
  match call with
  | .add _ _ => inferInstanceAs (Decidable (_ ∧ _ ∧ _))
  | .fin => inferInstanceAs (Decidable (Near _ _))
  | .extract _ => inferInstanceAs (Decidable (_ < _))

instance (c : ByteStream) (w : RxRun) (call : RxCall) : Decidable (Fits c w call) :=
  match call with
  | .add x len =>
    match h : w.storedEnd c with
    | none => isTrue (by
      intro e he
      rw [h] at he
      cases he)
    | some e => decidable_of_iff (Near (x + len) e ∧ Near (w.rcvNxt c) e) (by
      constructor
      · rintro hnear e' he
        rw [h] at he
        cases he
        exact hnear
      · exact fun hnear => hnear e h)
  | .fin => isTrue trivial
  | .extract _ => inferInstanceAs (Decidable (Near _ _))

/-- **The receive buffer delivers the byte stream**, in every state that a run of calls reaches. -/
theorem delivers_of_run (c : ByteStream) (hM : c.maxBuffer.toNat < 2 ^ 31) (calls : List RxCall)
    (w : RxRun) (hrun : (machine c).Run (Fits c) (start c) calls w) : w.Delivers c := by
  have hinv : ∃ ps sb, w.Inv c ps sb := by
    refine hrun.invariant (fun w => ∃ ps sb, w.Inv c ps sb) ?_ ⟨[], [], inv_start c⟩
    rintro s call ⟨ps, sb, h⟩ henabled hfits
    obtain ⟨s', ps', sb', hstep, h'⟩ := h.exists_step hM henabled hfits
    have hstep' : (machine c).step s call = .ok s' := hstep
    rw [hstep']
    exact ⟨ps', sb', h'⟩
  obtain ⟨ps, sb, h⟩ := hinv
  exact h.delivers hM

/-- Twelve octets, and the sequence numbers wrap around after the third. -/
def sampleStream : ByteStream := ⟨[1, 2, 3, 4, 5, 6, 7, 8, 9, 10, 11, 12], 0xfffffffd, 20⟩

/-- Segments out of order, twice, overlapping and within others, and reads between them. -/
def sampleCalls : List RxCall :=
  [.add 6 2, .add 2 2, .add 1 7, .add 6 2, .fin, .extract 5, .add 0 3, .extract 5, .add 10 2,
    .add 4 7, .extract 100]

theorem delivers_of_run_sample :
    ∃ w, (machine sampleStream).Run (Fits sampleStream) (start sampleStream) sampleCalls w ∧
      w.extracted = sampleStream.octets ∧ w.buffer.nextRxSeq = 10 ∧ w.Delivers sampleStream := by
  obtain ⟨w, hrun, htest⟩ := Machine.exists_run_of_exec (m := machine sampleStream)
    (fun w call => decide (Fits sampleStream w call))
    (fun w => decide (w.extracted = sampleStream.octets ∧ w.buffer.nextRxSeq = 10))
    (start sampleStream) sampleCalls (by decide +kernel)
  have hfits := hrun.mono fun w call hcall => of_decide_eq_true hcall
  obtain ⟨hall, hnext⟩ := of_decide_eq_true htest
  exact ⟨w, hfits, hall, hnext, delivers_of_run sampleStream (by decide) _ w hfits⟩

/-- A buffer of nearly half the sequence space. -/
def wideStream : ByteStream := ⟨[1, 2, 3, 4, 5], 0, 0x7fffffff⟩

/-- A segment behind a gap, and then what was missing. -/
def wideCalls : List RxCall := [.add 4 1, .add 0 2]

/-- Without the condition: behind the gap, the end of the window is more than half the sequence
space from what is missing, which is thrown away. -/
theorem not_delivers_of_run :
    ¬ ∀ (c : ByteStream) (calls : List RxCall) (w : RxRun), c.maxBuffer.toNat < 2 ^ 31 →
      (machine c).Run (fun _ _ => True) (start c) calls w →
      ∀ p ∈ w.inWindow, ∀ x, p.1 ≤ x → x < p.2 → x < w.extracted.length ∨ w.Holds c x := by
  intro hkept
  obtain ⟨w, hrun, htest⟩ := Machine.exists_run_of_exec (m := machine wideStream) (fun _ _ => true)
    (fun w => decide ((0, 2) ∈ w.inWindow ∧ w.extracted = [] ∧ w.buffer.data = [(4, [5])]))
    (start wideStream) wideCalls (by decide +kernel)
  obtain ⟨hmem, hextracted, hdata⟩ := of_decide_eq_true htest
  rcases hkept wideStream wideCalls w (by decide) (hrun.mono fun _ _ _ => trivial) (0, 2) hmem 0
    (le_refl _) two_pos with hold | ⟨q, hq, i, o, hi, hseq, -⟩
  · rw [hextracted] at hold
    exact not_lt_zero _ hold
  · rw [hdata] at hq
    cases mem_singleton.mp hq
    cases i with
    | zero => exact absurd hseq (by decide)
    | succ i => cases hi

end RxRun

end Ns3Dsme.Internet
