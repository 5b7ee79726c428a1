/-
# Segmentation and concatenation in RLC UM

The loop over the segments charges each length indicator to the opportunity when it is pushed, and
the header has just as many octets, as long as sixteen bits can count them.  The PDU takes a front
of the buffered stream, and its length indicators are the ends of the SDUs inside it.
-/
import Ns3Dsme.Lte.RlcUm

open List

namespace Ns3Dsme.Lte

open LengthFields (fieldOctets)

/-! ## Sizes -/

theorem length_stream (ps : List Sdu) : (stream ps).length = waiting ps := by
  induction ps with
  | nil => rfl
  | cons p ps ih =>
    unfold stream at ih ⊢
    rw [flatMap_cons, length_append, ih]
    rfl

theorem fieldOctets_le {m n : ℕ} (h : m ≤ n) : fieldOctets m ≤ fieldOctets n := by
  unfold LengthFields.fieldOctets
  omega

/-! ## The buffer -/

/-- SDUs and what is left of them. -/
def Waits (p : Sdu) : Prop := 0 < p.size ∧ (p.status = .fullSdu ∨ p.status = .lastSegment)

/-- The segment with the first octets of what waits. -/
def segmentOf (p : Sdu) (c : ℕ) : Sdu :=
  ⟨p.octets.take c, if c = p.size then p.status else (Sdu.cutStatus p.status).1⟩

/-- What is left. -/
def restOf (p : Sdu) (c : ℕ) : List Sdu :=
  if c < p.size then [⟨p.octets.drop c, .lastSegment⟩] else []

/-- There is room for `m` whole segments and something behind them, with `k` length indicators so
far. -/
structure Room (next k : ℕ) (entries : List Sdu) (m : ℕ) : Prop where
  lt : m < entries.length
  small : ∀ p ∈ entries.take m, p.size ≤ 2047
  fits : waiting (entries.take m) + fieldOctets (k + m - 1) + 2 < next + fieldOctets k

/-- What the loop makes of the entries: those in `pre` whole, and `c` octets of `p`. -/
structure Filled (k : ℕ) (d : UmDraft) (entries : List Sdu) (r : UmDraft × List Sdu × ℕ)
    (pre : List Sdu) (p : Sdu) (post : List Sdu) (c : ℕ) : Prop where
  entries_eq : entries = pre ++ p :: post
  pos : 0 < c
  le : c ≤ p.size
  dataField : r.1.dataField = d.dataField ++ (pre ++ [segmentOf p c])
  rest : r.2.1 = restOf p c ++ post
  size : r.2.2 = waiting r.2.1
  small : ∀ q ∈ pre, q.size ≤ 2047
  fits : waiting pre + c + fieldOctets (k + pre.length) ≤ d.nextSegmentSize + fieldOctets k
  lengthIndicators : r.1.header.lengths.lengthIndicators =
    d.header.lengths.lengthIndicators ++ pre.map fun q => BitVec.ofNat 16 q.size
  extensionBits : r.1.header.lengths.extensionBits = d.header.lengths.extensionBits ++
    (List.replicate pre.length LengthFields.eLiFieldsFollow ++ [LengthFields.dataFieldFollows])
  charged : r.1.header.lengths.Charged 2
  count : ∀ m, 0 < m → (m ≤ pre.length ↔ Room d.nextSegmentSize k entries m)

section

variable {next k m : ℕ} {f : Sdu} {others : List Sdu}

/-- The first of several whole segments. -/
theorem Room.head (h : Room next k (f :: others) m) (hm : 0 < m) :
    f.size ≤ 2047 ∧ f.size + 2 < next ∧ others ≠ [] := by
  obtain ⟨m, rfl⟩ : ∃ j, m = j + 1 := ⟨m - 1, by omega⟩
  have hfits := h.fits
  have hlt := h.lt
  have hcharge : fieldOctets k ≤ fieldOctets (k + (m + 1) - 1) := fieldOctets_le (by omega)
  rw [take_succ_cons, waiting_cons] at hfits
  refine ⟨h.small f (mem_cons_self ..), ?_, ?_⟩
  · omega
  · intro hnil
    rw [hnil] at hlt
    exact absurd hlt (by simp)

/-- The charge for a length indicator. -/
theorem charge_eq (k : ℕ) :
    fieldOctets (k + 1) = fieldOctets k + if (k + 1) % 2 = 1 then 2 else 1 := by
  unfold LengthFields.fieldOctets
  split
  · omega
  · omega

/-- Room for one segment more, behind the first. -/
theorem room_succ_iff (hsmall : f.size ≤ 2047) (hnext : f.size + 2 < next) (hne : others ≠ []) :
    Room next k (f :: others) (m + 1) ↔
      m = 0 ∨ Room (next - ((if (k + 1) % 2 = 1 then 2 else 1) + f.size)) (k + 1) others m := by
  have hcharge := charge_eq k
  have hlength := length_pos_iff.mpr hne
  constructor
  · intro h
    rcases Nat.eq_zero_or_pos m with hzero | hpos
    · exact .inl hzero
    · have hfits := h.fits
      rw [take_succ_cons, waiting_cons] at hfits
      have hindex : k + (m + 1) - 1 = k + 1 + m - 1 := by omega
      rw [hindex] at hfits
      refine .inr ⟨Nat.lt_of_succ_lt_succ h.lt, ?_, ?_⟩
      · intro p hp
        exact h.small p (mem_cons_of_mem _ hp)
      · split at hcharge
        · rename_i hodd
          rw [if_pos hodd]
          omega
        · rename_i heven
          rw [if_neg heven]
          omega
  · rintro (rfl | h)
    · refine ⟨Nat.succ_lt_succ hlength, ?_, ?_⟩
      · intro p hp
        rw [take_succ_cons, take_zero, mem_singleton] at hp
        rw [hp]
        exact hsmall
      · show waiting [f] + fieldOctets k + 2 < next + fieldOctets k
        show f.size + 0 + fieldOctets k + 2 < next + fieldOctets k
        omega
    · have hfits := h.fits
      refine ⟨Nat.succ_lt_succ h.lt, ?_, ?_⟩
      · intro p hp
        rw [take_succ_cons] at hp
        rcases mem_cons.mp hp with rfl | hp
        · exact hsmall
        · exact h.small p hp
      · have hindex : k + (m + 1) - 1 = k + m := by omega
        have hindex' : k + 1 + m - 1 = k + m := by omega
        rw [take_succ_cons, waiting_cons, hindex]
        rw [hindex'] at hfits
        split at hcharge
        · rename_i hodd
          rw [if_pos hodd] at hfits
          omega
        · rename_i heven
          rw [if_neg heven] at hfits
          omega

/-! ## The loop over the segments -/

/-- The header so far. -/
def UmDraft.Charged (d : UmDraft) : Prop :=
  d.header.lengths.extensionBits ≠ [] → d.header.lengths.Charged 2

/-- The last segment. -/
theorem filled_close {d : UmDraft} {c size : ℕ} {rest : List Sdu} (hcharged : d.Charged)
    (hpos : 0 < c) (hle : c ≤ f.size) (hnext : c ≤ d.nextSegmentSize)
    (hrest : rest = restOf f c ++ others) (hsize : size = waiting rest)
    (hnot : ¬ (f.size ≤ 2047 ∧ f.size + 2 < d.nextSegmentSize ∧ others ≠ [])) :
    Filled k d (f :: others) (d.close (segmentOf f c), rest, size) [] f others c := by
  refine ⟨rfl, hpos, hle, rfl, hrest, hsize, ?_, ?_, ?_, rfl, ?_, ?_⟩
  · intro q hq
    cases hq
  · show 0 + c + fieldOctets k ≤ d.nextSegmentSize + fieldOctets k
    omega
  · exact (append_nil _).symm
  · exact LteRlcHeader.charged_pushExtensionBit hcharged _
  · intro m hm
    constructor
    · intro hzero
      exact absurd hm (Nat.not_lt_of_le hzero)
    · intro hroom
      exact absurd (hroom.head hm) hnot

/-- A segment, and those behind it. -/
theorem Filled.push {d : UmDraft} {r : UmDraft × List Sdu × ℕ} {pre post : List Sdu} {p : Sdu}
    {c : ℕ} (hid : d.nextSegmentId = k + 1) (hsmall : f.size ≤ 2047)
    (hnext : f.size + 2 < d.nextSegmentSize) (hne : others ≠ [])
    (h : Filled (k + 1) (d.push f) others r pre p post c) :
    Filled k d (f :: others) r (f :: pre) p post c := by
  have hsize : (d.push f).nextSegmentSize =
      d.nextSegmentSize - ((if (k + 1) % 2 = 1 then 2 else 1) + f.size) := by
    rw [← hid]
    rfl
  refine ⟨?_, h.pos, h.le, ?_, h.rest, h.size, ?_, ?_, ?_, ?_, h.charged, ?_⟩
  · rw [h.entries_eq]
    rfl
  · rw [h.dataField]
    show (d.dataField ++ [f]) ++ (pre ++ [segmentOf p c]) = _
    rw [append_assoc]
    rfl
  · intro q hq
    rcases mem_cons.mp hq with rfl | hq
    · exact hsmall
    · exact h.small q hq
  · have hfits := h.fits
    have hcharge := charge_eq k
    have hindex : k + 1 + pre.length = k + (pre.length + 1) := by omega
    rw [hsize, hindex] at hfits
    rw [waiting_cons, length_cons]
    split at hcharge
    · rename_i hodd
      rw [if_pos hodd] at hfits
      omega
    · rename_i heven
      rw [if_neg heven] at hfits
      omega
  · rw [h.lengthIndicators]
    show (d.header.lengths.lengthIndicators ++ [BitVec.ofNat 16 f.size]) ++ _ = _
    rw [append_assoc]
    rfl
  · rw [h.extensionBits]
    show (d.header.lengths.extensionBits ++ [LengthFields.eLiFieldsFollow]) ++ _ = _
    rw [append_assoc]
    rfl
  · intro m hm
    obtain ⟨m, rfl⟩ : ∃ j, m = j + 1 := ⟨m - 1, by omega⟩
    rw [room_succ_iff hsmall hnext hne, ← hsize, length_cons, Nat.succ_le_succ_iff]
    rcases Nat.eq_zero_or_pos m with hzero | hpos
    · constructor
      · exact fun _ => .inl hzero
      · intro _
        omega
    · rw [h.count m hpos]
      constructor
      · exact .inr
      · rintro (hzero | hroom)
        · omega
        · exact hroom

theorem segmentOf_size (f : Sdu) : segmentOf f f.size = f := by
  unfold segmentOf Sdu.size
  rw [if_pos rfl, take_length]

/-- The branch that cuts a segment off, or takes a large one whole. -/
theorem fill_cut {d : UmDraft} (hcharged : d.Charged) (hpos : 0 < d.nextSegmentSize) (hf : Waits f)
    (hcut : d.nextSegmentSize < f.size ∨ 2047 < f.size) :
    Filled k d (f :: others) (d.fill f (waiting others) others) [] f others
      (min f.size d.nextSegmentSize) := by
  obtain ⟨hsize, hstatus⟩ := hf
  have hgo : ¬ (f.size = 0 ∨ d.nextSegmentSize = 0) := by omega
  have hnot : ¬ (f.size ≤ 2047 ∧ f.size + 2 < d.nextSegmentSize ∧ others ≠ []) := by
    rintro ⟨hsmall, hfits, -⟩
    omega
  have hmin : 0 < min f.size d.nextSegmentSize := by omega
  have hlast : (Sdu.cutStatus f.status).2 = .lastSegment := by
    rcases hstatus with h | h
    · rw [h]
      rfl
    · rw [h]
      rfl
  have hrest : (Sdu.mk (f.octets.drop (min f.size d.nextSegmentSize))
      (Sdu.cutStatus f.status).2).size = f.size - min f.size d.nextSegmentSize :=
    length_drop
  unfold UmDraft.fill
  rw [if_neg hgo, if_pos hcut]
  dsimp only
  rw [hrest]
  by_cases hpart : min f.size d.nextSegmentSize < f.size
  · have hsegment : segmentOf f (min f.size d.nextSegmentSize) =
        ⟨f.octets.take (min f.size d.nextSegmentSize), (Sdu.cutStatus f.status).1⟩ := by
      unfold segmentOf
      rw [if_neg (Nat.ne_of_lt hpart)]
    rw [if_pos (by omega), ← hsegment]
    apply filled_close hcharged hmin (by omega) (by omega) _ _ hnot
    · unfold restOf
      rw [if_pos hpart, hlast]
      rfl
    · rw [waiting_cons, hrest, Nat.add_comm]
  · have hwhole : min f.size d.nextSegmentSize = f.size := by omega
    have hadjusted : Sdu.wholeStatus (Sdu.cutStatus f.status).1 = f.status := by
      rcases hstatus with h | h
      · rw [h]
        rfl
      · rw [h]
        rfl
    have hsegment : segmentOf f (min f.size d.nextSegmentSize) =
        ⟨f.octets.take (min f.size d.nextSegmentSize),
          Sdu.wholeStatus (Sdu.cutStatus f.status).1⟩ := by
      unfold segmentOf
      rw [if_pos hwhole, hadjusted]
    rw [if_neg (by omega), ← hsegment]
    apply filled_close hcharged hmin (by omega) (by omega) _ rfl hnot
    unfold restOf
    rw [if_neg hpart]
    rfl

/-- The branch that ends with a whole segment. -/
theorem filled_close_whole {d : UmDraft} (hcharged : d.Charged) (hf : Waits f)
    (hcut : ¬ (d.nextSegmentSize < f.size ∨ 2047 < f.size))
    (hend : others = [] ∨ d.nextSegmentSize - f.size ≤ 2) :
    Filled k d (f :: others) (d.close f, others, waiting others) [] f others f.size := by
  have hrest : others = restOf f f.size ++ others := by
    unfold restOf
    rw [if_neg (Nat.lt_irrefl _)]
    rfl
  have hnot : ¬ (f.size ≤ 2047 ∧ f.size + 2 < d.nextSegmentSize ∧ others ≠ []) := by
    rintro ⟨-, hfits, hne⟩
    rcases hend with hnil | hfull
    · exact hne hnil
    · omega
  have hclose := filled_close (k := k) hcharged hf.1 (Nat.le_refl _) (by omega) hrest rfl hnot
  rw [segmentOf_size] at hclose
  exact hclose

/-- **The loop** takes whole entries and a part of the next one. -/
theorem exists_filled (d : UmDraft) (hcharged : d.Charged) (hid : d.nextSegmentId = k + 1)
    (hpos : 0 < d.nextSegmentSize) (hwaits : ∀ p ∈ f :: others, Waits p) :
    ∃ pre p post c,
      Filled k d (f :: others) (d.fill f (waiting others) others) pre p post c := by
  induction others generalizing d f k with
  | nil =>
    have hf := hwaits f (mem_cons_self ..)
    by_cases hcut : d.nextSegmentSize < f.size ∨ 2047 < f.size
    · exact ⟨[], f, [], _, fill_cut hcharged hpos hf hcut⟩
    · have hgo : ¬ (f.size = 0 ∨ d.nextSegmentSize = 0) := by
        have hsize := hf.1
        omega
      unfold UmDraft.fill
      rw [if_neg hgo, if_neg hcut]
      exact ⟨[], f, [], f.size, filled_close_whole hcharged hf hcut (.inl rfl)⟩
  | cons next' others ih =>
    have hf := hwaits f (mem_cons_self ..)
    by_cases hcut : d.nextSegmentSize < f.size ∨ 2047 < f.size
    · exact ⟨[], f, next' :: others, _, fill_cut hcharged hpos hf hcut⟩
    · have hgo : ¬ (f.size = 0 ∨ d.nextSegmentSize = 0) := by
        have hsize := hf.1
        omega
      unfold UmDraft.fill
      rw [if_neg hgo, if_neg hcut]
      dsimp only
      by_cases hfull : d.nextSegmentSize - f.size ≤ 2
      · rw [if_pos hfull]
        exact ⟨[], f, next' :: others, f.size,
          filled_close_whole hcharged hf hcut (.inr hfull)⟩
      · -- the length indicator is charged, and the loop goes on with the next entry
        rw [if_neg hfull, waiting_cons, Nat.add_sub_cancel_left]
        have hpushed : (d.push f).Charged := by
          intro _
          exact LteRlcHeader.charged_pushExtensionBit hcharged _
        have hroom : 0 < (d.push f).nextSegmentSize := by
          show 0 < d.nextSegmentSize - ((if d.nextSegmentId % 2 = 1 then 2 else 1) + f.size)
          split
          · omega
          · omega
        have hothers : ∀ p ∈ next' :: others, Waits p := by
          intro p hp
          exact hwaits p (mem_cons_of_mem _ hp)
        have hcount : (d.push f).nextSegmentId = (k + 1) + 1 := by
          rw [← hid]
          rfl
        obtain ⟨pre, p, post, c, hfilled⟩ := ih (d.push f) hpushed hcount hroom hothers
        exact ⟨f :: pre, p, post, c,
          hfilled.push hid (by omega) (by omega) (cons_ne_nil _ _)⟩

end

end Ns3Dsme.Lte
