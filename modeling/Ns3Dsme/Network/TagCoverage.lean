/-
# Which tags cover a byte

What the operations on a byte tag list do to the tags of each byte.  Ranges that lie outside of the
packet show nothing; they are cut off before bytes are added where they would.
-/
import Ns3Dsme.Network.ByteTagSharing

open List Option Signed32

namespace Ns3Dsme.Network

open ByteTagList TagRecord

/-! ## Which tags cover a byte -/

/-- A tag: its type and what it serializes to. -/
structure ByteTag where
  tid : BitVec 16
  content : List Octet
  deriving DecidableEq

/-- What a record says of one byte. -/
def TagRecord.tagAt (adjustment : ℤ) (i : ℕ) (r : TagRecord) : Option ByteTag :=
  if r.Covers adjustment i then some ⟨r.tid, r.content⟩ else none

/-- The tags that cover a byte. -/
def tagsAt (adjustment : ℤ) (rs : List TagRecord) (i : ℕ) : List ByteTag :=
  rs.filterMap (tagAt adjustment i)

/-- What a loop does to the tags of a byte: it keeps them or not. -/
structure ClipsAt (a b adj : ℤ) (clip : ℤ × ℤ → Option (ℤ × ℤ)) (rs : List TagRecord) (i : ℕ)
    (P : Prop) : Prop where
  some : ∀ r ∈ rs, ∀ q, (r.shown a b adj).bind clip = some q →
    (q.1 ≤ (i : ℤ) ∧ (i : ℤ) < q.2 ↔ P ∧ r.Covers adj i)
  none : ∀ r ∈ rs, (r.shown a b adj).bind clip = none → ¬ (P ∧ r.Covers adj i)

/-- The records that a loop leaves, seen at a byte. -/
theorem tagsAt_moved {a b adj adj' : ℤ} {clip : ℤ × ℤ → Option (ℤ × ℤ)} {rs : List TagRecord}
    {i : ℕ} {P : Prop} [Decidable P] (h : ClipsAt a b adj clip rs i P) :
    tagsAt adj' (rs.filterMap (moved a b adj adj' clip)) i =
      if P then tagsAt adj rs i else [] := by
  have hone : ∀ r ∈ rs, (r.moved a b adj adj' clip).bind (tagAt adj' i) =
      if P then r.tagAt adj i else none := by
    intro r hr
    have hsome := h.some r hr
    have hnone := h.none r hr
    unfold moved tagAt
    cases hq : (r.shown a b adj).bind clip with
    | none =>
      have hnot := hnone hq
      rw [map_none, bind_none]
      split
      · rename_i hP
        rw [if_neg fun hcovers => hnot ⟨hP, hcovers⟩]
      · rfl
    | some q =>
      have hiff := hsome q hq
      rw [map_some, bind_some]
      have hcovers : TagRecord.Covers adj' ⟨r.tid, q.1 - adj', q.2 - adj', r.content⟩ i ↔
          q.1 ≤ (i : ℤ) ∧ (i : ℤ) < q.2 := by
        unfold TagRecord.Covers
        dsimp only
        omega
      by_cases hP : P
      · rw [if_pos hP]
        by_cases hc : r.Covers adj i
        · rw [if_pos hc, if_pos (hcovers.mpr (hiff.mpr ⟨hP, hc⟩))]
        · rw [if_neg hc, if_neg fun hin => hc (hiff.mp (hcovers.mp hin)).2]
      · rw [if_neg hP, if_neg fun hin => hP (hiff.mp (hcovers.mp hin)).1]
  unfold tagsAt
  rw [filterMap_filterMap, filterMap_congr hone]
  split
  · rfl
  · exact filterMap_eq_nil_iff.mpr fun r _ => rfl

/-- The ranges that are left lie in 32 bits. -/
theorem Clips.ranged {a b adj : ℤ} {clip : ℤ × ℤ → Option (ℤ × ℤ)} {rs : List TagRecord}
    (h : Clips a b adj 0 clip rs) : Ranged 0 (rs.filterMap (moved a b adj 0 clip)) := by
  intro r hr
  obtain ⟨r₀, hr₀, hmoved⟩ := mem_filterMap.mp hr
  unfold moved at hmoved
  obtain ⟨q, hq, rfl⟩ := map_eq_some_iff.mp hmoved
  obtain ⟨-, hlow, hhigh⟩ := h r₀ hr₀ q hq
  dsimp only
  rw [add_zero, add_zero]
  exact ⟨hlow, hhigh⟩

theorem tagsAt_append (adj : ℤ) (rs rs' : List TagRecord) (i : ℕ) :
    tagsAt adj (rs ++ rs') i = tagsAt adj rs i ++ tagsAt adj rs' i :=
  filterMap_append

theorem tagsAt_singleton (adj : ℤ) (r : TagRecord) (i : ℕ) :
    tagsAt adj [r] i = if r.Covers adj i then [⟨r.tid, r.content⟩] else [] := by
  have htag : tagsAt adj [r] i = (r.tagAt adj i).toList := by
    unfold tagsAt
    cases hr : r.tagAt adj i with
    | none => rw [filterMap_cons_none hr, filterMap_nil, toList_none]
    | some t => rw [filterMap_cons_some hr, filterMap_nil, toList_some]
  rw [htag]
  unfold tagAt
  split
  · rfl
  · rfl

/-- Moving all ranges moves what they cover. -/
theorem tagsAt_shift (adj n : ℤ) (rs : List TagRecord) {i j : ℕ} (h : (i : ℤ) = j + n) :
    tagsAt (adj + n) rs i = tagsAt adj rs j := by
  refine filterMap_congr fun r _ => ?_
  unfold tagAt
  have hiff : r.Covers (adj + n) i ↔ r.Covers adj j := by
    unfold TagRecord.Covers
    omega
  by_cases hc : r.Covers adj j
  · rw [if_pos hc, if_pos (hiff.mpr hc)]
  · rw [if_neg hc, if_neg fun hin => hc (hiff.mp hin)]

/-- A byte that no range reaches. -/
theorem tagsAt_eq_nil {adj : ℤ} {rs : List TagRecord} {i : ℕ} (h : ∀ r ∈ rs, ¬ r.Covers adj i) :
    tagsAt adj rs i = [] :=
  filterMap_eq_nil_iff.mpr fun r hr => if_neg (h r hr)

/-! ## The records of a list -/

/-- The records that octets say. -/
def decode : ℕ → List Octet → List TagRecord
  | fuel + 1, a₀ :: a₁ :: a₂ :: a₃ :: b₀ :: b₁ :: b₂ :: b₃ :: c₀ :: c₁ :: c₂ :: c₃ :: d₀ :: d₁ ::
      d₂ :: d₃ :: rest =>
    let size := (Octet.word32 b₃ b₂ b₁ b₀).toNat
    ⟨(Octet.word32 a₃ a₂ a₁ a₀).setWidth 16, (Octet.word32 c₃ c₂ c₁ c₀).toInt,
      (Octet.word32 d₃ d₂ d₁ d₀).toInt, rest.take size⟩ :: decode fuel (rest.drop size)
  | _, _ => []

theorem decode_octetsOf (fuel : ℕ) (rs : List TagRecord) (hgood : ∀ r ∈ rs, r.Good)
    (hfuel : rs.length ≤ fuel) : decode fuel (octetsOf rs) = rs := by
  induction rs generalizing fuel with
  | nil =>
    cases fuel with
    | zero => rfl
    | succ fuel => rfl
  | cons r rest ih =>
    cases fuel with
    | zero => exact absurd hfuel (Nat.not_succ_le_zero _)
    | succ fuel =>
      have hr := hgood r mem_cons_self
      have hsize : (BitVec.ofNat 32 r.content.length).toNat = r.content.length := by
        rw [BitVec.toNat_ofNat, Nat.mod_eq_of_lt hr.length]
      have hstart : (BitVec.ofInt 32 r.start).toInt = r.start := by
        rw [BitVec.toInt_ofInt]
        exact wrap_eq hr.start
      have hstop : (BitVec.ofInt 32 r.stop).toInt = r.stop := by
        rw [BitVec.toInt_ofInt]
        exact wrap_eq hr.stop
      have hrest := ih fuel (fun r' hr' => hgood r' (mem_cons_of_mem _ hr'))
        (Nat.le_of_succ_le_succ hfuel)
      rw [octetsOf_cons]
      unfold octets Octet.lowFirst32
      simp only [cons_append, nil_append, decode, Octet.word32_octets32, hsize, hstart,
        hstop, take_left, drop_left, hrest,
        BitVec.setWidth_setWidth_of_le _ (by decide : 16 ≤ 32), BitVec.setWidth_eq]

/-- The records that a list holds. -/
def ByteTagList.records (l : ByteTagList) (s : ByteTagStore) : List TagRecord :=
  match l.data with
  | none => []
  | some p => decode l.used (Memory.span (s.areas p).data 0 l.used)

theorem ByteTagList.Holds.records_eq {l : ByteTagList} {s : ByteTagStore} {rs : List TagRecord}
    (h : l.Holds s rs) : l.records s = rs := by
  unfold records
  cases hdata : l.data with
  | none => exact (h.unallocated hdata).symm
  | some p =>
    dsimp only
    rw [h.stored p hdata]
    refine decode_octetsOf _ _ h.good ?_
    rw [h.used]
    exact length_le_octetsOf rs

/-! ## The operations on lists -/

/-- A range that the loops over all tags show. -/
theorem TagRecord.shown_cases {r : TagRecord} {adj : ℤ}
    (hranged : InRange (r.start + adj) ∧ InRange (r.stop + adj)) :
    r.shown 0 (2 ^ 31 - 1) adj = none ∧ (2 ^ 31 - 1 ≤ r.start + adj ∨ r.stop + adj ≤ 0) ∨
      r.shown 0 (2 ^ 31 - 1) adj = some (max (r.start + adj) 0, r.stop + adj) ∧
        r.start + adj < 2 ^ 31 - 1 ∧ 0 < r.stop + adj := by
  unfold shown
  by_cases hhidden : 2 ^ 31 - 1 ≤ r.start + adj ∨ r.stop + adj ≤ 0
  · exact .inl ⟨if_pos hhidden, hhidden⟩
  · obtain ⟨-, hstop⟩ := hranged
    unfold InRange at hstop
    refine .inr ⟨?_, by omega, by omega⟩
    rw [if_neg hhidden, min_eq_left (by omega : r.stop + adj ≤ 2 ^ 31 - 1)]

section Clipping

variable {rs : List TagRecord} {adj : ℤ} (hgood : ∀ r ∈ rs, r.Good) (hranged : Ranged adj rs)
include hgood hranged

theorem clips_clipEnd (off : ℕ) (hoff : off < 2 ^ 31) :
    Clips 0 (2 ^ 31 - 1) adj 0 (clipEnd off) rs ∧
      ∀ i : ℕ, ClipsAt 0 (2 ^ 31 - 1) adj (clipEnd off) rs i (i < off) := by
  refine ⟨fun r hr q hq => ?_, fun i => ⟨fun r hr q hq => ?_, fun r hr hq => ?_⟩⟩
  · have hle := (hgood r hr).start_le
    have hin := hranged r hr
    rcases shown_cases hin with ⟨hshown, -⟩ | ⟨hshown, hlow, hhigh⟩
    · rw [hshown] at hq
      cases hq
    · rw [hshown, bind_some] at hq
      unfold clipEnd at hq
      unfold InRange at *
      split at hq
      · cases hq
      · cases hq
        dsimp only at *
        omega
  · have hin := hranged r hr
    unfold TagRecord.Covers
    rcases shown_cases hin with ⟨hshown, -⟩ | ⟨hshown, hlow, hhigh⟩
    · rw [hshown] at hq
      cases hq
    · rw [hshown, bind_some] at hq
      unfold clipEnd at hq
      split at hq
      · cases hq
      · cases hq
        dsimp only at *
        omega
  · have hin := hranged r hr
    unfold TagRecord.Covers
    rcases shown_cases hin with ⟨hshown, hout⟩ | ⟨hshown, hlow, hhigh⟩
    · omega
    · rw [hshown, bind_some] at hq
      unfold clipEnd at hq
      split at hq
      · rename_i hle
        dsimp only at hle
        omega
      · cases hq

theorem clips_clipStart (off : ℕ) (hoff : off < 2 ^ 31) :
    Clips 0 (2 ^ 31 - 1) adj 0 (clipStart off) rs ∧
      ∀ i : ℕ, i < 2 ^ 31 - 1 →
        ClipsAt 0 (2 ^ 31 - 1) adj (clipStart off) rs i (off ≤ i) := by
  refine ⟨fun r hr q hq => ?_, fun i hi => ⟨fun r hr q hq => ?_, fun r hr hq => ?_⟩⟩
  · have hle := (hgood r hr).start_le
    have hin := hranged r hr
    rcases shown_cases hin with ⟨hshown, -⟩ | ⟨hshown, hlow, hhigh⟩
    · rw [hshown] at hq
      cases hq
    · rw [hshown, bind_some] at hq
      unfold clipStart at hq
      unfold InRange at *
      split at hq
      · cases hq
      · cases hq
        dsimp only at *
        omega
  · have hin := hranged r hr
    unfold TagRecord.Covers
    rcases shown_cases hin with ⟨hshown, -⟩ | ⟨hshown, hlow, hhigh⟩
    · rw [hshown] at hq
      cases hq
    · rw [hshown, bind_some] at hq
      unfold clipStart at hq
      split at hq
      · cases hq
      · cases hq
        dsimp only at *
        omega
  · have hin := hranged r hr
    unfold TagRecord.Covers
    rcases shown_cases hin with ⟨hshown, hout⟩ | ⟨hshown, hlow, hhigh⟩
    · omega
    · rw [hshown, bind_some] at hq
      unfold clipStart at hq
      split at hq
      · rename_i hle
        dsimp only at hle
        omega
      · cases hq

end Clipping

namespace ByteTagStore.Sound

variable {s : ByteTagStore} {l t : ByteTagList} {rs ts : List TagRecord} {os : List TagOwner}

/-- **`AddAtEnd`**: nothing covers the bytes from the offset on any more. -/
theorem addAtEnd (h : s.Sound ((l, rs) :: os)) (hranged : Ranged l.adjustment rs) (off : ℕ)
    (hoff : InRange (off - l.adjustment)) (hsmall : off < 2 ^ 31) :
    ∃ l' rs' s', l.addAtEnd s off = .ok (l', s') ∧ s'.Sound ((l', rs') :: os) ∧
      (l'.adjustment = l.adjustment ∨ l'.adjustment = 0) ∧ Ranged l'.adjustment rs' ∧
      l'.used ≤ l.used ∧
      ∀ i : ℕ, tagsAt l'.adjustment rs' i = if i < off then tagsAt l.adjustment rs i else [] := by
  have hl : l.Holds s rs := h.holds _ mem_cons_self
  unfold ByteTagList.addAtEnd
  rw [wrap_eq hoff]
  by_cases hmax : l.maxEnd ≤ off - l.adjustment
  · rw [if_pos hmax]
    refine ⟨l, rs, s, rfl, h, .inl rfl, hranged, le_refl _, fun i => ?_⟩
    split
    · rfl
    · rename_i hlt
      refine tagsAt_eq_nil fun r hr hcovers => ?_
      have hend := hl.maxEnd r hr
      have hin := hcovers.2
      omega
  · rw [if_neg hmax]
    obtain ⟨hclips, hat⟩ := clips_clipEnd hl.good hranged off hsmall
    obtain ⟨l', s', hrebuild, hzero, hused, hsound⟩ := h.rebuild hranged hclips
    refine ⟨l', _, s', hrebuild, hsound, .inr hzero, ?_, hused, fun i => ?_⟩
    · rw [hzero]
      exact hclips.ranged
    · rw [hzero]
      exact tagsAt_moved (hat i)

/-- **`AddAtStart`**: nothing covers the bytes before the offset any more. -/
theorem addAtStart (h : s.Sound ((l, rs) :: os)) (hranged : Ranged l.adjustment rs) (off : ℕ)
    (hoff : InRange (off - l.adjustment)) (hsmall : off < 2 ^ 31) :
    ∃ l' rs' s', l.addAtStart s off = .ok (l', s') ∧ s'.Sound ((l', rs') :: os) ∧
      (l'.adjustment = l.adjustment ∨ l'.adjustment = 0) ∧ Ranged l'.adjustment rs' ∧
      l'.used ≤ l.used ∧
      (∀ r' ∈ rs', off ≤ r'.start + l'.adjustment ∧
        ∃ r ∈ rs, r'.stop + l'.adjustment = r.stop + l.adjustment) ∧
      ∀ i : ℕ, i < 2 ^ 31 - 1 →
        tagsAt l'.adjustment rs' i = if off ≤ i then tagsAt l.adjustment rs i else [] := by
  have hl : l.Holds s rs := h.holds _ mem_cons_self
  unfold ByteTagList.addAtStart
  rw [wrap_eq hoff]
  by_cases hmin : off - l.adjustment ≤ l.minStart
  · rw [if_pos hmin]
    have hbehind : ∀ r ∈ rs, (off : ℤ) ≤ r.start + l.adjustment := by
      intro r hr
      have hstart := hl.minStart r hr
      omega
    refine ⟨l, rs, s, rfl, h, .inl rfl, hranged, le_refl _,
      fun r hr => ⟨hbehind r hr, r, hr, rfl⟩, fun i hi => ?_⟩
    split
    · rfl
    · rename_i hlt
      refine tagsAt_eq_nil fun r hr hcovers => ?_
      have hstart := hbehind r hr
      have hin := hcovers.1
      omega
  · rw [if_neg hmin]
    obtain ⟨hclips, hat⟩ := clips_clipStart hl.good hranged off hsmall
    obtain ⟨l', s', hrebuild, hzero, hused, hsound⟩ := h.rebuild hranged hclips
    refine ⟨l', _, s', hrebuild, hsound, .inr hzero, ?_, hused, fun r' hr' => ?_, fun i hi => ?_⟩
    · rw [hzero]
      exact hclips.ranged
    · rw [hzero]
      obtain ⟨r, hr, hmoved⟩ := mem_filterMap.mp hr'
      unfold moved at hmoved
      obtain ⟨q, hq, rfl⟩ := map_eq_some_iff.mp hmoved
      rcases shown_cases (hranged r hr) with ⟨hshown, -⟩ | ⟨hshown, -, -⟩
      · rw [hshown] at hq
        cases hq
      · rw [hshown, bind_some] at hq
        unfold clipStart at hq
        split at hq
        · cases hq
        · cases hq
          dsimp only
          exact ⟨by omega, r, hr, by omega⟩
    · rw [hzero]
      exact tagsAt_moved (hat i hi)

/-- **`Add (o)`** for a list whose tags all lie behind its start. -/
theorem addAll (h : s.Sound ((t, ts) :: os)) (ho : (l, rs) ∈ os) (hranged : Ranged l.adjustment rs)
    (hstart : ∀ r ∈ rs, 0 ≤ r.start + l.adjustment)
    (hplace : ∀ r ∈ rs, InRange (r.start + l.adjustment - t.adjustment) ∧
      InRange (r.stop + l.adjustment - t.adjustment)) (hsize : t.used + l.used < 2 ^ 32) :
    ∃ t' ts' s', t.addAll s l = .ok (t', s') ∧ s'.Sound ((t', ts') :: os) ∧
      t'.adjustment = t.adjustment ∧ (Ranged t.adjustment ts → Ranged t'.adjustment ts') ∧
      ∀ i : ℕ, i < 2 ^ 31 - 1 → tagsAt t'.adjustment ts' i =
        tagsAt t.adjustment ts i ++ tagsAt l.adjustment rs i := by
  have hl : l.Holds s rs := h.holds _ (mem_cons_of_mem _ ho)
  have hclips : Clips 0 (2 ^ 31 - 1) l.adjustment t.adjustment some rs := by
    intro r hr q hq
    have hle := (hl.good r hr).start_le
    have hpos := hstart r hr
    obtain ⟨hlow, hhigh⟩ := hplace r hr
    rcases shown_cases (hranged r hr) with ⟨hshown, -⟩ | ⟨hshown, -, -⟩
    · rw [hshown] at hq
      cases hq
    · rw [hshown, max_eq_left hpos] at hq
      cases hq
      exact ⟨by dsimp only; omega, hlow, hhigh⟩
  obtain ⟨t', s', hadd, hadj, hsound⟩ := h.addFrom ho hranged hclips hsize
  refine ⟨t', _, s', hadd, hsound, hadj, fun hts r' hr' => ?_, fun i hi => ?_⟩
  · rw [hadj]
    rcases mem_append.mp hr' with hold | hnew
    · exact hts r' hold
    · obtain ⟨r, hr, hmoved⟩ := mem_filterMap.mp hnew
      have hle := (hl.good r hr).start_le
      have hpos := hstart r hr
      have hin := hranged r hr
      unfold moved at hmoved
      obtain ⟨q, hq, rfl⟩ := map_eq_some_iff.mp hmoved
      rcases shown_cases hin with ⟨hshown, -⟩ | ⟨hshown, -, -⟩
      · rw [hshown] at hq
        cases hq
      · rw [hshown, max_eq_left hpos] at hq
        cases hq
        dsimp only
        rw [sub_add_cancel, sub_add_cancel]
        exact hin
  · rw [hadj, tagsAt_append]
    congr 1
    have hat : ClipsAt 0 (2 ^ 31 - 1) l.adjustment some rs i True := by
      refine ⟨fun r hr q hq => ?_, fun r hr hq => ?_⟩
      · have hpos := hstart r hr
        unfold TagRecord.Covers
        rcases shown_cases (hranged r hr) with ⟨hshown, -⟩ | ⟨hshown, -, -⟩
        · rw [hshown] at hq
          cases hq
        · rw [hshown, max_eq_left hpos] at hq
          cases hq
          exact ⟨fun hin => ⟨trivial, hin⟩, fun hin => hin.2⟩
      · unfold TagRecord.Covers
        rcases shown_cases (hranged r hr) with ⟨-, hout⟩ | ⟨hshown, -, -⟩
        · omega
        · rw [hshown] at hq
          cases hq
    rw [tagsAt_moved hat, if_pos trivial]

end ByteTagStore.Sound

end Ns3Dsme.Network
