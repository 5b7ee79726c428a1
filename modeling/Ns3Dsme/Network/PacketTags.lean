/-
# What the operations on packets do to tags

One lemma for each operation, and the invariant of all packets that share storage.
-/
import Ns3Dsme.Network.Packet

open List Program Signed32

namespace Ns3Dsme.Network

open Slots TagRecord

/-! ## One packet -/

/-- The records of a packet cover each byte with the tags that were attached to it. -/
structure Tagged (p : Packet) (ref : List (List ByteTag)) (rs : List TagRecord) : Prop where
  length : ref.length = p.size
  small : p.size < 2 ^ 31
  ranged : Ranged p.byteTagList.adjustment rs
  tags : ∀ i < p.size, ref[i]? = some (tagsAt p.byteTagList.adjustment rs i)

theorem wrap_natCast {n : ℕ} (h : n < 2 ^ 31) : wrap (n : ℤ) = n :=
  wrap_eq ⟨by omega, by omega⟩

section Operations

variable {s : ByteTagStore} {p q : Packet} {ref ref' : List (List ByteTag)}
  {rs rs' : List TagRecord} {os : List TagOwner}

/-- Adjusting a list moves the tags. -/
theorem Ranged.moved {l : ByteTagList} {n : ℤ} (hn : InRange n) (hadj : InRange (l.adjustment + n))
    (hrange : ∀ r ∈ rs, InRange (r.start + l.adjustment + n) ∧
      InRange (r.stop + l.adjustment + n)) :
    (l.adjust (wrap n)).adjustment = l.adjustment + n ∧
      Ranged (l.adjust (wrap n)).adjustment rs := by
  have hmove : (l.adjust (wrap n)).adjustment = l.adjustment + n := by
    show wrap (l.adjustment + wrap n) = _
    rw [wrap_eq hn, wrap_eq hadj]
  refine ⟨hmove, fun r hr => ?_⟩
  rw [hmove, ← add_assoc, ← add_assoc]
  exact hrange r hr

/-- **`RemoveAtStart`**, and what else removes bytes in front. -/
theorem Tagged.removeAtStart (hp : Tagged p ref rs) {l : ByteTagList} (n : ℕ)
    (hmove : l.adjustment = p.byteTagList.adjustment - n) (hranged : Ranged l.adjustment rs) :
    Tagged ⟨p.size - n, l⟩ (ref.drop n) rs := by
  have hsmall := hp.small
  refine ⟨by rw [length_drop, hp.length], by dsimp only; omega, hranged, fun i hi => ?_⟩
  dsimp only at hi ⊢
  rw [List.getElem?_drop, hp.tags (n + i) (by omega), hmove, sub_eq_add_neg]
  rw [tagsAt_shift p.byteTagList.adjustment (-n) rs (i := i) (j := n + i) (by omega)]

/-- **`RemoveAtEnd`.** -/
theorem Tagged.removeAtEnd (hp : Tagged p ref rs) (n : ℕ) :
    Tagged ⟨p.size - n, p.byteTagList⟩ (ref.take (ref.length - n)) rs := by
  have hsmall := hp.small
  have hlength := hp.length
  refine ⟨by rw [length_take, hlength]; exact min_eq_left (Nat.sub_le _ _),
    by dsimp only; omega, hp.ranged, fun i hi => ?_⟩
  dsimp only at hi ⊢
  rw [List.getElem?_take_of_lt (by omega)]
  exact hp.tags i (by omega)

variable (h : s.Sound ((p.byteTagList, rs) :: os)) (hp : Tagged p ref rs)
include h hp

/-- **`AddByteTag`.** -/
theorem Tagged.addTag (tag : ByteTag) {start stop : ℕ} (hle : start ≤ stop)
    (haccepts : p.byteTagList.Accepts tag start stop) :
    ∃ p' s' rs', p.addTag s tag (wrap start) (wrap stop) = .ok (p', s') ∧
      s'.Sound ((p'.byteTagList, rs') :: os) ∧ Tagged p' (attach ref tag start stop) rs' := by
  obtain ⟨hsmall, hlow, hhigh, hsize⟩ := haccepts
  rw [wrap_natCast (by omega : start < 2 ^ 31), wrap_natCast hsmall]
  obtain ⟨buf, l', s', hadd, hadj, -, hfill⟩ :=
    h.add tag.tid tag.content.length (by omega : (start : ℤ) ≤ stop) hlow hhigh hsize
  obtain ⟨buf', s'', hwrite, hsound⟩ := hfill tag.content rfl
  refine ⟨{ p with byteTagList := l' }, s'', _, ?_, hsound, ?_⟩
  · unfold Packet.addTag
    rw [hadd, ok_bind]
    dsimp only
    rw [hwrite, ok_bind]
    rfl
  · refine ⟨?_, hp.small, ?_, fun i hi => ?_⟩
    · unfold attach
      rw [length_mapIdx]
      exact hp.length
    · dsimp only
      rw [hadj]
      intro r hr
      rcases mem_append.mp hr with hold | hnew
      · exact hp.ranged r hold
      · rw [mem_singleton.mp hnew]
        dsimp only
        rw [sub_add_cancel, sub_add_cancel]
        exact ⟨⟨by omega, by omega⟩, ⟨by omega, by omega⟩⟩
    · dsimp only at hi ⊢
      unfold attach
      rw [List.getElem?_mapIdx, hp.tags i hi, hadj, tagsAt_append]
      -- the new tag covers the byte or not
      have hcovers : TagRecord.Covers p.byteTagList.adjustment ⟨tag.tid,
          start - p.byteTagList.adjustment, stop - p.byteTagList.adjustment, tag.content⟩ i ↔
          start ≤ i ∧ i < stop := by
        unfold TagRecord.Covers
        dsimp only
        omega
      have hnew : tagsAt p.byteTagList.adjustment [⟨tag.tid, start - p.byteTagList.adjustment,
          stop - p.byteTagList.adjustment, tag.content⟩] i =
          if start ≤ i ∧ i < stop then [tag] else [] := by
        rw [tagsAt_singleton]
        by_cases hin : start ≤ i ∧ i < stop
        · rw [if_pos hin, if_pos (hcovers.mpr hin)]
        · rw [if_neg hin, if_neg fun hc => hin (hcovers.mp hc)]
      rw [hnew, Option.map_some]
      split
      · rfl
      · rw [append_nil]

/-- **`AddHeader`**: the new bytes have no tags. -/
theorem Tagged.addHeader (n : ℕ) (hsize : p.size + n < 2 ^ 31) (hn : InRange n)
    (hadj : InRange (p.byteTagList.adjustment + n))
    (hrange : ∀ r ∈ rs, InRange (r.start + p.byteTagList.adjustment + n) ∧ InRange (r.stop + p.byteTagList.adjustment + n))
    (hoff : InRange (-p.byteTagList.adjustment)) :
    ∃ p' s' rs', p.addHeader s n = .ok (p', s') ∧ s'.Sound ((p'.byteTagList, rs') :: os) ∧
      Tagged p' (List.replicate n [] ++ ref) rs' := by
  obtain ⟨hmove, hranged⟩ := Ranged.moved hn hadj hrange
  have hoff' : InRange (n - (p.byteTagList.adjust (wrap n)).adjustment) := by
    rw [hmove]
    rwa [show (n : ℤ) - (p.byteTagList.adjustment + n) = -p.byteTagList.adjustment by omega]
  obtain ⟨l', rs', s', hadd, hsound, -, hranged', -, -, htags⟩ :=
    (h.adjust (wrap n)).addAtStart hranged n hoff' (by omega)
  have hwrap : Word32.add p.size n = p.size + n := Word32.add_eq (by omega)
  refine ⟨⟨p.size + n, l'⟩, s', rs', ?_, hsound, ?_, hsize, hranged', fun i hi => ?_⟩
  · unfold Packet.addHeader
    rw [show wrap ((n : ℕ) : ℤ) = n from wrap_natCast (by omega)] at hadd ⊢
    rw [hadd, hwrap]
    rfl
  · rw [length_append, length_replicate, hp.length, Nat.add_comm]
  · dsimp only at hi ⊢
    rw [htags i (by omega)]
    by_cases hin : n ≤ i
    · obtain ⟨j, rfl⟩ := Nat.exists_eq_add_of_le hin
      rw [if_pos hin, List.getElem?_append_right (by rw [length_replicate]; exact hin),
        length_replicate, Nat.add_sub_cancel_left, hp.tags j (by omega), hmove,
        tagsAt_shift p.byteTagList.adjustment n rs (i := n + j) (j := j) (by omega)]
    · rw [if_neg hin, List.getElem?_append_left (by rw [length_replicate]; omega),
        List.getElem?_replicate_of_lt (by omega)]

/-- **`AddTrailer`** and **`AddPaddingAtEnd`**: the new bytes have no tags. -/
theorem Tagged.addPaddingAtEnd (n : ℕ) (hsize : p.size + n < 2 ^ 31)
    (hoff : InRange (p.size - p.byteTagList.adjustment)) :
    ∃ p' s' rs', p.addPaddingAtEnd s n = .ok (p', s') ∧ s'.Sound ((p'.byteTagList, rs') :: os) ∧
      Tagged p' (ref ++ List.replicate n []) rs' := by
  obtain ⟨l', rs', s', hadd, hsound, -, hranged, -, htags⟩ :=
    h.addAtEnd hp.ranged p.size hoff hp.small
  have hwrap : Word32.add p.size n = p.size + n := Word32.add_eq (by omega)
  refine ⟨⟨p.size + n, l'⟩, s', rs', ?_, hsound, ?_, hsize, hranged, fun i hi => ?_⟩
  · unfold Packet.addPaddingAtEnd
    rw [wrap_natCast hp.small, hadd, hwrap]
    rfl
  · rw [length_append, length_replicate, hp.length]
  · dsimp only at hi ⊢
    rw [htags i]
    by_cases hin : i < p.size
    · rw [if_pos hin, List.getElem?_append_left (by rw [hp.length]; exact hin), hp.tags i hin]
    · rw [if_neg hin, List.getElem?_append_right (by rw [hp.length]; omega), hp.length,
        List.getElem?_replicate_of_lt (by omega)]

/-- **`AddAtEnd`** of another packet. -/
theorem Tagged.addAtEnd (ho : (q.byteTagList, rs') ∈ os) (hq : Tagged q ref' rs')
    (hsize : p.size + q.size < 2 ^ 31) (hoff : InRange (p.size - p.byteTagList.adjustment))
    (hstart : InRange (-q.byteTagList.adjustment))
    (hadj : InRange (q.byteTagList.adjustment + p.size))
    (hused : p.byteTagList.used + q.byteTagList.used < 2 ^ 32)
    (hrange : ∀ r ∈ rs', 0 < r.stop + q.byteTagList.adjustment → InRange (r.stop + q.byteTagList.adjustment + p.size) ∧ InRange (r.stop + q.byteTagList.adjustment + p.size - p.byteTagList.adjustment)) :
    ∃ p' s' rs₀, p.addAtEnd s q = .ok (p', s') ∧ s'.Sound ((p'.byteTagList, rs₀) :: os) ∧
      Tagged p' (ref ++ ref') rs₀ := by
  have hsmall := hp.small
  obtain ⟨l₁, rs₁, s₁, htrim, hsound₁, hadj₁, hranged₁, hused₁, htags₁⟩ :=
    h.addAtEnd hp.ranged p.size hoff hp.small
  -- a copy of the other list, without what lies before its start
  have hcopy := hsound₁.retain (mem_cons_of_mem _ ho)
  have hoff₂ : InRange (((0 : ℕ) : ℤ) - q.byteTagList.adjustment) := by
    rwa [Nat.cast_zero, zero_sub]
  obtain ⟨c, cs, s₂, hcut, hsound₂, hadj₂, hranged₂, hused₂, hstart₂, htags₂⟩ :=
    hcopy.addAtStart hq.ranged 0 hoff₂ (by decide)
  have hn : InRange (p.size : ℤ) := ⟨by omega, by omega⟩
  -- where the tags of the copy end
  have hstop : ∀ r ∈ cs, 0 ≤ r.start + c.adjustment ∧ r.start ≤ r.stop ∧
      (r.stop + c.adjustment = 0 ∨ InRange (r.stop + c.adjustment + p.size) ∧
        InRange (r.stop + c.adjustment + p.size - p.byteTagList.adjustment)) := by
    intro r hr
    obtain ⟨hlow, r₀, hr₀, heq⟩ := hstart₂ r hr
    have hle := ((hsound₂.holds _ mem_cons_self).good r hr).start_le
    have hlow' : 0 ≤ r.start + c.adjustment := by exact_mod_cast hlow
    refine ⟨hlow', hle, ?_⟩
    by_cases hzero : r.stop + c.adjustment = 0
    · exact Or.inl hzero
    · refine Or.inr ?_
      rw [heq]
      exact hrange r₀ hr₀ (by omega)
  have hmoves : InRange (c.adjustment + p.size) ∧ ∀ r ∈ cs,
      InRange (r.start + c.adjustment + p.size) ∧ InRange (r.stop + c.adjustment + p.size) := by
    unfold InRange at *
    refine ⟨by omega, fun r hr => ?_⟩
    have hr' := hstop r hr
    omega
  obtain ⟨hmove, hranged₃⟩ := Ranged.moved hn hmoves.1 hmoves.2
  have hsound₃ := (hsound₂.adjust (wrap p.size)).perm (List.Perm.swap _ _ _)
  have hplace : ∀ r ∈ cs,
      InRange (r.start + (c.adjust (wrap p.size)).adjustment - l₁.adjustment) ∧
        InRange (r.stop + (c.adjust (wrap p.size)).adjustment - l₁.adjustment) := by
    intro r hr
    rw [hmove]
    have hr' := hstop r hr
    have hr'' := hmoves.2 r hr
    unfold InRange at *
    rcases hadj₁ with hsame | hzero
    · rw [hsame]
      omega
    · rw [hzero]
      omega
  have hfront : ∀ r ∈ cs, 0 ≤ r.start + (c.adjust (wrap p.size)).adjustment := by
    intro r hr
    rw [hmove]
    have hr' := (hstop r hr).1
    omega
  obtain ⟨l', rs₀, s₃, hall, hsound₄, -, hranged', htags₃⟩ :=
    hsound₃.addAll mem_cons_self hranged₃ hfront hplace (by
      show l₁.used + c.used < 2 ^ 32
      omega)
  have hdone := (hsound₄.perm (List.Perm.swap _ _ _)).deallocate
  have hwrap : Word32.add p.size q.size = p.size + q.size := Word32.add_eq (by omega)
  refine ⟨⟨p.size + q.size, l'⟩, _, rs₀, ?_, hdone, ?_, hsize, hranged' hranged₁, fun i hi => ?_⟩
  · unfold Packet.addAtEnd
    rw [wrap_natCast hp.small, htrim, ok_bind]
    dsimp only
    rw [Nat.cast_zero] at hcut
    rw [hcut, ok_bind]
    dsimp only
    rw [wrap_natCast hp.small] at hall
    rw [hall, ok_bind, hwrap]
    rfl
  · rw [length_append, hp.length, hq.length]
  · dsimp only at hi ⊢
    rw [htags₃ i (by omega), htags₁ i]
    have hshift : ∀ j : ℕ, i = p.size + j →
        tagsAt (c.adjust (wrap p.size)).adjustment cs i = tagsAt q.byteTagList.adjustment rs' j := by
      intro j hj
      rw [hmove, tagsAt_shift c.adjustment p.size cs (i := i) (j := j) (by omega),
        htags₂ j (by omega), if_pos (Nat.zero_le _)]
    by_cases hin : i < p.size
    · have hnil : tagsAt (c.adjust (wrap p.size)).adjustment cs i = [] := by
        refine tagsAt_eq_nil fun r hr hcovers => ?_
        have hlow := hcovers.1
        rw [hmove] at hlow
        have hr' := (hstop r hr).1
        omega
      rw [if_pos hin, hnil, append_nil,
        List.getElem?_append_left (by rw [hp.length]; exact hin), hp.tags i hin]
    · obtain ⟨j, hj⟩ := Nat.exists_eq_add_of_le (Nat.le_of_not_lt hin)
      rw [if_neg hin, nil_append, hshift j hj, List.getElem?_append_right (by
        rw [hp.length]
        omega), hp.length, hj, Nat.add_sub_cancel_left]
      exact hq.tags j (by omega)

end Operations

/-! ## What the iterator shows -/

/-- A tag with the range that is shown of it. -/
def TagRecord.shownTag (size : ℕ) (adj : ℤ) (r : TagRecord) : Option ShownTag :=
  (r.shown 0 size adj).map fun q =>
    ⟨⟨r.tid, r.content⟩, ((q.1 - 0) % 2 ^ 32).toNat, ((q.2 - 0) % 2 ^ 32).toNat⟩

variable {rs : List TagRecord} {s : ByteTagStore}

/-- The loop over the iterator. -/
theorem Packet.shownTags_eq {a : ℕ} {size : ℕ} {adj : ℤ}
    (hstored : Memory.span (s.areas a).data 0 (octetsOf rs).length = octetsOf rs)
    (hgood : ∀ r ∈ rs, r.Good) (hranged : Ranged adj rs) (fuel : ℕ) {it : TagIterator}
    {pre rem : List TagRecord} (hready : it.Ready a rs 0 size adj pre rem)
    (hfuel : rem.length ≤ fuel) :
    Packet.shownTags s fuel it = .ok (rem.filterMap (shownTag size adj)) := by
  induction fuel generalizing it pre rem with
  | zero =>
    have hnil : rem = [] := length_eq_zero_iff.mp (Nat.le_zero.mp hfuel)
    rw [hnil]
    rfl
  | succ fuel ih =>
    unfold Packet.shownTags
    cases rem with
    | nil =>
      have hnext : ¬ it.hasNext = true := by
        rw [hready.toAt.hasNext_eq]
        exact Bool.false_ne_true
      exact if_neg hnext
    | cons r rest =>
      have hnext : it.hasNext = true := by
        rw [hready.toAt.hasNext_eq]
        rfl
      obtain ⟨item, it', pre', rem', hitem, hready', hsuffix, hfilter, hshown, htid, -, hcontent, -,
        -⟩ := hready.next_eq hstored hgood hranged
      have hrest := hfilter ShownTag (shownTag size adj) fun r hr => by
        unfold shownTag
        rw [hr]
        rfl
      have hloop := ih hready' (hsuffix.length_le.trans (Nat.le_of_succ_le_succ hfuel))
      have htag : r.shownTag size adj = some ⟨⟨r.tid, r.content⟩,
          ((item.start - 0) % 2 ^ 32).toNat, ((item.stop - 0) % 2 ^ 32).toNat⟩ := by
        unfold shownTag
        rw [hshown]
        rfl
      rw [if_pos hnext, hitem, ok_bind]
      dsimp only
      rw [hloop, ok_bind, hrest, filterMap_cons_some htag, htid, hcontent, hready'.offsetStart]
      rfl

/-- What `GetByteTagIterator` shows. -/
theorem Packet.getByteTags_eq {p : Packet} (hl : p.byteTagList.Holds s rs)
    (hranged : Ranged p.byteTagList.adjustment rs) (hsmall : p.size < 2 ^ 31) :
    p.getByteTags s
      = .ok (rs.filterMap (shownTag p.size p.byteTagList.adjustment)) := by
  obtain ⟨it, hbegin, hcases⟩ := hl.begin_eq hranged 0 p.size
  unfold Packet.getByteTags
  rw [wrap_natCast hsmall, hbegin, ok_bind]
  rcases hcases with ⟨hnil, hnext⟩ | ⟨a, pre, rem, hdata, hready, hsuffix, hfilter⟩
  · rw [hnil, filterMap_nil]
    cases p.byteTagList.used with
    | zero => rfl
    | succ n => exact if_neg hnext
  · have hrest := hfilter ShownTag (shownTag p.size p.byteTagList.adjustment)
      fun r hr => by
        unfold shownTag
        rw [hr]
        rfl
    have hstored := hl.stored a hdata
    rw [hl.used] at hstored
    rw [← hrest]
    refine Packet.shownTags_eq hstored hl.good hranged _ hready
      (hsuffix.length_le.trans ?_)
    rw [hl.used]
    exact length_le_octetsOf rs

/-- **The ranges that are shown cover a byte with its tags.** -/
theorem Tagged.getByteTags {p : Packet} {ref : List (List ByteTag)} (hl : p.byteTagList.Holds s rs) (hp : Tagged p ref rs) :
    Packets.TagsOk s ⟨p, ref⟩ := by
  refine ⟨hp.length, rs.filterMap (shownTag p.size p.byteTagList.adjustment),
    Packet.getByteTags_eq hl hp.ranged hp.small, fun i hi => ?_⟩
  rw [hp.tags i hi, filter_filterMap, map_filterMap]
  refine congrArg some (filterMap_congr fun r hr => ?_)
  have hi' : i < p.size := hi
  have hsmall := hp.small
  obtain ⟨⟨hlow, hlow'⟩, hhigh, hhigh'⟩ := hp.ranged r hr
  unfold shownTag shown tagAt
  by_cases hhidden : (p.size : ℤ) ≤ r.start + p.byteTagList.adjustment ∨
      r.stop + p.byteTagList.adjustment ≤ 0
  · have hnot : ¬ r.Covers p.byteTagList.adjustment i := by
      unfold TagRecord.Covers
      omega
    rw [if_pos hhidden, if_neg hnot]
    rfl
  · rw [if_neg hhidden, Option.map_some, Option.filter_some]
    have hiff : (((max (r.start + p.byteTagList.adjustment) 0 - 0) % 2 ^ 32).toNat ≤ i ∧
        i < ((min (r.stop + p.byteTagList.adjustment) p.size - 0) % 2 ^ 32).toNat) ↔
        r.Covers p.byteTagList.adjustment i := by
      unfold TagRecord.Covers
      omega
    by_cases hcovers : r.Covers p.byteTagList.adjustment i
    · rw [if_pos hcovers, if_pos (decide_eq_true (hiff.mpr hcovers))]
      rfl
    · rw [if_neg hcovers, if_neg fun hin => hcovers (hiff.mp (of_decide_eq_true hin))]
      rfl

/-! ## All packets -/

namespace Packets

/-- A packet as an owner of its records. -/
def view (s : ByteTagStore) (p : TaggedPacket) : TagOwner :=
  (p.packet.byteTagList, p.packet.byteTagList.records s)

/-- All lists hold their records, and these cover the bytes with their tags. -/
structure Inv (w : Packets) : Prop where
  sound : w.store.Sound (values (view w.store) w.slots)
  tagged : ∀ b p, w.slot b = some p →
    Tagged p.packet p.ref (p.packet.byteTagList.records w.store)

theorem inv_start (memory : ℕ → ℕ → Octet) : (start memory).Inv := by
  refine ⟨⟨⟨fun p hp => absurd hp (Nat.not_lt_zero _), fun p _ => rfl,
    fun p hp => absurd hp not_mem_nil, nodup_nil⟩,
    fun o ho => absurd ho not_mem_nil, fun p hp => absurd hp (Nat.not_lt_zero _)⟩,
    fun b p hb => ?_⟩
  cases hb

variable {w : Packets}

theorem withSlot_eq {b : ℕ} {p : TaggedPacket} (hb : w.slot b = some p)
    (f : TaggedPacket → Except Fault Packets) : w.withSlot b f = f p := by
  unfold withSlot
  rw [hb]

namespace Inv

variable {p : TaggedPacket} {ref' : List (List ByteTag)} {b : ℕ} {s' : ByteTagStore} {p' : Packet}

variable (h : w.Inv) (hb : w.slot b = some p)
include h hb

/-- The list of one packet, and those of the others. -/
theorem split : w.store.Sound ((p.packet.byteTagList, p.packet.byteTagList.records w.store) ::
      others (view w.store) w.slots b) :=
  h.sound.perm (values_perm (view w.store) hb).symm

omit h hb in
/-- In a sound store the records of the other packets are those from before. -/
theorem records_eq {os : List TagOwner} (hs : s'.Sound os)
    (hmem : ∀ b' p, b' ≠ b → w.slot b' = some p → view w.store p ∈ os) {b' : ℕ} (hne : b' ≠ b)
    (hb' : w.slot b' = some p) : view w.store p = view s' p := by
  have hholds := hs.holds _ (hmem b' p hne hb')
  exact Prod.ext rfl hholds.records_eq.symm

/-- **One packet changes**, and with it the store. -/
theorem setSlot {rs' : List TagRecord}
    (hs : s'.Sound ((p'.byteTagList, rs') :: others (view w.store) w.slots b))
    (hp : Tagged p' ref' rs') : (w.setSlot b p' ref' s').Inv := by
  have hrecords : p'.byteTagList.records s' = rs' := (hs.holds _ mem_cons_self).records_eq
  have hmem : ∀ b' q, b' ≠ b → w.slot b' = some q → view w.store q ∈ (p'.byteTagList, rs') ::
      others (view w.store) w.slots b :=
    fun b' q hne hb' => mem_cons_of_mem _ (mem_others _ hb' hne)
  refine ⟨?_, fun b' q hq => ?_⟩
  · have hothers : others (view w.store) w.slots b = others (view s') w.slots b :=
      others_congr fun b' q hne hb' => records_eq hs hmem hne hb'
    have hview : view s' ⟨p', ref'⟩ = (p'.byteTagList, rs') := Prod.ext rfl hrecords
    refine hs.perm ?_
    rw [hothers, ← hview]
    exact values_set (view s') hb ⟨p', ref'⟩
  · by_cases heq : b' = b
    · subst heq
      have hself : (w.setSlot b' p' ref' s').slot b' = some ⟨p', ref'⟩ :=
        slot_set_self hb (some ⟨p', ref'⟩)
      rw [hself] at hq
      cases hq
      show Tagged p' ref' (p'.byteTagList.records s')
      rw [hrecords]
      exact hp
    · have hold : w.slot b' = some q := (slot_set_of_ne heq _).symm.trans hq
      have hsame := congrArg Prod.snd (records_eq hs hmem heq hold)
      have htagged := h.tagged b' q hold
      show Tagged q.packet q.ref (view s' q).2
      rw [← hsame]
      exact htagged

omit h hb in
/-- **A packet is added.** -/
theorem addSlot (h : w.Inv) {rs' : List TagRecord}
    (hs : s'.Sound ((p'.byteTagList, rs') :: values (view w.store) w.slots))
    (hp : Tagged p' ref' rs') : (w.addSlot p' ref' s').Inv := by
  have hrecords : p'.byteTagList.records s' = rs' := (hs.holds _ mem_cons_self).records_eq
  have hsame : ∀ b q, w.slot b = some q → view w.store q = view s' q := by
    intro b q hb
    have hholds := hs.holds _ (mem_cons_of_mem _ (mem_values (view w.store) hb))
    exact Prod.ext rfl hholds.records_eq.symm
  refine ⟨?_, fun b q hq => ?_⟩
  · have hview : view s' ⟨p', ref'⟩ = (p'.byteTagList, rs') := Prod.ext rfl hrecords
    refine hs.perm ?_
    rw [values_congr hsame, ← hview]
    exact values_append (view s') ⟨p', ref'⟩
  · rcases slot_append hq with hold | ⟨-, rfl⟩
    · show Tagged q.packet q.ref (view s' q).2
      rw [← hsame b q hold]
      exact h.tagged b q hold
    · show Tagged p' ref' (p'.byteTagList.records s')
      rw [hrecords]
      exact hp

/-- **A packet is destroyed.** -/
theorem destroy : Inv ⟨p.packet.destroy w.store, w.slots.set b none⟩ := by
  have hs : (p.packet.destroy w.store).Sound (others (view w.store) w.slots b) :=
    (h.split hb).deallocate
  have hmem : ∀ b' q, b' ≠ b → w.slot b' = some q →
      view w.store q ∈ others (view w.store) w.slots b :=
    fun b' q hne hb' => mem_others _ hb' hne
  refine ⟨?_, fun b' q hq => ?_⟩
  · refine hs.perm ?_
    rw [others_congr fun b' q hne hb' => records_eq hs hmem hne hb']
    exact values_set_none _ hb
  · by_cases heq : b' = b
    · subst heq
      have hself : Slots.slot (w.slots.set b' none) b' = none := Slots.slot_set_self hb none
      exact absurd (hself.symm.trans hq) (by rintro ⟨⟩)
    · have hold : w.slot b' = some q := (Slots.slot_set_of_ne heq _).symm.trans hq
      show Tagged q.packet q.ref (view (p.packet.destroy w.store) q).2
      rw [← records_eq hs hmem heq hold]
      exact h.tagged b' q hold

/-- A call on one packet whose result is known. -/
theorem exists_setSlot {x : Except Fault (Packet × ByteTagStore)}
    (hx : ∃ p' s' rs', x = .ok (p', s') ∧ s'.Sound ((p'.byteTagList, rs') :: others (view w.store) w.slots b) ∧ Tagged p' ref' rs') :
    ∃ w', x.map (fun r => w.setSlot b r.1 ref' r.2) = .ok w' ∧ w'.Inv := by
  obtain ⟨p', s', rs', rfl, hs, hp⟩ := hx
  exact ⟨_, rfl, h.setSlot hb hs hp⟩

/-- A call that leaves the store as it is. -/
theorem setSlot_same (n : ℤ)
    (hlist : p'.byteTagList = p.packet.byteTagList.adjust n ∨ p'.byteTagList = p.packet.byteTagList)
    (hp : Tagged p' ref' (p.packet.byteTagList.records w.store)) :
    (w.setSlot b p' ref' w.store).Inv := by
  have hs := h.split hb
  rcases hlist with hlist | hlist
  · refine h.setSlot hb ?_ hp
    rw [hlist]
    exact hs.adjust n
  · refine h.setSlot hb ?_ hp
    rw [hlist]
    exact hs

/-- **Removing bytes in front**, with any of the calls that do it. -/
theorem removeAtStart (n : ℕ) (hmoves : p.packet.byteTagList.Moves w.store (-n)) :
    (w.setSlot b (p.packet.removeAtStart n) (p.ref.drop n) w.store).Inv := by
  obtain ⟨hn, hadj, hrange⟩ := hmoves
  obtain ⟨hmove, hranged⟩ := Ranged.moved hn hadj hrange
  exact h.setSlot_same hb (wrap (-n)) (Or.inl rfl)
    ((h.tagged b p hb).removeAtStart n (hmove.trans (sub_eq_add_neg _ _).symm) hranged)

omit h hb

/-- **Fragments.** -/
theorem createFragment (h : w.Inv) {o : ℕ} (ho : w.slot o = some p) (start length : ℕ)
    (hin : start + length ≤ p.packet.size) (hmoves : p.packet.byteTagList.Moves w.store (-start)) :
    ∃ w', w.step (.createFragment o start length) = .ok w' ∧ w'.Inv := by
  have hp := h.tagged o p ho
  have hsmall := hp.small
  obtain ⟨hn, hadj, hrange⟩ := hmoves
  obtain ⟨hmove, hranged⟩ := Ranged.moved hn hadj hrange
  have hcopy := h.sound.retain (mem_values (view w.store) ho)
  have hfront := hp.removeAtStart start (hmove.trans (sub_eq_add_neg _ _).symm) hranged
  have hfragment : Tagged ⟨length, p.packet.byteTagList.adjust (wrap (-start))⟩
      ((p.ref.drop start).take length) (p.packet.byteTagList.records w.store) := by
    refine ⟨?_, by dsimp only; omega, hranged, fun i hi => ?_⟩
    · rw [length_take, length_drop, hp.length]
      exact min_eq_left (by omega)
    · dsimp only at hi
      rw [List.getElem?_take_of_lt hi]
      exact hfront.tags i (by dsimp only; omega)
  refine ⟨_, ?_, h.addSlot (hcopy.adjust (wrap (-start))) hfragment⟩
  have hwrap : Word32.add start length = start + length := Word32.add_eq (by omega)
  refine (withSlot_eq ho _).trans ?_
  unfold Packet.createFragment
  rw [hwrap, if_neg (Nat.not_lt.mpr hin)]
  rfl

/-- **Every operation goes through and keeps the invariant.** -/
theorem exists_step (h : w.Inv) (c : PacketCall) (henabled : w.Enabled c) (hfits : w.Fits c) :
    ∃ w', w.step c = .ok w' ∧ w'.Inv := by
  replace hfits := hfits.2
  cases c with
  | construct size =>
    refine ⟨_, rfl, h.addSlot h.sound.cons_empty ?_⟩
    refine ⟨length_replicate, hfits, fun r hr => absurd hr not_mem_nil, fun i hi => ?_⟩
    exact List.getElem?_replicate_of_lt hi
  | copy o =>
    obtain ⟨p, ho⟩ := henabled
    exact ⟨_, withSlot_eq ho _, h.addSlot (h.sound.retain (mem_values (view w.store) ho))
      (h.tagged o p ho)⟩
  | createFragment o start length =>
    obtain ⟨p, ho, hin⟩ := henabled
    exact h.createFragment ho start length hin (hfits p ho)
  | destroy b =>
    obtain ⟨p, hb⟩ := henabled
    exact ⟨_, withSlot_eq hb _, h.destroy hb⟩
  | addByteTag b tag =>
    obtain ⟨p, hb⟩ := henabled
    have hadd := (h.tagged b p hb).addTag (h.split hb) tag (Nat.zero_le _) (hfits p hb)
    have hall := h.exists_setSlot hb hadd
    rw [← (h.tagged b p hb).length] at hall
    obtain ⟨w', hstep, hinv⟩ := hall
    refine ⟨w', (withSlot_eq hb _).trans ?_, hinv⟩
    unfold Packet.addByteTag
    rw [← (h.tagged b p hb).length]
    exact hstep
  | addByteTagRange b tag start stop =>
    obtain ⟨hle, -, p, hb⟩ := henabled
    have hadd := (h.tagged b p hb).addTag (h.split hb) tag hle (hfits p hb)
    obtain ⟨w', hstep, hinv⟩ := h.exists_setSlot hb hadd
    refine ⟨w', (withSlot_eq hb _).trans ?_, hinv⟩
    unfold Packet.addByteTagRange
    rw [if_neg (Nat.not_lt.mpr hle)]
    exact hstep
  | addHeader b size =>
    obtain ⟨-, p, hb⟩ := henabled
    obtain ⟨hsize, ⟨hn, hadj, hrange⟩, hoff⟩ := hfits p hb
    obtain ⟨w', hstep, hinv⟩ := h.exists_setSlot hb
      ((h.tagged b p hb).addHeader (h.split hb) size hsize hn hadj hrange hoff)
    exact ⟨w', (withSlot_eq hb _).trans hstep, hinv⟩
  | removeHeader b deserialized =>
    obtain ⟨-, p, hb⟩ := henabled
    exact ⟨_, withSlot_eq hb _, h.removeAtStart hb deserialized (hfits p hb)⟩
  | addTrailer b size =>
    obtain ⟨-, p, hb⟩ := henabled
    obtain ⟨hsize, hoff⟩ := hfits p hb
    obtain ⟨w', hstep, hinv⟩ := h.exists_setSlot hb
      ((h.tagged b p hb).addPaddingAtEnd (h.split hb) size hsize hoff)
    exact ⟨w', (withSlot_eq hb _).trans hstep, hinv⟩
  | removeTrailer b deserialized =>
    obtain ⟨-, p, hb⟩ := henabled
    exact ⟨_, withSlot_eq hb _, h.setSlot_same hb 0 (Or.inr rfl)
      ((h.tagged b p hb).removeAtEnd deserialized)⟩
  | addAtEnd b o =>
    obtain ⟨hne, ⟨p, hb⟩, q, ho⟩ := henabled
    obtain ⟨hsize, hoff, hstart, hadj, hused, hrange⟩ := hfits p hb q ho
    obtain ⟨w', hstep, hinv⟩ := h.exists_setSlot hb ((h.tagged b p hb).addAtEnd (h.split hb)
      (mem_others (view w.store) ho hne.symm) (h.tagged o q ho) hsize hoff hstart hadj hused
      hrange)
    exact ⟨w', ((withSlot_eq hb _).trans (withSlot_eq ho _)).trans hstep, hinv⟩
  | addPaddingAtEnd b size =>
    obtain ⟨-, p, hb⟩ := henabled
    obtain ⟨hsize, hoff⟩ := hfits p hb
    obtain ⟨w', hstep, hinv⟩ := h.exists_setSlot hb
      ((h.tagged b p hb).addPaddingAtEnd (h.split hb) size hsize hoff)
    exact ⟨w', (withSlot_eq hb _).trans hstep, hinv⟩
  | removeAtStart b size =>
    obtain ⟨-, p, hb⟩ := henabled
    exact ⟨_, withSlot_eq hb _, h.removeAtStart hb size (hfits p hb)⟩
  | removeAtEnd b size =>
    obtain ⟨-, p, hb⟩ := henabled
    exact ⟨_, withSlot_eq hb _, h.setSlot_same hb 0 (Or.inr rfl)
      ((h.tagged b p hb).removeAtEnd size)⟩

end Inv

/-- Every state that a run reaches keeps the invariant. -/
theorem inv_of_run {memory : ℕ → ℕ → Octet} {is : List PacketCall}
    (hrun : machine.Run Fits (start memory) is w) : w.Inv := by
  refine hrun.invariant Inv (fun w c h henabled hfits => ?_) (inv_start memory)
  obtain ⟨w', hstep, hinv⟩ := h.exists_step c henabled hfits
  have hstep' : machine.step w c = .ok w' := hstep
  rw [hstep']
  exact hinv

/-- **Byte tags stick to their bytes.**  In a run whose steps all fit, the tags that are shown to
cover a byte of a packet are those that were attached to it, in order, whatever is done to the
packet or to others, and no operation fails. -/
theorem sticky_of_run (memory : ℕ → ℕ → Octet) (is : List PacketCall) (w : Packets)
    (hrun : machine.Run Fits (start memory) is w) : w.Sticky := by
  have hinv := inv_of_run hrun
  refine ⟨fun b p hb => ?_, fun c henabled hfits => ?_⟩
  · exact Tagged.getByteTags ((hinv.split hb).holds _ mem_cons_self) (hinv.tagged b p hb)
  · obtain ⟨w', hstep, -⟩ := hinv.exists_step c henabled hfits
    exact ⟨w', hstep⟩

instance (w : Packets) (b : ℕ) (P : TaggedPacket → Prop) [DecidablePred P] :
    Decidable (∃ p, w.slot b = some p ∧ P p) :=
  inferInstanceAs (Decidable (∃ p ∈ w.slot b, P p))

instance (w : Packets) (b : ℕ) (P : TaggedPacket → Prop) [DecidablePred P] :
    Decidable (∀ p, w.slot b = some p → P p) :=
  inferInstanceAs (Decidable (∀ p ∈ w.slot b, P p))

instance (w : Packets) (b : ℕ) : Decidable (∃ p, w.slot b = some p) :=
  decidable_of_iff ((w.slot b).isSome = true) Option.isSome_iff_exists

instance (w : Packets) (c : PacketCall) : Decidable (machine.enabled w c) := by
  cases c <;> dsimp only [machine, Enabled] <;> infer_instance

instance (l : ByteTagList) (s : ByteTagStore) (n : ℤ) : Decidable (l.Moves s n) :=
  inferInstanceAs (Decidable (_ ∧ _ ∧ _))

instance (l : ByteTagList) (tag : ByteTag) (start stop : ℕ) : Decidable (l.Accepts tag start stop) :=
  inferInstanceAs (Decidable (_ ∧ _ ∧ _ ∧ _))

instance (w : Packets) (c : PacketCall) : Decidable (w.Fits c) := by
  cases c <;> dsimp only [Fits, FitsInWords] <;> infer_instance

/-- Two tags, a header with its own, a fragment of the middle, and a packet put together again. -/
def stickyCalls : List PacketCall :=
  [.construct 6, .addByteTag 0 ⟨1, [0xaa]⟩, .addByteTagRange 0 ⟨2, []⟩ 2 4, .copy 0,
    .addHeader 0 2, .addByteTagRange 0 ⟨3, [1, 2]⟩ 0 2, .removeAtEnd 1 3, .addTrailer 1 2,
    .createFragment 0 3 2, .removeHeader 0 4, .addAtEnd 1 0, .addAtEnd 2 1, .destroy 0]

theorem sticky_of_run_sample : ∃ w, machine.Run Fits (start fun _ _ => 0) stickyCalls w ∧
      w.slots.map (fun o => o.map fun p => p.ref.map fun ts => ts.map ByteTag.tid) =
        [none, some [[1], [1], [1, 2], [], [], [1, 2], [1, 2], [1], [1]],
          some [[1], [1, 2], [1], [1], [1, 2], [], [], [1, 2], [1, 2], [1], [1]]] ∧ w.Sticky := by
  obtain ⟨w, hrun, htest⟩ := Machine.exists_run_of_exec (m := machine)
    (fun w c => decide (Fits w c))
    (fun w => decide (w.slots.map (fun o => o.map fun p => p.ref.map fun ts => ts.map ByteTag.tid) =
        [none, some [[1], [1], [1, 2], [], [], [1, 2], [1, 2], [1], [1]],
          some [[1], [1, 2], [1], [1], [1, 2], [], [], [1, 2], [1, 2], [1], [1]]]))
    (start fun _ _ => 0) stickyCalls (by decide +kernel)
  have hfits := hrun.mono fun w i hi => of_decide_eq_true hi
  exact ⟨w, hfits, of_decide_eq_true htest, sticky_of_run _ _ w hfits⟩

/-- A tag for all bytes from the first one on. -/
def lostCalls : List PacketCall :=
  [.construct 1, .addByteTagRange 0 ⟨1, []⟩ 0 (2 ^ 31)]

/-- Without the condition: the end of the range is negative, and the tag is not shown. -/
theorem not_sticky_of_run : ¬ ∀ (memory : ℕ → ℕ → Octet) (is : List PacketCall) (w : Packets),
      machine.Run (fun _ _ => True) (start memory) is w →
      ∀ b p, w.slot b = some p → TagsOk w.store p := by
  intro hsticky
  obtain ⟨w, hrun, htest⟩ := Machine.exists_run_of_exec (m := machine) (fun _ _ => true)
    (fun w => decide (∃ p, w.slot 0 = some p ∧ p.packet.size = 1 ∧ p.ref = [[⟨1, []⟩]] ∧
      p.packet.getByteTags w.store = .ok [])) (start fun _ _ => 0) lostCalls (by decide +kernel)
  obtain ⟨p, hp, hsize, href, hshown⟩ := of_decide_eq_true htest
  have hok := hsticky _ _ w (hrun.mono fun _ _ _ => trivial) 0 p hp
  obtain ⟨shown, hget, htags⟩ := hok.tags
  rw [hshown] at hget
  cases hget
  have hfirst := htags 0 (by rw [hsize]; exact Nat.one_pos)
  rw [href] at hfirst
  cases hfirst

end Packets

end Ns3Dsme.Network
