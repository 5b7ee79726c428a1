/-
# Byte tag lists that share their storage

What a list holds is a list of records, and no operation on one list changes the records of
another.  Only the first `m_used` octets of an area are looked at, and a list that appends in place
is the one that uses most of it.
-/
import Ns3Dsme.Network.ByteTagList
import Ns3Dsme.Lib.Program

open Function List Signed32

namespace Ns3Dsme.Network

open Memory ByteTagList TagRecord

/-! ## Reading what was written -/

variable {s : ByteTagStore}

theorem TagRecord.eq_of_span {p pos : ℕ} {w : BitVec 32}
    (h : span (s.areas p).data pos 4 = Octet.lowFirst32 w) : s.readU32 p pos = w := by
  have hspan : span (s.areas p).data pos 4 = [(s.areas p).data pos,
    (s.areas p).data (pos + 1), (s.areas p).data (pos + 2), (s.areas p).data (pos + 3)] := rfl
  rw [hspan] at h
  unfold Octet.lowFirst32 at h
  simp only [List.cons.injEq, and_true] at h
  obtain ⟨h₀, h₁, h₂, h₃⟩ := h
  unfold ByteTagStore.readU32
  rw [h₀, h₁, h₂, h₃, Octet.word32_octets32]

/-- The header of a record is read back. -/
theorem TagIterator.readNext_eq {it : TagIterator} {r : TagRecord} (hr : r.Good)
    (h : span (s.areas it.area).data it.current r.octets.length = r.octets) :
    it.readNext s = { it with
      nextTid := r.tid
      nextSize := r.content.length
      nextStart := wrap (r.start + it.adjustment)
      nextEnd := wrap (r.stop + it.adjustment) } := by
  have hoctets : r.octets = Octet.lowFirst32 (r.tid.setWidth 32) ++
      (Octet.lowFirst32 (BitVec.ofNat 32 r.content.length) ++
        (Octet.lowFirst32 (BitVec.ofInt 32 r.start) ++
          (Octet.lowFirst32 (BitVec.ofInt 32 r.stop) ++ r.content))) := by
    unfold octets
    simp only [append_assoc]
  rw [hoctets, length_append] at h
  obtain ⟨h₀, h⟩ := span_of_append h
  rw [length_append] at h
  obtain ⟨h₁, h⟩ := span_of_append h
  rw [length_append] at h
  obtain ⟨h₂, h⟩ := span_of_append h
  rw [length_append] at h
  obtain ⟨h₃, -⟩ := span_of_append h
  have htid : s.readU32 it.area it.current = r.tid.setWidth 32 := eq_of_span h₀
  have hsize : s.readU32 it.area (it.current + 4) = BitVec.ofNat 32 r.content.length :=
    eq_of_span h₁
  have hstart : s.readU32 it.area (it.current + 8) = BitVec.ofInt 32 r.start :=
    eq_of_span h₂
  have hstop : s.readU32 it.area (it.current + 12) = BitVec.ofInt 32 r.stop :=
    eq_of_span h₃
  unfold TagIterator.readNext
  rw [htid, hsize, hstart, hstop, wrap_toNat_add, wrap_toNat_add, BitVec.toNat_ofNat,
    Nat.mod_eq_of_lt hr.length, BitVec.setWidth_setWidth_of_le _ (by decide : 16 ≤ 32),
    BitVec.setWidth_eq]

/-! ## The iterator -/

/-- The range that the iterator shows of a tag, if any. -/
def TagRecord.shown (a b adjustment : ℤ) (r : TagRecord) : Option (ℤ × ℤ) :=
  if b ≤ r.start + adjustment ∨ r.stop + adjustment ≤ a then none
  else some (max (r.start + adjustment) a, min (r.stop + adjustment) b)

/-- The positions of the tags stay within 32 bits. -/
def Ranged (adjustment : ℤ) (rs : List TagRecord) : Prop :=
  ∀ r ∈ rs, InRange (r.start + adjustment) ∧ InRange (r.stop + adjustment)

namespace TagIterator

/-- An iterator over the records of an area that has passed the first of them. -/
structure At (it : TagIterator) (p : ℕ) (rs : List TagRecord) (a b adj : ℤ)
    (pre rem : List TagRecord) : Prop where
  records : rs = pre ++ rem
  area : it.area = p
  stop : it.stop = (octetsOf rs).length
  current : it.current = (octetsOf pre).length
  offsetStart : it.offsetStart = a
  offsetEnd : it.offsetEnd = b
  adjustment : it.adjustment = adj

/-- It has read the header of a tag that it shows. -/
structure Ready (it : TagIterator) (p : ℕ) (rs : List TagRecord) (a b adj : ℤ)
    (pre rem : List TagRecord) : Prop extends it.At p rs a b adj pre rem where
  next : ∀ r rest, rem = r :: rest → (r.shown a b adj).isSome ∧ it.nextTid = r.tid ∧
    it.nextSize = r.content.length ∧ it.nextStart = r.start + adj ∧
    it.nextEnd = r.stop + adj

variable {it : TagIterator} {s : ByteTagStore} {p : ℕ} {rs pre rem : List TagRecord}
  {a b adj : ℤ}

theorem At.hasNext_eq (h : it.At p rs a b adj pre rem) :
    it.hasNext = !rem.isEmpty := by
  unfold TagIterator.hasNext
  rw [h.current, h.stop, h.records, octetsOf_append, length_append]
  cases rem with
  | nil => exact decide_eq_false (by simp)
  | cons r rest =>
    rw [octetsOf_cons, length_append, r.length_octets]
    exact decide_eq_true (by omega)

/-- The next record in memory. -/
theorem At.span {r : TagRecord} {rest : List TagRecord} (h : it.At p rs a b adj pre (r :: rest))
    (hstored : span (s.areas p).data 0 (octetsOf rs).length = octetsOf rs) :
    span (s.areas it.area).data it.current r.octets.length = r.octets ∧
      it.current + r.octets.length + (octetsOf rest).length = it.stop := by
  have hall : octetsOf rs = octetsOf pre ++ (r.octets ++ octetsOf rest) := by
    rw [h.records, octetsOf_append, octetsOf_cons]
  rw [hall, length_append] at hstored
  have hrest := (span_of_append hstored).2
  rw [length_append] at hrest
  have hspan := (span_of_append hrest).1
  rw [Nat.zero_add] at hspan
  refine ⟨by rw [h.area, h.current]; exact hspan, ?_⟩
  rw [h.current, h.stop, hall, length_append, length_append, Nat.add_assoc]

/-- **`PrepareForNext`** skips the tags that are not shown. -/
theorem At.prepare (h : it.At p rs a b adj pre rem)
    (hstored : Memory.span (s.areas p).data 0 (octetsOf rs).length = octetsOf rs)
    (hgood : ∀ r ∈ rs, r.Good) (hranged : Ranged adj rs) (fuel : ℕ) (hfuel : rem.length ≤ fuel) :
    ∃ it' pre' rem', prepareForNext s fuel it = .ok it' ∧
      it'.Ready p rs a b adj pre' rem' ∧ rem' <:+ rem ∧
      ∀ (β : Type) (f : TagRecord → Option β), (∀ r, r.shown a b adj = none → f r = none) →
        rem'.filterMap f = rem.filterMap f := by
  induction rem generalizing it pre fuel with
  | nil =>
    have hnext : ¬ it.hasNext = true := by
      rw [h.hasNext_eq]
      exact Bool.false_ne_true
    refine ⟨it, pre, [], ?_, ⟨h, fun r rest hr => by cases hr⟩, suffix_refl _,
      fun β f hf => rfl⟩
    cases fuel with
    | zero => rfl
    | succ fuel => exact if_neg hnext
  | cons r rest ih =>
    obtain ⟨hspan, hstop⟩ := h.span hstored
    have hr : r ∈ rs := by
      rw [h.records]
      exact mem_append_right _ mem_cons_self
    have hread := readNext_eq (hgood r hr) hspan
    rw [h.adjustment, wrap_eq (hranged r hr).1, wrap_eq (hranged r hr).2] at hread
    have hlen := r.length_octets
    cases fuel with
    | zero => exact absurd hfuel (Nat.not_succ_le_zero _)
    | succ fuel =>
      have hnext : it.hasNext = true := by
        rw [h.hasNext_eq]
        rfl
      unfold prepareForNext
      rw [if_pos hnext, if_neg (by omega : ¬ it.stop < it.current + 16), hread]
      dsimp only
      rw [h.offsetEnd, h.offsetStart]
      by_cases hhidden : b ≤ r.start + adj ∨ r.stop + adj ≤ a
      · rw [if_pos hhidden]
        have hshown : r.shown a b adj = none := if_pos hhidden
        -- the rest of the loop starts behind this tag
        have hat : (⟨it.area, it.current + (16 + r.content.length), it.stop, a, b,
            it.adjustment, r.tid, r.content.length, r.start + adj,
            r.stop + adj⟩ : TagIterator).At p rs a b adj (pre ++ [r]) rest := by
          refine ⟨by rw [append_assoc]; exact h.records, h.area, h.stop, ?_, rfl, rfl,
            h.adjustment⟩
          rw [octetsOf_append, length_append, ← h.current, octetsOf_cons, octetsOf_nil,
            append_nil, hlen]
        obtain ⟨it', pre', rem', hprepare, hready, hle, hfilter⟩ :=
          ih hat fuel (Nat.le_of_succ_le_succ hfuel)
        refine ⟨it', pre', rem', ?_, hready, hle.trans (suffix_cons _ _), fun β f hf => ?_⟩
        · rw [← hprepare, h.adjustment]
        · rw [filterMap_cons_none (hf r hshown)]
          exact hfilter β f hf
      · rw [if_neg hhidden]
        refine ⟨_, pre, r :: rest, rfl,
          ⟨⟨h.records, h.area, h.stop, h.current, rfl, rfl, rfl⟩, fun r' rest' heq => ?_⟩,
          suffix_refl _,
          fun β f hf => rfl⟩
        cases heq
        have hshown : r.shown a b adj = some _ := if_neg hhidden
        exact ⟨by rw [hshown]; rfl, rfl, rfl, rfl, rfl⟩

/-- **`Next`** returns a tag with the range that is shown and its content. -/
theorem Ready.next_eq {r : TagRecord} {rest : List TagRecord}
    (h : it.Ready p rs a b adj pre (r :: rest))
    (hstored : Memory.span (s.areas p).data 0 (octetsOf rs).length = octetsOf rs)
    (hgood : ∀ r ∈ rs, r.Good) (hranged : Ranged adj rs) :
    ∃ item it' pre' rem', it.next s = .ok (item, it') ∧
      it'.Ready p rs a b adj pre' rem' ∧ rem' <:+ rest ∧
      (∀ (β : Type) (f : TagRecord → Option β), (∀ r, r.shown a b adj = none → f r = none) →
        rem'.filterMap f = rest.filterMap f) ∧
      r.shown a b adj = some (item.start, item.stop) ∧ item.tid = r.tid ∧
      item.size = r.content.length ∧ item.buf.octets s = r.content ∧ item.buf.area = p ∧
      item.buf.stop ≤ (octetsOf rs).length := by
  obtain ⟨hshown, htid, hsize, hstart, hend⟩ := h.next r rest rfl
  obtain ⟨hspan, hstop⟩ := h.toAt.span hstored
  have hlen := r.length_octets
  have hnext : it.hasNext = true := by
    rw [h.toAt.hasNext_eq]
    rfl
  have hat : ({ it with current := it.current + 16 + it.nextSize } : TagIterator).At p rs a b
      adj (pre ++ [r]) rest := by
    refine ⟨by rw [append_assoc]; exact h.records, h.area, h.stop, ?_, h.offsetStart,
      h.offsetEnd, h.adjustment⟩
    rw [octetsOf_append, length_append, ← h.current, octetsOf_cons, octetsOf_nil,
      append_nil, hlen, hsize, Nat.add_assoc]
  have hfuel : rest.length ≤ it.stop := by
    have hle := length_le_octetsOf rest
    omega
  obtain ⟨it', pre', rem', hprepare, hready, hle, hfilter⟩ :=
    hat.prepare hstored hgood hranged it.stop hfuel
  refine ⟨⟨it.nextTid, it.nextSize, max it.nextStart it.offsetStart, min it.nextEnd it.offsetEnd,
    ⟨it.area, it.current + 16, it.current + 16 + it.nextSize⟩⟩, it', pre', rem', ?_, hready, hle,
    hfilter, ?_, htid, hsize, ?_, h.area, ?_⟩
  · unfold TagIterator.next
    rw [if_pos hnext]
    dsimp only
    rw [if_neg (by omega : ¬ it.stop < it.current + 16 + it.nextSize), hprepare]
    rfl
  · unfold shown at hshown ⊢
    split at hshown
    · cases hshown
    · rename_i hhidden
      rw [if_neg hhidden, hstart, hend, h.offsetStart, h.offsetEnd]
  · have hcontent : span (s.areas it.area).data (it.current + 16) r.content.length =
        r.content := by
      unfold octets at hspan
      rw [length_append] at hspan
      exact (span_of_append hspan).2
    unfold TagBuffer.octets
    dsimp only
    rw [Nat.add_sub_cancel_left, hsize]
    exact hcontent
  · dsimp only
    rw [← h.stop]
    omega

end TagIterator

/-! ## What lists hold -/

/-- A list and its records. -/
abbrev TagOwner := ByteTagList × List TagRecord

/-- The area that a list refers to. -/
def TagOwner.area (o : TagOwner) : Option ℕ := o.1.data

/-- The list holds the records: they are what its area starts with. -/
structure ByteTagList.Holds (l : ByteTagList) (s : ByteTagStore) (rs : List TagRecord) : Prop where
  used : l.used = (octetsOf rs).length
  small : l.used < 2 ^ 32
  unallocated : l.data = none → rs = []
  dirty : ∀ p, l.data = some p → l.used ≤ (s.areas p).dirty
  stored : ∀ p, l.data = some p → span (s.areas p).data 0 l.used = octetsOf rs
  minStart : ∀ r ∈ rs, l.minStart ≤ r.start
  maxEnd : ∀ r ∈ rs, r.stop ≤ l.maxEnd
  good : ∀ r ∈ rs, r.Good

/-- All lists hold their records, and the counts are right. -/
structure ByteTagStore.Sound (s : ByteTagStore) (os : List TagOwner) : Prop where
  owned : Pool.Owned TagOwner.area (fun p => (s.areas p).count) s.next s.freeList os
  holds : ∀ o ∈ os, o.1.Holds s o.2
  capacity : ∀ p < s.next, (s.areas p).size ≤ (s.areas p).capacity

namespace ByteTagStore

variable {s : ByteTagStore}

theorem areas_setArea (s : ByteTagStore) (p q : ℕ) (d : ByteTagListData) :
    (s.setArea p d).areas q = if q = p then d else s.areas q := by
  unfold setArea
  exact update_apply _ _ _ _

@[simp] theorem areas_setArea_self (s : ByteTagStore) (p : ℕ) (d : ByteTagListData) :
    (s.setArea p d).areas p = d :=
  update_self _ _ _

theorem setArea_setArea (s : ByteTagStore) (p : ℕ) (d d' : ByteTagListData) :
    (s.setArea p d).setArea p d' = s.setArea p d' := by
  unfold setArea
  dsimp only
  rw [update_idem]

theorem count_setArea (s : ByteTagStore) (p : ℕ) (d : ByteTagListData) :
    (fun q => ((s.setArea p d).areas q).count) =
      update (fun q => (s.areas q).count) p d.count := by
  funext q
  rw [areas_setArea, update_apply]
  split
  · rfl
  · rfl

/-- An area that changes without its count. -/
theorem count_setArea_same (s : ByteTagStore) {p : ℕ} {d : ByteTagListData}
    (hd : d.count = (s.areas p).count) :
    (fun q => ((s.setArea p d).areas q).count) = fun q => (s.areas q).count := by
  rw [count_setArea, hd]
  exact update_eq_self p _

theorem areas_setCount (s : ByteTagStore) (p n q : ℕ) :
    ∃ c, (s.setCount p n).areas q = { s.areas q with count := c } := by
  unfold setCount
  rw [areas_setArea]
  split
  · rename_i heq
    rw [heq]
    exact ⟨_, rfl⟩
  · exact ⟨(s.areas q).count, rfl⟩

/-- Of an area that loses an owner only the count changes. -/
theorem areas_deallocate (s : ByteTagStore) (d : Option ℕ) (q : ℕ) :
    ∃ c, (s.deallocate d).areas q = { s.areas q with count := c } := by
  cases d with
  | none => exact ⟨(s.areas q).count, rfl⟩
  | some p => exact s.areas_setCount p _ q

theorem areas_retain (s : ByteTagStore) (d : Option ℕ) (q : ℕ) :
    ∃ c, (s.retain d).areas q = { s.areas q with count := c } := by
  cases d with
  | none => exact ⟨(s.areas q).count, rfl⟩
  | some p => exact s.areas_setCount p _ q

end ByteTagStore

namespace ByteTagList

variable {l : ByteTagList} {s s' : ByteTagStore} {rs : List TagRecord}

/-- A list holds what it held when the front of its area stays as it was. -/
theorem Holds.kept (h : l.Holds s rs)
    (hkept : ∀ p, l.data = some p → l.used ≤ (s'.areas p).dirty ∧
      ∀ i < l.used, (s'.areas p).data i = (s.areas p).data i) : l.Holds s' rs := by
  refine ⟨h.used, h.small, h.unallocated, fun p hp => (hkept p hp).1, fun p hp => ?_, h.minStart,
    h.maxEnd,
    h.good⟩
  rw [← h.stored p hp]
  refine span_congr fun i hi => ?_
  rw [Nat.zero_add]
  exact (hkept p hp).2 i hi

theorem Holds.of_count (h : l.Holds s rs)
    (hareas : ∀ q, ∃ c, s'.areas q = { s.areas q with count := c }) : l.Holds s' rs := by
  refine h.kept fun p hp => ?_
  obtain ⟨c, hc⟩ := hareas p
  rw [hc]
  exact ⟨h.dirty p hp, fun _ _ => rfl⟩

/-- As long as the list holds the same records, its octets are the same. -/
theorem Holds.data_eq (h : l.Holds s rs) (h' : l.Holds s' rs) {p : ℕ} (hp : l.data = some p) {i : ℕ}
    (hi : i < l.used) : (s'.areas p).data i = (s.areas p).data i := by
  have hspan := (h'.stored p hp).trans (h.stored p hp).symm
  have hget := congrArg (fun bs => bs[i]?) hspan
  rw [getElem?_span _ _ hi, getElem?_span _ _ hi, Nat.zero_add] at hget
  exact Option.some_inj.mp hget

/-- Nothing depends on the adjustment. -/
theorem Holds.adjust (h : l.Holds s rs) (n : ℤ) : (l.adjust n).Holds s rs :=
  { h with }

end ByteTagList

namespace ByteTagStore

variable {s s' : ByteTagStore} {l : ByteTagList} {rs : List TagRecord} {os : List TagOwner}

namespace Sound

theorem perm (h : s.Sound os) {os' : List TagOwner} (hperm : os'.Perm os) : s.Sound os' :=
  ⟨h.owned.perm hperm, fun o ho => h.holds o (hperm.subset ho), h.capacity⟩

/-- A list that refers to nothing comes or goes. -/
theorem cons_empty (h : s.Sound os) : s.Sound ((empty, []) :: os) := by
  have hnone : TagOwner.area (empty, []) = none := rfl
  refine ⟨(Pool.Owned.cons_none hnone).mpr h.owned, fun o ho => ?_, h.capacity⟩
  rcases mem_cons.mp ho with rfl | ho
  · refine ⟨rfl, by decide, fun _ => rfl, (by rintro p ⟨⟩), (by rintro p ⟨⟩),
      fun r hr => ?_, fun r hr => ?_, fun r hr => ?_⟩
    · exact absurd hr not_mem_nil
    · exact absurd hr not_mem_nil
    · exact absurd hr not_mem_nil
  · exact h.holds o ho

theorem adjust (h : s.Sound ((l, rs) :: os)) (n : ℤ) : s.Sound ((l.adjust n, rs) :: os) := by
  refine ⟨h.owned.congr_head rfl, fun o ho => ?_, h.capacity⟩
  rcases mem_cons.mp ho with rfl | ho
  · exact (h.holds _ mem_cons_self).adjust n
  · exact h.holds o (mem_cons_of_mem _ ho)

theorem next_deallocate (s : ByteTagStore) (d : Option ℕ) : (s.deallocate d).next = s.next := by
  cases d with
  | none => rfl
  | some p => rfl

theorem next_retain (s : ByteTagStore) (d : Option ℕ) : (s.retain d).next = s.next := by
  cases d with
  | none => rfl
  | some p => rfl

/-- One list less refers to the area. -/
theorem owned_deallocate
    (h : Pool.Owned TagOwner.area (fun p => (s.areas p).count) s.next s.freeList ((l, rs) :: os)) :
    Pool.Owned TagOwner.area (fun p => ((s.deallocate l.data).areas p).count)
      (s.deallocate l.data).next (s.deallocate l.data).freeList os := by
  cases hdata : l.data with
  | none =>
    have hnone : TagOwner.area (l, rs) = none := hdata
    exact (Pool.Owned.cons_none hnone).mp h
  | some p =>
    have hsome : TagOwner.area (l, rs) = some p := hdata
    have hpos : 0 < (s.areas p).count := by
      rw [h.count p (h.lt_next mem_cons_self hsome)]
      exact Pool.Owned.refs_pos mem_cons_self hsome
    have hcount : (fun q => ((s.deallocate (some p)).areas q).count) =
        update (fun q => (s.areas q).count) p ((s.areas p).count - 1) :=
      s.count_setArea p _
    rw [hcount]
    refine h.release hsome ?_
    unfold ByteTagStore.deallocate
    dsimp only
    split
    · rename_i hzero
      exact Or.inr ⟨by omega, rfl⟩
    · exact Or.inl rfl

/-- **A list is destroyed.** -/
theorem deallocate (h : s.Sound ((l, rs) :: os)) : (s.deallocate l.data).Sound os := by
  refine ⟨owned_deallocate h.owned, fun o ho => (h.holds o (mem_cons_of_mem _ ho)).of_count
    (s.areas_deallocate l.data), fun p hp => ?_⟩
  obtain ⟨c, hc⟩ := s.areas_deallocate l.data p
  rw [next_deallocate] at hp
  rw [hc]
  exact h.capacity p hp

/-- **A list is copied.** -/
theorem retain (h : s.Sound os) (ho : (l, rs) ∈ os) : (s.retain l.data).Sound ((l, rs) :: os) := by
  refine ⟨?_, fun o hmem => ?_, fun p hp => ?_⟩
  · cases hdata : l.data with
    | none =>
      have hnone : TagOwner.area (l, rs) = none := hdata
      exact (Pool.Owned.cons_none hnone).mpr h.owned
    | some p =>
      have hcount : (fun q => ((s.retain (some p)).areas q).count) =
          update (fun q => (s.areas q).count) p ((s.areas p).count + 1) :=
        s.count_setArea p _
      rw [hcount]
      exact h.owned.retain ho hdata hdata
  · have hold : o ∈ os := by
      rcases mem_cons.mp hmem with rfl | hmem
      · exact ho
      · exact hmem
    exact (h.holds o hold).of_count (s.areas_retain l.data)
  · obtain ⟨c, hc⟩ := s.areas_retain l.data p
    rw [next_retain] at hp
    rw [hc]
    exact h.capacity p hp

end Sound

/-! ## Room for a tag -/

/-- **What `Allocate` returns**: an area that nobody refers to, large enough, with one owner. -/
theorem Sound.allocate (h : s.Sound os) (n : ℕ) :
    (∀ o ∈ os, o.1.data ≠ some (s.allocate n).1) ∧
      (∀ o : TagOwner, o.1.data = some (s.allocate n).1 → Pool.Owned TagOwner.area
        (fun p => ((s.allocate n).2.areas p).count) (s.allocate n).2.next (s.allocate n).2.freeList
        (o :: os)) ∧
      n ≤ ((s.allocate n).2.areas (s.allocate n).1).capacity ∧
      (∀ p < (s.allocate n).2.next,
        ((s.allocate n).2.areas p).size ≤ ((s.allocate n).2.areas p).capacity) ∧
      ∀ q ≠ (s.allocate n).1, (s.allocate n).2.areas q = s.areas q := by
  obtain ⟨fits, hfits⟩ : ∃ f, f = fun p => decide (n ≤ (s.areas p).size) := ⟨_, rfl⟩
  unfold ByteTagStore.allocate
  rw [← hfits]
  cases htake : Pool.take fits s.freeList with
  | mk found rest =>
    have hrest : (Pool.take fits s.freeList).2 = rest := by rw [htake]
    cases found with
    | some p =>
      have hfound : (Pool.take fits s.freeList).1 = some p := by rw [htake]
      obtain ⟨hmem, hsize, -⟩ := (Pool.take_spec fits s.freeList).2 p hfound
      rw [hfits] at hsize
      have hlt := (h.owned.free p hmem).1
      have hlarge : n ≤ (s.areas p).capacity :=
        (of_decide_eq_true hsize).trans (h.capacity p hlt)
      dsimp only
      refine ⟨fun o ho hdata => ?_, fun o ho => ?_, ?_, fun q hq => ?_, fun q hq => ?_⟩
      · have hsome : TagOwner.area o = some p := hdata
        have hpos := Pool.Owned.refs_pos ho hsome
        rw [(h.owned.free p hmem).2] at hpos
        exact absurd hpos (lt_irrefl _)
      · have htaken := h.owned.taken fits hfound (o := o) ho
        rw [hrest] at htaken
        have hcount := s.count_setArea p { s.areas p with count := 1, dirty := 0 }
        rw [← hcount] at htaken
        exact htaken
      · show n ≤ ((s.setArea p _).areas p).capacity
        rw [areas_setArea_self]
        exact hlarge
      · show ((s.setArea p _).areas q).size ≤ ((s.setArea p _).areas q).capacity
        rw [areas_setArea]
        split
        · exact h.capacity p hlt
        · exact h.capacity q hq
      · show (s.setArea p _).areas q = _
        rw [areas_setArea, if_neg hq]
    | none =>
      dsimp only
      refine ⟨fun o ho hdata => ?_, fun o ho => ?_, ?_, fun q hq => ?_, fun q hq => ?_⟩
      · exact absurd (h.owned.lt_next ho hdata) (lt_irrefl _)
      · have hnew := h.owned.fresh_area fits (o := o) ho
        rw [hrest] at hnew
        have hcount := s.count_setArea s.next
          ⟨n, 1, 0, max n s.maxSize, (s.areas s.next).data⟩
        rw [← hcount] at hnew
        exact hnew
      · show n ≤ ((s.setArea s.next _).areas s.next).capacity
        rw [areas_setArea_self]
        exact le_max_left _ _
      · show ((s.setArea s.next _).areas q).size ≤ ((s.setArea s.next _).areas q).capacity
        rw [areas_setArea]
        split
        · exact le_max_left _ _
        · rename_i hne
          have hlt : q < s.next + 1 := hq
          exact h.capacity q (by omega)
      · show (s.setArea s.next _).areas q = _
        rw [areas_setArea, if_neg hq]

/-- A list with an area in which there is room for `n` octets, and none of the other lists uses more
of it. -/
structure Roomy (s : ByteTagStore) (l : ByteTagList) (rs : List TagRecord) (os : List TagOwner)
    (p n : ℕ) : Prop where
  owned : Pool.Owned TagOwner.area (fun p => (s.areas p).count) s.next s.freeList
    (({ l with data := some p }, rs) :: os)
  holds : ∀ o ∈ os, o.1.Holds s o.2
  capacity : ∀ p < s.next, (s.areas p).size ≤ (s.areas p).capacity
  room : n ≤ (s.areas p).capacity
  stored : span (s.areas p).data 0 l.used = octetsOf rs
  alone : ∀ o ∈ os, o.1.data = some p → o.1.used ≤ l.used

/-- **The first part of `Add`.** -/
theorem Sound.room (h : s.Sound ((l, rs) :: os)) (n : ℕ) :
    ∃ p s', l.room s n = (p, l.used, s') ∧ s'.Roomy l rs os p n := by
  have hl := h.holds _ mem_cons_self
  have hrest : ∀ o ∈ os, o.1.Holds s o.2 := fun o ho => h.holds o (mem_cons_of_mem _ ho)
  obtain ⟨hnew, howned, hlarge, hcapacity, hothers⟩ := h.allocate n
  have hkept : ∀ o ∈ (l, rs) :: os, o.1.Holds (s.allocate n).2 o.2 := by
    intro o ho
    refine (h.holds o ho).kept fun q hq => ?_
    have hne : q ≠ (s.allocate n).1 := fun heq => hnew o ho (heq ▸ hq)
    rw [hothers q hne]
    exact ⟨(h.holds o ho).dirty q hq, fun _ _ => rfl⟩
  have hall := (howned ({ l with data := some (s.allocate n).1 }, rs) rfl).perm
    (List.Perm.swap _ _ _)
  unfold ByteTagList.room
  cases hdata : l.data with
  | none =>
    have hempty := hl.unallocated hdata
    have hused : l.used = 0 := by rw [hl.used, hempty, octetsOf_nil, length_nil]
    dsimp only at hempty hused ⊢
    refine ⟨_, _, by rw [hused], ?_, fun o ho => hkept o (mem_cons_of_mem _ ho), hcapacity,
      hlarge, ?_, fun o ho hp => absurd hp (hnew o (mem_cons_of_mem _ ho))⟩
    · have hnone : TagOwner.area (l, rs) = none := hdata
      exact (Pool.Owned.cons_none hnone).mp hall
    · rw [hused, hempty]
      rfl
  | some p =>
    dsimp only
    split
    · -- the octets move to a new area, and this list leaves the old one
      obtain ⟨p', hp'⟩ : ∃ p', p' = (s.allocate n).1 := ⟨_, rfl⟩
      obtain ⟨s₀, hs₀⟩ : ∃ s₀, s₀ = (s.allocate n).2 := ⟨_, rfl⟩
      rw [← hs₀] at hcapacity hkept
      rw [← hp'] at hnew
      rw [← hs₀, ← hp'] at hlarge hall ⊢
      have hspan : span (s₀.areas p).data 0 l.used = octetsOf rs :=
        (hkept _ mem_cons_self).stored p hdata
      obtain ⟨d, hd⟩ : ∃ d, d = { s₀.areas p' with
          data := write (s₀.areas p').data 0 (span (s₀.areas p).data 0 l.used) } :=
        ⟨_, rfl⟩
      have hcount := s₀.count_setArea_same (p := p') (d := d) (by rw [hd])
      have hareas := (s₀.setArea p' d).areas_deallocate (some p)
      have harea : ∃ c, ((s₀.setArea p' d).deallocate (some p)).areas p' =
          { d with count := c } := by
        obtain ⟨c, hc⟩ := hareas p'
        exact ⟨c, by rw [hc, areas_setArea_self]⟩
      rw [← hd]
      refine ⟨p', (s₀.setArea p' d).deallocate (some p), rfl, ?_, fun o ho => ?_, fun q hq => ?_,
        ?_, ?_, fun o ho hp => absurd hp (hnew o (mem_cons_of_mem _ ho))⟩
      · have hmoved := hall
        rw [← hcount] at hmoved
        have hleft := Sound.owned_deallocate (s := s₀.setArea p' d) hmoved
        rw [hdata] at hleft
        exact hleft
      · refine ((hkept o (mem_cons_of_mem _ ho)).kept fun q hq => ?_).of_count hareas
        have hne : q ≠ p' := fun heq => hnew o (mem_cons_of_mem _ ho) (heq ▸ hq)
        rw [areas_setArea, if_neg hne]
        exact ⟨(hkept o (mem_cons_of_mem _ ho)).dirty q hq, fun _ _ => rfl⟩
      · obtain ⟨c, hc⟩ := hareas q
        rw [hc]
        show ((s₀.setArea p' d).areas q).size ≤ ((s₀.setArea p' d).areas q).capacity
        rw [areas_setArea]
        split
        · rename_i heq
          rw [hd]
          exact hcapacity p' (heq ▸ hq)
        · exact hcapacity q hq
      · obtain ⟨c, hc⟩ := harea
        rw [hc, hd]
        exact hlarge
      · obtain ⟨c, hc⟩ := harea
        rw [hc, hd]
        dsimp only
        have hself := span_write_self (s₀.areas p').data 0
          (span (s₀.areas p).data 0 l.used)
        rw [length_span] at hself
        rw [hself, hspan]
    · -- nobody else can have used what is behind
      rename_i hplace
      have hsome : TagOwner.area (l, rs) = some p := hdata
      have hlt := h.owned.lt_next mem_cons_self hsome
      have hcapacity' := h.capacity p hlt
      refine ⟨p, s, rfl, ?_, hrest, h.capacity, by omega, hl.stored p hdata, fun o ho hp => ?_⟩
      · exact h.owned.congr_head hdata.symm
      · by_cases hone : (s.areas p).count = 1
        · exact absurd hp (h.owned.ne_of_count_one hsome hone ho)
        · have hdirty : (s.areas p).dirty = l.used := by
            by_contra hne
            exact hplace (Or.inr ⟨hone, hne⟩)
          rw [← hdirty]
          exact (hrest o ho).dirty p hp

/-! ## Adding tags -/

/-- Octets are written from a position on, and the area is dirty up to another one. -/
def appended (s : ByteTagStore) (p pos n : ℕ) (bs : List Octet) : ByteTagStore :=
  s.setArea p { s.areas p with
    data := write (s.areas p).data pos bs
    dirty := n }

theorem areas_appended (s : ByteTagStore) (p pos n : ℕ) (bs : List Octet) :
    (s.appended p pos n bs).areas p = { s.areas p with
      data := write (s.areas p).data pos bs
      dirty := n } :=
  areas_setArea_self s p _

/-- **Behind the octets of a list nobody is disturbed.** -/
theorem Roomy.holds_appended {p n m : ℕ} (h : s.Roomy l rs os p n) (hm : l.used ≤ m)
    (bs : List Octet) : ∀ o ∈ os, o.1.Holds (s.appended p l.used m bs) o.2 := by
  intro o ho
  refine (h.holds o ho).kept fun q hq => ?_
  unfold appended
  rw [areas_setArea]
  split
  · rename_i heq
    have hused := h.alone o ho (heq ▸ hq)
    refine ⟨hused.trans hm, fun i hi => ?_⟩
    rw [heq]
    exact write_of_lt _ _ (hi.trans_le hused)
  · exact ⟨(h.holds o ho).dirty q hq, fun _ _ => rfl⟩

/-- **A record is appended.** -/
theorem Roomy.appended {p n : ℕ} (h : s.Roomy l rs os p n) (hl : l.Holds s' rs) {r : TagRecord}
    (hr : r.Good) (hn : n = l.used + r.octets.length) (hsmall : n < 2 ^ 32) :
    (s.appended p l.used n r.octets).Sound (({ l with
      minStart := min l.minStart r.start
      maxEnd := max l.maxEnd r.stop
      used := n
      data := some p }, rs ++ [r]) :: os) := by
  have harea := s.areas_appended p l.used n r.octets
  refine ⟨?_, fun o ho => ?_, fun q hq => ?_⟩
  · have hcount : (fun q => ((s.appended p l.used n r.octets).areas q).count) =
        fun q => (s.areas q).count := s.count_setArea_same rfl
    rw [hcount]
    exact h.owned.congr_head rfl
  · rcases mem_cons.mp ho with rfl | ho
    · have hlen : n = (octetsOf (rs ++ [r])).length := by
        rw [octetsOf_append, length_append, ← hl.used, hn, octetsOf_cons, octetsOf_nil,
          append_nil]
      refine ⟨hlen, hsmall, (by rintro ⟨⟩), fun q hq => ?_, fun q hq => ?_, fun r' hr' => ?_,
        fun r' hr' => ?_, fun r' hr' => ?_⟩
      · cases hq
        rw [harea]
      · cases hq
        rw [harea]
        dsimp only
        rw [hn, span_add, span_write_of_le _ _ (by omega), h.stored, Nat.zero_add,
          span_write_self, octetsOf_append, octetsOf_cons, octetsOf_nil, append_nil]
      · rcases mem_append.mp hr' with hold | hnew
        · exact (min_le_left _ _).trans (hl.minStart r' hold)
        · rw [mem_singleton.mp hnew]
          exact min_le_right _ _
      · rcases mem_append.mp hr' with hold | hnew
        · exact (hl.maxEnd r' hold).trans (le_max_left _ _)
        · rw [mem_singleton.mp hnew]
          exact le_max_right _ _
      · rcases mem_append.mp hr' with hold | hnew
        · exact hl.good r' hold
        · rw [mem_singleton.mp hnew]
          exact hr
    · exact h.holds_appended (by omega) _ o ho
  · show ((s.setArea p _).areas q).size ≤ ((s.setArea p _).areas q).capacity
    rw [areas_setArea]
    split
    · rename_i heq
      exact h.capacity p (heq ▸ hq)
    · exact h.capacity q hq

/-- **`Add`**: when the content of the tag is written as well, the list holds one record more. -/
theorem Sound.add (h : s.Sound ((l, rs) :: os)) (tid : BitVec 16) (n : ℕ) {start stop : ℤ}
    (hle : start ≤ stop) (hstart : InRange (start - l.adjustment))
    (hstop : InRange (stop - l.adjustment)) (hsize : l.used + (n + 16) < 2 ^ 32) :
    ∃ buf l' s', l.add s tid n start stop = .ok (buf, l', s') ∧ l'.adjustment = l.adjustment ∧
      (∀ o ∈ os, o.1.Holds s' o.2) ∧ ∀ content : List Octet, content.length = n →
        ∃ buf' s'', buf.write s' content = .ok (buf', s'') ∧ s''.Sound ((l', rs ++
          [⟨tid, start - l.adjustment, stop - l.adjustment, content⟩]) :: os) := by
  have hl := h.holds _ mem_cons_self
  obtain ⟨p, s₁, hroom, hroomy⟩ := h.room (l.used + (n + 16))
  have hspace : Word32.add l.used (n + 16) = l.used + (n + 16) := Word32.add_eq hsize
  have hheader : (l.header tid n start stop).length = 16 := rfl
  have hplace := hroomy.room
  -- what the area is after the header
  obtain ⟨s₂, hs₂⟩ : ∃ s₂, s₂ = s₁.appended p l.used (l.used + (n + 16))
    (l.header tid n start stop) := ⟨_, rfl⟩
  have harea := s₁.areas_appended p l.used (l.used + (n + 16)) (l.header tid n start stop)
  rw [← hs₂] at harea
  refine ⟨⟨p, l.used + 16, l.used + (n + 16)⟩, { l with
      minStart := min l.minStart (start - l.adjustment)
      maxEnd := max l.maxEnd (stop - l.adjustment)
      used := l.used + (n + 16)
      data := some p }, s₂, ?_, rfl, ?_, fun content hcontent => ?_⟩
  · unfold ByteTagList.add
    dsimp only
    rw [hspace, if_neg (by omega : ¬ l.used + (n + 16) < l.used), hroom, wrap_eq hstart,
      wrap_eq hstop]
    unfold TagBuffer.write
    dsimp only
    rw [hheader, if_neg (by omega : ¬ l.used + (n + 16) < l.used + 16),
      if_neg (by omega : ¬ (s₁.areas p).capacity < l.used + 16)]
    dsimp only [Except.map]
    rw [setArea_setArea, areas_setArea_self, hs₂]
    rfl
  · rw [hs₂]
    exact hroomy.holds_appended (by omega) _
  · obtain ⟨r, hr⟩ : ∃ r : TagRecord, r = ⟨tid, start - l.adjustment, stop - l.adjustment, content⟩ :=
      ⟨_, rfl⟩
    have hoctets : r.octets = l.header tid n start stop ++ content := by
      rw [hr, ← hcontent]
      rfl
    have hgood : r.Good := by
      rw [hr]
      exact ⟨by dsimp only; omega, hstart, hstop, by dsimp only; omega⟩
    have hlen : l.used + (n + 16) = l.used + r.octets.length := by
      rw [hoctets, length_append, hheader, hcontent, Nat.add_comm n]
    refine ⟨⟨p, l.used + 16 + content.length, l.used + (n + 16)⟩,
      s₁.appended p l.used (l.used + (n + 16)) r.octets, ?_, ?_⟩
    · unfold TagBuffer.write
      dsimp only
      rw [if_neg (by omega : ¬ l.used + (n + 16) < l.used + 16 + content.length), harea]
      dsimp only
      rw [if_neg (by omega : ¬ (s₁.areas p).capacity < l.used + 16 + content.length)]
      have hwrite := write_write (s₁.areas p).data l.used (l.header tid n start stop) content
      rw [hheader] at hwrite
      rw [hwrite, hs₂]
      unfold ByteTagStore.appended
      rw [setArea_setArea, hoctets]
    · have hall := hroomy.appended hl hgood hlen hsize
      rw [hr] at hall ⊢
      exact hall

/-- `Add` and `CopyFrom` for a tag of another list. -/
theorem Sound.addItem {t : ByteTagList} {ts : List TagRecord} (h : s.Sound ((t, ts) :: os))
    (ho : (l, rs) ∈ os) {p : ℕ} (hdata : l.data = some p) (item : TagItem) {content : List Octet}
    (hcontent : item.buf.octets s = content) (hlen : item.size = content.length)
    (harea : item.buf.area = p) (hstop : item.buf.stop ≤ l.used) (hle : item.start ≤ item.stop)
    (hlow : InRange (item.start - t.adjustment)) (hhigh : InRange (item.stop - t.adjustment))
    (hsize : t.used + (content.length + 16) < 2 ^ 32) :
    ∃ t' s', t.addItem s item = .ok (t', s') ∧ t'.adjustment = t.adjustment ∧ s'.Sound ((t', ts ++
      [⟨item.tid, item.start - t.adjustment, item.stop - t.adjustment, content⟩]) :: os) := by
  rw [← hlen] at hsize
  obtain ⟨buf, t', s', hadd, hadj, hothers, hfill⟩ := h.add item.tid item.size hle hlow hhigh hsize
  obtain ⟨buf', s'', hwrite, hsound⟩ := hfill content hlen.symm
  refine ⟨t', s'', ?_, hadj, hsound⟩
  -- the octets that are copied are still there
  have hread : item.buf.octets s' = content := by
    rw [← hcontent]
    unfold TagBuffer.octets
    refine span_congr fun i hi => ?_
    have hlt : item.buf.current + i < l.used := by omega
    rw [harea]
    exact (h.holds _ (mem_cons_of_mem _ ho)).data_eq (hothers _ ho) hdata hlt
  unfold ByteTagList.addItem
  rw [hadd, Program.ok_bind]
  dsimp only
  rw [hread, hwrite, Program.ok_bind]
  rfl

end ByteTagStore

/-! ## Copying the tags of a list -/

/-- The record that a loop over the tags of one list leaves in another. -/
def TagRecord.moved (a b adj adj' : ℤ) (clip : ℤ × ℤ → Option (ℤ × ℤ)) (r : TagRecord) :
    Option TagRecord :=
  ((r.shown a b adj).bind clip).map fun q => ⟨r.tid, q.1 - adj', q.2 - adj', r.content⟩

/-- The ranges that a loop adds are ranges of 32 bits. -/
def Clips (a b adj adj' : ℤ) (clip : ℤ × ℤ → Option (ℤ × ℤ)) (rs : List TagRecord) : Prop :=
  ∀ r ∈ rs, ∀ q, (r.shown a b adj).bind clip = some q →
    q.1 ≤ q.2 ∧ InRange (q.1 - adj') ∧ InRange (q.2 - adj')

theorem length_octetsOf_moved (a b adj adj' : ℤ) (clip : ℤ × ℤ → Option (ℤ × ℤ))
    (rs : List TagRecord) :
    (octetsOf (rs.filterMap (moved a b adj adj' clip))).length ≤
      (octetsOf rs).length := by
  induction rs with
  | nil => exact le_refl _
  | cons r rest ih =>
    rw [octetsOf_cons, length_append]
    cases hmoved : r.moved a b adj adj' clip with
    | none =>
      rw [filterMap_cons_none hmoved]
      omega
    | some r' =>
      have hcontent : r'.content = r.content := by
        unfold moved at hmoved
        obtain ⟨q, -, rfl⟩ := Option.map_eq_some_iff.mp hmoved
        rfl
      rw [filterMap_cons_some hmoved, octetsOf_cons, length_append, r'.length_octets,
        r.length_octets, hcontent]
      omega

theorem length_octetsOf_suffix {rs rs' : List TagRecord} (h : rs' <:+ rs) :
    (octetsOf rs').length ≤ (octetsOf rs).length := by
  obtain ⟨pre, rfl⟩ := h
  rw [octetsOf_append, length_append]
  exact Nat.le_add_left _ _

/-- **`Begin`** is ready to show the first tag of its range, if there is any. -/
theorem ByteTagList.Holds.begin_eq {l : ByteTagList} {rs : List TagRecord} (hl : l.Holds s rs)
    (hranged : Ranged l.adjustment rs) (a b : ℤ) :
    ∃ it, l.beginAt s a b = .ok it ∧ (rs = [] ∧ ¬ it.hasNext = true ∨
      ∃ p pre rem, l.data = some p ∧ it.Ready p rs a b l.adjustment pre rem ∧ rem <:+ rs ∧
        ∀ (β : Type) (f : TagRecord → Option β),
          (∀ r, r.shown a b l.adjustment = none → f r = none) →
            rem.filterMap f = rs.filterMap f) := by
  unfold beginAt
  cases hdata : l.data with
  | none => exact ⟨_, rfl, Or.inl ⟨hl.unallocated hdata, Bool.false_ne_true⟩⟩
  | some p =>
    have hstored := hl.stored p hdata
    rw [hl.used] at hstored
    have hat : (⟨p, 0, l.used, a, b, l.adjustment, 0, 0, 0, 0⟩ : TagIterator).At p rs a b
        l.adjustment [] rs := ⟨rfl, rfl, hl.used, rfl, rfl, rfl, rfl⟩
    have hfuel : rs.length ≤ l.used := by
      rw [hl.used]
      exact length_le_octetsOf rs
    obtain ⟨it, pre, rem, hprepare, hready, hsuffix, hfilter⟩ :=
      hat.prepare hstored hl.good hranged l.used hfuel
    exact ⟨it, hprepare, Or.inr ⟨p, pre, rem, rfl, hready, hsuffix, hfilter⟩⟩

namespace ByteTagStore.Sound

variable {s : ByteTagStore} {l t : ByteTagList} {rs ts : List TagRecord} {os : List TagOwner}

variable {clip : ℤ × ℤ → Option (ℤ × ℤ)}

/-- **The loop over the tags of a list.**  The induction is on the turns, and what is left to add
still fits. -/
theorem addEach (ho : (l, rs) ∈ os) {p : ℕ} (hdata : l.data = some p) {a b adj adj' : ℤ}
    (hranged : Ranged adj rs) (hclip : Clips a b adj adj' clip rs) (fuel : ℕ) {it : TagIterator}
    {pre rem : List TagRecord} (hready : it.Ready p rs a b adj pre rem) (hfuel : rem.length ≤ fuel)
    (h : s.Sound ((t, ts) :: os)) (hadj : t.adjustment = adj')
    (hsize : t.used + (octetsOf rem).length < 2 ^ 32) :
    ∃ t' s', addEach clip fuel t s it = .ok (t', s') ∧ t'.adjustment = adj' ∧
      s'.Sound ((t', ts ++ rem.filterMap (moved a b adj adj' clip)) :: os) := by
  induction fuel generalizing s t ts it pre rem with
  | zero =>
    have hnil : rem = [] := length_eq_zero_iff.mp (Nat.le_zero.mp hfuel)
    subst hnil
    refine ⟨t, s, rfl, hadj, ?_⟩
    rw [filterMap_nil, append_nil]
    exact h
  | succ fuel ih =>
    have hl := h.holds _ (mem_cons_of_mem _ ho)
    have hstored := hl.stored p hdata
    rw [hl.used] at hstored
    unfold addEach
    cases rem with
    | nil =>
      have hnext : ¬ it.hasNext = true := by
        rw [hready.toAt.hasNext_eq]
        exact Bool.false_ne_true
      rw [if_neg hnext]
      refine ⟨t, s, rfl, hadj, ?_⟩
      rw [filterMap_nil, append_nil]
      exact h
    | cons r rest =>
      have hnext : it.hasNext = true := by
        rw [hready.toAt.hasNext_eq]
        rfl
      have hr : r ∈ rs := by
        rw [hready.records]
        exact mem_append_right _ mem_cons_self
      obtain ⟨item, it', pre', rem', hitem, hready', hsuffix, hfilter, hshown, htid, hlen, hcontent,
        harea, hstop⟩ := hready.next_eq hstored hl.good hranged
      have hrest := hfilter TagRecord (moved a b adj adj' clip) fun r hr => by
        unfold moved
        rw [hr]
        rfl
      have hfuel' : rem'.length ≤ fuel :=
        hsuffix.length_le.trans (Nat.le_of_succ_le_succ hfuel)
      have hoctets := length_octetsOf_suffix hsuffix
      rw [octetsOf_cons, length_append, r.length_octets] at hsize
      rw [if_pos hnext, hitem, Program.ok_bind]
      dsimp only
      cases hclipped : clip (item.start, item.stop) with
      | none =>
        have hmoved : r.moved a b adj adj' clip = none := by
          unfold moved
          rw [hshown, Option.bind_some, hclipped]
          rfl
        rw [filterMap_cons_none hmoved, ← hrest]
        exact ih hready' hfuel' h hadj (by omega)
      | some q =>
        have hbind : (r.shown a b adj).bind clip = some q := by
          rw [hshown, Option.bind_some, hclipped]
        have hmoved : r.moved a b adj adj' clip =
            some ⟨r.tid, q.1 - adj', q.2 - adj', r.content⟩ := by
          unfold moved
          rw [hbind]
          rfl
        obtain ⟨hle, hlow, hhigh⟩ := hclip r hr q hbind
        rw [← hadj] at hlow hhigh
        rw [← hl.used] at hstop
        have hroom : t.used + (r.content.length + 16) < 2 ^ 32 := by omega
        obtain ⟨t', s', hadd, hadj', hsound⟩ := h.addItem ho hdata { item with
          start := q.1, stop := q.2 } hcontent hlen harea hstop hle hlow hhigh hroom
        dsimp only at hsound
        rw [htid, hadj] at hsound
        have hused : t'.used = t.used + (16 + r.content.length) := by
          rw [(hsound.holds _ mem_cons_self).used, octetsOf_append, length_append,
            ← (h.holds _ mem_cons_self).used, octetsOf_cons, octetsOf_nil, append_nil,
            length_octets]
        obtain ⟨t'', s'', heach, hadj'', hsound'⟩ := ih hready' hfuel' hsound (hadj'.trans hadj)
          (by omega)
        refine ⟨t'', s'', ?_, hadj'', ?_⟩
        · rw [← heach]
          exact (congrArg (· >>= _) hadd).trans (Program.ok_bind _ _)
        · rw [append_assoc, hrest] at hsound'
          rw [filterMap_cons_some hmoved]
          exact hsound'

/-- **All tags of a list are added to another one.** -/
theorem addFrom (h : s.Sound ((t, ts) :: os)) (ho : (l, rs) ∈ os) (hranged : Ranged l.adjustment rs)
    (hclip : Clips 0 (2 ^ 31 - 1) l.adjustment t.adjustment clip rs)
    (hsize : t.used + l.used < 2 ^ 32) :
    ∃ t' s', addFrom clip t s l = .ok (t', s') ∧ t'.adjustment = t.adjustment ∧
      s'.Sound ((t', ts ++
        rs.filterMap (moved 0 (2 ^ 31 - 1) l.adjustment t.adjustment clip)) :: os) := by
  have hl : l.Holds s rs := h.holds _ (mem_cons_of_mem _ ho)
  obtain ⟨it, hbegin, hcases⟩ := hl.begin_eq hranged 0 (2 ^ 31 - 1)
  unfold ByteTagList.addFrom ByteTagList.beginAll
  rw [hbegin, Program.ok_bind]
  rcases hcases with ⟨hnil, hnext⟩ | ⟨p, pre, rem, hdata, hready, hsuffix, hfilter⟩
  · refine ⟨t, s, ?_, rfl, ?_⟩
    · cases l.used with
      | zero => rfl
      | succ n => exact if_neg hnext
    · rw [hnil, filterMap_nil, append_nil]
      exact h
  · have hrest := hfilter TagRecord
      (moved 0 (2 ^ 31 - 1) l.adjustment t.adjustment clip) fun r hr => by
        unfold moved
        rw [hr]
        rfl
    have hoctets := length_octetsOf_suffix hsuffix
    rw [← hl.used] at hoctets
    have hfuel : rem.length ≤ l.used := by
      refine hsuffix.length_le.trans ?_
      rw [hl.used]
      exact length_le_octetsOf rs
    rw [← hrest]
    exact h.addEach ho hdata hranged hclip l.used hready hfuel rfl (by omega)

/-- **A list is built anew** from its own tags. -/
theorem rebuild (h : s.Sound ((l, rs) :: os)) (hranged : Ranged l.adjustment rs)
    (hclip : Clips 0 (2 ^ 31 - 1) l.adjustment 0 clip rs) :
    ∃ l' s', l.rebuild s clip = .ok (l', s') ∧ l'.adjustment = 0 ∧ l'.used ≤ l.used ∧
      s'.Sound ((l', rs.filterMap (moved 0 (2 ^ 31 - 1) l.adjustment 0 clip)) :: os) := by
  have hl := h.holds _ mem_cons_self
  have hsmall := hl.small
  obtain ⟨list, s₁, hadd, hadj, hsound⟩ := h.cons_empty.addFrom mem_cons_self hranged hclip
    (by rw [show empty.used = 0 from rfl, Nat.zero_add]; exact hsmall)
  rw [nil_append] at hsound
  -- the old records go, the new list is assigned and its first copy goes
  have hleft := (hsound.perm (List.Perm.swap _ _ _)).deallocate
  have hassigned := (hleft.retain mem_cons_self).deallocate
  refine ⟨list, _, ?_, hadj, ?_, hassigned⟩
  · unfold ByteTagList.rebuild
    rw [hadd]
    rfl
  · rw [(hassigned.holds _ mem_cons_self).used, hl.used]
    exact length_octetsOf_moved _ _ _ _ _ _

end ByteTagStore.Sound

end Ns3Dsme.Network
