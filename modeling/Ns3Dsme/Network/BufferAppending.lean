/-
# When appending works

What `AddAtEnd (const Buffer &)` and `Write (start, end)` lose: bytes that are to be behind a zero
area are put where no zero area is taken into account, and the buffer shows what was there before.
Everything else is copied as it was shown.
-/
import Ns3Dsme.Network.BufferConcat

open List Program

namespace Ns3Dsme.Network

open Buffer

/-! ## Bytes that are not written -/

namespace Data

theorem post_overwrite (d : Data) (pos : ℕ) (bs : List Octet) :
    Post (d.overwrite pos bs) fun d' => ∀ p < pos, d'.bytes p = d.bytes p := by
  unfold overwrite Post
  rw [wp_ite]
  constructor
  · intro _ p hp
    exact if_neg (by omega)
  · intro _
    trivial

theorem post_copyFrom (d src : Data) (pos start len : ℕ) :
    Post (d.copyFrom pos src start len) fun d' => ∀ p < pos, d'.bytes p = d.bytes p := by
  unfold copyFrom Post
  rw [wp_ite]
  constructor
  · intro _ p _
    rfl
  · intro _
    rw [wp_ite]
    constructor
    · intro _
      exact d.post_overwrite pos _
    · intro _
      trivial

end Data

/-- `Write (start, end)` leaves what is stored in front of the position. -/
theorem BufferIterator.post_writeFrom (s : Store) (it start : BufferIterator) (size : ℕ) :
    Post (it.writeFrom s start size) fun s' => ∃ d, s' = s.setArea it.data d
      ∧ ∀ p < it.current, d.bytes p = (s.areas it.data).bytes p := by
  unfold BufferIterator.writeFrom Post
  rw [wp_ite]
  constructor
  · intro _
    trivial
  · intro _
    rw [wp_ite]
    constructor
    · intro _
      dsimp only
      rw [wp_bind]
      refine (Data.post_copyFrom _ _ _ _ _).imp fun d₁ h₁ => ?_
      rw [wp_bind]
      refine (Data.post_overwrite _ _ _).imp fun d₂ h₂ => ?_
      rw [wp_bind]
      refine (Data.post_copyFrom _ _ _ _ _).imp fun d₃ h₃ => ?_
      refine ⟨d₃, rfl, fun p hp => ?_⟩
      rw [h₃ p (by omega), h₂ p (by omega), h₁ p hp]
    · intro _
      trivial

section Uniform

variable {s : Store} {refs : ℕ → ℕ} {garbage : ℕ → Octet} {v : Octet}

/-- The bytes of an area that `Create` returns were in an area without references, or in the
memory that is allocated. -/
theorem Store.Owned.bytes_create (howned : s.Owned refs) (n : ℕ) (hgarbage : ∀ p, garbage p = v)
    (hall : ∀ q, refs q = 0 → ∀ p, (s.areas q).bytes p = v) (p : ℕ) :
    ((s.create n garbage).2.areas (s.create n garbage).1).bytes p = v := by
  obtain ⟨-, hfound⟩ := Pool.take_spec (fun p => decide (n ≤ (s.areas p).size)) s.freeList
  rw [← Store.takeFree_eq_take] at hfound
  unfold Store.create
  cases htake : Store.takeFree s.areas n s.freeList with
  | mk found rest =>
    rw [htake] at hfound
    cases found with
    | some q =>
      obtain ⟨hmem, -, -⟩ := hfound q rfl
      show ((s.setArea q { s.areas q with count := 1 }).areas q).bytes p = v
      rw [Store.areas_setArea_self]
      exact hall q (howned.free q hmem).2 p
    | none =>
      show ((s.setArea s.next (Data.allocate n garbage)).areas s.next).bytes p = v
      rw [Store.areas_setArea_self]
      exact hgarbage p

theorem Store.areas_create_of_ne (s : Store) (n : ℕ) (garbage : ℕ → Octet) {q : ℕ}
    (h : q ≠ (s.create n garbage).1) : (s.create n garbage).2.areas q = s.areas q := by
  unfold Store.create at h ⊢
  cases htake : Store.takeFree s.areas n s.freeList with
  | mk found rest =>
    rw [htake] at h
    cases found with
    | some p => exact Store.areas_setArea_of_ne s _ h
    | none => exact Store.areas_setArea_of_ne s _ h

/-- Bytes copied from among equal ones. -/
theorem Data.post_copyFrom_bytes {d src : Data} (hd : ∀ p, d.bytes p = v)
    (hsrc : ∀ p, src.bytes p = v) (pos start len : ℕ) :
    Post (d.copyFrom pos src start len) fun d' => ∀ p, d'.bytes p = v := by
  refine post_of_forall fun d' hcopy p => ?_
  unfold Data.copyFrom at hcopy
  split at hcopy
  · cases hcopy
    exact hd p
  · split at hcopy
    · unfold Data.overwrite at hcopy
      split at hcopy
      · cases hcopy
        dsimp only
        split
        · rename_i hin
          rw [length_map, length_range] at hin
          rw [getD_eq_getElem?_getD, List.getElem?_map, List.getElem?_range (by omega)]
          exact hsrc _
        · exact hd p
      · cases hcopy
    · cases hcopy

theorem Buffer.bytes_markDirty (s : Store) (b : Buffer) (q : ℕ) :
    ((b.markDirty s).areas q).bytes = (s.areas q).bytes := by
  unfold markDirty
  rw [Store.areas_setArea]
  split
  · rename_i hsame
    rw [hsame]
    rfl
  · rfl

/-- Where every byte that a buffer may find is the same, it is so in the area it has after it has
grown. -/
theorem Buffer.post_addAtEnd_bytes {b : Buffer} (howned : s.Owned refs) (n : ℕ)
    (hgarbage : ∀ p, garbage p = v)
    (hall : ∀ q, q = b.data ∨ refs q = 0 → ∀ p, (s.areas q).bytes p = v) :
    Post (b.addAtEnd s n garbage) fun r => ∀ p, (r.2.areas r.1.data).bytes p = v := by
  have hown := hall b.data (.inl rfl)
  unfold addAtEnd Post
  dsimp only
  rw [wp_ite]
  constructor
  · intro _
    rw [wp_ite]
    constructor
    · intro _ p
      show ((s.setArea b.data _).areas b.data).bytes p = v
      rw [Store.areas_setArea_self]
      exact hown p
    · intro _
      trivial
  · intro _
    rw [wp_map]
    unfold reallocate
    dsimp only
    rw [wp_map]
    have hnew := howned.bytes_create (Word32.add b.getInternalSize n) hgarbage
      fun q hq => hall q (.inr hq)
    have hold : ∀ p, ((s.create (Word32.add b.getInternalSize n) garbage).2.areas b.data).bytes p
        = v := by
      intro p
      by_cases hsame : b.data = (s.create (Word32.add b.getInternalSize n) garbage).1
      · rw [hsame]
        exact hnew p
      · rw [Store.areas_create_of_ne s _ _ hsame]
        exact hown p
    obtain ⟨q, hq⟩ : ∃ q, q = s.create (Word32.add b.getInternalSize n) garbage := ⟨_, rfl⟩
    rw [← hq] at hnew hold ⊢
    refine (Data.post_copyFrom_bytes hnew hold _ _ _).imp fun d hd p => ?_
    show (((b.movedAtEnd n q.1).markDirty ((q.2.setArea q.1 d).release b.data)).areas q.1).bytes p = v
    rw [bytes_markDirty, Store.areas_release]
    split
    · rename_i hsame
      rw [← hsame, Store.areas_setArea_self]
      exact hd p
    · rw [Store.areas_setArea_self]
      exact hd p

end Uniform

theorem Buffer.post_fromEnd (b : Buffer) (n : ℕ) :
    Post (b.fromEnd n) fun it => it.data = b.data ∧ it.current = b.endPos - n := by
  unfold fromEnd Post
  rw [wp_ite]
  constructor
  · intro _
    exact ⟨rfl, rfl⟩
  · intro _
    trivial

namespace Buffers

/-! ## Adjacent zero areas with bytes behind them -/

section Misplacing

variable {w : Buffers} {a b : ℕ} {s t : Slot} {u v : Octet}

/-- The first byte behind the joined zero area is not written: it would have to be where the zero
area would be stored. -/
theorem Inv.post_appendZeroes (h : w.Inv) (ha : w.slot a = some s) (hb : w.slot b = some t)
    (hne : b ≠ a) (hjoins : s.buf.JoinsZeroes w.store t.buf) (hsmall : Small w.store s.buf t.buf)
    {garbage : ℕ → Octet} (hgarbage : ∀ p, garbage p = v)
    (hall : ∀ q ≠ t.buf.data, ∀ p, (w.store.areas q).bytes p = v) :
    Post (s.buf.appendZeroes w.store t.buf garbage) fun r =>
      r.1.start + (s.buf.size + (t.buf.zeroAreaEnd - t.buf.zeroAreaStart)) = r.1.zeroAreaEnd
        ∧ r.1.zeroAreaStart < r.1.zeroAreaEnd
        ∧ (r.2.areas r.1.data).bytes r.1.zeroAreaStart = v := by
  have hs := h.sane a s ha
  have ht := h.sane b t hb
  have ⟨hone, htwo, hthree, hfour⟩ := ht.ordered
  have ⟨hone', htwo', hthree', _⟩ := hs.ordered
  obtain ⟨hordered, hzs, hze, hend, -⟩ := joined_spec hs.ordered ht.ordered hjoins hsmall
  obtain ⟨hcount, -, -, -, hzeroes⟩ := hjoins
  rw [Word32.sub_eq htwo (by omega)] at hzeroes
  have hdata : s.buf.data ≠ t.buf.data := (h.ne_of_count_one ha hb hne hcount).symm
  have hsize := hsmall.inPlace
  unfold size at hsize
  obtain ⟨store, hstore⟩ : ∃ store, store = w.store.setArea s.buf.data
    ((w.store.areas s.buf.data).setDirty (w.store.areas s.buf.data).dirtyStart
      (s.buf.joined t.buf).zeroAreaEnd) := ⟨_, rfl⟩
  have hlt := h.owned.lt_next (refs_pos ha)
  have howned : store.Owned w.refs := by
    rw [hstore]
    exact h.owned.setArea rfl (h.owned.capacity _ hlt)
  have hbytes : ∀ q, q = (s.buf.joined t.buf).data ∨ w.refs q = 0 →
      ∀ p, (store.areas q).bytes p = v := by
    intro q hq p
    have hneq : q ≠ t.buf.data := by
      rcases hq with rfl | hnone
      · exact hdata
      · intro heq
        have hpos := refs_pos hb
        rw [← heq, hnone] at hpos
        exact absurd hpos (lt_irrefl _)
    rw [hstore, Store.areas_setArea]
    split
    · exact hall _ hdata p
    · exact hall q hneq p
  unfold Buffer.appendZeroes
  dsimp only
  rw [Buffer.joined_data, ← hstore, Word32.sub_eq hthree hfour]
  unfold Post
  rw [wp_bind]
  have hgrown : (s.buf.joined t.buf).endPos + (t.buf.endPos - t.buf.zeroAreaEnd) + 20 ≤ 2 ^ 32 := by
    omega
  refine (((s.buf.joined t.buf).post_addAtEnd_bytes howned _ hgarbage hbytes).and
    (post_of_forall fun r hadd => hordered.addAtEnd_spec howned hgrown hadd)).mono
    (fun r hr => ?_) fun _ _ => trivial
  obtain ⟨hsame, -, hrzs, hrze, hrend, -⟩ := hr
  have hedge : r.1.endPos - (t.buf.endPos - t.buf.zeroAreaEnd) = r.1.zeroAreaEnd := by omega
  have hpos : r.1.zeroAreaStart < r.1.zeroAreaEnd := by
    have hle : (s.buf.joined t.buf).zeroAreaStart ≤ s.buf.endPos := by
      rw [hzs]
      split <;> omega
    omega
  rw [wp_bind]
  refine (r.1.post_fromEnd _).imp fun dst hdst => ?_
  rw [wp_bind]
  refine (t.buf.post_fromEnd _).imp fun src _ => ?_
  rw [wp_bind]
  refine (BufferIterator.post_writeFrom r.2 dst src _).imp fun store' hstore' => ?_
  obtain ⟨d, rfl, hkept⟩ := hstore'
  obtain ⟨hdstdata, hcurrent⟩ := hdst
  refine ⟨?_, hpos, ?_⟩
  · show r.1.start + (s.buf.size + (t.buf.zeroAreaEnd - t.buf.zeroAreaStart)) = r.1.zeroAreaEnd
    unfold size
    rw [joined_start] at hrze
    omega
  · show ((r.2.setArea dst.data d).areas r.1.data).bytes r.1.zeroAreaStart = v
    rw [hdstdata, Store.areas_setArea_self, hkept _ (by omega), hdstdata]
    exact hsame _

/-- **Bytes behind a zero area that is joined** are lost. -/
theorem Inv.not_appended (h : w.Inv) (ha : w.slot a = some s) (hb : w.slot b = some t) (hne : b ≠ a)
    (hjoins : s.buf.JoinsZeroes w.store t.buf) (hsmall : Small w.store s.buf t.buf)
    (hbehind : t.buf.zeroAreaEnd < t.buf.endPos) {garbage : ℕ → Octet} (huv : u ≠ v)
    (hgarbage : ∀ p, garbage p = v) (hall : ∀ q ≠ t.buf.data, ∀ p, (w.store.areas q).bytes p = v)
    (hthere : ∀ p, (w.store.areas t.buf.data).bytes p = u) :
    ¬ Appended w.store s.buf t.buf (s.buf.appendZeroes w.store t.buf garbage) := by
  rintro ⟨b', s', happend, hshown, -⟩
  have ht := h.sane b t hb
  have hone := ht.ordered.start_le
  have htwo := ht.ordered.zero_le
  obtain ⟨hplace, hpos, hbyte⟩ :=
    (h.post_appendZeroes ha hb hne hjoins hsmall hgarbage hall).of_eq_ok happend
  dsimp only at hplace hpos hbyte
  obtain ⟨-, -, -, hfirst, -⟩ := hjoins
  have hin : t.buf.zeroAreaEnd - t.buf.zeroAreaStart < t.buf.size := by
    unfold size
    omega
  -- the byte that should be there
  have hright : (s.buf.shown w.store ++ t.buf.shown w.store)[s.buf.size
      + (t.buf.zeroAreaEnd - t.buf.zeroAreaStart)]? = some u := by
    rw [List.getElem?_append_right (by rw [length_shown]; omega), length_shown,
      Nat.add_sub_cancel_left, getElem?_shown _ _ hin, visible_eq]
    unfold locate
    rw [if_neg (by omega), if_neg (by omega)]
    exact congrArg some (hthere _)
  -- the byte that is there
  have hin' : s.buf.size + (t.buf.zeroAreaEnd - t.buf.zeroAreaStart) < b'.size := by
    have hlength := congrArg List.length hshown
    rw [length_append, length_shown, length_shown, length_shown] at hlength
    omega
  have hleft : (b'.shown s')[s.buf.size + (t.buf.zeroAreaEnd - t.buf.zeroAreaStart)]? = some v := by
    rw [getElem?_shown _ _ hin', visible_eq]
    unfold locate
    rw [hplace, if_neg (by omega), if_neg (by omega), Nat.sub_sub_self hpos.le]
    exact congrArg some hbyte
  rw [hshown, hright] at hleft
  exact huv (Option.some_inj.mp hleft)

end Misplacing

end Buffers

/-! ## `Write (start, end)` -/

namespace Buffer

variable {b : Buffer} {s : Store}

/-- Bytes put at the position itself are shown there, where no zero area is in front of them. -/
theorem Ordered.visible_overwritten (hb : b.Ordered) {d : Data} {pos : ℕ} {bs : List Octet}
    (hd : (s.areas b.data).Overwritten d (b.start + pos) bs)
    (hplace : bs.length = 0 ∨ b.zeroAreaStart = b.zeroAreaEnd
      ∨ b.start + pos + bs.length ≤ b.zeroAreaStart) (i : ℕ) :
    b.visible (s.setArea b.data d) i
      = if pos ≤ i ∧ i < pos + bs.length then bs.getD (i - pos) 0 else b.visible s i := by
  have htwo := hb.zero_le
  rw [visible_eq, visible_eq, Store.areas_setArea_self]
  by_cases hin : pos ≤ i ∧ i < pos + bs.length
  · obtain ⟨j, rfl⟩ := Nat.exists_eq_add_of_le hin.1
    have hlocate : b.locate (pos + j) = some (b.start + pos + j) := by
      unfold locate
      split
      · rw [Nat.add_assoc]
      · rw [if_neg (by omega)]
        congr 1
        omega
    have hbyte := hd.inside j _ (List.getElem?_eq_getElem (by omega))
    rw [if_pos hin, hlocate, Nat.add_sub_cancel_left, getD_eq_getElem?_getD,
      List.getElem?_eq_getElem (by omega)]
    exact hbyte
  · rw [if_neg hin]
    cases hp : b.locate i with
    | none => rfl
    | some p =>
      refine hd.outside p ?_
      unfold locate at hp
      split at hp
      · cases hp
        omega
      · split at hp
        · cases hp
        · cases hp
          omega

theorem Ordered.shown_overwritten (hb : b.Ordered) {d : Data} {pos : ℕ} {bs : List Octet}
    (hd : (s.areas b.data).Overwritten d (b.start + pos) bs)
    (hplace : bs.length = 0 ∨ b.zeroAreaStart = b.zeroAreaEnd
      ∨ b.start + pos + bs.length ≤ b.zeroAreaStart) (hpos : pos + bs.length ≤ b.size) :
    b.shown (s.setArea b.data d)
      = (b.shown s).take pos ++ bs ++ (b.shown s).drop (pos + bs.length) := by
  have htake : ((b.shown s).take pos).length = pos := by
    rw [length_take, length_shown]
    omega
  refine ext_getElem? fun i => ?_
  by_cases hi : i < b.size
  · rw [getElem?_shown _ _ hi, hb.visible_overwritten hd hplace, append_assoc]
    by_cases hbefore : i < pos
    · rw [if_neg (by omega), List.getElem?_append_left (by omega), List.getElem?_take_of_lt hbefore,
        getElem?_shown _ _ hi]
    · obtain ⟨j, rfl⟩ := Nat.exists_eq_add_of_le (Nat.le_of_not_lt hbefore)
      rw [List.getElem?_append_right (by omega), htake, Nat.add_sub_cancel_left]
      by_cases hin : j < bs.length
      · rw [if_pos (by omega), List.getElem?_append_left hin, getD_eq_getElem?_getD,
          List.getElem?_eq_getElem hin]
        rfl
      · rw [if_neg (by omega), List.getElem?_append_right (by omega), List.getElem?_drop,
          show pos + bs.length + (j - bs.length) = pos + j by omega, getElem?_shown _ _ hi]
  · rw [List.getElem?_eq_none (by rw [length_shown]; omega), List.getElem?_eq_none]
    rw [length_append, length_append, htake, length_drop, length_shown]
    omega

/-- Where the bytes of the area are zero, the buffer shows zeroes. -/
theorem visible_of_zero (h : ∀ p, (s.areas b.data).bytes p = 0) (i : ℕ) : b.visible s i = 0 := by
  rw [visible_eq]
  cases b.locate i with
  | none => rfl
  | some p => exact h p

/-- Without a zero area the bytes are stored one after the other. -/
theorem shown_plain (hplain : b.zeroAreaStart = b.zeroAreaEnd) (s : Store) :
    b.shown s = (List.range b.size).map fun i => (s.areas b.data).bytes (b.start + i) := by
  unfold shown
  refine map_congr_left fun i _ => ?_
  rw [visible_eq]
  unfold locate
  split
  · rfl
  · rw [if_neg (by omega), hplain, Nat.sub_self, Nat.sub_zero]
    rfl

end Buffer

namespace Buffers

section Results

variable {w : Buffers} {a b : ℕ} {s t : Slot}

theorem eq_of_known {bs cs : List Octet} (hlength : bs.length = cs.length)
    (h : ∀ (j : ℕ) (v : Octet), (cs.map some)[j]? = some (some v) → bs[j]? = some v) :
    bs = cs := by
  refine ext_getElem? fun j => ?_
  by_cases hj : j < cs.length
  · have hget : cs[j]? = some cs[j] := List.getElem?_eq_getElem hj
    rw [hget]
    refine h j _ ?_
    rw [List.getElem?_map, hget]
    rfl
  · rw [List.getElem?_eq_none (by omega), List.getElem?_eq_none (by omega)]

/-- **`Write (start, end)`** reproduces a range with no zero area in front of it. -/
theorem Inv.writes (h : w.Inv) (ha : w.slot a = some s) (hb : w.slot b = some t) {pos start len : ℕ}
    (hwritable : Writable s.buf t.buf pos start len)
    (hplace : len = 0 ∨ s.buf.zeroAreaStart = s.buf.zeroAreaEnd
      ∨ s.buf.start + pos + len ≤ s.buf.zeroAreaStart) :
    Writes w.store s.buf t.buf pos start len := by
  intro bytes
  have hexact := h.exact bytes
  have ha' := slot_exact_of_slot bytes ha
  have hb' := slot_exact_of_slot bytes hb
  have hs := hexact.sane a _ ha'
  have hle := hwritable.pos_le
  have hle' := hwritable.start_le
  have hcapacity : len = 0
      ∨ s.buf.start + pos + len ≤ ((w.exact bytes).store.areas s.buf.data).capacity := by
    have ⟨hone, htwo, hthree, _⟩ := hs.ordered
    have hfits := hs.fits
    have hall := hexact.owned.capacity _ (hexact.owned.lt_next (refs_pos ha'))
    dsimp only at hone htwo hthree hfits hall
    unfold size at hle
    unfold stop at hfits
    omega
  have hlength : (t.buf.shown (w.store.fill bytes)).length = t.buf.size := length_shown _ _
  obtain ⟨d, bs, hwrite, hlen, hd, hknown⟩ := exists_writeFrom_at (hexact.sane b _ hb')
    hwritable.data_ne hwritable.check (show start + len ≤ _ by
      rw [length_map, hlength]
      exact hle') hcapacity (hexact.owned.capacity _ (hexact.owned.lt_next (refs_pos hb')))
  have hbs : bs = ((t.buf.shown (w.store.fill bytes)).drop start).take len := by
    refine eq_of_known ?_ fun j v hj => hknown j v ?_
    · rw [hlen, length_take, length_drop, hlength]
      omega
    · rw [← map_drop, ← map_take]
      exact hj
  refine ⟨_, hwrite, ?_, ?_⟩
  · subst hlen
    have hshown := hs.ordered.shown_overwritten hd hplace hle
    rw [← hbs]
    exact hshown
  · refine shown_congr ?_
    rw [Store.areas_setArea_of_ne _ _ hwritable.data_ne.symm]
    rfl

/-- **Behind a zero area** it does not: the byte is put elsewhere. -/
theorem Inv.not_writes (h : w.Inv) (ha : w.slot a = some s) {pos start len : ℕ}
    (hwritable : Writable s.buf t.buf pos start len) (hlen : len ≠ 0)
    (hzero : s.buf.zeroAreaStart ≠ s.buf.zeroAreaEnd)
    (hbehind : ¬ s.buf.start + pos + len ≤ s.buf.zeroAreaStart) :
    ¬ Writes w.store s.buf t.buf pos start len := by
  intro hwrites
  have htwo := (h.sane a s ha).ordered.zero_le
  have hle := hwritable.pos_le
  have hle' := hwritable.start_le
  have hcheck := hwritable.check
  unfold BufferIterator.checkNoZero at hcheck
  rw [Bool.not_eq_true', decide_eq_false_iff_not] at hcheck
  have hafter : s.buf.zeroAreaEnd ≤ s.buf.start + pos := by
    have hnot : ¬ (s.buf.start + pos < s.buf.start ∨ s.buf.endPos < s.buf.start + pos + len ∨
        (s.buf.zeroAreaStart < s.buf.start + pos + len ∧ s.buf.start + pos < s.buf.zeroAreaEnd ∧
          s.buf.zeroAreaEnd ≠ s.buf.zeroAreaStart ∧ s.buf.start + pos ≠ s.buf.start + pos + len)) :=
      hcheck
    omega
  -- the bytes of the one buffer are ones, and those of the other one zeroes
  obtain ⟨store, hstore⟩ : ∃ store, store = w.store.fill fun q _ => if q = t.buf.data then 0 else 1 :=
    ⟨_, rfl⟩
  have hones : ∀ p, (store.areas s.buf.data).bytes p = 1 := by
    intro p
    rw [hstore]
    exact if_neg hwritable.data_ne
  have hzeroes : ∀ p, (store.areas t.buf.data).bytes p = 0 := by
    intro p
    rw [hstore]
    exact if_pos rfl
  obtain ⟨s', hwrite, hshown, -⟩ := hwrites fun q _ => if q = t.buf.data then 0 else 1
  rw [← hstore] at hwrite hshown
  obtain ⟨d, rfl, hkept⟩ := (BufferIterator.post_writeFrom _ _ _ _).of_eq_ok hwrite
  have hleft : (s.buf.shown (store.setArea s.buf.data d))[pos]? = some 1 := by
    rw [getElem?_shown _ _ (by omega), visible_eq]
    unfold locate
    rw [if_neg (by omega), if_neg (by omega), Store.areas_setArea_self]
    refine congrArg some ((hkept _ ?_).trans (hones _))
    show _ < s.buf.start + pos
    omega
  have hright : ((s.buf.shown store).take pos ++ ((t.buf.shown store).drop start).take len
      ++ (s.buf.shown store).drop (pos + len))[pos]? = some 0 := by
    have htake : ((s.buf.shown store).take pos).length = pos := by
      rw [length_take, length_shown]
      omega
    rw [append_assoc, List.getElem?_append_right htake.le, htake, Nat.sub_self,
      List.getElem?_append_left (by
        rw [length_take, length_drop, length_shown]
        omega), List.getElem?_take_of_lt (by omega), List.getElem?_drop,
      getElem?_shown _ _ (by omega), visible_of_zero hzeroes]
  have hboth := hleft.symm.trans ((congrArg (fun l => l[pos]?) hshown).trans hright)
  exact absurd (Option.some_inj.mp hboth) (by decide)

/-- `CreateFullCopy`, `PeekData` and `CopyData`. -/
theorem Inv.reproduces (h : w.Inv) (ha : w.slot a = some s)
    (hsmall : w.store.recommendedStart + s.buf.size + 20 ≤ 2 ^ 32) :
    Reproduces w.store s.buf := by
  have hcopied (bytes garbage : ℕ → ℕ → Octet) :=
    (h.exact bytes).exists_copied (slot_exact_of_slot bytes ha) rfl hsmall garbage
  refine ⟨fun bytes garbage => ?_, fun bytes garbage => ?_, fun bytes size => ?_⟩
  · obtain ⟨w₁, s₁, tmp, store, hcopy, hbeside, -⟩ := hcopied bytes garbage
    exact ⟨tmp.buf, store, hcopy, hbeside.shown rfl⟩
  · obtain ⟨w₁, s₁, tmp, store, hcopy, hbeside, -⟩ := hcopied bytes garbage
    obtain ⟨w', hinv, hstore, hself, -⟩ := hbeside.become
    have hshown : tmp.buf.shown w'.store = s.buf.shown (w.store.fill bytes) :=
      shown_of_shows (hinv.sane a _ hself).shows
    have hsize : tmp.buf.size = s.buf.size := by
      have hlength := congrArg List.length hshown
      rwa [length_shown, length_shown] at hlength
    rw [hstore] at hshown
    refine ⟨tmp.buf, _, ?_, hshown, ?_⟩
    · have hcopy' : s.buf.createFullCopy (w.store.fill bytes) garbage = .ok (tmp.buf, store) := hcopy
      unfold peekData
      rw [hcopy']
      rfl
    · rw [← hshown, shown_plain hbeside.plain, hsize]
  · have hs := h.sane a s ha
    have hcapacity : s.buf.stop ≤ ((w.store.fill bytes).areas s.buf.data).capacity :=
      hs.fits.trans (h.owned.capacity _ (h.owned.lt_next (refs_pos ha)))
    exact hs.ordered.copyData_eq hcapacity size

theorem Inv.appendsCopy_iff (h : w.Inv) (ha : w.slot a = some s) (hb : w.slot b = some t)
    (hne : b ≠ a) (hsmall : Small w.store s.buf t.buf) :
    AppendsCopy w.store s.buf t.buf ↔ ¬ SharesRoom w.store s.buf t.buf := by
  constructor
  · intro happends hroom
    obtain ⟨b', s', happend, -⟩ := happends (fun _ _ => 0) fun _ _ => 0
    have herror := (h.exact fun _ _ => 0).appendCopy_of_sharesRoom
      (slot_exact_of_slot (fun _ _ => 0) ha) (slot_exact_of_slot (fun _ _ => 0) hb)
      ⟨hsmall.copied, hsmall.inPlace⟩ hroom fun _ _ => 0
    cases happend.symm.trans herror
  · intro hroom bytes garbage
    exact (h.exact bytes).appendCopy (slot_exact_of_slot bytes ha) (slot_exact_of_slot bytes hb) hne
      rfl rfl ⟨hsmall.copied, hsmall.inPlace⟩ hroom garbage

theorem Inv.appends_iff (h : w.Inv) (ha : w.slot a = some s) (hb : w.slot b = some t) (hne : b ≠ a)
    (hsmall : Small w.store s.buf t.buf) :
    Appends w.store s.buf t.buf
      ↔ ¬ (s.buf.JoinsZeroes w.store t.buf ∧ t.buf.zeroAreaEnd < t.buf.endPos)
        ∧ ¬ SharesRoom w.store s.buf t.buf := by
  by_cases hjoins : s.buf.JoinsZeroes w.store t.buf
  · have hroom : ¬ SharesRoom w.store s.buf t.buf :=
      fun hroom => h.ne_of_count_one ha hb hne hjoins.1 hroom.1.symm
    have hthree := (h.sane b t hb).ordered.le_end
    constructor
    · intro happends
      refine ⟨fun hbehind => ?_, hroom⟩
      -- the bytes of the second buffer are zeroes, and all others ones
      have happended := happends (fun q _ => if q = t.buf.data then 0 else 1) fun _ _ => 1
      rw [addBuffer, if_pos (by exact hjoins)] at happended
      refine (h.exact fun q _ => if q = t.buf.data then 0 else 1).not_appended
        (u := 0) (v := 1) (slot_exact_of_slot _ ha) (slot_exact_of_slot _ hb) hne hjoins
        ⟨hsmall.copied, hsmall.inPlace⟩ hbehind.2 (by decide) (fun _ => rfl)
        (fun q hq p => if_neg hq) (fun p => if_pos rfl) happended
    · rintro ⟨hlast, -⟩ bytes garbage
      rw [addBuffer, if_pos (by exact hjoins)]
      have hend : t.buf.zeroAreaEnd = t.buf.endPos :=
        le_antisymm hthree (Nat.le_of_not_lt fun hlt => hlast ⟨hjoins, hlt⟩)
      exact (h.exact bytes).appendZeroes (slot_exact_of_slot bytes ha) (slot_exact_of_slot bytes hb)
        hne hjoins hend ⟨hsmall.copied, hsmall.inPlace⟩ (garbage 0)
  · have hsame : Appends w.store s.buf t.buf ↔ AppendsCopy w.store s.buf t.buf := by
      refine forall_congr' fun bytes => forall_congr' fun garbage => ?_
      rw [addBuffer, if_neg (by exact hjoins)]
    rw [hsame, h.appendsCopy_iff ha hb hne hsmall]
    exact ⟨fun hroom => ⟨fun hjoined => hjoins hjoined.1, hroom⟩, fun hboth => hboth.2⟩

/-- **Appending and copying.**  `AddAtEnd` appends the bytes of another buffer unless it joins zero
areas and there are bytes behind them, or a buffer without a zero area grows in the area of the
other one; the way for all buffers needs the second only.  The bytes are copied as they are shown,
by `Write (start, end)` where no zero area is in front of the place they are written to. -/
theorem concat_iff (h : w.Inv) (ha : w.slot a = some s) (hb : w.slot b = some t) (hne : b ≠ a)
    (hsmall : Small w.store s.buf t.buf) :
    (Appends w.store s.buf t.buf
        ↔ ¬ (s.buf.JoinsZeroes w.store t.buf ∧ t.buf.zeroAreaEnd < t.buf.endPos)
          ∧ ¬ SharesRoom w.store s.buf t.buf)
      ∧ (AppendsCopy w.store s.buf t.buf ↔ ¬ SharesRoom w.store s.buf t.buf)
      ∧ Reproduces w.store s.buf
      ∧ ∀ pos start len, Writable s.buf t.buf pos start len →
        (Writes w.store s.buf t.buf pos start len
          ↔ len = 0 ∨ s.buf.zeroAreaStart = s.buf.zeroAreaEnd
            ∨ s.buf.start + pos + len ≤ s.buf.zeroAreaStart) := by
  have hcopied := hsmall.copied
  refine ⟨h.appends_iff ha hb hne hsmall, h.appendsCopy_iff ha hb hne hsmall,
    h.reproduces ha (by omega), fun pos start len hwritable => ?_⟩
  constructor
  · intro hwrites
    by_contra hnot
    exact h.not_writes ha hwritable (fun hlen => hnot (.inl hlen))
      (fun hplain => hnot (.inr (.inl hplain)))
      (fun hfront => hnot (.inr (.inr hfront))) hwrites
  · intro hplace
    exact h.writes ha hb hwritable hplace

end Results

/-- A zero, and a zero with a byte behind it. -/
def joiningCalls : List BufferCall :=
  [.construct 1 fun _ => 0, .construct 1 fun _ => 0, .addAtEnd 1 1 fun _ => 0,
    .write 1 1 (.writeU8 7)]

/-- The two buffers that are joined, which are small. -/
theorem exists_joining : ∃ w, machine.Run Fits Buffers.start joiningCalls w
    ∧ ∃ s, w.slot 0 = some s ∧ ∃ t, w.slot 1 = some t
      ∧ (w.store.recommendedStart + s.buf.size + t.buf.size + 20 ≤ 2 ^ 32
        ∧ s.buf.endPos + t.buf.size + 20 ≤ 2 ^ 32)
      ∧ s.buf.shown w.store ++ t.buf.shown w.store = [0, 0, 7]
      ∧ (s.buf.addBuffer w.store t.buf fun _ _ => 0).toOption.map (fun r => r.1.shown r.2)
        = some [0, 0, 0] := by
  obtain ⟨w, hrun, htest⟩ := Machine.exists_run_of_exec (m := machine)
    (fun w c => decide (Fits w c))
    (fun w => decide (∃ s, w.slot 0 = some s ∧ ∃ t, w.slot 1 = some t
      ∧ (w.store.recommendedStart + s.buf.size + t.buf.size + 20 ≤ 2 ^ 32
        ∧ s.buf.endPos + t.buf.size + 20 ≤ 2 ^ 32)
      ∧ s.buf.shown w.store ++ t.buf.shown w.store = [0, 0, 7]
      ∧ (s.buf.addBuffer w.store t.buf fun _ _ => 0).toOption.map (fun r => r.1.shown r.2)
        = some [0, 0, 0])) Buffers.start joiningCalls (by decide +kernel)
  exact ⟨w, hrun.mono fun w i hi => of_decide_eq_true hi, of_decide_eq_true htest⟩

theorem concat_iff_joining : ∃ w, machine.Run Fits Buffers.start joiningCalls w
    ∧ ∃ s t, w.slot 0 = some s ∧ w.slot 1 = some t
      ∧ (Appends w.store s.buf t.buf
        ↔ ¬ (s.buf.JoinsZeroes w.store t.buf ∧ t.buf.zeroAreaEnd < t.buf.endPos)
          ∧ ¬ SharesRoom w.store s.buf t.buf) := by
  obtain ⟨w, hrun, s, hs, t, ht, ⟨hcopied, hplace⟩, -⟩ := exists_joining
  exact ⟨w, hrun, s, t, hs, ht,
    (concat_iff (inv_of_run hrun) hs ht (by decide) ⟨hcopied, hplace⟩).1⟩

/-- Without the condition: the byte behind the zero area is not there. -/
theorem not_concat : ¬ ∀ (is : List BufferCall) (w : Buffers), machine.Run Fits Buffers.start is w →
    ∀ (a b : ℕ) (s t : Slot), w.slot a = some s → w.slot b = some t → b ≠ a →
      Small w.store s.buf t.buf →
        Appended w.store s.buf t.buf (s.buf.addBuffer w.store t.buf fun _ _ => 0) := by
  intro hall
  obtain ⟨w, hrun, s, hs, t, ht, ⟨hcopied, hplace⟩, hboth, hshown⟩ := exists_joining
  obtain ⟨b', s', happend, hbytes, -⟩ :=
    hall _ w hrun 0 1 s t hs ht (by decide) ⟨hcopied, hplace⟩
  rw [happend] at hshown
  rw [hboth] at hbytes
  have hshown' : b'.shown s' = [0, 0, 0] := Option.some_inj.mp hshown
  exact absurd (hbytes.symm.trans hshown') (by decide)

end Buffers

end Ns3Dsme.Network
