/-
# Appending a buffer to another

`AddAtEnd (const Buffer &)` has a way of its own for a buffer that starts with zeroes, behind one
that ends with zeroes or has none in it: the two zero areas become one.  But then the bytes behind
them are copied with `Write (start, end)`, which puts them at a place where no zero area is
taken into account.  Any other buffer is copied behind a full copy, which is none if there are no
zeroes to be copied, so that both may have the same storage.
-/
import Ns3Dsme.Network.BufferCopy

open List Program

namespace Ns3Dsme.Network

open Buffer

/-! ## `AddAtEnd (const Buffer &)` -/

namespace Buffer

/-- The test for adjacent zero areas. -/
def JoinsZeroes (s : Store) (b o : Buffer) : Prop :=
  (s.areas b.data).count = 1 ∧ (b.endPos = b.zeroAreaEnd ∨ b.zeroAreaStart = b.zeroAreaEnd)
    ∧ b.endPos = (s.areas b.data).dirtyEnd ∧ o.start = o.zeroAreaStart
    ∧ 0 < Word32.sub o.zeroAreaEnd o.zeroAreaStart

instance (s : Store) (b o : Buffer) : Decidable (b.JoinsZeroes s o) :=
  inferInstanceAs (Decidable (_ ∧ _ ∧ _ ∧ _ ∧ _))

/-- The positions when the zero area of `o` was joined. -/
def joined (b o : Buffer) : Buffer :=
  let zeroAreaStart := if b.zeroAreaStart = b.zeroAreaEnd then b.endPos else b.zeroAreaStart
  let zeroAreaEnd := Word32.add b.endPos (Word32.sub o.zeroAreaEnd o.zeroAreaStart)
  { b with zeroAreaStart, zeroAreaEnd, endPos := zeroAreaEnd }

/-- The zero areas are joined, and the bytes behind them copied. -/
def appendZeroes (s : Store) (b o : Buffer) (garbage : ℕ → Octet) :
    Except Fault (Buffer × Store) := do
  let b := b.joined o
  let d := s.areas b.data
  let s := s.setArea b.data (d.setDirty d.dirtyStart b.zeroAreaEnd)
  let endData := Word32.sub o.endPos o.zeroAreaEnd
  let r ← b.addAtEnd s endData garbage
  let dst ← r.1.fromEnd endData
  let src ← o.fromEnd endData
  let store ← dst.writeFrom r.2 src endData
  return (r.1, store)

/-- All bytes are copied, behind a full copy of the buffer. -/
def appendCopy (s : Store) (b o : Buffer) (garbage : ℕ → ℕ → Octet) :
    Except Fault (Buffer × Store) := do
  let r ← b.createFullCopy s garbage
  let q := become r.2 b r.1
  let r ← q.1.addAtEnd q.2 o.getSize (garbage 4)
  let dst ← r.1.fromEnd o.getSize
  let store ← dst.writeFrom r.2 (o.iteratorAt 0) o.getSize
  return (r.1, store)

/-- `AddAtEnd (const Buffer &)`. -/
def addBuffer (s : Store) (b o : Buffer) (garbage : ℕ → ℕ → Octet) :
    Except Fault (Buffer × Store) :=
  if b.JoinsZeroes s o then b.appendZeroes s o (garbage 0) else b.appendCopy s o garbage

end Buffer

/-! ## What is promised -/

/-- The memory with other contents. -/
def Store.fill (s : Store) (bytes : ℕ → ℕ → Octet) : Store :=
  { s with areas := fun p => { s.areas p with bytes := bytes p } }

/-- The first buffer now shows its own bytes and then those of the second, which shows them as
before. -/
def Appended (s : Store) (b o : Buffer) (r : Except Fault (Buffer × Store)) : Prop :=
  ∃ b' s', r = .ok (b', s') ∧ b'.shown s' = b.shown s ++ o.shown s ∧ o.shown s' = o.shown s

/-- `AddAtEnd (const Buffer &)` appends, whatever the memory holds. -/
def Appends (s : Store) (b o : Buffer) : Prop :=
  ∀ bytes garbage, Appended (s.fill bytes) b o (b.addBuffer (s.fill bytes) o garbage)

/-- The way for all buffers appends, whatever the memory holds. -/
def AppendsCopy (s : Store) (b o : Buffer) : Prop :=
  ∀ bytes garbage, Appended (s.fill bytes) b o (b.appendCopy (s.fill bytes) o garbage)

/-- `CreateFullCopy`, `PeekData` and `CopyData` reproduce the bytes, whatever the memory holds; the
first two change nothing of them. -/
structure Reproduces (s : Store) (b : Buffer) : Prop where
  fullCopy : ∀ bytes garbage, ∃ b' s', b.createFullCopy (s.fill bytes) garbage = .ok (b', s')
    ∧ b'.shown s' = b.shown (s.fill bytes) ∧ b.shown s' = b.shown (s.fill bytes)
  peekData : ∀ bytes garbage, ∃ b' s', b.peekData (s.fill bytes) garbage = .ok (b', s')
    ∧ b'.shown s' = b.shown (s.fill bytes)
    ∧ (List.range b.size).map (fun i => (s'.areas b'.data).bytes (b'.start + i))
      = b.shown (s.fill bytes)
  copyData : ∀ bytes size,
    b.copyData (s.fill bytes) size = .ok ((b.shown (s.fill bytes)).take size)

/-- A range of the one buffer that `Write (start, end)` may write, and as many bytes of another
one that has a storage of its own. -/
structure Writable (b o : Buffer) (pos start len : ℕ) : Prop where
  data_ne : b.data ≠ o.data
  pos_le : pos + len ≤ b.size
  start_le : start + len ≤ o.size
  check : (b.iteratorAt pos).checkNoZero (b.start + pos) (b.start + pos + len) = true

/-- `Write (start, end)` reproduces the range and changes nothing else, whatever the memory holds. -/
def Writes (s : Store) (b o : Buffer) (pos start len : ℕ) : Prop :=
  ∀ bytes, ∃ s', (b.iteratorAt pos).writeFrom (s.fill bytes) (o.iteratorAt start) len = .ok s'
    ∧ b.shown s' = (b.shown (s.fill bytes)).take pos
      ++ ((o.shown (s.fill bytes)).drop start).take len
      ++ (b.shown (s.fill bytes)).drop (pos + len)
    ∧ o.shown s' = o.shown (s.fill bytes)

/-- Positions and the sizes of areas stay below `2 ^ 32`. -/
structure Small (s : Store) (b o : Buffer) : Prop where
  copied : s.recommendedStart + b.size + o.size + 20 ≤ 2 ^ 32
  inPlace : b.endPos + o.size + 20 ≤ 2 ^ 32

/-- A buffer without a zero area can grow in a storage that it shares with the one that is to be
appended. -/
def SharesRoom (s : Store) (b o : Buffer) : Prop :=
  b.data = o.data ∧ b.zeroAreaStart = b.zeroAreaEnd ∧ b.endPos = (s.areas b.data).dirtyEnd
    ∧ b.stop + o.size ≤ (s.areas b.data).size

namespace Buffer

@[simp] theorem joined_data (b o : Buffer) : (b.joined o).data = b.data := rfl

@[simp] theorem joined_start (b o : Buffer) : (b.joined o).start = b.start := rfl

/-- `AddAtEnd` in place. -/
theorem Ordered.addAtEnd_inPlace {b : Buffer} (hb : b.Ordered) {s : Store} {n : ℕ}
    (hn : b.endPos + n < 2 ^ 32) (hfits : b.stop + n ≤ (s.areas b.data).size)
    (hedge : b.endPos = (s.areas b.data).dirtyEnd) (garbage : ℕ → Octet) :
    b.addAtEnd s n garbage = .ok ({ b with endPos := b.endPos + n }.noteMax, s.setArea b.data
      ((s.areas b.data).setDirty (s.areas b.data).dirtyStart (b.endPos + n))) := by
  have hstop : b.stop ≤ b.endPos := Nat.sub_le _ _
  have hinternal : Word32.add b.getInternalEnd n = b.stop + n := by
    rw [hb.getInternalEnd_eq]
    exact Word32.add_eq (by omega)
  have hend : Word32.add b.endPos n = b.endPos + n := Word32.add_eq hn
  unfold addAtEnd
  dsimp only
  rw [hinternal, hend, if_pos ⟨hfits, fun hdirty => absurd hedge (Nat.ne_of_lt hdirty.2)⟩,
    if_pos (.inr hedge)]

/-- What a buffer shows depends on the bytes of its area only. -/
theorem shown_congr {b : Buffer} {s s' : Store}
    (h : (s'.areas b.data).bytes = (s.areas b.data).bytes) : b.shown s' = b.shown s := by
  unfold shown
  refine map_congr_left fun i _ => ?_
  rw [visible_eq, visible_eq, h]

theorem getElem?_shown (s : Store) (b : Buffer) {i : ℕ} (hi : i < b.size) :
    (b.shown s)[i]? = some (b.visible s i) := by
  unfold shown
  rw [List.getElem?_map, List.getElem?_range hi]
  rfl

theorem Ordered.createFullCopy_plain {b : Buffer} (hb : b.Ordered)
    (hplain : b.zeroAreaStart = b.zeroAreaEnd) (s : Store) (garbage : ℕ → ℕ → Octet) :
    b.createFullCopy s garbage = .ok (copy s b) := by
  have hend := hb.le_end
  have hlast := hb.small
  have hsub : Word32.sub b.zeroAreaEnd b.zeroAreaStart = 0 := by
    rw [Word32.sub_eq hb.zero_le (by omega), hplain, Nat.sub_self]
  unfold createFullCopy
  rw [if_neg (not_not_intro hsub)]

end Buffer

namespace Buffers

variable {w : Buffers}

/-! ## Every byte known -/

/-- The memory has other contents, and every byte of every buffer is known. -/
def exact (w : Buffers) (bytes : ℕ → ℕ → Octet) : Buffers where
  store := w.store.fill bytes
  slots := w.slots.map fun o => o.map fun s =>
    ⟨s.buf, (s.buf.shown (w.store.fill bytes)).map some, 0, 0⟩

theorem slot_exact (bytes : ℕ → ℕ → Octet) (b : ℕ) : (w.exact bytes).slot b
    = (w.slot b).map fun s => ⟨s.buf, (s.buf.shown (w.store.fill bytes)).map some, 0, 0⟩ := by
  unfold slot exact
  rw [List.getElem?_map]
  cases w.slots[b]? with
  | none => rfl
  | some o =>
    cases o with
    | none => rfl
    | some s => rfl

theorem slot_exact_of_slot (bytes : ℕ → ℕ → Octet) {b : ℕ} {s : Slot} (h : w.slot b = some s) :
    (w.exact bytes).slot b
      = some ⟨s.buf, (s.buf.shown (w.store.fill bytes)).map some, 0, 0⟩ := by
  rw [slot_exact, h]
  rfl

theorem refs_exact (bytes : ℕ → ℕ → Octet) : (w.exact bytes).refs = w.refs := by
  funext p
  unfold refs RefCount.refs exact
  rw [countP_map]
  congr 1
  funext o
  cases o with
  | none => rfl
  | some s => rfl

theorem Inv.exact (h : w.Inv) (bytes : ℕ → ℕ → Octet) : (w.exact bytes).Inv := by
  refine ⟨?_, fun b s' hb => ?_, fun b b' s' t' hne hb hb' hdata => ?_⟩
  · rw [refs_exact]
    exact { h.owned with }
  · rw [slot_exact, Option.map_eq_some_iff] at hb
    obtain ⟨s, hs, rfl⟩ := hb
    have hsane := h.sane b s hs
    exact ⟨hsane.ordered, hsane.dirtyStart, hsane.dirtyEnd, hsane.fits, hsane.ordered.start_le,
      hsane.ordered.le_end, shows_shown (w.store.fill bytes) s.buf⟩
  · rw [slot_exact, Option.map_eq_some_iff] at hb hb'
    obtain ⟨s, hs, rfl⟩ := hb
    obtain ⟨t, ht, rfl⟩ := hb'
    exact ⟨(h.apart b b' s t hne hs ht hdata).edge, fun hpos => absurd hpos (lt_irrefl _),
      fun hpos => absurd hpos (lt_irrefl _)⟩

/-! ## `*this = CreateFullCopy ()` -/

/-- Assigning a temporary buffer and destroying it: the buffer has its members and its bytes, and
of the areas only the counts change. -/
theorem Inv.become {tmp : Slot} {store : Store} (h : (w.addSlot tmp store).Inv) {a : ℕ} {s : Slot}
    (ha : w.slot a = some s) : ∃ w' : Buffers, w'.Inv
      ∧ w'.store = (become store s.buf tmp.buf).2
      ∧ w'.slot a = some ⟨tmp.buf, tmp.ref, 0, 0⟩
      ∧ ∀ b t, b ≠ a → w.slot b = some t → w'.slot b = some t := by
  have hlast := slot_addSlot_last (w := w) tmp store
  have hself := slot_addSlot_of_slot ha tmp store
  have hlt := lt_length_of_slot ha
  obtain ⟨w₁, hw₁⟩ : ∃ w₁, w₁ = (w.addSlot tmp store).setSlot w.slots.length (some tmp.shared)
    store := ⟨_, rfl⟩
  have hself₁ : w₁.slot a = some s := by
    rw [hw₁, slot_setSlot_of_ne (Nat.ne_of_lt hlt)]
    exact hself
  have hlast₁ : w₁.slot w.slots.length = some tmp.shared := by
    rw [hw₁]
    exact slot_setSlot_self hlast _ _
  have hassign := h.assign hself hlast
  rw [show (w.addSlot tmp store).store = store from rfl, ← hw₁] at hassign
  obtain ⟨w₂, hw₂⟩ : ∃ w₂, w₂ = w₁.setSlot a (some ⟨(Buffer.assign store s.buf tmp.buf).1, tmp.ref,
    0, 0⟩) (Buffer.assign store s.buf tmp.buf).2 := ⟨_, rfl⟩
  rw [← hw₂] at hassign
  have hself₂ : w₂.slot a = some ⟨tmp.buf, tmp.ref, 0, 0⟩ := by
    rw [hw₂]
    exact slot_setSlot_self hself₁ _ _
  have hlast₂ : w₂.slot w.slots.length = some tmp.shared := by
    rw [hw₂, slot_setSlot_of_ne (Nat.ne_of_gt hlt)]
    exact hlast₁
  refine ⟨_, hassign.destroy hlast₂, ?_, ?_, fun b t hne hb => ?_⟩
  · rw [hw₂]
    rfl
  · rw [slot_setSlot_of_ne (Nat.ne_of_lt hlt)]
    exact hself₂
  · rw [slot_setSlot_of_ne (Nat.ne_of_lt (lt_length_of_slot hb)), hw₂, slot_setSlot_of_ne hne, hw₁,
      slot_setSlot_of_ne (Nat.ne_of_lt (lt_length_of_slot hb))]
    exact slot_addSlot_of_slot hb tmp store

theorem areas_become (store : Store) (b tmp : Buffer) (q : ℕ) :
    ∃ c, (become store b tmp).2.areas q = { store.areas q with count := c } := by
  obtain ⟨c, hassign⟩ := Inv.areas_assign store b tmp q
  obtain ⟨c', hdestroy⟩ := Inv.areas_destroy (assign store b tmp).2 tmp q
  refine ⟨c', ?_⟩
  show (destroy _ tmp).areas q = _
  rw [hdestroy, hassign]

/-- A copy that shares the storage takes the place of the buffer. -/
theorem areas_become_copy (store : Store) (b : Buffer) (q : ℕ) :
    ∃ c, (become (copy store b).2 b (copy store b).1).2.areas q
      = { store.areas q with count := c } := by
  obtain ⟨c, hbecome⟩ := areas_become (copy store b).2 b (copy store b).1 q
  refine ⟨c, hbecome.trans ?_⟩
  rw [show (copy store b).2 = store.retain b.data from rfl, Store.areas_retain]
  split
  · rename_i heq
    rw [heq]
  · rfl

/-- Beside the buffer there is a copy without a zero area. -/
structure Copied (w w₁ : Buffers) (a : ℕ) (s s₁ tmp : Slot) (store : Store) : Prop where
  inv : (w₁.addSlot tmp store).Inv
  self : w₁.slot a = some s₁
  buf : s₁.buf = s.buf
  ref : s₁.ref = s.ref
  others : ∀ b t, b ≠ a → w.slot b = some t → w₁.slot b = some t
  tmp_ref : tmp.ref = s.ref
  plain : tmp.buf.zeroAreaStart = tmp.buf.zeroAreaEnd

section Copied

variable {w₁ : Buffers} {a : ℕ} {s s₁ tmp : Slot} {store : Store}

theorem Copied.shown (h : Copied w w₁ a s s₁ tmp store) {bs : List Octet}
    (href : s.ref = bs.map some) : tmp.buf.shown store = bs ∧ s.buf.shown store = bs := by
  have htmp := (h.inv.sane _ _ (slot_addSlot_last tmp store)).shows
  have hself := (h.inv.sane _ _ (slot_addSlot_of_slot h.self tmp store)).shows
  constructor
  · refine shown_of_shows ?_
    rw [← href, ← h.tmp_ref]
    exact htmp
  · refine shown_of_shows ?_
    rw [← href, ← h.ref, ← h.buf]
    exact hself

theorem Copied.become (h : Copied w w₁ a s s₁ tmp store) : ∃ w' : Buffers, w'.Inv
    ∧ w'.store = (become store s.buf tmp.buf).2
    ∧ w'.slot a = some ⟨tmp.buf, s.ref, 0, 0⟩
    ∧ ∀ b t, b ≠ a → w.slot b = some t → w'.slot b = some t := by
  obtain ⟨w', hinv, hstore, hself, hothers⟩ := h.inv.become h.self
  rw [h.buf] at hstore
  rw [h.tmp_ref] at hself
  exact ⟨w', hinv, hstore, hself, fun b t hne hb => hothers b t hne (h.others b t hne hb)⟩

/-- **`CreateFullCopy`** of a buffer without a zero area shares its storage, and that of one with a
zero area has a new one. -/
theorem Inv.exists_copied (h : w.Inv) (ha : w.slot a = some s) {bs : List Octet}
    (href : s.ref = bs.map some) (hsmall : w.store.recommendedStart + s.buf.size + 20 ≤ 2 ^ 32)
    (garbage : ℕ → ℕ → Octet) : ∃ w₁ s₁ tmp store,
      s.buf.createFullCopy w.store garbage = .ok (tmp.buf, store) ∧ Copied w w₁ a s s₁ tmp store
      ∧ (s.buf.zeroAreaStart = s.buf.zeroAreaEnd ∧ (tmp.buf, store) = Buffer.copy w.store s.buf
        ∨ w.refs tmp.buf.data = 0
          ∧ tmp.buf.endPos ≤ w.store.recommendedStart + s.buf.size) := by
  by_cases hzero : s.buf.zeroAreaStart = s.buf.zeroAreaEnd
  · refine ⟨w.setSlot a (some s.shared) w.store, s.shared, ⟨(Buffer.copy w.store s.buf).1, s.ref, 0,
      0⟩, (Buffer.copy w.store s.buf).2, ?_, ?_, .inl ⟨hzero, rfl⟩⟩
    · exact (h.sane a s ha).ordered.createFullCopy_plain hzero w.store garbage
    · exact ⟨h.copy ha, slot_setSlot_self ha _ _, rfl, rfl,
        fun b t hne hb => (slot_setSlot_of_ne hne _ _).trans hb, rfl, hzero⟩
  · obtain ⟨r, tmp, hcopy, hbuf, htmp, hfill⟩ := h.createFullCopy ha href hzero hsmall garbage
    refine ⟨w, s, tmp, r.2, ?_, ?_, .inr ⟨hfill.own, hfill.endPos_le⟩⟩
    · rw [hcopy, hbuf]
    · exact ⟨hfill.inv, ha, rfl, rfl, fun b t _ hb => hb, htmp, hfill.plain⟩

end Copied

/-! ## The way for all buffers -/

section Appending

variable {a b : ℕ} {s t : Slot} {bs cs : List Octet}

/-- The two buffers have different areas when the one has grown. -/
theorem Inv.addAtEnd_data_ne (h : w.Inv) (ha : w.slot a = some s) (hb : w.slot b = some t)
    (hne : b ≠ a) {n : ℕ} {garbage : ℕ → Octet} {r : Buffer × Store}
    (hn : s.buf.endPos + n + 20 ≤ 2 ^ 32) (hadd : s.buf.addAtEnd w.store n garbage = .ok r)
    (hroom : ¬ (s.buf.data = t.buf.data ∧ s.buf.endPos = (w.store.areas s.buf.data).dirtyEnd
      ∧ s.buf.stop + n ≤ (w.store.areas s.buf.data).size)) : r.1.data ≠ t.buf.data := by
  have hs := h.sane a s ha
  obtain ⟨hdata, -⟩ := hs.ordered.addAtEnd_spec h.owned hn hadd
  intro heq
  rcases hdata with ⟨hsame, hfits, hclean⟩ | hnew
  · have hshared : s.buf.data = t.buf.data := hsame.symm.trans heq
    have hcount := h.owned.count _ (h.owned.lt_next (refs_pos ha))
    have hpos := refs_pos ha
    have hone : (w.store.areas s.buf.data).count ≠ 1 := fun hone =>
      h.ne_of_count_one ha hb hne hone hshared.symm
    have hdirty := hs.dirtyEnd
    exact hroom ⟨hshared, by omega, hfits⟩
  · have hpos := refs_pos hb
    rw [← heq, hnew] at hpos
    exact absurd hpos (lt_irrefl _)

/-- **All bytes are copied** behind those of a buffer without a zero area and with another area. -/
theorem Inv.appended (h : w.Inv) (ha : w.slot a = some s) (hb : w.slot b = some t) (hne : b ≠ a)
    (href : s.ref = bs.map some) (htref : t.ref = cs.map some)
    (hplain : s.buf.zeroAreaStart = s.buf.zeroAreaEnd)
    (hn : s.buf.endPos + t.buf.size + 20 ≤ 2 ^ 32) (garbage : ℕ → Octet)
    (hroom : ¬ (s.buf.data = t.buf.data ∧ s.buf.endPos = (w.store.areas s.buf.data).dirtyEnd
      ∧ s.buf.stop + t.buf.size ≤ (w.store.areas s.buf.data).size)) :
    ∃ r dst store, s.buf.addAtEnd w.store t.buf.size garbage = .ok r
      ∧ r.1.fromEnd t.buf.size = .ok dst
      ∧ dst.writeFrom r.2 (t.buf.iteratorAt 0) t.buf.size = .ok store
      ∧ r.1.shown store = bs ++ cs ∧ t.buf.shown store = cs := by
  have hlength : t.ref.length = t.buf.size := (h.sane b t hb).shows.1
  obtain ⟨r, hadd, hinv⟩ := h.addAtEnd ha t.buf.size garbage hn
  have hdata := h.addAtEnd_data_ne ha hb hne hn hadd hroom
  obtain ⟨-, hzs, hze, -, -⟩ := (h.sane a s ha).ordered.addAtEnd_spec h.owned hn hadd
  have hself := slot_setSlot_self ha (some (s.addedAtEnd r.1 t.buf.size)) r.2
  have hother := (slot_setSlot_of_ne hne (some (s.addedAtEnd r.1 t.buf.size)) r.2).trans hb
  have hgrown := hinv.sane a _ hself
  have hsize : r.1.size = s.ref.length + t.buf.size := by
    have hlen := hgrown.shows.1
    rw [show (s.addedAtEnd r.1 t.buf.size).ref = s.ref ++ List.replicate t.buf.size none from rfl,
      length_append, length_replicate] at hlen
    exact hlen.symm
  have hfresh : (s.addedAtEnd r.1 t.buf.size).Fresh s.ref.length t.buf.size := by
    refine .inr ?_
    show (s.ref ++ List.replicate t.buf.size none).length - (s.freshEnd + t.buf.size) ≤ s.ref.length
      ∧ s.ref.length + t.buf.size ≤ (s.ref ++ List.replicate t.buf.size none).length
    rw [length_append, length_replicate]
    omega
  obtain ⟨store, hwrite, hwritten⟩ := hinv.writeFrom hself hother hfresh
    (show 0 + t.buf.size ≤ t.ref.length by omega) (show r.1.data ≠ t.buf.data from hdata)
    (.inl (show r.1.zeroAreaStart = r.1.zeroAreaEnd by omega))
  refine ⟨r, _, store, hadd, ?_, hwrite, ?_, ?_⟩
  · have hordered : r.1.Ordered := hgrown.ordered
    rw [hordered.fromEnd_eq (by omega), show r.1.size - t.buf.size = s.ref.length by omega]
    rfl
  · have hshows := (hwritten.sane a _ (slot_setSlot_self hself _ _)).shows
    rw [s.ref_written_back r.1 (by
      rw [length_take, length_drop]
      omega), drop_zero,
      take_of_length_le hlength.le, href, htref, ← map_append] at hshows
    exact shown_of_shows hshows
  · have hshows := (hwritten.sane b t ((slot_setSlot_of_ne hne _ _).trans hother)).shows
    rw [htref] at hshows
    exact shown_of_shows hshows

/-- **The way for all buffers** appends, unless the buffer can grow in the area of the other
one. -/
theorem Inv.appendCopy (h : w.Inv) (ha : w.slot a = some s) (hb : w.slot b = some t) (hne : b ≠ a)
    (href : s.ref = bs.map some) (htref : t.ref = cs.map some) (hsmall : Small w.store s.buf t.buf)
    (hroom : ¬ SharesRoom w.store s.buf t.buf) (garbage : ℕ → ℕ → Octet) :
    ∃ b' s', s.buf.appendCopy w.store t.buf garbage = .ok (b', s') ∧ b'.shown s' = bs ++ cs
      ∧ t.buf.shown s' = cs := by
  have hcopied := hsmall.copied
  obtain ⟨w₁, s₁, tmp, store, hcopy, hbeside, hcase⟩ := h.exists_copied ha href (by omega) garbage
  obtain ⟨w', hinv, hstore, hself, hothers⟩ := hbeside.become
  have hend : tmp.buf.endPos + t.buf.size + 20 ≤ 2 ^ 32 := by
    rcases hcase with ⟨-, hshare⟩ | ⟨-, hle⟩
    · rw [show tmp.buf = (Buffer.copy w.store s.buf).1 from congrArg Prod.fst hshare]
      exact hsmall.inPlace
    · omega
  have hother := hothers b t hne hb
  have hroom' : ¬ (tmp.buf.data = t.buf.data ∧ tmp.buf.endPos = (w'.store.areas tmp.buf.data).dirtyEnd
      ∧ tmp.buf.stop + t.buf.size ≤ (w'.store.areas tmp.buf.data).size) := by
    rintro ⟨hdata, hedge, hfits⟩
    rcases hcase with ⟨hplain, hshare⟩ | ⟨hown, -⟩
    · -- the copy shares the area, of which only the count has changed
      have hbuf : tmp.buf = (Buffer.copy w.store s.buf).1 := congrArg Prod.fst hshare
      have hretain : store = (Buffer.copy w.store s.buf).2 := congrArg Prod.snd hshare
      obtain ⟨c, harea⟩ := areas_become_copy w.store s.buf (Buffer.copy w.store s.buf).1.data
      rw [hstore, hretain, hbuf, harea] at hedge hfits
      rw [hbuf] at hdata
      exact hroom ⟨hdata, hplain, hedge, hfits⟩
    · have hpos := refs_pos hb
      rw [← hdata, hown] at hpos
      exact absurd hpos (lt_irrefl _)
  obtain ⟨r, dst, store', hadd, hdst, hwrite, hshown, hkept⟩ :=
    hinv.appended hself hother hne href htref hbeside.plain hend (garbage 4) hroom'
  have hadd' : (Buffer.become store s.buf tmp.buf).1.addAtEnd w'.store t.buf.size (garbage 4)
      = .ok r := hadd
  refine ⟨r.1, store', ?_, hshown, hkept⟩
  unfold Buffer.appendCopy
  rw [hcopy, Program.ok_bind, (h.sane b t hb).ordered.getSize_eq]
  dsimp only
  rw [← hstore, hadd', Program.ok_bind, hdst, Program.ok_bind, hwrite]
  rfl

/-- A buffer that grows in the area of the other one fails the assertion of `Write`. -/
theorem Inv.appendCopy_of_sharesRoom (h : w.Inv) (ha : w.slot a = some s) (hb : w.slot b = some t)
    (hsmall : Small w.store s.buf t.buf) (hroom : SharesRoom w.store s.buf t.buf)
    (garbage : ℕ → ℕ → Octet) :
    s.buf.appendCopy w.store t.buf garbage = .error .assertFailed := by
  obtain ⟨hdata, hplain, hedge, hfits⟩ := hroom
  have hs := h.sane a s ha
  have hone := hs.ordered.start_le
  have hthree := hs.ordered.le_end
  have hlast := hsmall.inPlace
  obtain ⟨q, hq⟩ : ∃ q, q = Buffer.become (Buffer.copy w.store s.buf).2 s.buf
    (Buffer.copy w.store s.buf).1 := ⟨_, rfl⟩
  have hbuf : q.1 = (Buffer.copy w.store s.buf).1 := by
    rw [hq]
    rfl
  have hordered : q.1.Ordered := by
    rw [hbuf]
    exact ⟨hone, hs.ordered.zero_le, hthree, hs.ordered.small⟩
  obtain ⟨c, harea⟩ := areas_become_copy w.store s.buf q.1.data
  rw [← hq] at harea
  have hend : q.1.endPos = s.buf.endPos :=
    (congrArg endPos hbuf).trans rfl
  have hstop : q.1.stop = s.buf.stop :=
    (congrArg stop hbuf).trans rfl
  have hsame : q.1.data = s.buf.data :=
    (congrArg data hbuf).trans rfl
  have hadd := hordered.addAtEnd_inPlace (s := q.2) (n := t.buf.size) (by omega)
    (by rw [harea, hstop, hsame]; exact hfits) (by rw [harea, hend, hsame]; exact hedge) (garbage 4)
  unfold Buffer.appendCopy
  rw [hs.ordered.createFullCopy_plain hplain, Program.ok_bind,
    (h.sane b t hb).ordered.getSize_eq]
  dsimp only
  obtain ⟨b', hb'⟩ : ∃ b', b' = { q.1 with endPos := q.1.endPos + t.buf.size }.noteMax := ⟨_, rfl⟩
  have hle : t.buf.size ≤ b'.endPos := by
    rw [hb']
    exact Nat.le_add_left _ _
  have hdst : b'.fromEnd t.buf.size
      = .ok { b'.iteratorAt 0 with current := b'.endPos - t.buf.size } := if_pos hle
  have hdstdata : b'.data = t.buf.data := by
    rw [hb']
    exact hsame.trans hdata
  rw [← hb'] at hadd
  rw [← hq, hadd, Program.ok_bind]
  dsimp only
  rw [hdst, Program.ok_bind]
  unfold BufferIterator.writeFrom
  rw [if_pos (by exact hdstdata)]
  rfl

end Appending

/-! ## Adjacent zero areas with nothing behind them -/

section Joining

variable {a b : ℕ} {s t : Slot}

/-- The positions after the zero areas were joined. -/
theorem joined_spec (hs : s.buf.Ordered) (ht : t.buf.Ordered)
    (hjoins : s.buf.JoinsZeroes w.store t.buf) (hsmall : Small w.store s.buf t.buf) :
    (s.buf.joined t.buf).Ordered
      ∧ (s.buf.joined t.buf).zeroAreaStart
        = (if s.buf.zeroAreaStart = s.buf.zeroAreaEnd then s.buf.endPos else s.buf.zeroAreaStart)
      ∧ (s.buf.joined t.buf).zeroAreaEnd
        = s.buf.endPos + (t.buf.zeroAreaEnd - t.buf.zeroAreaStart)
      ∧ (s.buf.joined t.buf).endPos = s.buf.endPos + (t.buf.zeroAreaEnd - t.buf.zeroAreaStart)
      ∧ (s.buf.joined t.buf).stop = s.buf.stop := by
  obtain ⟨hone, htwo, hthree, hfour⟩ := hs
  obtain ⟨hone', htwo', hthree', hfour'⟩ := ht
  obtain ⟨-, hplace, -, -, -⟩ := hjoins
  have hlast := hsmall.inPlace
  unfold size at hlast
  have hend : Word32.add s.buf.endPos (Word32.sub t.buf.zeroAreaEnd t.buf.zeroAreaStart)
      = s.buf.endPos + (t.buf.zeroAreaEnd - t.buf.zeroAreaStart) := by
    rw [Word32.sub_eq htwo' (by omega)]
    exact Word32.add_eq (by omega)
  unfold joined
  dsimp only
  rw [hend]
  refine ⟨⟨?_, ?_, le_refl _, ?_⟩, rfl, rfl, rfl, ?_⟩
  · dsimp only
    split <;> omega
  · dsimp only
    split <;> omega
  · dsimp only
    omega
  · unfold stop
    dsimp only
    split <;> omega

/-- The joined buffer shows its bytes and then the zeroes of the other one. -/
theorem shown_joined (hs : s.buf.Ordered) (ht : t.buf.Ordered)
    (hjoins : s.buf.JoinsZeroes w.store t.buf) (hsmall : Small w.store s.buf t.buf) {b' : Buffer}
    (hdata : b'.data = s.buf.data) (hstart : b'.start = s.buf.start)
    (hzs : b'.zeroAreaStart = (s.buf.joined t.buf).zeroAreaStart)
    (hze : b'.zeroAreaEnd = (s.buf.joined t.buf).zeroAreaEnd)
    (hend : b'.endPos = (s.buf.joined t.buf).endPos) {store : Store}
    (hbytes : (store.areas s.buf.data).bytes = (w.store.areas s.buf.data).bytes) :
    b'.shown store = s.buf.shown w.store
      ++ List.replicate (t.buf.zeroAreaEnd - t.buf.zeroAreaStart) 0 := by
  obtain ⟨hjoined, hzs', hze', hend', -⟩ := joined_spec hs ht hjoins hsmall
  have hordered : b'.Ordered := by
    refine ⟨?_, ?_, ?_, ?_⟩
    · rw [hstart, hzs]
      exact hjoined.start_le
    · rw [hzs, hze]
      exact hjoined.zero_le
    · rw [hze, hend]
      exact hjoined.le_end
    · rw [hend]
      exact hjoined.small
  obtain ⟨-, hplace, -, -, -⟩ := hjoins
  have ⟨hone, htwo, hthree, _⟩ := hs
  rw [hordered.shown_eq, hs.shown_eq, hdata, hbytes, hstart, hzs, hzs', hze, hze', hend, hend',
    Nat.sub_self, range_zero, map_nil, append_nil]
  by_cases hplain : s.buf.zeroAreaStart = s.buf.zeroAreaEnd
  · -- the bytes behind the empty zero area are now in front of it
    have hsplit : s.buf.endPos - s.buf.start = (s.buf.zeroAreaStart - s.buf.start)
        + (s.buf.endPos - s.buf.zeroAreaEnd) := by omega
    have hnone : s.buf.zeroAreaEnd - s.buf.zeroAreaStart = 0 := by omega
    have hbehind : (fun i => (w.store.areas s.buf.data).bytes (s.buf.start + i))
          ∘ (fun i => s.buf.zeroAreaStart - s.buf.start + i)
        = fun i => (w.store.areas s.buf.data).bytes (s.buf.zeroAreaStart + i) := by
      funext i
      show (w.store.areas s.buf.data).bytes (s.buf.start + (s.buf.zeroAreaStart - s.buf.start + i))
        = (w.store.areas s.buf.data).bytes (s.buf.zeroAreaStart + i)
      congr 1
      omega
    rw [if_pos hplain, hnone, replicate_zero, append_nil, Nat.add_sub_cancel_left, hsplit,
      range_add, map_append, map_map, hbehind]
  · have hnone : s.buf.endPos - s.buf.zeroAreaEnd = 0 := by omega
    rw [if_neg hplain, hnone, range_zero, map_nil, append_nil, append_assoc,
      replicate_append_replicate]
    congr 2
    omega

/-- **Adjacent zero areas with nothing behind them** are joined. -/
theorem Inv.appendZeroes (h : w.Inv) (ha : w.slot a = some s) (hb : w.slot b = some t) (hne : b ≠ a)
    (hjoins : s.buf.JoinsZeroes w.store t.buf) (hlast : t.buf.zeroAreaEnd = t.buf.endPos)
    (hsmall : Small w.store s.buf t.buf) (garbage : ℕ → Octet) :
    ∃ b' s', s.buf.appendZeroes w.store t.buf garbage = .ok (b', s')
      ∧ b'.shown s' = s.buf.shown w.store ++ t.buf.shown w.store
      ∧ t.buf.shown s' = t.buf.shown w.store := by
  have hs := h.sane a s ha
  have ht := h.sane b t hb
  have hone := ht.ordered.start_le
  have htwo := ht.ordered.zero_le
  have hfour := ht.ordered.small
  obtain ⟨hordered, hzs, hze, hend, hstop⟩ := joined_spec hs.ordered ht.ordered hjoins hsmall
  obtain ⟨hcount, -, -, hfirst, -⟩ := id hjoins
  have hdata : t.buf.data ≠ s.buf.data := h.ne_of_count_one ha hb hne hcount
  have hsize := hsmall.inPlace
  unfold size at hsize
  -- the area with its new edge
  obtain ⟨store, hstore⟩ : ∃ store, store = w.store.setArea s.buf.data
    ((w.store.areas s.buf.data).setDirty (w.store.areas s.buf.data).dirtyStart
      (s.buf.joined t.buf).zeroAreaEnd) := ⟨_, rfl⟩
  have harea : store.areas s.buf.data = (w.store.areas s.buf.data).setDirty
      (w.store.areas s.buf.data).dirtyStart (s.buf.joined t.buf).zeroAreaEnd := by
    rw [hstore]
    exact Store.areas_setArea_self _ _ _
  have hadd := hordered.addAtEnd_inPlace (s := store) (n := 0) (by omega)
    (by
      rw [hstop, joined_data, harea]
      exact hs.fits)
    (by
      rw [joined_data, harea, hend, ← hze]
      rfl) garbage
  obtain ⟨b', hb'⟩ : ∃ b', b' = { s.buf.joined t.buf with
    endPos := (s.buf.joined t.buf).endPos + 0 }.noteMax := ⟨_, rfl⟩
  obtain ⟨store', hstore'⟩ : ∃ store', store' = store.setArea (s.buf.joined t.buf).data
    ((store.areas (s.buf.joined t.buf).data).setDirty
      (store.areas (s.buf.joined t.buf).data).dirtyStart ((s.buf.joined t.buf).endPos + 0)) :=
    ⟨_, rfl⟩
  rw [← hb', ← hstore'] at hadd
  have hbdata : b'.data = s.buf.data := by
    rw [hb']
    rfl
  have hother : store'.areas t.buf.data = w.store.areas t.buf.data := by
    rw [hstore', joined_data, Store.areas_setArea_of_ne _ _ hdata, hstore,
      Store.areas_setArea_of_ne _ _ hdata]
  have hsame : (store'.areas s.buf.data).bytes = (w.store.areas s.buf.data).bytes := by
    rw [hstore', joined_data, Store.areas_setArea_self, harea]
    rfl
  have hordered' : b'.Ordered := by
    rw [hb']
    exact { hordered with }
  -- nothing is copied
  have hcheck : (b'.iteratorAt (b'.size - 0)).checkNoZero (b'.start + (b'.size - 0))
      (b'.start + (b'.size - 0) + 0) = true := by
    have hle := hordered'.start_le.trans (hordered'.zero_le.trans hordered'.le_end)
    unfold BufferIterator.checkNoZero size
    rw [Bool.not_eq_true', decide_eq_false_iff_not]
    show ¬ (b'.start + (b'.endPos - b'.start - 0) < b'.start
      ∨ b'.endPos < b'.start + (b'.endPos - b'.start - 0) + 0 ∨ _)
    omega
  have hsrc : Sane (store'.areas t.buf.data) t := by
    rw [hother]
    exact ht
  obtain ⟨d, bs, hwrite, hnone, hd, -⟩ := exists_writeFrom_at hsrc (by rw [hbdata]; exact hdata.symm)
    hcheck (show t.buf.size - 0 + 0 ≤ t.ref.length by rw [ht.shows.1]; omega) (.inl rfl) (by
      rw [hother]
      exact h.owned.capacity _ (h.owned.lt_next (refs_pos hb)))
  have hbytes : ((store'.setArea b'.data d).areas s.buf.data).bytes
      = (w.store.areas s.buf.data).bytes := by
    rw [hbdata, Store.areas_setArea_self, ← hsame]
    funext p
    rw [← hbdata]
    exact hd.outside p (by omega)
  have hzeroes : t.buf.shown w.store
      = List.replicate (t.buf.zeroAreaEnd - t.buf.zeroAreaStart) 0 := by
    rw [ht.ordered.shown_eq, hfirst, hlast, Nat.sub_self, Nat.sub_self]
    simp
  refine ⟨b', store'.setArea b'.data d, ?_, ?_, ?_⟩
  · unfold Buffer.appendZeroes
    dsimp only
    rw [Buffer.joined_data, ← hstore, ← hlast, Word32.sub_eq (le_refl _) (by omega), Nat.sub_self,
      hadd, Program.ok_bind]
    dsimp only
    rw [hordered'.fromEnd_eq (Nat.zero_le _), Program.ok_bind,
      ht.ordered.fromEnd_eq (Nat.zero_le _), Program.ok_bind, hwrite]
    rfl
  · rw [hzeroes]
    exact shown_joined hs.ordered ht.ordered hjoins hsmall hbdata (by rw [hb']; rfl)
      (by rw [hb']; rfl) (by rw [hb']; rfl) (by rw [hb']; rfl) hbytes
  · refine shown_congr ?_
    rw [hbdata, Store.areas_setArea_of_ne _ _ hdata, hother]

end Joining

end Buffers

end Ns3Dsme.Network
