/-
# No operation on one buffer changes another

The invariant of all buffers and areas together, what each operation does to it, and every run of
operations.
-/
import Ns3Dsme.Network.BufferSharing

open List Function Program

namespace Ns3Dsme.Network

open Buffer

namespace Buffers

/-! ## Looking up buffers -/

/-- The area that a place in the list refers to. -/
def pointer (o : Option Slot) : Option ℕ := o.map fun s => s.buf.data

/-- How many buffers refer to an area. -/
def refs (w : Buffers) : ℕ → ℕ := RefCount.refs pointer w.slots

variable {w : Buffers}

variable {b : ℕ} {s : Slot}

theorem getElem?_of_slot (h : w.slot b = some s) :
    w.slots[b]? = some (some s) := by
  unfold slot at h
  cases hb : w.slots[b]? with
  | none =>
    rw [hb] at h
    cases h
  | some o =>
    rw [hb] at h
    rw [show o = some s from h]

theorem slot_setSlot_self (h : w.slot b = some s) (o : Option Slot) (store : Store) :
    (w.setSlot b o store).slot b = o := by
  have hlt := (List.getElem?_eq_some_iff.mp (getElem?_of_slot h)).1
  unfold slot setSlot
  dsimp only
  rw [List.getElem?_set_self hlt]
  rfl

theorem slot_setSlot_of_ne {b b' : ℕ} (hne : b' ≠ b) (o : Option Slot) (store : Store) :
    (w.setSlot b o store).slot b' = w.slot b' := by
  unfold slot setSlot
  dsimp only
  rw [List.getElem?_set_ne hne.symm]

theorem slot_addSlot (s : Slot) (store : Store) {t : Slot}
    (h : (w.addSlot s store).slot b = some t) :
    w.slot b = some t ∨ b = w.slots.length ∧ t = s := by
  unfold slot addSlot at h
  dsimp only at h
  rcases lt_trichotomy b w.slots.length with hlt | heq | hgt
  · rw [List.getElem?_append_left hlt] at h
    exact Or.inl h
  · rw [heq, List.getElem?_append_right (le_refl _), Nat.sub_self] at h
    exact Or.inr ⟨heq, (Option.some_inj.mp h).symm⟩
  · rw [List.getElem?_append_right hgt.le, List.getElem?_eq_none (by
      rw [length_singleton]
      omega)] at h
    cases h

theorem share_some (s : Slot) (p : ℕ) :
    RefCount.share pointer (some s) p = if s.buf.data = p then 1 else 0 := by
  unfold RefCount.share pointer
  simp only [Option.map_some, Option.some_inj]

theorem refs_pos (h : w.slot b = some s) : 0 < w.refs s.buf.data := by
  have hshare := RefCount.share_le_refs pointer w.slots b _ (getElem?_of_slot h) s.buf.data
  rw [share_some, if_pos rfl] at hshare
  exact hshare

/-- A buffer is replaced: one reference goes and one comes. -/
theorem refs_setSlot (h : w.slot b = some s) (o : Option Slot) (store : Store) (p : ℕ) :
    (w.setSlot b o store).refs p + (if s.buf.data = p then 1 else 0) =
      w.refs p + RefCount.share pointer o p := by
  rw [← share_some]
  exact RefCount.refs_set pointer w.slots b _ o (getElem?_of_slot h) p

/-- The references stay as they are when a buffer keeps its area. -/
theorem refs_setSlot_same {s s' : Slot} (h : w.slot b = some s) (hdata : s'.buf.data = s.buf.data)
    (store : Store) :
    (w.setSlot b (some s') store).refs = w.refs := by
  funext p
  have hset := refs_setSlot h (some s') store p
  rw [share_some, hdata] at hset
  omega

theorem refs_addSlot (s : Slot) (store : Store) :
    (w.addSlot s store).refs =
      update w.refs s.buf.data (w.refs s.buf.data + 1) := by
  funext p
  have happend := RefCount.refs_append pointer w.slots (some s) p
  rw [share_some] at happend
  rw [update_apply]
  show RefCount.refs pointer (w.slots ++ [some s]) p = _
  rw [happend]
  split
  · rename_i heq
    rw [if_pos heq.symm, heq]
    rfl
  · rename_i hne
    rw [if_neg (Ne.symm hne)]
    rfl

/-! ## The invariant -/

/-- All buffers are inside their areas and apart from each other, and the counts are right. -/
structure Inv (w : Buffers) : Prop where
  owned : w.store.Owned w.refs
  sane : ∀ b s, w.slot b = some s → Sane (w.store.areas s.buf.data) s
  apart : ∀ b b' s t, b ≠ b' → w.slot b = some s → w.slot b' = some t →
    s.buf.data = t.buf.data → Apart (w.store.areas s.buf.data) s t

theorem inv_start : Buffers.start.Inv := by
  refine ⟨⟨⟨fun p hp => absurd hp (Nat.not_lt_zero _), fun p _ => rfl,
    fun p hp => absurd hp not_mem_nil, nodup_nil⟩,
    fun p hp => absurd hp (Nat.not_lt_zero _)⟩, fun b s hb => ?_, fun b b' s t _ hb => ?_⟩
  · cases hb
  · cases hb

namespace Inv

/-- An only reference means that no other buffer has the area. -/
theorem ne_of_count_one (h : w.Inv) {b b' : ℕ} {s t : Slot} (hb : w.slot b = some s)
    (hb' : w.slot b' = some t) (hne : b' ≠ b) (hcount : (w.store.areas s.buf.data).count = 1) :
    t.buf.data ≠ s.buf.data := by
  intro hdata
  rw [h.owned.count _ (h.owned.lt_next (refs_pos hb))] at hcount
  exact hne (RefCount.eq_of_refs_le_one pointer w.slots s.buf.data hcount.le b' b _ _
    (getElem?_of_slot hb') (getElem?_of_slot hb) (congrArg some hdata) rfl)

variable {s : Slot} {b : ℕ} {store : Store}

/-- **Replacing a buffer.**  The others keep what they need, and are apart from the new one. -/
theorem setSlot (h : w.Inv) (hb : w.slot b = some s) {s' : Slot} (howned : store.Owned (w.setSlot b (some s') store).refs)
    (hsane : Sane (store.areas s'.buf.data) s')
    (hkept : ∀ b' t, b' ≠ b → w.slot b' = some t →
      Kept (w.store.areas t.buf.data) (store.areas t.buf.data) t)
    (hapart : ∀ b' t, b' ≠ b → w.slot b' = some t → t.buf.data = s'.buf.data →
      Apart (store.areas s'.buf.data) s' t ∧ Apart (store.areas s'.buf.data) t s') :
    (w.setSlot b (some s') store).Inv := by
  have hself := slot_setSlot_self hb (some s') store
  refine ⟨howned, fun b₁ t ht => ?_, fun b₁ b₂ t u hne ht hu hdata => ?_⟩
  · by_cases heq : b₁ = b
    · subst heq
      rw [hself] at ht
      cases ht
      exact hsane
    · rw [slot_setSlot_of_ne heq] at ht
      exact (h.sane b₁ t ht).kept (hkept b₁ t heq ht)
  · by_cases heq : b₁ = b
    · subst heq
      rw [hself] at ht
      cases ht
      rw [slot_setSlot_of_ne hne.symm] at hu
      exact (hapart b₂ u hne.symm hu hdata.symm).1
    · rw [slot_setSlot_of_ne heq] at ht
      by_cases heq' : b₂ = b
      · subst heq'
        rw [hself] at hu
        cases hu
        rw [hdata]
        exact (hapart b₁ t heq ht hdata).2
      · rw [slot_setSlot_of_ne heq'] at hu
        exact (h.apart b₁ b₂ t u hne ht hu hdata).kept (h.sane b₁ t ht)
          (hkept b₁ t heq ht).dirtyEnd

/-- **Adding a buffer.** -/
theorem addSlot (h : w.Inv) (howned : store.Owned (w.addSlot s store).refs)
    (hsane : Sane (store.areas s.buf.data) s)
    (hkept : ∀ b t, w.slot b = some t →
      Kept (w.store.areas t.buf.data) (store.areas t.buf.data) t)
    (hapart : ∀ b t, w.slot b = some t → t.buf.data = s.buf.data →
      Apart (store.areas s.buf.data) s t ∧ Apart (store.areas s.buf.data) t s) :
    (w.addSlot s store).Inv := by
  refine ⟨howned, fun b₁ t ht => ?_, fun b₁ b₂ t u hne ht hu hdata => ?_⟩
  · rcases slot_addSlot s store ht with hold | ⟨-, rfl⟩
    · exact (h.sane b₁ t hold).kept (hkept b₁ t hold)
    · exact hsane
  · rcases slot_addSlot s store ht with hold | ⟨hlast, rfl⟩
    · rcases slot_addSlot s store hu with hold' | ⟨-, rfl⟩
      · exact (h.apart b₁ b₂ t u hne hold hold' hdata).kept (h.sane b₁ t hold)
          (hkept b₁ t hold).dirtyEnd
      · rw [hdata]
        exact (hapart b₁ t hold hdata).2
    · rcases slot_addSlot _ store hu with hold' | ⟨hlast', -⟩
      · exact (hapart b₂ u hold' hdata.symm).1
      · exact absurd (hlast.trans hlast'.symm) hne

/-- A buffer that only lost bytes. -/
theorem setWithin (h : w.Inv) {s s' : Slot} (hb : w.slot b = some s)
    (hsane : Sane (w.store.areas s.buf.data) s') (hwithin : SlotWithin s' s) :
    (w.setSlot b (some s') w.store).Inv := by
  have hdata := hwithin.buf.data
  refine h.setSlot hb ?_ ?_ (fun b' t _ _ => Kept.refl _ _) fun b' t hne ht htdata => ?_
  · rw [refs_setSlot_same hb hdata]
    exact h.owned
  · rw [hdata]
    exact hsane
  · rw [hdata] at htdata ⊢
    have hback := h.apart b' b t s hne ht hb htdata
    rw [htdata] at hback
    exact ⟨(h.apart b b' s t hne.symm hb ht htdata.symm).within_left (h.sane b s hb) hwithin,
      hback.within_right hwithin⟩

/-- From now on the bytes are shared. -/
theorem setShared (h : w.Inv) (hb : w.slot b = some s) :
    (w.setSlot b (some s.shared) w.store).Inv := by
  have hs := h.sane b s hb
  exact h.setWithin hb ⟨hs.ordered, hs.dirtyStart, hs.dirtyEnd, hs.fits, hs.ordered.start_le,
    hs.ordered.le_end, hs.shows⟩ (SlotWithin.shared s)

/-! ## New buffers -/

/-- **Construction.** -/
theorem construct (h : w.Inv) (n : ℕ) (garbage : ℕ → Octet)
    (hn : w.store.recommendedStart + n < 2 ^ 32) :
    (w.addSlot ⟨(initBuffer w.store n garbage).1, List.replicate n (some 0), 0, 0⟩
      (initBuffer w.store n garbage).2).Inv := by
  obtain ⟨hzero, howned, -, hrecommended, hothers⟩ := h.owned.create 0 garbage (by omega)
  obtain ⟨r, hr⟩ : ∃ r, r = w.store.create 0 garbage := ⟨_, rfl⟩
  rw [← hr] at hzero howned hrecommended hothers
  obtain ⟨start, hstart⟩ : ∃ start, start = min (r.2.areas r.1).size r.2.recommendedStart :=
    ⟨_, rfl⟩
  have hend : Word32.add start n = start + n := Word32.add_eq (by omega)
  have hinit : initBuffer w.store n garbage =
      (⟨r.1, start, start, start + n, start, start + n⟩,
        r.2.setArea r.1 ((r.2.areas r.1).setDirty start (start + n))) := by
    unfold initBuffer
    dsimp only
    rw [← hr, ← hstart, hend]
  rw [hinit]
  -- nobody else refers to the area
  have hne : ∀ b t, w.slot b = some t → t.buf.data ≠ r.1 := by
    intro b t ht heq
    have hpos := refs_pos ht
    rw [heq, hzero] at hpos
    exact absurd hpos (lt_irrefl _)
  have harea : ∀ q ≠ r.1, (r.2.setArea r.1 ((r.2.areas r.1).setDirty start (start + n))).areas q =
      w.store.areas q :=
    fun q hq => (Store.areas_setArea_of_ne _ _ hq).trans (hothers q hq)
  have hlt : r.1 < r.2.next := howned.lt_next (by rw [update_self]; exact Nat.one_pos)
  refine h.addSlot ?_ ?_ (fun b t ht => ?_) fun b t ht hdata => absurd hdata (hne b t ht)
  · rw [refs_addSlot]
    show Store.Owned _ (update w.refs r.1 (w.refs r.1 + 1))
    rw [hzero]
    exact howned.setArea rfl (howned.capacity _ hlt)
  · dsimp only
    rw [Store.areas_setArea_self]
    refine ⟨⟨le_refl _, Nat.le_add_right _ _, le_refl _, by dsimp only; omega⟩, le_refl _, le_refl _,
      ?_, le_refl _, le_refl _, ?_, fun i v hi => ?_⟩
    · show start + n - (start + n - start) ≤ (r.2.areas r.1).size
      omega
    · show (List.replicate n (some (0 : Octet))).length = start + n - start
      rw [length_replicate]
      omega
    · have hi' : (List.replicate n (some (0 : Octet)))[i]? = some (some v) := hi
      rw [List.getElem?_replicate] at hi'
      split at hi'
      · rename_i hin
        cases hi'
        unfold locate
        dsimp only
        rw [if_neg (Nat.not_lt.mpr (Nat.le_add_right _ _)), if_pos (Nat.add_lt_add_left hin _)]
        rfl
      · cases hi'
  · rw [harea _ (hne b t ht)]
    exact Kept.refl _ _

/-- **A copy, or a part of one**, of a buffer without fresh bytes. -/
theorem addCopy (h : w.Inv) {o : ℕ} (ho : w.slot o = some s) (hstart : s.freshStart = 0)
    (hend : s.freshEnd = 0) {b : Buffer} {ref : List (Option Octet)}
    (hsane : Sane (w.store.areas s.buf.data) ⟨b, ref, 0, 0⟩) (hwithin : b.Within s.buf) :
    (w.addSlot ⟨b, ref, 0, 0⟩ (w.store.retain s.buf.data)).Inv := by
  have hslot : SlotWithin ⟨b, ref, 0, 0⟩ s :=
    ⟨hwithin, fun hpos => absurd hpos (lt_irrefl _), fun hpos => absurd hpos (lt_irrefl _)⟩
  have hkept : ∀ t : Slot, Kept (w.store.areas t.buf.data)
      ((w.store.retain s.buf.data).areas t.buf.data) t := by
    intro t
    rw [Store.areas_retain]
    split
    · rename_i heq
      rw [heq]
      exact Kept.setCount _ _ _
    · exact Kept.refl _ _
  have hdata : b.data = s.buf.data := hwithin.data
  have hs := h.sane o s ho
  have hsane' : Sane ((w.store.retain s.buf.data).areas b.data) ⟨b, ref, 0, 0⟩ := by
    rw [← hdata] at hsane
    exact hsane.kept (hkept ⟨b, ref, 0, 0⟩)
  refine h.addSlot ?_ hsane' (fun b' t _ => hkept t) fun b' t ht htdata => ?_
  · rw [refs_addSlot]
    show Store.Owned _ (update w.refs b.data (w.refs b.data + 1))
    rw [hdata]
    exact h.owned.retain (refs_pos ho)
  · have htdata' : t.buf.data = s.buf.data := htdata.trans hdata
    -- first in the area as it is, then with the count changed
    have hboth : Apart (w.store.areas s.buf.data) ⟨b, ref, 0, 0⟩ t ∧
        Apart (w.store.areas s.buf.data) t ⟨b, ref, 0, 0⟩ := by
      by_cases heq : b' = o
      · subst heq
        rw [ho] at ht
        cases ht
        refine ⟨⟨fun hedge => ?_, fun hpos => absurd hpos (lt_irrefl _),
          fun hpos => absurd hpos (lt_irrefl _)⟩, ⟨fun _ => hwithin.stop,
          fun hpos => absurd hstart (Nat.ne_of_gt hpos),
          fun hpos => absurd hend (Nat.ne_of_gt hpos)⟩⟩
        have hsame : b.endPos = s.buf.endPos := le_antisymm hwithin.endPos (hedge ▸ hs.dirtyEnd)
        exact (hwithin.edge hsame).ge
      · have hback := h.apart b' o t s heq ht ho htdata'
        rw [htdata'] at hback
        exact ⟨(h.apart o b' s t (Ne.symm heq) ho ht htdata'.symm).within_left hs hslot,
          hback.within_right hslot⟩
    have hdirty := (hkept ⟨b, ref, 0, 0⟩).dirtyEnd
    have ht' := h.sane b' t ht
    dsimp only at hdirty ⊢
    rw [htdata'] at ht'
    rw [hdata] at hdirty ⊢
    exact ⟨hboth.1.kept hsane hdirty, hboth.2.kept ht' hdirty⟩

theorem copy (h : w.Inv) {o : ℕ} (ho : w.slot o = some s) :
    ((w.setSlot o (some s.shared) w.store).addSlot
      ⟨(copy w.store s.buf).1, s.ref, 0, 0⟩ (copy w.store s.buf).2).Inv := by
  have hs := h.sane o s ho
  refine (h.setShared ho).addCopy (slot_setSlot_self ho _ _) rfl rfl (b := (Buffer.copy w.store
    s.buf).1) ?_ ⟨rfl, le_refl _, le_refl _, le_refl _, fun _ => rfl⟩
  exact ⟨{ hs.ordered with },
    hs.dirtyStart, hs.dirtyEnd, hs.fits, hs.ordered.start_le, hs.ordered.le_end, hs.shows⟩

/-- **Fragments.** -/
theorem createFragment (h : w.Inv) {o : ℕ} (ho : w.slot o = some s) (start length : ℕ)
    (hlength : length < 2 ^ 32) (hn : s.buf.start + start < 2 ^ 32) :
    ∃ w', w.step (.createFragment o start length) = .ok w' ∧ w'.Inv := by
  obtain ⟨b', hfragment, hsane, hwithin⟩ :=
    (h.sane o s ho).createFragment w.store start length hlength hn
  refine ⟨(w.setSlot o (some s.shared) w.store).addSlot ⟨b', fragment s.ref start length, 0, 0⟩
    (w.store.retain s.buf.data), ?_, ?_⟩
  · unfold Buffers.step withSlot
    dsimp only
    rw [ho]
    dsimp only
    rw [hfragment]
    rfl
  · exact (h.setShared ho).addCopy (slot_setSlot_self ho _ _) rfl rfl hsane hwithin

/-! ## Assignment and destruction -/

/-- Areas whose counts changed at most. -/
theorem kept_of_count {d d' : Data} (t : Slot) (h : ∃ c, d' = { d with count := c }) :
    Kept d d' t := by
  obtain ⟨c, rfl⟩ := h
  exact Kept.setCount d t c

theorem areas_assign (store : Store) (b o : Buffer) (q : ℕ) :
    ∃ c, (assign store b o).2.areas q = { store.areas q with count := c } := by
  unfold assign
  dsimp only
  split
  · exact ⟨(store.areas q).count, rfl⟩
  · show ∃ c, ((store.release b.data).retain o.data).areas q = _
    rw [Store.areas_retain]
    split
    · rename_i heq
      rw [heq]
      refine ⟨((store.release b.data).areas o.data).count + 1, ?_⟩
      rw [Store.areas_release]
      split
      · rename_i heq'
        rw [heq']
      · rfl
    · rw [Store.areas_release]
      split
      · rename_i heq
        rw [heq]
        exact ⟨_, rfl⟩
      · exact ⟨(store.areas q).count, rfl⟩

/-- **Assignment.** -/
theorem assign (h : w.Inv) {b o : ℕ} {s t : Slot} (hb : w.slot b = some s)
    (ho : w.slot o = some t) :
    ((w.setSlot o (some t.shared) w.store).setSlot b
      (some ⟨(assign w.store s.buf t.buf).1, t.ref, 0, 0⟩)
      (assign w.store s.buf t.buf).2).Inv := by
  have hshared := h.setShared ho
  have ht := hshared.sane o _ (slot_setSlot_self ho _ _)
  -- the buffer that is assigned to, which may be the same one
  obtain ⟨s', hs', hdata⟩ : ∃ s', (w.setSlot o (some t.shared) w.store).slot b = some s' ∧
      s'.buf.data = s.buf.data := by
    by_cases heq : b = o
    · subst heq
      rw [hb] at ho
      cases ho
      exact ⟨_, slot_setSlot_self hb _ _, rfl⟩
    · exact ⟨s, (slot_setSlot_of_ne heq _ _).trans hb, rfl⟩
  have hareas := areas_assign w.store s.buf t.buf
  refine hshared.setSlot hs' ?_ ?_ (fun b' u _ _ => kept_of_count u (hareas _)) ?_
  · -- the references
    have howned := hshared.owned
    have hspos := refs_pos hs'
    have htpos := refs_pos (slot_setSlot_self ho (some t.shared) w.store)
    rw [hdata] at hspos
    show Store.Owned (Store.recommend _ _) _
    refine Store.Owned.recommend ?_ _
    unfold Buffer.assign
    dsimp only
    split
    · rename_i hsame
      have hrefs : (((w.setSlot o (some t.shared) w.store).setSlot b
          (some ⟨t.buf, t.ref, 0, 0⟩) w.store).refs) =
          (w.setSlot o (some t.shared) w.store).refs := by
        have hsame' : (⟨t.buf, t.ref, 0, 0⟩ : Slot).buf.data = s'.buf.data :=
          hsame.symm.trans hdata.symm
        exact refs_setSlot_same hs' hsame' _
      have hgoal := howned
      rw [← hrefs] at hgoal
      exact hgoal
    · rename_i hdiff
      have hrelease := howned.release hspos
      have hkeep : update (w.setSlot o (some t.shared) w.store).refs s.buf.data
          ((w.setSlot o (some t.shared) w.store).refs s.buf.data - 1) t.buf.data =
          (w.setSlot o (some t.shared) w.store).refs t.buf.data :=
        update_of_ne (Ne.symm hdiff) _ _
      have hretain := hrelease.retain (p := t.buf.data) (by rw [hkeep]; exact htpos)
      rw [hkeep] at hretain
      have hrefs : (((w.setSlot o (some t.shared) w.store).setSlot b
          (some ⟨t.buf, t.ref, 0, 0⟩) w.store).refs) = update (update
          (w.setSlot o (some t.shared) w.store).refs s.buf.data
          ((w.setSlot o (some t.shared) w.store).refs s.buf.data - 1)) t.buf.data
          ((w.setSlot o (some t.shared) w.store).refs t.buf.data + 1) := by
        funext p
        have hp := refs_setSlot hs' (some ⟨t.buf, t.ref, 0, 0⟩) w.store p
        rw [share_some, hdata] at hp
        dsimp only at hp
        rw [update_apply, update_apply]
        by_cases htp : p = t.buf.data
        · rw [if_pos htp]
          rw [if_neg (fun hsp => hdiff (hsp.trans htp)), if_pos htp.symm, htp] at hp
          rw [htp]
          omega
        · rw [if_neg htp]
          rw [if_neg (Ne.symm htp)] at hp
          by_cases hsp : p = s.buf.data
          · rw [if_pos hsp]
            rw [if_pos hsp.symm, hsp] at hp
            rw [hsp]
            omega
          · rw [if_neg hsp]
            rw [if_neg (Ne.symm hsp)] at hp
            omega
      have hgoal := hretain
      rw [← hrefs] at hgoal
      exact hgoal
  · have hsane : Sane (w.store.areas t.buf.data) ⟨t.buf, t.ref, 0, 0⟩ := ht
    exact hsane.kept (kept_of_count _ (hareas _))
  · intro b' u hne hu hudata
    have hudata' : u.buf.data = t.buf.data := hudata
    have hsane : Sane (w.store.areas t.buf.data) t.shared := ht
    have husane := hshared.sane b' u hu
    rw [hudata'] at husane
    have hboth : Apart (w.store.areas t.buf.data) t.shared u ∧
        Apart (w.store.areas t.buf.data) u t.shared := by
      by_cases heq : b' = o
      · subst heq
        rw [slot_setSlot_self ho] at hu
        cases hu
        exact ⟨Apart.copy rfl rfl rfl, Apart.copy rfl rfl rfl⟩
      · have hto := slot_setSlot_self ho (some t.shared) w.store
        have hback := hshared.apart b' o u t.shared heq hu hto hudata'
        rw [hudata'] at hback
        exact ⟨hshared.apart o b' t.shared u (Ne.symm heq) hto hu hudata'.symm, hback⟩
    have hdirty := (kept_of_count t.shared (hareas t.buf.data)).dirtyEnd
    exact ⟨hboth.1.kept hsane hdirty, hboth.2.kept husane hdirty⟩

theorem areas_destroy (store : Store) (b : Buffer) (q : ℕ) :
    ∃ c, (b.destroy store).areas q = { store.areas q with count := c } := by
  unfold destroy
  rw [Store.areas_release]
  split
  · rename_i heq
    rw [heq]
    exact ⟨_, rfl⟩
  · exact ⟨(store.areas q).count, rfl⟩

/-- **Destruction.** -/
theorem destroy (h : w.Inv) (hb : w.slot b = some s) :
    (w.setSlot b none (s.buf.destroy w.store)).Inv := by
  have hareas := areas_destroy w.store s.buf
  have hother : ∀ b' t, (w.setSlot b none (s.buf.destroy w.store)).slot b' = some t →
      w.slot b' = some t := by
    intro b' t ht
    by_cases heq : b' = b
    · rw [heq, slot_setSlot_self hb] at ht
      cases ht
    · rwa [slot_setSlot_of_ne heq] at ht
  refine ⟨?_, fun b' t ht => ?_, fun b₁ b₂ t u hne ht hu hdata => ?_⟩
  · have hrefs : (w.setSlot b none (s.buf.destroy w.store)).refs =
        update w.refs s.buf.data (w.refs s.buf.data - 1) := by
      funext p
      have hp := refs_setSlot hb none (s.buf.destroy w.store) p
      have hpos := refs_pos hb
      have hnone : RefCount.share pointer none p = 0 := rfl
      rw [hnone] at hp
      rw [update_apply]
      by_cases heq : p = s.buf.data
      · rw [if_pos heq]
        rw [if_pos heq.symm, heq] at hp
        rw [heq]
        omega
      · rw [if_neg heq]
        rw [if_neg (Ne.symm heq)] at hp
        omega
    rw [hrefs]
    exact (h.owned.recommend _).release (refs_pos hb)
  · exact (h.sane b' t (hother b' t ht)).kept (kept_of_count t (hareas _))
  · have ht' := hother b₁ t ht
    exact (h.apart b₁ b₂ t u hne ht' (hother b₂ u hu) hdata).kept (h.sane b₁ t ht')
      (kept_of_count t (hareas _)).dirtyEnd

/-! ## Growing and writing -/

/-- A buffer and its area change; the other buffers on it keep what they need. -/
theorem setSlotArea (h : w.Inv) {s s' : Slot} (hb : w.slot b = some s) {d : Data}
    (hdata : s'.buf.data = s.buf.data) (hcount : d.count = (w.store.areas s.buf.data).count)
    (hsize : d.size = (w.store.areas s.buf.data).size)
    (hcapacity : d.capacity = (w.store.areas s.buf.data).capacity) (hsane : Sane d s')
    (hothers : ∀ b' t, b' ≠ b → w.slot b' = some t → t.buf.data = s.buf.data →
      Kept (w.store.areas s.buf.data) d t ∧ Apart d s' t ∧ Apart d t s') :
    (w.setSlot b (some s') (w.store.setArea s.buf.data d)).Inv := by
  have hlt := h.owned.lt_next (refs_pos hb)
  refine h.setSlot hb ?_ ?_ (fun b' t hne ht => ?_) fun b' t hne ht htdata => ?_
  · rw [refs_setSlot_same hb hdata]
    refine h.owned.setArea hcount ?_
    rw [hsize, hcapacity]
    exact h.owned.capacity _ hlt
  · rw [hdata, Store.areas_setArea_self]
    exact hsane
  · rw [Store.areas_setArea]
    split
    · rename_i heq
      rw [heq]
      exact (hothers b' t hne ht heq).1
    · exact Kept.refl _ _
  · rw [hdata] at htdata ⊢
    rw [Store.areas_setArea_self]
    exact (hothers b' t hne ht htdata).2

/-- The two buffers of one area are apart, seen from either. -/
theorem apart_both (h : w.Inv) {b b' : ℕ} {s t : Slot} (hb : w.slot b = some s)
    (ht : w.slot b' = some t) (hne : b' ≠ b) (hdata : t.buf.data = s.buf.data) :
    Apart (w.store.areas s.buf.data) s t ∧ Apart (w.store.areas s.buf.data) t s ∧
      Sane (w.store.areas s.buf.data) t := by
  have hback := h.apart b' b t s hne ht hb hdata
  have hsane := h.sane b' t ht
  rw [hdata] at hback hsane
  exact ⟨h.apart b b' s t hne.symm hb ht hdata.symm, hback, hsane⟩

/-- A buffer that moves to an area of its own. -/
theorem setSlotMoved (h : w.Inv) {s s' : Slot} (hb : w.slot b = some s) {p : ℕ} (hs' : s'.buf.data = p) (hp : p ≠ s.buf.data) (hzero : w.refs p = 0)
    (howned : store.Owned (update (update w.refs p 1) s.buf.data
      (w.refs s.buf.data - 1))) {d : Data} (hcount : d.count = (store.areas p).count)
    (hsize : d.size = (store.areas p).size) (hcapacity : d.capacity = (store.areas p).capacity)
    (hsane : Sane d s')
    (hothers : ∀ q ≠ p, ∃ c, store.areas q = { w.store.areas q with count := c }) :
    (w.setSlot b (some s') (store.setArea p d)).Inv := by
  have hne : ∀ b' t, w.slot b' = some t → t.buf.data ≠ p := by
    intro b' t ht heq
    have hpos := refs_pos ht
    rw [heq, hzero] at hpos
    exact absurd hpos (lt_irrefl _)
  have hone : update (update w.refs p 1) s.buf.data (w.refs s.buf.data - 1) p =
      1 := by
    rw [update_of_ne hp, update_self]
  have hlt : p < store.next := howned.lt_next (by rw [hone]; exact Nat.one_pos)
  have hrefs : (w.setSlot b (some s') (store.setArea p d)).refs = update
      (update w.refs p 1) s.buf.data (w.refs s.buf.data - 1) := by
    funext q
    have hq := refs_setSlot hb (some s') (store.setArea p d) q
    have hpos := refs_pos hb
    rw [share_some, hs'] at hq
    rw [update_apply, update_apply]
    by_cases hqs : q = s.buf.data
    · rw [if_pos hqs]
      rw [if_pos hqs.symm, if_neg (fun hpq => hp (hpq.trans hqs)), hqs] at hq
      rw [hqs]
      omega
    · rw [if_neg hqs]
      rw [if_neg (Ne.symm hqs)] at hq
      by_cases hqp : q = p
      · rw [if_pos hqp]
        rw [if_pos hqp.symm, hqp, hzero] at hq
        rw [hqp]
        omega
      · rw [if_neg hqp]
        rw [if_neg (Ne.symm hqp)] at hq
        omega
  refine h.setSlot hb ?_ ?_ (fun b' t _ ht => ?_) fun b' t _ ht htdata => ?_
  · rw [hrefs]
    refine howned.setArea hcount ?_
    rw [hsize, hcapacity]
    exact howned.capacity _ hlt
  · rw [hs', Store.areas_setArea_self]
    exact hsane
  · rw [Store.areas_setArea_of_ne _ _ (hne b' t ht)]
    exact kept_of_count t (hothers _ (hne b' t ht))
  · exact absurd (htdata.trans hs') (hne b' t ht)

/-- **`AddAtStart`.** -/
theorem addAtStart (h : w.Inv) (hb : w.slot b = some s) (n : ℕ) (garbage : ℕ → Octet)
    (hn : s.buf.size + n + 20 ≤ 2 ^ 32) :
    ∃ r, s.buf.addAtStart w.store n garbage = .ok r ∧
      (w.setSlot b (some (s.addedAtStart r.1 n)) r.2).Inv := by
  have hs := h.sane b s hb
  have hlt := h.owned.lt_next (refs_pos hb)
  have hcount := h.owned.count _ hlt
  have hpos := refs_pos hb
  unfold Buffer.addAtStart
  dsimp only
  by_cases hplace : n ≤ s.buf.start ∧ ¬ (1 < (w.store.areas s.buf.data).count ∧
      (w.store.areas s.buf.data).dirtyStart < s.buf.start)
  · have hedge : (w.store.areas s.buf.data).count = 1 ∨
        s.buf.start = (w.store.areas s.buf.data).dirtyStart := by
      have hdirty := hs.dirtyStart
      omega
    rw [if_pos hplace, if_pos hedge]
    refine ⟨_, rfl, ?_⟩
    have hgrown := hs.growAtStart n hplace.1
    refine h.setSlotArea hb rfl rfl rfl rfl hgrown fun b' t hne ht hdata => ?_
    obtain ⟨hst, hts, htsane⟩ := h.apart_both hb ht hne hdata
    rcases hedge with hone | hedge
    · exact absurd hdata (h.ne_of_count_one hb ht hne hone)
    · exact hst.growAtStart hts htsane n hplace.1 hedge
  · rw [if_neg hplace]
    obtain ⟨p, store, hmove, hp, hzero, howned, hsize, hbytes, hothers⟩ :=
      exists_reallocate h.owned hs hpos n n (le_refl _) hn garbage
    rw [hmove]
    refine ⟨_, rfl, ?_⟩
    have hmoved := hs.movedAtStart n p (by omega) hsize hbytes
    exact h.setSlotMoved hb rfl hp hzero howned rfl rfl rfl hmoved hothers

/-- **`AddAtEnd`.** -/
theorem addAtEnd (h : w.Inv) (hb : w.slot b = some s) (n : ℕ) (garbage : ℕ → Octet)
    (hn : s.buf.endPos + n + 20 ≤ 2 ^ 32) :
    ∃ r, s.buf.addAtEnd w.store n garbage = .ok r ∧
      (w.setSlot b (some (s.addedAtEnd r.1 n)) r.2).Inv := by
  have hs := h.sane b s hb
  have hlt := h.owned.lt_next (refs_pos hb)
  have hcount := h.owned.count _ hlt
  have hpos := refs_pos hb
  have hstop : s.buf.stop ≤ s.buf.endPos := Nat.sub_le _ _
  have hsize : s.buf.size ≤ s.buf.endPos := Nat.sub_le _ _
  have hinternal : Word32.add s.buf.getInternalEnd n = s.buf.stop + n := by
    rw [hs.ordered.getInternalEnd_eq]
    exact Word32.add_eq (by omega)
  have hend : Word32.add s.buf.endPos n = s.buf.endPos + n := Word32.add_eq (by omega)
  unfold Buffer.addAtEnd
  dsimp only
  rw [hinternal, hend]
  by_cases hplace : s.buf.stop + n ≤ (w.store.areas s.buf.data).size ∧
      ¬ (1 < (w.store.areas s.buf.data).count ∧
        s.buf.endPos < (w.store.areas s.buf.data).dirtyEnd)
  · have hedge : (w.store.areas s.buf.data).count = 1 ∨
        s.buf.endPos = (w.store.areas s.buf.data).dirtyEnd := by
      have hdirty := hs.dirtyEnd
      omega
    rw [if_pos hplace, if_pos hedge]
    refine ⟨_, rfl, ?_⟩
    have hgrown : s.buf.grownAtEnd n =
        noteMax { s.buf with endPos := s.buf.endPos + n } := by
      unfold grownAtEnd
      rw [hend]
    rw [← hgrown]
    have hsane := hs.growAtEnd n (by omega) hplace.1
    refine h.setSlotArea hb rfl rfl rfl rfl hsane fun b' t hne ht hdata => ?_
    obtain ⟨hst, hts, htsane⟩ := h.apart_both hb ht hne hdata
    rcases hedge with hone | hedge
    · exact absurd hdata (h.ne_of_count_one hb ht hne hone)
    · exact hst.growAtEnd hts htsane hs.ordered n (by omega) hedge
  · rw [if_neg hplace]
    obtain ⟨p, store, hmove, hp, hzero, howned, hlarge, hbytes, hothers⟩ :=
      exists_reallocate h.owned hs hpos n 0 (Nat.zero_le _) (by omega) garbage
    rw [hmove]
    refine ⟨_, rfl, ?_⟩
    have hmoved := hs.movedAtEnd n p (by omega) hlarge hbytes
    exact h.setSlotMoved hb rfl hp hzero howned rfl rfl rfl hmoved hothers

/-- **Writes to fresh bytes.** -/
theorem written (h : w.Inv) (hb : w.slot b = some s) {pos : ℕ} {bs : List Octet}
    {rs : List (Option Octet)} (hfresh : s.Fresh pos bs.length) (hlen : rs.length = bs.length)
    (hrs : ∀ (j : ℕ) (v : Octet), rs[j]? = some (some v) → bs[j]? = some v) {d : Data}
    (hd : (w.store.areas s.buf.data).Overwritten d (s.place pos bs.length) bs) :
    (w.setSlot b (some (s.written pos rs)) (w.store.setArea s.buf.data d)).Inv := by
  have hs := h.sane b s hb
  have hdirty := hd.dirtyEnd.ge
  have hwritten := hs.written hfresh hlen hrs hd
  refine h.setSlotArea hb rfl hd.count hd.size hd.capacity hwritten fun b' t hne ht hdata => ?_
  obtain ⟨hst, hts, htsane⟩ := h.apart_both hb ht hne hdata
  have hst' := hst.kept hs hdirty
  have hts' := hts.kept htsane hdirty
  exact ⟨hst.kept_written hs hfresh hd, { hst' with },
    { hts' with }⟩

end Inv

/-! ## Every operation -/

theorem withSlot_eq (hb : w.slot b = some s) (f : Slot → Except Fault Buffers) :
    w.withSlot b f = f s := by
  unfold withSlot
  rw [hb]

namespace Inv

/-- **`Write` and the like.** -/
theorem write (h : w.Inv) {b : ℕ} {s : Slot} (hb : w.slot b = some s) (pos : ℕ)
    (call : BufferIterator.WriteCall) (hfresh : s.Fresh pos call.bytes.length) :
    ∃ store, (s.buf.iteratorAt pos).write w.store call = .ok store ∧
      (w.setSlot b (some (s.written pos (call.bytes.map some))) store).Inv := by
  have hs := h.sane b s hb
  have hcapacity := h.owned.capacity _ (h.owned.lt_next (refs_pos hb))
  obtain ⟨hallowed, hplace⟩ := hs.write_at pos call hfresh
  obtain ⟨hstop, -, -⟩ := hs.place_bounds hfresh
  obtain ⟨d, hoverwrite, hd⟩ := (w.store.areas s.buf.data).exists_overwrite
    (s.place pos call.bytes.length) call.bytes (Or.inr (hstop.trans (hs.fits.trans hcapacity)))
  refine ⟨w.store.setArea s.buf.data d, ?_, h.written hb hfresh (length_map _) ?_ hd⟩
  · unfold BufferIterator.write
    rw [if_pos hallowed]
    have hplace' : (if call.isBefore (s.buf.iteratorAt pos) then (s.buf.iteratorAt pos).current
        else (s.buf.iteratorAt pos).current - ((s.buf.iteratorAt pos).zeroEnd -
          (s.buf.iteratorAt pos).zeroStart)) = s.place pos call.bytes.length := hplace
    have harea : (s.buf.iteratorAt pos).data = s.buf.data := rfl
    rw [hplace', harea, hoverwrite]
    rfl
  · intro j v hj
    rw [List.getElem?_map, Option.map_eq_some_iff] at hj
    obtain ⟨u, hu, heq⟩ := hj
    rw [hu, Option.some_inj.mp heq]

/-- **`Write (start, end)`**, where no zero area is before the place it writes to. -/
theorem writeFrom (h : w.Inv) {b o : ℕ} {s t : Slot} (hb : w.slot b = some s)
    (ho : w.slot o = some t) {pos start len : ℕ} (hfresh : s.Fresh pos len)
    (hlen : start + len ≤ t.ref.length) (hne : s.buf.data ≠ t.buf.data)
    (hbefore : s.buf.zeroAreaStart = s.buf.zeroAreaEnd ∨ pos + len ≤ s.freshStart) :
    ∃ store, (s.buf.iteratorAt pos).writeFrom w.store (t.buf.iteratorAt start) len = .ok store ∧
      (w.setSlot b (some (s.written pos ((t.ref.drop start).take len))) store).Inv := by
  obtain ⟨d, bs, hwrite, hlength, hd, hbytes⟩ := exists_writeFrom (h.sane b s hb) (h.sane o t ho)
    hne hfresh hlen hbefore (h.owned.capacity _ (h.owned.lt_next (refs_pos hb)))
    (h.owned.capacity _ (h.owned.lt_next (refs_pos ho)))
  subst hlength
  refine ⟨_, hwrite, h.written hb hfresh ?_ hbytes hd⟩
  rw [length_take, length_drop]
  omega

/-- **Every operation goes through and keeps the invariant.** -/
theorem exists_step (h : w.Inv) (c : BufferCall) (henabled : w.Enabled c) (hfits : w.Fits c) :
    ∃ w', w.step c = .ok w' ∧ w'.Inv := by
  replace hfits := hfits.2
  cases c with
  | construct n garbage => exact ⟨_, rfl, h.construct n garbage hfits⟩
  | copy o =>
    obtain ⟨s, ho⟩ := henabled
    exact ⟨_, withSlot_eq ho _, h.copy ho⟩
  | assign b o =>
    obtain ⟨⟨s, hb⟩, t, ho⟩ := henabled
    exact ⟨_, (withSlot_eq hb _).trans (withSlot_eq ho _), h.assign hb ho⟩
  | destroy b =>
    obtain ⟨s, hb⟩ := henabled
    exact ⟨_, withSlot_eq hb _, h.destroy hb⟩
  | createFragment o start length =>
    obtain ⟨-, hlength, s, ho⟩ := henabled
    exact h.createFragment ho start length hlength (hfits s ho)
  | addAtStart b n garbage =>
    obtain ⟨-, s, hb⟩ := henabled
    obtain ⟨r, hadd, hinv⟩ := h.addAtStart hb n garbage (hfits s hb)
    exact ⟨_, (withSlot_eq hb _).trans (congrArg (Except.map _) hadd), hinv⟩
  | addAtEnd b n garbage =>
    obtain ⟨-, s, hb⟩ := henabled
    obtain ⟨r, hadd, hinv⟩ := h.addAtEnd hb n garbage (hfits s hb)
    exact ⟨_, (withSlot_eq hb _).trans (congrArg (Except.map _) hadd), hinv⟩
  | removeAtStart b n =>
    obtain ⟨-, s, hb⟩ := henabled
    obtain ⟨b', hremove, hsane, hwithin⟩ := (h.sane b s hb).removeAtStart n (hfits s hb)
    exact ⟨_, (withSlot_eq hb _).trans (congrArg (Except.map _) hremove),
      h.setWithin hb hsane hwithin⟩
  | removeAtEnd b n =>
    obtain ⟨-, s, hb⟩ := henabled
    obtain ⟨hsane, hwithin⟩ := (h.sane b s hb).removeAtEnd n
    exact ⟨_, withSlot_eq hb _, h.setWithin hb hsane hwithin⟩
  | write b pos call =>
    obtain ⟨s, hb, hfresh⟩ := henabled
    obtain ⟨store, hwrite, hinv⟩ := h.write hb pos call hfresh
    exact ⟨_, (withSlot_eq hb _).trans (congrArg (Except.map _) hwrite), hinv⟩
  | writeFrom b pos o start len =>
    obtain ⟨s, t, hb, ho, hfresh, hlen, hne⟩ := henabled
    obtain ⟨store, hwrite, hinv⟩ := h.writeFrom hb ho hfresh hlen hne (hfits s hb)
    exact ⟨_, ((withSlot_eq hb _).trans (withSlot_eq ho _)).trans
      (congrArg (Except.map _) hwrite), hinv⟩

end Inv

/-- What the invariant says of one buffer. -/
theorem Inv.bufferOk (h : w.Inv) (hb : w.slot b = some s) : w.BufferOk s := by
  have hs := h.sane b s hb
  have hpos := refs_pos hb
  constructor
  · rw [hs.ordered.getSize_eq, hs.shows.1]
  · intro i v hi
    rw [visible_eq]
    exact hs.shows.2 i v hi
  · exact hs.ordered.start_le
  · exact hs.ordered.zero_le
  · exact hs.ordered.le_end
  · exact hs.dirtyStart
  · exact hs.dirtyEnd
  · rw [hs.ordered.getInternalEnd_eq]
    exact hs.fits
  · rw [h.owned.count _ (h.owned.lt_next hpos)]
    exact hpos

/-- Every state that a run reaches keeps the invariant. -/
theorem inv_of_run {is : List BufferCall} (hrun : machine.Run Fits Buffers.start is w) : w.Inv := by
  refine hrun.invariant Inv (fun w c h henabled hfits => ?_) inv_start
  obtain ⟨w', hstep, hinv⟩ := h.exists_step c henabled hfits
  have hstep' : machine.step w c = .ok w' := hstep
  rw [hstep']
  exact hinv

/-- **Buffers are isolated.**  In a run whose steps all fit, each buffer shows the bytes of its own
list, whatever was done to the others, and no operation fails. -/
theorem isolated_of_run (is : List BufferCall) (w : Buffers)
    (hrun : machine.Run Fits Buffers.start is w) : w.Isolated := by
  have hinv := inv_of_run hrun
  refine ⟨fun b s hb => hinv.bufferOk hb, fun c henabled hfits => ?_⟩
  obtain ⟨w', hstep, -⟩ := hinv.exists_step c henabled hfits
  exact ⟨w', hstep⟩

instance (s : Slot) (pos len : ℕ) : Decidable (s.Fresh pos len) :=
  inferInstanceAs (Decidable (_ ∨ _))

instance (w : Buffers) (b : ℕ) (P : Slot → Prop) [DecidablePred P] :
    Decidable (∃ s, w.slot b = some s ∧ P s) :=
  inferInstanceAs (Decidable (∃ s ∈ w.slot b, P s))

instance (w : Buffers) (b : ℕ) (P : Slot → Prop) [DecidablePred P] :
    Decidable (∀ s, w.slot b = some s → P s) :=
  inferInstanceAs (Decidable (∀ s ∈ w.slot b, P s))

instance (w : Buffers) (b : ℕ) : Decidable (∃ s, w.slot b = some s) :=
  decidable_of_iff ((w.slot b).isSome = true) Option.isSome_iff_exists

instance (w : Buffers) (b o : ℕ) (P : Slot → Slot → Prop) [∀ s, DecidablePred (P s)] :
    Decidable (∃ s t, w.slot b = some s ∧ w.slot o = some t ∧ P s t) :=
  decidable_of_iff (∃ s, w.slot b = some s ∧ ∃ t, w.slot o = some t ∧ P s t) <|
    exists_congr fun _ => exists_and_left.symm

instance (w : Buffers) (c : BufferCall) : Decidable (machine.enabled w c) := by
  cases c <;> dsimp only [machine, Enabled] <;> infer_instance

instance (w : Buffers) (c : BufferCall) : Decidable (w.Fits c) := by
  cases c <;> dsimp only [Fits, FitsInArea] <;> infer_instance

/-- A header before a payload of zeroes, a copy of both, and then a header of its own for each,
which share the storage of the first two. -/
def sampleCalls : List BufferCall :=
  [.construct 4 fun _ => 0, .addAtStart 0 2 fun _ => 0, .write 0 0 (.writeHtonU16 0x1234), .copy 0,
    .addAtStart 1 1 fun _ => 0, .write 1 0 (.writeU8 0xaa), .addAtStart 0 1 fun _ => 0,
    .write 0 0 (.writeU8 0xbb), .removeAtEnd 1 5, .addAtEnd 1 1 fun _ => 0,
    .write 1 2 (.writeU8 0xcc), .createFragment 0 2 3, .assign 0 1, .destroy 1]

theorem isolated_of_run_sample : ∃ w, machine.Run Fits Buffers.start sampleCalls w ∧
      w.slots.map (fun o => o.map Slot.ref) =
        [some [some 0xaa, some 0x12, some 0xcc], none, some [some 0x34, some 0, some 0]] ∧
      w.Isolated := by
  obtain ⟨w, hrun, htest⟩ := Machine.exists_run_of_exec (m := machine)
    (fun w c => decide (Fits w c))
    (fun w => decide (w.slots.map (fun o => o.map Slot.ref) =
      [some [some 0xaa, some 0x12, some 0xcc], none, some [some 0x34, some 0, some 0]]))
    Buffers.start sampleCalls (by decide +kernel)
  have hfits := hrun.mono fun w i hi => of_decide_eq_true hi
  exact ⟨w, hfits, of_decide_eq_true htest, isolated_of_run _ w hfits⟩

/-- **The storage is accounted for.**  In a run whose steps all fit, each area counts the buffers
that refer to it, the areas that wait to be used again are distinct and no buffer refers to them,
and each buffer has an area that was allocated and does not wait. -/
theorem accounted_of_run (is : List BufferCall) (w : Buffers)
    (hrun : machine.Run Fits Buffers.start is w) :
    (∀ p < w.store.next, (w.store.areas p).count = w.refs p) ∧ w.store.freeList.Nodup ∧
      (∀ p ∈ w.store.freeList, p < w.store.next ∧ w.refs p = 0) ∧
      ∀ b s, w.slot b = some s → s.buf.data < w.store.next ∧ s.buf.data ∉ w.store.freeList := by
  have howned := (inv_of_run hrun).owned
  refine ⟨howned.count, howned.free_nodup, howned.free, fun b s hb => ?_⟩
  have hpos := refs_pos hb
  exact ⟨howned.lt_next hpos, howned.not_free hpos⟩

theorem accounted_of_run_sample :
    ∃ w, machine.Run Fits Buffers.start sampleCalls w ∧ w.store.freeList = [1] ∧
      w.refs 1 = 0 ∧ (w.store.areas 2).count = w.refs 2 := by
  obtain ⟨w, hrun, htest⟩ := Machine.exists_run_of_exec (m := machine)
    (fun w c => decide (Fits w c))
    (fun w => decide (w.store.freeList = [1] ∧ 2 < w.store.next)) Buffers.start sampleCalls
    (by decide +kernel)
  have hfits := hrun.mono fun w i hi => of_decide_eq_true hi
  obtain ⟨hfree, hnext⟩ := of_decide_eq_true htest
  obtain ⟨hcount, -, hunused, -⟩ := accounted_of_run _ w hfits
  refine ⟨w, hfits, hfree, (hunused 1 ?_).2, hcount 2 hnext⟩
  rw [hfree]
  exact mem_singleton_self 1

/-- A byte is added behind a payload of zeroes, and copied there from another buffer. -/
def misplacingCalls : List BufferCall :=
  [.construct 1 fun _ => 0, .addAtEnd 0 1 fun _ => 0, .construct 0 fun _ => 0,
    .addAtEnd 1 1 fun _ => 0, .write 1 0 (.writeU8 7), .writeFrom 0 1 1 0 1]

/-- Without the condition: the byte is put where no zero area is taken into account, and the
buffer shows what was there before. -/
theorem not_isolated_of_run :
    ¬ ∀ (is : List BufferCall) (w : Buffers), machine.Run (fun _ _ => True) Buffers.start is w →
      ∀ b s, w.slot b = some s → w.BufferOk s := by
  intro hisolated
  obtain ⟨w, hrun, htest⟩ := Machine.exists_run_of_exec (m := machine) (fun _ _ => true)
    (fun w => decide (∃ s, w.slot 0 = some s ∧ s.ref[1]? = some (some 7) ∧
      s.buf.visible w.store 1 ≠ 7)) Buffers.start misplacingCalls (by decide +kernel)
  obtain ⟨s, hs, href, hshown⟩ := of_decide_eq_true htest
  have hok := hisolated _ w (hrun.mono fun _ _ _ => trivial) 0 s hs
  exact hshown (hok.bytes 1 7 href)

end Buffers

end Ns3Dsme.Network
