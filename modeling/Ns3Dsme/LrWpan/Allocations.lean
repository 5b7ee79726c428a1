/-
# Pending GTSs and their allocations

`ScheduleGts` schedules a `StartGTS` that names an entry of the allocation counter table by its
superframe ID and its index in a vector, and `StartGTS` schedules itself again.  The events
keep to their entries as long as the vectors do not move under them: `PurgeDsmeACT` erases
entries without looking at the events, and an entry that is deallocated keeps its event.

The first half is about tables and lists of pending starts alone.  The second half says which
of its operations each handler of the device carries out.
-/
import Ns3Dsme.LrWpan.Footprint
import Mathlib.Data.List.Nodup

open List Program Program.Views

namespace Ns3Dsme

open Mac

/-! ## Pending starts -/

/-- A pending `StartGTS`: the entry it names, and the allocation it was scheduled for. -/
structure GtsStart where
  superframeID : ℕ
  idx : ℕ
  alloc : ℕ
  deriving DecidableEq, Repr

/-- The start of a GTS that an event stands for. -/
def MacEvent.gtsStart : MacEvent → Option GtsStart
  | .startGTS _ superframeID idx alloc => some ⟨superframeID, idx, alloc⟩
  | _ => none

/-- The pending starts of GTSs. -/
def Sim.gtsStarts (sim : Sim) : List GtsStart :=
  (sim.eventsOf MacEvent.isStartGTS).filterMap fun x => x.1.gtsStart

namespace Allocations

/-- The number of pending starts for one allocation. -/
def chains (gs : List GtsStart) (alloc : ℕ) : ℕ := gs.countP fun g => g.alloc = alloc

theorem chains_append (gs gs' : List GtsStart) (alloc : ℕ) :
    chains (gs ++ gs') alloc = chains gs alloc + chains gs' alloc :=
  countP_append

theorem chains_cons (g : GtsStart) (gs : List GtsStart) (alloc : ℕ) :
    chains (g :: gs) alloc = chains gs alloc + if g.alloc = alloc then 1 else 0 := by
  unfold chains
  rw [countP_cons]
  simp

/-- An allocation without a pending start. -/
theorem chains_eq_zero (gs : List GtsStart) (alloc : ℕ) (h : ∀ g ∈ gs, g.alloc ≠ alloc) :
    chains gs alloc = 0 :=
  countP_eq_zero.mpr fun g hg => by simpa using h g hg

theorem ne_of_chains_eq_zero {gs : List GtsStart} {alloc : ℕ} (h : chains gs alloc = 0)
    (g : GtsStart) (hg : g ∈ gs) : g.alloc ≠ alloc := by
  simpa using countP_eq_zero.mp h g hg

/-! ## Tables and their pending starts -/

/-- Every pending start refers to the entry it was scheduled for, at a valid index; every live
allocated entry has exactly one, and a deallocated entry has none. -/
structure Refers (t : ActTable) (gs : List GtsStart) : Prop where
  entry : ∀ g ∈ gs, ∃ e, t.lookup g.superframeID g.idx = some e ∧ e.alloc = g.alloc
  live : ∀ k i e, t.lookup k i = some e → e.allocated = true → e.deallocated = false →
    e.expired = false → chains gs e.alloc = 1
  deallocated : ∀ k i e, t.lookup k i = some e → e.deallocated = true → chains gs e.alloc = 0

/-- What keeps the pending starts and the table together; the next entry will be allocation
number `n`. -/
structure Ledger (t : ActTable) (gs : List GtsStart) (n : ℕ) : Prop extends Refers t gs where
  unallocated : ∀ k i e, t.lookup k i = some e → e.allocated = false → chains gs e.alloc = 0
  key : ∀ k i e, t.lookup k i = some e → e.superframeID = k
  alloc_lt : ∀ k i e, t.lookup k i = some e → e.alloc < n
  unique : ∀ k i e k' i' e', t.lookup k i = some e → t.lookup k' i' = some e' →
    e.alloc = e'.alloc → k = k' ∧ i = i'

section Ledger

variable {t : ActTable} {gs : List GtsStart} {n : ℕ}

/-- The order of the pending starts does not matter. -/
theorem Ledger.perm {gs' : List GtsStart} (h : Ledger t gs n) (hperm : gs.Perm gs') :
    Ledger t gs' n := by
  have hchains (alloc : ℕ) : chains gs' alloc = chains gs alloc := (hperm.countP_eq _).symm
  refine { entry := fun g hg => h.entry g (hperm.mem_iff.mpr hg), key := h.key,
           alloc_lt := h.alloc_lt, unique := h.unique, live := ?_, deallocated := ?_,
           unallocated := ?_ }
  · intro k i e he hallocated hdeallocated hexpired
    rw [hchains]
    exact h.live k i e he hallocated hdeallocated hexpired
  · intro k i e he hdeallocated
    rw [hchains]
    exact h.deallocated k i e he hdeallocated
  · intro k i e he hallocated
    rw [hchains]
    exact h.unallocated k i e he hallocated

/-- An entry that is added gets a number of its own. -/
theorem Ledger.pushBack (h : Ledger t gs n) (k : ℕ) (e : MacDSMEACTEntity)
    (hkey : e.superframeID = k) (hallocated : e.allocated = false) (halloc : e.alloc = n) :
    Ledger (t.pushBack k e) gs (n + 1) := by
  have hold (k' i' : ℕ) (e' : MacDSMEACTEntity) (he : (t.pushBack k e).lookup k' i' = some e') :
      (k' = k ∧ i' = (t.row k).length ∧ e' = e) ∨ t.lookup k' i' = some e' := by
    rw [ActTable.lookup_pushBack] at he
    split at he
    · rename_i hnew
      exact .inl ⟨hnew.1, hnew.2, (Option.some.inj he).symm⟩
    · exact .inr he
  have hnone : chains gs e.alloc = 0 := by
    refine chains_eq_zero gs _ fun g hg heq => ?_
    obtain ⟨e', he', halloc'⟩ := h.entry g hg
    have hlt := h.alloc_lt _ _ _ he'
    omega
  refine { entry := ?_, live := ?_, deallocated := ?_, unallocated := ?_, key := ?_,
           alloc_lt := ?_, unique := ?_ }
  · intro g hg
    obtain ⟨e', he', halloc'⟩ := h.entry g hg
    refine ⟨e', ?_, halloc'⟩
    have hlt : g.idx < (t.row g.superframeID).length := (List.getElem?_eq_some_iff.mp he').1
    rw [ActTable.lookup_pushBack, if_neg, he']
    rintro ⟨hk, hi⟩
    rw [hk] at hlt
    omega
  · intro k' i' e' he hallocated' hdeallocated hexpired
    rcases hold k' i' e' he with ⟨-, -, rfl⟩ | he
    · rw [hallocated] at hallocated'
      cases hallocated'
    · exact h.live k' i' e' he hallocated' hdeallocated hexpired
  · intro k' i' e' he hdeallocated
    rcases hold k' i' e' he with ⟨-, -, rfl⟩ | he
    · exact hnone
    · exact h.deallocated k' i' e' he hdeallocated
  · intro k' i' e' he hallocated'
    rcases hold k' i' e' he with ⟨-, -, rfl⟩ | he
    · exact hnone
    · exact h.unallocated k' i' e' he hallocated'
  · intro k' i' e' he
    rcases hold k' i' e' he with ⟨rfl, -, rfl⟩ | he
    · exact hkey
    · exact h.key k' i' e' he
  · intro k' i' e' he
    rcases hold k' i' e' he with ⟨-, -, rfl⟩ | he
    · omega
    · have hlt := h.alloc_lt k' i' e' he
      omega
  · intro k₁ i₁ e₁ k₂ i₂ e₂ he₁ he₂ heq
    rcases hold k₁ i₁ e₁ he₁ with ⟨rfl, rfl, rfl⟩ | h₁
    · rcases hold k₂ i₂ e₂ he₂ with ⟨rfl, rfl, -⟩ | h₂
      · exact ⟨rfl, rfl⟩
      · have hlt := h.alloc_lt k₂ i₂ e₂ h₂
        omega
    · rcases hold k₂ i₂ e₂ he₂ with ⟨rfl, rfl, rfl⟩ | h₂
      · have hlt := h.alloc_lt k₁ i₁ e₁ h₁
        omega
      · exact h.unique k₁ i₁ e₁ k₂ i₂ e₂ h₁ h₂ heq

/-- An entry of the table after an assignment to one of its entries. -/
theorem lookup_modify_eq_some {k i k' i' : ℕ} {f : MacDSMEACTEntity → MacDSMEACTEntity}
    {e' : MacDSMEACTEntity} (h : (t.modify k i f).lookup k' i' = some e') :
    ∃ e, t.lookup k' i' = some e ∧ ((k' = k ∧ i' = i ∧ e' = f e) ∨ e' = e) := by
  rw [ActTable.lookup_modify] at h
  split at h
  · rename_i hpos
    obtain ⟨e, he, rfl⟩ := Option.map_eq_some_iff.mp h
    exact ⟨e, he, .inl ⟨hpos.1, hpos.2, rfl⟩⟩
  · exact ⟨e', h, .inr rfl⟩

/-- An assignment that leaves the allocation and the superframe ID of the entry alone keeps the
ledger, if the pending starts suit the new flags. -/
theorem Ledger.modify (h : Ledger t gs n) (k i : ℕ) (f : MacDSMEACTEntity → MacDSMEACTEntity)
    (halloc : ∀ e, (f e).alloc = e.alloc) (hsuperframeID : ∀ e, (f e).superframeID = e.superframeID)
    (gs' : List GtsStart)
    (hentry : ∀ g ∈ gs', ∃ e, t.lookup g.superframeID g.idx = some e ∧ e.alloc = g.alloc)
    (hothers : ∀ k' i' e, t.lookup k' i' = some e → ¬ (k' = k ∧ i' = i) →
      chains gs' e.alloc = chains gs e.alloc)
    (hlive : ∀ e, t.lookup k i = some e → (f e).allocated = true → (f e).deallocated = false →
      (f e).expired = false → chains gs' e.alloc = 1)
    (hdeallocated : ∀ e, t.lookup k i = some e → (f e).deallocated = true →
      chains gs' e.alloc = 0)
    (hunallocated : ∀ e, t.lookup k i = some e → (f e).allocated = false →
      chains gs' e.alloc = 0) : Ledger (t.modify k i f) gs' n := by
  have hold (k' i' : ℕ) (e' : MacDSMEACTEntity) (he : (t.modify k i f).lookup k' i' = some e') :
      ∃ e, t.lookup k' i' = some e ∧ e'.alloc = e.alloc ∧ e'.superframeID = e.superframeID
        ∧ ((k' = k ∧ i' = i ∧ e' = f e) ∨ (¬ (k' = k ∧ i' = i) ∧ e' = e)) := by
    obtain ⟨e, he₀, hcase⟩ := lookup_modify_eq_some he
    rw [ActTable.lookup_modify] at he
    by_cases hpos : k' = k ∧ i' = i
    · rw [if_pos hpos, he₀] at he
      obtain rfl : f e = e' := Option.some.inj he
      exact ⟨e, he₀, halloc e, hsuperframeID e, .inl ⟨hpos.1, hpos.2, rfl⟩⟩
    · rw [if_neg hpos, he₀] at he
      obtain rfl : e = e' := Option.some.inj he
      exact ⟨e, he₀, rfl, rfl, .inr ⟨hpos, rfl⟩⟩
  refine { entry := ?_, live := ?_, deallocated := ?_, unallocated := ?_, key := ?_,
           alloc_lt := ?_, unique := ?_ }
  · intro g hg
    obtain ⟨e, he, hg⟩ := hentry g hg
    rw [ActTable.lookup_modify]
    split
    · exact ⟨f e, by rw [he]; rfl, (halloc e).trans hg⟩
    · exact ⟨e, he, hg⟩
  · intro k' i' e' he' h₁ h₂ h₃
    obtain ⟨e, he, ha, -, ⟨rfl, rfl, rfl⟩ | ⟨hpos, rfl⟩⟩ := hold k' i' e' he'
    · rw [ha]
      exact hlive e he h₁ h₂ h₃
    · rw [hothers k' i' e' he hpos]
      exact h.live k' i' e' he h₁ h₂ h₃
  · intro k' i' e' he' h₁
    obtain ⟨e, he, ha, -, ⟨rfl, rfl, rfl⟩ | ⟨hpos, rfl⟩⟩ := hold k' i' e' he'
    · rw [ha]
      exact hdeallocated e he h₁
    · rw [hothers k' i' e' he hpos]
      exact h.deallocated k' i' e' he h₁
  · intro k' i' e' he' h₁
    obtain ⟨e, he, ha, -, ⟨rfl, rfl, rfl⟩ | ⟨hpos, rfl⟩⟩ := hold k' i' e' he'
    · rw [ha]
      exact hunallocated e he h₁
    · rw [hothers k' i' e' he hpos]
      exact h.unallocated k' i' e' he h₁
  · intro k' i' e' he'
    obtain ⟨e, he, -, hs, -⟩ := hold k' i' e' he'
    rw [hs]
    exact h.key k' i' e he
  · intro k' i' e' he'
    obtain ⟨e, he, ha, -, -⟩ := hold k' i' e' he'
    rw [ha]
    exact h.alloc_lt k' i' e he
  · intro k₁ i₁ e₁ k₂ i₂ e₂ he₁ he₂ heq
    obtain ⟨e, he, ha, -, -⟩ := hold k₁ i₁ e₁ he₁
    obtain ⟨e', he', ha', -, -⟩ := hold k₂ i₂ e₂ he₂
    rw [ha, ha'] at heq
    exact h.unique k₁ i₁ e k₂ i₂ e' he he' heq

/-- An assignment to fields that the ledger does not look at. -/
theorem Ledger.modify_same (h : Ledger t gs n) (k i : ℕ) (f : MacDSMEACTEntity → MacDSMEACTEntity)
    (halloc : ∀ e, (f e).alloc = e.alloc) (hsuperframeID : ∀ e, (f e).superframeID = e.superframeID)
    (hallocated : ∀ e, (f e).allocated = e.allocated)
    (hdeallocated : ∀ e, (f e).deallocated = e.deallocated)
    (hexpired : ∀ e, (f e).expired = false → e.expired = false) :
    Ledger (t.modify k i f) gs n := by
  refine h.modify k i f halloc hsuperframeID gs h.entry (fun _ _ _ _ _ => rfl) ?_ ?_ ?_
  · intro e he h₁ h₂ h₃
    rw [hallocated] at h₁
    rw [hdeallocated] at h₂
    exact h.live k i e he h₁ h₂ (hexpired e h₃)
  · intro e he h₁
    rw [hdeallocated] at h₁
    exact h.deallocated k i e he h₁
  · intro e he h₁
    rw [hallocated] at h₁
    exact h.unallocated k i e he h₁

/-- Deallocating an entry that has no pending start. -/
theorem Ledger.deallocate (h : Ledger t gs n) (k i : ℕ)
    (hnone : ∀ g ∈ gs, ¬ (g.superframeID = k ∧ g.idx = i)) :
    Ledger (t.modify k i ({ · with deallocated := true })) gs n := by
  have hchains (e : MacDSMEACTEntity) (he : t.lookup k i = some e) : chains gs e.alloc = 0 := by
    refine chains_eq_zero gs _ fun g hg heq => hnone g hg ?_
    obtain ⟨e', he', halloc⟩ := h.entry g hg
    exact h.unique _ _ _ _ _ _ he' he (halloc.trans heq)
  refine h.modify k i ({ · with deallocated := true }) (fun _ => rfl) (fun _ => rfl) gs h.entry
    (fun _ _ _ _ _ => rfl) ?_ ?_ ?_
  · intro e he h₁ h₂
    cases h₂
  · intro e he _
    exact hchains e he
  · intro e he _
    exact hchains e he

/-- Scheduling an entry that is not allocated yet. -/
theorem Ledger.schedule (h : Ledger t gs n) (k i : ℕ) (e : MacDSMEACTEntity)
    (he : t.lookup k i = some e) (hallocated : e.allocated = false)
    (hdeallocated : e.deallocated = false) :
    Ledger (t.modify k i ({ · with allocated := true })) (gs ++ [⟨e.superframeID, i, e.alloc⟩])
      n := by
  have hkey : e.superframeID = k := h.key k i e he
  have hnone : chains gs e.alloc = 0 := h.unallocated k i e he hallocated
  have hone (alloc : ℕ) : chains (gs ++ [⟨e.superframeID, i, e.alloc⟩]) alloc
      = chains gs alloc + if e.alloc = alloc then 1 else 0 := by
    rw [chains_append, chains_cons]
    simp [chains]
  refine h.modify k i ({ · with allocated := true }) (fun _ => rfl) (fun _ => rfl) _ ?_ ?_ ?_ ?_ ?_
  · intro g hg
    rcases mem_append.mp hg with hg | hg
    · exact h.entry g hg
    · obtain rfl := mem_singleton.mp hg
      exact ⟨e, by rw [hkey]; exact he, rfl⟩
  · intro k' i' e' he' hpos
    rw [hone, if_neg]
    · rfl
    · intro heq
      obtain ⟨rfl, rfl⟩ := h.unique k i e k' i' e' he he' heq
      exact hpos ⟨rfl, rfl⟩
  · intro e' he' _ _ _
    obtain rfl : e = e' := Option.some.inj (he.symm.trans he')
    rw [hone, if_pos rfl, hnone]
  · intro e' he' h₁
    obtain rfl : e = e' := Option.some.inj (he.symm.trans he')
    rw [show e.deallocated = true from h₁] at hdeallocated
    cases hdeallocated
  · intro e' he' h₁
    cases h₁

/-- The pending start of an expired entry runs out. -/
theorem Ledger.runOut {g : GtsStart} (h : Ledger t (g :: gs) n) (e : MacDSMEACTEntity)
    (he : t.lookup g.superframeID g.idx = some e) (halloc : e.alloc = g.alloc)
    (hexpired : e.expired = true) : Ledger t gs n := by
  have hle (alloc : ℕ) : chains gs alloc ≤ chains (g :: gs) alloc := by
    rw [chains_cons]
    omega
  refine { entry := fun g' hg' => h.entry g' (mem_cons_of_mem _ hg'), key := h.key,
           alloc_lt := h.alloc_lt, unique := h.unique, live := ?_, deallocated := ?_,
           unallocated := ?_ }
  · intro k i e' he' h₁ h₂ h₃
    have hone := h.live k i e' he' h₁ h₂ h₃
    rw [chains_cons, if_neg] at hone
    · exact hone
    · intro heq
      obtain ⟨rfl, rfl⟩ := h.unique _ _ _ _ _ _ he he' (halloc.trans heq)
      obtain rfl : e = e' := Option.some.inj (he.symm.trans he')
      rw [hexpired] at h₃
      cases h₃
  · intro k i e' he' h₁
    have hzero := h.deallocated k i e' he' h₁
    have hle := hle e'.alloc
    omega
  · intro k i e' he' h₁
    have hzero := h.unallocated k i e' he' h₁
    have hle := hle e'.alloc
    omega

/-! ## Purging -/

/-- Purging keeps some of the entries, in their order. -/
theorem sublist_purgeRow (es : List MacDSMEACTEntity) : (purgeRow es).Sublist es := by
  fun_induction purgeRow es with
  | case1 => exact List.Sublist.refl []
  | case2 e he => exact nil_sublist _
  | case3 e he e' es' ih => exact (ih.cons_cons e').cons e
  | case4 e es he ih => exact ih.cons_cons e

/-- In front of the first deallocated entry nothing moves. -/
theorem purgeRow_getElem? (es : List MacDSMEACTEntity) (j : ℕ)
    (h : ∀ i ≤ j, ∀ e, es[i]? = some e → e.deallocated = false) :
    (purgeRow es)[j]? = es[j]? := by
  induction es generalizing j with
  | nil => rfl
  | cons e es ih =>
    have he : e.deallocated = false := h 0 (by omega) e rfl
    have hcons : purgeRow (e :: es) = e :: purgeRow es := by
      conv_lhs => unfold purgeRow
      simp [he]
    rw [hcons]
    cases j with
    | zero => rfl
    | succ j =>
      rw [List.getElem?_cons_succ, List.getElem?_cons_succ]
      exact ih j fun i hi e' he' => h (i + 1) (by omega) e' he'

/-- No pending start names an entry behind a deallocated one of its row. -/
def PurgeSafe (t : ActTable) (gs : List GtsStart) : Prop :=
  ∀ g ∈ gs, ∀ i < g.idx, ∀ e, t.lookup g.superframeID i = some e → e.deallocated = false

/-- An entry that is still there after purging. -/
theorem lookup_of_lookup_purge {k i : ℕ} {e : MacDSMEACTEntity}
    (h : (t.mapRows purgeRow purgeRow_nil).lookup k i = some e) : ∃ j, t.lookup k j = some e := by
  have hmem : e ∈ purgeRow (t.row k) := mem_of_getElem? h
  exact mem_iff_getElem?.mp ((sublist_purgeRow _).mem hmem)

/-- The allocation numbers of one row are distinct. -/
theorem Ledger.nodup_row (h : Ledger t gs n) (k : ℕ) :
    ((t.row k).map MacDSMEACTEntity.alloc).Nodup := by
  rw [nodup_iff_injective_get]
  rintro ⟨i, hi⟩ ⟨j, hj⟩ heq
  have hi' : i < (t.row k).length := by rwa [length_map] at hi
  have hj' : j < (t.row k).length := by rwa [length_map] at hj
  have hmap : (t.row k)[i].alloc = (t.row k)[j].alloc := by simpa using heq
  obtain ⟨-, hij⟩ := h.unique k i _ k j _ (List.getElem?_eq_getElem hi')
    (List.getElem?_eq_getElem hj') hmap
  exact Fin.ext hij

/-- Purging keeps the ledger when no pending start names an entry that moves. -/
theorem Ledger.purge (h : Ledger t gs n) (hsafe : PurgeSafe t gs) :
    Ledger (t.mapRows purgeRow purgeRow_nil) gs n := by
  refine { entry := ?_, live := ?_, deallocated := ?_, unallocated := ?_, key := ?_,
           alloc_lt := ?_, unique := ?_ }
  · intro g hg
    obtain ⟨e, he, halloc⟩ := h.entry g hg
    refine ⟨e, ?_, halloc⟩
    show (purgeRow (t.row g.superframeID))[g.idx]? = some e
    rw [purgeRow_getElem?]
    · exact he
    · intro i hi e' he'
      rcases Nat.lt_or_eq_of_le hi with hlt | rfl
      · exact hsafe g hg i hlt e' he'
      · obtain rfl : e = e' := Option.some.inj (he.symm.trans he')
        by_contra hdeallocated
        have hzero := h.deallocated _ _ e he (by simpa using hdeallocated)
        exact ne_of_chains_eq_zero hzero g hg halloc.symm
  · intro k i e he
    obtain ⟨j, hj⟩ := lookup_of_lookup_purge he
    exact h.live k j e hj
  · intro k i e he
    obtain ⟨j, hj⟩ := lookup_of_lookup_purge he
    exact h.deallocated k j e hj
  · intro k i e he
    obtain ⟨j, hj⟩ := lookup_of_lookup_purge he
    exact h.unallocated k j e hj
  · intro k i e he
    obtain ⟨j, hj⟩ := lookup_of_lookup_purge he
    exact h.key k j e hj
  · intro k i e he
    obtain ⟨j, hj⟩ := lookup_of_lookup_purge he
    exact h.alloc_lt k j e hj
  · intro k i e k' i' e' he he' heq
    obtain ⟨j, hj⟩ := lookup_of_lookup_purge he
    obtain ⟨j', hj'⟩ := lookup_of_lookup_purge he'
    obtain ⟨rfl, -⟩ := h.unique k j e k' j' e' hj hj' heq
    refine ⟨rfl, ?_⟩
    have hnodup : ((purgeRow (t.row k)).map MacDSMEACTEntity.alloc).Nodup :=
      (h.nodup_row k).sublist ((sublist_purgeRow _).map _)
    obtain ⟨hi, hie⟩ := List.getElem?_eq_some_iff.mp he
    obtain ⟨hi', hie'⟩ := List.getElem?_eq_some_iff.mp he'
    have hlt : i < ((purgeRow (t.row k)).map MacDSMEACTEntity.alloc).length := by
      rw [length_map]
      exact hi
    have hlt' : i' < ((purgeRow (t.row k)).map MacDSMEACTEntity.alloc).length := by
      rw [length_map]
      exact hi'
    have hmap : ((purgeRow (t.row k)).map MacDSMEACTEntity.alloc)[i]
        = ((purgeRow (t.row k)).map MacDSMEACTEntity.alloc)[i'] := by
      rw [getElem_map, getElem_map]
      exact (congrArg _ hie).trans (heq.trans (congrArg _ hie').symm)
    exact hnodup.getElem_inj_iff.mp hmap

end Ledger

/-! ## The handlers -/

/-- The table of the device and its pending starts fit together. -/
def Inv (s : Mac) : Prop := Ledger s.gts.macDsmeACT s.sim.gtsStarts s.gts.nextAlloc

variable {touched : List View} (s : Mac) (params : MlmeStartRequestParams) (p : Packet)

theorem inv_of_keeps {s t : Mac} (h : views.Keeps touched s t)
    (htouched : View.allocation ∉ touched) (hs : Inv s) : Inv t := by
  obtain ⟨hact, halloc, hstart⟩ := h .allocation htouched
  unfold Inv Sim.gtsStarts
  rw [hact, halloc, hstart]
  exact hs

/-- A program that leaves the allocations alone keeps the invariant. -/
theorem inv_of_post {s : Mac} {x : Exec Mac} (hx : Post x (views.Keeps touched s))
    (htouched : View.allocation ∉ touched) (hs : Inv s) :
    Post x Inv :=
  hx.imp fun _ ht => inv_of_keeps ht htouched hs

theorem inv_addDsmeACTEntity (k : ℕ) (e : MacDSMEACTEntity) (hkey : e.superframeID = k)
    (hallocated : e.allocated = false) (hs : Inv s) :
    Post (s.addDsmeACTEntity k e) Inv := by
  unfold addDsmeACTEntity
  refine post_bind fun n _ => ?_
  split
  · trivial
  · split
    · trivial
    · exact Ledger.pushBack hs k { e with alloc := s.gts.nextAlloc } hkey hallocated rfl

/-- The pending starts after one more event is scheduled. -/
theorem gtsStarts_post (sim : Sim) (m : Member) (event : MacEvent) (delay : ℤ)
    (h : m.mayHold event = true) :
    (sim.post m event delay h).gtsStarts = sim.gtsStarts ++ event.gtsStart.toList := by
  unfold Sim.gtsStarts
  rw [Sim.eventsOf_post, filterMap_append]
  cases event <;> rfl

/-- The pending starts when an event is taken out. -/
theorem gtsStarts_take (sim sim' : Sim) (i : ℕ) (e : Scheduled) (h : sim.take i = some (e, sim')) :
    sim.gtsStarts.Perm (e.event.gtsStart.toList ++ sim'.gtsStarts) := by
  have hperm := (Sim.eventsOf_take sim sim' i e MacEvent.isStartGTS h).filterMap
    fun x => x.1.gtsStart
  rw [filterMap_append] at hperm
  unfold Sim.gtsStarts
  refine hperm.trans ?_
  cases e.event <;> exact List.Perm.refl _

/-- No entry that `ScheduleGts` would schedule is deallocated. -/
def ScheduleSafe (t : ActTable) : Prop :=
  ∀ k i e, t.lookup k i = some e → e.allocated = false → e.deallocated = false

theorem inv_scheduleEntry (pos : ℕ × ℕ) (hs : Inv s) (hsafe : ScheduleSafe s.gts.macDsmeACT) :
    Post (s.scheduleEntry pos) fun t => Inv t ∧ ScheduleSafe t.gts.macDsmeACT := by
  unfold scheduleEntry
  split
  · exact ⟨hs, hsafe⟩
  · rename_i e he
    split
    · exact ⟨hs, hsafe⟩
    · rename_i hallocated
      have hallocated : e.allocated = false := by simpa using hallocated
      unfold schedule
      split
      · trivial
      · refine (wp_bind _ _ _ _).mpr ((wp_ok _ _ _).mpr ?_)
        split
        · have hmay : Member.gtsSchedulingEvent.mayHold
              (.startGTS e.superframeType e.superframeID pos.2 e.alloc) = true := rfl
          refine ⟨?_, ?_⟩
          · show Ledger _ (s.sim.post _ _ (s.startGtsTime e) hmay).gtsStarts _
            rw [gtsStarts_post]
            exact Ledger.schedule hs pos.1 pos.2 e he hallocated (hsafe _ _ _ he hallocated)
          · intro k i e' he' hallocated'
            obtain ⟨e₀, he₀, ⟨rfl, rfl, rfl⟩ | rfl⟩ := lookup_modify_eq_some he'
            · cases hallocated'
            · exact hsafe k i e' he₀ hallocated'
        · trivial

theorem inv_scheduleGts (indication : Bool) (hs : Inv s)
    (hsafe : s.role.panCoor = false → ScheduleSafe s.gts.macDsmeACT) :
    Post (s.scheduleGts indication) Inv := by
  unfold scheduleGts
  split
  · exact hs
  · split
    · exact hs
    · rename_i hpan
      have hloop := wp_foldlM (fun t => Inv t ∧ ScheduleSafe t.gts.macDsmeACT) (fun _ => True)
        scheduleEntry s.gts.macDsmeACT.positions
        (fun t pos _ ht => inv_scheduleEntry t pos ht.1 ht.2) s
        ⟨hs, hsafe (by simpa using hpan)⟩
      exact hloop.imp fun t ht => ht.1

theorem inv_scheduleGtsInMac (indication : Bool) (hs : Inv s)
    (hsafe : s.role.panCoor = false → ScheduleSafe s.gts.macDsmeACT) :
    Post (s.scheduleGtsInMac indication) Inv := by
  unfold scheduleGtsInMac
  split
  · exact hs
  · exact inv_scheduleGts s indication hs hsafe

theorem inv_purgeDsmeACT (hs : Inv s) (hsafe : PurgeSafe s.gts.macDsmeACT s.sim.gtsStarts) :
    Inv s.purgeDsmeACT :=
  Ledger.purge hs hsafe

/-- A `StartGTS` that runs either schedules itself again or ends its chain for good. -/
theorem inv_startGTS (superframeType : SuperframeType) (k i alloc : ℕ)
    (hs : Ledger s.gts.macDsmeACT (⟨k, i, alloc⟩ :: s.sim.gtsStarts) s.gts.nextAlloc) :
    Post (s.startGTS superframeType k i alloc) Inv := by
  obtain ⟨e, he, halloc⟩ := hs.entry ⟨k, i, alloc⟩ (by simp)
  have hpending : chains (⟨k, i, alloc⟩ :: s.sim.gtsStarts) e.alloc ≠ 0 := by
    rw [chains_cons, if_pos halloc.symm]
    omega
  have hdeallocated : e.deallocated = false := by
    by_contra h
    exact hpending (hs.deallocated k i e he (by simpa using h))
  have hallocated : e.allocated = true := by
    by_contra h
    exact hpending (hs.unallocated k i e he (by simpa using h))
  have hkey : e.superframeID = k := hs.key k i e he
  unfold startGTS
  rw [show s.gts.macDsmeACT.lookup k i = some e from he]
  dsimp only
  rw [if_neg (by simp [hdeallocated])]
  split
  · rename_i hexpired
    exact hs.runOut e he halloc hexpired
  · have hnext : Inv ((s.enterGTS k i e).scheduleNextGTS i alloc e) := by
      unfold scheduleNextGTS
      rw [if_pos hallocated]
      have hmay : Member.gtsSchedulingEvent.mayHold
          (.startGTS e.superframeType e.superframeID i alloc) = true := rfl
      show Ledger _ (s.sim.post _ _ (symbols (s.enterGTS k i e).gtsPeriod) hmay).gtsStarts _
      rw [gtsStarts_post, hkey]
      exact hs.perm (perm_append_singleton _ _).symm
    apply wp_of_bind
    refine (inv_of_post (touches_scheduleEndGTS _ superframeType e).post (by simp) hnext).imp
      fun t ht => ?_
    exact inv_of_post (touches_enteredGTS t k i e).post (by simp) ht

/-- What a beacon that is sent or received does to the table is safe. -/
def BeaconSafe (s : Mac) : Prop :=
  PurgeSafe s.gts.macDsmeACT s.sim.gtsStarts
    ∧ (s.role.panCoor = false → ScheduleSafe (s.gts.macDsmeACT.mapRows purgeRow purgeRow_nil))

theorem beaconSafe_of_keeps {s t : Mac} (h : views.Keeps touched s t)
    (hallocation : View.allocation ∉ touched) (hpanCoor : View.panCoor ∉ touched)
    (hs : BeaconSafe s) : BeaconSafe t := by
  obtain ⟨hact, -, hstart⟩ := h .allocation hallocation
  have hpan : t.role.panCoor = s.role.panCoor := h .panCoor hpanCoor
  unfold BeaconSafe Sim.gtsStarts
  rw [hact, hstart, hpan]
  exact hs

theorem inv_beaconSent (hs : Inv s) (hsafe : BeaconSafe s) :
    Post (s.beaconSent p) Inv := by
  unfold beaconSent
  refine (inv_scheduleGtsInMac _ _ ?_ hsafe.2).bind fun t ht => ?_
  · exact inv_purgeDsmeACT { s with out := { s.out with macBeaconTxTime := _ } } hs hsafe.1
  · refine (touches_startOutgoingSuperframe t).post.bind fun u hu => ?_
    exact inv_of_keeps (keeps_confirmStart u true) (by simp) (inv_of_keeps hu (by simp) ht)

theorem inv_frameSent (hs : Inv s) (hsafe : p.hdr.isBeacon = true → BeaconSafe s) :
    Post (s.frameSent p) Inv := by
  cases hbeacon : p.hdr.isBeacon with
  | false => exact inv_of_post (post_frameSent_of_not_beacon s p hbeacon) (by simp) hs
  | true =>
    have hend (t : Mac) (ht : Inv t) : Inv ((t.setTxPkt none).endPdDataConfirm (ifsSize p)) :=
      inv_of_keeps (keeps_beaconEnd t p) (by simp) ht
    unfold frameSent
    rw [if_pos hbeacon]
    split
    · exact inv_of_keeps ((keeps_groupAckSent s p).trans (keeps_endPdDataConfirm _ 0)) (by simp) hs
    · split
      · refine (inv_beaconSent s p hs (hsafe hbeacon)).bind fun t ht => ?_
        exact hend t ht
      · exact hend s hs

theorem inv_endTx (hs : Inv s)
    (hsafe : s.phy.endTx = some .phySuccess → ∀ p, s.tx.txPkt = some p → p.hdr.isBeacon = true →
      BeaconSafe s) : Post s.endTx Inv := by
  unfold endTx
  split
  · rename_i status hend
    by_cases hstatus : status = .phySuccess
    · unfold pdDataConfirm
      split
      · trivial
      · split
        · trivial
        · rename_i p hp
          have hsent : BeaconSafe s → BeaconSafe (s.emit (.pdDataSuccess p)) := fun h => h
          refine inv_frameSent _ p hs fun hbeacon => hsent ?_
          exact hsafe (hend.trans (congrArg some hstatus)) p hp hbeacon
    · exact inv_of_post (touches_pdDataConfirm_failure s status hstatus).post (by simp) hs
  · exact hs

/-! ## Receiving -/

theorem inv_receiveOwnPanBeacon (spec : SuperframeField) (beaconTimeStamp : BitVec 64) (hs : Inv s)
    (hsafe : BeaconSafe s) :
    Post (s.receiveOwnPanBeacon p spec beaconTimeStamp) Inv := by
  unfold receiveOwnPanBeacon
  have hspec : views.Keeps [.contention] s (s.csmaCancel.receiveSuperframe spec) :=
    (keeps_csmaCancel s).trans ((keeps_receiveSuperframe _ spec).mono (nil_subset _))
  refine (wp_bind _ _ _ _).mpr
    ((touches_startIncomingMultisuperframe _).post.imp fun t ht => ?_)
  refine (touches_scheduleFirstBeacon _).post.bind fun u hu => ?_
  have hkeeps : views.Keeps [.contention, .timeline, .counting] s u :=
    ((hspec.mono (by simp)).trans (ht.mono (by simp))).trans
      (((keeps_noteSyncParent t p beaconTimeStamp).mono (by simp)).trans (hu.mono (by simp)))
  have hinv : Inv u := inv_of_keeps hkeeps (by simp) hs
  have hsafe' : BeaconSafe u := beaconSafe_of_keeps hkeeps (by simp) (by simp) hsafe
  apply wp_of_bind
  have hschedule : Post (u.purgeDsmeACT.scheduleGtsOnBeacon p) Inv := by
    unfold scheduleGtsOnBeacon
    split
    · exact inv_scheduleGtsInMac _ _ (inv_purgeDsmeACT u hinv hsafe'.1) hsafe'.2
    · exact inv_purgeDsmeACT u hinv hsafe'.1
  refine hschedule.imp fun v hv => ?_
  exact inv_of_post (touches_startIncomingSuperframe v).post (by simp) hv

theorem inv_receiveBeacon (hs : Inv s) (hsafe : s.role.macPanId = p.hdr.dstPanId → BeaconSafe s) :
    Post (s.receiveBeacon p) fun r => Inv r.1 := by
  unfold receiveBeacon
  split
  · rename_i spec ie sduLength _
    refine (post_readBeacon_noteBeacon s p spec _).bind ?_
    rintro ⟨t, spec', beaconTimeStamp⟩ ⟨hkeeps, hrole⟩
    dsimp only at hkeeps hrole ⊢
    have ht : Inv t := inv_of_keeps hkeeps (by simp) hs
    split
    · rename_i hpan
      rw [hrole] at hpan
      apply wp_of_bind
      refine (inv_receiveOwnPanBeacon t p spec' beaconTimeStamp ht
        (beaconSafe_of_keeps hkeeps (by simp) (by simp) (hsafe hpan))).imp fun u hu => ?_
      exact inv_of_keeps (keeps_notifyBeacon u p sduLength) (by simp) hu
    · split
      · exact ht
      · exact inv_of_keeps (keeps_notifyBeacon t p sduLength) (by simp) ht
  · trivial

theorem inv_receiveData (hs : Inv s) : Post (s.receiveData p) Inv := by
  have hcnt (t : Mac) (ht : Inv t) : Post t.resetCnt Inv := by
    unfold resetCnt
    split
    · split
      · trivial
      · exact Ledger.modify_same ht _ _ ({ · with cnt := 0 }) (fun _ => rfl) (fun _ => rfl)
          (fun _ => rfl) (fun _ => rfl) fun _ h => h
    · exact ht
  unfold receiveData
  split
  · exact hcnt _ hs
  · exact hs

theorem inv_pdDataIndication (fcsOk : Bool) (hs : Inv s)
    (hsafe : fcsOk = true → s.acceptFrame p = true → p.hdr.isBeacon = true →
      s.role.macPanId = p.hdr.dstPanId → BeaconSafe s) : Post (s.pdDataIndication p fcsOk) Inv := by
  cases hbeacon : p.hdr.isBeacon with
  | true =>
    refine post_pdDataIndication_of_isBeacon s fcsOk Inv hbeacon hs fun hfcs haccept => ?_
    exact inv_receiveBeacon s p hs (hsafe hfcs haccept hbeacon)
  | false =>
    unfold pdDataIndication
    split
    · trivial
    · split
      · have hinv : Inv (s.acceptAllHilow p) :=
          inv_of_keeps (keeps_acceptAllHilow s p) (by simp) hs
        split
        · unfold receiveFrame
          refine (touches_ackRequested _ p).post.bind fun t ht => ?_
          rw [hbeacon]
          refine (inv_receiveData t p ?_).bind fun u hu => ?_
          · exact inv_of_keeps ht (by simp) hinv
          · exact inv_of_post (touches_receiveGroupAck u p).post (by simp) hu
        · exact hinv
      · exact hs

/-! ## Starting a PAN -/

/-- What MLME-START does to the table: a PAN coordinator purges it, any other coordinator
schedules its GTSs. -/
def StartSafe (s : Mac) (params : MlmeStartRequestParams) : Prop :=
  if s.role.panCoor = true ∨ params.panCoor = true then
    PurgeSafe s.gts.macDsmeACT s.sim.gtsStarts
  else ScheduleSafe s.gts.macDsmeACT

theorem inv_startBeacon (desc : Option PanDescriptor) (hs : Inv s)
    (hsafe : if s.role.panCoor = true then PurgeSafe s.gts.macDsmeACT s.sim.gtsStarts
      else ScheduleSafe s.gts.macDsmeACT) : Post (s.startBeacon params desc) Inv := by
  unfold startBeacon
  refine (touches_startDsmeFrom _ _ _).post.bind fun t ht => ?_
  refine (touches_resizeSAB t).post.bind fun u hu => ?_
  have hstructure : views.Keeps [.ownSlot, .timeline, .counting] s
      (s.startSuperframeStructure params desc) := keeps_same fun v hv => by cases v <;> first | rfl | simp at hv
  have hkeeps : views.Keeps [.ownSlot, .timeline, .counting] s u :=
    (hstructure.trans ht).trans (hu.mono (nil_subset _))
  have hinv : Inv u := inv_of_keeps hkeeps (by simp) hs
  obtain ⟨hact, -, hstart⟩ := hkeeps .allocation (by simp)
  have hpan : u.role.panCoor = s.role.panCoor := hkeeps .panCoor (by simp)
  rw [← hact, ← hpan, Sim.gtsStarts, ← hstart] at hsafe
  split
  · unfold startBeacons
    by_cases hcoor : u.role.panCoor = true
    · rw [if_pos hcoor] at hsafe ⊢
      have hsafe : PurgeSafe u.gts.macDsmeACT u.sim.gtsStarts := hsafe
      have hposted : views.Keeps [.timeline, .counting] u ((u.scheduleNow .multisuperframeStartEvent
          (.startMultisuperframe .outgoing) rfl).scheduleNow .beaconEvent .sendOneEnhancedBeacon rfl) :=
        (keeps_post u .multisuperframeStartEvent _ 0 rfl (by simp)).trans
          (keeps_post _ .beaconEvent _ 0 rfl (by simp))
      refine inv_scheduleGtsInMac _ false ?_ fun h => ?_
      · refine inv_purgeDsmeACT _ (inv_of_keeps hposted (by simp) hinv) ?_
        unfold Sim.gtsStarts
        rw [(hposted .allocation (by simp)).2.2]
        exact hsafe
      · have hcontra : u.role.panCoor = false := h
        rw [hcoor] at hcontra
        cases hcontra
    · rw [if_neg hcoor] at hsafe ⊢
      exact inv_scheduleGtsInMac _ false hinv fun _ => hsafe
  · exact hinv

theorem inv_mlmeStartRequest (pageOk channelOk : Bool) (hs : Inv s)
    (hsafe : pageOk = true → channelOk = true → StartSafe s params) :
    Post (s.mlmeStartRequest params pageOk channelOk) Inv := by
  refine post_mlmeStartRequest_role s params pageOk channelOk Inv
    (fun _ t ht => inv_of_keeps ht (by simp) hs) (fun _ t ht _ _ => ?_)
    fun hok t desc ht hpan _ => ?_
  · exact inv_of_post (touches_startNonBeacon t).post (by simp) (inv_of_keeps ht (by simp) hs)
  · obtain ⟨hpage, hchannel⟩ := Bool.and_eq_true_iff.mp hok
    refine inv_startBeacon t params desc (inv_of_keeps ht (by simp) hs) ?_
    obtain ⟨hact, -, hpending⟩ := ht .allocation (by simp)
    have hstart := hsafe hpage hchannel
    unfold StartSafe Sim.gtsStarts at hstart
    rw [← hact, ← hpending] at hstart
    simpa only [Sim.gtsStarts, hpan, Bool.or_eq_true] using hstart

/-! ## Steps and runs -/

/-- A step that does not take an entry away from its event.  An entry is added under its own
superframe ID and not yet allocated; only entries without a pending start are deallocated;
nothing is purged in front of an entry with a pending start; and no deallocated entry is
scheduled. -/
def Undisturbed (s : Mac) (i : Input) : Prop :=
  match i.action with
  | .addDsmeACTEntity k e => e.superframeID = k ∧ e.allocated = false
  | .deallocate k idx => ∀ g ∈ s.sim.gtsStarts, ¬ (g.superframeID = k ∧ g.idx = idx)
  | .purgeDsmeACT => PurgeSafe s.gts.macDsmeACT s.sim.gtsStarts
  | .scheduleGts _ => s.role.panCoor = false → ScheduleSafe s.gts.macDsmeACT
  | .mlmeStartRequest params true true => StartSafe s params
  | .pdDataIndication p true =>
    s.acceptFrame p = true → p.hdr.isBeacon = true → s.role.macPanId = p.hdr.dstPanId →
      BeaconSafe s
  | .fire n => ∀ e sim, s.sim.take n = some (e, sim) →
      (e.event = .purgeDsmeACT → PurgeSafe s.gts.macDsmeACT s.sim.gtsStarts)
        ∧ (e.event = .endTx → i.answers.endTx = some .phySuccess →
          ∀ p, s.tx.txPkt = some p → p.hdr.isBeacon = true → BeaconSafe s)
  | _ => True

/-- Running a pending event keeps the invariant. -/
theorem inv_fire (n : ℕ) (hs : Inv s)
    (hsafe : ∀ e sim, s.sim.take n = some (e, sim) →
      (e.event = .purgeDsmeACT → PurgeSafe s.gts.macDsmeACT s.sim.gtsStarts)
        ∧ (e.event = .endTx → s.phy.endTx = some .phySuccess →
          ∀ p, s.tx.txPkt = some p → p.hdr.isBeacon = true → BeaconSafe s)) :
    Post (s.fire n) Inv := by
  cases htake : s.sim.take n with
  | none =>
    unfold fire
    rw [htake]
    exact hs
  | some r =>
    obtain ⟨e, sim⟩ := r
    obtain ⟨hpurge, hbeacon⟩ := hsafe e sim htake
    have hperm := gtsStarts_take s.sim sim n e htake
    by_cases hallocation : View.allocation ∈ e.event.footprint
    · unfold fire
      rw [htake]
      dsimp only
      cases hevent : e.event with
      | startGTS superframeType k idx alloc =>
        rw [hevent] at hperm
        exact inv_startGTS { s with sim } superframeType k idx alloc (Ledger.perm hs hperm)
      | purgeDsmeACT =>
        have hstarts : sim.eventsOf MacEvent.isStartGTS = s.sim.eventsOf MacEvent.isStartGTS :=
          Sim.eventsOf_take_of_not _ _ n e _ htake (by rw [hevent]; rfl)
        have hsafe' := hpurge hevent
        unfold Inv Sim.gtsStarts at hs
        unfold Sim.gtsStarts at hsafe'
        rw [← hstarts] at hs hsafe'
        exact inv_purgeDsmeACT { s with sim } hs hsafe'
      | endTx =>
        have hstarts : sim.eventsOf MacEvent.isStartGTS = s.sim.eventsOf MacEvent.isStartGTS :=
          Sim.eventsOf_take_of_not _ _ n e _ htake (by rw [hevent]; rfl)
        have hsafe' := hbeacon hevent
        unfold Inv Sim.gtsStarts at hs
        unfold BeaconSafe Sim.gtsStarts at hsafe'
        rw [← hstarts] at hs hsafe'
        exact inv_endTx { s with sim } hs hsafe'
      | setLrWpanMacState macState =>
        rw [hevent] at hallocation
        cases macState <;> simp [MacEvent.footprint] at hallocation
      | startCAP t =>
        rw [hevent] at hallocation
        cases t <;> simp [MacEvent.footprint, SuperframeType.views] at hallocation
      | startCFP t =>
        rw [hevent] at hallocation
        cases t <;> simp [MacEvent.footprint, SuperframeType.views] at hallocation
      | startRemainingPeriod t =>
        rw [hevent] at hallocation
        cases t <;> simp [MacEvent.footprint, SuperframeType.views] at hallocation
      | _ =>
        rw [hevent] at hallocation
        simp [MacEvent.footprint] at hallocation
    · exact inv_of_post (post_fire s sim n e htake) (by simp [hallocation]) hs

/-- An undisturbed step keeps the invariant. -/
theorem inv_step (i : Input) (hs : Inv s) (hi : Undisturbed s i) :
    Post (step s i) Inv := by
  obtain ⟨a, answers⟩ := i
  have hs' : Inv { s with phy := answers } := hs
  unfold step
  cases a with
  | fire n => exact inv_fire _ n hs' hi
  | mlmeStartRequest params pageOk channelOk =>
    refine inv_mlmeStartRequest _ params pageOk channelOk hs' fun hpage hchannel => ?_
    subst hpage hchannel
    exact hi
  | pdDataIndication p fcsOk =>
    refine inv_pdDataIndication _ p fcsOk hs' fun hfcs => ?_
    subst hfcs
    exact hi
  | addDsmeACTEntity k e => exact inv_addDsmeACTEntity _ k e hi.1 hi.2 hs'
  | deallocate k idx => exact Ledger.deallocate hs' k idx hi
  | expire k idx =>
    refine Ledger.modify_same hs' k idx ({ · with expired := true }) (fun _ => rfl) (fun _ => rfl)
      (fun _ => rfl) (fun _ => rfl) fun e h => ?_
    cases h
  | scheduleGts indication => exact inv_scheduleGts _ indication hs' hi
  | purgeDsmeACT => exact inv_purgeDsmeACT _ hs' hi
  | _ =>
    refine inv_of_post (post_act _ _ (by simp)) ?_ hs'
    simp [Action.footprint]

/-- A device that knows the superframe structure of its coordinator. -/
def device : Mac where
  inc :=
    { incomingSuperframeDuration := 7680, incomingFnlCapSlot := 8
      incomingMultisuperframeDuration := 30720 }

/-- Two GTSs of the first superframe, and their scheduling. -/
def allocates : List Input :=
  [⟨.resizeScheduleGTSsEvent 6 5 3, {}⟩,
    ⟨.addDsmeACTEntity 0 { superframeID := 0, slotID := 0, numSlot := 1 }, {}⟩,
    ⟨.addDsmeACTEntity 0 { superframeID := 0, slotID := 1, numSlot := 1 }, {}⟩,
    ⟨.scheduleGts false, {}⟩]

/-- A test for undisturbed steps on tables without deallocated entries. -/
def deallocatesNothing (s : Mac) (i : Input) : Bool :=
  match i.action with
  | .resizeScheduleGTSsEvent _ _ _ => true
  | .addDsmeACTEntity k e => e.superframeID == k && !e.allocated
  | .scheduleGts _ => s.gts.macDsmeACT.positions.all fun pos =>
    (s.gts.macDsmeACT.lookup pos.1 pos.2).all fun e => !e.deallocated
  | .fire n =>
    match s.sim.take n with
    | some (e, _) => e.event.isStartGTS
    | none => false
  | _ => false

theorem undisturbed_of_deallocatesNothing (i : Input) (h : deallocatesNothing s i = true) :
    Undisturbed s i := by
  obtain ⟨a, answers⟩ := i
  cases a with
  | resizeScheduleGTSsEvent bcnOrder multisfrmOrd sfrmOrd => trivial
  | addDsmeACTEntity k e =>
    obtain ⟨hkey, hallocated⟩ := Bool.and_eq_true_iff.mp h
    exact ⟨eq_of_beq hkey, by simpa using hallocated⟩
  | scheduleGts indication =>
    intro _ k idx e he _
    have hlt : idx < (s.gts.macDsmeACT.row k).length := (List.getElem?_eq_some_iff.mp he).1
    have hpos := all_eq_true.mp h (k, idx) ((ActTable.mem_positions _ _ _).mpr hlt)
    simpa [he] using hpos
  | fire n =>
    intro e sim htake
    unfold deallocatesNothing at h
    dsimp only at h
    rw [htake] at h
    have hstart : e.event.isStartGTS = true := h
    refine ⟨fun hevent => ?_, fun hevent => ?_⟩
    · rw [hevent] at hstart
      cases hstart
    · rw [hevent] at hstart
      cases hstart
  | _ => cases h

/-- Some pending start names no entry, or the entry of another allocation. -/
def misses (s : Mac) : Bool :=
  s.sim.gtsStarts.any fun g =>
    !((s.gts.macDsmeACT.lookup g.superframeID g.idx).any fun e => e.alloc == g.alloc)

end Allocations

end Ns3Dsme
