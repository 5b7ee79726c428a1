/-
# Every datagram ends in its time

The datagrams in the map are those in the list, which is sorted by time as all of them wait equally
long.  One of the pending events is due no later than the first of them, and an event that finds
nothing to do waits for the next.
-/
import Ns3Dsme.Internet.Ipv4Expiry

open Function List Program Overlaps

namespace Ns3Dsme.Internet.Ipv4L3Protocol

/-- How the map, the list, the events and the record belong together. -/
structure Inv (timeout : ℕ) (s : Ipv4L3Protocol) : Prop where
  listed : ∀ e ∈ s.timeoutEventList, ∃ fragments, s.fragments e.key = some (fragments, e.iter)
  waits : ∀ key fragments iter, s.fragments key = some (fragments, iter) →
    ∃ e ∈ s.timeoutEventList, e.key = key
  keys : (s.timeoutEventList.map (·.key)).Nodup
  once : (s.timeoutEventList.map (·.iter) ++
    (s.completed.map Prod.fst ++ s.timedOut.map (·.entry.iter))).Perm (List.range s.started.length)
  past : ∀ time ∈ s.started, time ≤ s.now
  time : ∀ e ∈ s.timeoutEventList, ∃ time, s.started[e.iter]? = some time ∧
    e.time = time + timeout
  due : ∀ e ∈ s.timeoutEventList, s.now ≤ e.time
  sorted : s.timeoutEventList.Pairwise fun e e' => e.time ≤ e'.time
  expired : ∀ x ∈ s.timedOut, ∃ time, s.started[x.entry.iter]? = some time ∧
    x.now = time + timeout
  holds : ∀ key fragments iter, s.fragments key = some (fragments, iter) →
    fragments.Holds (s.received key)
  fresh : ∀ key, s.fragments key = none → s.received key = []
  short : ∀ key, ∀ f ∈ s.received key, f.fragmentOffset < 2 ^ 16 ∧ f.payload.length < 2 ^ 16
  late : ∀ event ∈ s.timeoutEvents, s.now ≤ event
  results : ∀ x ∈ s.timedOut, x.result.Exact (x.received.map Ipv4Fragment.piece) ↔
    Growing 0 x.fragments.fragments

/-- An event runs before the time of every datagram is over. -/
def Scheduled (s : Ipv4L3Protocol) : Prop :=
  ∀ e ∈ s.timeoutEventList, ∃ event ∈ s.timeoutEvents, event ≤ e.time

/-- Something has come of every datagram in the map. -/
def Filled (s : Ipv4L3Protocol) : Prop :=
  ∀ key fragments iter, s.fragments key = some (fragments, iter) → s.received key ≠ []

variable {timeout : ℕ} {s : Ipv4L3Protocol}

theorem Inv.iters_nodup (h : Inv timeout s) : (s.timeoutEventList.map (·.iter)).Nodup :=
  (nodup_append.mp (h.once.nodup_iff.mpr nodup_range)).1

/-- Nothing waits longer than what comes now. -/
theorem Inv.time_le (h : Inv timeout s) (e : TimeoutEntry) (he : e ∈ s.timeoutEventList) :
    e.time ≤ s.now + timeout := by
  obtain ⟨time, hiter, htime⟩ := h.time e he
  have hpast := h.past time (mem_of_getElem? hiter)
  omega

/-! ## A datagram leaves -/

/-- **A datagram is taken out** of the map and the list, with a record of how it ended. -/
theorem Inv.remove (h : Inv timeout s) {before behind : List TimeoutEntry} {e : TimeoutEntry}
    (hlist : s.timeoutEventList = before ++ e :: behind) (completed : List (ℕ × List Octet))
    (timedOut : List FragmentsTimeout)
    (honce : (completed.map Prod.fst ++ timedOut.map (·.entry.iter)).Perm
      (e.iter :: (s.completed.map Prod.fst ++ s.timedOut.map (·.entry.iter))))
    (hexpired : ∀ x ∈ timedOut, ∃ time, s.started[x.entry.iter]? = some time ∧
      x.now = time + timeout)
    (hresults : ∀ x ∈ timedOut, x.result.Exact (x.received.map Ipv4Fragment.piece) ↔
      Growing 0 x.fragments.fragments) :
    Inv timeout { s with
      timeoutEventList := before ++ behind
      fragments := update s.fragments e.key none
      received := update s.received e.key []
      completed := completed
      timedOut := timedOut } := by
  have hsub : (before ++ behind).Sublist s.timeoutEventList := by
    rw [hlist]
    exact List.Sublist.append (List.Sublist.refl _) (sublist_cons_self _ _)
  have hkeys := h.keys
  rw [hlist, map_append, map_cons, nodup_middle, ← map_append] at hkeys
  obtain ⟨hnot, hnodup⟩ := nodup_cons.mp hkeys
  have hother : ∀ e' ∈ before ++ behind, e'.key ≠ e.key := fun e' he' heq =>
    hnot (heq ▸ mem_map_of_mem he')
  constructor
  · -- the others stay in the map
    intro e' he'
    obtain ⟨fragments, hfragments⟩ := h.listed e' (hsub.subset he')
    refine ⟨fragments, ?_⟩
    show update s.fragments e.key none e'.key = _
    rw [update_of_ne (hother e' he'), hfragments]
  · intro key fragments iter hkey
    replace hkey : update s.fragments e.key none key = some (fragments, iter) := hkey
    by_cases heq : key = e.key
    · rw [heq, update_self] at hkey
      cases hkey
    · rw [update_of_ne heq] at hkey
      obtain ⟨e', he', hkey'⟩ := h.waits key fragments iter hkey
      refine ⟨e', ?_, hkey'⟩
      rw [hlist] at he'
      rcases mem_append.mp he' with hin | hin
      · exact mem_append_left _ hin
      · rcases mem_cons.mp hin with rfl | hin
        · exact absurd hkey'.symm heq
        · exact mem_append_right _ hin
  · exact hnodup
  · have hall := h.once
    rw [hlist, map_append, map_cons] at hall
    refine List.Perm.trans ?_ hall
    show ((before ++ behind).map (·.iter) ++ _).Perm _
    rw [map_append, append_assoc, append_assoc]
    refine List.Perm.append_left _ ?_
    rw [cons_append]
    exact (honce.append_left _).trans perm_middle
  · exact h.past
  · exact fun e' he' => h.time e' (hsub.subset he')
  · exact fun e' he' => h.due e' (hsub.subset he')
  · exact h.sorted.sublist hsub
  · exact hexpired
  · intro key fragments iter hkey
    replace hkey : update s.fragments e.key none key = some (fragments, iter) := hkey
    show fragments.Holds (update s.received e.key [] key)
    by_cases heq : key = e.key
    · rw [heq, update_self] at hkey
      cases hkey
    · rw [update_of_ne heq] at hkey ⊢
      exact h.holds key fragments iter hkey
  · intro key hkey
    show update s.received e.key [] key = []
    by_cases heq : key = e.key
    · rw [heq, update_self]
    · rw [update_of_ne heq]
      replace hkey : update s.fragments e.key none key = none := hkey
      rw [update_of_ne heq] at hkey
      exact h.fresh key hkey
  · intro key f hf
    replace hf : f ∈ update s.received e.key [] key := hf
    by_cases heq : key = e.key
    · rw [heq, update_self] at hf
      cases hf
    · rw [update_of_ne heq] at hf
      exact h.short key f hf
  · exact h.late
  · exact hresults

/-- **A datagram is complete**: its node is found through its iterator. -/
theorem Inv.complete (h : Inv timeout s) (hs : s.Scheduled) {key : ℕ × ℕ} {fragments : Fragments}
    {iter : ℕ} (hkey : s.fragments key = some (fragments, iter))
    (hsome : fragments.fragments ≠ []) :
    ∃ s', s.complete key fragments iter = .ok s' ∧ Inv timeout s' ∧ s'.Scheduled ∧
      s'.fragments = update s.fragments key none ∧
      s'.received = update s.received key [] := by
  obtain ⟨packet, hpacket⟩ : ∃ packet, fragments.getPacket = .ok packet := by
    unfold Fragments.getPacket
    cases hfragments : fragments.fragments with
    | nil => exact absurd hfragments hsome
    | cons it rest => exact ⟨_, rfl⟩
  -- the node of the datagram
  obtain ⟨e, he, rfl⟩ := h.waits key fragments iter hkey
  obtain ⟨fragments', hfragments'⟩ := h.listed e he
  cases hkey.symm.trans hfragments'
  obtain ⟨found, before, behind, -, hfound, hlist, herase⟩ :=
    exists_of_eraseP (p := fun e' : TimeoutEntry => e'.iter == e.iter) he (beq_self_eq_true _)
  have hsame : found = e := by
    apply inj_on_of_nodup_map h.iters_nodup _ he (eq_of_beq hfound)
    rw [hlist]
    exact mem_append_right _ mem_cons_self
  subst hsame
  have hany : (s.timeoutEventList.any fun e' => e'.iter == found.iter) = true :=
    any_eq_true.mpr ⟨found, he, beq_self_eq_true _⟩
  refine ⟨_, ?_, h.remove hlist (s.completed ++ [(found.iter, packet)]) s.timedOut ?_ h.expired
    h.results, ?_, rfl, rfl⟩
  · unfold Ipv4L3Protocol.complete erase
    rw [hpacket, hany, herase]
    rfl
  · rw [map_append, append_assoc]
    exact perm_middle
  · intro e' he'
    apply hs e'
    rw [hlist]
    rcases mem_append.mp he' with hin | hin
    · exact mem_append_left _ hin
    · exact mem_append_right _ (mem_cons_of_mem _ hin)

/-! ## A fragment comes in -/

/-- `SetTimeout` for a list whose events run in time. -/
theorem exists_setTimeout (s : Ipv4L3Protocol) (timeout : ℕ) (key : ℕ × ℕ) (ipHeader : Flow)
    (iif : ℕ) : ∃ events, s.setTimeout timeout key ipHeader iif = .ok { s with
        timeoutEventList := s.timeoutEventList ++
          [⟨s.now + timeout, key, ipHeader, iif, s.started.length⟩]
        timeoutEvents := events
        started := s.started ++ [s.now] } ∧
      (events = s.timeoutEvents ∧ s.timeoutEventList ≠ [] ∨
        events = s.timeoutEvents ++ [s.now + timeout]) := by
  unfold setTimeout
  cases hlist : s.timeoutEventList with
  | nil =>
    have hschedule : s.schedule timeout =
        .ok { s with timeoutEvents := s.timeoutEvents ++ [s.now + timeout] } := by
      unfold schedule
      rw [if_neg (by omega), Int.toNat_natCast]
    refine ⟨_, ?_, .inr rfl⟩
    rw [isEmpty_nil, if_pos rfl, hschedule]
    show Except.ok _ = Except.ok _
    rw [hlist]
  | cons e rest =>
    refine ⟨_, ?_, .inl ⟨rfl, cons_ne_nil _ _⟩⟩
    rw [isEmpty_cons, if_neg Bool.false_ne_true]
    show Except.ok _ = Except.ok _
    rw [hlist]

/-- **A datagram is put in**: at the end of the list, as it waits as long as all others. -/
theorem Inv.insert (h : Inv timeout s) {ipHeader : Flow} {iif : ℕ}
    (hfind : s.fragments (fragmentKey ipHeader) = none) {events : List ℕ}
    (hevents : events = s.timeoutEvents ∧ s.timeoutEventList ≠ [] ∨
      events = s.timeoutEvents ++ [s.now + timeout]) :
    Inv timeout { s with
      fragments := update s.fragments (fragmentKey ipHeader) (some ({}, s.started.length))
      timeoutEventList := s.timeoutEventList ++
        [⟨s.now + timeout, fragmentKey ipHeader, ipHeader, iif, s.started.length⟩]
      timeoutEvents := events
      started := s.started ++ [s.now] } := by
  have hnew : ∀ e ∈ s.timeoutEventList, e.key ≠ fragmentKey ipHeader := by
    intro e he heq
    obtain ⟨fragments, hfragments⟩ := h.listed e he
    rw [heq, hfind] at hfragments
    cases hfragments
  have hstarted : ∀ iter time : ℕ, s.started[iter]? = some time →
      (s.started ++ [s.now])[iter]? = some time := by
    intro iter time hiter
    rw [List.getElem?_append_left (List.getElem?_eq_some_iff.mp hiter).1, hiter]
  constructor
  · -- the map has all that are in the list
    intro e he
    show ∃ fragments, update s.fragments _ _ e.key = _
    rcases mem_append.mp he with hold | hin
    · rw [update_of_ne (hnew e hold)]
      exact h.listed e hold
    · rw [mem_singleton.mp hin, update_self]
      exact ⟨_, rfl⟩
  · intro key fragments iter hkey
    replace hkey : update s.fragments _ _ key = some (fragments, iter) := hkey
    by_cases heq : key = fragmentKey ipHeader
    · exact ⟨_, mem_append_right _ mem_cons_self, heq.symm⟩
    · rw [update_of_ne heq] at hkey
      obtain ⟨e, he, hkey'⟩ := h.waits key fragments iter hkey
      exact ⟨e, mem_append_left _ he, hkey'⟩
  · rw [map_append, nodup_append]
    refine ⟨h.keys, nodup_singleton _, ?_⟩
    intro key hkey key' hkey'
    obtain ⟨e, he, rfl⟩ := mem_map.mp hkey
    rw [mem_singleton.mp hkey']
    exact hnew e he
  · -- the number is the next one
    rw [length_append, length_singleton, range_succ, map_append,
      append_assoc]
    refine List.Perm.trans ?_ (h.once.append_right _)
    rw [append_assoc]
    exact List.Perm.append_left _ perm_append_comm
  · intro time htime
    rcases mem_append.mp htime with hold | hin
    · exact h.past time hold
    · exact Nat.le_of_eq (mem_singleton.mp hin)
  · intro e he
    rcases mem_append.mp he with hold | hin
    · obtain ⟨time, hiter, htime⟩ := h.time e hold
      exact ⟨time, hstarted _ _ hiter, htime⟩
    · rw [mem_singleton.mp hin]
      exact ⟨s.now, List.getElem?_concat_length .., rfl⟩
  · intro e he
    rcases mem_append.mp he with hold | hin
    · exact h.due e hold
    · rw [mem_singleton.mp hin]
      exact Nat.le_add_right _ _
  · -- all others have come before
    rw [pairwise_append]
    refine ⟨h.sorted, pairwise_singleton _ _, ?_⟩
    intro e he e' he'
    rw [mem_singleton.mp he']
    exact h.time_le e he
  · intro x hx
    obtain ⟨time, hiter, htime⟩ := h.expired x hx
    exact ⟨time, hstarted _ _ hiter, htime⟩
  · intro key fragments iter hkey
    replace hkey : update s.fragments _ _ key = some (fragments, iter) := hkey
    show fragments.Holds (s.received key)
    by_cases heq : key = fragmentKey ipHeader
    · rw [heq, update_self] at hkey
      cases hkey
      rw [heq, h.fresh _ hfind]
      exact Fragments.holds_nil
    · rw [update_of_ne heq] at hkey
      exact h.holds key fragments iter hkey
  · intro key hkey
    replace hkey : update s.fragments _ _ key = none := hkey
    by_cases heq : key = fragmentKey ipHeader
    · rw [heq, update_self] at hkey
      cases hkey
    · rw [update_of_ne heq] at hkey
      exact h.fresh key hkey
  · exact h.short
  · intro event hevent
    replace hevent : event ∈ events := hevent
    rcases hevents with ⟨rfl, -⟩ | rfl
    · exact h.late event hevent
    · rcases mem_append.mp hevent with hold | hin
      · exact h.late event hold
      · rw [mem_singleton.mp hin]
        exact Nat.le_add_right _ _
  · exact h.results

/-- **A new datagram** waits at the end of the list, and an event runs before its time is over. -/
theorem Inv.newDatagram (h : Inv timeout s) (hs : s.Scheduled) (ipHeader : Flow) (iif : ℕ) :
    ∃ s', s.newDatagram timeout ipHeader iif = .ok s' ∧ Inv timeout s' ∧ s'.Scheduled ∧
      s'.received = s.received ∧ (∃ x, s'.fragments (fragmentKey ipHeader) = some x) ∧
      ∀ key, key ≠ fragmentKey ipHeader → s'.fragments key = s.fragments key := by
  unfold Ipv4L3Protocol.newDatagram
  cases hfind : s.fragments (fragmentKey ipHeader) with
  | some x => exact ⟨s, rfl, h, hs, rfl, ⟨x, hfind⟩, fun _ _ => rfl⟩
  | none =>
    obtain ⟨events, hset, hevents⟩ := exists_setTimeout { s with
      fragments := update s.fragments (fragmentKey ipHeader)
        (some ({}, s.started.length)) }
      timeout (fragmentKey ipHeader) ipHeader iif
    refine ⟨_, hset, h.insert hfind hevents, ?_, rfl, ⟨({}, s.started.length), ?_⟩, ?_⟩
    · intro e he
      show ∃ event ∈ events, event ≤ e.time
      rcases mem_append.mp he with hold | hin
      · obtain ⟨event, hevent, hle⟩ := hs e hold
        refine ⟨event, ?_, hle⟩
        rcases hevents with ⟨rfl, -⟩ | rfl
        · exact hevent
        · exact mem_append_left _ hevent
      · rw [mem_singleton.mp hin]
        rcases hevents with ⟨rfl, hsome⟩ | rfl
        · -- the event of one that waits already
          obtain ⟨first, hfirst⟩ := exists_mem_of_ne_nil _ hsome
          obtain ⟨event, hevent, hle⟩ := hs first hfirst
          exact ⟨event, hevent, hle.trans (h.time_le first hfirst)⟩
        · exact ⟨_, mem_append_right _ mem_cons_self, Nat.le_refl _⟩
    · exact update_self ..
    · intro key hkey
      exact update_of_ne hkey ..

/-- **A fragment is put** with those of its datagram. -/
theorem Inv.put (h : Inv timeout s) {key : ℕ × ℕ} {fragments : Fragments} {iter : ℕ}
    (hkey : s.fragments key = some (fragments, iter)) {f : Ipv4Fragment}
    (hf : f.fragmentOffset < 2 ^ 16 ∧ f.payload.length < 2 ^ 16) :
    Inv timeout { s with
      fragments := update s.fragments key (some
        (fragments.addFragment f.payload f.fragmentOffset (!f.isLastFragment), iter))
      received := update s.received key (s.received key ++ [f]) } := by
  refine { h with listed := ?_, waits := ?_, holds := ?_, fresh := ?_, short := ?_ }
  · intro e he
    obtain ⟨fragments', hfragments'⟩ := h.listed e he
    show ∃ fragments', update s.fragments key _ e.key = _
    by_cases heq : e.key = key
    · rw [heq, hkey] at hfragments'
      cases hfragments'
      rw [heq, update_self]
      exact ⟨_, rfl⟩
    · rw [update_of_ne heq]
      exact ⟨fragments', hfragments'⟩
  · intro key' fragments' iter' hkey'
    replace hkey' : update s.fragments key _ key' = some (fragments', iter') := hkey'
    by_cases heq : key' = key
    · rw [heq]
      exact h.waits key fragments iter hkey
    · rw [update_of_ne heq] at hkey'
      exact h.waits key' fragments' iter' hkey'
  · intro key' fragments' iter' hkey'
    replace hkey' : update s.fragments key _ key' = some (fragments', iter') := hkey'
    show fragments'.Holds (update s.received key _ key')
    by_cases heq : key' = key
    · rw [heq, update_self] at hkey' ⊢
      cases hkey'
      exact (h.holds key fragments iter hkey).addFragment f
    · rw [update_of_ne heq] at hkey' ⊢
      exact h.holds key' fragments' iter' hkey'
  · intro key' hkey'
    replace hkey' : update s.fragments key _ key' = none := hkey'
    show update s.received key _ key' = []
    by_cases heq : key' = key
    · rw [heq, update_self] at hkey'
      cases hkey'
    · rw [update_of_ne heq] at hkey' ⊢
      exact h.fresh key' hkey'
  · intro key' g hg
    replace hg : g ∈ update s.received key _ key' := hg
    by_cases heq : key' = key
    · rw [heq, update_self] at hg
      rcases mem_append.mp hg with hold | hnew
      · exact h.short key g hold
      · rw [mem_singleton.mp hnew]
        exact hf
    · rw [update_of_ne heq] at hg
      exact h.short key' g hg

/-- **The step lemma** for a fragment. -/
theorem Inv.processFragment (h : Inv timeout s) (hs : s.Scheduled) (hfilled : s.Filled)
    (ipHeader : Flow) (iif : ℕ) {f : Ipv4Fragment}
    (hf : f.fragmentOffset < 2 ^ 16 ∧ f.payload.length < 2 ^ 16) :
    ∃ s', s.processFragment timeout ipHeader iif f = .ok s' ∧ Inv timeout s' ∧ s'.Scheduled ∧
      s'.Filled := by
  obtain ⟨s1, hnew, h1, hs1, hreceived1, ⟨⟨fragments, iter⟩, hkey⟩, hother⟩ :=
    h.newDatagram hs ipHeader iif
  have hput := h1.put hkey hf
  have hsome : (fragments.addFragment f.payload f.fragmentOffset
      (!f.isLastFragment)).fragments ≠ [] := by
    have hmem : (f.payload, f.fragmentOffset) ∈ (fragments.addFragment f.payload f.fragmentOffset
        (!f.isLastFragment)).fragments := by
      unfold Fragments.addFragment
      exact (perm_orderedInsert _ _ _).mem_iff.mpr mem_cons_self
    exact ne_nil_of_mem hmem
  -- something has come of all others before
  have hothers : ∀ key, key ≠ fragmentKey ipHeader → ∀ fragments iter,
      s1.fragments key = some (fragments, iter) → s1.received key ≠ [] := by
    intro key hne fragments iter hin
    rw [hother key hne] at hin
    rw [hreceived1]
    exact hfilled key fragments iter hin
  unfold Ipv4L3Protocol.processFragment
  rw [hnew]
  show ∃ s', s1.putFragment (fragmentKey ipHeader) f = .ok s' ∧ _
  unfold putFragment
  rw [hkey]
  dsimp only
  split
  · -- an entire datagram
    obtain ⟨s2, hcomplete, h2, hs2, hfragments2, hreceived2⟩ :=
      hput.complete hs1 (update_self ..) hsome
    refine ⟨s2, hcomplete, h2, hs2, ?_⟩
    intro key fragments' iter' hin
    rw [hfragments2] at hin
    rw [hreceived2]
    dsimp only at hin ⊢
    by_cases heq : key = fragmentKey ipHeader
    · rw [heq, update_self] at hin
      cases hin
    · rw [update_of_ne heq, update_of_ne heq] at hin ⊢
      exact hothers key heq fragments' iter' hin
  · refine ⟨_, rfl, hput, hs1, ?_⟩
    intro key fragments' iter' hin
    replace hin : update s1.fragments _ _ key = some (fragments', iter') := hin
    show update s1.received _ _ key ≠ []
    by_cases heq : key = fragmentKey ipHeader
    · rw [heq, update_self]
      exact append_ne_nil_of_right_ne_nil _ (cons_ne_nil _ _)
    · rw [update_of_ne heq] at hin ⊢
      exact hothers key heq fragments' iter' hin

/-! ## The reassembly without timeouts -/

section

variable {s' : Ipv4L3Protocol}

/-- `m_fragments` without the iterators. -/
def mapFragments (s : Ipv4L3Protocol) : MapFragments := fun key => (s.fragments key).map Prod.fst

theorem mapFragments_update {key : ℕ × ℕ} {o : Option (Fragments × ℕ)}
    (h : s'.fragments = update s.fragments key o) :
    s'.mapFragments = update s.mapFragments key (o.map Prod.fst) := by
  funext other
  unfold mapFragments
  rw [h]
  exact apply_update (fun _ => Option.map Prod.fst) s.fragments key o other

/-- A new datagram has no fragments, and nothing else changes in the map. -/
theorem newDatagram_mapFragments {iif : ℕ} {ipHeader : Flow}
    (h : s.newDatagram timeout ipHeader iif = .ok s') :
    s'.completed = s.completed ∧ ∃ iter, s'.fragments = update s.fragments (fragmentKey ipHeader)
      (some ((s.mapFragments (fragmentKey ipHeader)).getD {}, iter)) := by
  unfold newDatagram at h
  cases hfind : s.fragments (fragmentKey ipHeader) with
  | some found =>
    rw [hfind] at h
    cases h
    refine ⟨rfl, found.2, ?_⟩
    unfold mapFragments
    rw [hfind]
    exact (update_eq_self_iff.mpr hfind.symm).symm
  | none =>
    rw [hfind] at h
    obtain ⟨events, hset, -⟩ := exists_setTimeout _ timeout (fragmentKey ipHeader) ipHeader iif
    cases hset.symm.trans h
    refine ⟨rfl, s.started.length, ?_⟩
    unfold mapFragments
    rw [hfind]
    rfl

/-- A datagram that is complete leaves the map and is handed up. -/
theorem complete_ok {key : ℕ × ℕ} {fragments : Fragments} {iter : ℕ}
    (h : s.complete key fragments iter = .ok s') :
    ∃ packet, fragments.getPacket = .ok packet ∧ s'.fragments = update s.fragments key none ∧
      s'.completed = s.completed ++ [(iter, packet)] := by
  unfold complete at h
  cases hpacket : fragments.getPacket with
  | error e =>
    rw [hpacket] at h
    cases h
  | ok packet =>
    rw [hpacket] at h
    unfold erase at h
    by_cases hfound : (s.timeoutEventList.any fun e => e.iter == iter) = true
    · rw [if_pos hfound] at h
      cases h
      exact ⟨packet, rfl, rfl, rfl⟩
    · rw [if_neg hfound] at h
      cases h

/-- **The timeouts do not disturb the reassembly**: `ProcessFragment` does to the map what it does
without them, and hands up the same datagram. -/
theorem processFragment_mapFragments {iif : ℕ} {ipHeader : Flow} {f : Ipv4Fragment}
    (h : s.processFragment timeout ipHeader iif f = .ok s') :
    ∃ packet, Internet.processFragment s.mapFragments ipHeader f = .ok (packet, s'.mapFragments) ∧
      s'.completed.map Prod.snd = s.completed.map Prod.snd ++ packet.toList := by
  unfold processFragment at h
  cases hnew : s.newDatagram timeout ipHeader iif with
  | error e =>
    rw [hnew] at h
    cases h
  | ok s₁ =>
    obtain ⟨hcompleted, iter, hfragments⟩ := newDatagram_mapFragments hnew
    rw [hnew] at h
    replace h : s₁.putFragment (fragmentKey ipHeader) f = .ok s' := h
    unfold putFragment at h
    rw [hfragments, update_self] at h
    unfold Internet.processFragment
    dsimp only at h ⊢
    rw [update_idem] at h
    generalize ((s.mapFragments (fragmentKey ipHeader)).getD {}).addFragment f.payload
      f.fragmentOffset (!f.isLastFragment) = fragments at h ⊢
    by_cases hentire : fragments.isEntire = true
    · rw [if_pos hentire] at h ⊢
      obtain ⟨packet, hpacket, hremoved, hgiven⟩ := complete_ok h
      have hmap := mapFragments_update (hremoved.trans (update_idem ..))
      refine ⟨some packet, ?_, ?_⟩
      · rw [hpacket, hmap]
        rfl
      · rw [hgiven, map_append, hcompleted]
        rfl
    · rw [if_neg hentire] at h ⊢
      cases h
      refine ⟨none, ?_, ?_⟩
      · exact congrArg (fun m => Except.ok (none, m)) (mapFragments_update (o := some (fragments, iter)) rfl).symm
      · show s₁.completed.map Prod.snd = _
        rw [hcompleted]
        exact (append_nil _).symm

end

/-! ## The time is over -/

theorem exact_of_perm {r : PartialPacket} {pieces pieces' : List (List Octet × ℕ)}
    (hperm : pieces.Perm pieces') : r.Exact pieces ↔ r.Exact pieces' := by
  have hcovers : ∀ n, Covers pieces n ↔ Covers pieces' n := fun n =>
    exists_congr fun x => and_congr_left fun _ => hperm.mem_iff
  constructor
  · rintro ⟨hsizes, hoctets, hstops⟩
    refine ⟨hsizes, fun n hn => ?_, fun h => hstops ((hcovers _).mpr h)⟩
    obtain ⟨x, hx, hoctet⟩ := hoctets n hn
    exact ⟨x, hperm.mem_iff.mp hx, hoctet⟩
  · rintro ⟨hsizes, hoctets, hstops⟩
    refine ⟨hsizes, fun n hn => ?_, fun h => hstops ((hcovers _).mp h)⟩
    obtain ⟨x, hx, hoctet⟩ := hoctets n hn
    exact ⟨x, hperm.mem_iff.mpr hx, hoctet⟩

/-- **The first datagram is given up** at its time. -/
theorem Inv.handleFragmentsTimeout (h : Inv timeout s) (hfilled : s.Filled) {e : TimeoutEntry}
    {rest : List TimeoutEntry} (hlist : s.timeoutEventList = e :: rest) (htime : e.time = s.now) :
    ∃ s', s.handleFragmentsTimeout e = .ok s' ∧ s'.now = s.now ∧
      s'.timeoutEvents = s.timeoutEvents ∧ Inv timeout { s' with timeoutEventList := rest } ∧
      Filled { s' with timeoutEventList := rest } := by
  have he : e ∈ s.timeoutEventList := hlist ▸ mem_cons_self
  obtain ⟨fragments, hkey⟩ := h.listed e he
  have hholds := h.holds e.key fragments e.iter hkey
  have hsome : fragments.fragments ≠ [] := by
    intro hnil
    have hperm := hholds.perm
    rw [hnil] at hperm
    exact hfilled e.key fragments e.iter hkey (map_eq_nil_iff.mp hperm.symm.eq_nil)
  have hshort : Short fragments.fragments := by
    intro x hx
    obtain ⟨f, hf, rfl⟩ := mem_map.mp (hholds.perm.mem_iff.mp hx)
    exact h.short e.key f hf
  obtain ⟨r, hr, hexact⟩ := Fragments.exact_getPartialPacket_iff hsome hholds.sorted hshort
  rw [exact_of_perm hholds.perm] at hexact
  have hlist' : s.timeoutEventList = [] ++ e :: rest := hlist
  refine ⟨{ s with
    fragments := update s.fragments e.key none
    received := update s.received e.key []
    timedOut := s.timedOut ++
      [⟨e, s.now, fragments, s.received e.key, r, decide (r.packet.length > 8)⟩] },
    ?_, rfl, rfl, h.remove hlist' s.completed (s.timedOut ++ [_]) ?_ ?_ ?_, ?_⟩
  · unfold Ipv4L3Protocol.handleFragmentsTimeout
    rw [hkey]
    dsimp only
    rw [hr]
  · rw [map_append, ← append_assoc]
    exact perm_append_singleton _ _
  · intro x hx
    rcases mem_append.mp hx with hold | hin
    · exact h.expired x hold
    · rw [mem_singleton.mp hin]
      obtain ⟨time, hiter, htime'⟩ := h.time e he
      exact ⟨time, hiter, htime.symm.trans htime'⟩
  · intro x hx
    rcases mem_append.mp hx with hold | hin
    · exact h.results x hold
    · rw [mem_singleton.mp hin]
      exact hexact
  · intro key fragments' iter' hin
    replace hin : update s.fragments e.key none key = some (fragments', iter') := hin
    show update s.received e.key [] key ≠ []
    by_cases heq : key = e.key
    · rw [heq, update_self] at hin
      cases hin
    · rw [update_of_ne heq] at hin ⊢
      exact hfilled key fragments' iter' hin

/-- **The loop of `HandleTimeout`** gives up all whose time is over. -/
theorem Inv.expire (entries : List TimeoutEntry) {s : Ipv4L3Protocol} (h : Inv timeout s)
    (hfilled : s.Filled) (hlist : s.timeoutEventList = entries) :
    ∃ s', expire entries s = .ok s' ∧ s'.now = s.now ∧ s'.timeoutEvents = s.timeoutEvents ∧
      Inv timeout s' ∧ s'.Filled := by
  induction entries generalizing s with
  | nil => exact ⟨s, rfl, rfl, rfl, h, hfilled⟩
  | cons e rest ih =>
    unfold Ipv4L3Protocol.expire
    split
    · rename_i htime
      obtain ⟨s1, hs1, hnow1, hevents1, h1, hfilled1⟩ :=
        h.handleFragmentsTimeout hfilled hlist htime
      obtain ⟨s', hs', hnow', hevents', h', hfilled'⟩ := ih h1 hfilled1 rfl
      refine ⟨s', ?_, hnow'.trans hnow1, hevents'.trans hevents1, h', hfilled'⟩
      rw [hs1]
      exact hs'
    · exact ⟨s, rfl, rfl, rfl, h, hfilled⟩

/-- **The step lemma** for an event of `HandleTimeout`: it waits for the next datagram, and never
for a time that is over. -/
theorem Inv.handleTimeout (h : Inv timeout s) (hfilled : s.Filled) :
    ∃ s', s.handleTimeout = .ok s' ∧ Inv timeout s' ∧ s'.Scheduled ∧ s'.Filled := by
  obtain ⟨s1, hs1, hnow1, -, h1, hfilled1⟩ := h.expire _ hfilled rfl
  unfold Ipv4L3Protocol.handleTimeout
  rw [hs1]
  show ∃ s', s1.scheduleNext = .ok s' ∧ _
  unfold scheduleNext
  cases hlist : s1.timeoutEventList with
  | nil =>
    refine ⟨s1, rfl, h1, fun e he => ?_, hfilled1⟩
    rw [hlist] at he
    cases he
  | cons e rest =>
    have hdue := h1.due e (hlist ▸ mem_cons_self)
    have htime : s1.now + ((e.time : ℤ) - s1.now).toNat = e.time := by omega
    have hsorted := h1.sorted
    rw [hlist] at hsorted
    dsimp only
    unfold schedule
    rw [if_neg (by omega), htime]
    refine ⟨_, rfl, { h1 with late := ?_ }, ?_, hfilled1⟩
    · intro event hevent
      rcases mem_append.mp hevent with hold | hin
      · exact h1.late event hold
      · rw [mem_singleton.mp hin]
        exact hdue
    · intro e' he'
      replace he' : e' ∈ s1.timeoutEventList := he'
      rw [hlist] at he'
      refine ⟨e.time, mem_append_right _ mem_cons_self, ?_⟩
      rcases mem_cons.mp he' with rfl | hin
      · exact Nat.le_refl _
      · exact (pairwise_cons.mp hsorted).1 e' hin

/-! ## All runs -/

/-- What a state has in common with the ones before it. -/
structure Good (timeout : ℕ) (s : Ipv4L3Protocol) : Prop where
  inv : Inv timeout s
  scheduled : s.Scheduled
  filled : s.Filled

theorem good_init (timeout : ℕ) : Good timeout {} where
  inv :=
    { listed := nofun, waits := nofun, keys := nodup_nil, once := .refl _, past := nofun
      time := nofun, due := nofun, sorted := .nil, expired := nofun, holds := nofun
      fresh := fun _ _ => rfl, short := nofun, late := nofun, results := nofun }
  scheduled := nofun
  filled := nofun

/-- **The step lemma**: whatever happens, nothing fails. -/
theorem Good.step (h : Good timeout s) (i : Input) (hi : s.enabled i) :
    ∃ s', s.step timeout i = .ok s' ∧ Good timeout s' := by
  obtain ⟨hinv, hs, hfilled⟩ := h
  cases i with
  | tick time =>
    obtain ⟨hle, hevents⟩ := hi
    refine ⟨_, rfl, { hinv with past := ?_, due := ?_, late := hevents }, hs, hfilled⟩
    · intro t ht
      exact (hinv.past t ht).trans hle
    · intro e he
      obtain ⟨event, hevent, htime⟩ := hs e he
      exact (hevents event hevent).trans htime
  | receive ipHeader iif f =>
    obtain ⟨s', hs', hinv', hscheduled', hfilled'⟩ :=
      hinv.processFragment hs hfilled ipHeader iif hi
    exact ⟨s', hs', hinv', hscheduled', hfilled'⟩
  | timeout =>
    have hinv1 : Inv timeout { s with timeoutEvents := s.timeoutEvents.erase s.now } :=
      { hinv with late := fun event hevent => hinv.late event (mem_of_mem_erase hevent) }
    obtain ⟨s', hs', hinv', hscheduled', hfilled'⟩ := hinv1.handleTimeout hfilled
    exact ⟨s', hs', hinv', hscheduled', hfilled'⟩

/-- **The expiry of datagrams.**  The map and the list have the same datagrams; every datagram that
was begun waits, or is complete, or was given up, once; those that wait are not yet due, and the
others were given up at their time; an event is pending for the first one; nothing fails; and what
is given up is exact. -/
structure Expires (timeout : ℕ) (s : Ipv4L3Protocol) : Prop where
  oneToOne : (s.timeoutEventList.map (·.key)).Nodup ∧
    (∀ key, (∃ x, s.fragments key = some x) ↔ ∃ e ∈ s.timeoutEventList, e.key = key) ∧
    ∀ e ∈ s.timeoutEventList, ∃ fragments, s.fragments e.key = some (fragments, e.iter)
  once : (s.timeoutEventList.map (·.iter) ++
    (s.completed.map Prod.fst ++ s.timedOut.map (·.entry.iter))).Perm (List.range s.started.length)
  waiting : ∀ e ∈ s.timeoutEventList, ∃ time, s.started[e.iter]? = some time ∧
    e.time = time + timeout ∧ s.now ≤ time + timeout
  expired : ∀ x ∈ s.timedOut, ∃ time, s.started[x.entry.iter]? = some time ∧
    x.now = time + timeout
  pending : ∀ e rest, s.timeoutEventList = e :: rest → ∃ event ∈ s.timeoutEvents, event ≤ e.time
  total : ∀ i, s.enabled i → ∃ s', s.step timeout i = .ok s'
  exact : ∀ x ∈ s.timedOut, x.result.Exact (x.received.map Ipv4Fragment.piece)

/-- **Reassembly expires** in every run as it should, if and only if the fragments of the datagrams
that were given up are growing. -/
theorem expires_iff_growing (timeout : ℕ) (is : List Input) (s : Ipv4L3Protocol)
    (hrun : (machine timeout).Run (fun _ _ => True) {} is s) :
    Expires timeout s ↔ ∀ x ∈ s.timedOut, Growing 0 x.fragments.fragments := by
  have h : Good timeout s := by
    refine hrun.invariant (Good timeout) (fun s i hs hi _ => ?_) (good_init timeout)
    obtain ⟨s', hs', hgood⟩ := hs.step i hi
    show Post (step timeout s i) _
    rw [hs']
    exact hgood
  obtain ⟨hinv, hscheduled, -⟩ := id h
  constructor
  · intro hexpires x hx
    exact (hinv.results x hx).mp (hexpires.exact x hx)
  · intro hgrowing
    refine ⟨⟨hinv.keys, fun key => ⟨?_, ?_⟩, hinv.listed⟩, hinv.once, ?_, hinv.expired, ?_, ?_, ?_⟩
    · rintro ⟨⟨fragments, iter⟩, hkey⟩
      exact hinv.waits key fragments iter hkey
    · rintro ⟨e, he, rfl⟩
      obtain ⟨fragments, hfragments⟩ := hinv.listed e he
      exact ⟨_, hfragments⟩
    · intro e he
      obtain ⟨time, hiter, htime⟩ := hinv.time e he
      exact ⟨time, hiter, htime, htime ▸ hinv.due e he⟩
    · intro e rest hlist
      exact hscheduled e (hlist ▸ mem_cons_self)
    · intro i hi
      obtain ⟨s', hs', -⟩ := h.step i hi
      exact ⟨s', hs'⟩
    · intro x hx
      exact (hinv.results x hx).mpr (hgrowing x hx)

/-- The start of a datagram, then a fragment, and nothing else until its time is over. -/
def sampleRun (f : Ipv4Fragment) : List Input :=
  [.receive Receiver.sampleFlow 1 ⟨0, true, List.replicate 24 7⟩,
    .receive Receiver.sampleFlow 1 f, .tick 30, .timeout]

/-- A fragment that overlaps the first one and reaches further. -/
theorem expires_iff_growing_sample : ∃ s, s.timedOut.map (·.result.packet.length) = [32] ∧
    (Expires 30 s ↔ ∀ x ∈ s.timedOut, Growing 0 x.fragments.fragments) := by
  obtain ⟨s, hrun, hlengths⟩ := Machine.exists_run_of_exec (m := machine 30) (fun _ _ => true)
    (fun s => s.timedOut.map (·.result.packet.length) == [32]) {}
    (sampleRun ⟨16, true, List.replicate 16 7⟩) (by decide +kernel)
  exact ⟨s, eq_of_beq hlengths, expires_iff_growing 30 _ s (hrun.mono fun _ _ _ => trivial)⟩

/-- **A fragment that is embedded** in the one before it makes a size negative. -/
theorem not_expires : ¬ ∀ (timeout : ℕ) (is : List Input) (s : Ipv4L3Protocol),
    (machine timeout).Run (fun _ _ => True) {} is s → Expires timeout s := by
  intro hall
  obtain ⟨s, hrun, hsizes⟩ := Machine.exists_run_of_exec (m := machine 30) (fun _ _ => true)
    (fun s => s.timedOut.any fun x => x.result.newSizes.any fun newSize => decide (newSize < 0)) {}
    (sampleRun ⟨8, true, List.replicate 8 7⟩) (by decide +kernel)
  have hexpires := hall 30 _ s (hrun.mono fun _ _ _ => trivial)
  obtain ⟨x, hx, hany⟩ := any_eq_true.mp hsizes
  obtain ⟨newSize, hmem, hneg⟩ := any_eq_true.mp hany
  have hle := (hexpires.exact x hx).noUnderflow newSize hmem
  exact absurd (of_decide_eq_true hneg) (Int.not_lt.mpr hle)

end Ns3Dsme.Internet.Ipv4L3Protocol
