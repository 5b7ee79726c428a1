/-
# The calendar scheduler

`CalendarScheduler` writes its events on the pages of a calendar: bucket
`(ts / width) % nBuckets` holds the events of one day of every year.  The next event is looked
for from the day of the last one on, for a year; if that year has none, the least of what is
first in the buckets is taken.  The number of buckets and the width follow the number of events
and their distances.

It is a priority queue as long as the number of events fits the counter `m_qSize` and an event
that is to be removed can be told from the others by its number.
-/
import Ns3Dsme.Core.Scheduler
import Ns3Dsme.Lib.Calendar
import Ns3Dsme.Lib.KeyedList
import Ns3Dsme.Lib.Machine

open List Program Calendar

namespace Ns3Dsme.Core

/-- The members that the calls read and write; the array of buckets knows its own length.  Times
are numbers below `2 ^ 64`. -/
structure CalendarScheduler where
  reverse : Bool
  buckets : List (List Event)
  width : ℕ
  lastBucket : ℕ
  bucketTop : ℕ
  lastPrio : ℕ
  qSize : ℕ

/-- The time of an event. -/
def Event.ts (e : Event) : ℕ := e.key.ts.toNat

namespace CalendarScheduler

/-- `m_nBuckets`. -/
def nBuckets (s : CalendarScheduler) : ℕ := s.buckets.length

/-- `m_buckets[i]`. -/
def bucket (s : CalendarScheduler) (i : ℕ) : List Event := s.buckets.getD i []

/-- `IsEmpty`. -/
def isEmpty (s : CalendarScheduler) : Bool := s.qSize == 0

/-! ## The order in a bucket -/

/-- The function that `SetReverse` puts into `Order`. -/
def order (reverse : Bool) (a b : EventKey) : Bool :=
  if reverse then a.isGreater b else a.isLess b

/-- The function that `SetReverse` puts into `NextEvent`; an empty bucket has none. -/
def nextEvent (reverse : Bool) (bucket : List Event) : Option Event :=
  if reverse then bucket.getLast? else bucket.head?

/-- The function that `SetReverse` puts into `Pop`. -/
def pop (reverse : Bool) (bucket : List Event) : List Event :=
  if reverse then bucket.dropLast else bucket.tail

/-! ## Buckets -/

/-- `Hash`: the bucket of a time. -/
def hash (s : CalendarScheduler) (ts : ℕ) : ℕ := ts / s.width % s.nBuckets

/-- `DoInit`: empty buckets, with the first day at `startPrio`. -/
def init (s : CalendarScheduler) (nBuckets width startPrio : ℕ) : CalendarScheduler :=
  { s with
    buckets := List.replicate nBuckets []
    width := width
    lastPrio := startPrio
    lastBucket := startPrio / width % nBuckets
    bucketTop := (startPrio / width + 1) * width % 2 ^ 64 }

/-- An event comes before the first one of its bucket that it has to precede. -/
def doInsert (s : CalendarScheduler) (ev : Event) : CalendarScheduler :=
  { s with
    buckets := s.buckets.modify (s.hash ev.ts) fun bucket =>
      bucket.orderedInsert (fun a b => order s.reverse a.key b.key) ev }

/-! ## Looking for the next event -/

/-- How the loop over the buckets ends: at an event of the day that the loop has come to, or
behind the last bucket with the least of the events seen. -/
inductive Swept
  | due (i bucketTop : ℕ) (next : Event)
  | least (min : Option (ℕ × Event))

/-- The least event so far and its bucket, after bucket `i` with its next event.  `bound` is
the key that the comparison starts with. -/
def lowest (bound : EventKey) (least : Option (ℕ × Event)) (i : ℕ) :
    Option Event → Option (ℕ × Event)
  | some next =>
    if next.key.isLess (least.elim bound fun min => min.2.key) then some (i, next) else least
  | none => least

/-- The loop of `PeekNext` and of `DoRemoveNext`, which start it with different keys.  `turns`
bounds its turns; it is a fault to need more. -/
def sweepFrom (s : CalendarScheduler) (bound : EventKey) (i bucketTop : ℕ)
    (least : Option (ℕ × Event)) : ℕ → Exec Swept
  | 0 => .error .outOfRange
  | turns + 1 =>
    let next := nextEvent s.reverse (s.bucket i)
    match next.filter fun next => next.ts < bucketTop with
    | some next => .ok (.due i bucketTop next)
    | none =>
      let least := lowest bound least i next
      let i := (i + 1) % s.nBuckets
      let bucketTop := (bucketTop + s.width) % 2 ^ 64
      if i ≠ s.lastBucket then s.sweepFrom bound i bucketTop least turns
      else .ok (.least least)

/-- One year from the last bucket on. -/
def sweep (s : CalendarScheduler) (bound : EventKey) : Exec Swept :=
  s.sweepFrom bound s.lastBucket s.bucketTop none s.nBuckets

/-- `minEvent` as `PeekNext` starts with it. -/
def peekMin : Event := ⟨0, ⟨BitVec.ofNat 64 (2 ^ 64 - 1), BitVec.ofNat 32 (2 ^ 32 - 1), 0⟩⟩

/-- `minKey` as `DoRemoveNext` starts with it. -/
def removeMin : EventKey :=
  ⟨BitVec.ofNat 64 (2 ^ 64 - 1), 0, BitVec.ofNat 32 (2 ^ 32 - 1)⟩

/-- What `PeekNext` returns behind its loop. -/
def Swept.event : Swept → Event
  | .due _ _ next => next
  | .least min => min.elim peekMin Prod.snd

/-- `PeekNext`. -/
def peekNext (s : CalendarScheduler) : Exec Event :=
  if s.isEmpty then .error .assertFailed else (s.sweep peekMin.key).map Swept.event

/-- What `DoRemoveNext` does behind its loop; without any event there is no bucket to take one
from. -/
def takeNext (s : CalendarScheduler) : Swept → Exec (Event × CalendarScheduler)
  | .due i bucketTop next =>
    .ok (next, { s with
      lastBucket := i
      lastPrio := next.ts
      bucketTop := bucketTop
      buckets := s.buckets.modify i (pop s.reverse) })
  | .least (some (i, min)) =>
    match nextEvent s.reverse (s.bucket i) with
    | some next =>
      .ok (next, { s with
        lastPrio := min.ts
        lastBucket := s.hash min.ts
        bucketTop := (min.ts / s.width + 1) * s.width % 2 ^ 64
        buckets := s.buckets.modify i (pop s.reverse) })
    | none => .error .outOfRange
  | .least none => .error .outOfRange

/-- `DoRemoveNext`. -/
def doRemoveNext (s : CalendarScheduler) : Exec (Event × CalendarScheduler) :=
  if s.isEmpty then .error .assertFailed else s.sweep removeMin >>= s.takeNext

/-! ## Resizing -/

/-- `nSamples` in `CalculateNewWidth`. -/
def nSamples (qSize : ℕ) : ℕ :=
  let n := if qSize ≤ 5 then qSize else 5 + qSize / 10
  if 25 < n then 25 else n

/-- The samples are taken out one after the other. -/
def takeSamples (s : CalendarScheduler) : ℕ → Exec (List Event × CalendarScheduler)
  | 0 => .ok ([], s)
  | n + 1 => do
    let first ← s.doRemoveNext
    let rest ← first.2.takeSamples n
    return (first.1 :: rest.1, rest.2)

/-- The distances between successive samples. -/
def separations (samples : List Event) : List ℕ :=
  List.zipWith (fun cur next => (next.key.ts - cur.key.ts).toNat) samples samples.tail

/-- Three times the sum of the distances that are at most twice the average, and at least one. -/
def newWidth (samples : List Event) (nSamples : ℕ) : ℕ :=
  let totalSeparation := (separations samples).sum % 2 ^ 64
  let twiceAvg := totalSeparation / (nSamples - 1) * 2 % 2 ^ 64
  let totalSeparation := ((separations samples).filter (· ≤ twiceAvg)).sum % 2 ^ 64
  max (totalSeparation * 3 % 2 ^ 64) 1

/-- `CalculateNewWidth`: the samples are put back. -/
def calculateNewWidth (s : CalendarScheduler) : Exec (ℕ × CalendarScheduler) :=
  if s.qSize < 2 then .ok (1, s)
  else do
    let taken ← s.takeSamples (nSamples s.qSize)
    let back := taken.1.foldl doInsert taken.2
    return (newWidth taken.1 (nSamples s.qSize),
      { back with
        lastBucket := s.lastBucket
        bucketTop := s.bucketTop
        lastPrio := s.lastPrio })

/-- `DoResize`: all events are put into new buckets. -/
def doResize (s : CalendarScheduler) (newSize newWidth : ℕ) : CalendarScheduler :=
  s.buckets.foldl (fun t bucket => bucket.foldl doInsert t) (s.init newSize newWidth s.lastPrio)

/-- `Resize`. -/
def resize (s : CalendarScheduler) (newSize : ℕ) : Exec CalendarScheduler := do
  let calculated ← s.calculateNewWidth
  return calculated.2.doResize newSize calculated.1

/-- `ResizeUp`: twice as many buckets, if they are too full. -/
def resizeUp (s : CalendarScheduler) : Exec CalendarScheduler :=
  if s.qSize > s.nBuckets * 2 ∧ s.nBuckets < 32768 then s.resize (s.nBuckets * 2) else .ok s

/-- `ResizeDown`: half as many, if they are too empty. -/
def resizeDown (s : CalendarScheduler) : Exec CalendarScheduler :=
  if s.qSize < s.nBuckets / 2 then s.resize (s.nBuckets / 2) else .ok s

/-! ## The calls -/

/-- The constructor with the attribute `Reverse`. -/
def construct (reverse : Bool) : CalendarScheduler :=
  { init ⟨reverse, [], 0, 0, 0, 0, 0⟩ 2 1 0 with qSize := 0 }

/-- Only the counter of the events changes. -/
def setSize (s : CalendarScheduler) (qSize : ℕ) : CalendarScheduler := { s with qSize := qSize }

/-- `m_qSize++`. -/
def grow (s : CalendarScheduler) : CalendarScheduler := s.setSize ((s.qSize + 1) % 2 ^ 32)

/-- `m_qSize--`. -/
def shrink (s : CalendarScheduler) : CalendarScheduler :=
  s.setSize ((s.qSize + (2 ^ 32 - 1)) % 2 ^ 32)

/-- `Insert`. -/
def insert (s : CalendarScheduler) (ev : Event) : Exec CalendarScheduler :=
  (s.doInsert ev).grow.resizeUp

/-- `RemoveNext`. -/
def removeNext (s : CalendarScheduler) : Exec (Event × CalendarScheduler) :=
  if s.isEmpty then .error .assertFailed
  else do
    let taken ← s.doRemoveNext
    let s ← taken.2.shrink.resizeDown
    return (taken.1, s)

/-- Without the first event of the bucket that has the number. -/
def erase (s : CalendarScheduler) (ev : Event) : CalendarScheduler :=
  { s with
    buckets := s.buckets.modify (s.hash ev.ts) fun bucket =>
      bucket.eraseP fun e => e.key.uid == ev.key.uid }

/-- `Remove`: only the number of the event is looked for. -/
def remove (s : CalendarScheduler) (ev : Event) : Exec CalendarScheduler :=
  if s.isEmpty then .error .assertFailed
  else
    match (s.bucket (s.hash ev.ts)).find? fun e => e.key.uid == ev.key.uid with
    | some e =>
      if ev.impl = e.impl then (s.erase ev).shrink.resizeDown else .error .assertFailed
    | none => .error .assertFailed

/-- Carry out a call. -/
def call (s : CalendarScheduler) : Call → Exec (Option Event × CalendarScheduler)
  | .insert ev => (s.insert ev).map fun s => (none, s)
  | .peekNext => s.peekNext.map fun e => (some e, s)
  | .removeNext => s.removeNext.map fun r => (some r.1, r.2)
  | .remove ev => (s.remove ev).map fun s => (none, s)

/-- The events in the buckets. -/
def stored (s : CalendarScheduler) : Multiset Event := s.buckets.flatten

/-! ## One bucket -/

/-- The order in which a bucket keeps two events. -/
def Follows (reverse : Bool) (a b : Event) : Prop :=
  if reverse then b.rank ≤ a.rank else a.rank ≤ b.rank

/-- `Order` is the strict order of a bucket. -/
theorem order_iff (reverse : Bool) (a b : Event) :
    order reverse a.key b.key = true ↔ ¬ Follows reverse b a := by
  unfold order Follows Event.rank
  cases reverse
  · rw [if_neg Bool.false_ne_true, if_neg Bool.false_ne_true, EventKey.isLess_iff, not_le]
  · rw [if_pos rfl, if_pos rfl, EventKey.isGreater_eq_isLess, EventKey.isLess_iff, not_le]

/-- Of two events one may stand in front of the other. -/
theorem Follows.total (reverse : Bool) (a b : Event) : Follows reverse a b ∨ Follows reverse b a := by
  unfold Follows
  cases reverse
  · exact le_total _ _
  · exact le_total _ _

variable {s : CalendarScheduler} {e : Event} {least : Option (ℕ × Event)} {i : ℕ} {reverse : Bool}
  (bound : EventKey)

/-- The order within a bucket is transitive. -/
theorem Follows.trans {a b c : Event} (hab : Follows reverse a b) (hbc : Follows reverse b c) :
    Follows reverse a c := by
  unfold Follows at hab hbc ⊢
  cases reverse
  · exact le_trans hab hbc
  · exact le_trans hbc hab

/-- `DoInsert` keeps a bucket sorted. -/
theorem pairwise_insert (reverse : Bool) (ev : Event) (bucket : List Event)
    (hsorted : bucket.Pairwise (Follows reverse)) :
    (bucket.orderedInsert (fun a b => order reverse a.key b.key) ev).Pairwise
      (Follows reverse) := by
  refine KeyedList.pairwise_orderedInsert _ (Follows reverse) ?_ ?_ (fun a b c => Follows.trans) ev bucket
    hsorted
  · intro a b hab
    exact (Follows.total reverse a b).resolve_right ((order_iff reverse a b).mp hab)
  · intro a b hab
    rwa [order_iff, not_not] at hab

/-- Only an empty bucket has no next event. -/
theorem nextEvent_eq_none_iff (reverse : Bool) (bucket : List Event) :
    nextEvent reverse bucket = none ↔ bucket = [] := by
  unfold nextEvent
  cases reverse
  · exact List.head?_eq_none_iff
  · exact List.getLast?_eq_none_iff

/-- `Pop` takes out what `NextEvent` shows. -/
theorem perm_pop {bucket : List Event} (hnext : nextEvent reverse bucket = some e) :
    bucket.Perm (e :: pop reverse bucket) := by
  unfold nextEvent at hnext
  unfold pop
  cases reverse
  · have hcons : e :: bucket.tail = bucket := cons_head?_tail hnext
    show bucket.Perm (e :: bucket.tail)
    rw [hcons]
  · have happend : bucket.dropLast ++ [e] = bucket := dropLast_append_getLast? e hnext
    show bucket.Perm (e :: bucket.dropLast)
    have hperm := perm_append_singleton e bucket.dropLast
    rwa [happend] at hperm

/-- What is left after a pop keeps its order. -/
theorem pop_sublist (reverse : Bool) (bucket : List Event) :
    (pop reverse bucket).Sublist bucket := by
  unfold pop
  cases reverse
  · exact tail_sublist bucket
  · exact dropLast_sublist bucket

/-- In either order `NextEvent` shows the least event of a sorted bucket. -/
theorem nextEvent_least {bucket : List Event} (hnext : nextEvent reverse bucket = some e)
    (hsorted : bucket.Pairwise (Follows reverse)) :
    ∀ e' ∈ bucket, e.rank ≤ e'.rank := by
  intro e' he'
  unfold nextEvent at hnext
  cases reverse
  · have hcons : e :: bucket.tail = bucket := cons_head?_tail hnext
    rw [← hcons] at hsorted he'
    rcases mem_cons.mp he' with rfl | htail
    · exact le_refl _
    · exact (pairwise_cons.mp hsorted).1 e' htail
  · have happend : bucket.dropLast ++ [e] = bucket := dropLast_append_getLast? e hnext
    rw [← happend] at hsorted he'
    rcases mem_append.mp he' with hinit | hlast
    · exact (pairwise_append.mp hsorted).2.2 e' hinit e (mem_singleton_self e)
    · rw [mem_singleton.mp hlast]

/-! ## What holds of the buckets -/

/-- The buckets are sorted and every event is in the one of its time. -/
structure Kept (s : CalendarScheduler) : Prop where
  width_pos : 0 < s.width
  width_lt : s.width < 2 ^ 64
  nBuckets_pos : 0 < s.nBuckets
  nBuckets_lt : s.nBuckets < 2 ^ 16
  sorted : ∀ i, (s.bucket i).Pairwise (Follows s.reverse)
  placed : ∀ i, ∀ e ∈ s.bucket i, s.hash e.ts = i
  small : ∀ e ∈ s.stored, e.ts < 2 ^ 63

/-- The day that the search starts from is that of the last event, and no event is earlier than
that one. -/
structure Current (s : CalendarScheduler) : Prop where
  lastBucket : s.lastBucket = s.hash s.lastPrio
  bucketTop : s.bucketTop = (s.lastPrio / s.width + 1) * s.width
  small : s.lastPrio < 2 ^ 63
  late : ∀ e ∈ s.stored, s.lastPrio ≤ e.ts

/-- The same pages, whatever is written on them. -/
structure SamePages (s t : CalendarScheduler) : Prop where
  reverse : t.reverse = s.reverse
  width : t.width = s.width
  nBuckets : t.nBuckets = s.nBuckets
  qSize : t.qSize = s.qSize

/-- The search starts from the same day. -/
structure SameDay (s t : CalendarScheduler) : Prop where
  lastBucket : t.lastBucket = s.lastBucket
  bucketTop : t.bucketTop = s.bucketTop
  lastPrio : t.lastPrio = s.lastPrio

theorem SamePages.trans {s t u : CalendarScheduler} (h : SamePages s t) (h' : SamePages t u) :
    SamePages s u :=
  ⟨h'.reverse.trans h.reverse, h'.width.trans h.width, h'.nBuckets.trans h.nBuckets,
    h'.qSize.trans h.qSize⟩

theorem SameDay.trans {s t u : CalendarScheduler} (h : SameDay s t) (h' : SameDay t u) :
    SameDay s u :=
  ⟨h'.lastBucket.trans h.lastBucket, h'.bucketTop.trans h.bucketTop,
    h'.lastPrio.trans h.lastPrio⟩

/-- The bucket of a time depends on the pages only. -/
theorem SamePages.hash {s t : CalendarScheduler} (h : SamePages s t) (ts : ℕ) :
    t.hash ts = s.hash ts := by
  unfold CalendarScheduler.hash
  rw [h.width, h.nBuckets]

/-- An event is stored if some bucket holds it. -/
theorem mem_stored_iff (s : CalendarScheduler) (e : Event) :
    e ∈ s.stored ↔ ∃ i, e ∈ s.bucket i := by
  unfold stored bucket
  rw [Multiset.mem_coe, mem_flatten]
  constructor
  · rintro ⟨page, hpage, he⟩
    obtain ⟨i, hi⟩ := mem_iff_getElem?.mp hpage
    refine ⟨i, ?_⟩
    rwa [getD_eq_getElem?_getD, hi]
  · rintro ⟨i, he⟩
    rw [getD_eq_getElem?_getD] at he
    cases hpage : s.buckets[i]? with
    | none =>
      rw [hpage] at he
      exact absurd he not_mem_nil
    | some page =>
      rw [hpage] at he
      exact ⟨page, mem_of_getElem? hpage, he⟩

/-- Every time has a bucket. -/
theorem Kept.hash_lt (hkept : s.Kept) (ts : ℕ) :
    s.hash ts < s.buckets.length := Nat.mod_lt _ hkept.nBuckets_pos

/-- An event is in the bucket of its time. -/
theorem Kept.mem_bucket (hkept : s.Kept) (he : e ∈ s.stored) :
    e ∈ s.bucket (s.hash e.ts) := by
  obtain ⟨i, hi⟩ := (mem_stored_iff s e).mp he
  rwa [hkept.placed i e hi]

/-- What is changed in one bucket. -/
theorem Kept.modify {s t : CalendarScheduler} (hkept : s.Kept) (hsame : SamePages s t)
    (hi : i < s.buckets.length) (f : List Event → List Event)
    (hbuckets : t.buckets = s.buckets.modify i f)
    (hsorted : (f (s.bucket i)).Pairwise (Follows s.reverse))
    (hplaced : ∀ e ∈ f (s.bucket i), s.hash e.ts = i ∧ e.ts < 2 ^ 63) : t.Kept := by
  have hbucket (j : ℕ) : t.bucket j = if i = j then f (s.bucket i) else s.bucket j := by
    unfold bucket
    rw [hbuckets, getD_modify s.buckets i j hi f]
  have hplaced' : ∀ j, ∀ e ∈ t.bucket j, s.hash e.ts = j ∧ e.ts < 2 ^ 63 := by
    intro j e he
    rw [hbucket j] at he
    split at he
    · rename_i heq
      rw [← heq]
      exact hplaced e he
    · exact ⟨hkept.placed j e he, hkept.small e ((mem_stored_iff s e).mpr ⟨j, he⟩)⟩
  constructor
  · rw [hsame.width]
    exact hkept.width_pos
  · rw [hsame.width]
    exact hkept.width_lt
  · rw [hsame.nBuckets]
    exact hkept.nBuckets_pos
  · rw [hsame.nBuckets]
    exact hkept.nBuckets_lt
  · intro j
    rw [hbucket j, hsame.reverse]
    split
    · exact hsorted
    · exact hkept.sorted j
  · intro j e he
    rw [hsame.hash]
    exact (hplaced' j e he).1
  · intro e he
    obtain ⟨j, hj⟩ := (mem_stored_iff t e).mp he
    exact (hplaced' j e hj).2

/-! ## Putting events in -/

/-- An insertion leaves the pages alone. -/
theorem samePages_doInsert (s : CalendarScheduler) (ev : Event) : SamePages s (s.doInsert ev) :=
  ⟨rfl, rfl, length_modify .., rfl⟩

/-- An insertion leaves the day of the calendar alone. -/
theorem sameDay_doInsert (s : CalendarScheduler) (ev : Event) : SameDay s (s.doInsert ev) :=
  ⟨rfl, rfl, rfl⟩

/-- `DoInsert` adds the event and loses none. -/
theorem Kept.stored_doInsert (hkept : s.Kept) (ev : Event) :
    (s.doInsert ev).stored = ev ::ₘ s.stored := by
  refine Multiset.coe_eq_coe.mpr ?_
  exact perm_flatten_modify s.buckets _ (hkept.hash_lt ev.ts) _ [ev] [] (perm_orderedInsert ..)

/-- `DoInsert` keeps every event in the bucket of its time, in order. -/
theorem Kept.doInsert (hkept : s.Kept) (ev : Event) (hev : ev.ts < 2 ^ 63) :
    (s.doInsert ev).Kept := by
  refine hkept.modify (samePages_doInsert s ev) (hkept.hash_lt ev.ts) _ rfl
    (pairwise_insert _ ev _ (hkept.sorted _)) fun e he => ?_
  rcases mem_cons.mp ((perm_orderedInsert ..).mem_iff.mp he) with rfl | he
  · exact ⟨rfl, hev⟩
  · exact ⟨hkept.placed _ e he, hkept.small e ((mem_stored_iff s e).mpr ⟨_, he⟩)⟩

/-- Putting several events in, one after the other. -/
theorem Kept.foldl_doInsert (es : List Event) (hkept : s.Kept) (hes : ∀ e ∈ es, e.ts < 2 ^ 63) :
    (es.foldl CalendarScheduler.doInsert s).Kept ∧
      SamePages s (es.foldl CalendarScheduler.doInsert s) ∧
      SameDay s (es.foldl CalendarScheduler.doInsert s) ∧
      (es.foldl CalendarScheduler.doInsert s).stored = es + s.stored := by
  induction es generalizing s with
  | nil => exact ⟨hkept, ⟨rfl, rfl, rfl, rfl⟩, ⟨rfl, rfl, rfl⟩, (Multiset.zero_add _).symm⟩
  | cons e es ih =>
    rw [foldl_cons]
    obtain ⟨hkept', hpages, hday, hstored⟩ :=
      ih (hkept.doInsert e (hes e mem_cons_self)) fun e' he' =>
        hes e' (mem_cons_of_mem _ he')
    refine ⟨hkept', (samePages_doInsert s e).trans hpages, (sameDay_doInsert s e).trans hday, ?_⟩
    rw [hstored, hkept.stored_doInsert, ← Multiset.cons_coe, Multiset.add_cons, Multiset.cons_add]

/-! ## The sweep -/

/-- What is known when the loop has come to page `k` of its year: the days before are empty, and
`least` is the least of what their pages hold. -/
structure Searched (s : CalendarScheduler) (k : ℕ) (least : Option (ℕ × Event)) : Prop where
  later : ∀ e ∈ s.stored, s.lastPrio / s.width + k ≤ e.ts / s.width
  seen : ∀ j, j < k → ∀ e ∈ s.bucket ((s.lastPrio / s.width + j) % s.nBuckets),
    ∃ min, least = some min ∧ min.2.rank ≤ e.rank
  least : ∀ min, least = some min →
    nextEvent s.reverse (s.bucket min.1) = some min.2 ∧ min.2 ∈ s.stored

/-- What the loop finds: the next event, which is the first of its bucket. -/
structure Finds (s : CalendarScheduler) (i : ℕ) (e : Event) : Prop where
  isNext : IsNext s.stored e
  first : nextEvent s.reverse (s.bucket i) = some e
  page : i = s.hash e.ts

/-- How the loop may end where events are stored. -/
def Swept.Right (s : CalendarScheduler) : Swept → Prop
  | .due i bucketTop next =>
    Finds s i next ∧ bucketTop = (next.ts / s.width + 1) * s.width
  | .least (some (i, min)) => Finds s i min
  | .least none => False

/-- The time decides first. -/
theorem rank_lt_of_ts_lt {e e' : Event} (hts : e.ts < e'.ts) : e.rank < e'.rank :=
  (EventKey.rank_lt_iff e.key e'.key).mpr (.inl (BitVec.lt_def.mpr hts))

/-- The next event has the least time. -/
theorem ts_le_of_rank_le {e e' : Event} (hrank : e.rank ≤ e'.rank) : e.ts ≤ e'.ts :=
  not_lt.mp fun hts => not_lt_of_ge hrank (rank_lt_of_ts_lt hts)

/-- Behind a bucket with a next event the least one is known. -/
theorem lowest_some (least : Option (ℕ × Event)) (i : ℕ) (next : Event)
    (hbound : next.rank < bound.rank) :
    ∃ min, lowest bound least i (some next) = some min ∧ min.2.rank ≤ next.rank ∧
      (∀ old, least = some old → min.2.rank ≤ old.2.rank) ∧
      (min = (i, next) ∨ least = some min) := by
  cases least with
  | none =>
    have hlow : lowest bound none i (some next) = some (i, next) :=
      if_pos ((EventKey.isLess_iff next.key bound).mpr hbound)
    refine ⟨(i, next), hlow, le_refl _, ?_, .inl rfl⟩
    rintro old ⟨⟩
  | some old =>
    by_cases hless : next.rank < old.2.rank
    · have hlow : lowest bound (some old) i (some next) = some (i, next) :=
        if_pos ((EventKey.isLess_iff next.key old.2.key).mpr hless)
      refine ⟨(i, next), hlow, le_refl _, ?_, .inl rfl⟩
      rintro old' ⟨⟩
      exact hless.le
    · have hlow : lowest bound (some old) i (some next) = some old :=
        if_neg fun h => hless ((EventKey.isLess_iff next.key old.2.key).mp h)
      refine ⟨old, hlow, not_lt.mp hless, ?_, .inr rfl⟩
      rintro old' ⟨⟩
      exact le_refl _

/-- The next event of a bucket comes before all others of the bucket. -/
theorem Kept.exists_nextEvent (hkept : s.Kept) (he : e ∈ s.bucket i) :
    ∃ next, nextEvent s.reverse (s.bucket i) = some next ∧ next.rank ≤ e.rank := by
  cases hnext : nextEvent s.reverse (s.bucket i) with
  | none =>
    rw [(nextEvent_eq_none_iff _ _).mp hnext] at he
    exact absurd he not_mem_nil
  | some next => exact ⟨next, rfl, nextEvent_least hnext (hkept.sorted i) e he⟩

/-- What `NextEvent` shows is stored, in the bucket of its time. -/
theorem Kept.of_nextEvent (hkept : s.Kept) (hnext : nextEvent s.reverse (s.bucket i) = some e) :
    e ∈ s.stored ∧ s.hash e.ts = i := by
  have hmem : e ∈ s.bucket i := (perm_pop hnext).mem_iff.mpr mem_cons_self
  exact ⟨(mem_stored_iff s e).mpr ⟨i, hmem⟩, hkept.placed i e hmem⟩

/-- At the start of the loop nothing is known but the last event. -/
theorem Current.searched (hcur : s.Current) : Searched s 0 none := by
  constructor
  · intro e he
    exact Nat.div_le_div_right (hcur.late e he)
  · intro j hj
    exact absurd hj (Nat.not_lt_zero j)
  · rintro min ⟨⟩

/-- One turn of the loop, on a page with no event of the day. -/
theorem Searched.turn {k : ℕ} (hkept : s.Kept) (hbound : ∀ e ∈ s.stored, e.rank < bound.rank)
    (hsearched : Searched s k least)
    (hnot : ∀ next,
      nextEvent s.reverse (s.bucket ((s.lastPrio / s.width + k) % s.nBuckets)) = some next →
      (s.lastPrio / s.width + k + 1) * s.width ≤ next.ts) :
    Searched s (k + 1) (lowest bound least ((s.lastPrio / s.width + k) % s.nBuckets)
      (nextEvent s.reverse (s.bucket ((s.lastPrio / s.width + k) % s.nBuckets)))) := by
  generalize hi : (s.lastPrio / s.width + k) % s.nBuckets = i at hnot ⊢
  constructor
  · intro e he
    have hle := hsearched.later e he
    by_contra hlt
    have hday : e.ts / s.width = s.lastPrio / s.width + k := by omega
    -- an event of this day is on this page, and the first one there is not later
    have hpage : s.hash e.ts = i := by
      unfold hash
      rw [hday, hi]
    have hmem : e ∈ s.bucket i := by
      rw [← hpage]
      exact hkept.mem_bucket he
    obtain ⟨next, hnext, hrank⟩ := hkept.exists_nextEvent hmem
    have htop := (hnot next hnext).trans (ts_le_of_rank_le hrank)
    have hafter := (Nat.le_div_iff_mul_le hkept.width_pos).mpr htop
    omega
  · intro j hj e he
    rcases Nat.lt_succ_iff_lt_or_eq.mp hj with hj | rfl
    · obtain ⟨old, hold, hrank⟩ := hsearched.seen j hj e he
      cases hnext : nextEvent s.reverse (s.bucket i) with
      | none => exact ⟨old, hold, hrank⟩
      | some next =>
        obtain ⟨min, hmin, -, hless, -⟩ :=
          lowest_some bound least i next (hbound next (hkept.of_nextEvent hnext).1)
        exact ⟨min, hmin, (hless old hold).trans hrank⟩
    · rw [hi] at he
      obtain ⟨next, hnext, hrank⟩ := hkept.exists_nextEvent he
      obtain ⟨min, hmin, hle, -, -⟩ :=
        lowest_some bound least i next (hbound next (hkept.of_nextEvent hnext).1)
      rw [hnext]
      exact ⟨min, hmin, hle.trans hrank⟩
  · intro min hmin
    cases hnext : nextEvent s.reverse (s.bucket i) with
    | none =>
      rw [hnext] at hmin
      exact hsearched.least min hmin
    | some next =>
      obtain ⟨min', hmin', -, -, hone⟩ :=
        lowest_some bound least i next (hbound next (hkept.of_nextEvent hnext).1)
      rw [hnext, hmin'] at hmin
      cases hmin
      rcases hone with rfl | hold
      · exact ⟨hnext, (hkept.of_nextEvent hnext).1⟩
      · exact hsearched.least _ hold

/-- Behind the last page the least event of all is known. -/
theorem Searched.finds (hkept : s.Kept) (hcur : s.Current) (hstored : s.stored ≠ 0)
    (hsearched : Searched s s.nBuckets least) :
    (Swept.least least).Right s := by
  have hseen (e : Event) (he : e ∈ s.stored) :
      ∃ min, least = some min ∧ min.2.rank ≤ e.rank := by
    have hday : s.lastPrio / s.width ≤ e.ts / s.width := Nat.div_le_div_right (hcur.late e he)
    obtain ⟨j, hj, hpage⟩ := exists_page hkept.nBuckets_pos hday
    refine hsearched.seen j hj e ?_
    rw [← hpage]
    exact hkept.mem_bucket he
  obtain ⟨first, hfirst⟩ := Multiset.exists_mem_of_ne_zero hstored
  obtain ⟨⟨i, min⟩, rfl, -⟩ := hseen first hfirst
  obtain ⟨hnext, hmem⟩ := hsearched.least _ rfl
  refine ⟨⟨hmem, fun e he => ?_⟩, hnext, (hkept.of_nextEvent hnext).2.symm⟩
  obtain ⟨min', hmin', hrank⟩ := hseen e he
  cases hmin'
  exact hrank

/-- The first event of its bucket that belongs to the day the loop has come to is the next. -/
theorem Searched.due {k : ℕ} (hkept : s.Kept) (hsearched : Searched s k least)
    (hi : (s.lastPrio / s.width + k) % s.nBuckets = i) {next : Event}
    (hnext : nextEvent s.reverse (s.bucket i) = some next)
    (hday : next.ts / s.width = s.lastPrio / s.width + k) :
    (Swept.due i ((s.lastPrio / s.width + k + 1) * s.width) next).Right s := by
  obtain ⟨hmem, hpage⟩ := hkept.of_nextEvent hnext
  refine ⟨⟨⟨hmem, fun e he => ?_⟩, hnext, hpage.symm⟩, by rw [hday]⟩
  by_cases hsame : e.ts / s.width = s.lastPrio / s.width + k
  · have hebucket : e ∈ s.bucket i := by
      have hin := hkept.mem_bucket he
      unfold hash at hin
      rwa [hsame, hi] at hin
    exact nextEvent_least hnext (hkept.sorted i) e hebucket
  · have hle := hsearched.later e he
    have hlt : next.ts / s.width < e.ts / s.width := by omega
    exact (rank_lt_of_ts_lt (Nat.lt_of_div_lt_div hlt)).le

/-- **The sweep.**  Where events are stored, the loop ends at the next one. -/
theorem sweepFrom_right (hkept : s.Kept) (hcur : s.Current)
    (hbound : ∀ e ∈ s.stored, e.rank < bound.rank) (hstored : s.stored ≠ 0) (k turns : ℕ)
    (hk : k + turns = s.nBuckets) (hturns : 0 < turns) (least : Option (ℕ × Event))
    (hsearched : Searched s k least) :
    ∃ r, s.sweepFrom bound ((s.lastPrio / s.width + k) % s.nBuckets)
      ((s.lastPrio / s.width + k + 1) * s.width % 2 ^ 64) least turns = .ok r ∧ r.Right s := by
  induction turns generalizing k least with
  | zero => exact absurd hturns (Nat.lt_irrefl 0)
  | succ turns ih =>
    unfold sweepFrom
    dsimp only
    have hkn : k < s.nBuckets := by omega
    generalize hi : (s.lastPrio / s.width + k) % s.nBuckets = i
    -- where the page is not empty, the end of the day is a time
    have htop (next : Event) (hnext : nextEvent s.reverse (s.bucket i) = some next) :
        s.lastPrio / s.width + k ≤ next.ts / s.width ∧
          (s.lastPrio / s.width + k + 1) * s.width % 2 ^ 64 =
            (s.lastPrio / s.width + k + 1) * s.width := by
      have hmem := (hkept.of_nextEvent hnext).1
      have hle := hsearched.later next hmem
      exact ⟨hle, Nat.mod_eq_of_lt (top_lt hle (hkept.small next hmem) hkept.width_lt)⟩
    cases hdue : (nextEvent s.reverse (s.bucket i)).filter fun next =>
        next.ts < (s.lastPrio / s.width + k + 1) * s.width % 2 ^ 64 with
    | some next =>
      obtain ⟨hnext, hlt⟩ := Option.filter_eq_some_iff.mp hdue
      obtain ⟨hle, hfits⟩ := htop next hnext
      have hlt : next.ts < (s.lastPrio / s.width + k + 1) * s.width := by
        rw [← hfits]
        exact of_decide_eq_true hlt
      refine ⟨_, rfl, ?_⟩
      rw [hfits]
      exact hsearched.due hkept hi hnext ((lt_top_iff hkept.width_pos hle).mp hlt)
    | none =>
      have hnot : ∀ next, nextEvent s.reverse (s.bucket i) = some next →
          (s.lastPrio / s.width + k + 1) * s.width ≤ next.ts := by
        intro next hnext
        have hno : ¬ next.ts < (s.lastPrio / s.width + k + 1) * s.width % 2 ^ 64 := fun hlt => by
          rw [hnext, Option.filter_some, if_pos (decide_eq_true hlt)] at hdue
          cases hdue
        rw [(htop next hnext).2] at hno
        exact not_lt.mp hno
      rw [← hi] at hnot
      have hnext := hsearched.turn bound hkept hbound hnot
      rw [hi] at hnext
      have hpage : (i + 1) % s.nBuckets = (s.lastPrio / s.width + (k + 1)) % s.nBuckets := by
        rw [← hi, Nat.mod_add_mod, Nat.add_assoc]
      have hend : ((s.lastPrio / s.width + k + 1) * s.width % 2 ^ 64 + s.width) % 2 ^ 64 =
          (s.lastPrio / s.width + (k + 1) + 1) * s.width % 2 ^ 64 := by
        rw [Nat.mod_add_mod, ← Nat.succ_mul]
        rfl
      have hlast : s.lastBucket = s.lastPrio / s.width % s.nBuckets := hcur.lastBucket
      dsimp only
      rw [hpage, hend, hlast]
      by_cases hyear : k + 1 = s.nBuckets
      · rw [if_neg (not_not.mpr ((page_back_iff hkn).mpr hyear))]
        refine ⟨_, rfl, ?_⟩
        rw [hyear] at hnext
        exact hnext.finds hkept hcur hstored
      · rw [if_pos fun hback => hyear ((page_back_iff hkn).mp hback)]
        exact ih (k + 1) (by omega) (by omega) _ hnext

/-- The times of events are below that of any key the loops start with. -/
theorem Kept.rank_lt (hkept : s.Kept) (bound : EventKey) (hbound : 2 ^ 63 ≤ bound.ts.toNat) :
    ∀ e ∈ s.stored, e.rank < bound.rank := by
  intro e he
  have hsmall : e.ts < 2 ^ 63 := hkept.small e he
  exact (EventKey.rank_lt_iff e.key bound).mpr
    (.inl (BitVec.lt_def.mpr (lt_of_lt_of_le hsmall hbound)))

/-- The sweep over the buckets ends at the next event. -/
theorem sweep_right (hbound : 2 ^ 63 ≤ bound.ts.toNat) (hkept : s.Kept) (hcur : s.Current)
    (hstored : s.stored ≠ 0) :
    ∃ r, s.sweep bound = .ok r ∧ r.Right s := by
  have htop : s.bucketTop = (s.lastPrio / s.width + 1) * s.width % 2 ^ 64 := by
    rw [hcur.bucketTop]
    exact (Nat.mod_eq_of_lt (top_lt (le_refl _) hcur.small hkept.width_lt)).symm
  have hrun := sweepFrom_right bound hkept hcur (hkept.rank_lt bound hbound) hstored 0 s.nBuckets
    (Nat.zero_add _) hkept.nBuckets_pos none hcur.searched
  unfold sweep
  rw [hcur.lastBucket, htop]
  exact hrun

/-! ## Taking events out -/

/-- The least event is out of its bucket, and the search starts from its day. -/
structure Taken (s : CalendarScheduler) (e : Event) (t : CalendarScheduler) : Prop where
  isNext : IsNext s.stored e
  stored : s.stored = e ::ₘ t.stored
  pages : SamePages s t
  kept : t.Kept
  current : t.Current
  lastPrio : t.lastPrio = e.ts

/-- Any way in which the loop may end leads to the same state. -/
theorem Finds.taken (hkept : s.Kept) (hfinds : Finds s i e) :
    Taken s e { s with
      lastBucket := i
      lastPrio := e.ts
      bucketTop := (e.ts / s.width + 1) * s.width
      buckets := s.buckets.modify i (pop s.reverse) } := by
  obtain ⟨hnext, hfirst, hpage⟩ := hfinds
  have hi : i < s.buckets.length := by
    rw [hpage]
    exact hkept.hash_lt e.ts
  have hperm : s.stored = e ::ₘ ((s.buckets.modify i (pop s.reverse)).flatten : Multiset Event) := by
    refine Multiset.coe_eq_coe.mpr ?_
    exact (perm_flatten_modify s.buckets i hi _ [] [e] (perm_pop hfirst).symm).symm
  have hpages : SamePages s { s with
      lastBucket := i
      lastPrio := e.ts
      bucketTop := (e.ts / s.width + 1) * s.width
      buckets := s.buckets.modify i (pop s.reverse) } := ⟨rfl, rfl, length_modify .., rfl⟩
  refine ⟨hnext, hperm, hpages, ?_, ?_, rfl⟩
  · refine hkept.modify hpages hi _ rfl ((hkept.sorted i).sublist (pop_sublist ..)) fun e' he' => ?_
    have hmem : e' ∈ s.bucket i := (pop_sublist ..).subset he'
    exact ⟨hkept.placed i e' hmem, hkept.small e' ((mem_stored_iff s e').mpr ⟨i, hmem⟩)⟩
  · constructor
    · rw [hpages.hash]
      exact hpage
    · rfl
    · exact hkept.small e hnext.mem
    · intro e' he'
      refine ts_le_of_rank_le (hnext.least e' ?_)
      rw [hperm]
      exact Multiset.mem_cons_of_mem he'

/-- However the loop ends, the event it has found is taken out. -/
theorem takeNext_taken {r : Swept} (hkept : s.Kept) (hright : r.Right s) :
    ∃ t, s.takeNext r = .ok (r.event, t) ∧ Taken s r.event t := by
  match r, hright with
  | .due i bucketTop next, ⟨hfinds, htop⟩ =>
    refine ⟨_, rfl, ?_⟩
    rw [htop]
    exact hfinds.taken hkept
  | .least (some (i, min)), hfinds =>
    have hlt : (min.ts / s.width + 1) * s.width < 2 * 2 ^ 63 :=
      top_lt (le_refl _) (hkept.small min hfinds.isNext.mem) hkept.width_lt
    have htop : (min.ts / s.width + 1) * s.width % 2 ^ 64 = (min.ts / s.width + 1) * s.width :=
      Nat.mod_eq_of_lt hlt
    unfold takeNext
    dsimp only
    rw [hfinds.first]
    refine ⟨_, rfl, ?_⟩
    rw [htop, ← hfinds.page]
    exact hfinds.taken hkept

/-- The loop does not depend on the key that it starts with. -/
theorem sweepFrom_congr (hkept : s.Kept) (bound bound' : EventKey)
    (hbound : ∀ e ∈ s.stored, e.rank < bound.rank) (hbound' : ∀ e ∈ s.stored, e.rank < bound'.rank)
    (i bucketTop : ℕ) (least : Option (ℕ × Event)) (turns : ℕ) :
    s.sweepFrom bound i bucketTop least turns = s.sweepFrom bound' i bucketTop least turns := by
  induction turns generalizing i bucketTop least with
  | zero => rfl
  | succ turns ih =>
    have hlow : lowest bound least i (nextEvent s.reverse (s.bucket i)) =
        lowest bound' least i (nextEvent s.reverse (s.bucket i)) := by
      cases hnext : nextEvent s.reverse (s.bucket i) with
      | none => rfl
      | some next =>
        cases least with
        | none =>
          have hmem := (hkept.of_nextEvent hnext).1
          have hless : next.key.isLess bound = true := (EventKey.isLess_iff _ _).mpr (hbound _ hmem)
          have hless' : next.key.isLess bound' = true :=
            (EventKey.isLess_iff _ _).mpr (hbound' _ hmem)
          exact (if_pos hless).trans (if_pos hless').symm
        | some old => rfl
    unfold sweepFrom
    dsimp only
    rw [hlow]
    split
    · rfl
    · rw [ih]

/-- `DoRemoveNext` takes out the next event, which is the one that `PeekNext` shows. -/
theorem doRemoveNext_taken (hkept : s.Kept) (hcur : s.Current) (hstored : s.stored ≠ 0)
    (hempty : s.isEmpty = false) :
    ∃ e t, s.peekNext = .ok e ∧ s.doRemoveNext = .ok (e, t) ∧ Taken s e t := by
  have hpeekMin : 2 ^ 63 ≤ peekMin.key.ts.toNat := by decide
  have hremoveMin : 2 ^ 63 ≤ removeMin.ts.toNat := by decide
  obtain ⟨r, hsweep, hright⟩ := sweep_right removeMin hremoveMin hkept hcur hstored
  obtain ⟨t, htake, htaken⟩ := takeNext_taken hkept hright
  have hsame : s.sweep peekMin.key = .ok r := by
    rw [← hsweep]
    exact sweepFrom_congr hkept _ _ (hkept.rank_lt _ hpeekMin) (hkept.rank_lt _ hremoveMin) _ _ _ _
  refine ⟨r.event, t, ?_, ?_, htaken⟩
  · unfold peekNext
    rw [hempty, if_neg Bool.false_ne_true, hsame]
    rfl
  · unfold doRemoveNext
    rw [hempty, if_neg Bool.false_ne_true, hsweep]
    exact htake

/-! ## Resizing keeps the events -/

/-- The day stays current while no event of the past comes in. -/
theorem Current.congr {s t : CalendarScheduler} (hcur : s.Current) (hpages : SamePages s t)
    (hday : SameDay s t) (hlate : ∀ e ∈ t.stored, s.lastPrio ≤ e.ts) : t.Current := by
  constructor
  · rw [hday.lastBucket, hpages.hash, hday.lastPrio]
    exact hcur.lastBucket
  · rw [hday.bucketTop, hday.lastPrio, hpages.width]
    exact hcur.bucketTop
  · rw [hday.lastPrio]
    exact hcur.small
  · rw [hday.lastPrio]
    exact hlate

/-- The samples are stored events, and the others stay. -/
theorem takeSamples_spec (n : ℕ) (hkept : s.Kept) (hcur : s.Current) (hempty : s.isEmpty = false)
    (hn : n ≤ s.stored.card) :
    ∃ es t, s.takeSamples n = .ok (es, t) ∧ s.stored = es + t.stored ∧ SamePages s t ∧ t.Kept := by
  induction n generalizing s with
  | zero => exact ⟨[], s, rfl, (Multiset.zero_add _).symm, ⟨rfl, rfl, rfl, rfl⟩, hkept⟩
  | succ n ih =>
    have hstored : s.stored ≠ 0 := Multiset.card_pos.mp (Nat.lt_of_lt_of_le (Nat.succ_pos n) hn)
    obtain ⟨e, t, -, hrun, htaken⟩ := doRemoveNext_taken hkept hcur hstored hempty
    have hempty' : t.isEmpty = false := by
      unfold isEmpty
      rw [htaken.pages.qSize]
      exact hempty
    have hn' : n ≤ t.stored.card := by
      rw [htaken.stored, Multiset.card_cons] at hn
      omega
    obtain ⟨es, u, hrest, hes, hpages, hkept'⟩ := ih htaken.kept htaken.current hempty' hn'
    refine ⟨e :: es, u, ?_, ?_, htaken.pages.trans hpages, hkept'⟩
    · unfold takeSamples
      rw [hrun, ok_bind, hrest]
      rfl
    · rw [htaken.stored, hes, ← Multiset.cons_coe, Multiset.cons_add]

/-- The width that is estimated is neither 0 nor too large for 64 bits. -/
theorem newWidth_bounds (samples : List Event) (n : ℕ) :
    0 < newWidth samples n ∧ newWidth samples n < 2 ^ 64 := by
  unfold newWidth
  dsimp only
  omega

/-- There are no more samples than events. -/
theorem nSamples_le (qSize : ℕ) : nSamples qSize ≤ qSize := by
  unfold nSamples
  dsimp only
  split
  · split
    · omega
    · exact le_refl _
  · split
    · omega
    · omega

/-- The scheduler counts its events, and they are where it looks for them. -/
structure Sound (s : CalendarScheduler) : Prop where
  kept : s.Kept
  current : s.Current
  count : s.qSize = s.stored.card

/-- `IsEmpty` answers false while an event is stored. -/
theorem Sound.isEmpty (hsound : s.Sound) (hstored : s.stored ≠ 0) :
    s.isEmpty = false := by
  refine beq_eq_false_iff_ne.mpr ?_
  rw [hsound.count]
  exact (Multiset.card_pos.mpr hstored).ne'

/-- `CalculateNewWidth` puts all samples back. -/
theorem Sound.calculateNewWidth (hsound : s.Sound) :
    ∃ width t, s.calculateNewWidth = .ok (width, t) ∧ (0 < width ∧ width < 2 ^ 64) ∧
      t.stored = s.stored ∧ SamePages s t ∧ SameDay s t ∧ t.Kept := by
  unfold CalendarScheduler.calculateNewWidth
  by_cases hfew : s.qSize < 2
  · rw [if_pos hfew]
    exact ⟨1, s, rfl, by decide, rfl, ⟨rfl, rfl, rfl, rfl⟩, ⟨rfl, rfl, rfl⟩, hsound.kept⟩
  · rw [if_neg hfew]
    have hn : nSamples s.qSize ≤ s.stored.card := by
      rw [← hsound.count]
      exact nSamples_le s.qSize
    have hstored : s.stored ≠ 0 := by
      have hcount := hsound.count
      exact Multiset.card_pos.mp (by omega)
    obtain ⟨es, t, hrun, hes, hpages, hkept⟩ :=
      takeSamples_spec _ hsound.kept hsound.current (hsound.isEmpty hstored) hn
    have hsmall : ∀ e ∈ es, e.ts < 2 ^ 63 := fun e he => by
      refine hsound.kept.small e ?_
      rw [hes]
      exact Multiset.mem_add.mpr (.inl (Multiset.mem_coe.mpr he))
    obtain ⟨hkept', hpages', -, hback⟩ := hkept.foldl_doInsert es hsmall
    rw [hrun]
    refine ⟨_, _, rfl, newWidth_bounds _ _, ?_, ?_, ⟨rfl, rfl, rfl⟩, ?_⟩
    · rw [hes]
      exact hback
    · have hall := hpages.trans hpages'
      exact { hall with }
    · exact { hkept' with }

/-- The same events under the same count, in buckets that are as they should be. -/
structure Resized (s t : CalendarScheduler) : Prop where
  sound : t.Sound
  stored : t.stored = s.stored
  lastPrio : t.lastPrio = s.lastPrio

/-- New buckets are empty, and the search starts from the day of the last event. -/
theorem init_kept (s : CalendarScheduler) (nBuckets width startPrio : ℕ) (hn : 0 < nBuckets)
    (hnlt : nBuckets < 2 ^ 16) (hw : 0 < width) (hwlt : width < 2 ^ 64)
    (hprio : startPrio < 2 ^ 63) :
    (s.init nBuckets width startPrio).Kept ∧ (s.init nBuckets width startPrio).Current ∧
      (s.init nBuckets width startPrio).stored = 0 := by
  have hlength : (s.init nBuckets width startPrio).nBuckets = nBuckets := length_replicate
  have hbucket (i : ℕ) : (s.init nBuckets width startPrio).bucket i = [] := by
    show (List.replicate nBuckets []).getD i [] = []
    rw [getD_eq_getElem?_getD, List.getElem?_replicate]
    split
    · rfl
    · rfl
  have hstored : (s.init nBuckets width startPrio).stored = 0 := by
    refine Multiset.eq_zero_of_forall_notMem fun e he => ?_
    obtain ⟨i, hi⟩ := (mem_stored_iff _ e).mp he
    rw [hbucket] at hi
    exact absurd hi not_mem_nil
  refine ⟨⟨hw, hwlt, ?_, ?_, ?_, ?_, ?_⟩, ⟨?_, ?_, hprio, ?_⟩, hstored⟩
  · rw [hlength]
    exact hn
  · rw [hlength]
    exact hnlt
  · intro i
    rw [hbucket]
    exact List.Pairwise.nil
  · intro i e he
    rw [hbucket] at he
    exact absurd he not_mem_nil
  · intro e he
    rw [hstored] at he
    exact absurd he (Multiset.notMem_zero e)
  · show startPrio / width % nBuckets = _
    unfold hash
    rw [hlength]
    rfl
  · exact Nat.mod_eq_of_lt (top_lt (b := 2 ^ 63) (le_refl _) hprio hwlt)
  · intro e he
    rw [hstored] at he
    exact absurd he (Multiset.notMem_zero e)

/-- `DoResize` moves every event to its new bucket. -/
theorem Sound.doResize (hsound : s.Sound) (newSize newWidth : ℕ) (hn : 0 < newSize)
    (hnlt : newSize < 2 ^ 16) (hw : 0 < newWidth) (hwlt : newWidth < 2 ^ 64) :
    Resized s (s.doResize newSize newWidth) := by
  obtain ⟨hkept, hcur, hnone⟩ :=
    s.init_kept newSize newWidth s.lastPrio hn hnlt hw hwlt hsound.current.small
  obtain ⟨hkept', hpages, hday, hstored⟩ :=
    hkept.foldl_doInsert s.buckets.flatten hsound.kept.small
  rw [foldl_flatten] at hkept' hpages hday hstored
  rw [hnone, Multiset.add_zero] at hstored
  have hcount : (s.doResize newSize newWidth).qSize = s.qSize := hpages.qSize
  have hprio : (s.doResize newSize newWidth).lastPrio = s.lastPrio := hday.lastPrio
  have hstored' : (s.doResize newSize newWidth).stored = s.stored := hstored
  refine ⟨⟨hkept', hcur.congr hpages hday fun e he => ?_, ?_⟩, hstored, hprio⟩
  · rw [hstored'] at he
    exact hsound.current.late e he
  · rw [hcount, hstored', hsound.count]

/-- `Resize` samples events and puts them back before it moves them all. -/
theorem Sound.resize (hsound : s.Sound) (newSize : ℕ) (hn : 0 < newSize) (hnlt : newSize < 2 ^ 16) :
    ∃ t, s.resize newSize = .ok t ∧ Resized s t := by
  obtain ⟨width, t, hrun, ⟨hw, hwlt⟩, hstored, hpages, hday, hkept⟩ := hsound.calculateNewWidth
  have hcur : t.Current := hsound.current.congr hpages hday fun e he => by
    rw [hstored] at he
    exact hsound.current.late e he
  have hcount : t.qSize = t.stored.card := by
    rw [hpages.qSize, hstored, hsound.count]
  have hresized := Sound.doResize ⟨hkept, hcur, hcount⟩ newSize width hn hnlt hw hwlt
  refine ⟨t.doResize newSize width, ?_, hresized.sound, hresized.stored.trans hstored,
    hresized.lastPrio.trans hday.lastPrio⟩
  unfold CalendarScheduler.resize
  rw [hrun]
  rfl

/-- The growth after an insertion. -/
theorem Sound.resizeUp (hsound : s.Sound) :
    ∃ t, s.resizeUp = .ok t ∧ Resized s t := by
  have hpos := hsound.kept.nBuckets_pos
  unfold CalendarScheduler.resizeUp
  by_cases hmany : s.qSize > s.nBuckets * 2 ∧ s.nBuckets < 32768
  · rw [if_pos hmany]
    exact hsound.resize _ (by omega) (by omega)
  · rw [if_neg hmany]
    exact ⟨s, rfl, hsound, rfl, rfl⟩

/-- The shrinking after a removal. -/
theorem Sound.resizeDown (hsound : s.Sound) :
    ∃ t, s.resizeDown = .ok t ∧ Resized s t := by
  have hlt := hsound.kept.nBuckets_lt
  unfold CalendarScheduler.resizeDown
  by_cases hfew : s.qSize < s.nBuckets / 2
  · rw [if_pos hfew]
    exact hsound.resize _ (by omega) (by omega)
  · rw [if_neg hfew]
    exact ⟨s, rfl, hsound, rfl, rfl⟩

/-! ## The calls on a sound scheduler -/

theorem stored_setSize (s : CalendarScheduler) (n : ℕ) : (s.setSize n).stored = s.stored := rfl

theorem lastPrio_setSize (s : CalendarScheduler) (n : ℕ) :
    (s.setSize n).lastPrio = s.lastPrio := rfl

/-- The counter is set to the number of events. -/
theorem sound_of_count (hkept : s.Kept) (hcur : s.Current) (n : ℕ) (hn : n = s.stored.card) :
    (s.setSize n).Sound :=
  ⟨{ hkept with }, { hcur with }, hn⟩

/-- An event that is not in the past leaves the day current. -/
theorem Sound.doInsert (hsound : s.Sound) (ev : Event) (hlate : s.lastPrio ≤ ev.ts)
    (hsmall : ev.ts < 2 ^ 63) :
    (s.doInsert ev).Kept ∧ (s.doInsert ev).Current := by
  refine ⟨hsound.kept.doInsert ev hsmall,
    hsound.current.congr (samePages_doInsert s ev) (sameDay_doInsert s ev) fun e he => ?_⟩
  rw [hsound.kept.stored_doInsert] at he
  rcases Multiset.mem_cons.mp he with rfl | he
  · exact hlate
  · exact hsound.current.late e he

/-- An insertion adds the event, whatever resizing follows. -/
theorem insert_spec (hsound : s.Sound) (ev : Event) (hlate : s.lastPrio ≤ ev.ts)
    (hsmall : ev.ts < 2 ^ 63) (hroom : s.stored.card + 1 < 2 ^ 32) :
    ∃ t, s.insert ev = .ok t ∧ t.Sound ∧ t.stored = ev ::ₘ s.stored ∧ t.lastPrio = s.lastPrio := by
  obtain ⟨hkept, hcur⟩ := hsound.doInsert ev hlate hsmall
  have hstored : (s.doInsert ev).stored = ev ::ₘ s.stored := hsound.kept.stored_doInsert ev
  have hcount : (s.qSize + 1) % 2 ^ 32 = (s.doInsert ev).stored.card := by
    rw [hsound.count, hstored, Multiset.card_cons, Nat.mod_eq_of_lt hroom]
  have hgrown : (s.doInsert ev).grow.Sound := by
    unfold grow
    exact sound_of_count hkept hcur _ hcount
  obtain ⟨t, hrun, hresized⟩ := hgrown.resizeUp
  refine ⟨t, hrun, hresized.sound, ?_, hresized.lastPrio⟩
  rw [hresized.stored, grow, stored_setSize, hstored]

/-- One event less. -/
theorem Sound.count_pred {s t : CalendarScheduler} (hsound : s.Sound) (hpages : SamePages s t) (hstored : s.stored = e ::ₘ t.stored) (hlt : s.stored.card < 2 ^ 32) :
    (t.qSize + (2 ^ 32 - 1)) % 2 ^ 32 = t.stored.card := by
  have hcard : s.stored.card = t.stored.card + 1 := by
    rw [hstored, Multiset.card_cons]
  rw [hpages.qSize, hsound.count, hcard]
  omega

/-- `RemoveNext` takes the event that `PeekNext` shows, which is the next one. -/
theorem removeNext_spec (hsound : s.Sound) (hstored : s.stored ≠ 0) (hlt : s.stored.card < 2 ^ 32) :
    ∃ e t, s.peekNext = .ok e ∧ s.removeNext = .ok (e, t) ∧ IsNext s.stored e ∧ t.Sound ∧
      t.stored = s.stored.erase e ∧ t.lastPrio = e.ts := by
  have hempty : s.isEmpty = false := hsound.isEmpty hstored
  obtain ⟨e, t, hpeek, hrun, htaken⟩ :=
    doRemoveNext_taken hsound.kept hsound.current hstored hempty
  have hcount := hsound.count_pred htaken.pages htaken.stored hlt
  have hshrunk : t.shrink.Sound := by
    unfold shrink
    exact sound_of_count htaken.kept htaken.current _ hcount
  obtain ⟨u, hdown, hresized⟩ := hshrunk.resizeDown
  refine ⟨e, u, hpeek, ?_, htaken.isNext, hresized.sound, ?_, ?_⟩
  · unfold removeNext
    rw [hempty, if_neg Bool.false_ne_true, hrun, ok_bind, hdown]
    rfl
  · rw [hresized.stored, shrink, stored_setSize, htaken.stored, Multiset.erase_cons_head]
  · rw [hresized.lastPrio, shrink, lastPrio_setSize, htaken.lastPrio]

/-- What `Remove` finds and takes out is the only stored event with the number. -/
theorem Kept.erase (hkept : s.Kept) (ev : Event) (hev : ev ∈ s.stored)
    (honly : ∀ e ∈ s.stored, e.key.uid = ev.key.uid → e = ev) :
    ((s.bucket (s.hash ev.ts)).find? fun e => e.key.uid == ev.key.uid) = some ev ∧
      s.stored = ev ::ₘ (s.erase ev).stored ∧ SamePages s (s.erase ev) ∧ (s.erase ev).Kept := by
  have hmem : ev ∈ s.bucket (s.hash ev.ts) := hkept.mem_bucket hev
  have hpages : SamePages s (s.erase ev) := ⟨rfl, rfl, length_modify .., rfl⟩
  obtain ⟨e, before, after, hbefore, huid, hpage, herase⟩ :=
    exists_of_eraseP (p := fun e : Event => e.key.uid == ev.key.uid) hmem
      (beq_self_eq_true ev.key.uid)
  have he : e = ev := by
    refine honly e ((mem_stored_iff s e).mpr ⟨s.hash ev.ts, ?_⟩) (beq_iff_eq.mp huid)
    rw [hpage]
    exact mem_append_right _ mem_cons_self
  subst he
  refine ⟨?_, ?_, hpages, ?_⟩
  · refine List.find?_eq_some_iff_append.mpr ⟨huid, before, after, hpage, fun e' he' => ?_⟩
    rw [Bool.not_eq_true']
    exact Bool.eq_false_iff.mpr (hbefore e' he')
  · refine Multiset.coe_eq_coe.mpr ?_
    refine (perm_flatten_modify s.buckets _ (hkept.hash_lt e.ts) _ [] [e] ?_).symm
    show (e :: (s.bucket (s.hash e.ts)).eraseP _).Perm (s.bucket (s.hash e.ts))
    rw [herase, hpage]
    exact perm_middle.symm
  · refine hkept.modify hpages (hkept.hash_lt e.ts) _ rfl
      ((hkept.sorted _).sublist eraseP_sublist) fun e' he' => ?_
    have hmem' : e' ∈ s.bucket (s.hash e.ts) := eraseP_sublist.subset he'
    exact ⟨hkept.placed _ e' hmem', hkept.small e' ((mem_stored_iff s e').mpr ⟨_, hmem'⟩)⟩

/-- A removal by uid takes the event, if no other has its uid. -/
theorem remove_spec (hsound : s.Sound) (ev : Event) (hev : ev ∈ s.stored)
    (honly : ∀ e ∈ s.stored, e.key.uid = ev.key.uid → e = ev) (hlt : s.stored.card < 2 ^ 32) :
    ∃ t, s.remove ev = .ok t ∧ t.Sound ∧ t.stored = s.stored.erase ev ∧
      t.lastPrio = s.lastPrio := by
  obtain ⟨hfind, hstored, hpages, hkept⟩ := hsound.kept.erase ev hev honly
  have hcur : (s.erase ev).Current :=
    hsound.current.congr hpages ⟨rfl, rfl, rfl⟩ fun e he => by
      refine hsound.current.late e ?_
      rw [hstored]
      exact Multiset.mem_cons_of_mem he
  have hcount := hsound.count_pred hpages hstored hlt
  have hshrunk : (s.erase ev).shrink.Sound := by
    unfold shrink
    exact sound_of_count hkept hcur _ hcount
  obtain ⟨t, hdown, hresized⟩ := hshrunk.resizeDown
  refine ⟨t, ?_, hresized.sound, ?_, hresized.lastPrio.trans (lastPrio_setSize _ _)⟩
  · unfold remove
    rw [hsound.isEmpty (fun hzero => Multiset.notMem_zero ev (hzero ▸ hev)), if_neg Bool.false_ne_true, hfind]
    dsimp only
    rw [if_pos rfl]
    exact hdown
  · rw [hresized.stored, shrink, stored_setSize, hstored, Multiset.erase_cons_head]

/-! ## Runs -/

/-- The scheduler, and the time of the event that `RemoveNext` gave last. -/
structure Driven where
  last : ℕ
  scheduler : CalendarScheduler

/-- What the simulator guarantees: no event is inserted before the last one, and times are those
of signed numbers. -/
def Timely (last : ℕ) : Call → Prop
  | .insert ev => last ≤ ev.ts ∧ ev.ts < 2 ^ 63
  | _ => True

/-- The time of the event that was taken last. -/
def lastAfter (last : ℕ) : Call → Option Event → ℕ
  | .removeNext, some e => e.ts
  | _, _ => last

/-- The calls on a calendar scheduler. -/
def machine : Machine Driven Call Fault where
  enabled d c := c.Allowed d.scheduler.stored ∧ Timely d.last c
  step d c := (d.scheduler.call c).map fun r => ⟨lastAfter d.last c r.1, r.2⟩

/-- The counter `m_qSize` can count one more event, and the number of an event that is to be
removed is that of no other. -/
def Fits (d : Driven) : Call → Prop
  | .insert _ => d.scheduler.stored.card + 1 < 2 ^ 32
  | .remove ev => ∀ e ∈ d.scheduler.stored, e.key.uid = ev.key.uid → e = ev
  | _ => True

instance (last : ℕ) : (c : Call) → Decidable (Timely last c)
  | .insert ev => inferInstanceAs (Decidable (last ≤ ev.ts ∧ ev.ts < 2 ^ 63))
  | .peekNext | .removeNext | .remove _ => instDecidableTrue

instance (d : Driven) (c : Call) : Decidable (machine.enabled d c) :=
  inferInstanceAs (Decidable (c.Allowed d.scheduler.stored ∧ Timely d.last c))

instance (d : Driven) : (c : Call) → Decidable (Fits d c)
  | .insert _ => inferInstanceAs (Decidable (d.scheduler.stored.card + 1 < 2 ^ 32))
  | .remove ev => inferInstanceAs
      (Decidable (∀ e ∈ d.scheduler.stored, e.key.uid = ev.key.uid → e = ev))
  | .peekNext | .removeNext => instDecidableTrue

/-- The call returns with the answer and the effect it has on a priority queue, and `m_qSize` is
the number of events that are stored then. -/
def Meets (s : CalendarScheduler) (c : Call) : Prop :=
  ∃ answer t, s.call c = .ok (answer, t) ∧ Serves s.stored c answer t.stored ∧
    t.qSize = t.stored.card

/-- What the calls keep. -/
structure Driven.Sound (d : Driven) : Prop where
  sound : d.scheduler.Sound
  last : d.scheduler.lastPrio = d.last
  room : d.scheduler.stored.card < 2 ^ 32

/-- The empty calendar is sound. -/
theorem sound_construct (reverse : Bool) : Driven.Sound ⟨0, construct reverse⟩ := by
  obtain ⟨hkept, hcur, hnone⟩ := init_kept ⟨reverse, [], 0, 0, 0, 0, 0⟩ 2 1 0
    (by decide) (by decide) (by decide) (by decide) (by decide)
  have hcount : (0 : ℕ) = (init ⟨reverse, [], 0, 0, 0, 0, 0⟩ 2 1 0).stored.card := by
    rw [hnone, Multiset.card_zero]
  have hstored : (construct reverse).stored = 0 := hnone
  constructor
  · exact sound_of_count hkept hcur 0 hcount
  · rfl
  · rw [hstored]
    decide

/-- **One call.**  A call that the simulator may make and that fits does what a priority queue
does. -/
theorem Driven.Sound.call {d : Driven} (hd : d.Sound) (c : Call)
    (hallowed : c.Allowed d.scheduler.stored) (htimely : Timely d.last c) (hfits : Fits d c) :
    ∃ answer t, d.scheduler.call c = .ok (answer, t) ∧
      Serves d.scheduler.stored c answer t.stored ∧
      Driven.Sound ⟨lastAfter d.last c answer, t⟩ := by
  obtain ⟨hsound, hlast, hroom⟩ := hd
  cases c with
  | insert ev =>
    have hlate : d.scheduler.lastPrio ≤ ev.ts := by
      rw [hlast]
      exact htimely.1
    obtain ⟨t, hrun, hsound', hstored, hprio⟩ := insert_spec hsound ev hlate htimely.2 hfits
    refine ⟨none, t, ?_, ⟨rfl, hstored⟩, hsound', hprio.trans hlast, ?_⟩
    · show (d.scheduler.insert ev).map _ = _
      rw [hrun]
      rfl
    · show t.stored.card < 2 ^ 32
      rw [hstored, Multiset.card_cons]
      exact hfits
  | peekNext =>
    obtain ⟨e, t, hpeek, -, hnext, -, -, -⟩ := removeNext_spec hsound hallowed hroom
    refine ⟨some e, d.scheduler, ?_, ⟨e, rfl, hnext, rfl⟩, hsound, hlast, hroom⟩
    show d.scheduler.peekNext.map _ = _
    rw [hpeek]
    rfl
  | removeNext =>
    obtain ⟨e, t, -, hrun, hnext, hsound', hstored, hprio⟩ :=
      removeNext_spec hsound hallowed hroom
    refine ⟨some e, t, ?_, ⟨e, rfl, hnext, hstored⟩, hsound', hprio, ?_⟩
    · show d.scheduler.removeNext.map _ = _
      rw [hrun]
      rfl
    · show t.stored.card < 2 ^ 32
      rw [hstored]
      exact lt_of_le_of_lt Multiset.card_erase_le hroom
  | remove ev =>
    obtain ⟨t, hrun, hsound', hstored, hprio⟩ := remove_spec hsound ev hallowed hfits hroom
    refine ⟨none, t, ?_, ⟨rfl, hstored⟩, hsound', hprio.trans hlast, ?_⟩
    · show (d.scheduler.remove ev).map _ = _
      rw [hrun]
      rfl
    · show t.stored.card < 2 ^ 32
      rw [hstored]
      exact lt_of_le_of_lt Multiset.card_erase_le hroom

/-- The calendar is sound after every run of calls. -/
theorem sound_of_run (reverse : Bool) (cs : List Call) (d : Driven)
    (hrun : machine.Run Fits ⟨0, construct reverse⟩ cs d) : d.Sound := by
  refine hrun.invariant Driven.Sound ?_ (sound_construct reverse)
  rintro d c hd ⟨hallowed, htimely⟩ hfits
  obtain ⟨answer, t, hcall, -, hd'⟩ := hd.call c hallowed htimely hfits
  show Post ((d.scheduler.call c).map _) _
  rw [hcall]
  exact hd'

/-- **The calendar scheduler is a priority queue**, in either order of storing, as long as
`m_qSize` can count the events and an event that is removed has a number of its own.  After any
run of such calls `m_qSize` is the number of stored events, every further call does what it does
on a priority queue, `PeekNext` shows what `RemoveNext` would take, and neither measuring the
distances nor a resize changes what is stored. -/
theorem calendarScheduler_isPriorityQueue (reverse : Bool) (cs : List Call) (d : Driven)
    (hrun : machine.Run Fits ⟨0, construct reverse⟩ cs d) :
    d.scheduler.qSize = d.scheduler.stored.card ∧
      (∀ c, c.Allowed d.scheduler.stored → Timely d.last c → Fits d c → d.scheduler.Meets c) ∧
      (d.scheduler.stored ≠ 0 → ∃ e t, d.scheduler.peekNext = .ok e ∧
        d.scheduler.removeNext = .ok (e, t) ∧ IsNext d.scheduler.stored e) ∧
      ∀ newSize, 0 < newSize → newSize < 2 ^ 16 → ∃ width t u,
        d.scheduler.calculateNewWidth = .ok (width, t) ∧ t.stored = d.scheduler.stored ∧
        d.scheduler.resize newSize = .ok u ∧ u.stored = d.scheduler.stored := by
  have hd := sound_of_run reverse cs d hrun
  refine ⟨hd.sound.count, ?_, ?_, ?_⟩
  · intro c hallowed htimely hfits
    obtain ⟨answer, t, hcall, hserves, hd'⟩ := hd.call c hallowed htimely hfits
    exact ⟨answer, t, hcall, hserves, hd'.sound.count⟩
  · intro hstored
    obtain ⟨e, t, hpeek, hremove, hnext, -, -, -⟩ := removeNext_spec hd.sound hstored hd.room
    exact ⟨e, t, hpeek, hremove, hnext⟩
  · intro newSize hpos hlt
    obtain ⟨width, t, hwidth, -, hstored, -, -, -⟩ := hd.sound.calculateNewWidth
    obtain ⟨u, hresize, hresized⟩ := hd.sound.resize newSize hpos hlt
    exact ⟨width, t, u, hwidth, hstored, hresize, hresized.stored⟩

/-- An event of a time with a number. -/
def eventAt (ts uid : ℕ) : Event := ⟨uid, ⟨ts, uid, 0⟩⟩

/-- Seven events, with which the buckets grow from two to four and back, and more than a year
between two of them. -/
def growingCalls : List Call :=
  [.insert (eventAt 3 0), .insert (eventAt 1 1), .insert (eventAt 2 2), .insert (eventAt 3 3),
    .insert (eventAt 900 4), .insert (eventAt 7 5), .removeNext, .remove (eventAt 3 3),
    .removeNext, .insert (eventAt 2 6), .removeNext, .removeNext]

theorem calendarScheduler_isPriorityQueue_of_growing :
    ∃ d, machine.Run Fits ⟨0, construct true⟩ growingCalls d ∧ d.scheduler.qSize = 2 ∧
      d.scheduler.Meets (.insert (eventAt 901 7)) := by
  obtain ⟨d, hrun, htest⟩ := Machine.exists_run_of_exec (m := machine)
    (fun d c => decide (Fits d c))
    (fun d => decide (d.scheduler.stored.card = 2 ∧ d.last = 3)) ⟨0, construct true⟩ growingCalls
    (by decide +kernel)
  have hfits := hrun.mono fun d c hc => of_decide_eq_true hc
  obtain ⟨htwo, hlast⟩ := of_decide_eq_true htest
  obtain ⟨hcount, hmeets, -, -⟩ := calendarScheduler_isPriorityQueue true _ d hfits
  refine ⟨d, hfits, hcount.trans htwo, hmeets _ trivial ?_ ?_⟩
  · rw [hlast]
    exact ⟨by decide, by decide⟩
  · show d.scheduler.stored.card + 1 < 2 ^ 32
    rw [htwo]
    decide

/-- As many events as `m_qSize` can count, all of time 0 and each with its own number. -/
theorem exists_run_insert (n : ℕ) (hn : n < 2 ^ 32) :
    ∃ d, machine.Run Fits ⟨0, construct false⟩
      ((List.range n).map fun uid => .insert (eventAt 0 uid)) d ∧ d.last = 0 ∧
      d.scheduler.stored.card = n := by
  induction n with
  | zero => exact ⟨⟨0, construct false⟩, .nil _, rfl, rfl⟩
  | succ n ih =>
    obtain ⟨d, hrun, hlast, hcard⟩ := ih (by omega)
    have htimely : Timely d.last (.insert (eventAt 0 n)) := by
      have hts : (eventAt 0 n).ts = 0 := rfl
      rw [hlast]
      show 0 ≤ (eventAt 0 n).ts ∧ (eventAt 0 n).ts < 2 ^ 63
      rw [hts]
      decide
    have hfits : Fits d (.insert (eventAt 0 n)) := by
      show d.scheduler.stored.card + 1 < 2 ^ 32
      rwa [hcard]
    obtain ⟨answer, t, hcall, ⟨hnone, hstored⟩, -⟩ :=
      (sound_of_run false _ d hrun).call (.insert (eventAt 0 n)) trivial htimely hfits
    have hstep : machine.step d (.insert (eventAt 0 n)) = .ok ⟨d.last, t⟩ := by
      show (d.scheduler.call _).map _ = _
      rw [hcall]
      rfl
    refine ⟨⟨d.last, t⟩, ?_, hlast, ?_⟩
    · rw [range_succ, map_append]
      exact hrun.append (.cons _ _ _ _ _ ⟨trivial, htimely⟩ hfits hstep (.nil _))
    · rw [hstored, Multiset.card_cons, hcard]

/-- One event more, and `m_qSize` is 0. -/
theorem insert_overflow (hsound : s.Sound) (ev : Event) (hcard : s.stored.card = 2 ^ 32 - 1) :
    s.insert ev = .ok (s.doInsert ev).grow ∧ (s.doInsert ev).grow.qSize = 0 ∧
      (s.doInsert ev).grow.stored.card = 2 ^ 32 := by
  have hzero : (s.doInsert ev).grow.qSize = 0 := by
    show (s.qSize + 1) % 2 ^ 32 = 0
    rw [hsound.count, hcard, Nat.sub_add_cancel (by decide), Nat.mod_self]
  refine ⟨?_, hzero, ?_⟩
  · unfold insert resizeUp
    rw [hzero]
    exact if_neg fun h => absurd h.1 (Nat.not_lt_zero _)
  · rw [grow, stored_setSize, hsound.kept.stored_doInsert, Multiset.card_cons, hcard,
      Nat.sub_add_cancel (by decide)]

/-- Two events of one number in one bucket. -/
def clashingCalls : List Call := [.insert (eventAt 0 0), .insert ⟨1, ⟨2, 0, 0⟩⟩]

/-- Without the conditions: the second of two events with one number cannot be removed, and
after `2 ^ 32` calls of `Insert` the counter `m_qSize` is back at 0. -/
theorem not_calendarScheduler_isPriorityQueue :
    (∃ d, machine.Run (fun _ _ => True) ⟨0, construct false⟩ clashingCalls d ∧
      Call.Allowed d.scheduler.stored (.remove ⟨1, ⟨2, 0, 0⟩⟩) ∧
      ¬ d.scheduler.Meets (.remove ⟨1, ⟨2, 0, 0⟩⟩)) ∧
    ∃ cs d, machine.Run (fun _ _ => True) ⟨0, construct false⟩ cs d ∧
      d.scheduler.qSize = 0 ∧ d.scheduler.stored.card = 2 ^ 32 := by
  constructor
  · obtain ⟨d, hrun, htest⟩ := Machine.exists_run_of_exec (m := machine) (fun _ _ => true)
      (fun d => decide (Call.Allowed d.scheduler.stored (.remove ⟨1, ⟨2, 0, 0⟩⟩) ∧
        (d.scheduler.remove ⟨1, ⟨2, 0, 0⟩⟩).isOk = false)) ⟨0, construct false⟩
      clashingCalls (by decide +kernel)
    obtain ⟨hallowed, hfails⟩ := of_decide_eq_true htest
    refine ⟨d, hrun.mono fun _ _ _ => trivial, hallowed, ?_⟩
    rintro ⟨answer, t, hcall, -, -⟩
    have hmap : (d.scheduler.remove ⟨1, ⟨2, 0, 0⟩⟩).map (fun s => (none, s)) =
        .ok (answer, t) := hcall
    cases hremove : d.scheduler.remove ⟨1, ⟨2, 0, 0⟩⟩ with
    | ok u =>
      rw [hremove] at hfails
      cases hfails
    | error e =>
      rw [hremove] at hmap
      cases hmap
  · obtain ⟨d, hrun, hlast, hcard⟩ := exists_run_insert (2 ^ 32 - 1) (by decide)
    have hsound := (sound_of_run false _ d hrun).sound
    obtain ⟨hinsert, hzero, hcard'⟩ := insert_overflow hsound (eventAt 0 0) hcard
    have hstep : machine.step d (.insert (eventAt 0 0)) =
        .ok ⟨d.last, (d.scheduler.doInsert (eventAt 0 0)).grow⟩ := by
      show ((d.scheduler.insert _).map _).map _ = _
      rw [hinsert]
      rfl
    have hallowed : machine.enabled d (.insert (eventAt 0 0)) := by
      refine ⟨trivial, ?_⟩
      rw [hlast]
      exact ⟨le_refl _, by decide⟩
    exact ⟨_, _, (hrun.mono fun _ _ _ => trivial).append
      (.cons _ _ _ _ _ hallowed trivial hstep (.nil _)), hzero, hcard'⟩

end CalendarScheduler

end Ns3Dsme.Core
