/-
# The heap scheduler

`HeapScheduler` keeps its events in a binary heap.  `Remove` fills the hole with the last
element and moves it down only; the element may come from another subtree and precede the
parent of the hole, and then the heap is out of order.  It is a priority queue exactly as long
as no `Remove` meets such an element.
-/
import Ns3Dsme.Core.Scheduler
import Ns3Dsme.Lib.BinaryHeap
import Ns3Dsme.Lib.Machine

open Multiset List Program BinaryHeap

namespace Ns3Dsme.Core

/-- The item wasted at the start of the array. -/
def emptyEvent : Event := ⟨0, ⟨0, 0, 0⟩⟩

/-- `m_heap`, a binary heap whose first item is not used. -/
structure HeapScheduler where
  heap : List Event := [emptyEvent]

namespace HeapScheduler

/-! ## Positions -/

/-- The position above. -/
def parent (id : ℕ) : ℕ := id / 2

/-- The first position below. -/
def leftChild (id : ℕ) : ℕ := id * 2

/-- The second position below. -/
def rightChild (id : ℕ) : ℕ := id * 2 + 1

/-- The position of the least event. -/
def root : ℕ := 1

/-- `IsRoot`. -/
def isRoot (id : ℕ) : Bool := id == root

/-- The last position in use. -/
def last (h : HeapScheduler) : ℕ := h.heap.length - 1

/-- No event is at the position. -/
def isBottom (h : HeapScheduler) (id : ℕ) : Bool := h.heap.length ≤ id

/-- `IsEmpty`. -/
def isEmpty (h : HeapScheduler) : Bool := h.heap.length == 1

/-- `m_heap[id]`. -/
def item (h : HeapScheduler) (id : ℕ) : Event := h.heap.getD id emptyEvent

/-! ## Moving events -/

/-- `Exch`, with its assertions. -/
def exch (h : HeapScheduler) (a b : ℕ) : Exec HeapScheduler :=
  if b < h.heap.length ∧ a < h.heap.length then
    .ok ⟨(h.heap.set a (h.item b)).set b (h.item a)⟩
  else .error .assertFailed

/-- The event at `a` comes before the one at `b`. -/
def isLessStrictly (h : HeapScheduler) (a b : ℕ) : Bool := (h.item a).key.isLess (h.item b).key

/-- `Smallest`: the position of the event that comes first. -/
def smallest (h : HeapScheduler) (a b : ℕ) : ℕ := if h.isLessStrictly a b then a else b

/-- The loop of `BottomUp`.  `turns` bounds its turns; it is a fault to need more. -/
def bottomUpFrom (h : HeapScheduler) (index : ℕ) : ℕ → Exec HeapScheduler
  | 0 => .error .outOfRange
  | turns + 1 =>
    if !isRoot index && h.isLessStrictly index (parent index) then do
      let h ← h.exch index (parent index)
      h.bottomUpFrom (parent index) turns
    else .ok h

/-- `BottomUp`: the last event rises. -/
def bottomUp (h : HeapScheduler) : Exec HeapScheduler := h.bottomUpFrom h.last h.heap.length

/-- The loop of `TopDown` and what follows it.  `turns` bounds its turns; it is a fault to need
more. -/
def topDownFrom (h : HeapScheduler) (index : ℕ) : ℕ → Exec HeapScheduler
  | 0 => .error .outOfRange
  | turns + 1 =>
    let left := leftChild index
    let right := rightChild index
    if !h.isBottom right then
      let tmp := h.smallest left right
      if h.isLessStrictly index tmp then .ok h
      else do
        let h ← h.exch index tmp
        h.topDownFrom tmp turns
    else if h.isBottom index then .ok h
    else if h.isBottom left then .ok h
    else if h.isLessStrictly index left then .ok h
    else h.exch index left

/-- `TopDown`: the event at `start` sinks. -/
def topDown (h : HeapScheduler) (start : ℕ) : Exec HeapScheduler :=
  h.topDownFrom start h.heap.length

/-! ## The calls -/

/-- `m_heap.pop_back()`. -/
def popBack (h : HeapScheduler) : HeapScheduler := ⟨h.heap.dropLast⟩

/-- `Insert`. -/
def insert (h : HeapScheduler) (ev : Event) : Exec HeapScheduler :=
  bottomUp ⟨h.heap ++ [ev]⟩

/-- Without any event there is no item at the root to read. -/
def peekNext (h : HeapScheduler) : Exec Event :=
  if h.isEmpty then .error .outOfRange else .ok (h.item root)

/-- `RemoveNext`. -/
def removeNext (h : HeapScheduler) : Exec (Event × HeapScheduler) := do
  let next ← h.peekNext
  let h ← h.exch root h.last
  let h ← h.popBack.topDown root
  return (next, h)

/-- The position at which the loop of `Remove` finds the number of the event. -/
def position (h : HeapScheduler) (ev : Event) : Option ℕ :=
  (h.heap.tail.findIdx? fun e => e.key.uid == ev.key.uid).map (· + 1)

/-- `Remove`: the event that takes the place sinks only. -/
def remove (h : HeapScheduler) (ev : Event) : Exec HeapScheduler :=
  match h.position ev with
  | some i =>
    if (h.item i).impl = ev.impl then do
      let h ← h.exch i h.last
      h.popBack.topDown i
    else .error .assertFailed
  | none => .error .assertFailed

/-- Carry out a call. -/
def call (h : HeapScheduler) : Call → Exec (Option Event × HeapScheduler)
  | .insert ev => (h.insert ev).map fun h => (none, h)
  | .peekNext => h.peekNext.map fun e => (some e, h)
  | .removeNext => h.removeNext.map fun r => (some r.1, r.2)
  | .remove ev => (h.remove ev).map fun h => (none, h)

/-- The events behind the wasted item. -/
def stored (h : HeapScheduler) : Multiset Event := h.heap.tail

/-- The rank of the item at a position. -/
def key (h : HeapScheduler) (id : ℕ) : ℕ ×ₗ ℕ := (h.item id).rank

/-- The heap order: no element is smaller than its parent. -/
def InOrder (h : HeapScheduler) : Prop := Ordered h.last h.key

/-- The wasted item is there. -/
def HasFirst (h : HeapScheduler) : Prop := 1 ≤ h.heap.length

/-! ## Exchanges -/

/-- The same events in another order behind the wasted item. -/
structure Rearranged (h h' : HeapScheduler) : Prop where
  first : h'.heap.head? = h.heap.head?
  perm : h'.heap.Perm h.heap

theorem Rearranged.refl (h : HeapScheduler) : Rearranged h h := ⟨rfl, List.Perm.refl _⟩

theorem Rearranged.trans {h h' h'' : HeapScheduler} (r : Rearranged h h') (r' : Rearranged h' h'') :
    Rearranged h h'' :=
  ⟨r'.first.trans r.first, r'.perm.trans r.perm⟩

/-- Exchanges keep the length. -/
theorem Rearranged.length {h h' : HeapScheduler} (r : Rearranged h h') :
    h'.heap.length = h.heap.length := r.perm.length_eq

/-- The last position stays the last. -/
theorem Rearranged.last {h h' : HeapScheduler} (r : Rearranged h h') : h'.last = h.last := by
  unfold HeapScheduler.last
  rw [r.length]

/-- Exchanges keep the events. -/
theorem Rearranged.stored {h h' : HeapScheduler} (r : Rearranged h h') :
    h'.stored = h.stored := by
  obtain ⟨heap⟩ := h
  obtain ⟨heap'⟩ := h'
  have hperm : heap'.Perm heap := r.perm
  have hfirst : heap'.head? = heap.head? := r.first
  apply coe_eq_coe.mpr
  show heap'.tail.Perm heap.tail
  cases heap with
  | nil =>
    rw [hperm.eq_nil]
  | cons e es =>
    cases heap' with
    | nil => exact absurd hperm.symm.eq_nil (by simp)
    | cons e' es' =>
      rw [List.head?_cons, List.head?_cons, Option.some_inj] at hfirst
      rw [hfirst] at hperm
      exact hperm.cons_inv

/-- Two events change places, and the wasted item keeps its own. -/
theorem exch_ok (h : HeapScheduler) (a b : ℕ) (ha : 1 ≤ a) (hal : a ≤ h.last) (hb : 1 ≤ b)
    (hbl : b ≤ h.last) :
    ∃ h', h.exch a b = .ok h' ∧ Rearranged h h' ∧ h'.item = h.item ∘ Equiv.swap a b := by
  unfold last at hal hbl
  have haLen : a < h.heap.length := by omega
  have hbLen : b < h.heap.length := by omega
  refine ⟨⟨(h.heap.set a (h.item b)).set b (h.item a)⟩, if_pos ⟨hbLen, haLen⟩, ⟨?_, ?_⟩, ?_⟩
  · rw [List.head?_eq_getElem?, List.head?_eq_getElem?, List.getElem?_set_ne (by omega),
      List.getElem?_set_ne (by omega)]
  · have hitemA : h.item a = h.heap[a] := (getElem_eq_getD emptyEvent).symm
    have hitemB : h.item b = h.heap[b] := (getElem_eq_getD emptyEvent).symm
    rw [hitemA, hitemB]
    exact set_set_perm haLen hbLen
  · funext j
    show List.getD _ j emptyEvent = h.item (Equiv.swap a b j)
    rw [getD_eq_getElem?_getD]
    by_cases hjb : b = j
    · subst hjb
      rw [List.getElem?_set_self (by simpa using hbLen), Equiv.swap_apply_right]
      rfl
    · rw [List.getElem?_set_ne hjb]
      by_cases hja : a = j
      · subst hja
        rw [List.getElem?_set_self haLen, Equiv.swap_apply_left]
        rfl
      · rw [List.getElem?_set_ne hja, Equiv.swap_apply_of_ne_of_ne (Ne.symm hja) (Ne.symm hjb),
          item, getD_eq_getElem?_getD]

/-- The keys go with the items. -/
theorem key_exch {h h' : HeapScheduler} {a b : ℕ} (hitem : h'.item = h.item ∘ Equiv.swap a b) :
    h'.key = h.key ∘ Equiv.swap a b := by
  funext j
  show (h'.item j).rank = (h.item (Equiv.swap a b j)).rank
  rw [hitem]
  rfl

/-- `IsLessStrictly` compares the keys. -/
theorem isLessStrictly_iff (h : HeapScheduler) (a b : ℕ) :
    h.isLessStrictly a b = true ↔ h.key a < h.key b :=
  EventKey.isLess_iff _ _

/-! ## The loops -/

/-- `BottomUp` brings the heap in order, if the hole it starts from may move up. -/
theorem bottomUpFrom_inOrder (h : HeapScheduler) (index turns : ℕ)
    (hready : UpReady h.last h.key index) (hindex : 1 ≤ index) (hlast : index ≤ h.last)
    (hturns : index ≤ turns) :
    ∃ h', h.bottomUpFrom index turns = .ok h' ∧ Rearranged h h' ∧ h'.InOrder := by
  induction turns generalizing h index with
  | zero => omega
  | succ turns ih =>
    unfold bottomUpFrom
    by_cases hroot : index = 1
    · have hstop : (!isRoot index && h.isLessStrictly index (parent index)) = false := by
        rw [hroot]
        rfl
      rw [if_neg (by rw [hstop]; decide)]
      exact ⟨h, rfl, .refl h, hready.ordered (Or.inl (by omega))⟩
    · have hnotRoot : isRoot index = false := by simpa [isRoot, root] using hroot
      rw [hnotRoot, Bool.not_false, Bool.true_and]
      by_cases hless : h.key index < h.key (parent index)
      · rw [if_pos ((isLessStrictly_iff h _ _).mpr hless)]
        obtain ⟨h₁, hexch, hsame, hitem⟩ :=
          h.exch_ok index (index / 2) hindex hlast (by omega) (by omega)
        have hnext : UpReady h₁.last h₁.key (index / 2) := by
          rw [hsame.last, key_exch hitem]
          exact hready.exch (by omega) hlast hless
        obtain ⟨h', hrun, hsame', horder⟩ :=
          ih h₁ (index / 2) hnext (by omega) (by rw [hsame.last]; omega) (by omega)
        refine ⟨h', ?_, hsame.trans hsame', horder⟩
        show (h.exch index (index / 2) >>= fun h => h.bottomUpFrom (index / 2) turns) = .ok h'
        rw [hexch]
        exact hrun
      · rw [if_neg (by rwa [isLessStrictly_iff])]
        exact ⟨h, rfl, .refl h, hready.ordered (Or.inr (not_lt.mp hless))⟩

/-- The smaller of two children has the least key of both. -/
theorem key_smallest_le (h : HeapScheduler) (a b : ℕ) :
    (h.smallest a b = a ∨ h.smallest a b = b) ∧ h.key (h.smallest a b) ≤ h.key a ∧
      h.key (h.smallest a b) ≤ h.key b := by
  unfold smallest
  split
  · rename_i hless
    exact ⟨Or.inl rfl, le_refl _, ((isLessStrictly_iff h a b).mp hless).le⟩
  · rename_i hless
    exact ⟨Or.inr rfl, not_lt.mp fun hlt => hless ((isLessStrictly_iff h a b).mpr hlt), le_refl _⟩

/-- `TopDown` keeps the events, and brings the heap in order if the hole it starts from may
move down. -/
theorem topDownFrom_inOrder (h : HeapScheduler) (index turns : ℕ) (hindex : 1 ≤ index)
    (hturns : h.last < index + turns) (hpos : 1 ≤ turns) :
    ∃ h', h.topDownFrom index turns = .ok h' ∧ Rearranged h h' ∧
      (DownReady h.last h.key index → h'.InOrder) := by
  induction turns generalizing h index with
  | zero => omega
  | succ turns ih =>
    have hchild (j : ℕ) (hj : j / 2 = index) : j = leftChild index ∨ j = rightChild index := by
      unfold leftChild rightChild
      omega
    have hleft : leftChild index / 2 = index := by
      unfold leftChild
      omega
    have hright : rightChild index / 2 = index := by
      unfold rightChild
      omega
    unfold topDownFrom
    dsimp only
    by_cases hboth : h.isBottom (rightChild index) = false
    · -- both children are there
      rw [hboth, if_pos (by decide)]
      obtain ⟨hone, hleLeft, hleRight⟩ := key_smallest_le h (leftChild index) (rightChild index)
      generalize h.smallest (leftChild index) (rightChild index) = tmp at hone hleLeft hleRight ⊢
      have hrightLast : rightChild index ≤ h.last := by
        simp only [isBottom, decide_eq_false_iff_not] at hboth
        unfold last
        omega
      have htmp : tmp / 2 = index := by
        rcases hone with rfl | rfl
        · exact hleft
        · exact hright
      have htmpLast : tmp ≤ h.last := by
        unfold leftChild rightChild at *
        omega
      have hmin (j : ℕ) (hj : j / 2 = index) : h.key tmp ≤ h.key j := by
        rcases hchild j hj with rfl | rfl
        · exact hleLeft
        · exact hleRight
      by_cases hless : h.key index < h.key tmp
      · rw [if_pos ((isLessStrictly_iff h _ _).mpr hless)]
        refine ⟨h, rfl, .refl h, fun hready => hready.ordered fun j _ _ hj => ?_⟩
        exact hless.le.trans (hmin j hj)
      · rw [if_neg (by rwa [isLessStrictly_iff])]
        obtain ⟨h₁, hexch, hsame, hitem⟩ :=
          h.exch_ok index tmp hindex (by omega) (by omega) htmpLast
        obtain ⟨h', hrun, hsame', horder⟩ :=
          ih h₁ tmp (by omega) (by rw [hsame.last]; omega) (by omega)
        refine ⟨h', ?_, hsame.trans hsame', fun hready => horder ?_⟩
        · show (h.exch index tmp >>= fun h => h.topDownFrom tmp turns) = .ok h'
          rw [hexch]
          exact hrun
        · rw [hsame.last, key_exch hitem]
          exact hready.exch hindex htmp htmpLast (fun j _ _ hj => hmin j hj) (not_lt.mp hless)
    · rw [if_neg (by simpa using hboth)]
      have hrightLast : h.last < rightChild index := by
        simp only [isBottom, decide_eq_false_iff_not, not_not] at hboth
        unfold last
        unfold rightChild at hboth ⊢
        omega
      by_cases hnone : h.isBottom (leftChild index) = true
      · have hleftLast : h.last < leftChild index := by
          simp only [isBottom, decide_eq_true_eq] at hnone
          unfold last
          unfold leftChild at hnone ⊢
          omega
        have hdone : DownReady h.last h.key index → h.InOrder := by
          intro hready
          refine hready.ordered fun j _ hjl hj => ?_
          rcases hchild j hj with rfl | rfl
          · omega
          · omega
        rw [hnone, if_pos rfl, ite_self]
        exact ⟨h, rfl, .refl h, hdone⟩
      · -- the left child is the last element
        have hleftLast : leftChild index ≤ h.last := by
          simp only [isBottom, decide_eq_true_eq, not_le] at hnone
          unfold last
          omega
        have hinside : h.isBottom index = false := by
          simp only [isBottom, decide_eq_true_eq, decide_eq_false_iff_not, not_le] at hnone ⊢
          unfold leftChild at hnone
          omega
        have hmin (j : ℕ) (hjl : j ≤ h.last) (hj : j / 2 = index) : j = leftChild index := by
          rcases hchild j hj with rfl | rfl
          · rfl
          · omega
        rw [hinside, if_neg Bool.false_ne_true, if_neg hnone]
        by_cases hless : h.key index < h.key (leftChild index)
        · rw [if_pos ((isLessStrictly_iff h _ _).mpr hless)]
          refine ⟨h, rfl, .refl h, fun hready => hready.ordered fun j _ hjl hj => ?_⟩
          rw [hmin j hjl hj]
          exact hless.le
        · rw [if_neg (by rwa [isLessStrictly_iff])]
          obtain ⟨h', hexch, hsame, hitem⟩ :=
            h.exch_ok index (leftChild index) hindex (by omega) (by omega) hleftLast
          refine ⟨h', hexch, hsame, fun hready => ?_⟩
          have hready' : DownReady h'.last h'.key (leftChild index) := by
            rw [hsame.last, key_exch hitem]
            refine hready.exch hindex hleft hleftLast (fun j _ hjl hj => ?_) (not_lt.mp hless)
            rw [hmin j hjl hj]
          refine hready'.ordered fun j _ hjl hj => ?_
          rw [hsame.last] at hjl
          unfold leftChild rightChild at *
          omega

/-- A hole below which no element is as small stays where it is. -/
theorem topDownFrom_stays (h : HeapScheduler) (index turns : ℕ) (hpos : 1 ≤ turns)
    (hless : ∀ j, j ≤ h.last → j / 2 = index → h.key index < h.key j) :
    h.topDownFrom index turns = .ok h := by
  obtain ⟨turns, rfl⟩ : ∃ t, turns = t + 1 := ⟨turns - 1, by omega⟩
  have hbelow (j : ℕ) (hj : j / 2 = index) (hin : h.isBottom j = false) :
      h.isLessStrictly index j = true := by
    refine (isLessStrictly_iff h _ _).mpr (hless j ?_ hj)
    simp only [isBottom, decide_eq_false_iff_not, not_le] at hin
    unfold last
    omega
  unfold topDownFrom
  dsimp only
  split
  · rename_i hright
    have hboth : h.isBottom (rightChild index) = false := by simpa using hright
    have hleft : h.isBottom (leftChild index) = false := by
      simp only [isBottom, decide_eq_false_iff_not, not_le] at hboth ⊢
      unfold leftChild
      unfold rightChild at hboth
      omega
    rw [if_pos]
    rcases (key_smallest_le h (leftChild index) (rightChild index)).1 with heq | heq
    · rw [heq]
      refine hbelow _ ?_ hleft
      unfold leftChild
      omega
    · rw [heq]
      refine hbelow _ ?_ hboth
      unfold rightChild
      omega
  · split
    · rfl
    · split
      · rfl
      · rename_i hleft
        rw [if_pos]
        refine hbelow _ ?_ (by simpa using hleft)
        unfold leftChild
        omega

/-! ## Taking an event out -/

/-- The last event leaves. -/
theorem stored_popBack (h : HeapScheduler) (hlast : 1 ≤ h.last) :
    h.stored = h.item h.last ::ₘ h.popBack.stored := by
  obtain ⟨heap⟩ := h
  unfold last at hlast
  cases heap with
  | nil => simp at hlast
  | cons e es =>
    have hes : es ≠ [] := by
      rintro rfl
      simp at hlast
    have hitem : item ⟨e :: es⟩ (last ⟨e :: es⟩) = es.getLast hes := by
      unfold item last
      rw [← getElem_eq_getD (h := by simp), ← getLast_eq_getElem (by simp)]
      exact getLast_cons hes
    have htail : (popBack ⟨e :: es⟩).heap.tail = es.dropLast := by
      unfold popBack
      rw [dropLast_cons_of_ne_nil hes, tail_cons]
    unfold stored
    rw [htail, hitem, tail_cons]
    apply coe_eq_coe.mpr
    conv_lhs => rw [← dropLast_append_getLast hes]
    exact perm_append_singleton _ _

/-- The last position is given up. -/
theorem last_popBack (h : HeapScheduler) : h.popBack.last = h.last - 1 := by
  unfold last popBack
  rw [length_dropLast]

/-- The other positions keep their items. -/
theorem item_popBack (h : HeapScheduler) (j : ℕ) (hj : j < h.last) :
    h.popBack.item j = h.item j := by
  unfold last at hj
  unfold item popBack
  rw [getD_eq_getElem?_getD, getD_eq_getElem?_getD, List.getElem?_dropLast, if_pos hj]

/-- The exchange with the last event, which then leaves: what is stored, and where. -/
theorem exch_popBack (h : HeapScheduler) (i : ℕ) (hi : 1 ≤ i) (hil : i ≤ h.last) :
    ∃ h₁, h.exch i h.last = .ok h₁ ∧ h.stored = h.item i ::ₘ h₁.popBack.stored ∧
      h₁.popBack.last + 1 = h.last ∧
      ∀ j, j ≤ h₁.popBack.last → h₁.popBack.key j = (h.key ∘ Equiv.swap i h.last) j := by
  obtain ⟨h₁, hexch, hsame, hitem⟩ := h.exch_ok i h.last hi hil (by omega) (le_refl _)
  have hlast : h₁.last = h.last := hsame.last
  refine ⟨h₁, hexch, ?_, ?_, ?_⟩
  · have hout : h₁.item h₁.last = h.item i := by
      rw [hitem, hlast, Function.comp_apply, Equiv.swap_apply_right]
    rw [← hsame.stored, stored_popBack h₁ (by omega), hout]
  · rw [last_popBack]
    omega
  · intro j hj
    rw [last_popBack] at hj
    rw [← key_exch hitem]
    unfold key
    rw [item_popBack h₁ j (by omega)]

/-- Taking out the event at a position: the last one fills the hole and moves down. -/
theorem takeOut (h : HeapScheduler) (i : ℕ) (hi : 1 ≤ i) (hil : i ≤ h.last) :
    ∃ h', (h.exch i h.last >>= fun h => h.popBack.topDown i) = .ok h' ∧
      h.stored = h.item i ::ₘ h'.stored ∧ h'.HasFirst ∧
      (h.InOrder → (2 ≤ i → i < h.last → h.key (parent i) ≤ h.key h.last) → h'.InOrder) := by
  obtain ⟨h₁, hexch, hout, hlast, hkey⟩ := h.exch_popBack i hi hil
  have hturns : h₁.popBack.last < i + h₁.popBack.heap.length := by
    unfold last
    omega
  have hpos : h₁.popBack.HasFirst := by
    obtain ⟨h₂, hexch₂, hsame, -⟩ := h.exch_ok i h.last hi hil (by omega) (le_refl _)
    obtain rfl : h₁ = h₂ := Except.ok.inj (hexch.symm.trans hexch₂)
    have hlen : h₁.heap.length = h.heap.length := hsame.length
    unfold HasFirst popBack
    rw [length_dropLast]
    unfold last at hil
    omega
  obtain ⟨h', hrun, hsame, horder⟩ :=
    h₁.popBack.topDownFrom_inOrder i h₁.popBack.heap.length hi hturns hpos
  refine ⟨h', ?_, ?_, ?_, fun hin hfits => horder ?_⟩
  · rw [hexch]
    exact hrun
  · rw [hsame.stored]
    exact hout
  · unfold HasFirst
    rw [hsame.length]
    exact hpos
  · have hready : DownReady h₁.popBack.last (h.key ∘ Equiv.swap i h.last) i := by
      unfold InOrder at hin
      rw [← hlast] at hin hil hfits ⊢
      exact hin.downReady hi (fun hi2 hil' => hfits hi2 (by omega)) hil
    exact hready.congr hkey (by omega)

/-- An element that precedes the parent of the hole stays there, out of order. -/
theorem not_inOrder_of_takeOut (h : HeapScheduler) (i : ℕ) (hin : h.InOrder) (hi : 2 ≤ i)
    (hil : i < h.last) (hless : h.key h.last < h.key (parent i)) (h' : HeapScheduler)
    (hrun : (h.exch i h.last >>= fun h => h.popBack.topDown i) = .ok h') : ¬ h'.InOrder := by
  obtain ⟨h₁, hexch, -, hlast, hkey⟩ := h.exch_popBack i (by omega) hil.le
  have hhole : h₁.popBack.key i = h.key h.last := by
    rw [hkey i (by omega), Function.comp_apply, Equiv.swap_apply_left]
  have hother (j : ℕ) (hj : j ≤ h₁.popBack.last) (hji : j ≠ i) : h₁.popBack.key j = h.key j := by
    rw [hkey j hj, Function.comp_apply, Equiv.swap_apply_of_ne_of_ne hji (by omega)]
  have hstays : h₁.popBack.topDown i = .ok h₁.popBack := by
    refine h₁.popBack.topDownFrom_stays i _ ?_ fun j hj hji => ?_
    · unfold last at hil hlast
      omega
    · -- the children of the hole follow its parent, the new element precedes it
      have hparent : h.key (i / 2) ≤ h.key i := hin i hi hil.le
      have hchild : h.key (j / 2) ≤ h.key j := hin j (by omega) (by omega)
      rw [hji] at hchild
      rw [hhole, hother j hj (by omega)]
      exact lt_of_lt_of_le hless (hparent.trans hchild)
  rw [hexch] at hrun
  have heq : h₁.popBack = h' := Except.ok.inj (hstays.symm.trans hrun)
  rw [← heq]
  intro hin'
  have hle : h₁.popBack.key (i / 2) ≤ h₁.popBack.key i := hin' i hi (by omega)
  rw [hhole, hother (i / 2) (by omega) (by omega)] at hle
  exact absurd hless (not_lt_of_ge hle)

/-! ## The calls on a heap in order -/

/-- Nothing is stored if no position is taken. -/
theorem stored_eq_zero_iff (h : HeapScheduler) : h.stored = 0 ↔ h.last = 0 := by
  unfold stored last
  rw [coe_eq_zero, ← length_eq_zero_iff, length_tail]

/-- What is stored is at a position from 1 on. -/
theorem mem_stored_iff (h : HeapScheduler) (e : Event) :
    e ∈ h.stored ↔ ∃ i, 1 ≤ i ∧ i ≤ h.last ∧ h.item i = e := by
  unfold stored last item
  rw [mem_coe, mem_iff_getElem?]
  constructor
  · rintro ⟨i, hi⟩
    rw [List.getElem?_tail] at hi
    obtain ⟨hlen, -⟩ := List.getElem?_eq_some_iff.mp hi
    refine ⟨i + 1, by omega, by omega, ?_⟩
    rw [getD_eq_getElem?_getD, hi, Option.getD_some]
  · rintro ⟨i, hi, hil, hitem⟩
    obtain ⟨j, rfl⟩ : ∃ j, i = j + 1 := ⟨i - 1, by omega⟩
    have hlen : j + 1 < h.heap.length := by omega
    refine ⟨j, ?_⟩
    rw [List.getElem?_tail, List.getElem?_eq_getElem hlen, getElem_eq_getD emptyEvent, hitem]

/-- The root is the next event of a heap in order. -/
theorem InOrder.isNext {h : HeapScheduler} (hin : h.InOrder) (hlast : 1 ≤ h.last) :
    IsNext h.stored (h.item root) := by
  constructor
  · exact (mem_stored_iff h _).mpr ⟨1, le_refl _, hlast, rfl⟩
  · intro e he
    obtain ⟨i, hi, hil, rfl⟩ := (mem_stored_iff h e).mp he
    exact hin.root_le i hi hil

/-- `Insert` stores the event and keeps the order. -/
theorem insert_inOrder (h : HeapScheduler) (ev : Event) (hfirst : h.HasFirst) (hin : h.InOrder) :
    ∃ h', h.insert ev = .ok h' ∧ h'.stored = ev ::ₘ h.stored ∧ h'.HasFirst ∧ h'.InOrder := by
  obtain ⟨heap⟩ := h
  have hlen : 1 ≤ heap.length := hfirst
  have hlast : last ⟨heap ++ [ev]⟩ = last ⟨heap⟩ + 1 := by
    show (heap ++ [ev]).length - 1 = heap.length - 1 + 1
    rw [length_append, length_singleton]
    omega
  have hkey (j : ℕ) (hj : j ≤ last ⟨heap⟩) : key ⟨heap ++ [ev]⟩ j = key ⟨heap⟩ j := by
    have hjLen : j ≤ heap.length - 1 := hj
    unfold key item
    rw [getD_eq_getElem?_getD, getD_eq_getElem?_getD,
      List.getElem?_append_left (by omega)]
  have hready : UpReady (last ⟨heap ++ [ev]⟩) (key ⟨heap ++ [ev]⟩) (last ⟨heap ++ [ev]⟩) := by
    rw [hlast]
    exact Ordered.upReady (hin.congr hkey)
  obtain ⟨h', hrun, hsame, horder⟩ := bottomUpFrom_inOrder ⟨heap ++ [ev]⟩ (last ⟨heap ++ [ev]⟩)
    (heap ++ [ev]).length hready (by omega) (le_refl _) (by unfold last; exact Nat.sub_le _ _)
  refine ⟨h', hrun, ?_, ?_, horder⟩
  · rw [hsame.stored]
    unfold stored
    rw [tail_append_of_ne_nil (ne_nil_of_length_pos hlen), cons_coe]
    exact coe_eq_coe.mpr (perm_append_singleton _ _)
  · unfold HasFirst
    rw [hsame.length, length_append]
    exact Nat.le_add_right_of_le hlen

/-- What `Remove` finds has the number it looks for. -/
theorem position_eq_some {h : HeapScheduler} {ev : Event} {i : ℕ} (hpos : h.position ev = some i) :
    1 ≤ i ∧ i ≤ h.last ∧ (h.item i).key.uid = ev.key.uid := by
  unfold position at hpos
  obtain ⟨j, hfind, rfl⟩ := Option.map_eq_some_iff.mp hpos
  obtain ⟨hlen, huid, -⟩ := List.findIdx?_eq_some_iff_getElem.mp hfind
  rw [length_tail] at hlen
  refine ⟨by omega, hlen, ?_⟩
  rw [getElem_tail, beq_iff_eq, getElem_eq_getD emptyEvent] at huid
  exact huid

/-- A stored event is found, or one with the same number. -/
theorem position_isSome {h : HeapScheduler} {ev : Event} (hev : ev ∈ h.stored) :
    ∃ i, h.position ev = some i := by
  unfold position
  cases hfind : h.heap.tail.findIdx? fun e => e.key.uid == ev.key.uid with
  | none =>
    have hnot := List.findIdx?_eq_none_iff.mp hfind ev (mem_coe.mp hev)
    simp at hnot
  | some i => exact ⟨i + 1, rfl⟩

/-- The only condition on a call: `Remove` finds its event, and the last element does not
precede the parent of the hole. -/
def Fits (h : HeapScheduler) : Call → Prop
  | .remove ev =>
    match h.position ev with
    | some i => h.item i = ev ∧ (2 ≤ i → i < h.last → h.key (parent i) ≤ h.key h.last)
    | none => False
  | _ => True

instance (h : HeapScheduler) : (c : Call) → Decidable (h.Fits c)
  | .insert _ => inferInstanceAs (Decidable True)
  | .peekNext => inferInstanceAs (Decidable True)
  | .removeNext => inferInstanceAs (Decidable True)
  | .remove ev =>
    match hpos : h.position ev with
    | some i =>
      decidable_of_iff
        (h.item i = ev ∧ (2 ≤ i → i < h.last → h.key (parent i) ≤ h.key h.last))
        (by simp only [Fits, hpos])
    | none => isFalse (by simp only [Fits, hpos, not_false_iff])

/-- The call returns, with the answer and the effect it has on a priority queue, and leaves the
heap in order. -/
def Meets (h : HeapScheduler) (c : Call) : Prop :=
  ∃ answer h', h.call c = .ok (answer, h') ∧ Serves h.stored c answer h'.stored ∧ h'.InOrder

/-- Where events are stored, there is a root. -/
theorem exists_root (h : HeapScheduler) (hstored : h.stored ≠ 0) :
    1 ≤ h.last ∧ h.isEmpty = false := by
  have hlast : h.last ≠ 0 := mt (stored_eq_zero_iff h).mpr hstored
  refine ⟨by omega, beq_eq_false_iff_ne.mpr ?_⟩
  unfold last at hlast
  omega

/-- The root of a heap in order is the next event. -/
theorem meets_peekNext (h : HeapScheduler) (hin : h.InOrder) (hstored : h.stored ≠ 0) :
    h.Meets .peekNext := by
  obtain ⟨hlast, hfull⟩ := h.exists_root hstored
  refine ⟨some (h.item root), h, ?_, ⟨_, rfl, hin.isNext hlast, rfl⟩, hin⟩
  show h.peekNext.map _ = _
  unfold peekNext
  rw [hfull]
  rfl

/-- `PeekNext` answers like the sorted list of the stored events. -/
theorem InOrder.peekNext_eq_ok_iff {h : HeapScheduler} (hfirst : h.HasFirst) (hin : h.InOrder)
    (l : List Event) (hl : l.Pairwise fun e e' => e.rank < e'.rank) (hstored : h.stored = l)
    (e : Event) : h.peekNext = .ok e ↔ l.head? = some e := by
  by_cases hzero : h.stored = 0
  · have hempty : h.isEmpty = true := by
      have hlast := (stored_eq_zero_iff h).mp hzero
      unfold HasFirst at hfirst
      unfold last at hlast
      exact beq_iff_eq.mpr (by omega)
    have hnil : l = [] := coe_eq_zero l |>.mp (hstored.symm.trans hzero)
    unfold peekNext
    rw [hempty, hnil]
    exact iff_of_false (by simp) (by simp)
  · obtain ⟨hlast, hfull⟩ := h.exists_root hzero
    have hhead : l.head? = some (h.item root) := by
      rw [← isNext_iff_head? l hl, ← hstored]
      exact hin.isNext hlast
    unfold peekNext
    rw [hfull, hhead, if_neg Bool.false_ne_true, Except.ok.injEq, Option.some_inj]

/-- The call leaves the wasted item where it is. -/
def KeepsFirst (h : HeapScheduler) (c : Call) : Prop :=
  Post (h.call c) fun r => r.2.HasFirst

/-- `RemoveNext` exchanges the root with the last item and moves it down. -/
theorem meets_removeNext (h : HeapScheduler) (hin : h.InOrder) (hstored : h.stored ≠ 0) :
    h.Meets .removeNext ∧ h.KeepsFirst .removeNext := by
  obtain ⟨hlast, hfull⟩ := h.exists_root hstored
  obtain ⟨h', hrun, hout, hfirst', horder⟩ := h.takeOut root (le_refl _) hlast
  have hcall : h.call .removeNext = .ok (some (h.item root), h') := by
    show h.removeNext.map _ = _
    unfold removeNext peekNext
    rw [hfull]
    cases hexch : h.exch root h.last with
    | error e =>
      rw [hexch] at hrun
      cases hrun
    | ok h₁ =>
      rw [hexch] at hrun
      change h₁.popBack.topDown root = .ok h' at hrun
      show ((h₁.popBack.topDown root).bind fun h' => .ok (h.item root, h')).map _ = _
      rw [hrun]
      rfl
  have hnext : IsNext h.stored (h.item root) := hin.isNext hlast
  refine ⟨⟨_, h', hcall, ⟨_, rfl, hnext, ?_⟩, horder hin fun hroot => ?_⟩, ?_⟩
  · rw [hout, Multiset.erase_cons_head]
  · exact absurd hroot (by decide)
  · unfold KeepsFirst
    rw [hcall]
    exact hfirst'

/-- `Insert` moves the new item up. -/
theorem meets_insert (h : HeapScheduler) (ev : Event) (hfirst : h.HasFirst) (hin : h.InOrder) :
    h.Meets (.insert ev) ∧ h.KeepsFirst (.insert ev) := by
  obtain ⟨h', hrun, hstored, hfirst', horder⟩ := h.insert_inOrder ev hfirst hin
  have hcall : h.call (.insert ev) = .ok (none, h') := by
    show (h.insert ev).map _ = _
    rw [hrun]
    rfl
  refine ⟨⟨none, h', hcall, ⟨rfl, hstored⟩, horder⟩, ?_⟩
  unfold KeepsFirst
  rw [hcall]
  exact hfirst'

/-- `Remove` does what a priority queue does exactly if the last element fits below the parent
of the hole. -/
theorem meets_remove_iff (h : HeapScheduler) (ev : Event) (hin : h.InOrder) (hev : ev ∈ h.stored) :
    (h.Meets (.remove ev) ↔ h.Fits (.remove ev)) ∧ h.KeepsFirst (.remove ev) := by
  obtain ⟨i, hpos⟩ := position_isSome hev
  obtain ⟨hi, hil, -⟩ := position_eq_some hpos
  obtain ⟨h', hrun, hout, hfirst', horder⟩ := h.takeOut i hi hil
  have hcall : h.call (.remove ev) =
      if (h.item i).impl = ev.impl then .ok (none, h') else .error .assertFailed := by
    show (h.remove ev).map _ = _
    unfold remove
    rw [hpos]
    dsimp only
    split
    · rw [hrun]
      rfl
    · rfl
  have hfits : h.Fits (.remove ev) ↔
      h.item i = ev ∧ (2 ≤ i → i < h.last → h.key (parent i) ≤ h.key h.last) := by
    simp only [Fits, hpos]
  constructor
  · rw [hfits]
    constructor
    · rintro ⟨answer, h'', hok, ⟨-, hstored⟩, hin''⟩
      rw [hcall] at hok
      split at hok
      · cases hok
        have hfound : h.item i = ev := by
          rw [hout] at hev
          rw [hout] at hstored
          have hall := cons_erase hev
          rw [← hstored] at hall
          exact ((cons_inj_left _).mp hall).symm
        refine ⟨hfound, fun hi2 hil' => not_lt.mp fun hless => ?_⟩
        exact not_inOrder_of_takeOut h i hin hi2 hil' hless h' hrun hin''
      · cases hok
    · rintro ⟨hfound, hbelow⟩
      refine ⟨none, h', ?_, ⟨rfl, ?_⟩, horder hin hbelow⟩
      · rw [hcall, hfound, if_pos rfl]
      · rw [hout, hfound, Multiset.erase_cons_head]
  · unfold KeepsFirst
    rw [hcall]
    split
    · exact hfirst'
    · trivial

/-- **One call.**  On a heap in order, a call that the interface allows does what a priority
queue does exactly if it fits. -/
theorem meets_iff_fits (h : HeapScheduler) (c : Call) (hfirst : h.HasFirst) (hin : h.InOrder)
    (hallowed : c.Allowed h.stored) : (h.Meets c ↔ h.Fits c) ∧ h.KeepsFirst c := by
  cases c with
  | insert ev =>
    have h' := h.meets_insert ev hfirst hin
    exact ⟨iff_of_true h'.1 trivial, h'.2⟩
  | peekNext =>
    refine ⟨iff_of_true (h.meets_peekNext hin hallowed) trivial, ?_⟩
    exact (wp_map _ _ _ _).mpr (post_of_forall fun e _ => hfirst)
  | removeNext =>
    have h' := h.meets_removeNext hin hallowed
    exact ⟨iff_of_true h'.1 trivial, h'.2⟩
  | remove ev => exact h.meets_remove_iff ev hin hallowed

/-! ## Runs -/

/-- The calls on a heap scheduler. -/
def machine : Machine HeapScheduler Call Fault where
  enabled h c := c.Allowed h.stored
  step h c := (h.call c).map Prod.snd

/-- What the calls rely on, and what they keep as long as they fit. -/
theorem inOrder_of_run (cs : List Call) (h : HeapScheduler) (hrun : machine.Run Fits {} cs h) :
    h.HasFirst ∧ h.InOrder := by
  refine hrun.invariant (fun h => h.HasFirst ∧ h.InOrder) ?_ ⟨le_refl _, ?_⟩
  · rintro h c ⟨hfirst, hin⟩ hallowed hfits
    obtain ⟨hiff, hkeeps⟩ := h.meets_iff_fits c hfirst hin hallowed
    obtain ⟨answer, h', hcall, -, hin'⟩ := hiff.mpr hfits
    show Post ((h.call c).map Prod.snd) _
    unfold KeepsFirst at hkeeps
    rw [hcall] at hkeeps ⊢
    exact ⟨hkeeps, hin'⟩
  · intro j hj hjl
    exact absurd (hj.trans hjl) (by decide)

/-- **The heap scheduler is a priority queue as long as every `Remove` fits.**  A run of calls
that fit ends with a heap in order; a further call returns, answers with the next event, stores
what it should and keeps the order exactly if it fits too.  If the keys are distinct, the next
event is the head of the sorted list of the stored ones. -/
theorem heapScheduler_isPriorityQueue (cs : List Call) (h : HeapScheduler)
    (hrun : machine.Run Fits {} cs h) :
    h.InOrder ∧ (∀ c, c.Allowed h.stored → (h.Meets c ↔ h.Fits c)) ∧
      ∀ l : List Event, (l.Pairwise fun e e' => e.rank < e'.rank) → h.stored = l →
        ∀ e, h.peekNext = .ok e ↔ l.head? = some e := by
  obtain ⟨hfirst, hin⟩ := inOrder_of_run cs h hrun
  refine ⟨hin, ?_, ?_⟩
  · intro c hallowed
    exact (h.meets_iff_fits c hfirst hin hallowed).1
  · intro l hl hstored e
    exact hin.peekNext_eq_ok_iff hfirst l hl hstored e

instance (h : HeapScheduler) (c : Call) : Decidable (machine.enabled h c) :=
  inferInstanceAs (Decidable (c.Allowed h.stored))

/-- The event of a time, which is its number, too. -/
def event (n : ℕ) : Event := ⟨n, ⟨n, n, 0⟩⟩

/-- Seven events; the removal of the fourth moves the sixth below an event that it precedes. -/
def misplacingCalls : List Call :=
  [.insert (event 1), .insert (event 10), .insert (event 2), .insert (event 11),
    .insert (event 12), .insert (event 3), .remove (event 11), .insert (event 4), .removeNext,
    .removeNext]

/-- After these calls `PeekNext` answers with the event of time 4, though that of time 3 is
stored. -/
theorem not_heapScheduler_isPriorityQueue :
    ∃ h, machine.Run (fun _ _ => True) {} misplacingCalls h ∧ ¬ h.InOrder ∧
      Call.peekNext.Allowed h.stored ∧ ¬ h.Meets .peekNext := by
  obtain ⟨h, hrun, htest⟩ := Machine.exists_run_of_exec (m := machine) (fun _ _ => true)
    (fun h => h.item root == event 4 && h.heap.tail.contains (event 3)) {} misplacingCalls
    (by decide +kernel)
  have hboth := Bool.and_eq_true_iff.mp htest
  have hroot : h.item root = event 4 := beq_iff_eq.mp hboth.1
  have hmem : event 3 ∈ h.stored := mem_coe.mpr (contains_iff_mem.mp hboth.2)
  have hstored : h.stored ≠ 0 := fun hzero => by
    rw [hzero] at hmem
    exact absurd hmem (notMem_zero _)
  have hnot : ¬ h.Meets .peekNext := by
    rintro ⟨answer, h', hcall, ⟨e, rfl, hnext, -⟩, -⟩
    have hanswer : e = event 4 := by
      rw [← hroot]
      have hpeek : h.peekNext.map (fun e => (some e, h)) = .ok (some e, h') := hcall
      unfold peekNext at hpeek
      rw [(h.exists_root hstored).2] at hpeek
      exact (Option.some.inj (congrArg Prod.fst (Except.ok.inj hpeek))).symm
    have hle := hnext.least _ hmem
    rw [hanswer] at hle
    exact absurd hle (by decide)
  exact ⟨h, hrun.mono fun _ _ _ => trivial, fun hin => hnot (h.meets_peekNext hin hstored),
    hstored, hnot⟩

/-- Four events, of which one leaves from the middle. -/
def fittingCalls : List Call :=
  [.insert (event 1), .insert (event 2), .insert (event 3), .insert (event 4),
    .remove (event 2)]

theorem heapScheduler_isPriorityQueue_of_fits :
    ∃ h, machine.Run Fits {} fittingCalls h ∧ h.InOrder ∧
      h.peekNext = .ok (event 1) := by
  obtain ⟨h, hrun, hstored⟩ := Machine.exists_run_of_exec (m := machine)
    (fun h c => decide (Fits h c)) (fun h => decide (h.stored = [event 1, event 3, event 4])) {}
    fittingCalls (by decide +kernel)
  have hfits := hrun.mono fun h c hc => of_decide_eq_true hc
  obtain ⟨hin, -, hpeek⟩ := heapScheduler_isPriorityQueue _ h hfits
  exact ⟨h, hfits, hin, (hpeek _ (by decide) (of_decide_eq_true hstored) _).mpr rfl⟩

end HeapScheduler

end Ns3Dsme.Core
