/-
# Sequences searched from the front

A container that keeps its records in a sequence finds, changes and erases the first record
that passes a test, or erases all of them.  The lemmas say what is in the sequence afterwards.
-/
import Mathlib.Data.List.Nodup
import Mathlib.Data.List.Sort

open List

namespace KeyedList

variable {α : Type*}

/-- Change the first element that passes the test. -/
def updateFirst (p : α → Bool) (f : α → α) : List α → List α
  | [] => []
  | x :: xs => if p x then f x :: xs else x :: updateFirst p f xs

variable {p : α → Bool} {f : α → α} {xs : List α} {x y : α}

/-- What is in a sequence after a change was there before, or is the changed element. -/
theorem mem_updateFirst (h : y ∈ updateFirst p f xs) :
    y ∈ xs ∨ ∃ x ∈ xs, p x = true ∧ y = f x := by
  induction xs with
  | nil => cases h
  | cons x xs ih =>
    unfold updateFirst at h
    split at h
    · rename_i hp
      rcases mem_cons.mp h with rfl | h
      · exact .inr ⟨x, mem_cons_self, hp, rfl⟩
      · exact .inl (mem_cons_of_mem _ h)
    · rcases mem_cons.mp h with rfl | h
      · exact .inl mem_cons_self
      · rcases ih h with h | ⟨z, hz, hp, rfl⟩
        · exact .inl (mem_cons_of_mem _ h)
        · exact .inr ⟨z, mem_cons_of_mem _ hz, hp, rfl⟩

/-- Every element stays, or is there changed. -/
theorem mem_updateFirst_or (h : x ∈ xs) : x ∈ updateFirst p f xs ∨ f x ∈ updateFirst p f xs := by
  induction xs with
  | nil => cases h
  | cons z xs ih =>
    unfold updateFirst
    split
    · rcases mem_cons.mp h with rfl | h
      · exact .inr mem_cons_self
      · exact .inl (mem_cons_of_mem _ h)
    · rcases mem_cons.mp h with rfl | h
      · exact .inl mem_cons_self
      · exact (ih h).imp (mem_cons_of_mem _) (mem_cons_of_mem _)

/-- The element that was found is changed. -/
theorem mem_updateFirst_of_find? (h : xs.find? p = some x) : f x ∈ updateFirst p f xs := by
  induction xs with
  | nil => cases h
  | cons z xs ih =>
    unfold updateFirst
    by_cases hp : p z = true
    · rw [List.find?_cons_of_pos hp] at h
      cases h
      rw [if_pos hp]
      exact mem_cons_self
    · rw [List.find?_cons_of_neg hp] at h
      rw [if_neg hp]
      exact mem_cons_of_mem _ (ih h)

/-- What the change leaves alone can be read off before it. -/
theorem map_updateFirst {β : Type*} {g : α → β} (h : ∀ x, p x = true → g (f x) = g x) :
    (updateFirst p f xs).map g = xs.map g := by
  induction xs with
  | nil => rfl
  | cons x xs ih =>
    unfold updateFirst
    split
    · rename_i hp
      rw [map_cons, map_cons, h x hp]
    · rw [map_cons, map_cons, ih]

/-- A search for other elements does not notice the update. -/
theorem find?_updateFirst {q : α → Bool} (h : ∀ x, p x = true → q x = false ∧ q (f x) = false) :
    (updateFirst p f xs).find? q = xs.find? q := by
  induction xs with
  | nil => rfl
  | cons x xs ih =>
    unfold updateFirst
    split
    · rename_i hp
      rw [List.find?_cons_of_neg (by simp [(h x hp).2]), List.find?_cons_of_neg (by simp [h x hp])]
    · rw [List.find?_cons, List.find?_cons, ih]

/-- A search does not miss an element that it does not look for. -/
theorem find?_eraseP {q : α → Bool} (h : ∀ x, q x = true → p x = false) :
    (xs.eraseP q).find? p = xs.find? p := by
  induction xs with
  | nil => rfl
  | cons x xs ih =>
    by_cases hq : q x = true
    · rw [eraseP_cons_of_pos hq, List.find?_cons_of_neg (by simp [h x hq])]
    · rw [eraseP_cons_of_neg hq]
      by_cases hp : p x = true
      · rw [List.find?_cons_of_pos hp, List.find?_cons_of_pos hp]
      · rw [List.find?_cons_of_neg hp, List.find?_cons_of_neg hp, ih]

/-! ## Unique keys -/

/-- Where keys are unique, erasing the first element that passes a test for a key takes away the
elements with that key. -/
theorem mem_eraseP_iff {β : Type*} {g : α → β} (h : (xs.map g).Nodup) (hx : x ∈ xs)
    (hp : p x = true) (hkey : ∀ y ∈ xs, p y = true → g y = g x) :
    y ∈ xs.eraseP p ↔ y ∈ xs ∧ g y ≠ g x := by
  obtain ⟨a, l, r, hbefore, ha, hsplit, herase⟩ := exists_of_eraseP hx hp
  have hmem : a ∈ xs := by simp [hsplit]
  have hkey_a := hkey a hmem ha
  rw [hsplit, map_append, map_cons, nodup_append] at h
  obtain ⟨-, hright, hapart⟩ := h
  rw [nodup_cons] at hright
  rw [herase, hsplit, ← hkey_a]
  constructor
  · intro hy
    rcases mem_append.mp hy with hy | hy
    · exact ⟨by simp [hy], hapart _ (mem_map_of_mem hy) _ mem_cons_self⟩
    · refine ⟨by simp [hy], fun heq => hright.1 ?_⟩
      exact heq ▸ mem_map_of_mem hy
  · rintro ⟨hy, hne⟩
    rcases mem_append.mp hy with hy | hy
    · exact mem_append_left _ hy
    · rcases mem_cons.mp hy with rfl | hy
      · exact absurd rfl hne
      · exact mem_append_right _ hy

/-- Append what is not there yet. -/
def addNew [DecidableEq α] (a : α) (xs : List α) : List α := if a ∈ xs then xs else xs ++ [a]

variable [DecidableEq α] {a : α}

@[simp] theorem mem_addNew : x ∈ addNew a xs ↔ x ∈ xs ∨ x = a := by
  unfold addNew
  split
  · rename_i ha
    constructor
    · exact .inl
    · rintro (h | rfl)
      · exact h
      · exact ha
  · rw [mem_append, mem_singleton]

theorem addNew_of_mem (h : a ∈ xs) : addNew a xs = xs := if_pos h

theorem nodup_addNew (h : xs.Nodup) : (addNew a xs).Nodup := by
  unfold addNew
  split
  · exact h
  · rename_i ha
    apply h.append (nodup_singleton a)
    intro y hy hmem
    rw [mem_singleton] at hmem
    exact ha (hmem ▸ hy)

/-! ## Sorted sequences -/

omit [DecidableEq α] in
/-- An entry before the first one that it has to precede keeps the sequence sorted. -/
theorem pairwise_orderedInsert (precedes : α → α → Prop) [DecidableRel precedes] (le : α → α → Prop)
    (hyes : ∀ a b, precedes a b → le a b) (hno : ∀ a b, ¬ precedes a b → le b a)
    (htrans : ∀ a b c, le a b → le b c → le a c) (a : α) (seq : List α) (hseq : seq.Pairwise le) :
    (seq.orderedInsert precedes a).Pairwise le := by
  induction seq with
  | nil => exact pairwise_singleton _ _
  | cons b rest ih =>
    obtain ⟨hfirst, hrest⟩ := pairwise_cons.mp hseq
    rw [orderedInsert_cons]
    split
    · rename_i hab
      have hle : le a b := hyes a b hab
      apply pairwise_cons.mpr
      refine ⟨fun c hc => ?_, hseq⟩
      rcases mem_cons.mp hc with rfl | hc
      · exact hle
      · exact htrans a b c hle (hfirst c hc)
    · rename_i hab
      apply pairwise_cons.mpr
      refine ⟨fun c hc => ?_, ih hrest⟩
      rcases mem_cons.mp ((perm_orderedInsert precedes a rest).mem_iff.mp hc) with rfl | hc
      · exact hno c b hab
      · exact hfirst c hc

end KeyedList
