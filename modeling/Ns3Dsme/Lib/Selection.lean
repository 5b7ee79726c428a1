/-
# The first of the best

A loop keeps the best element that it has seen, and the older one of two that are as good.  It ends
with the first one of the best, also where it goes over the elements class by class, and where it
keeps one element for each key.
-/
import Ns3Dsme.Lib.KeyedList
import Mathlib.Data.List.Induction
import Mathlib.Order.Defs.LinearOrder

open List KeyedList

namespace Selection

variable {α β κ : Type*}

/-! ## The first element of a kind -/

/-- The first element of the list with the property. -/
inductive IsFirst (p : α → Prop) : List α → α → Prop
  | head {x : α} {xs : List α} (h : p x) : IsFirst p (x :: xs) x
  | tail {x m : α} {xs : List α} (hnot : ¬ p x) (h : IsFirst p xs m) : IsFirst p (x :: xs) m

namespace IsFirst

variable {p q : α → Prop} {xs ys : List α} {m m' : α}

theorem mem (h : IsFirst p xs m) : m ∈ xs := by
  induction h with
  | head _ => exact mem_cons_self
  | tail _ _ ih => exact mem_cons_of_mem _ ih

theorem holds (h : IsFirst p xs m) : p m := by
  induction h with
  | head h => exact h
  | tail _ _ ih => exact ih

theorem unique (h : IsFirst p xs m) (h' : IsFirst p xs m') : m = m' := by
  induction h with
  | head h =>
    cases h' with
    | head _ => rfl
    | tail hnot _ => exact absurd h hnot
  | tail hnot _ ih =>
    cases h' with
    | head h => exact absurd h hnot
    | tail _ h' => exact ih h'

theorem congr (h : IsFirst p xs m) (hpq : ∀ x ∈ xs, p x ↔ q x) : IsFirst q xs m := by
  induction h with
  | head h => exact .head ((hpq _ mem_cons_self).mp h)
  | tail hnot _ ih =>
    apply IsFirst.tail
    · exact fun hq => hnot ((hpq _ mem_cons_self).mpr hq)
    · exact ih fun x hx => hpq x (mem_cons_of_mem _ hx)

theorem append (h : IsFirst p xs m) (ys : List α) : IsFirst p (xs ++ ys) m := by
  induction h with
  | head h => exact .head h
  | tail hnot _ ih => exact .tail hnot ih

theorem append_right (hnot : ∀ x ∈ xs, ¬ p x) (h : IsFirst p ys m) : IsFirst p (xs ++ ys) m := by
  induction xs with
  | nil => exact h
  | cons x xs ih =>
    apply IsFirst.tail (hnot x mem_cons_self)
    exact ih fun y hy => hnot y (mem_cons_of_mem _ hy)

/-- It is in the first list, or there is none in that list. -/
theorem of_append (h : IsFirst p (xs ++ ys) m) : IsFirst p xs m ∨ IsFirst p ys m := by
  induction xs with
  | nil => exact Or.inr h
  | cons x xs ih =>
    cases h with
    | head h => exact Or.inl (.head h)
    | tail hnot h => exact (ih h).imp_left (.tail hnot)

theorem of_filter {f : α → Bool} (h : IsFirst p (xs.filter f) m) :
    IsFirst (fun x => p x ∧ f x = true) xs m := by
  induction xs with
  | nil => cases h
  | cons x xs ih =>
    by_cases hx : f x = true
    · rw [filter_cons_of_pos hx] at h
      cases h with
      | head h => exact .head ⟨h, hx⟩
      | tail hnot h => exact .tail (fun hp => hnot hp.1) (ih h)
    · rw [filter_cons_of_neg hx] at h
      exact .tail (fun hp => hx hp.2) (ih h)

/-- The elements come class by class: where all that have the property are in one class, the first
one is that of the whole list. -/
theorem of_classes [DecidableEq κ] {key : α → κ} {ks : List κ}
    (hclass : ∀ x ∈ xs, ∀ y ∈ xs, p x → p y → key x = key y)
    (h : IsFirst p (ks.flatMap fun k => xs.filter fun x => key x == k) m) : IsFirst p xs m := by
  induction ks with
  | nil => cases h
  | cons k ks ih =>
    rw [flatMap_cons] at h
    rcases h.of_append with hfirst | hrest
    · obtain ⟨hm, hk⟩ := mem_filter.mp hfirst.mem
      refine hfirst.of_filter.congr fun x hx => ?_
      constructor
      · exact fun h => h.1
      · intro hx'
        refine ⟨hx', beq_iff_eq.mpr ?_⟩
        rw [hclass x hx m hm hx' hfirst.holds]
        exact beq_iff_eq.mp hk
    · exact ih hrest

end IsFirst

/-! ## The loop -/

variable [LinearOrder β] {score : α → β}

/-- Keep the best element so far; it is replaced only by a better one. -/
def keep (score : α → β) (best : Option α) (x : α) : Option α :=
  match best with
  | none => some x
  | some m => if score m < score x then some x else some m

theorem keep_ne_none (best : Option α) (x : α) : keep score best x ≠ none := by
  unfold keep
  cases best with
  | none => exact Option.some_ne_none x
  | some m =>
    dsimp only
    split
    · exact Option.some_ne_none x
    · exact Option.some_ne_none m

theorem foldl_keep_eq_none {xs : List α} (h : xs.foldl (keep score) none = none) : xs = [] := by
  cases xs using List.reverseRecOn with
  | nil => rfl
  | append_singleton xs y =>
    rw [foldl_append] at h
    exact absurd h (keep_ne_none _ _)

/-- No element is better. -/
def Top (score : α → β) (xs : List α) (m : α) : Prop := ∀ x ∈ xs, score x ≤ score m

/-- **The loop ends with the first one of the best.** -/
theorem isFirst_foldl_keep (xs : List α) {m : α} (h : xs.foldl (keep score) none = some m) :
    IsFirst (Top score xs) xs m := by
  induction xs using List.reverseRecOn generalizing m with
  | nil => cases h
  | append_singleton xs x ih =>
    rw [foldl_append, foldl_cons, foldl_nil] at h
    cases hbest : xs.foldl (keep score) none with
    | none =>
      rw [hbest] at h
      cases h
      cases foldl_keep_eq_none hbest
      refine .head fun y hy => ?_
      rw [mem_singleton.mp hy]
    | some best =>
      have hfirst := ih hbest
      rw [hbest] at h
      unfold keep at h
      dsimp only at h
      split at h
      · rename_i hbetter
        cases h
        have hbelow : ∀ y ∈ xs, score y < score x := fun y hy =>
          lt_of_le_of_lt (hfirst.holds y hy) hbetter
        refine IsFirst.append_right (fun y hy htop => ?_) (.head fun y hy => ?_)
        · have hle := htop x (mem_append_right _ mem_cons_self)
          exact absurd (hbelow y hy) (not_lt_of_ge hle)
        · rcases mem_append.mp hy with hy | hy
          · exact le_of_lt (hbelow y hy)
          · rw [mem_singleton.mp hy]
      · rename_i hnot
        have hsame := Option.some.inj h
        subst hsame
        have htop : Top score (xs ++ [x]) best := by
          intro y hy
          rcases mem_append.mp hy with hy | hy
          · exact hfirst.holds y hy
          · rw [mem_singleton.mp hy]
            exact le_of_not_gt hnot
        refine (hfirst.congr fun y hy => ?_).append [x]
        constructor
        · intro hy' z hz
          exact le_trans (htop z hz) (hy' best hfirst.mem)
        · exact fun hy' z hz => hy' z (mem_append_left _ hz)

/-- The loop that starts with an element. -/
theorem foldl_keep_toList (start : Option α) (xs : List α) :
    xs.foldl (keep score) start = (start.toList ++ xs).foldl (keep score) none := by
  cases start with
  | none => rfl
  | some x => rfl

/-! ## The best one for each key -/

section Offers

variable [DecidableEq κ] (key : α → κ) (score : α → β)

/-- The element takes the place of the first one with its key, where it is better. -/
def offer [DecidableEq α] (xs : List α) (x : α) : List α :=
  match xs.find? fun y => decide (key y = key x) with
  | none => addNew x xs
  | some y => if score y < score x then addNew x (xs.eraseP fun y => decide (key y = key x)) else xs

variable {key score} {xs ys : List α} {x : α} {k : κ}

theorem find?_key_eq_none : xs.find? (fun y => decide (key y = k)) = none ↔ k ∉ xs.map key := by
  rw [List.find?_eq_none, mem_map]
  constructor
  · rintro hnone ⟨y, hy, hkey⟩
    exact hnone y hy (decide_eq_true hkey)
  · intro hnot y hy hkey
    exact hnot ⟨y, hy, of_decide_eq_true hkey⟩

/-- Without its first element with a key, a list with one element for each key has none. -/
theorem not_mem_map_eraseP (h : (xs.map key).Nodup) :
    k ∉ (xs.eraseP fun y => decide (key y = k)).map key := by
  induction xs with
  | nil => exact not_mem_nil
  | cons y xs ih =>
    rw [map_cons, nodup_cons] at h
    by_cases hy : key y = k
    · rw [eraseP_cons_of_pos (p := fun y => decide (key y = k)) (decide_eq_true hy), ← hy]
      exact h.1
    · rw [eraseP_cons_of_neg (p := fun y => decide (key y = k)) (by rwa [decide_eq_true_iff]),
        map_cons, mem_cons]
      rintro (rfl | hmem)
      · exact hy rfl
      · exact ih h.2 hmem

/-- With one element for each key, those with a key are the one that is found. -/
theorem filter_key_eq_toList (h : (xs.map key).Nodup) :
    xs.filter (fun y => decide (key y = k)) = (xs.find? fun y => decide (key y = k)).toList := by
  induction xs with
  | nil => rfl
  | cons y xs ih =>
    rw [map_cons, nodup_cons] at h
    by_cases hy : decide (key y = k) = true
    · have hnone : xs.find? (fun z => decide (key z = k)) = none := by
        rw [find?_key_eq_none, ← of_decide_eq_true hy]
        exact h.1
      rw [filter_cons_of_pos (p := fun y => decide (key y = k)) hy,
        List.find?_cons_of_pos (p := fun y => decide (key y = k)) hy, ih h.2, hnone]
      rfl
    · rw [filter_cons_of_neg (p := fun y => decide (key y = k)) hy,
        List.find?_cons_of_neg (p := fun y => decide (key y = k)) hy, ih h.2]

variable [DecidableEq α]

omit [DecidableEq κ] in
theorem nodup_map_addNew (h : (xs.map key).Nodup) (hx : key x ∉ xs.map key) :
    ((addNew x xs).map key).Nodup := by
  rw [addNew, if_neg fun hmem => hx (mem_map_of_mem hmem), map_append]
  exact h.append (nodup_singleton _) (disjoint_singleton.mpr hx)

theorem find?_addNew_self (h : k ∉ xs.map key) (hx : key x = k) :
    (addNew x xs).find? (fun y => decide (key y = k)) = some x := by
  subst hx
  rw [addNew, if_neg fun hmem => h (mem_map_of_mem hmem), List.find?_append,
    find?_key_eq_none.mpr h, Option.none_or,
    List.find?_cons_of_pos (p := fun y => decide (key y = key x)) (decide_eq_true rfl)]

theorem find?_addNew_of_ne (hx : key x ≠ k) :
    (addNew x xs).find? (fun y => decide (key y = k)) = xs.find? fun y => decide (key y = k) := by
  unfold addNew
  split
  · rfl
  · rw [List.find?_append, List.find?_cons_of_neg (p := fun y => decide (key y = k)) (by rwa [decide_eq_true_iff]),
      List.find?_nil, Option.or_none]

theorem nodup_offer (h : (xs.map key).Nodup) (x : α) : ((offer key score xs x).map key).Nodup := by
  unfold offer
  split
  · rename_i hnone
    exact nodup_map_addNew h (find?_key_eq_none.mp hnone)
  · split
    · exact nodup_map_addNew (h.sublist (eraseP_sublist.map key)) (not_mem_map_eraseP h)
    · exact h

/-- What is kept for the key of the element. -/
theorem find?_offer_self (h : (xs.map key).Nodup) (hx : key x = k) :
    (offer key score xs x).find? (fun y => decide (key y = k)) =
      keep score (xs.find? fun y => decide (key y = k)) x := by
  subst hx
  unfold offer keep
  cases hfind : xs.find? fun y => decide (key y = key x) with
  | none => exact find?_addNew_self (find?_key_eq_none.mp hfind) rfl
  | some y =>
    dsimp only
    split
    · exact find?_addNew_self (not_mem_map_eraseP h) rfl
    · exact hfind

/-- What is kept for another key. -/
theorem find?_offer_of_ne (hx : key x ≠ k) :
    (offer key score xs x).find? (fun y => decide (key y = k)) = xs.find? fun y => decide (key y = k) := by
  unfold offer
  split
  · exact find?_addNew_of_ne hx
  · split
    · rw [find?_addNew_of_ne hx]
      apply find?_eraseP
      intro y hy
      rw [decide_eq_false_iff_not, of_decide_eq_true hy]
      exact hx
    · rfl

/-- **One element for each key is kept**: the first one of the best, of what was there and what is
offered. -/
theorem find?_foldl_offer (h : (xs.map key).Nodup) (ys : List α) :
    ((ys.foldl (offer key score) xs).map key).Nodup ∧
      (ys.foldl (offer key score) xs).find? (fun y => decide (key y = k)) =
        (ys.filter fun y => decide (key y = k)).foldl (keep score) (xs.find? fun y => decide (key y = k)) := by
  induction ys generalizing xs with
  | nil => exact ⟨h, rfl⟩
  | cons y ys ih =>
    have hstep : ((offer key score xs y).map key).Nodup := nodup_offer h y
    obtain ⟨hnodup, hfind⟩ := ih hstep
    refine ⟨hnodup, ?_⟩
    rw [foldl_cons, hfind]
    by_cases hy : key y = k
    · have hpos : decide (key y = k) = true := decide_eq_true hy
      rw [filter_cons_of_pos (p := fun y => decide (key y = k)) hpos, foldl_cons,
        find?_offer_self h hy]
    · rw [filter_cons_of_neg (p := fun y => decide (key y = k)) (by rwa [decide_eq_true_iff]),
        find?_offer_of_ne hy]

end Offers

end Selection
