/-
# Places for values that come and go

A list of places, some of which are empty.  When one place changes, the values are those of the
other places and the new one, in some order.
-/
import Mathlib.Data.List.Perm.Basic

open List

namespace Slots

variable {α β : Type*}

/-- What is in a place. -/
def slot (l : List (Option α)) (b : ℕ) : Option α := (l[b]?).join

/-- A view of all values. -/
def values (f : α → β) (l : List (Option α)) : List β := l.filterMap (Option.map f)

/-- A view of the values in the other places. -/
def others (f : α → β) (l : List (Option α)) (b : ℕ) : List β := values f (l.eraseIdx b)

variable {l : List (Option α)} {b : ℕ} {a : α}

theorem getElem?_of_slot (h : slot l b = some a) : l[b]? = some (some a) := by
  unfold slot at h
  cases hb : l[b]? with
  | none =>
    rw [hb] at h
    cases h
  | some o =>
    rw [hb] at h
    rw [show o = some a from h]

theorem slot_map (g : α → β) (l : List (Option α)) (b : ℕ) :
    slot (l.map (Option.map g)) b = (slot l b).map g := by
  unfold slot
  rw [List.getElem?_map]
  rcases l[b]? with _ | _ | a <;> rfl

theorem values_map {γ : Type*} (f : β → γ) (g : α → β) (l : List (Option α)) :
    values f (l.map (Option.map g)) = values (f ∘ g) l := by
  unfold values
  rw [filterMap_map]
  refine filterMap_congr fun o _ => ?_
  cases o <;> rfl

theorem map_values {γ : Type*} (f : α → β) (g : β → γ) (l : List (Option α)) :
    (values f l).map g = values (g ∘ f) l := by
  unfold values
  rw [map_filterMap]
  refine filterMap_congr fun o _ => ?_
  cases o <;> rfl

theorem lt_of_slot (h : slot l b = some a) : b < l.length :=
  (List.getElem?_eq_some_iff.mp (getElem?_of_slot h)).1

theorem slot_set_self (h : slot l b = some a) (o : Option α) : slot (l.set b o) b = o := by
  unfold slot
  rw [List.getElem?_set_self (lt_of_slot h)]
  rfl

theorem slot_set_of_ne {b' : ℕ} (hne : b' ≠ b) (o : Option α) : slot (l.set b o) b' = slot l b' := by
  unfold slot
  rw [List.getElem?_set_ne hne.symm]

theorem slot_append {a' : α} (h : slot (l ++ [some a]) b = some a') :
    slot l b = some a' ∨ b = l.length ∧ a' = a := by
  unfold slot at h ⊢
  rcases Nat.lt_trichotomy b l.length with hlt | heq | hgt
  · rw [List.getElem?_append_left hlt] at h
    exact Or.inl h
  · rw [heq, List.getElem?_append_right (Nat.le_refl _), Nat.sub_self] at h
    exact Or.inr ⟨heq, (Option.some_inj.mp h).symm⟩
  · rw [List.getElem?_append_right (Nat.le_of_lt hgt), List.getElem?_eq_none (by
      rw [length_singleton]
      omega)] at h
    cases h

section Views

variable (f : α → β)

theorem values_set (h : slot l b = some a) (a' : α) :
    (values f (l.set b (some a'))).Perm (f a' :: others f l b) :=
  (set_perm_cons_eraseIdx (lt_of_slot h) (some a')).filterMap (Option.map f)

theorem values_perm (h : slot l b = some a) : (values f l).Perm (f a :: others f l b) := by
  have hset := values_set f h a
  have hself : l.set b (some a) = l := by
    obtain ⟨hlt, hget⟩ := List.getElem?_eq_some_iff.mp (getElem?_of_slot h)
    rw [← hget]
    exact set_getElem_self hlt
  rwa [hself] at hset

theorem values_set_none (h : slot l b = some a) :
    (values f (l.set b none)).Perm (others f l b) :=
  (set_perm_cons_eraseIdx (lt_of_slot h) none).filterMap (Option.map f)

theorem values_append (a' : α) : (values f (l ++ [some a'])).Perm (f a' :: values f l) := by
  unfold values
  rw [filterMap_append]
  exact perm_append_comm

theorem mem_values (h : slot l b = some a) : f a ∈ values f l :=
  mem_filterMap.mpr ⟨some a, mem_of_getElem? (getElem?_of_slot h), rfl⟩

theorem mem_others {b' : ℕ} (h : slot l b' = some a) (hne : b' ≠ b) : f a ∈ others f l b :=
  mem_filterMap.mpr
    ⟨some a, mem_eraseIdx_iff_getElem?.mpr ⟨b', hne, getElem?_of_slot h⟩, rfl⟩

variable {f} {g : α → β}

theorem values_congr (h : ∀ b a, slot l b = some a → f a = g a) : values f l = values g l := by
  refine filterMap_congr fun o ho => ?_
  cases o with
  | none => rfl
  | some a =>
    obtain ⟨b, hb⟩ := List.getElem?_of_mem ho
    exact congrArg some (h b a (by unfold slot; rw [hb]; rfl))

theorem others_congr (h : ∀ b' a, b' ≠ b → slot l b' = some a → f a = g a) :
    others f l b = others g l b := by
  refine filterMap_congr fun o ho => ?_
  cases o with
  | none => rfl
  | some a =>
    obtain ⟨b', hne, hb'⟩ := mem_eraseIdx_iff_getElem?.mp ho
    exact congrArg some (h b' a hne (by unfold slot; rw [hb']; rfl))

end Views

end Slots
