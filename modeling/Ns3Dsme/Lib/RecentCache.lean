/-
# Caches of the last elements

A cache of bounded length that drops its oldest element for a new one holds the last elements
that were stored.  An element that it holds no longer has been followed by as many others as the
cache has room for.
-/
import Mathlib.Data.List.DropRight

open List

namespace RecentCache

variable {α β : Type*}

/-- Store an element; of too many the oldest is dropped. -/
def store (n : ℕ) (cache : List α) (a : α) : List α :=
  if (cache ++ [a]).length > n then (cache ++ [a]).tail else cache ++ [a]

/-- The cache holds the last elements that were stored. -/
theorem store_rtake (n : ℕ) (xs : List α) (a : α) :
    store n (xs.rtake n) a = (xs ++ [a]).rtake n := by
  unfold store List.rtake
  rw [length_append, length_append, length_drop, length_singleton]
  rcases Nat.lt_or_ge xs.length n with hlt | hge
  · rw [show xs.length - n = 0 by omega, show xs.length + 1 - n = 0 by omega, drop_zero,
      drop_zero]
    exact if_neg (by omega)
  · rw [if_pos (by omega), ← drop_one,
      ← drop_append_of_le_length (by omega : xs.length - n ≤ xs.length), drop_drop,
      show xs.length - n + 1 = xs.length + 1 - n by omega]

/-- What the cache holds no longer has been followed by as many others as it has room for. -/
theorem le_length_of_notMem_rtake (f : α → β) (n : ℕ) (xs : List α) (x : α) (ys : List α)
    (h : f x ∉ ((xs ++ x :: ys).map f).rtake n) : n ≤ ys.length := by
  by_contra hlt
  apply h
  unfold List.rtake
  rw [map_append, map_cons, drop_append_of_le_length]
  · exact mem_append_right _ mem_cons_self
  · simp only [length_append, length_cons, length_map]
    omega

theorem length_rtake (n : ℕ) (xs : List α) : (xs.rtake n).length = min n xs.length := by
  unfold List.rtake
  rw [length_drop]
  omega

/-! ## A stream of elements -/

section

variable [BEq α]

/-- Offer an element to the cache: one that it holds is passed over. -/
def offer (n : ℕ) (cache : List α) (a : α) : List α :=
  if cache.contains a then cache else store n cache a

/-- What a stream has brought into the cache: an element counts unless it was among the last `n`
that counted. -/
def admitNext (n : ℕ) (admitted : List α) (a : α) : List α :=
  if (admitted.rtake n).contains a then admitted else admitted ++ [a]

/-- The elements of a stream that count. -/
def admitted (n : ℕ) (stream : List α) : List α := stream.foldl (admitNext n) []

theorem offer_rtake (n : ℕ) (xs : List α) (a : α) :
    offer n (xs.rtake n) a = (admitNext n xs a).rtake n := by
  unfold offer admitNext
  split
  · rfl
  · exact store_rtake n xs a

theorem admitted_append (n : ℕ) (stream : List α) (a : α) :
    admitted n (stream ++ [a]) = admitNext n (admitted n stream) a := by
  unfold admitted
  rw [foldl_append]
  rfl

/-- The elements that the cache holds are distinct. -/
theorem nodup_offer [LawfulBEq α] (n : ℕ) (cache : List α) (a : α) (h : cache.Nodup) :
    (offer n cache a).Nodup := by
  unfold offer
  split
  · exact h
  · rename_i hnot
    have hfresh : a ∉ cache := fun ha => hnot (contains_iff_mem.mpr ha)
    have hall : (cache ++ [a]).Nodup :=
      nodup_append.mpr ⟨h, pairwise_singleton _ a, fun x hx y hy => by
        rw [mem_singleton.mp hy]
        rintro rfl
        exact hfresh hx⟩
    unfold store
    split
    · exact hall.sublist (tail_sublist _)
    · exact hall

end

end RecentCache
