/-
# Weakest preconditions for programs that can fail

A handler of an event-driven program is a function into `Except ε α`.  `Wp x Q E`
says that the program `x` either returns a value satisfying `Q` or stops with an
error satisfying `E`.  The rules below take a `do` block apart one statement at a
time; nothing here depends on what the programs compute.
-/
import Mathlib.Tactic.TypeStar

namespace Program

universe u v

variable {ε : Type u} {α β σ : Type v}

/-- `x` returns a value satisfying `Q` or fails with an error satisfying `E`. -/
def Wp (x : Except ε α) (Q : α → Prop) (E : ε → Prop) : Prop :=
  match x with
  | .ok a => Q a
  | .error e => E e

/-- `x` returns only values satisfying `Q`; it may fail in any way. -/
abbrev Post (x : Except ε α) (Q : α → Prop) : Prop :=
  Wp x Q fun _ => True

@[simp] theorem wp_ok (a : α) (Q : α → Prop) (E : ε → Prop) :
    Wp (.ok a) Q E ↔ Q a := Iff.rfl

@[simp] theorem wp_pure (a : α) (Q : α → Prop) (E : ε → Prop) :
    Wp (pure a) Q E ↔ Q a := Iff.rfl

/-- What follows a program that has returned. -/
theorem ok_bind (a : α) (f : α → Except ε β) : ((.ok a : Except ε α) >>= f) = f a := rfl

/-- Sequencing: what follows runs from whatever the first program returns. -/
@[simp] theorem wp_bind (x : Except ε α) (f : α → Except ε β) (Q : β → Prop)
    (E : ε → Prop) :
    Wp (x >>= f) Q E ↔ Wp x (fun a => Wp (f a) Q E) E := by
  cases x <;> rfl

variable {x : Except ε α} {E : ε → Prop} {f : α → Except ε β} {Q Q' : α → Prop}

theorem wp_of_bind {Q : β → Prop} (h : Wp x (fun a => Wp (f a) Q E) E) :
    Wp (x >>= f) Q E := (wp_bind x f Q E).mpr h

/-- Renaming the result. -/
@[simp] theorem wp_map {α β : Type*} (x : Except ε α) (f : α → β) (Q : β → Prop)
    (E : ε → Prop) :
    Wp (x.map f) Q E ↔ Wp x (fun a => Q (f a)) E := by
  cases x <;> rfl

/-- Branching: each branch is verified under its own test. -/
theorem wp_ite (c : Prop) [Decidable c] (x y : Except ε α) (Q : α → Prop) (E : ε → Prop) :
    Wp (if c then x else y) Q E ↔ (c → Wp x Q E) ∧ (¬c → Wp y Q E) := by
  by_cases h : c
  · simp [h]
  · simp [h]

/-- Consequence. -/
theorem Wp.mono {E E' : ε → Prop} (h : Wp x Q E) (hQ : ∀ a, Q a → Q' a) (hE : ∀ e, E e → E' e) :
    Wp x Q' E' := by
  cases x with
  | ok a => exact hQ a h
  | error e => exact hE e h

/-- Consequence for the returned value alone. -/
theorem Wp.imp (h : Wp x Q E) (hQ : ∀ a, Q a → Q' a) :
    Wp x Q' E :=
  h.mono hQ fun _ he => he

/-- Two postconditions hold together. -/
theorem Wp.and {E E' : ε → Prop} (h : Wp x Q E) (h' : Wp x Q' E') :
    Wp x (fun a => Q a ∧ Q' a) fun e => E e ∧ E' e := by
  cases x with
  | ok a => exact ⟨h, h'⟩
  | error e => exact ⟨h, h'⟩

/-- The postcondition of a program that is known to return. -/
theorem Wp.of_eq_ok {Q : α → Prop} {a : α} (h : Wp x Q E) (ha : x = .ok a) :
    Q a := by
  rw [ha] at h
  exact h

/-- The error condition of a program that is known to fail. -/
theorem Wp.of_eq_error {Q : α → Prop} {e : ε} (h : Wp x Q E) (he : x = .error e) :
    E e := by
  rw [he] at h
  exact h

/-- A postcondition proved of every returned value. -/
theorem post_of_forall {Q : α → Prop} (h : ∀ a, x = .ok a → Q a) :
    Post x Q := by
  cases x with
  | ok a => exact h a rfl
  | error e => trivial

/-- Sequencing, from what is known of the first program. -/
theorem Wp.bind {P : α → Prop} {Q : β → Prop} (h : Wp x P E) (hf : ∀ a, P a → Wp (f a) Q E) :
    Wp (x >>= f) Q E :=
  (wp_bind x f Q E).mpr (h.imp hf)

/-- Sequencing, from every value that the first program returns. -/
theorem post_bind {Q : β → Prop} (h : ∀ a, x = .ok a → Post (f a) Q) :
    Post (x >>= f) Q :=
  (post_of_forall h).bind fun _ ha => ha

/-- A transitive relation between the states before and after is kept along a sequence. -/
theorem Wp.trans {R : σ → σ → Prop} (hR : ∀ a b c, R a b → R b c → R a c) {s : σ} {x : Except ε σ}
    {f : σ → Except ε σ} (hx : Wp x (R s) E) (hf : ∀ t, Wp (f t) (R t) E) :
    Wp (x >>= f) (R s) E := by
  exact hx.bind fun t ht => (hf t).imp fun u hu => hR s t u ht hu

/-- The rule for a loop over a list: an invariant of the body is an invariant of the loop. -/
theorem wp_foldlM (I : σ → Prop) (E : ε → Prop) (f : σ → α → Except ε σ) (xs : List α)
    (hf : ∀ s x, x ∈ xs → I s → Wp (f s x) I E) (s : σ) (hs : I s) :
    Wp (xs.foldlM f s) I E := by
  induction xs generalizing s with
  | nil => exact hs
  | cons x xs ih =>
    rw [List.foldlM_cons, wp_bind]
    refine (hf s x (by simp) hs).imp fun t ht => ?_
    exact ih (fun s y hy => hf s y (by simp [hy])) t ht

/-- The rule for a loop whose invariant speaks of the elements that are done. -/
theorem foldl_done (I : List α → σ → Prop) (f : σ → α → σ) (xs : List α)
    (hf : ∀ pre x post s, xs = pre ++ x :: post → I pre s → I (pre ++ [x]) (f s x)) (s : σ)
    (hs : I [] s) : I xs (xs.foldl f s) := by
  have hloop (pre rest : List α) (s : σ) (hxs : xs = pre ++ rest) (hs : I pre s) :
      I xs (rest.foldl f s) := by
    induction rest generalizing pre s with
    | nil =>
      rw [hxs, List.append_nil]
      exact hs
    | cons x rest ih =>
      refine ih (pre ++ [x]) (f s x) ?_ (hf pre x rest s hxs hs)
      rw [hxs, List.append_assoc]
      rfl
  exact hloop [] xs s rfl hs

/-- The same for a loop that can fail. -/
theorem wp_foldlM_done (I : List α → σ → Prop) (E : ε → Prop) (f : σ → α → Except ε σ) (xs : List α)
    (hf : ∀ pre x post s, xs = pre ++ x :: post → I pre s → Wp (f s x) (I (pre ++ [x])) E) (s : σ)
    (hs : I [] s) : Wp (xs.foldlM f s) (I xs) E := by
  have hloop (pre rest : List α) (s : σ) (hxs : xs = pre ++ rest) (hs : I pre s) :
      Wp (rest.foldlM f s) (I xs) E := by
    induction rest generalizing pre s with
    | nil =>
      rw [hxs, List.append_nil]
      exact hs
    | cons x rest ih =>
      rw [List.foldlM_cons, wp_bind]
      refine (hf pre x rest s hxs hs).imp fun t ht => ih (pre ++ [x]) t ?_ ht
      rw [hxs, List.append_assoc]
      rfl
  exact hloop [] xs s rfl hs

end Program
