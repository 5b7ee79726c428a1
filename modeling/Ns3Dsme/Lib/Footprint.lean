/-
# Footprints

A state is looked at in several ways, and most steps disturb few of these views.  A view
comes with a preorder that says what it means to leave the view alone; a footprint is the
list of the views that a step may disturb.  The rules compose footprints along a program,
so that one lemma for each program says everything about what it does not do.
-/
import Ns3Dsme.Lib.Program

namespace Program

/-- Views of a state, each with a preorder: how a step may change the state that leaves the
view alone. -/
structure Views (V σ : Type*) where
  Same : V → σ → σ → Prop
  refl : ∀ v s, Same v s s
  trans : ∀ v s t u, Same v s t → Same v t u → Same v s u

namespace Views

variable {V : Type*} {σ ε : Type} (W : Views V σ)

/-- Every view outside `touched` is left alone between the two states. -/
def Keeps (touched : List V) (s t : σ) : Prop :=
  ∀ v, v ∉ touched → W.Same v s t

variable {W}

theorem Keeps.refl (touched : List V) (s : σ) : W.Keeps touched s s :=
  fun v _ => W.refl v s

variable {touched : List V} {x : Except ε σ} {E : ε → Prop}

theorem Keeps.trans {s t u : σ} (h : W.Keeps touched s t) (h' : W.Keeps touched t u) :
    W.Keeps touched s u :=
  fun v hv => W.trans v s t u (h v hv) (h' v hv)

/-- A footprint may be enlarged. -/
theorem Keeps.mono {touched touched' : List V} {s t : σ} (h : W.Keeps touched s t)
    (hsub : touched ⊆ touched') : W.Keeps touched' s t :=
  fun v hv => h v fun hmem => hv (hsub hmem)

/-- A view of the footprint that is left alone after all. -/
theorem Keeps.of_cons {v : V} {s t : σ} (h : W.Keeps (v :: touched) s t) (hv : W.Same v s t) :
    W.Keeps touched s t := by
  intro w hw
  by_cases hview : w = v
  · rw [hview]
    exact hv
  · exact h w (by simp [hview, hw])

/-- What comes first disturbs nothing beyond the footprint of the program behind it. -/
theorem Keeps.wp {s t : σ} (h : W.Keeps touched s t) (hx : Wp x (W.Keeps touched t) E) :
    Wp x (W.Keeps touched s) E :=
  hx.imp fun _ hu => h.trans hu

/-- Footprints of a sequence. -/
theorem keeps_seq {s : σ} {f : σ → Except ε σ} (hx : Wp x (W.Keeps touched s) E)
    (hf : ∀ t, Wp (f t) (W.Keeps touched t) E) : Wp (x >>= f) (W.Keeps touched s) E :=
  Wp.trans (fun _ _ _ => Keeps.trans) hx hf

/-- A program with a small footprint has every larger one. -/
theorem keeps_mono {touched touched' : List V} {s : σ} (hx : Wp x (W.Keeps touched s) E)
    (hsub : touched ⊆ touched') :
    Wp x (W.Keeps touched' s) E :=
  hx.imp fun _ ht => ht.mono hsub

end Views

end Program
