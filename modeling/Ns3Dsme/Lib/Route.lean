/-
# Routes and next hops

A packet leaves a trail of hops; a routing table gives every node a next hop.  If each hop
leads to a smaller node, no node occurs twice on a trail; if each pointer leads up, the
pointers form no cycle.
-/
import Mathlib.Logic.Relation
import Mathlib.Data.List.Chain
import Mathlib.Data.List.Nodup
import Mathlib.Order.Basic

open List

namespace Route

variable {N H α : Type*} [Preorder α]

/-- A trail of hops: each one starts where the one before ended. -/
def IsTrail (sender receiver : H → N) (hops : List H) : Prop :=
  hops.IsChain fun a b => receiver a = sender b

/-- Hops to smaller nodes lead down from the first sender. -/
theorem IsTrail.le_first {sender receiver : H → N} {a : H} {hops : List H}
    (h : IsTrail sender receiver (a :: hops)) (d : N → α)
    (hdesc : ∀ b ∈ a :: hops, d (receiver b) < d (sender b)) :
    ∀ b ∈ hops, d (sender b) < d (sender a) := by
  induction hops generalizing a with
  | nil => simp
  | cons c hops ih =>
    obtain ⟨hac, htail⟩ := isChain_cons_cons.mp h
    have hfirst : d (sender c) < d (sender a) := by
      rw [← hac]
      exact hdesc a (by simp)
    intro b hb
    rcases mem_cons.mp hb with rfl | hb
    · exact hfirst
    · exact (ih htail (fun x hx => hdesc x (mem_cons_of_mem a hx)) b hb).trans hfirst

/-- **Progress.**  On a trail whose hops all lead to a smaller node, no node sends twice. -/
theorem IsTrail.nodup_map_sender {sender receiver : H → N} {hops : List H}
    (h : IsTrail sender receiver hops) (d : N → α)
    (hdesc : ∀ a ∈ hops, d (receiver a) < d (sender a)) : (hops.map sender).Nodup := by
  induction hops with
  | nil => simp
  | cons a hops ih =>
    rw [map_cons, nodup_cons]
    refine ⟨fun hmem => ?_, ih h.tail fun b hb => hdesc b (mem_cons_of_mem a hb)⟩
    obtain ⟨b, hb, hsame⟩ := mem_map.mp hmem
    have hlt := h.le_first d hdesc b hb
    rw [hsame] at hlt
    exact lt_irrefl _ hlt

/-- The next hops form a cycle. -/
def Cyclic (next : N → Option N) : Prop :=
  ∃ v, Relation.TransGen (fun a b => next a = some b) v v

/-- Pointers that lead up, wherever they lead to a node that points on, form no cycle. -/
theorem not_cyclic_of_rank (next : N → Option N) (rank : N → α)
    (hrank : ∀ a b c, next a = some b → next b = some c → rank a < rank b) : ¬ Cyclic next := by
  rintro ⟨v, hv⟩
  have hup (w : N) (hw : Relation.TransGen (fun a b => next a = some b) v w) :
      ∀ c, next w = some c → rank v < rank w := by
    induction hw with
    | single hvw => exact fun c hc => hrank _ _ c hvw hc
    | tail _ hbw ih => exact fun c hc => (ih _ hbw).trans (hrank _ _ c hbw hc)
  obtain ⟨c, hc, -⟩ := Relation.TransGen.head'_iff.mp hv
  exact lt_irrefl _ (hup v hv c hc)

end Route
