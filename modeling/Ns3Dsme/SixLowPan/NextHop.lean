/-
# The next hop of greedy routing

The loop over the neighbor table with its arithmetic: the differences and squares are computed in
`int`, which cannot hold the squared distance of positions that lie far apart.  The address that
comes out is handed to the device below in any case, also if there was no neighbor at all.
-/
import Ns3Dsme.SixLowPan.GreedyRouting
import Mathlib.Analysis.Real.Sqrt

open Program

namespace Ns3Dsme.SixLowPan

/-! ## Distances -/

/-- The exact distance of two positions. -/
noncomputable def euclideanDistance (p q : Position) : ℝ := √(squaredDistance p q : ℝ)

theorem squaredDistance_nonneg (p q : Position) : 0 ≤ squaredDistance p q :=
  add_nonneg (mul_self_nonneg _) (mul_self_nonneg _)

/-- Distances are ordered like their squares. -/
theorem euclideanDistance_le_iff (p q r : Position) :
    euclideanDistance p q ≤ euclideanDistance p r ↔ squaredDistance p q ≤ squaredDistance p r := by
  unfold euclideanDistance
  rw [Real.sqrt_le_sqrt_iff (Int.cast_nonneg (squaredDistance_nonneg p r)), Int.cast_le]

/-- The result of an operation on values of type `int`. -/
def int32 (z : ℤ) : Exec ℤ :=
  if -2 ^ 31 ≤ z ∧ z < 2 ^ 31 then .ok z else .error .signedOverflow

/-- `(dstX - nx) * (dstX - nx) + (dstY - ny) * (dstY - ny)`, operation by operation. -/
def intDistance (dst p : Position) : Exec ℤ := do
  let dx ← int32 (dst.x.toInt - p.x.toInt)
  let dy ← int32 (dst.y.toInt - p.y.toInt)
  let xx ← int32 (dx * dx)
  let yy ← int32 (dy * dy)
  int32 (xx + yy)

/-- Differences of coordinates fit into an `int`. -/
theorem int32_sub (a b : Int16) : int32 (a.toInt - b.toInt) = .ok (a.toInt - b.toInt) := by
  have ha := a.toInt_lt
  have hb := b.toInt_lt
  have ha' := a.le_toInt
  have hb' := b.le_toInt
  exact if_pos (by omega)

/-- The squares and their sum fit exactly if the sum does. -/
theorem intDistance_eq (dst p : Position) :
    intDistance dst p = if squaredDistance dst p < 2 ^ 31 then .ok (squaredDistance dst p)
      else .error .signedOverflow := by
  unfold intDistance squaredDistance
  rw [int32_sub, ok_bind, int32_sub, ok_bind]
  generalize dst.x.toInt - p.x.toInt = dx
  generalize dst.y.toInt - p.y.toInt = dy
  have hxx := mul_self_nonneg dx
  have hyy := mul_self_nonneg dy
  generalize dx * dx = xx at *
  generalize dy * dy = yy at *
  by_cases hsum : xx + yy < 2 ^ 31
  · have hin {z : ℤ} (hz : 0 ≤ z) (hz' : z ≤ xx + yy) : int32 z = .ok z :=
      if_pos ⟨by omega, by omega⟩
    rw [if_pos hsum, hin hxx (by omega), ok_bind, hin hyy (by omega), ok_bind,
      hin (by omega) le_rfl]
  · rw [if_neg hsum]
    unfold int32
    split
    · rw [ok_bind]
      split
      · exact if_neg fun h => hsum h.2
      · rfl
    · rfl

/-! ## The loop -/

/-- The loop body is the comparison of the distances with the arithmetic in `int`. -/
theorem nearer_eq (dst : Position) (best : Option (Mac16Address × ℤ))
    (e : Mac16Address × Position) :
    nearer dst best e = intDistance dst e.2 >>= fun dist =>
      match best with
      | none => .ok (some (e.1, dist))
      | some b => .ok (if dist < b.2 then some (e.1, dist) else best) := by
  rw [intDistance_eq]
  unfold nearer
  dsimp only
  split
  · rfl
  · rfl

/-- A turn of the loop ends without an overflow exactly if the squared distance fits. -/
theorem nearer_isOk_iff (dst : Position) (best : Option (Mac16Address × ℤ))
    (e : Mac16Address × Position) :
    (∃ best', nearer dst best e = .ok best') ↔ squaredDistance dst e.2 < 2 ^ 31 := by
  unfold nearer
  dsimp only
  split
  · rename_i hlt
    refine ⟨fun _ => hlt, fun _ => ?_⟩
    cases best with
    | none => exact ⟨_, rfl⟩
    | some b => exact ⟨_, rfl⟩
  · rename_i hge
    refine ⟨fun ⟨_, h⟩ => ?_, fun h => absurd h hge⟩
    cases h

/-- The loop ends without an overflow exactly if all squared distances fit. -/
theorem foldlM_nearer_isOk_iff (dst : Position) (es : List (Mac16Address × Position))
    (best : Option (Mac16Address × ℤ)) :
    (∃ best', es.foldlM (nearer dst) best = .ok best') ↔
      ∀ e ∈ es, squaredDistance dst e.2 < 2 ^ 31 := by
  induction es generalizing best with
  | nil =>
    constructor
    · intro _ e he
      cases he
    · exact fun _ => ⟨best, rfl⟩
  | cons e es ih =>
    rw [List.forall_mem_cons, ← nearer_isOk_iff dst best e, List.foldlM_cons]
    cases hfirst : nearer dst best e with
    | error f =>
      constructor
      · rintro ⟨best', h⟩
        cases h
      · rintro ⟨⟨best', h⟩, -⟩
        cases h
    | ok best' =>
      rw [ok_bind, ih best']
      exact ⟨fun h => ⟨⟨best', rfl⟩, h⟩, fun h => h.2⟩

/-! ## What is sent -/

/-- The destinations with which `DoSendGreedy` and `DoSendGreedyForwarding` call `Send` of the
device below.  `none` is `Address()`, with which `bestNeighborAddr` starts. -/
def greedyDestinations (dst : Position) (t : NeighborTable) :
    Exec (List (Option Mac16Address)) := do
  let best ← t.entries.foldlM (nearer dst) none
  return [best.map Prod.fst]

/-- The packet is sent to a neighbor at the least distance from the destination, and not at all if
there is no neighbor; no operation overflows. -/
def SendsToClosest (dst : Position) (t : NeighborTable) : Prop :=
  ∃ sent, greedyDestinations dst t = .ok sent ∧ (t.entries = [] → sent = []) ∧
    (t.entries ≠ [] → ∃ e ∈ t.entries, sent = [some e.1] ∧
      ∀ e' ∈ t.entries, euclideanDistance dst e.2 ≤ euclideanDistance dst e'.2)

/-- Without an overflow, a table that is not empty has a neighbor to send to. -/
theorem greedyDestinations_of_fits (dst : Position) (t : NeighborTable) (hne : t.entries ≠ [])
    (hfits : ∀ e ∈ t.entries, squaredDistance dst e.2 < 2 ^ 31) :
    ∃ e ∈ t.entries, greedyDestinations dst t = .ok [some e.1] ∧
      ∀ e' ∈ t.entries, euclideanDistance dst e.2 ≤ euclideanDistance dst e'.2 := by
  obtain ⟨best, hloop⟩ := (foldlM_nearer_isOk_iff dst t.entries none).mpr hfits
  have hbest : BestOf dst t.entries best := (bestOf_foldlM dst t.entries [] none rfl).of_eq_ok hloop
  cases best with
  | none => exact absurd hbest hne
  | some b =>
    obtain ⟨⟨e, he, haddr, hdist⟩, hmin⟩ := hbest
    refine ⟨e, he, ?_, fun e' he' => ?_⟩
    · unfold greedyDestinations
      rw [hloop, ok_bind, haddr]
      rfl
    · rw [euclideanDistance_le_iff, hdist]
      exact hmin e' he'

/-- **The next hop is a closest neighbor** exactly if there is one and the squared distances of
all neighbors from the destination are less than `2 ^ 31`. -/
theorem sendsToClosest_iff (dst : Position) (t : NeighborTable) :
    SendsToClosest dst t ↔
      t.entries ≠ [] ∧ ∀ e ∈ t.entries, squaredDistance dst e.2 < 2 ^ 31 := by
  constructor
  · rintro ⟨sent, hsent, hempty, -⟩
    unfold greedyDestinations at hsent
    cases hloop : t.entries.foldlM (nearer dst) none with
    | error f =>
      rw [hloop] at hsent
      cases hsent
    | ok best =>
      rw [hloop] at hsent
      constructor
      · -- `Send` is called once in any case
        intro hnil
        rw [hempty hnil] at hsent
        cases hsent
      · exact (foldlM_nearer_isOk_iff dst t.entries none).mp ⟨best, hloop⟩
  · rintro ⟨hne, hfits⟩
    obtain ⟨e, he, hsent, hmin⟩ := greedyDestinations_of_fits dst t hne hfits
    exact ⟨_, hsent, fun hnil => absurd hnil hne, fun _ => ⟨e, he, rfl, hmin⟩⟩

/-- Two neighbors, one of them in the far corner of the plane. -/
def farTable : NeighborTable := (NeighborTable.empty.set 1 ⟨0, 0⟩).set 2 ⟨-32768, -32768⟩

/-- The squared distance of a neighbor in the far corner does not fit, and without a neighbor the
packet is sent to an address that was never set. -/
theorem not_sendsToClosest : greedyDestinations ⟨1, 1⟩ farTable = .error .signedOverflow ∧
      ¬ SendsToClosest ⟨1, 1⟩ farTable ∧
      greedyDestinations ⟨1, 1⟩ .empty = .ok [none] ∧ ¬ SendsToClosest ⟨1, 1⟩ .empty := by
  have hfar : greedyDestinations ⟨1, 1⟩ farTable = .error .signedOverflow := rfl
  refine ⟨hfar, ?_, rfl, ?_⟩
  · rintro ⟨sent, hsent, -⟩
    rw [hfar] at hsent
    cases hsent
  · rintro ⟨sent, hsent, hempty, -⟩
    rw [hempty rfl] at hsent
    cases hsent

end Ns3Dsme.SixLowPan
