/-
# The order in which relays are chosen

The loop of `MprComputation` prefers willingness, then reachability, then the degree `D(y)`.  The
degree that it compares is zero for every neighbour, so that among neighbours that are otherwise as
good the first one is chosen.
-/
import Ns3Dsme.Olsr.RelayChoice
import Ns3Dsme.Lib.Selection
import Mathlib.Data.Prod.Lex

open Selection

namespace Ns3Dsme.Olsr

/-- `D(y)`: the two-hop tuples of a neighbour that lead to nodes which are not neighbours. -/
def OlsrState.outerDegree (s : OlsrState) (y : NeighborTuple) : ℕ :=
  s.twoHopNeighborSet.countP fun t =>
    t.neighborMainAddr == y.neighborMainAddr && (s.findNeighborTuple t.twoHopNeighborAddr).isNone

namespace MprComputation

/-- Willingness, then reachability. -/
def rank (n2 : List TwoHopNeighborTuple) (nb : NeighborTuple) : ℕ ×ₗ ℕ :=
  toLex (nb.willingness.toNat, reachability n2 nb)

/-- Willingness, then reachability, then `D(y)`. -/
def fullRank (s : OlsrState) (n2 : List TwoHopNeighborTuple) (nb : NeighborTuple) :
    ℕ ×ₗ ℕ ×ₗ ℕ :=
  toLex (nb.willingness.toNat, toLex (reachability n2 nb, s.outerDegree nb))

/-- A turn of the loop: what was left, and the neighbour that was chosen. -/
structure Turn where
  n2 : List TwoHopNeighborTuple
  max : NeighborTuple
  deriving DecidableEq

/-- The turns of the loop. -/
def turns (s : OlsrState) (n : List NeighborTuple) : ℕ → Choice → List Turn
  | 0, _ => []
  | fuel + 1, c =>
    if c.n2 = [] then []
    else
      match (candidates n c.n2).foldl (better s c.n2) none with
      | some max =>
        ⟨c.n2, max⟩ :: turns s n fuel ⟨c.mprSet.insert max.neighborMainAddr,
          coverTwoHopNeighbors max.neighborMainAddr c.n2⟩
      | none => []

/-- Among the symmetric neighbours with something to cover, none is before the one that is chosen. -/
structure Turn.IsBest (s : OlsrState) (turn : Turn) : Prop where
  mem : turn.max ∈ symNeighbors s
  reaches : reachability turn.n2 turn.max ≠ 0
  best : ∀ nb ∈ symNeighbors s, reachability turn.n2 nb ≠ 0 →
    fullRank s turn.n2 nb ≤ fullRank s turn.n2 turn.max

/-- A symmetric neighbour with something to cover, and none of them is more willing, or as willing
and covers more. -/
structure Leading (s : OlsrState) (n2 : List TwoHopNeighborTuple) (nb : NeighborTuple) : Prop where
  mem : nb ∈ symNeighbors s
  reaches : reachability n2 nb ≠ 0
  top : ∀ other ∈ symNeighbors s, reachability n2 other ≠ 0 → rank n2 other ≤ rank n2 nb

/-- Of the neighbours that are as willing and cover as much as any, the first one in the neighbour
set has the greatest `D(y)`. -/
def FirstIsGreatest (s : OlsrState) (n2 : List TwoHopNeighborTuple) : Prop :=
  ∀ m, IsFirst (Leading s n2) (symNeighbors s) m →
    ∀ nb, Leading s n2 nb → s.outerDegree nb ≤ s.outerDegree m

/-- Where the loop of `MprComputation` starts. -/
def loopStart (s : OlsrState) (mainAddress : Ipv4Address) : Choice :=
  chooseOnly (chooseAlways (symNeighbors s) (twoHopNeighbors s mainAddress))

end MprComputation

open MprComputation in
/-- The turns of the loop of `MprComputation`. -/
def OlsrState.mprTurns (s : OlsrState) (mainAddress : Ipv4Address) : List Turn :=
  turns s (symNeighbors s) (loopStart s mainAddress).n2.length (loopStart s mainAddress)

namespace MprComputation

variable {s : OlsrState} {n2 : List TwoHopNeighborTuple}

/-! ## What the loop compares -/

/-- `Degree` looks for the neighbour itself, which is always found. -/
theorem degree_eq_zero {nb : NeighborTuple} (h : nb ∈ s.neighborSet) : s.degree nb = 0 := by
  unfold OlsrState.degree
  apply List.countP_eq_zero.mpr
  intro t _ ht
  obtain ⟨hmain, hnone⟩ := Bool.and_eq_true_iff.mp ht
  unfold OlsrState.findNeighborTuple at hnone
  have hnot := List.find?_eq_none.mp (Option.isNone_iff_eq_none.mp hnone) nb h
  rw [beq_iff_eq.mp hmain] at hnot
  exact hnot (beq_iff_eq.mpr rfl)

theorem rank_lt_rank {m nb : NeighborTuple} : rank n2 m < rank n2 nb ↔
    m.willingness < nb.willingness ∨
      m.willingness = nb.willingness ∧ reachability n2 m < reachability n2 nb := by
  unfold rank
  rw [Prod.Lex.toLex_lt_toLex, ← BitVec.lt_def, BitVec.toNat_inj]

theorem better_eq_keep {nb : NeighborTuple} (h : nb ∈ s.neighborSet) (max : Option NeighborTuple) :
    better s n2 max nb = keep (rank n2) max nb := by
  unfold better keep
  cases max with
  | none => rfl
  | some m =>
    dsimp only
    rw [degree_eq_zero h]
    by_cases hmore : m.willingness < nb.willingness
    · rw [if_pos hmore, if_pos (rank_lt_rank.mpr (.inl hmore))]
    · rw [if_neg hmore]
      by_cases hsame : nb.willingness = m.willingness
      · rw [if_pos hsame]
        by_cases hreach : reachability n2 m < reachability n2 nb
        · rw [if_pos hreach, if_pos (rank_lt_rank.mpr (.inr ⟨hsame.symm, hreach⟩))]
        · rw [if_neg hreach, if_neg fun h => Nat.not_lt_zero _ h.2, if_neg]
          intro hlt
          rcases rank_lt_rank.mp hlt with hlt | hlt
          · exact hmore hlt
          · exact hreach hlt.2
      · rw [if_neg hsame, if_neg]
        intro hlt
        rcases rank_lt_rank.mp hlt with hlt | hlt
        · exact hmore hlt
        · exact hsame hlt.1.symm

/-! ## The neighbour that is chosen -/

/-- Neighbours that are as good as any cover as much. -/
theorem Leading.reachability_eq {nb nb' : NeighborTuple} (h : Leading s n2 nb)
    (h' : Leading s n2 nb') : reachability n2 nb = reachability n2 nb' := by
  have heq : rank n2 nb = rank n2 nb' :=
    le_antisymm (h'.top nb h.mem h.reaches) (h.top nb' h'.mem h'.reaches)
  exact congrArg (fun r => (ofLex r).2) heq

theorem top_candidates {nb : NeighborTuple} (h : nb ∈ candidates (symNeighbors s) n2) :
    Top (rank n2) (candidates (symNeighbors s) n2) nb ↔ Leading s n2 nb := by
  obtain ⟨hmem, hreach⟩ := mem_candidates.mp h
  constructor
  · intro htop
    refine ⟨hmem, hreach, fun other hother hother' => ?_⟩
    exact htop other (mem_candidates.mpr ⟨hother, hother'⟩)
  · rintro ⟨-, -, htop⟩ other hother
    obtain ⟨hother, hother'⟩ := mem_candidates.mp hother
    exact htop other hother hother'

/-- **The loop chooses the first one** of the neighbours that are as willing and cover as much as
any. -/
theorem isFirst_leading {max : NeighborTuple}
    (h : (candidates (symNeighbors s) n2).foldl (better s n2) none = some max) :
    IsFirst (Leading s n2) (symNeighbors s) max := by
  have hkeep : (candidates (symNeighbors s) n2).foldl (better s n2) none =
      (candidates (symNeighbors s) n2).foldl (keep (rank n2)) none := by
    apply List.foldl_ext
    intro best nb hnb
    exact better_eq_keep (mem_symNeighbors.mp (mem_candidates.mp hnb).1).1 best
  rw [hkeep] at h
  have hfirst := (isFirst_foldl_keep _ h).congr fun nb hnb => top_candidates hnb
  -- those that are as good are all in one class
  unfold candidates at hfirst
  apply IsFirst.of_classes _ hfirst
  intro nb _ nb' _ hnb hnb'
  exact hnb.reachability_eq hnb'

theorem fullRank_le_fullRank {nb m : NeighborTuple} :
    fullRank s n2 nb ≤ fullRank s n2 m ↔ rank n2 nb < rank n2 m ∨
      rank n2 nb = rank n2 m ∧ s.outerDegree nb ≤ s.outerDegree m := by
  unfold fullRank rank
  rw [Prod.Lex.toLex_le_toLex, Prod.Lex.toLex_le_toLex, Prod.Lex.toLex_lt_toLex, toLex_inj,
    Prod.mk.injEq]
  dsimp only
  constructor
  · rintro (h | ⟨hw, h | ⟨hr, hd⟩⟩)
    · exact .inl (.inl h)
    · exact .inl (.inr ⟨hw, h⟩)
    · exact .inr ⟨⟨hw, hr⟩, hd⟩
  · rintro ((h | ⟨hw, h⟩) | ⟨⟨hw, hr⟩, hd⟩)
    · exact .inl h
    · exact .inr ⟨hw, .inl h⟩
    · exact .inr ⟨hw, .inr ⟨hr, hd⟩⟩

/-- **When the chosen neighbour is the best**, with `D(y)` as the last level. -/
theorem isBest_iff {turn : Turn}
    (h : (candidates (symNeighbors s) turn.n2).foldl (better s turn.n2) none = some turn.max) :
    turn.IsBest s ↔ FirstIsGreatest s turn.n2 := by
  have hfirst := isFirst_leading h
  have hmax := hfirst.holds
  constructor
  · rintro hbest m hm nb hnb
    rw [hm.unique hfirst]
    rcases fullRank_le_fullRank.mp (hbest.best nb hnb.mem hnb.reaches) with hlt | ⟨-, hle⟩
    · exact absurd (hnb.top _ hmax.mem hmax.reaches) (not_le_of_gt hlt)
    · exact hle
  · intro hgreatest
    refine ⟨hmax.mem, hmax.reaches, fun nb hnb hreach => fullRank_le_fullRank.mpr ?_⟩
    rcases lt_or_eq_of_le (hmax.top nb hnb hreach) with hlt | heq
    · exact .inl hlt
    · refine .inr ⟨heq, hgreatest _ hfirst nb ⟨hnb, hreach, fun other hother hother' => ?_⟩⟩
      rw [heq]
      exact hmax.top other hother hother'

/-! ## The turns -/

theorem foldl_better_of_mem_turns {n : List NeighborTuple} {fuel : ℕ} {c : Choice} {turn : Turn}
    (h : turn ∈ turns s n fuel c) :
    (candidates n turn.n2).foldl (better s turn.n2) none = some turn.max := by
  induction fuel generalizing c with
  | zero => cases h
  | succ fuel ih =>
    unfold turns at h
    split at h
    · cases h
    · split at h
      · rename_i max hmax
        rcases List.mem_cons.mp h with rfl | h
        · exact hmax
        · exact ih h
      · cases h

/-- The relays that the loop adds are those of its turns. -/
theorem chooseBest_eq_turns {n : List NeighborTuple} {fuel : ℕ} {c : Choice}
    {mprSet : List Ipv4Address} (h : chooseBest s n fuel c = some mprSet) :
    mprSet = (turns s n fuel c).foldl
      (fun mprSet turn => mprSet.insert turn.max.neighborMainAddr) c.mprSet := by
  induction fuel generalizing c with
  | zero =>
    unfold chooseBest at h
    split at h
    · exact (Option.some.inj h).symm
    · cases h
  | succ fuel ih =>
    unfold chooseBest at h
    unfold turns
    split at h
    · rename_i hempty
      rw [if_pos hempty]
      exact (Option.some.inj h).symm
    · rename_i hne
      rw [if_neg hne]
      cases hmax : (candidates n c.n2).foldl (better s c.n2) none with
      | none =>
        rw [hmax] at h
        cases h
      | some max =>
        rw [hmax] at h
        exact ih h

end MprComputation

open MprComputation in
/-- **The order of the choice**: the relays of the loop are those of its turns, and a turn chooses
the best neighbour exactly where the first one of those that tie has the greatest degree. -/
theorem OlsrState.isBest_iff_of_mem_mprTurns (s : OlsrState) (mainAddress : Ipv4Address) :
    (∀ mprSet, s.mprComputation mainAddress = some mprSet →
      mprSet = (s.mprTurns mainAddress).foldl
        (fun mprSet turn => mprSet.insert turn.max.neighborMainAddr)
        (loopStart s mainAddress).mprSet) ∧
    ∀ turn ∈ s.mprTurns mainAddress, turn.IsBest s ↔ FirstIsGreatest s turn.n2 := by
  constructor
  · intro mprSet hresult
    exact chooseBest_eq_turns hresult
  · intro turn hturn
    exact isBest_iff (foldl_better_of_mem_turns hturn)

open MprComputation in
/-- Two neighbours that reach the same node, and another one that is always willing. -/
def tiedNeighborhood : OlsrState where
  neighborSet := [⟨1, .sym, willDefault⟩, ⟨2, .sym, willDefault⟩, ⟨3, .sym, willAlways⟩]
  twoHopNeighborSet := [⟨1, 10, 0⟩, ⟨2, 10, 0⟩, ⟨3, 11, 0⟩, ⟨2, 11, 0⟩]

open MprComputation in
theorem OlsrState.isBest_iff_of_mem_mprTurns_tied :
    (⟨[⟨1, 10, 0⟩, ⟨2, 10, 0⟩], ⟨1, .sym, willDefault⟩⟩ : Turn).IsBest tiedNeighborhood ↔
      FirstIsGreatest tiedNeighborhood [⟨1, 10, 0⟩, ⟨2, 10, 0⟩] :=
  (tiedNeighborhood.isBest_iff_of_mem_mprTurns 9).2 ⟨_, _⟩ (by decide)

open MprComputation in
/-- The second of the two reaches more nodes that are not neighbours, and the first is chosen. -/
theorem OlsrState.not_isBest_of_mem_mprTurns :
    ¬ ∀ (s : OlsrState) (mainAddress : Ipv4Address), ∀ turn ∈ s.mprTurns mainAddress,
      turn.IsBest s := by
  intro hbest
  have h := hbest tiedNeighborhood 9 ⟨[⟨1, 10, 0⟩, ⟨2, 10, 0⟩], ⟨1, .sym, willDefault⟩⟩ (by decide)
  have hle := h.best ⟨2, .sym, willDefault⟩ (by decide) (by decide)
  rcases fullRank_le_fullRank.mp hle with hlt | ⟨-, hdegree⟩
  · rcases rank_lt_rank.mp hlt with hlt | ⟨-, hlt⟩
    · exact absurd hlt (by decide)
    · exact absurd hlt (by decide)
  · exact absurd hdegree (by decide)

end Ns3Dsme.Olsr
