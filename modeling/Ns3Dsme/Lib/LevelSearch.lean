/-
# Shortest paths by rounds over the edges

A table gives marks to nodes.  Round `h` goes over the list of edges: an edge from a node that is
marked at level `h` to a node without a mark gives that node a mark at level `h + 1`, made from
the mark of the first node.  Rounds follow each other until one of them adds nothing.  The table
is then closed under paths, and the level of each mark is the length of a shortest path.
-/
import Mathlib.Logic.Function.Basic
import Mathlib.Order.Bounds.Defs
import Mathlib.Data.Nat.Notation

open List Function

namespace LevelSearch

variable {α β ε : Type}

/-- A path starts with a base node, at whatever length the base gives it.  From length `first` on
it follows edges. -/
inductive Path (base : ℕ → α → Prop) (first : ℕ) (edge : α → α → Prop) : ℕ → α → Prop
  | start {n : ℕ} {x : α} (h : base n x) : Path base first edge n x
  | step {n : ℕ} {x y : α} (h : Path base first edge n y) (hn : first ≤ n) (he : edge y x) :
      Path base first edge (n + 1) x

/-- Fewer bases and fewer edges give fewer paths. -/
theorem Path.mono {base base' : ℕ → α → Prop} {first n : ℕ} {edge edge' : α → α → Prop} {x : α}
    (h : Path base first edge n x) (hbase : ∀ n x, base n x → base' n x)
    (hedge : ∀ y x, edge y x → edge' y x) : Path base' first edge' n x := by
  induction h with
  | start h => exact .start (hbase _ _ h)
  | step _ hn he ih => exact .step ih hn (hedge _ _ he)

section

variable [DecidableEq α] (source target : ε → α) (level : β → ℕ) (extend : ε → β → β)

/-- One edge in round `h`, and whether the round has added a mark so far. -/
def relax (h : ℕ) (s : (α → Option β) × Bool) (e : ε) : (α → Option β) × Bool :=
  match s.1 (target e), s.1 (source e) with
  | none, some b =>
    if level b = h then (update s.1 (target e) (some (extend e b)), true) else s
  | _, _ => s

/-- Round `h`. -/
def round (edges : List ε) (h : ℕ) (d : α → Option β) : (α → Option β) × Bool :=
  edges.foldl (relax source target level extend h) (d, false)

/-- The rounds from `h` on; nothing where the fuel runs out. -/
def search (edges : List ε) : ℕ → ℕ → (α → Option β) → Option (α → Option β)
  | 0, _, _ => none
  | fuel + 1, h, d =>
    let r := round source target level extend edges h d
    if r.2 then search edges fuel (h + 1) r.1 else some r.1

end

/-- Marks stay. -/
def Extends (d d' : α → Option β) : Prop := ∀ x b, d x = some b → d' x = some b

theorem Extends.refl (d : α → Option β) : Extends d d := fun _ _ h => h

theorem Extends.trans {d d' d'' : α → Option β} (h : Extends d d') (h' : Extends d' d'') :
    Extends d d'' := fun x b hb => h' x b (h x b hb)

theorem Extends.isNone {d d' : α → Option β} (h : Extends d d') {x : α} (hx : d' x = none) :
    d x = none := by
  cases hd : d x with
  | none => rfl
  | some b => rw [h x b hd] at hx; cases hx

section

variable {source target : ε → α} {level : β → ℕ} {extend : ε → β → β}
  {edges : List ε} {h : ℕ} {d d' : α → Option β}

/-- What a round has done after the edges `es`, with its flag `added`. -/
structure Relaxed (source target : ε → α) (level : β → ℕ) (extend : ε → β → β) (h : ℕ)
    (d : α → Option β) (es : List ε) (d' : α → Option β) (added : Bool) : Prop where
  keeps : Extends d d'
  /-- A new mark extends an old one of level `h`. -/
  new : ∀ x b, d' x = some b → d x = some b ∨
    ∃ e ∈ es, target e = x ∧ ∃ c, d (source e) = some c ∧ level c = h ∧ b = extend e c
  /-- The target of an edge from level `h` has a mark. -/
  reached : ∀ e ∈ es, ∀ c, d (source e) = some c → level c = h → d' (target e) ≠ none
  quiet : added = false → d' = d
  loud : added = true → ∃ e ∈ es, d (target e) = none ∧ d' (target e) ≠ none

variable {es : List ε} {added : Bool} {e : ε}

/-- An edge that adds nothing only has to have its target marked, if it starts at level `h`. -/
theorem Relaxed.skip (hs : Relaxed source target level extend h d es d' added)
    (hmark : ∀ c, d (source e) = some c → level c = h → d' (target e) ≠ none) :
    Relaxed source target level extend h d (es ++ [e]) d' added where
  keeps := hs.keeps
  new x b hb := by
    refine (hs.new x b hb).imp_right ?_
    rintro ⟨f, hf, hc⟩
    exact ⟨f, mem_append_left _ hf, hc⟩
  reached f hf := by
    rcases mem_append.mp hf with hf | hf
    · exact hs.reached f hf
    · rw [mem_singleton.mp hf]
      exact hmark
  quiet := hs.quiet
  loud hadded := by
    obtain ⟨f, hf, hnew⟩ := hs.loud hadded
    exact ⟨f, mem_append_left _ hf, hnew⟩

/-! ### The rounds end -/

/-- The edges whose target has no mark yet. -/
def unmarked (target : ε → α) (edges : List ε) (d : α → Option β) : ℕ :=
  edges.countP fun e => (d (target e)).isNone

theorem Relaxed.unmarked_lt (hs : Relaxed source target level extend h d edges d' true) :
    unmarked target edges d' < unmarked target edges d := by
  obtain ⟨e, he, hbefore, hafter⟩ := hs.loud rfl
  obtain ⟨as, bs, rfl⟩ := append_of_mem he
  have hle (fs : List ε) : unmarked target fs d' ≤ unmarked target fs d := by
    refine countP_mono_left fun f _ hf => ?_
    rw [hs.keeps.isNone (Option.isNone_iff_eq_none.mp hf)]
    rfl
  have hbefore_count : (d (target e)).isNone = true := Option.isNone_iff_eq_none.mpr hbefore
  have hafter_count : (d' (target e)).isNone = false :=
    Option.isNone_eq_false_iff.mpr (Option.isSome_iff_ne_none.mpr hafter)
  have has := hle as
  have hbs := hle bs
  unfold unmarked at has hbs ⊢
  simp only [countP_append, countP_cons, hbefore_count, hafter_count, if_true]
  rw [if_neg Bool.false_ne_true]
  omega

/-! ### What a search adds -/

variable {first : ℕ}

/-- A mark that was not there at the beginning extends the mark at the other end of an edge. -/
structure Grown (source target : ε → α) (level : β → ℕ) (extend : ε → β → β) (edges : List ε)
    (first : ℕ) (d d' : α → Option β) : Prop where
  keeps : Extends d d'
  grown : ∀ x b, d' x = some b → d x = some b ∨
    (d x = none ∧ ∃ e ∈ edges, target e = x ∧ ∃ c, d' (source e) = some c ∧ first ≤ level c ∧
      b = extend e c)

theorem Grown.refl (d : α → Option β) : Grown source target level extend edges first d d :=
  ⟨.refl d, fun _ _ hb => Or.inl hb⟩

theorem Grown.round {d'' : α → Option β} {added : Bool}
    (hs : Grown source target level extend edges first d d')
    (hround : Relaxed source target level extend h d' edges d'' added) (hfirst : first ≤ h) :
    Grown source target level extend edges first d d'' := by
  refine ⟨hs.keeps.trans hround.keeps, fun x b hb => ?_⟩
  rcases hround.new x b hb with hold | ⟨e, he, rfl, c, hc, hlevel, rfl⟩
  · refine (hs.grown x b hold).imp_right ?_
    rintro ⟨hnone, e, he, htarget, c, hc, hrest⟩
    exact ⟨hnone, e, he, htarget, c, hround.keeps _ _ hc, hrest⟩
  · cases hbefore : d (target e) with
    | none => exact Or.inr ⟨rfl, e, he, rfl, c, hround.keeps _ _ hc, by omega, rfl⟩
    | some b' =>
      have hsame := hround.keeps _ _ (hs.keeps _ _ hbefore)
      rw [hb] at hsame
      exact Or.inl hsame.symm

/-- What passes from a mark to its extensions, and holds of the first marks, holds of all. -/
theorem Grown.inherit (hs : Grown source target level extend edges first d d')
    (hextend : ∀ e b, level (extend e b) = level b + 1) {P : β → Prop}
    (hP : ∀ e b, P b → P (extend e b)) (hd : ∀ x b, d x = some b → P b) (x : α) (b : β)
    (hb : d' x = some b) : P b := by
  generalize hn : level b = n
  induction n using Nat.strongRecOn generalizing x b with
  | ind n ih =>
    rcases hs.grown x b hb with hold | ⟨-, e, -, -, c, hc, -, rfl⟩
    · exact hd x b hold
    · rw [hextend] at hn
      exact hP e c (ih (level c) (by omega) _ c hc rfl)

/-! ### The marks are shortest paths -/

variable {base : ℕ → α → Prop} {edge : α → α → Prop}

/-- The paths start from the marks of `d` and follow the edges, apart from those that leave a
node marked below `first`. -/
structure Represents (source target : ε → α) (level : β → ℕ) (edges : List ε) (d : α → Option β)
    (base : ℕ → α → Prop) (first : ℕ) (edge : α → α → Prop) : Prop where
  le_first : ∀ x b, d x = some b → level b ≤ first
  starts : ∀ x b, d x = some b → base (level b) x
  marked : ∀ n x, base n x → ∃ b, d x = some b ∧ level b ≤ n
  follows : ∀ e ∈ edges, (∀ b, d (source e) = some b → first ≤ level b) →
    edge (source e) (target e)
  listed : ∀ y x, edge y x → (∀ b, d y = some b → first ≤ level b) ∧
    ∃ e ∈ edges, source e = y ∧ target e = x

/-- The table before round `h`, when the search began with `d`. -/
structure Levelled (source target : ε → α) (level : β → ℕ) (extend : ε → β → β)
    (edges : List ε) (d : α → Option β) (base : ℕ → α → Prop) (first : ℕ)
    (edge : α → α → Prop) (h : ℕ) (d' : α → Option β) : Prop
    extends Grown source target level extend edges first d d' where
  first_le : first ≤ h
  le : ∀ x b, d' x = some b → level b ≤ h
  sound : ∀ x b, d' x = some b → Path base first edge (level b) x
  complete : ∀ n x, n ≤ h → Path base first edge n x → ∃ b, d' x = some b ∧ level b ≤ n

theorem Represents.levelled (hd : Represents source target level edges d base first edge) :
    Levelled source target level extend edges d base first edge first d where
  toGrown := .refl d
  first_le := Nat.le_refl _
  le := hd.le_first
  sound x b hb := .start (hd.starts x b hb)
  complete n x hn hpath := by
    cases hpath with
    | start hbase => exact hd.marked n x hbase
    | step hpath hfirst _ => omega

/-- A round goes one level further. -/
theorem Levelled.round (hd : Represents source target level edges d base first edge)
    (hextend : ∀ e b, level (extend e b) = level b + 1) {d'' : α → Option β} {added : Bool}
    (hs : Levelled source target level extend edges d base first edge h d')
    (hround : Relaxed source target level extend h d' edges d'' added) :
    Levelled source target level extend edges d base first edge (h + 1) d'' := by
  have hfirst := hs.first_le
  -- an edge that was used does not leave a node marked below `first`
  have hstart (e : ε) (c : β) (hc : d' (source e) = some c) (hlevel : level c = h) (b : β)
      (hb : d (source e) = some b) : first ≤ level b := by
    have hsame := hs.keeps _ _ hb
    rw [hc] at hsame
    cases hsame
    omega
  refine ⟨hs.toGrown.round hround hfirst, by omega, fun x b hb => ?_, fun x b hb => ?_,
    fun n x hn hpath => ?_⟩
  · rcases hround.new x b hb with hold | ⟨e, -, -, c, -, hlevel, rfl⟩
    · exact Nat.le_succ_of_le (hs.le x b hold)
    · exact Nat.le_of_eq (by rw [hextend, hlevel])
  · rcases hround.new x b hb with hold | ⟨e, he, rfl, c, hc, hlevel, rfl⟩
    · exact hs.sound x b hold
    · rw [hextend]
      exact .step (hs.sound _ _ hc) (by omega) (hd.follows e he (hstart e c hc hlevel))
  · rcases Nat.lt_or_ge h n with hlt | hle
    · cases hpath with
      | start hbase =>
        obtain ⟨b, hb, hlevel⟩ := hd.marked _ _ hbase
        exact ⟨b, hround.keeps _ _ (hs.keeps _ _ hb), hlevel⟩
      | @step m _ y hpath hm hedge =>
        obtain ⟨c, hc, hlevel⟩ := hs.complete m y (by omega) hpath
        obtain ⟨hsource, e, he, rfl, rfl⟩ := hd.listed y x hedge
        rcases Nat.lt_or_eq_of_le (hs.le _ _ hc) with hbelow | hat
        · -- a shorter path to the other end: the target has a mark already
          have hc_first : first ≤ level c := by
            rcases hs.grown _ _ hc with hold | ⟨-, f, -, -, c', -, hc', rfl⟩
            · exact hsource c hold
            · rw [hextend]
              omega
          obtain ⟨b, hb, hb_level⟩ :=
            hs.complete (level c + 1) _ hbelow (.step (hs.sound _ _ hc) hc_first hedge)
          exact ⟨b, hround.keeps _ _ hb, by omega⟩
        · have hmarked := hround.reached e he c hc hat
          obtain ⟨b, hb⟩ := Option.ne_none_iff_exists'.mp hmarked
          refine ⟨b, hb, ?_⟩
          rcases hround.new _ b hb with hold | ⟨f, -, -, c', -, hc', rfl⟩
          · have := hs.le _ _ hold
            omega
          · rw [hextend, hc']
            omega
    · obtain ⟨b, hb, hlevel⟩ := hs.complete n x hle hpath
      exact ⟨b, hround.keeps _ _ hb, hlevel⟩

/-- Where a round adds nothing, no path leads out of the marked nodes. -/
theorem Levelled.closed (hd : Represents source target level edges d base first edge)
    (hextend : ∀ e b, level (extend e b) = level b + 1)
    (hs : Levelled source target level extend edges d base first edge h d')
    (hround : Relaxed source target level extend h d' edges d' false) {n : ℕ} {x : α}
    (hpath : Path base first edge n x) : ∃ b, d' x = some b ∧ level b ≤ n := by
  have hnext := hs.round hd hextend hround
  induction hpath with
  | start hbase =>
    obtain ⟨b, hb, hlevel⟩ := hd.marked _ _ hbase
    exact ⟨b, hs.keeps _ _ hb, hlevel⟩
  | @step m x y hpath hm hedge ih =>
    obtain ⟨c, hc, hlevel⟩ := ih
    have hc_le := hs.le _ _ hc
    have hc_first : first ≤ level c := by
      rcases hs.grown _ _ hc with hold | ⟨-, f, -, -, c', -, hc', rfl⟩
      · exact (hd.listed y x hedge).1 c hold
      · rw [hextend]
        omega
    obtain ⟨b, hb, hb_level⟩ := hnext.complete (level c + 1) x (by omega)
      (.step (hs.sound _ _ hc) hc_first hedge)
    exact ⟨b, hb, by omega⟩

/-- The levels of the marks are the lengths of shortest paths. -/
structure Shortest (level : β → ℕ) (base : ℕ → α → Prop) (first : ℕ) (edge : α → α → Prop)
    (d : α → Option β) : Prop where
  sound : ∀ x b, d x = some b → Path base first edge (level b) x
  complete : ∀ n x, Path base first edge n x → ∃ b, d x = some b ∧ level b ≤ n

variable [DecidableEq α]

theorem Relaxed.mark (hs : Relaxed source target level extend h d es d' added) {b : β}
    (htarget : d' (target e) = none) (hold : d (source e) = some b) (hlevel : level b = h) :
    Relaxed source target level extend h d (es ++ [e])
      (update d' (target e) (some (extend e b))) true := by
  have hne (x : α) (hx : d' x ≠ none) :
      update d' (target e) (some (extend e b)) x = d' x := by
    refine update_of_ne ?_ _ _
    rintro rfl
    exact hx htarget
  refine ⟨fun x c hc => ?_, fun x c hc => ?_, fun f hf c hc hc_level => ?_, ?_, fun _ => ?_⟩
  · have hmem := hs.keeps x c hc
    rw [hne x (by simp [hmem])]
    exact hmem
  · by_cases hx : x = target e
    · subst hx
      rw [update_self] at hc
      cases hc
      exact Or.inr ⟨e, by simp, rfl, b, hold, hlevel, rfl⟩
    · rw [update_of_ne hx] at hc
      refine (hs.new x c hc).imp_right ?_
      rintro ⟨f, hf, hrest⟩
      exact ⟨f, mem_append_left _ hf, hrest⟩
  · rcases mem_append.mp hf with hf | hf
    · have hmarked := hs.reached f hf c hc hc_level
      rw [hne _ hmarked]
      exact hmarked
    · rw [mem_singleton.mp hf, update_self]
      exact Option.some_ne_none _
  · rintro ⟨⟩
  · refine ⟨e, by simp, hs.keeps.isNone htarget, ?_⟩
    rw [update_self]
    exact Option.some_ne_none _

variable (hextend : ∀ e b, level (extend e b) = level b + 1)
include hextend

theorem Relaxed.relax {s : (α → Option β) × Bool}
    (hs : Relaxed source target level extend h d es s.1 s.2) (e : ε) :
    Relaxed source target level extend h d (es ++ [e])
      (relax source target level extend h s e).1 (relax source target level extend h s e).2 := by
  unfold LevelSearch.relax
  split
  · rename_i b htarget hsource
    split
    · rename_i hlevel
      refine hs.mark htarget ?_ hlevel
      rcases hs.new _ _ hsource with hold | ⟨f, -, -, c, -, hc, rfl⟩
      · exact hold
      · -- a mark that is new in this round is at level `h + 1`
        rw [hextend] at hlevel
        omega
    · rename_i hlevel
      refine hs.skip fun c hc hc_level => ?_
      have hsame := hs.keeps _ _ hc
      rw [hsource] at hsame
      cases hsame
      exact absurd hc_level hlevel
  · rename_i hnot
    refine hs.skip fun c hc _ htarget => ?_
    exact hnot c htarget (hs.keeps _ _ hc)

omit hextend in
theorem relaxed_round (source target : ε → α) (hextend : ∀ e b, level (extend e b) = level b + 1)
    (edges : List ε) (h : ℕ) (d : α → Option β) :
    Relaxed source target level extend h d edges (round source target level extend edges h d).1
      (round source target level extend edges h d).2 := by
  have hfold (es rest : List ε) (s : (α → Option β) × Bool)
      (hs : Relaxed source target level extend h d es s.1 s.2) :
      Relaxed source target level extend h d (es ++ rest)
        (rest.foldl (LevelSearch.relax source target level extend h) s).1
        (rest.foldl (LevelSearch.relax source target level extend h) s).2 := by
    induction rest generalizing es s with
    | nil =>
      rw [append_nil]
      exact hs
    | cons e rest ih =>
      have := ih (es ++ [e]) _ (hs.relax hextend e)
      rwa [append_assoc] at this
  refine hfold [] edges (d, false) ⟨.refl d, fun x b hb => Or.inl hb, ?_, fun _ => rfl, ?_⟩
  · intro e he
    cases he
  · rintro ⟨⟩

/-- There is a last round. -/
theorem search_isSome {fuel : ℕ} (hfuel : unmarked target edges d < fuel) :
    (search source target level extend edges fuel h d).isSome := by
  induction fuel generalizing h d with
  | zero => omega
  | succ fuel ih =>
    have hround := relaxed_round source target hextend edges h d
    unfold search
    dsimp only
    split
    · rename_i hadded
      rw [hadded] at hround
      have hlt := hround.unmarked_lt
      exact ih (by omega)
    · rfl

/-- **What a search ends with.** -/
theorem search_grown {fuel : ℕ} {d₁ : α → Option β}
    (hs : Grown source target level extend edges first d d₁) (hfirst : first ≤ h)
    (hsearch : search source target level extend edges fuel h d₁ = some d') :
    Grown source target level extend edges first d d' := by
  induction fuel generalizing h d₁ with
  | zero => cases hsearch
  | succ fuel ih =>
    have hround := relaxed_round source target hextend edges h d₁
    unfold search at hsearch
    dsimp only at hsearch
    split at hsearch
    · exact ih (hs.round hround hfirst) (by omega) hsearch
    · rw [← Option.some.inj hsearch]
      exact hs.round hround hfirst

omit hextend

/-- **A search finds shortest paths.** -/
theorem Represents.shortest (hd : Represents source target level edges d base first edge)
    (hextend : ∀ e b, level (extend e b) = level b + 1) {fuel : ℕ}
    (hsearch : search source target level extend edges fuel first d = some d') :
    Shortest level base first edge d' := by
  have hloop (fuel h : ℕ) (d₁ : α → Option β)
      (hs : Levelled source target level extend edges d base first edge h d₁)
      (hsearch : search source target level extend edges fuel h d₁ = some d') :
      Shortest level base first edge d' := by
    induction fuel generalizing h d₁ with
    | zero => cases hsearch
    | succ fuel ih =>
      have hround := relaxed_round source target hextend edges h d₁
      unfold search at hsearch
      dsimp only at hsearch
      split at hsearch
      · exact ih _ _ (hs.round hd hextend hround) hsearch
      · rename_i hadded
        rw [Bool.not_eq_true] at hadded
        rw [hadded] at hround
        have hquiet := hround.quiet rfl
        rw [hquiet] at hround hsearch
        rw [← Option.some.inj hsearch]
        exact ⟨hs.sound, fun n x hpath => hs.closed hd hextend hround hpath⟩
  exact hloop fuel first d hd.levelled hsearch

end

end LevelSearch
