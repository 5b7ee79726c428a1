/-
# Packet-tag lists are isolated maps

One lemma for each part of the walk along a list, then the operations, and the invariant of all
lists that share their tails.
-/
import Ns3Dsme.Network.PacketTagList

open Function List Program SharedChain

namespace Ns3Dsme.Network

open TagHeap Slots PacketTagList

/-! ## The heap -/

namespace TagHeap

variable {h : TagHeap} {p : ℕ} {o : Option ℕ} {c : TagData} {as : List PacketTag}

theorem get_eq (hc : h.cells p = some c) : get h p = .ok c := by
  unfold get
  rw [hc]

theorem decrement_eq (hc : h.cells p = some c) :
    decrement h p = .ok (h.set p (some { c with count := c.count - 1 })) := by
  unfold decrement
  rw [get_eq hc]
  rfl

theorem share_eq (ho : ∀ p, o = some p → ∃ c, h.cells p = some c) :
    share h o = .ok (Heap.retain h o) := by
  cases o with
  | none => rfl
  | some p =>
    obtain ⟨c, hc⟩ := ho p rfl
    unfold share increment Heap.retain
    dsimp only
    rw [get_eq hc, hc]
    rfl

theorem free_eq (hc : h.cells p = some c) : free h (some p) = .ok (h.set p none) := by
  unfold free
  dsimp only
  rw [get_eq hc]
  rfl

/-- The loop looks at the tags of the list. -/
theorem find_eq (hs : Spells h o as) (tid : BitVec 16) {fuel : ℕ} (hfuel : as.length ≤ fuel) :
    find h tid fuel o = .ok (as.find? fun x => decide (x.tid = tid)) := by
  induction hs generalizing fuel with
  | nil =>
    unfold find
    rfl
  | cons hc hrest ih =>
    rename_i p c as
    obtain ⟨fuel, rfl⟩ : ∃ n, fuel = n + 1 := ⟨fuel - 1, by rw [length_cons] at hfuel; omega⟩
    unfold find
    rw [get_eq hc, ok_bind]
    by_cases htid : c.value.tid = tid
    · rw [if_pos htid, List.find?_cons, decide_eq_true htid]
      rfl
    · rw [if_neg htid, List.find?_cons, decide_eq_false htid]
      exact ih (Nat.le_of_succ_le_succ hfuel)

end TagHeap

/-! ## Walking along a list -/

/-- The pointer behind the cells that were passed. -/
def linkOf (ps : List (ℕ × PacketTag)) : TagLink :=
  match ps.getLast? with
  | none => .head
  | some p => .next p.1

theorem linkOf_concat (ps : List (ℕ × PacketTag)) (p : ℕ) (a : PacketTag) :
    linkOf (ps ++ [(p, a)]) = .next p := by
  unfold linkOf
  rw [List.getLast?_concat]

theorem linkOf_ne {ps : List (ℕ × PacketTag)} {p : ℕ} (hp : p ∉ ps.map Prod.fst) :
    linkOf ps ≠ .next p := by
  rcases eq_nil_or_concat ps with rfl | ⟨ps, ⟨q, a⟩, rfl⟩
  · rintro ⟨⟩
  · rw [concat_eq_append] at hp ⊢
    rw [linkOf_concat]
    rintro ⟨⟩
    refine hp ?_
    rw [map_append]
    exact mem_append_right _ mem_cons_self

/-- The tags `pre` were passed and are the list's own; `link` is the pointer behind them, which
points to `target`, and behind it belongs `o`, which shows `rest`. -/
def Walk (l : PacketTagList) (os : List (Option ℕ × List PacketTag)) (pre : List PacketTag)
    (link : TagLink) (target o : Option ℕ) (rest : List PacketTag) : Prop :=
  ∃ k ps, Held k l.heap ps l.next target ∧ Sound k ((o, rest) :: os) ∧ link = linkOf ps ∧
    pre = ps.map Prod.snd

section Walks

variable {l : PacketTagList} {os : List (Option ℕ × List PacketTag)} {as pre rest : List PacketTag}
  {link : TagLink} {target o : Option ℕ} {p : ℕ} {c : TagData} {tid : BitVec 16}

theorem Walk.begin (hs : Sound l.heap ((l.next, as) :: os)) :
    Walk l os [] .head l.next l.next as :=
  ⟨l.heap, [], Held.nil l.next, hs, rfl, rfl⟩

/-- **The whole list again.** -/
theorem Walk.done (hw : Walk l os pre link o o rest) :
    Sound l.heap ((l.next, pre ++ rest) :: os) := by
  obtain ⟨k, ps, hheld, hs, -, rfl⟩ := hw
  exact hheld.attach hs

/-- What the walk has come to. -/
theorem Walk.cell (hw : Walk l os pre link target (some p) rest) :
    ∃ c rest', l.heap.cells p = some c ∧ rest = c.value :: rest' ∧ 0 < c.count := by
  obtain ⟨k, ps, hheld, hs, -, -⟩ := hw
  have hshow := hs.shows _ mem_cons_self
  dsimp only at hshow
  cases hshow with
  | cons hc hrest => exact ⟨_, _, hheld.cells_of_some hc, rfl, hs.count_pos hc⟩

/-- The tag is one of those that the others see. -/
theorem Walk.split (hw : Walk l os pre link target (some p) rest) (hc : l.heap.cells p = some c) :
    ∃ k ps, Held k l.heap ps l.next target ∧ Sound k ((some p, rest) :: os) ∧ link = linkOf ps ∧
      pre = ps.map Prod.snd ∧ k.cells p = some c ∧ 0 < c.count := by
  obtain ⟨k, ps, hheld, hs, hlink, hpre⟩ := hw
  obtain ⟨d, hd⟩ := (hs.shows _ mem_cons_self).exists_cell
  have hsame := hheld.cells_of_some hd
  rw [hc] at hsame
  cases hsame
  exact ⟨k, ps, hheld, hs, hlink, hpre, hd, hs.count_pos hd⟩

/-- A tag that the list has for itself is passed. -/
theorem Walk.pass (hw : Walk l os pre link (some p) (some p) (c.value :: rest))
    (hc : l.heap.cells p = some c) (hone : ¬ 1 < c.count) :
    Walk l os (pre ++ [c.value]) (.next p) c.next c.next rest := by
  obtain ⟨k, ps, hheld, hs, -, rfl, hd, hpos⟩ := hw.split hc
  have hcount : c.count = 1 := by omega
  obtain ⟨rest', hrest, hpop⟩ := hs.pop hd hcount
  cases hrest
  have hd' : k.cells p = some ⟨c.next, 1, c.value⟩ := by
    rw [hd, ← hcount]
  refine ⟨k.set p none, ps ++ [(p, c.value)], hheld.snoc hd' (hs.bounded p c hd), hpop,
    (linkOf_concat _ _ _).symm, ?_⟩
  rw [map_append]
  rfl

/-- The pointer behind the passed tags is changed. -/
theorem Walk.setLink (hw : Walk l os pre link target o rest) (target' : Option ℕ) :
    ∃ l', l.setLink link target' = .ok l' ∧ Walk l' os pre link target' o rest ∧
      ∀ p, link ≠ .next p → l'.heap.cells p = l.heap.cells p := by
  obtain ⟨k, ps, hheld, hs, rfl, rfl⟩ := hw
  rcases eq_nil_or_concat ps with rfl | ⟨ps, ⟨q, a⟩, rfl⟩
  · exact ⟨_, rfl, ⟨k, [], hheld.relink_nil target', hs, rfl, rfl⟩, fun _ _ => rfl⟩
  · rw [concat_eq_append] at hheld ⊢
    obtain ⟨hc, hheld'⟩ := hheld.relink a target'
    refine ⟨⟨l.next, l.heap.set q (some ⟨target', 1, a⟩)⟩, ?_,
      ⟨k, _, hheld', hs, rfl, rfl⟩, fun p hp => ?_⟩
    · rw [linkOf_concat]
      unfold setLink
      dsimp only
      rw [get_eq hc]
      rfl
    · rw [linkOf_concat] at hp
      exact Heap.cells_set_of_ne _ _ fun heq => hp (congrArg TagLink.next heq.symm)

/-- The pointer is not that of the tag it leads to. -/
theorem Walk.link_ne (hw : Walk l os pre link target (some p) rest) : link ≠ .next p := by
  obtain ⟨c, -, hc, -, -⟩ := hw.cell
  obtain ⟨k, ps, hheld, -, rfl, -, hd, -⟩ := hw.split hc
  exact linkOf_ne (hheld.not_mem_of_some hd)

variable (hw : Walk l os pre link target (some p) (c.value :: rest)) (hc : l.heap.cells p = some c)
include hw hc

/-- A tag that nobody else has is freed. -/
theorem Walk.free (hone : ¬ 1 < c.count) :
    Walk { l with heap := l.heap.set p none } os pre link target c.next rest := by
  obtain ⟨k, ps, hheld, hs, hlink, hpre, hd, hpos⟩ := hw.split hc
  obtain ⟨rest', hrest, hpop⟩ := hs.pop hd (by omega)
  cases hrest
  exact ⟨k.set p none, ps, hheld.set (hheld.not_mem_of_some hd) none, hpop, hlink, hpre⟩

/-- A tag that nobody else has is written over. -/
theorem Walk.rewrite (hone : ¬ 1 < c.count) (a : PacketTag) :
    Walk { l with heap := l.heap.set p (some { c with value := a }) } os pre link target (some p)
      (a :: rest) := by
  obtain ⟨k, ps, hheld, hs, hlink, hpre, hd, hpos⟩ := hw.split hc
  have hcount : c.count = 1 := by omega
  obtain ⟨rest', hrest, hpop⟩ := hs.pop hd hcount
  cases hrest
  have hpush := hpop.push (k.cells_set_self p none) (hs.bounded p c hd) a
  rw [Heap.set_set, ← hcount] at hpush
  exact ⟨_, ps, hheld.set (hheld.not_mem_of_some hd) _, hpush, hlink, hpre⟩

/-- **A tag is left to the others**, and what follows it is shared. -/
theorem Walk.leave (hmany : 1 < c.count) :
    ∃ heap, share (l.heap.set p (some { c with count := c.count - 1 })) c.next = .ok heap ∧
      Walk ⟨l.next, heap⟩ os pre link target c.next rest := by
  obtain ⟨k, ps, hheld, hs, hlink, hpre, hd, -⟩ := hw.split hc
  obtain ⟨rest', hrest, hshow⟩ := (hs.shows _ mem_cons_self).uncons hd
  cases hrest
  have hleft := hs.unshare hd hmany
  have hnext := hshow.congr (cells_recount hd (c.count - 1))
  have hheld' := hheld.set (hheld.not_mem_of_some hd) (some { c with count := c.count - 1 })
  refine ⟨_, share_eq fun q hq => ?_, _, ps, hheld'.retain hnext, hleft.retain hnext,
    hlink, hpre⟩
  obtain ⟨e, he⟩ := hnext.exists_cell_of_eq hq
  exact ⟨e, hheld'.cells_of_some he⟩

omit hw hc

/-- **A tag that others use as well is replaced by a new one**, which takes the pointer. -/
theorem Walk.copy (hw : Walk l os pre link (some p) (some p) (c.value :: rest))
    (hc : l.heap.cells p = some c) (hmany : 1 < c.count) {a : PacketTag} (ha : TagLists.Small a) :
    ∃ h₁ q h₂ h₃ l', l.heap.decrement p = .ok h₁ ∧ h₁.createTagData c.next a = .ok (q, h₂) ∧
      share h₂ c.next = .ok h₃ ∧
      PacketTagList.setLink ⟨l.next, h₃⟩ link (some q) = .ok l' ∧
      Walk l' os (pre ++ [a]) (.next q) c.next c.next rest ∧
      ∀ n d, c.next = some n → l'.heap.cells n = some d → 1 < d.count := by
  obtain ⟨k, ps, hheld, hs, hlink, hpre, hd, -⟩ := hw.split hc
  obtain ⟨rest', hrest, hshow⟩ := (hs.shows _ mem_cons_self).uncons hd
  cases hrest
  -- the tag is left to the others, and there is room for a new one
  obtain ⟨k₁, hk₁⟩ : ∃ k₁ : TagHeap, k₁ = { k with
    cells := (k.set p (some { c with count := c.count - 1 })).cells
    top := k.top + 1 } := ⟨_, rfl⟩
  obtain ⟨h₁, hh₁⟩ : ∃ h₁ : TagHeap, h₁ = { l.heap with
    cells := (l.heap.set p (some { c with count := c.count - 1 })).cells
    top := l.heap.top + 1 } := ⟨_, rfl⟩
  have hleft : Sound k₁ os := by
    rw [hk₁]
    exact (hs.unshare hd hmany).grow
  have hheld₁ : Held k₁ h₁ ps l.next (some p) := by
    rw [hk₁, hh₁]
    exact (hheld.set (hheld.not_mem_of_some hd) (some { c with count := c.count - 1 })).grow
  have hnext : Spells k₁ c.next rest := by
    rw [hk₁]
    exact hshow.congr (cells_recount hd (c.count - 1))
  have hp₁ : k₁.cells p = some { c with count := c.count - 1 } := by
    rw [hk₁]
    exact k.cells_set_self _ _
  -- the place for the new tag
  have hwhole := hheld.attach hs
  have htop := hheld.top_eq
  have hfree : h₁.cells l.heap.top = none := by
    have hne : l.heap.top ≠ p := fun heq => by
      have hnone := hwhole.cells_top
      rw [heq, hc] at hnone
      cases hnone
    rw [hh₁]
    exact (Heap.cells_set_of_ne _ _ hne).trans hwhole.cells_top
  have hfree' : k₁.cells l.heap.top = none := by
    cases hcell : k₁.cells l.heap.top with
    | none => rfl
    | some d =>
      have hsome := hheld₁.cells_of_some hcell
      rw [hfree] at hsome
      cases hsome
  have hne : c.next ≠ some l.heap.top := by
    intro heq
    obtain ⟨e, he⟩ := hnext.exists_cell_of_eq heq
    rw [hfree'] at he
    cases he
  -- what follows is shared, and the new tag is put before it
  have hsound := hleft.retain hnext
  have hheld₂ := hheld₁.retain hnext
  have hfree₂ : (k₁.retain c.next).cells l.heap.top = none :=
    (k₁.cells_retain_of_ne hne).trans hfree'
  have hlt : l.heap.top < (k₁.retain c.next).top := by
    rw [k₁.top_retain, hk₁, htop]
    exact Nat.lt_succ_self _
  have hpush := hsound.push hfree₂ hlt a
  have hnew : l.heap.top ∉ ps.map Prod.fst := hheld.not_mem_of_none hwhole.cells_top
  have hheld₃ := hheld₂.set hnew (some ⟨c.next, 1, a⟩)
  rw [← h₁.retain_set hne] at hheld₃
  have hwalk : Walk ⟨l.next, Heap.retain (h₁.set l.heap.top (some ⟨c.next, 1, a⟩)) c.next⟩ os pre
      link (some p) (some l.heap.top) (a :: rest) := ⟨_, ps, hheld₃, hpush, hlink, hpre⟩
  obtain ⟨l', hset, hwalk', hframe⟩ := hwalk.setLink (some l.heap.top)
  have hcell : l'.heap.cells l.heap.top = some ⟨c.next, 1, a⟩ := by
    rw [hframe _ hwalk.link_ne, h₁.retain_set hne]
    exact Heap.cells_set_self _ _ _
  refine ⟨_, l.heap.top, _, _, l', decrement_eq hc, ?_, share_eq fun q hq => ?_,
    hset, hwalk'.pass hcell (lt_irrefl 1), fun n d hn hd' => ?_⟩
  · rw [hh₁]
    exact if_pos ha
  · obtain ⟨e, he⟩ := hnext.exists_cell_of_eq hq
    have hqt : q ≠ l.heap.top := fun heq => hne (hq.trans (congrArg some heq))
    exact ⟨e, (Heap.cells_set_of_ne _ _ hqt).trans (hheld₁.cells_of_some he)⟩
  · -- the tag that was left points to what follows, and so does the new one
    obtain ⟨e, he⟩ := (hsound.shows _ mem_cons_self).exists_cell_of_eq hn
    have hnt : n ≠ l.heap.top := fun heq => hne (hn.trans (congrArg some heq))
    have hlinkn : link ≠ .next n := by
      rw [hlink]
      exact linkOf_ne (hheld₂.not_mem_of_some he)
    rw [hframe n hlinkn, h₁.retain_set hne] at hd'
    have hsame := (Heap.cells_set_of_ne _ _ hnt).symm.trans hd'
    rw [hheld₂.cells_of_some he] at hsame
    cases hsame
    have hnp : c.next ≠ some p := by
      intro heq
      refine (hs.shows _ mem_cons_self).not_reaches hd ?_
      rw [heq]
      exact Reaches.here p
    exact hsound.one_lt_count hn he ((k₁.cells_retain_of_ne hnp).trans hp₁) hn

/-- The walk has come to a tag; the type is none of those before it. -/
structure Stops (l : PacketTagList) (os : List (Option ℕ × List PacketTag)) (as : List PacketTag)
    (tid : BitVec 16) (link : TagLink) (p : ℕ) (c : TagData) (pre rest : List PacketTag) :
    Prop where
  walk : Walk l os pre link (some p) (some p) (c.value :: rest)
  cell : l.heap.cells p = some c
  eq : as = pre ++ c.value :: rest
  before : ∀ x ∈ pre, x.tid ≠ tid

/-- **The first loop** goes to the end, to a tag that others use, or to the tag itself. -/
theorem search_cases (tid : BitVec 16) (hw : Walk l os pre link o o rest)
    (hbefore : ∀ x ∈ pre, x.tid ≠ tid) {fuel : ℕ} (hfuel : rest.length ≤ fuel) :
    (l.heap.search tid fuel link o = .ok .atEnd ∧ ∀ x ∈ pre ++ rest, x.tid ≠ tid) ∨
      ∃ link' p c pre' rest', Stops l os (pre ++ rest) tid link' p c pre' rest' ∧
        (l.heap.search tid fuel link o = .ok (.merge link' p) ∧ 1 < c.count ∨
          l.heap.search tid fuel link o = .ok (.found link' p) ∧ ¬ 1 < c.count ∧
            c.value.tid = tid) := by
  induction fuel generalizing pre link o rest with
  | zero =>
    have hnil : rest = [] := length_eq_zero_iff.mp (Nat.le_zero.mp hfuel)
    subst hnil
    cases o with
    | none =>
      refine .inl ⟨?_, fun x hx => hbefore x (by rwa [append_nil] at hx)⟩
      unfold search
      rfl
    | some p =>
      obtain ⟨c, rest', -, heq, -⟩ := hw.cell
      cases heq
  | succ fuel ih =>
    cases o with
    | none =>
      have hnil : rest = [] := by
        obtain ⟨k, ps, -, hs, -, -⟩ := hw
        exact (hs.shows _ mem_cons_self).unique Spells.nil
      subst hnil
      refine .inl ⟨?_, fun x hx => hbefore x (by rwa [append_nil] at hx)⟩
      unfold search
      rfl
    | some p =>
      obtain ⟨c, rest', hc, rfl, -⟩ := hw.cell
      have hstop : Stops l os (pre ++ c.value :: rest') tid link p c pre rest' :=
        ⟨hw, hc, rfl, hbefore⟩
      have hloop : l.heap.search tid (fuel + 1) link (some p) =
          if 1 < c.count then .ok (.merge link p) else
            if c.value.tid = tid then .ok (.found link p) else
              l.heap.search tid fuel (.next p) c.next := by
        show (l.heap.get p >>= _) = _
        rw [get_eq hc]
        rfl
      rw [hloop]
      by_cases hmany : 1 < c.count
      · rw [if_pos hmany]
        exact .inr ⟨link, p, c, pre, rest', hstop, .inl ⟨rfl, hmany⟩⟩
      · rw [if_neg hmany]
        by_cases htid : c.value.tid = tid
        · rw [if_pos htid]
          exact .inr ⟨link, p, c, pre, rest', hstop, .inr ⟨rfl, hmany, htid⟩⟩
        · rw [if_neg htid]
          have hbefore' : ∀ x ∈ pre ++ [c.value], x.tid ≠ tid := by
            intro x hx
            rcases mem_append.mp hx with hold | hnew
            · exact hbefore x hold
            · rw [mem_singleton.mp hnew]
              exact htid
          have hnext := ih (hw.pass hc hmany) hbefore' (Nat.le_of_succ_le_succ hfuel)
          rw [append_assoc] at hnext
          exact hnext

/-- **The second loop** copies what others use as well, and comes to the tag. -/
theorem copyDown_eq {as : List PacketTag} (hstop : Stops l os as tid link p c pre rest)
    (hmany : 1 < c.count) (hthere : ∃ x ∈ c.value :: rest, x.tid = tid)
    (hsmall : ∀ x ∈ c.value :: rest, TagLists.Small x) {fuel : ℕ}
    (hfuel : (c.value :: rest).length ≤ fuel) :
    ∃ l' link' p' c' pre' rest',
      copyDown tid fuel l link p = .ok (l', link', p') ∧
        Stops l' os as tid link' p' c' pre' rest' ∧ 1 < c'.count ∧ c'.value.tid = tid := by
  induction fuel generalizing l link p c pre rest with
  | zero => exact absurd hfuel (Nat.not_succ_le_zero _)
  | succ fuel ih =>
    by_cases htid : c.value.tid = tid
    · refine ⟨l, link, p, c, pre, rest, ?_, hstop, hmany, htid⟩
      unfold copyDown
      rw [get_eq hstop.cell, ok_bind, if_pos htid]
      rfl
    · obtain ⟨h₁, q, h₂, h₃, l', hdec, hcreate, hshare, hset, hwalk, hcount⟩ :=
        hstop.walk.copy hstop.cell hmany (hsmall _ mem_cons_self)
      -- the tag is further on, so there is a next one
      obtain ⟨x, hx, hxtid⟩ := hthere
      have hrest : x ∈ rest := by
        rcases mem_cons.mp hx with rfl | hx
        · exact absurd hxtid htid
        · exact hx
      cases hnext : c.next with
      | none =>
        rw [hnext] at hwalk
        obtain ⟨k, ps, -, hs, -, -⟩ := hwalk
        have hnil : rest = [] := (hs.shows _ mem_cons_self).unique Spells.nil
        rw [hnil] at hrest
        exact absurd hrest not_mem_nil
      | some n =>
        rw [hnext] at hwalk hshare
        obtain ⟨d, rest', hd, heq, -⟩ := hwalk.cell
        subst heq
        have hstop' : Stops l' os as tid (.next q) n d (pre ++ [c.value]) rest' := by
          refine ⟨hwalk, hd, ?_, fun y hy => ?_⟩
          · rw [append_assoc]
            exact hstop.eq
          · rcases mem_append.mp hy with hold | hnew
            · exact hstop.before y hold
            · rw [mem_singleton.mp hnew]
              exact htid
        obtain ⟨l'', link', p', c', pre', rest'', hloop, hend⟩ := ih hstop'
          (hcount n d hnext hd) ⟨x, hrest, hxtid⟩
          (fun y hy => hsmall y (mem_cons_of_mem _ hy)) (Nat.le_of_succ_le_succ hfuel)
        refine ⟨l'', link', p', c', pre', rest'', ?_, hend⟩
        unfold copyDown
        rw [get_eq hstop.cell, ok_bind, if_neg htid, if_neg (Nat.not_le.mpr hmany), hdec,
          ok_bind, hcreate, ok_bind]
        dsimp only
        rw [hnext]
        dsimp only
        have hshare' : h₂.increment n = .ok h₃ := hshare
        rw [hshare', ok_bind, hset, ok_bind]
        exact hloop

/-- **`COWTraverse`** does not find the tag, or gives it to the writer. -/
theorem cowTraverse_cases {as : List PacketTag} (hs : Sound l.heap ((l.next, as) :: os))
    (hsmall : ∀ x ∈ as, TagLists.Small x) (tid : BitVec 16) (writer : PacketTagList.COWWriter) :
    (l.cowTraverse tid writer = .ok (l, none) ∧ ∀ x ∈ as, x.tid ≠ tid) ∨
      ∃ l' preMerge link p c pre rest, Stops l' os as tid link p c pre rest ∧ c.value.tid = tid ∧
        l.cowTraverse tid writer = (writer preMerge l' link p).map (fun r => (r.1, some r.2)) ∧
        (preMerge = true ∧ ¬ 1 < c.count ∧
            TagLists.sizeInPlace l.heap l.next tid = some c.value.data.length ∨
          preMerge = false ∧ 1 < c.count) := by
  have hshow := hs.shows _ mem_cons_self
  have hlen := hs.length_le hshow
  unfold cowTraverse
  rcases search_cases tid (Walk.begin hs) (fun x hx => absurd hx not_mem_nil) hlen
    with ⟨hsearch, hno⟩ | ⟨link, p, c, pre, rest, hstop, ⟨hsearch, hmany⟩ | ⟨hsearch, hone, htid⟩⟩
  · left
    refine ⟨?_, hno⟩
    rw [hsearch]
    rfl
  · -- others use the tag at `p`
    rw [hsearch, ok_bind]
    dsimp only
    have hrest : Spells l.heap (some p) (c.value :: rest) := by
      obtain ⟨k, ps, hheld, hsk, -, -, hd, -⟩ := hstop.walk.split hstop.cell
      exact (hsk.shows _ mem_cons_self).congr fun q d hd =>
        ⟨d, hheld.cells_of_some hd, rfl, rfl⟩
    have hfuel := hs.length_le hrest
    rw [find_eq hrest tid hfuel, ok_bind]
    have hin : ∀ x ∈ c.value :: rest, x ∈ as := fun x hx => by
      rw [show as = pre ++ c.value :: rest from hstop.eq]
      exact mem_append_right _ hx
    cases hfind : (c.value :: rest).find? fun x => decide (x.tid = tid) with
    | none =>
      left
      refine ⟨rfl, fun x hx => ?_⟩
      rw [show as = pre ++ c.value :: rest from hstop.eq] at hx
      rcases mem_append.mp hx with hold | hnew
      · exact hstop.before x hold
      · exact of_decide_eq_false (Bool.eq_false_iff.mpr (List.find?_eq_none.mp hfind x hnew))
    | some x =>
      right
      have hxtid : decide (x.tid = tid) = true :=
        List.find?_some (p := fun y : PacketTag => decide (y.tid = tid)) hfind
      obtain ⟨l', link', p', c', pre', rest', hloop, hstop', hmany', htid'⟩ :=
        copyDown_eq hstop hmany ⟨x, mem_of_find?_eq_some hfind, of_decide_eq_true hxtid⟩
          (fun y hy => hsmall y (hin y hy)) hfuel
      refine ⟨l', false, link', p', c', pre', rest', hstop', htid', ?_, .inr ⟨rfl, hmany'⟩⟩
      dsimp only
      rw [hloop, ok_bind]
      dsimp only
      rw [get_eq hstop'.cell, ok_bind, if_neg (Nat.not_le.mpr hmany')]
      cases writer false l' link' p' <;> rfl
  · right
    refine ⟨l, true, link, p, c, pre, rest, hstop, htid, ?_, .inl ⟨rfl, hone, ?_⟩⟩
    · rw [hsearch, ok_bind]
      dsimp only
      cases writer true l link p <;> rfl
    · unfold TagLists.sizeInPlace
      rw [hsearch]
      dsimp only
      rw [hstop.cell]
      rfl

/-! ## The writers -/

/-- **`RemoveWriter`.** -/
theorem removeWriter_eq {as : List PacketTag} (hstop : Stops l os as tid link p c pre rest)
    {preMerge : Bool} (hmerge : preMerge = true ∧ ¬ 1 < c.count ∨ preMerge = false ∧ 1 < c.count) :
    ∃ l', removeWriter preMerge l link p = .ok (l', c.value) ∧
      Sound l'.heap ((l'.next, pre ++ rest) :: os) := by
  obtain ⟨l', hset, hwalk, hframe⟩ := hstop.walk.setLink c.next
  have hc : l'.heap.cells p = some c := (hframe p hstop.walk.link_ne).trans hstop.cell
  unfold removeWriter
  rw [get_eq hstop.cell, ok_bind, hset, ok_bind]
  rcases hmerge with ⟨rfl, hone⟩ | ⟨rfl, hmany⟩
  · refine ⟨_, ?_, (hwalk.free hc hone).done⟩
    rw [if_pos rfl, free_eq hc]
    rfl
  · obtain ⟨heap, hshare, hwalk'⟩ := hwalk.leave hc hmany
    refine ⟨⟨l'.next, heap⟩, ?_, hwalk'.done⟩
    rw [if_neg Bool.false_ne_true, decrement_eq hc, ok_bind, hshare]
    rfl

/-- **`ReplaceWriter`**, of a tag that is not too long: its octets come first in the new content. -/
theorem replaceWriter_eq {as : List PacketTag} (hstop : Stops l os as tid link p c pre rest)
    (hsmall : TagLists.Small c.value) {tag : PacketTag} (htag : TagLists.Small tag)
    (htid : c.value.tid = tag.tid) {preMerge : Bool}
    (hmerge : preMerge = true ∧ ¬ 1 < c.count ∧
      tag.data.length ≤ c.value.data.length ∨ preMerge = false ∧ 1 < c.count) :
    ∃ l' a, replaceWriter tag preMerge l link p = .ok (l', tag) ∧
      Sound l'.heap ((l'.next, pre ++ a :: rest) :: os) ∧ TagLists.Small a ∧ a.tid = tag.tid ∧
      tag.data <+: a.data := by
  unfold replaceWriter
  rw [get_eq hstop.cell, ok_bind]
  rcases hmerge with ⟨rfl, hone, hsize⟩ | ⟨rfl, hmany⟩
  · refine ⟨_, ⟨c.value.tid, tag.data ++ c.value.data.drop tag.data.length⟩, ?_,
      (hstop.walk.rewrite hstop.cell hone _).done, ?_, htid, prefix_append _ _⟩
    · rw [if_pos rfl, if_neg (Nat.not_lt.mpr hsize)]
      rfl
    · unfold TagLists.Small at hsmall ⊢
      dsimp only
      rw [length_append, length_drop]
      omega
  · obtain ⟨h₁, q, h₂, h₃, l', hdec, hcreate, hshare, hset, hwalk, -⟩ :=
      hstop.walk.copy hstop.cell hmany htag
    have hdone := hwalk.done
    rw [append_assoc] at hdone
    refine ⟨l', tag, ?_, hdone, htag, rfl, prefix_rfl⟩
    rw [if_neg Bool.false_ne_true, hdec, ok_bind, hcreate, ok_bind]
    dsimp only
    rw [hshare, ok_bind, hset]
    rfl

end Walks

/-! ## What the tags of a list say -/

/-- The tags are those of the map, and of different types. -/
structure Maps (ref : BitVec 16 → Option (List Octet)) (as : List PacketTag) : Prop where
  nodup : (as.map PacketTag.tid).Nodup
  small : ∀ x ∈ as, TagLists.Small x
  mem : ∀ t d, ref t = some d ↔ (⟨t, d⟩ : PacketTag) ∈ as

namespace Maps

variable {ref : BitVec 16 → Option (List Octet)} {as pre rest : List PacketTag} {a b : PacketTag}
  {t : BitVec 16}

theorem nil : Maps (fun _ => none) [] :=
  ⟨nodup_nil, fun x hx => absurd hx not_mem_nil, fun t d =>
    iff_of_false (by rintro ⟨⟩) not_mem_nil⟩

theorem perm (hm : Maps ref as) {as' : List PacketTag} (hperm : as'.Perm as) : Maps ref as' :=
  ⟨(hperm.map _).nodup_iff.mpr hm.nodup, fun x hx => hm.small x (hperm.subset hx),
    fun t d => (hm.mem t d).trans hperm.symm.mem_iff⟩

theorem eq_none (hm : Maps ref as) (ht : ∀ x ∈ as, x.tid ≠ t) : ref t = none := by
  cases hd : ref t with
  | none => rfl
  | some d => exact absurd rfl (ht _ ((hm.mem t d).mp hd))

theorem ne_of_eq_none (hm : Maps ref as) (ht : ref t = none) : ∀ x ∈ as, x.tid ≠ t := by
  rintro x hx rfl
  rw [(hm.mem x.tid x.data).mpr hx] at ht
  cases ht

/-- **Looking a type up.** -/
theorem find (hm : Maps ref as) (t : BitVec 16) :
    (as.find? fun x => decide (x.tid = t)).map PacketTag.data = ref t := by
  cases hfind : as.find? fun x => decide (x.tid = t) with
  | none =>
    refine (hm.eq_none fun x hx heq => ?_).symm
    exact List.find?_eq_none.mp hfind x hx (decide_eq_true heq)
  | some x =>
    have hx := mem_of_find?_eq_some hfind
    have ht : decide (x.tid = t) = true :=
      List.find?_some (p := fun y : PacketTag => decide (y.tid = t)) hfind
    rw [← of_decide_eq_true ht]
    exact ((hm.mem x.tid x.data).mpr hx).symm

/-- A new type comes in front. -/
theorem cons (hm : Maps ref as) (hb : TagLists.Small b) (hnew : ref b.tid = none) :
    Maps (update ref b.tid (some b.data)) (b :: as) := by
  have hne := hm.ne_of_eq_none hnew
  refine ⟨?_, fun x hx => ?_, fun t d => ?_⟩
  · rw [map_cons, nodup_cons]
    refine ⟨fun hmem => ?_, hm.nodup⟩
    obtain ⟨x, hx, heq⟩ := mem_map.mp hmem
    exact hne x hx heq
  · rcases mem_cons.mp hx with rfl | hx
    · exact hb
    · exact hm.small x hx
  · rw [update_apply, mem_cons]
    split
    · rename_i heq
      subst heq
      constructor
      · intro hd
        left
        cases hd
        rfl
      · rintro (heq | hmem)
        · rw [← heq]
        · exact absurd rfl (hne ⟨b.tid, d⟩ hmem)
    · rename_i hdiff
      rw [hm.mem t d]
      refine ⟨.inr, ?_⟩
      rintro (heq | hmem)
      · exact absurd (congrArg PacketTag.tid heq) hdiff
      · exact hmem

/-- The first type goes. -/
theorem of_cons (hm : Maps ref (a :: as)) : Maps (update ref a.tid none) as := by
  have hnodup := hm.nodup
  rw [map_cons, nodup_cons] at hnodup
  refine ⟨hnodup.2, fun x hx => hm.small x (mem_cons_of_mem _ hx), fun t d => ?_⟩
  rw [update_apply]
  split
  · rename_i heq
    subst heq
    exact iff_of_false (by rintro ⟨⟩) fun hmem => hnodup.1 (mem_map.mpr ⟨_, hmem, rfl⟩)
  · rename_i hdiff
    rw [hm.mem t d, mem_cons]
    refine ⟨?_, .inr⟩
    rintro (heq | hmem)
    · exact absurd (congrArg PacketTag.tid heq) hdiff
    · exact hmem

/-- **One type goes.** -/
theorem remove (hm : Maps ref (pre ++ a :: rest)) :
    Maps (update ref a.tid none) (pre ++ rest) :=
  (hm.perm perm_middle.symm).of_cons

/-- **One type gets another content.** -/
theorem replace (hm : Maps ref (pre ++ a :: rest)) (hb : TagLists.Small b) (htid : a.tid = b.tid) :
    Maps (update ref b.tid (some b.data)) (pre ++ b :: rest) := by
  have hrest := hm.remove
  rw [htid] at hrest
  have hcons := hrest.cons hb (update_self _ _ _)
  rw [update_idem] at hcons
  exact hcons.perm perm_middle

end Maps

/-! ## The operations -/

section Operations

variable {l : PacketTagList} {os : List (Option ℕ × List PacketTag)} {as : List PacketTag}
  {ref : BitVec 16 → Option (List Octet)}

variable (hs : Sound l.heap ((l.next, as) :: os)) (hm : Maps ref as)
include hs hm

/-- **`Peek`.** -/
theorem peek_eq (tid : BitVec 16) :
    ∃ tag, l.peek tid = .ok tag ∧ tag.map PacketTag.data = ref tid := by
  have hshow := hs.shows _ mem_cons_self
  exact ⟨_, find_eq hshow tid (hs.length_le hshow), hm.find tid⟩

/-- **`Add`.** -/
theorem add_eq {tag : PacketTag} (htag : TagLists.Small tag) (hnew : ref tag.tid = none) :
    ∃ l', l.add tag = .ok l' ∧ Sound l'.heap ((l'.next, tag :: as) :: os) ∧
      Maps (update ref tag.tid (some tag.data)) (tag :: as) := by
  have hshow := hs.shows _ mem_cons_self
  have hfind := find_eq hshow tag.tid (hs.length_le hshow)
  have hnone : as.find? (fun x => decide (x.tid = tag.tid)) = none := by
    refine List.find?_eq_none.mpr fun x hx htid => ?_
    exact hm.ne_of_eq_none hnew x hx (of_decide_eq_true htid)
  have hpush := hs.grow.push hs.cells_top (Nat.lt_succ_self _) tag
  refine ⟨⟨some l.heap.top, _⟩, ?_, hpush, hm.cons htag hnew⟩
  unfold add
  rw [hfind, ok_bind, hnone]
  dsimp only
  unfold createTagData
  rw [if_pos (show tag.data.length < 2 ^ 32 - 1 from htag)]
  rfl

/-- **`Remove`.** -/
theorem remove_eq (tid : BitVec 16) :
    ∃ l' tag as', l.remove tid = .ok (l', tag) ∧ tag.map PacketTag.data = ref tid ∧
      Sound l'.heap ((l'.next, as') :: os) ∧ Maps (update ref tid none) as' := by
  unfold remove
  rcases cowTraverse_cases hs hm.small tid removeWriter with
    ⟨hcow, hno⟩ | ⟨l₁, preMerge, link, p, c, pre, rest, hstop, htid, hcow, hmerge⟩
  · have hnone := hm.eq_none hno
    refine ⟨l, none, as, hcow, hnone.symm, hs, ?_⟩
    rw [update_eq_self_iff.mpr hnone.symm]
    exact hm
  · obtain ⟨l', hwrite, hsound⟩ := removeWriter_eq hstop (hmerge.imp (fun h => ⟨h.1, h.2.1⟩) id)
    rw [hstop.eq] at hm
    refine ⟨l', some c.value, pre ++ rest, ?_, ?_, hsound, htid ▸ hm.remove⟩
    · rw [hcow, hwrite]
      rfl
    · rw [← htid]
      exact ((hm.mem c.value.tid c.value.data).mpr
        (mem_append_right _ mem_cons_self)).symm

/-- **`Replace`**, where there is room in place. -/
theorem replace_eq {tag : PacketTag} (htag : TagLists.Small tag)
    (hfits : ∀ n, TagLists.sizeInPlace l.heap l.next tag.tid = some n → tag.data.length ≤ n) :
    ∃ l' as' data, l.replace tag = .ok (l', (ref tag.tid).isSome) ∧
      Sound l'.heap ((l'.next, as') :: os) ∧ tag.data <+: data ∧
      Maps (update ref tag.tid (some data)) as' := by
  unfold PacketTagList.replace
  rcases cowTraverse_cases hs hm.small tag.tid (PacketTagList.replaceWriter tag) with
    ⟨hcow, hno⟩ | ⟨l₁, preMerge, link, p, c, pre, rest, hstop, htid, hcow, hmerge⟩
  · have hnone := hm.eq_none hno
    obtain ⟨l', hadd, hsound, hm'⟩ := add_eq hs hm htag hnone
    refine ⟨l', tag :: as, tag.data, ?_, hsound, prefix_rfl, hm'⟩
    rw [hcow, ok_bind]
    dsimp only
    rw [hadd, hnone]
    rfl
  · rw [hstop.eq] at hm
    have hmem : c.value ∈ pre ++ c.value :: rest := mem_append_right _ mem_cons_self
    obtain ⟨l', a, hwrite, hsound, ha, hatid, hprefix⟩ :=
      replaceWriter_eq hstop (hm.small _ hmem) htag htid
        (hmerge.imp (fun h => ⟨h.1, h.2.1, hfits _ h.2.2⟩) id)
    refine ⟨l', pre ++ a :: rest, a.data, ?_, hsound, hprefix,
      hatid ▸ hm.replace ha (htid.trans hatid.symm)⟩
    rw [hcow, hwrite, ← htid, (hm.mem c.value.tid c.value.data).mpr hmem]
    rfl

omit hs hm

/-- The tag that `RemoveAll` has gone past is still to be freed. -/
def Pending (h k : TagHeap) : Option ℕ → Prop
  | none => k = h
  | some q => (∃ c, h.cells q = some c) ∧ k = h.set q none

variable {h k : TagHeap}

theorem Pending.free {prev : Option ℕ} (hp : Pending h k prev) :
    h.free prev = .ok k := by
  cases prev with
  | none => exact congrArg Except.ok (Eq.symm hp)
  | some q =>
    obtain ⟨⟨c, hc⟩, rfl⟩ := hp
    exact free_eq hc

theorem Pending.set {prev : Option ℕ} (hp : Pending h k prev) {p : ℕ} {c : TagData}
    (hc : k.cells p = some c) (c' : TagData) :
    h.cells p = some c ∧ Pending (h.set p (some c')) (k.set p (some c')) prev := by
  cases prev with
  | none =>
    cases hp
    exact ⟨hc, rfl⟩
  | some q =>
    obtain ⟨⟨d, hd⟩, rfl⟩ := hp
    rw [Heap.cells_set] at hc
    split at hc
    · cases hc
    · rename_i hne
      refine ⟨hc, ⟨d, (Heap.cells_set_of_ne _ _ (Ne.symm hne)).trans hd⟩, ?_⟩
      exact Heap.set_comm _ (Ne.symm hne) _ _

/-- **The loop of `RemoveAll`.** -/
theorem removeAllFrom_eq {fuel : ℕ} {prev cur : Option ℕ} (hp : Pending h k prev)
    (hs : Sound k ((cur, as) :: os)) (hfuel : as.length ≤ fuel) :
    ∃ h', removeAllFrom fuel h prev cur = .ok h' ∧ Sound h' os := by
  induction fuel generalizing h k prev cur as with
  | zero =>
    have hnil : as = [] := length_eq_zero_iff.mp (Nat.le_zero.mp hfuel)
    subst hnil
    have hshow := hs.shows _ mem_cons_self
    dsimp only at hshow
    cases hshow with
    | nil =>
      refine ⟨k, ?_, hs.of_cons_none⟩
      unfold removeAllFrom
      exact hp.free
  | succ fuel ih =>
    cases cur with
    | none =>
      refine ⟨k, ?_, hs.of_cons_none⟩
      unfold removeAllFrom
      exact hp.free
    | some p =>
      have hshow := hs.shows _ mem_cons_self
      obtain ⟨c, hc⟩ := hshow.exists_cell
      have hpos := hs.count_pos hc
      obtain ⟨hc', hp'⟩ := hp.set hc { c with count := c.count - 1 }
      have hloop : removeAllFrom (fuel + 1) h prev (some p) =
          if 0 < c.count - 1 then .ok (k.set p (some { c with count := c.count - 1 })) else
            removeAllFrom fuel (k.set p (some { c with count := c.count - 1 }))
              (some p) c.next := by
        show (h.decrement p >>= _) = _
        rw [decrement_eq hc', ok_bind, get_eq (Heap.cells_set_self _ _ _), ok_bind,
          hp'.free]
        rfl
      rw [hloop]
      by_cases hmany : 0 < c.count - 1
      · rw [if_pos hmany]
        exact ⟨_, rfl, hs.unshare hc (by omega)⟩
      · rw [if_neg hmany]
        obtain ⟨as', rfl, hpop⟩ := hs.pop hc (by omega)
        refine ih ⟨⟨_, Heap.cells_set_self _ _ _⟩, ?_⟩ hpop (Nat.le_of_succ_le_succ hfuel)
        rw [Heap.set_set]

/-- **`RemoveAll`.** -/
theorem removeAll_eq (hs : Sound l.heap ((l.next, as) :: os)) :
    ∃ heap, l.removeAll = .ok ⟨none, heap⟩ ∧ Sound heap os := by
  have hlen := hs.length_le (hs.shows _ mem_cons_self)
  obtain ⟨heap, hloop, hsound⟩ :=
    removeAllFrom_eq (show Pending l.heap l.heap none from rfl) hs hlen
  refine ⟨heap, ?_, hsound⟩
  unfold PacketTagList.removeAll
  rw [hloop]
  rfl

/-- **The copy constructor.** -/
theorem copy_eq {h : TagHeap} {o : Option ℕ} (hs : Sound h os) (ho : Spells h o as) :
    ∃ l', copy h o = .ok l' ∧ Sound l'.heap ((l'.next, as) :: os) := by
  refine ⟨⟨o, Heap.retain h o⟩, ?_, hs.retain ho⟩
  unfold copy
  rw [share_eq fun p hp => ho.exists_cell_of_eq hp]
  rfl

end Operations

/-! ## All lists -/

namespace TagLists

/-- A list as a root, with the tags that it shows. -/
def root (x : TagMap × List PacketTag) : Option ℕ × List PacketTag := (x.1.next, x.2)

/-- The tags hold, for each type, octets that begin with those of the map. -/
def Holds (ref : BitVec 16 → Option (List Octet)) (as : List PacketTag) : Prop :=
  ∃ held, Maps held as ∧ ∀ t, Option.Rel (fun d d' => d <+: d') (ref t) (held t)

theorem holds_nil : Holds (fun _ => none) [] := ⟨_, Maps.nil, fun _ => .none⟩

/-- What is found is what the map says. -/
theorem reads_of_map {written held : Option (List Octet)} {tag : Option PacketTag}
    (h : Option.Rel (fun d d' => d <+: d') written held) (htag : tag.map PacketTag.data = held) :
    Reads written tag := by
  cases h with
  | none =>
    rw [Option.map_eq_none_iff.mp htag]
    exact .none
  | some hprefix =>
    obtain ⟨t, rfl, rfl⟩ := Option.map_eq_some_iff.mp htag
    exact .some hprefix

theorem isSome_eq_of_rel {written held : Option (List Octet)}
    (h : Option.Rel (fun d d' => d <+: d') written held) : written.isSome = held.isSome := by
  cases h with
  | none => rfl
  | some => rfl

/-- One type changes in both maps. -/
theorem rel_update {ref held : BitVec 16 → Option (List Octet)}
    (h : ∀ t, Option.Rel (fun d d' => d <+: d') (ref t) (held t)) (tid : BitVec 16)
    {d d' : Option (List Octet)} (hd : Option.Rel (fun d d' => d <+: d') d d') (t : BitVec 16) :
    Option.Rel (fun d d' => d <+: d') (update ref tid d t)
      (update held tid d' t) := by
  rw [update_apply, update_apply]
  split
  · exact hd
  · exact h t

/-- The lists show tags, these are those of their maps, and the counts are right. -/
structure Inv (w : TagLists) (vs : List (Option (TagMap × List PacketTag))) : Prop where
  slots : w.slots = vs.map (Option.map Prod.fst)
  sound : Sound w.heap (values root vs)
  maps : ∀ b x, Slots.slot vs b = some x → Holds x.1.ref x.2

theorem inv_start : start.Inv [] := by
  refine ⟨rfl, ⟨fun p c hc => ?_, fun r hr => absurd hr not_mem_nil, fun p c hc => ?_,
    fun p c hc => ?_⟩, fun b x hb => ?_⟩
  · cases hc
  · cases hc
  · cases hc
  · cases hb

variable {w : TagLists} {vs : List (Option (TagMap × List PacketTag))} {b : ℕ}

theorem withSlot_eq {l : TagMap} (hb : w.slot b = some l)
    (f : PacketTagList → (BitVec 16 → Option (List Octet)) → Except Fault TagLists) :
    w.withSlot b f = f ⟨l.next, w.heap⟩ l.ref := by
  unfold withSlot
  rw [hb]

namespace Inv

variable (h : w.Inv vs)
include h

/-- A list that is there, with its tags. -/
theorem exists_tags {l : TagMap} (hb : w.slot b = some l) :
    ∃ as, Slots.slot vs b = some (l, as) := by
  unfold slot at hb
  rw [h.slots, Slots.slot_map] at hb
  obtain ⟨x, hx, heq⟩ := Option.map_eq_some_iff.mp hb
  exact ⟨x.2, by rw [hx, ← heq]⟩

theorem pointers_eq : w.pointers = (values root vs).map Prod.fst := by
  unfold pointers
  rw [h.slots, values_map, map_values]
  rfl

variable {as : List PacketTag}

/-- **One list changes**, and with it the heap. -/
theorem setSlot {x : TagMap × List PacketTag} (hb : Slots.slot vs b = some x) {l : PacketTagList}
    {ref : BitVec 16 → Option (List Octet)}
    (hs : Sound l.heap ((l.next, as) :: Slots.others root vs b)) (hm : Holds ref as) :
    ∃ vs, (w.setSlot b l ref).Inv vs := by
  refine ⟨vs.set b (some (⟨l.next, ref⟩, as)), ?_, hs.perm (Slots.values_set root hb _),
    fun b' y hy => ?_⟩
  · unfold TagLists.setSlot
    rw [h.slots, map_set]
    rfl
  · by_cases heq : b' = b
    · subst heq
      rw [slot_set_self hb] at hy
      cases hy
      exact hm
    · rw [slot_set_of_ne heq] at hy
      exact h.maps b' y hy

theorem addSlot {l : PacketTagList} {ref : BitVec 16 → Option (List Octet)}
    (hs : Sound l.heap ((l.next, as) :: values root vs)) (hm : Holds ref as) :
    ∃ vs, (w.addSlot l ref).Inv vs := by
  refine ⟨vs ++ [some (⟨l.next, ref⟩, as)], ?_, hs.perm (values_append root _),
    fun b' y hy => ?_⟩
  · unfold TagLists.addSlot
    rw [h.slots, map_append]
    rfl
  · rcases Slots.slot_append hy with hold | ⟨-, rfl⟩
    · exact h.maps b' y hold
    · exact hm

theorem destroy {x : TagMap × List PacketTag} (hb : Slots.slot vs b = some x) {heap : TagHeap}
    (hs : Sound heap (Slots.others root vs b)) :
    ∃ vs, (⟨heap, w.slots.set b none⟩ : TagLists).Inv vs := by
  refine ⟨vs.set b none, ?_, hs.perm (Slots.values_set_none root hb), fun b' y hy => ?_⟩
  · rw [h.slots, map_set]
    rfl
  · by_cases heq : b' = b
    · subst heq
      rw [slot_set_self hb] at hy
      cases hy
    · rw [slot_set_of_ne heq] at hy
      exact h.maps b' y hy

/-- The tags of one list, and those of the others. -/
theorem split {l : TagMap} (hb : Slots.slot vs b = some (l, as)) :
    Sound w.heap ((l.next, as) :: Slots.others root vs b) :=
  h.sound.perm (Slots.values_perm root hb).symm

/-- **Assignment.** -/
theorem assign {o : ℕ} {l l' : TagMap} (hb : w.slot b = some l) (ho : w.slot o = some l') :
    ∃ w' vs', w.step (.assign b o) = .ok w' ∧ w'.Inv vs' := by
  obtain ⟨as, has⟩ := h.exists_tags hb
  obtain ⟨as', has'⟩ := h.exists_tags ho
  have hsplit := h.split has
  have hstep : w.step (.assign b o) =
      (PacketTagList.assign ⟨l.next, w.heap⟩ l'.next).map fun r => w.setSlot b r l'.ref := by
    unfold TagLists.step
    dsimp only
    rw [withSlot_eq hb, withSlot_eq ho]
  rw [hstep]
  unfold PacketTagList.assign
  by_cases heq : l.next = l'.next
  · -- the same pointer shows the same tags
    rw [if_pos heq]
    have hshow : Spells w.heap l.next as := h.sound.shows _ (mem_values root has)
    have hshow' : Spells w.heap l'.next as' := h.sound.shows _ (mem_values root has')
    rw [← heq] at hshow'
    have hm := h.maps o _ has'
    rw [hshow'.unique hshow] at hm
    obtain ⟨vs', hinv⟩ := h.setSlot has (l := ⟨l.next, w.heap⟩) hsplit hm
    exact ⟨_, vs', rfl, hinv⟩
  · rw [if_neg heq]
    have hne : o ≠ b := fun hob => by
      rw [hob, hb] at ho
      cases ho
      exact heq rfl
    obtain ⟨heap, hall, hsound⟩ := removeAll_eq (l := ⟨l.next, w.heap⟩) hsplit
    have hshow' : Spells heap l'.next as' := hsound.shows _ (mem_others root has' hne)
    obtain ⟨r, hcopy, hsound'⟩ := copy_eq hsound hshow'
    obtain ⟨vs', hinv⟩ := h.setSlot has hsound' (h.maps o _ has')
    refine ⟨_, vs', ?_, hinv⟩
    rw [hall, ok_bind]
    dsimp only
    rw [hcopy]
    rfl

/-- **Every operation goes through and keeps the invariant.** -/
theorem exists_step (c : TagCall) (henabled : w.Enabled c) (hfits : w.FitsInPlace c) :
    ∃ w' vs', w.step c = .ok w' ∧ w'.Inv vs' := by
  cases c with
  | construct =>
    obtain ⟨vs', hinv⟩ := h.addSlot (l := ⟨none, w.heap⟩) h.sound.cons_nil holds_nil
    exact ⟨_, vs', rfl, hinv⟩
  | copy o =>
    obtain ⟨l, ho⟩ := henabled
    obtain ⟨as, has⟩ := h.exists_tags ho
    obtain ⟨l', hcopy, hsound⟩ := copy_eq h.sound (h.sound.shows _ (mem_values root has))
    obtain ⟨vs', hinv⟩ := h.addSlot hsound (h.maps o _ has)
    refine ⟨_, vs', ?_, hinv⟩
    have hcopy' : copy w.heap l.next = .ok l' := hcopy
    unfold TagLists.step
    dsimp only
    rw [withSlot_eq ho, hcopy']
    rfl
  | assign b o =>
    obtain ⟨⟨l, hb⟩, l', ho⟩ := henabled
    exact h.assign hb ho
  | destroy b =>
    obtain ⟨l, hb⟩ := henabled
    obtain ⟨as, has⟩ := h.exists_tags hb
    obtain ⟨heap, hall, hsound⟩ := removeAll_eq (l := ⟨l.next, w.heap⟩) (h.split has)
    obtain ⟨vs', hinv⟩ := h.destroy has hsound
    refine ⟨_, vs', ?_, hinv⟩
    unfold TagLists.step
    dsimp only
    rw [withSlot_eq hb, hall]
    rfl
  | add b tag =>
    obtain ⟨htag, l, hb, hnew⟩ := henabled
    obtain ⟨as, has⟩ := h.exists_tags hb
    obtain ⟨held, hheld, hrel⟩ := h.maps b _ has
    have hfree : held tag.tid = none := by
      rw [← Option.isNone_iff_eq_none, ← Option.not_isSome, ← isSome_eq_of_rel (hrel tag.tid),
        show l.ref tag.tid = none from hnew]
      rfl
    obtain ⟨l', hadd, hsound, hm⟩ :=
      add_eq (l := ⟨l.next, w.heap⟩) (h.split has) hheld htag hfree
    obtain ⟨vs', hinv⟩ :=
      h.setSlot has hsound ⟨_, hm, rel_update hrel tag.tid (.some prefix_rfl)⟩
    refine ⟨_, vs', ?_, hinv⟩
    unfold TagLists.step
    dsimp only
    rw [withSlot_eq hb, hadd]
    rfl
  | remove b tid =>
    obtain ⟨l, hb⟩ := henabled
    obtain ⟨as, has⟩ := h.exists_tags hb
    obtain ⟨held, hheld, hrel⟩ := h.maps b _ has
    obtain ⟨l', tag, as', hremove, -, hsound, hm⟩ :=
      remove_eq (l := ⟨l.next, w.heap⟩) (h.split has) hheld tid
    obtain ⟨vs', hinv⟩ := h.setSlot has hsound ⟨_, hm, rel_update hrel tid .none⟩
    refine ⟨_, vs', ?_, hinv⟩
    unfold TagLists.step
    dsimp only
    rw [withSlot_eq hb, hremove]
    rfl
  | replace b tag =>
    obtain ⟨htag, l, hb⟩ := henabled
    obtain ⟨as, has⟩ := h.exists_tags hb
    obtain ⟨held, hheld, hrel⟩ := h.maps b _ has
    obtain ⟨l', as', data, hreplace, hsound, hprefix, hm⟩ :=
      replace_eq (l := ⟨l.next, w.heap⟩) (h.split has) hheld htag (hfits l hb)
    obtain ⟨vs', hinv⟩ := h.setSlot has hsound ⟨_, hm, rel_update hrel tag.tid (.some hprefix)⟩
    refine ⟨_, vs', ?_, hinv⟩
    unfold TagLists.step
    dsimp only
    rw [withSlot_eq hb, hreplace]
    rfl
  | removeAll b =>
    obtain ⟨l, hb⟩ := henabled
    obtain ⟨as, has⟩ := h.exists_tags hb
    obtain ⟨heap, hall, hsound⟩ := removeAll_eq (l := ⟨l.next, w.heap⟩) (h.split has)
    obtain ⟨vs', hinv⟩ := h.setSlot has (l := ⟨none, heap⟩) hsound.cons_nil holds_nil
    refine ⟨_, vs', ?_, hinv⟩
    unfold TagLists.step
    dsimp only
    rw [withSlot_eq hb, hall]
    rfl

/-- **What the invariant promises.** -/
theorem isolated : w.Isolated := by
  have hpointers := h.pointers_eq
  refine ⟨fun b l hb tid => ?_, fun b l hb tid => ?_, fun b l hb tag htag hfits => ?_,
    fun p c hc => ?_, fun o ho p hp => ?_, fun p c hc => ?_, fun c henabled hfits => ?_⟩
  · obtain ⟨as, has⟩ := h.exists_tags hb
    obtain ⟨held, hheld, hrel⟩ := h.maps b _ has
    obtain ⟨tag, hpeek, htag⟩ := peek_eq (l := ⟨l.next, w.heap⟩) (h.split has) hheld tid
    exact ⟨tag, hpeek, reads_of_map (hrel tid) htag⟩
  · obtain ⟨as, has⟩ := h.exists_tags hb
    obtain ⟨held, hheld, hrel⟩ := h.maps b _ has
    obtain ⟨l', tag, -, hremove, htag, -⟩ :=
      remove_eq (l := ⟨l.next, w.heap⟩) (h.split has) hheld tid
    exact ⟨l', tag, hremove, reads_of_map (hrel tid) htag⟩
  · obtain ⟨as, has⟩ := h.exists_tags hb
    obtain ⟨held, hheld, hrel⟩ := h.maps b _ has
    obtain ⟨l', -, -, hreplace, -⟩ :=
      replace_eq (l := ⟨l.next, w.heap⟩) (h.split has) hheld htag (hfits l hb)
    refine ⟨l', ?_⟩
    rw [hreplace, isSome_eq_of_rel (hrel tag.tid)]
  · rw [h.sound.count p c hc, hpointers]
    unfold RefCount.refs
    rw [countP_map]
    rfl
  · rcases ho with hlist | ⟨q, c, hc, hnext⟩
    · rw [hpointers] at hlist
      obtain ⟨r, hr, hro⟩ := mem_map.mp hlist
      exact (h.sound.shows r hr).exists_cell_of_eq (hro.trans hp)
    · obtain ⟨r, hr, hreach⟩ := h.sound.reached q c hc
      obtain ⟨as, hshow, -⟩ := (h.sound.shows r hr).suffix hreach
      obtain ⟨as', -, hshow'⟩ := hshow.uncons hc
      exact hshow'.exists_cell_of_eq (hnext.trans hp)
  · obtain ⟨r, hr, hreach⟩ := h.sound.reached p c hc
    refine ⟨r.1, ?_, hreach⟩
    rw [hpointers]
    exact mem_map.mpr ⟨r, hr, rfl⟩
  · obtain ⟨w', -, hstep, -⟩ := h.exists_step c henabled hfits.2
    exact ⟨w', hstep⟩

end Inv

/-- Every state that a run reaches keeps the invariant. -/
theorem inv_of_run {is : List TagCall} (hrun : machine.Run Fits start is w) : ∃ vs, w.Inv vs := by
  refine hrun.invariant (fun w => ∃ vs, w.Inv vs) (fun w c h henabled hfits => ?_) ⟨[], inv_start⟩
  obtain ⟨vs, h⟩ := h
  obtain ⟨w', vs', hstep, hinv⟩ := h.exists_step c henabled hfits.2
  have hstep' : machine.step w c = .ok w' := hstep
  rw [hstep']
  exact ⟨vs', hinv⟩

/-- **Packet-tag lists are isolated maps.**  In a run in which `Replace` has room for what it writes
over another tag, each list shows what its map says, whatever is done to the others; the counts are the
numbers of pointers, nothing is freed while a pointer leads to it, and nothing is left over. -/
theorem isolatedTags_of_run (is : List TagCall) (w : TagLists)
    (hrun : machine.Run Fits start is w) : w.Isolated := by
  obtain ⟨vs, h⟩ := inv_of_run hrun
  exact h.isolated

instance (w : TagLists) (b : ℕ) (P : TagMap → Prop) [DecidablePred P] :
    Decidable (∃ l, w.slot b = some l ∧ P l) :=
  inferInstanceAs (Decidable (∃ l ∈ w.slot b, P l))

instance (w : TagLists) (b : ℕ) : Decidable (∃ l, w.slot b = some l) :=
  decidable_of_iff ((w.slot b).isSome = true) Option.isSome_iff_exists

instance (tag : PacketTag) : Decidable (Small tag) := inferInstanceAs (Decidable (_ < _))

instance (w : TagLists) (c : TagCall) : Decidable (machine.enabled w c) := by
  cases c <;> dsimp only [machine, Enabled] <;> infer_instance

instance (w : TagLists) : (c : TagCall) → Decidable (w.FitsInPlace c)
  | .replace b tag => inferInstanceAs (Decidable (∀ l ∈ w.slot b,
    ∀ n ∈ sizeInPlace w.heap l.next tag.tid, tag.data.length ≤ n))
  | .construct | .copy _ | .assign _ _ | .destroy _ | .add _ _ | .remove _ _ | .removeAll _ =>
    inferInstanceAs (Decidable True)

instance (h : TagHeap) : Decidable h.Countable :=
  inferInstanceAs (Decidable (∀ p < h.top, ∀ c ∈ h.cells p, c.count < 2 ^ 32 - 1))

instance (w : TagLists) (c : TagCall) : Decidable (w.Fits c) :=
  inferInstanceAs (Decidable (_ ∧ _))

/-- Lists that share their tags; one removes the deepest, another replaces it, and a tag becomes
shorter in place. -/
def sharedCalls : List TagCall :=
  [.construct, .add 0 ⟨1, [1]⟩, .add 0 ⟨2, [2, 2]⟩, .copy 0, .add 1 ⟨3, []⟩, .remove 0 1, .copy 1,
    .replace 1 ⟨1, [9, 9]⟩, .remove 2 2, .assign 0 1, .destroy 1, .replace 2 ⟨4, [4]⟩,
    .replace 0 ⟨2, [5]⟩]

theorem isolatedTags_of_run_sample : ∃ w, machine.Run Fits start sharedCalls w ∧
      w.slots.map (fun o => o.map fun l => [1, 2, 3, 4].map l.ref) =
        [some [some [9, 9], some [5], some [], none], none,
          some [some [1], none, some [], some [4]]] ∧ w.Isolated := by
  obtain ⟨w, hrun, htest⟩ := Machine.exists_run_of_exec (m := machine)
    (fun w c => decide (Fits w c))
    (fun w => decide (w.slots.map (fun o => o.map fun l => [1, 2, 3, 4].map l.ref) =
        [some [some [9, 9], some [5], some [], none], none,
          some [some [1], none, some [], some [4]]]))
    start sharedCalls (by decide +kernel)
  have hfits := hrun.mono fun w i hi => of_decide_eq_true hi
  exact ⟨w, hfits, of_decide_eq_true htest, isolatedTags_of_run _ w hfits⟩

/-- A tag is replaced by a longer one, which does not go through. -/
theorem not_isolatedTags_of_run :
    ¬ ∀ (is : List TagCall) (w : TagLists), machine.Run (fun _ _ => True) start is w →
      ∀ c, machine.enabled w c → ∃ w', w.step c = .ok w' := by
  intro hprogress
  obtain ⟨w, hrun, htest⟩ := Machine.exists_run_of_exec (m := machine) (fun _ _ => true)
    (fun w => decide (machine.enabled w (.replace 0 ⟨1, [2, 3]⟩)) &&
      !(w.step (.replace 0 ⟨1, [2, 3]⟩)).isOk) start [.construct, .add 0 ⟨1, [1]⟩]
    (by decide +kernel)
  obtain ⟨henabled, hfails⟩ := Bool.and_eq_true_iff.mp htest
  obtain ⟨w', hstep⟩ :=
    hprogress _ w (hrun.mono fun _ _ _ => trivial) _ (of_decide_eq_true henabled)
  rw [hstep] at hfails
  cases hfails

end TagLists

end Ns3Dsme.Network
