/-
# The receive buffer in terms of positions

The packets in the map are parts of the stream, from one position to another.  Each loop of the
buffer does to their sequence numbers what the list of intervals does to the positions, as long as
these are less than half the sequence space apart.
-/
import Ns3Dsme.Internet.TcpRxBuffer
import Ns3Dsme.Lib.BlockList
import Ns3Dsme.Lib.Intervals

open Bool List Program Intervals

namespace Ns3Dsme.Internet

open BlockList TcpRxBuffer Network SequenceNumber32

namespace ByteStream

variable (c : ByteStream)

/-- The packet from one position to another, with its sequence number. -/
def packet (p : ℕ × ℕ) : SequenceNumber32 × List Octet := (c.seq p.1, c.slice p.1 p.2)

/-- A block of the SACK list from one position to another. -/
def block (p : ℕ × ℕ) : SackBlock := (c.seq p.1, c.seq p.2)

/-- All positions lie in half the sequence space from `z` on, and inside the stream. -/
def Inside (z : ℕ) (ps : List (ℕ × ℕ)) : Prop :=
  ∀ p ∈ ps, z ≤ p.1 ∧ p.1 < p.2 ∧ p.2 < z + 2 ^ 31 ∧ p.2 ≤ c.octets.length

variable {c} {z h t n k : ℕ} {p q : ℕ × ℕ} {ps sb : List (ℕ × ℕ)}

theorem near_of_mem {x y : ℕ} (hx : z ≤ x ∧ x < z + 2 ^ 31) (hy : z ≤ y ∧ y < z + 2 ^ 31) :
    Near x y := ⟨by omega, by omega⟩

theorem length_slice (hp : p.1 < p.2) (hlen : p.2 ≤ c.octets.length) :
    (c.slice p.1 p.2).length = p.2 - p.1 := by
  unfold slice
  rw [length_take, length_drop]
  omega

theorem slice_append {x y z : ℕ} (hxy : x ≤ y) (hyz : y ≤ z) :
    c.slice x y ++ c.slice y z = c.slice x z := by
  unfold slice
  obtain ⟨m, rfl⟩ := Nat.exists_eq_add_of_le hxy
  obtain ⟨n, rfl⟩ := Nat.exists_eq_add_of_le hyz
  rw [Nat.add_sub_cancel_left, Nat.add_sub_cancel_left, Nat.add_assoc, Nat.add_sub_cancel_left,
    ← drop_drop, take_add]

/-- A part of a part. -/
theorem slice_slice {x y u v : ℕ} (hxu : x ≤ u) (hvy : v ≤ y) :
    ((c.slice x y).drop (u - x)).take (v - u) = c.slice u v := by
  unfold slice
  obtain ⟨m, rfl⟩ := Nat.exists_eq_add_of_le hxu
  rw [Nat.add_sub_cancel_left, drop_take, drop_drop, take_take]
  congr 1
  omega

theorem getElem?_slice {x i : ℕ} (hx : p.1 ≤ x) (hx' : x < p.2) (hi : i = x - p.1) :
    (c.slice p.1 p.2)[i]? = c.octets[x]? := by
  unfold slice
  rw [List.getElem?_take_of_lt (by omega), List.getElem?_drop]
  congr 1
  omega

theorem seq_plus (x n : ℕ) : (c.seq x).plus n = c.seq (x + n) := plus_ofPos _ _ _

theorem lastByteSeq_packet (hp : p.1 < p.2) (hlen : p.2 ≤ c.octets.length) :
    lastByteSeq (c.packet p) = c.seq p.2 := by
  unfold lastByteSeq packet
  dsimp only
  rw [seq_plus, length_slice hp hlen]
  congr 1
  omega

theorem Inside.of_cons (hin : c.Inside z (p :: ps)) : c.Inside z ps :=
  fun q hq => hin q (mem_cons_of_mem _ hq)

theorem Inside.head (hin : c.Inside z (p :: ps)) :
    z ≤ p.1 ∧ p.1 < p.2 ∧ p.2 < z + 2 ^ 31 ∧ p.2 ≤ c.octets.length :=
  hin p mem_cons_self

/-! ## `Add` -/

/-- **The loop that removes overlapped bytes** trims the new interval. -/
theorem removeOverlap_eq (hin : c.Inside z ps) (hh : z ≤ h ∧ h < z + 2 ^ 31)
    (ht : z ≤ t ∧ t < z + 2 ^ 31) (hk : k + total ps < 2 ^ 32) :
    removeOverlap (ps.map c.packet) (c.seq h) (c.seq t) (k + total ps) =
      ⟨(trim ps h t).1.map c.packet, c.seq (trim ps h t).2.1, c.seq (trim ps h t).2.2,
        k + total (trim ps h t).1⟩ := by
  induction ps generalizing h t k with
  | nil => rfl
  | cons p ps ih =>
    obtain ⟨hbase, hne, hhalf, hlen⟩ := hin.head
    have hrest := hin.of_cons
    have hstart : z ≤ p.1 ∧ p.1 < z + 2 ^ 31 := ⟨hbase, by omega⟩
    have hend : z ≤ p.2 ∧ p.2 < z + 2 ^ 31 := ⟨by omega, hhalf⟩
    rw [total_cons] at hk ⊢
    -- the comparisons of the loop are those of the positions
    have hle : (c.seq p.1).le (c.seq t) = decide (p.1 ≤ t) := le_ofPos (near_of_mem hstart ht)
    have hgt : (c.seq p.2).gt (c.seq h) = decide (h < p.2) := gt_ofPos (near_of_mem hend hh)
    have hgt' : (c.seq p.1).gt (c.seq h) = decide (h < p.1) := gt_ofPos (near_of_mem hstart hh)
    have hlt : (c.seq p.2).lt (c.seq t) = decide (p.2 < t) := lt_ofPos (near_of_mem hend ht)
    have hle' : (c.seq p.1).le (c.seq h) = decide (p.1 ≤ h) := le_ofPos (near_of_mem hstart hh)
    have hge : (c.seq p.2).ge (c.seq t) = decide (t ≤ p.2) := ge_ofPos (near_of_mem hend ht)
    have hlast := lastByteSeq_packet hne hlen
    have hsize : Word32.sub (k + ((p.2 - p.1) + total ps)) (c.slice p.1 p.2).length =
        k + total ps := by
      rw [length_slice hne hlen, Word32.sub_eq (by omega) (by omega)]
      omega
    rw [map_cons]
    unfold removeOverlap trim
    dsimp only
    rw [hlast]
    simp only [packet, hle, hgt, hgt', hlt, hle', hge, decide_eq_true_eq, and_eq_true]
    by_cases hbehind : t < p.1
    · rw [if_neg (by omega : ¬ p.1 ≤ t), if_pos hbehind]
      rfl
    · rw [if_pos (by omega : p.1 ≤ t), if_neg hbehind]
      by_cases hmeets : h < p.2
      · rw [if_pos hmeets, if_pos hmeets]
        by_cases hswallow : h < p.1 ∧ p.2 < t
        · rw [if_pos hswallow, if_pos hswallow, hsize]
          exact ih hrest hh ht (by omega)
        · rw [if_neg hswallow, if_neg hswallow, ← apply_ite c.seq, ← apply_ite c.seq,
            ← Nat.add_assoc]
          have hloop := ih (h := if p.1 ≤ h then p.2 else h) (t := if t ≤ p.2 then p.1 else t)
            (k := k + (p.2 - p.1)) hrest (by split <;> omega) (by split <;> omega) (by omega)
          rw [hloop]
          dsimp only
          rw [map_cons, total_cons, Nat.add_assoc]
          rfl
      · rw [if_neg hmeets, if_neg hmeets, ← Nat.add_assoc]
        have hloop := ih (h := h) (t := t) (k := k + (p.2 - p.1)) hrest hh ht (by omega)
        rw [hloop]
        dsimp only
        rw [map_cons, total_cons, Nat.add_assoc]
        rfl

/-- Where the new packet ends before it starts, the loop finds nothing to store, whatever the
comparisons say. -/
theorem removeOverlap_of_eq {ps : List (ℕ × ℕ)} (hin : c.Inside z ps) {lo : ℕ} (ho : Ordered lo ps)
    (x : SequenceNumber32) (size : ℕ) :
    ∃ head tail, removeOverlap (ps.map c.packet) x x size =
      ⟨ps.map c.packet, head, tail, size⟩ ∧ head.ge tail = true := by
  have hself : x.ge x = true := by
    unfold SequenceNumber32.ge
    rw [beq_self_eq_true, Bool.or_true]
  induction ps generalizing lo with
  | nil => exact ⟨x, x, rfl, hself⟩
  | cons p ps ih =>
    obtain ⟨hbase, hne, hhalf, hlen⟩ := hin.head
    obtain ⟨head, tail, hloop, hge⟩ := ih hin.of_cons ho.2.2
    have hlast := lastByteSeq_packet hne hlen
    have hstart : (c.packet p).1 = c.seq p.1 := rfl
    rw [map_cons]
    unfold removeOverlap
    dsimp only
    rw [hlast, hstart]
    by_cases hle : (c.seq p.1).le x = true
    · rw [if_pos hle]
      have hnot : (c.seq p.1).gt x = false := not_eq_true' _ ▸ hle
      by_cases hgt : (c.seq p.2).gt x = true
      · have hge' : (c.seq p.2).ge x = true := by
          unfold SequenceNumber32.ge
          rw [hgt, Bool.true_or]
        rw [if_pos hgt, hnot, Bool.false_and, if_neg Bool.false_ne_true, if_pos hle, if_pos hge']
        -- all others start behind the end
        have hstop : removeOverlap (ps.map c.packet) (c.seq p.2) (c.seq p.1) size =
            ⟨ps.map c.packet, c.seq p.2, c.seq p.1, size⟩ := by
          cases ps with
          | nil => rfl
          | cons q ps =>
            obtain ⟨hbase', hne', hhalf', -⟩ := hin.of_cons.head
            have hbehind : (c.seq q.1).le (c.seq p.1) = false := by
              have hafter := ho.2.2.1
              refine (le_ofPos (near_of_mem (z := z) (by omega) (by omega))).trans ?_
              exact decide_eq_false (by omega)
            rw [map_cons]
            unfold removeOverlap
            rw [show (c.packet q).1 = c.seq q.1 from rfl, hbehind, if_neg Bool.false_ne_true]
        rw [hstop]
        refine ⟨c.seq p.2, c.seq p.1, rfl, ?_⟩
        refine (ge_ofPos (near_of_mem (z := z) (by omega) (by omega))).trans ?_
        exact decide_eq_true hne.le
      · rw [if_neg hgt, hloop]
        exact ⟨head, tail, rfl, hge⟩
    · rw [if_neg hle]
      exact ⟨x, x, rfl, hself⟩

/-- **Insertion into the map.** -/
theorem insertData_eq (hin : c.Inside z ps) (hq : z ≤ q.1 ∧ q.1 < z + 2 ^ 31)
    (hne : ∀ p ∈ ps, p.1 ≠ q.1) :
    insertData (c.seq q.1) (c.slice q.1 q.2) (ps.map c.packet) =
      (Intervals.insert q ps).map c.packet := by
  induction ps with
  | nil => rfl
  | cons p ps ih =>
    obtain ⟨hbase, hlt, hhalf, -⟩ := hin.head
    have hstart : z ≤ p.1 ∧ p.1 < z + 2 ^ 31 := ⟨hbase, by omega⟩
    have hbefore : (c.seq q.1).lt (c.seq p.1) = decide (q.1 < p.1) :=
      lt_ofPos (near_of_mem hq hstart)
    have hafter : (c.seq p.1).lt (c.seq q.1) = decide (p.1 < q.1) :=
      lt_ofPos (near_of_mem hstart hq)
    have hfirst := hne p mem_cons_self
    rw [map_cons]
    unfold insertData Intervals.insert
    rw [show (c.packet p).1 = c.seq p.1 from rfl, hbefore, hafter]
    simp only [decide_eq_true_eq]
    by_cases hlt : q.1 < p.1
    · rw [if_pos hlt, if_pos hlt]
      rfl
    · rw [if_neg hlt, if_neg hlt, if_pos (by omega), map_cons,
        ih hin.of_cons fun p hp => hne p (mem_cons_of_mem _ hp)]

theorem hasData_eq_false (hin : c.Inside z ps) (hq : z ≤ q.1 ∧ q.1 < z + 2 ^ 31)
    (hne : ∀ p ∈ ps, p.1 ≠ q.1) : hasData (c.seq q.1) (ps.map c.packet) = false := by
  unfold hasData
  rw [any_map, any_eq_false]
  intro p hp
  obtain ⟨hbase, hlt, hhalf, -⟩ := hin p hp
  have hstart : z ≤ p.1 ∧ p.1 < z + 2 ^ 31 := ⟨hbase, by omega⟩
  have hbefore : (c.seq q.1).lt (c.packet p).1 = decide (q.1 < p.1) :=
    lt_ofPos (near_of_mem hq hstart)
  have hafter : (c.packet p).1.lt (c.seq q.1) = decide (p.1 < q.1) :=
    lt_ofPos (near_of_mem hstart hq)
  have hdiff := hne p hp
  rw [Function.comp_apply, hbefore, hafter, and_eq_true, not_eq_true',
    not_eq_true', decide_eq_false_iff_not, decide_eq_false_iff_not]
  omega

/-! ## The SACK list -/

/-- Blocks in half the sequence space from `z` on. -/
def Between (z : ℕ) (sb : List (ℕ × ℕ)) : Prop :=
  ∀ p ∈ sb, z ≤ p.1 ∧ p.1 < p.2 ∧ p.2 < z + 2 ^ 31

/-- The list after a block was put in front: at most four blocks are kept. -/
def report (b : ℕ × ℕ) (sb : List (ℕ × ℕ)) : List (ℕ × ℕ) :=
  if 4 < (gather sb.length b sb).length then
    (gather sb.length b sb).dropLast
  else gather sb.length b sb

theorem clearSackList_eq (hsb : Between z sb) (hn : z ≤ n ∧ n < z + 2 ^ 31) :
    clearSackList (c.seq n) (sb.map c.block) =
      .ok ((sb.filter fun p => decide (n < p.2)).map c.block) := by
  induction sb with
  | nil => rfl
  | cons p sb ih =>
    obtain ⟨hbase, hlt, hhalf⟩ := hsb p mem_cons_self
    have hend : z ≤ p.2 ∧ p.2 < z + 2 ^ 31 := ⟨by omega, hhalf⟩
    have horder : (c.seq p.1).lt (c.seq p.2) = decide (p.1 < p.2) :=
      lt_ofPos (near_of_mem ⟨hbase, by omega⟩ hend)
    have hle : (c.seq p.2).le (c.seq n) = decide (p.2 ≤ n) := le_ofPos (near_of_mem hend hn)
    have hrest := ih fun q hq => hsb q (mem_cons_of_mem _ hq)
    rw [map_cons]
    unfold clearSackList block
    dsimp only
    rw [horder, decide_eq_true hlt, if_pos rfl]
    unfold block at hrest
    rw [hrest, ok_bind, hle, filter_cons]
    by_cases hold : p.2 ≤ n
    · rw [if_pos (decide_eq_true hold), if_neg (by rw [decide_eq_true_eq]; omega)]
      rfl
    · rw [if_neg (by rw [decide_eq_true_eq]; exact hold),
        if_pos (by rw [decide_eq_true_eq]; omega)]
      rfl

/-- Looking for a block to merge with. -/
theorem findMerge_eq {b : ℕ × ℕ} (hb : Between z (b :: sb)) :
    findMerge (c.block b) (sb.map c.block) =
      .ok ((absorb b sb).map fun r => (c.block r.1, r.2.map c.block)) := by
  obtain ⟨hbase', hlt', hhalf'⟩ := hb b mem_cons_self
  have hsb : Between z sb := fun q hq => hb q (mem_cons_of_mem _ hq)
  induction sb with
  | nil => rfl
  | cons p sb ih =>
    obtain ⟨hbase, hlt, hhalf⟩ := hsb p mem_cons_self
    have hrest : Between z sb := fun q hq => hsb q (mem_cons_of_mem _ hq)
    have hleft : c.seq b.1 = c.seq p.2 ↔ b.1 = p.2 :=
      ofPos_inj (near_of_mem (z := z) (by omega) (by omega))
    have hright : c.seq b.2 = c.seq p.1 ↔ b.2 = p.1 :=
      ofPos_inj (near_of_mem (z := z) (by omega) (by omega))
    have horder : (c.seq p.1).lt (c.seq b.2) = decide (p.1 < b.2) :=
      lt_ofPos (near_of_mem (z := z) (by omega) (by omega))
    have horder' : (c.seq b.1).lt (c.seq p.2) = decide (b.1 < p.2) :=
      lt_ofPos (near_of_mem (z := z) (by omega) (by omega))
    rw [map_cons]
    unfold findMerge absorb
    rw [show (c.block b).1 = c.seq b.1 from rfl, show (c.block b).2 = c.seq b.2 from rfl,
      show (c.block p).1 = c.seq p.1 from rfl, show (c.block p).2 = c.seq p.2 from rfl, horder,
      horder']
    by_cases hmeet : b.1 = p.2
    · rw [if_pos (hleft.mpr hmeet), if_pos hmeet, if_pos (decide_eq_true (by omega))]
      rfl
    · rw [if_neg fun heq => hmeet (hleft.mp heq), if_neg hmeet]
      by_cases hmeet' : b.2 = p.1
      · rw [if_pos (hright.mpr hmeet'), if_pos hmeet', if_pos (decide_eq_true (by omega))]
        rfl
      · rw [if_neg fun heq => hmeet' (hright.mp heq), if_neg hmeet',
          ih (forall_mem_cons.mpr ⟨hb b mem_cons_self, hrest⟩) hrest, ok_bind]
        cases absorb b sb with
        | none => rfl
        | some r => rfl

theorem between_joins (z : ℕ) :
    BlockList.Joins fun p : ℕ × ℕ => z ≤ p.1 ∧ p.1 < p.2 ∧ p.2 < z + 2 ^ 31 := by
  intro x y w hfirst hsecond
  dsimp only at *
  omega

theorem mergeBlocks_eq (fuel : ℕ) {b : ℕ × ℕ} (hb : Between z (b :: sb)) :
    mergeBlocks fuel (c.block b) (sb.map c.block) =
      .ok ((gather fuel b sb).map c.block) := by
  induction fuel generalizing b sb with
  | zero => rfl
  | succ fuel ih =>
    unfold mergeBlocks gather
    rw [findMerge_eq hb, ok_bind]
    cases hfound : absorb b sb with
    | none => rfl
    | some r =>
      obtain ⟨b', sb'⟩ := r
      have hspec := absorb_spec hfound
      refine ih fun q hq => ?_
      rcases mem_cons.mp hq with rfl | hq
      · -- the block that was taken in is one of the list
        obtain ⟨p, hp, ⟨hmeet, rfl⟩ | ⟨hmeet, rfl⟩⟩ := hspec.joined
        · exact between_joins z p.1 p.2 b.2 (hb p (mem_cons_of_mem _ hp))
            (hmeet ▸ hb b mem_cons_self)
        · exact between_joins z b.1 b.2 p.2 (hb b mem_cons_self)
            (hmeet ▸ hb p (mem_cons_of_mem _ hp))
      · exact hb q (mem_cons_of_mem _ (hspec.sublist.subset hq))

/-- **`UpdateSackList`** puts the block in front. -/
theorem updateSackList_eq {b : ℕ × ℕ} (hb : Between z (b :: sb)) (hn : z ≤ n ∧ n < z + 2 ^ 31)
    (hlt : n < b.1) :
    updateSackList (c.seq n) (c.seq b.1) (c.seq b.2) (sb.map c.block) =
      .ok ((report b sb).map c.block) := by
  obtain ⟨hbase, hne, hhalf⟩ := hb b mem_cons_self
  have hgt : (c.seq b.1).gt (c.seq n) = decide (n < b.1) :=
    gt_ofPos (near_of_mem (z := z) (by omega) hn)
  have hmerge : mergeBlocks (sb.map c.block).length (c.seq b.1, c.seq b.2)
      (sb.map c.block) = .ok ((gather sb.length b sb).map c.block) := by
    rw [length_map]
    exact mergeBlocks_eq sb.length hb
  unfold updateSackList report
  rw [hgt, decide_eq_true hlt, if_pos rfl, hmerge, ok_bind, length_map]
  by_cases hfour : 4 < (gather sb.length b sb).length
  · rw [if_pos hfour, if_pos hfour, map_dropLast]
    rfl
  · rw [if_neg hfour, if_neg hfour]
    rfl

theorem report_sublist (b : ℕ × ℕ) (sb : List (ℕ × ℕ)) :
    (report b sb).Sublist (gather sb.length b sb) := by
  unfold report
  split
  · exact dropLast_sublist _
  · exact List.Sublist.refl _

/-- **What all blocks have in common** is kept. -/
theorem forall_report {Q : ℕ × ℕ → Prop} (hQ : BlockList.Joins Q) {b : ℕ × ℕ} (hb : Q b)
    (hsb : ∀ p ∈ sb, Q p) : ∀ p ∈ report b sb, Q p := fun p hp =>
  forall_gather hQ sb.length hb hsb p ((report_sublist b sb).subset hp)

/-- **The loop that moves RCV.NXT** goes as far as there is no gap. -/
theorem moveNext_eq (hin : c.Inside z ps) {lo : ℕ} (ho : Ordered lo ps)
    (hinside : ∀ p ∈ ps, ¬ (p.1 < n ∧ n < p.2)) (hn : z ≤ n ∧ n < z + 2 ^ 31) {a : ℕ}
    (ha : a + (z + 2 ^ 31 - n) < 2 ^ 32) (hsb : Between z sb) (hafter : ∀ p ∈ sb, n < p.2) :
    moveNext (ps.map c.packet) (c.seq n) a (sb.map c.block) =
      .ok (c.seq (reach ps n), a + (reach ps n - n),
        (sb.filter fun p => decide (reach ps n < p.2)).map c.block) := by
  have hall : sb.filter (fun p => decide (n < p.2)) = sb :=
    filter_eq_self.mpr fun p hp => decide_eq_true (hafter p hp)
  induction ps generalizing n a sb lo with
  | nil =>
    unfold moveNext reach
    rw [Nat.sub_self, hall]
    rfl
  | cons p ps ih =>
    obtain ⟨hbase, hne, hhalf, hlen⟩ := hin.head
    have hothers : ∀ q ∈ ps, ¬ (q.1 < n ∧ n < q.2) := fun q hq =>
      hinside q (mem_cons_of_mem _ hq)
    have hlt : (c.seq p.1).lt (c.seq n) = decide (p.1 < n) :=
      lt_ofPos (near_of_mem ⟨hbase, by omega⟩ hn)
    have hgt : (c.seq p.1).gt (c.seq n) = decide (n < p.1) :=
      gt_ofPos (near_of_mem ⟨hbase, by omega⟩ hn)
    rw [map_cons]
    unfold moveNext reach
    rw [lastByteSeq_packet hne hlen, show (c.packet p).1 = c.seq p.1 from rfl, hlt, hgt]
    simp only [decide_eq_true_eq]
    by_cases hbefore : p.1 < n
    · rw [if_pos hbefore, if_pos hbefore]
      exact ih hin.of_cons ho.2.2 hothers hn ha hsb hafter hall
    · rw [if_neg hbefore, if_neg hbefore]
      by_cases hgap : n < p.1
      · rw [if_pos hgap, if_pos hgap, Nat.sub_self, hall]
        rfl
      · rw [if_neg hgap, if_neg hgap]
        have hend : z ≤ p.2 ∧ p.2 < z + 2 ^ 31 := ⟨by omega, hhalf⟩
        have hlength : (c.packet p).2.length = p.2 - p.1 := length_slice hne hlen
        have hadd : Word32.add a (p.2 - p.1) = a + (p.2 - p.1) := Word32.add_eq (by omega)
        have hnext : ∀ q ∈ ps, ¬ (q.1 < p.2 ∧ p.2 < q.2) := by
          intro q hq
          have hq' := ho.2.2.bounds q hq
          omega
        rw [clearSackList_eq hsb hend, ok_bind, hlength, hadd]
        have hleft : ∀ q ∈ sb.filter fun q => decide (p.2 < q.2), p.2 < q.2 := fun q hq =>
          of_decide_eq_true (mem_filter.mp hq).2
        have hloop := ih (n := p.2) (a := a + (p.2 - p.1)) hin.of_cons ho.2.2 hnext hend (by omega)
          (fun q hq => hsb q (mem_of_mem_filter hq)) hleft
          (filter_eq_self.mpr fun q hq => decide_eq_true (hleft q hq))
        have hreach := (reach_spec ho.2.2 hnext).1
        rw [hloop, filter_filter]
        congr 3
        · omega
        · refine congrArg _ (filter_congr fun q _ => ?_)
          rw [and_eq_left_iff_imp]
          intro hq
          rw [decide_eq_true_eq] at hq ⊢
          omega

/-! ## `Extract` -/

/-- In front of all others. -/
theorem insertData_first (hin : c.Inside z ps) (ho : Ordered lo ps)
    (hq : z ≤ q.1 ∧ q.1 < z + 2 ^ 31) (hlo : q.1 < lo) :
    insertData (c.seq q.1) (c.slice q.1 q.2) (ps.map c.packet) =
      (q :: ps).map c.packet := by
  cases ps with
  | nil => rfl
  | cons p ps =>
    obtain ⟨hbase, hne, hhalf, -⟩ := hin.head
    have hfirst := ho.1
    have hlt : (c.seq q.1).lt (c.seq p.1) = decide (q.1 < p.1) :=
      lt_ofPos (near_of_mem hq ⟨hbase, by omega⟩)
    rw [map_cons]
    unfold insertData
    rw [show (c.packet p).1 = c.seq p.1 from rfl, hlt, decide_eq_true (by omega), if_pos rfl]
    rfl

/-- **The loop of `Extract`** takes the stream from the first position on. -/
theorem extractFrom_eq {e m s : ℕ} (hin : c.Inside z ps) (ho : Ordered e ps)
    (hcov : ∀ x, e ≤ x → x < e + m → Covers ps x) {v : ℕ} (hv : e + m ≤ v) (hbase : z ≤ e)
    (hv' : v < z + 2 ^ 31) (hs : s + total ps < 2 ^ 32) {a : ℕ} (ha : m + a < 2 ^ 32) :
    extractFrom (c.seq v) (ps.map c.packet) m (s + total ps) (m + a) =
      .ok (c.slice e (e + m), (cut ps (e + m)).map c.packet, s + total (cut ps (e + m)), a) := by
  induction ps generalizing e m with
  | nil =>
    cases m with
    | zero =>
      unfold extractFrom slice
      rw [Nat.add_zero, Nat.sub_self, take_zero, Nat.zero_add]
      rfl
    | succ m => exact absurd (hcov e (Nat.le_refl _) (by omega)) (not_covers_nil _)
  | cons p ps ih =>
    cases m with
    | zero =>
      unfold extractFrom slice
      rw [Nat.add_zero, Nat.sub_self, take_zero, Nat.zero_add, cut_eq_self ho (Nat.le_refl _)]
    | succ m =>
      obtain ⟨-, hne, hhalf, hlen⟩ := hin.head
      -- the first packet starts at the first position
      have hstart : p.1 = e := by
        have hfirst := hcov e (Nat.le_refl _) (by omega)
        rw [covers_cons] at hfirst
        have hlow := ho.1
        rcases hfirst with hfirst | hfirst
        · omega
        · have hlater := ho.2.2.le_of_covers hfirst
          omega
      have hle : (c.seq p.1).le (c.seq v) = decide (p.1 ≤ v) :=
        le_ofPos (near_of_mem (z := z) (by omega) (by omega))
      have hlength : (c.packet p).2.length = p.2 - p.1 := length_slice hne hlen
      rw [total_cons] at hs ⊢
      rw [map_cons]
      unfold extractFrom cut
      rw [show (c.packet p).1 = c.seq p.1 from rfl, hle, decide_eq_true (by omega), if_pos rfl,
        hlength]
      by_cases hwhole : p.2 ≤ e + (m + 1)
      · -- the whole packet is extracted
        have hloop := ih (e := p.2) (m := m + 1 - (p.2 - p.1)) hin.of_cons ho.2.2
          (fun x hx hx' => by
            have hall := hcov x (by omega) (by omega)
            rw [covers_cons] at hall
            rcases hall with hall | hall
            · omega
            · exact hall) (by omega) (by omega) (by omega) (by omega)
        have hsize : Word32.sub (s + ((p.2 - p.1) + total ps)) (p.2 - p.1) = s + total ps := by
          rw [Word32.sub_eq (by omega) (by omega)]
          omega
        have havail : Word32.sub (m + 1 + a) (p.2 - p.1) = m + 1 - (p.2 - p.1) + a := by
          rw [Word32.sub_eq (by omega) (by omega)]
          omega
        have hend : p.2 + (m + 1 - (p.2 - p.1)) = e + (m + 1) := by omega
        rw [hend] at hloop
        rw [if_pos (by omega), if_pos hwhole, hsize, havail, hloop, ok_bind]
        dsimp only [pure, Except.pure]
        rw [show (c.packet p).2 = c.slice p.1 p.2 from rfl, slice_append (by omega) (by omega),
          hstart]
      · -- a part of the packet is extracted and the rest is put back
        have hfront : TcpRxBuffer.createFragment (c.packet p).2 0 (m + 1) =
            .ok (c.slice e (e + (m + 1))) := by
          unfold TcpRxBuffer.createFragment
          rw [hlength, if_pos (by omega)]
          have hpart := slice_slice (c := c) (x := p.1) (y := p.2) (u := e) (v := e + (m + 1))
            (by omega) (by omega)
          rw [Nat.add_sub_cancel_left, show e - p.1 = 0 by omega] at hpart
          exact congrArg Except.ok hpart
        have hback : TcpRxBuffer.createFragment (c.packet p).2 (m + 1) (p.2 - p.1 - (m + 1)) =
            .ok (c.slice (e + (m + 1)) p.2) := by
          unfold TcpRxBuffer.createFragment
          rw [hlength, if_pos (by omega)]
          have hpart := slice_slice (c := c) (x := p.1) (y := p.2) (u := e + (m + 1)) (v := p.2)
            (by omega) (Nat.le_refl _)
          rw [show e + (m + 1) - p.1 = m + 1 by omega,
            show p.2 - (e + (m + 1)) = p.2 - p.1 - (m + 1) by omega] at hpart
          exact congrArg Except.ok hpart
        have hkey : (c.seq p.1).plus (m + 1) = c.seq (e + (m + 1)) := by
          rw [seq_plus, hstart]
        have hinsert : insertData (c.seq (e + (m + 1))) (c.slice (e + (m + 1)) p.2)
            (c.packet p :: ps.map c.packet) =
            c.packet p :: ((e + (m + 1), p.2) :: ps).map c.packet := by
          have hbefore : (c.seq (e + (m + 1))).lt (c.seq p.1) = decide (e + (m + 1) < p.1) :=
            lt_ofPos (near_of_mem (z := z) (by omega) (by omega))
          have hafter : (c.seq p.1).lt (c.seq (e + (m + 1))) = decide (p.1 < e + (m + 1)) :=
            lt_ofPos (near_of_mem (z := z) (by omega) (by omega))
          have hrest := insertData_first (q := (e + (m + 1), p.2)) hin.of_cons ho.2.2
            (by dsimp only; omega) (by dsimp only; omega)
          unfold insertData
          rw [show (c.packet p).1 = c.seq p.1 from rfl, hbefore, hafter,
            decide_eq_false (by omega), if_neg Bool.false_ne_true, decide_eq_true (by omega),
            if_pos rfl, hrest]
        have herase (data : RxData) : eraseData (c.seq p.1) (c.packet p :: data) =
            data := if_pos rfl
        have hsize : Word32.sub (s + ((p.2 - p.1) + total ps)) (m + 1) =
            s + ((p.2 - (e + (m + 1))) + total ps) := by
          rw [Word32.sub_eq (by omega) (by omega)]
          omega
        have havail : Word32.sub (m + 1 + a) (m + 1) = a := by
          rw [Word32.sub_eq (by omega) (by omega)]
          omega
        rw [if_neg (by omega), if_neg hwhole, hfront, ok_bind, hback, ok_bind, hkey, hinsert,
          herase, hsize, havail, max_eq_right (by omega), total_cons]
        rfl

end ByteStream

end Ns3Dsme.Internet
