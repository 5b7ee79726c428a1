/-
# Agreement on enhanced group acknowledgments

One acknowledged period of the enhanced group acknowledgment: any number of senders
transmit data frames to one coordinator, the coordinator receives some of them in some
order, and then broadcasts its bitmap.  Sender and coordinator find the bit of a frame
with the same hash function, but each probes against its own bitmap, and the hash input
is the sum of address and sequence number.

The main result says exactly for which frames every loss pattern and every order of
reception lead to agreement: those whose keys before probing are pairwise distinct, over
all senders.
-/
import Ns3Dsme.Lib.Machine
import Ns3Dsme.LrWpan.Reception
import Mathlib.Data.List.Nodup
import Mathlib.Logic.Function.Basic

open Function List Program

namespace Ns3Dsme.EnhancedGroupAck

/-! ## The network -/

/-- A data frame: who sent it, and its sequence number. -/
structure Frame where
  src : Mac16Address
  seqNum : BitVec 8
  deriving DecidableEq

/-- The key of a frame before probing. -/
def Frame.key (hash64 : List Char → BitVec 64) (f : Frame) : ℕ :=
  hashTableKey hash64 f.src f.seqNum.toNat

/-- The parties of one period: the frames sent so far, the numbers of those the coordinator
received, in the order of reception, and the group acknowledgment members of the
coordinator and of each sender. -/
structure Net where
  sent : List Frame := []
  received : List ℕ := []
  coordinator : GroupAck := {}
  sender : Mac16Address → GroupAck := fun _ => {}

/-- A sender transmits a frame, or the coordinator receives one.  A frame that is never
received is lost. -/
inductive Event
  | transmit (f : Frame)
  | receive (n : ℕ)

/-- Only frames that were sent are received, and each at most once. -/
def Enabled (net : Net) : Event → Prop
  | .transmit _ => True
  | .receive n => n < net.sent.length ∧ n ∉ net.received

/-- What the handlers of the parties do. -/
def step (hash64 : List Char → BitVec 64) (net : Net) : Event → Exec Net
  | .transmit f => .ok { net with
      sent := net.sent ++ [f]
      sender := update net.sender f.src
        ((net.sender f.src).enhancedSent f.seqNum) }
  | .receive n =>
    match net.sent[n]? with
    | none => .ok net
    | some f => do
      let coordinator ← net.coordinator.enhancedMark hash64 f.src f.seqNum
      .ok { net with received := net.received ++ [n], coordinator }

/-- The network of one period. -/
def network (hash64 : List Char → BitVec 64) : Machine Net Event Fault where
  enabled := Enabled
  step := step hash64

/-- The states of a period. -/
def Reachable (hash64 : List Char → BitVec 64) (net : Net) : Prop :=
  ∃ es, (network hash64).Run (fun _ _ => True) {} es net

/-- The frames of one sender with their numbers, in the order in which they were sent. -/
def framesOf (sent : List Frame) (a : Mac16Address) : List (Frame × ℕ) :=
  sent.zipIdx.filter fun x => x.1.src = a

/-- **Agreement.**  When the bitmap of the coordinator is broadcast, every sender counts as
acknowledged exactly those of its buffered frames that the coordinator received. -/
def Agreement (hash64 : List Char → BitVec 64) (net : Net) : Prop :=
  ∀ a, (net.sender a).enhancedVerdicts hash64 a net.coordinator.enhancedGACKBitmap
    = .ok ((framesOf net.sent a).map fun x => decide (x.2 ∈ net.received))

/-! ## The invariant of a period -/

theorem framesOf_append (sent : List Frame) (f : Frame) (a : Mac16Address) :
    framesOf (sent ++ [f]) a
      = framesOf sent a ++ if f.src = a then [(f, sent.length)] else [] := by
  unfold framesOf
  rw [zipIdx_append, filter_append]
  by_cases h : f.src = a
  · simp [h]
  · simp [h]

theorem mem_framesOf (sent : List Frame) (a : Mac16Address) (f : Frame) (n : ℕ) :
    (f, n) ∈ framesOf sent a ↔ sent[n]? = some f ∧ f.src = a := by
  unfold framesOf
  rw [mem_filter, mem_zipIdx_iff_getElem?]
  simp

/-- The bits after one more bit was set. -/
theorem getLsbD_or_twoPow (bitmap : BitVec 64) (k b : ℕ) (hk : k < 64) :
    (bitmap ||| BitVec.twoPow 64 k).getLsbD b = true ↔ bitmap.getLsbD b = true ∨ b = k := by
  rw [BitVec.getLsbD_or, BitVec.getLsbD_twoPow]
  by_cases h : k = b
  · subst h
    simp [hk]
  · simp [h, Ne.symm h]

/-- What holds throughout a period.  The bits of the coordinator are known only while the
keys are pairwise distinct: without a collision no key is ever moved. -/
structure Inv (hash64 : List Char → BitVec 64) (net : Net) : Prop where
  buffer : ∀ a, (net.sender a).groupAckPktBuffer
    = (framesOf net.sent a).map fun x => x.1.seqNum.toNat
  fresh : ∀ a, (net.sender a).enhancedGACKBitmap = 0
  received_lt : ∀ n ∈ net.received, n < net.sent.length
  marked : (net.sent.map (Frame.key hash64)).Nodup →
    ∀ b, net.coordinator.enhancedGACKBitmap.getLsbD b = true ↔
      ∃ n ∈ net.received, (net.sent.map (Frame.key hash64))[n]? = some b

variable (hash64 : List Char → BitVec 64)
include hash64

/-- A transmission keeps the invariant. -/
theorem inv_transmit (net : Net) (f : Frame) (h : Inv hash64 net) :
    Post (step hash64 net (.transmit f)) (Inv hash64) := by
  show Inv hash64 _
  refine ⟨?_, ?_, ?_, ?_⟩
  · intro a
    rw [framesOf_append]
    by_cases ha : a = f.src
    · subst ha
      simp [GroupAck.enhancedSent, h.buffer]
    · simp [update_of_ne ha, Ne.symm ha, h.buffer]
  · intro a
    by_cases ha : a = f.src
    · subst ha
      simp [GroupAck.enhancedSent, h.fresh]
    · simp [update_of_ne ha, h.fresh]
  · intro n hn
    have hlt := h.received_lt n hn
    rw [length_append, length_singleton]
    omega
  · intro hnodup b
    rw [map_append] at hnodup
    rw [h.marked (List.Nodup.of_append_left hnodup) b]
    refine exists_congr fun n => and_congr_right fun hn => ?_
    have hlt : n < (net.sent.map (Frame.key hash64)).length := by
      rw [length_map]
      exact h.received_lt n hn
    rw [map_append, List.getElem?_append_left hlt]

/-- A reception keeps the invariant. -/
theorem inv_receive (net : Net) (n : ℕ) (h : Inv hash64 net) (hen : Enabled net (.receive n)) :
    Post (step hash64 net (.receive n)) (Inv hash64) := by
  obtain ⟨hlt, hnew⟩ := hen
  refine post_of_forall fun net' hstep => ?_
  have hget : net.sent[n]? = some net.sent[n] := List.getElem?_eq_getElem hlt
  simp only [step, hget] at hstep
  cases hmark : net.coordinator.enhancedMark hash64 net.sent[n].src net.sent[n].seqNum with
  | error e =>
    rw [hmark] at hstep
    cases hstep
  | ok g =>
    rw [hmark] at hstep
    cases hstep
    refine ⟨h.buffer, h.fresh, ?_, ?_⟩
    · intro m hm
      rcases mem_append.mp hm with hm | hm
      · exact h.received_lt m hm
      · rw [mem_singleton.mp hm]
        exact hlt
    · intro hnodup b
      have hkey : (net.sent.map (Frame.key hash64))[n]? = some (net.sent[n].key hash64) := by
        rw [List.getElem?_map, hget]
        rfl
      -- no frame received so far has the key of this one, so the key is not moved
      have hfree : net.coordinator.enhancedGACKBitmap.getLsbD (net.sent[n].key hash64)
          = false := by
        rw [Bool.eq_false_iff]
        intro hset
        obtain ⟨m, hm, hmkey⟩ := (h.marked hnodup _).mp hset
        have hmlt : m < (net.sent.map (Frame.key hash64)).length := by
          rw [length_map]
          exact h.received_lt m hm
        have hnlt : n < (net.sent.map (Frame.key hash64)).length := by simpa using hlt
        have heq : (net.sent.map (Frame.key hash64))[m]
            = (net.sent.map (Frame.key hash64))[n] := by
          rw [getElem_eq_iff, hmkey, ← hkey, List.getElem?_eq_getElem]
        have hmn : m = n := hnodup.getElem_inj_iff.mp heq
        exact hnew (hmn ▸ hm)
      unfold GroupAck.enhancedMark at hmark
      rw [generateHashTableKey_eq hash64 _ _ _ hfree] at hmark
      cases hmark
      have hk : net.sent[n].key hash64 < 64 := by
        have := hashTableKey_lt hash64 net.sent[n].src net.sent[n].seqNum.toNat
        unfold Frame.key
        omega
      have hor := getLsbD_or_twoPow net.coordinator.enhancedGACKBitmap
        (net.sent[n].key hash64) b hk
      refine hor.trans ?_
      rw [h.marked hnodup b]
      constructor
      · rintro (⟨m, hm, hmb⟩ | rfl)
        · exact ⟨m, mem_append_left _ hm, hmb⟩
        · exact ⟨n, by simp, hkey⟩
      · rintro ⟨m, hm, hmb⟩
        rcases mem_append.mp hm with hm | hm
        · exact Or.inl ⟨m, hm, hmb⟩
        · rw [mem_singleton.mp hm, hkey] at hmb
          exact Or.inr (Option.some.inj hmb).symm

/-- The invariant holds throughout a period. -/
theorem inv_of_reachable (net : Net) (h : Reachable hash64 net) : Inv hash64 net := by
  obtain ⟨es, hrun⟩ := h
  refine hrun.invariant (Inv hash64) ?_ ?_
  · intro net e hinv hen _
    cases e with
    | transmit f => exact inv_transmit hash64 net f hinv
    | receive n => exact inv_receive hash64 net n hinv hen
  · refine ⟨fun a => rfl, fun a => rfl, by simp, ?_⟩
    intro _ b
    simp

/-! ## The verdicts of a sender -/

/-- Without collisions among its own frames a sender looks at the keys themselves. -/
theorem enhancedVerify_of_nodup (self : Mac16Address) (buffer : List ℕ) :
    ∀ own received : BitVec 64, (buffer.map (hashTableKey hash64 self)).Nodup →
      (∀ seq ∈ buffer, own.getLsbD (hashTableKey hash64 self seq) = false) →
      ∃ own', GroupAck.enhancedVerify hash64 self buffer own received
        = .ok (buffer.map fun seq => received.getLsbD (hashTableKey hash64 self seq), own') := by
  induction buffer with
  | nil => intro own received _ _; exact ⟨own, rfl⟩
  | cons seq buffer ih =>
    intro own received hnodup hown
    rw [map_cons, nodup_cons] at hnodup
    obtain ⟨hhead, htail⟩ := hnodup
    have hne : ∀ seq' ∈ buffer, hashTableKey hash64 self seq' ≠ hashTableKey hash64 self seq :=
      fun seq' hseq' heq => hhead (heq ▸ mem_map_of_mem hseq')
    have hk : hashTableKey hash64 self seq < 64 := by
      have := hashTableKey_lt hash64 self seq
      omega
    have hown' : ∀ seq' ∈ buffer,
        (own ||| BitVec.twoPow 64 (hashTableKey hash64 self seq)).getLsbD
          (hashTableKey hash64 self seq') = false := by
      intro seq' hseq'
      rw [Bool.eq_false_iff]
      intro hset
      rcases (getLsbD_or_twoPow own _ _ hk).mp hset with hset | hset
      · rw [hown seq' (by simp [hseq'])] at hset
        cases hset
      · exact hne seq' hseq' hset
    rw [GroupAck.enhancedVerify, generateHashTableKey_eq hash64 own self seq (hown seq (by simp))]
    cases hbit : received.getLsbD (hashTableKey hash64 self seq) with
    | true =>
      -- the bit is cleared, which no later frame of this sender notices
      obtain ⟨own', hrest⟩ := ih (own ||| BitVec.twoPow 64 (hashTableKey hash64 self seq))
        (received &&& ~~~ BitVec.twoPow 64 (hashTableKey hash64 self seq)) htail hown'
      refine ⟨own', ?_⟩
      have hsame : (buffer.map fun seq' =>
          (received &&& ~~~ BitVec.twoPow 64 (hashTableKey hash64 self seq)).getLsbD
            (hashTableKey hash64 self seq'))
          = buffer.map fun seq' => received.getLsbD (hashTableKey hash64 self seq') := by
        refine map_congr_left fun seq' hseq' => ?_
        have hlt : hashTableKey hash64 self seq' < 64 := by
          have := hashTableKey_lt hash64 self seq'
          omega
        rw [BitVec.getLsbD_and, BitVec.getLsbD_not, BitVec.getLsbD_twoPow]
        simp [hlt, Ne.symm (hne seq' hseq')]
      rw [hsame] at hrest
      simp only [bind, Except.bind, hbit, if_true, hrest, map_cons]
    | false =>
      obtain ⟨own', hrest⟩ := ih (own ||| BitVec.twoPow 64 (hashTableKey hash64 self seq))
        received htail hown'
      refine ⟨own', ?_⟩
      simp only [bind, Except.bind, hbit, hrest, map_cons, Bool.false_eq_true, if_false]

/-- The same for the verdicts on a broadcast bitmap. -/
theorem enhancedVerdicts_of_nodup (self : Mac16Address) (g : GroupAck) (received : BitVec 64)
    (hfresh : g.enhancedGACKBitmap = 0)
    (hnodup : (g.groupAckPktBuffer.map (hashTableKey hash64 self)).Nodup) :
    g.enhancedVerdicts hash64 self received = .ok (g.groupAckPktBuffer.map fun seq =>
      received.getLsbD (hashTableKey hash64 self seq)) := by
  unfold GroupAck.enhancedVerdicts
  by_cases hzero : received = 0
  · rw [if_pos hzero, hzero]
    simp
  · obtain ⟨own', hverify⟩ := enhancedVerify_of_nodup hash64 self g.groupAckPktBuffer
      g.enhancedGACKBitmap received hnodup (by simp [hfresh])
    rw [if_neg hzero, hverify]
    rfl

/-- Distinct keys make agreement. -/
theorem agreement_of_nodup (net : Net) (h : Inv hash64 net)
    (hnodup : (net.sent.map (Frame.key hash64)).Nodup) : Agreement hash64 net := by
  intro a
  -- the keys the sender computes are the keys of its frames
  have hkeys : (net.sender a).groupAckPktBuffer.map (hashTableKey hash64 a)
      = (framesOf net.sent a).map fun x => x.1.key hash64 := by
    rw [h.buffer, map_map]
    refine map_congr_left fun x hx => ?_
    have hsrc := ((mem_framesOf net.sent a x.1 x.2).mp hx).2
    simp [Frame.key, hsrc]
  have hsub : ((framesOf net.sent a).map fun x => x.1.key hash64).Sublist
      (net.sent.map (Frame.key hash64)) := by
    have hfst : (net.sent.zipIdx.map fun x => x.1.key hash64) = net.sent.map (Frame.key hash64) := by
      conv_rhs => rw [← zipIdx_map_fst 0 net.sent, map_map]
      rfl
    rw [← hfst]
    exact filter_sublist.map _
  rw [enhancedVerdicts_of_nodup hash64 a (net.sender a) _ (h.fresh a)
    (hkeys ▸ hnodup.sublist hsub), h.buffer, map_map]
  congr 1
  refine map_congr_left fun x hx => ?_
  obtain ⟨hget, hsrc⟩ := (mem_framesOf net.sent a x.1 x.2).mp hx
  have hkey : (net.sent.map (Frame.key hash64))[x.2]?
      = some (hashTableKey hash64 a x.1.seqNum.toNat) := by
    rw [List.getElem?_map, hget, ← hsrc]
    rfl
  rw [comp_apply, Bool.eq_iff_iff, h.marked hnodup, decide_eq_true_iff]
  constructor
  · rintro ⟨n, hn, hnkey⟩
    have hnx : n = x.2 := by
      have hlt : n < (net.sent.map (Frame.key hash64)).length :=
        (List.getElem?_eq_some_iff.mp hnkey).1
      exact (List.getElem?_inj hlt hnodup).mp (hnkey.trans hkey.symm)
    exact hnx ▸ hn
  · intro hx2
    exact ⟨x.2, hx2, hkey⟩

/-! ## When the parties agree -/

/-- Any frames can be sent, all of them being lost so far. -/
theorem exists_run_transmit (fs : List Frame) :
    ∀ net : Net, ∃ es net', (network hash64).Run (fun _ _ => True) net es net' ∧
      net'.sent = net.sent ++ fs ∧ net'.received = net.received ∧
      net'.coordinator = net.coordinator := by
  induction fs with
  | nil => intro net; exact ⟨[], net, .nil net, by simp, rfl, rfl⟩
  | cons f fs ih =>
    intro net
    obtain ⟨es, net', hrun, hsent, hreceived, hcoordinator⟩ := ih { net with
      sent := net.sent ++ [f]
      sender := update net.sender f.src ((net.sender f.src).enhancedSent f.seqNum) }
    refine ⟨.transmit f :: es, net', .cons _ _ _ _ _ trivial trivial rfl hrun, ?_, hreceived,
      hcoordinator⟩
    rw [hsent, append_assoc, singleton_append]

/-- The first frame that is received sets the bit of its key. -/
theorem step_receive_first (sent : List Frame) (sender : Mac16Address → GroupAck) (n : ℕ)
    (hn : n < sent.length) : step hash64 ⟨sent, [], {}, sender⟩ (.receive n)
      = .ok ⟨sent, [n],
          { enhancedGACKBitmap := 0 ||| BitVec.twoPow 64 (sent[n].key hash64) }, sender⟩ := by
  have hget : sent[n]? = some sent[n] := List.getElem?_eq_getElem hn
  simp only [step, hget, GroupAck.enhancedMark]
  rw [generateHashTableKey_eq hash64 0 sent[n].src sent[n].seqNum.toNat (by simp)]
  rfl

/-- The period in which all of `fs` was sent and only frame `n` was received. -/
theorem exists_reachable_single (fs : List Frame) : ∃ sender, ∀ n, ∀ hn : n < fs.length,
      Reachable hash64 ⟨fs, [n],
        { enhancedGACKBitmap := 0 ||| BitVec.twoPow 64 (fs[n].key hash64) }, sender⟩ := by
  obtain ⟨es, net, hrun, hsent, hreceived, hcoordinator⟩ := exists_run_transmit hash64 fs {}
  obtain ⟨sent, received, coordinator, sender⟩ := net
  simp only [nil_append] at hsent hreceived hcoordinator
  subst hsent hreceived hcoordinator
  refine ⟨sender, fun n hn => ⟨es ++ [.receive n], hrun.append ?_⟩⟩
  exact .cons _ _ _ _ _ ⟨hn, by simp⟩ trivial (step_receive_first hash64 sent sender n hn)
    (.nil _)

omit hash64

/-- **When enhanced group acknowledgments agree.**  For the frames `fs` of a period, every
loss pattern and every order of reception lead to agreement if and only if the keys of
the frames before probing are pairwise distinct.  If two keys are equal, receiving only
the one frame or only the other gives the same bitmap. -/
theorem agreement_iff_keys_nodup (hash64 : List Char → BitVec 64) (fs : List Frame) :
    (∀ net, Reachable hash64 net → net.sent = fs → Agreement hash64 net)
      ↔ (fs.map (Frame.key hash64)).Nodup := by
  constructor
  · intro hagree
    obtain ⟨sender, hreach⟩ := exists_reachable_single hash64 fs
    rw [nodup_iff_getElem?_ne_getElem?]
    intro i j hij hj hkey
    rw [length_map] at hj
    have hi : i < fs.length := by omega
    have hkeys : fs[i].key hash64 = fs[j].key hash64 := by
      simpa [List.getElem?_eq_getElem hi, List.getElem?_eq_getElem hj] using hkey
    have hagreei := hagree _ (hreach i hi) rfl fs[i].src
    have hagreej := hagree _ (hreach j hj) rfl fs[i].src
    simp only at hagreei hagreej
    rw [hkeys, hagreej, Except.ok.injEq] at hagreei
    have hmem : (fs[i], i) ∈ framesOf fs fs[i].src :=
      (mem_framesOf fs fs[i].src fs[i] i).mpr ⟨List.getElem?_eq_getElem hi, rfl⟩
    have hverdict := map_inj_left.mp hagreei (fs[i], i) hmem
    simp at hverdict
    omega
  · intro hnodup net hreach hsent
    exact agreement_of_nodup hash64 net (inv_of_reachable hash64 net hreach) (hsent ▸ hnodup)

/-- Two senders whose addresses and sequence numbers have the same sum share a bit: with the
first frame received and the second one lost, the second sender counts its frame as
acknowledged. -/
theorem exists_reachable_not_agreement :
    ∃ net, Reachable (fun _ => 0) net ∧ net.sent = [⟨1, 2⟩, ⟨2, 1⟩] ∧ net.received = [0]
      ∧ ¬ Agreement (fun _ => 0) net := by
  let net₁ : Net :=
    { sent := [⟨1, 2⟩]
      sender := update (fun _ => {}) 1 { groupAckPktBuffer := [2] } }
  let net₂ : Net :=
    { sent := [⟨1, 2⟩, ⟨2, 1⟩]
      sender := update net₁.sender 2 { groupAckPktBuffer := [1] } }
  let net₃ : Net := { net₂ with
    received := [0]
    coordinator := { enhancedGACKBitmap := 0 ||| BitVec.twoPow 64 0 } }
  refine ⟨net₃, ⟨[.transmit ⟨1, 2⟩, .transmit ⟨2, 1⟩, .receive 0], ?_⟩, rfl, rfl, ?_⟩
  · refine .cons _ net₁ _ _ _ trivial trivial rfl ?_
    refine .cons _ net₂ _ _ _ trivial trivial rfl ?_
    exact .cons _ net₃ _ _ _ ⟨by decide, by decide⟩ trivial
      (step_receive_first (fun _ => 0) net₂.sent net₂.sender 0 (by decide)) (.nil _)
  · intro hagree
    have hverdict : (net₃.sender 2).enhancedVerdicts (fun _ => 0) 2
        (0 ||| BitVec.twoPow 64 0) = .ok [false] := hagree 2
    revert hverdict
    decide

end Ns3Dsme.EnhancedGroupAck
