/-
# Putting IPv4 fragments together

`ProcessFragment` keeps the fragments of each datagram sorted by offset.  It takes a datagram for
entire if the fragment that was put last at the end of the list is the last one, and there is no
gap before it.
-/
import Ns3Dsme.Internet.Ipv4Fragmentation
import Ns3Dsme.Lib.KeyedList
import Ns3Dsme.Lib.Machine

open Bool Function Program Overlaps List

namespace Ns3Dsme.Internet

/-! ## The fragments of one datagram -/

/-- `Fragments`. -/
structure Fragments where
  fragments : List (List Octet × ℕ) := []
  moreFragment : Bool := false

namespace Fragments

/-- `AddFragment`: before the first fragment with a greater offset.  At the end of the list the
flag is taken over. -/
def addFragment (s : Fragments) (fragment : List Octet) (fragmentOffset : ℕ)
    (moreFragment : Bool) : Fragments :=
  { fragments := s.fragments.orderedInsert (fun x y => x.2 < y.2) (fragment, fragmentOffset)
    moreFragment :=
      if s.fragments.all fun it => decide (it.2 ≤ fragmentOffset) then moreFragment
      else s.moreFragment }

/-- The loop of `IsEntire`. -/
def connected (lastEndOffset : ℕ) : List (List Octet × ℕ) → Bool
  | [] => true
  | it :: rest =>
    if lastEndOffset < it.2 then false
    else connected (max lastEndOffset ((it.1.length + it.2) % 2 ^ 16)) rest

/-- `IsEntire`. -/
def isEntire (s : Fragments) : Bool :=
  !s.moreFragment && !s.fragments.isEmpty && connected 0 s.fragments

/-- The loop of `GetPacket`. -/
def addAtEnd (p : List Octet) (lastEndOffset : ℕ) : List (List Octet × ℕ) → List Octet
  | [] => p
  | it :: rest =>
    let p :=
      if it.2 < lastEndOffset then
        let newStart := lastEndOffset - it.2
        if newStart < it.1.length then p ++ it.1.drop newStart else p
      else p ++ it.1
    addAtEnd p (p.length % 2 ^ 16) rest

/-- `GetPacket`. -/
def getPacket (s : Fragments) : Except Ipv4Fault (List Octet) :=
  match s.fragments with
  | [] => .error .noFragment
  | it :: rest => .ok (addAtEnd it.1 (it.1.length % 2 ^ 16) rest)

end Fragments

/-! ## All datagrams -/

/-- What the fragments of one datagram have in common. -/
structure Flow where
  source : Fin 4294967296
  destination : Fin 4294967296
  identification : Fin 65536
  protocol : Fin 256
  deriving DecidableEq, Repr

/-- The key of the map. -/
def fragmentKey (h : Flow) : ℕ × ℕ :=
  (h.source.val <<< 32 ||| h.destination.val, h.identification.val <<< 16 ||| h.protocol.val)

/-- `m_fragments`. -/
abbrev MapFragments := ℕ × ℕ → Option Fragments

/-- `ProcessFragment`: the packet, if it returns true. -/
def processFragment (m : MapFragments) (h : Flow) (f : Ipv4Fragment) :
    Except Ipv4Fault (Option (List Octet) × MapFragments) :=
  let fragments := ((m (fragmentKey h)).getD {}).addFragment f.payload f.fragmentOffset
    (!f.isLastFragment)
  if fragments.isEntire then do
    let packet ← fragments.getPacket
    return (some packet, update m (fragmentKey h) none)
  else .ok (none, update m (fragmentKey h) (some fragments))

theorem fragmentKey_injective {h h' : Flow} (heq : fragmentKey h = fragmentKey h') : h = h' := by
  obtain ⟨haddresses, hids⟩ := Prod.mk.inj heq
  have hshift (a b w : ℕ) (hb : b < 2 ^ w) : a <<< w ||| b = a * 2 ^ w + b := by
    rw [← Nat.shiftLeft_add_eq_or_of_lt hb, Nat.shiftLeft_eq]
  rw [hshift _ _ 32 h.destination.isLt, hshift _ _ 32 h'.destination.isLt] at haddresses
  rw [hshift _ _ 16 (h.protocol.isLt.trans (by decide)),
    hshift _ _ 16 (h'.protocol.isLt.trans (by decide))] at hids
  have hdst := h.destination.isLt
  have hdst' := h'.destination.isLt
  have hproto := h.protocol.isLt
  have hproto' := h'.protocol.isLt
  cases h
  cases h'
  dsimp only at *
  rw [Flow.mk.injEq]
  refine ⟨Fin.ext ?_, Fin.ext ?_, Fin.ext ?_, Fin.ext ?_⟩ <;> omega

/-! ## What has been received of a datagram -/

/-- The fragments include a last one, and together they cover the payload. -/
def Complete (d : Ipv4Payload) (received : List Ipv4Fragment) : Prop :=
  (∃ f ∈ received, f.moreFragments = false)
    ∧ ∀ n, n < d.octets.length → Covers (received.map Ipv4Fragment.piece) n

/-- Of the fragments with the greatest offset, the one that was received last has this flag. -/
def LatestAtEnd (received : List Ipv4Fragment) (more : Bool) : Prop :=
  ∃ before f behind, received = before ++ f :: behind ∧ f.moreFragments = more
    ∧ (∀ g ∈ before, g.fragmentOffset ≤ f.fragmentOffset)
    ∧ ∀ g ∈ behind, g.fragmentOffset < f.fragmentOffset

/-- What the list of fragments holds of those received. -/
structure Fragments.Holds (s : Fragments) (received : List Ipv4Fragment) : Prop where
  perm : s.fragments.Perm (received.map Ipv4Fragment.piece)
  sorted : s.fragments.Pairwise fun x y => x.2 ≤ y.2
  latest : received ≠ [] → LatestAtEnd received s.moreFragment

variable {d : Ipv4Payload} {s : Fragments} {received : List Ipv4Fragment} {f : Ipv4Fragment}

namespace Fragments

theorem holds_nil : ({} : Fragments).Holds [] := ⟨.refl _, .nil, fun h => absurd rfl h⟩

/-- **A fragment is put into the list.** -/
theorem Holds.addFragment (h : s.Holds received) (f : Ipv4Fragment) :
    (s.addFragment f.payload f.fragmentOffset (!f.isLastFragment)).Holds (received ++ [f]) := by
  have hflag : (!f.isLastFragment) = f.moreFragments := not_not _
  unfold Fragments.addFragment
  rw [hflag]
  constructor
  · have hfirst : (received ++ [f]).map Ipv4Fragment.piece
        ~ f.piece :: received.map Ipv4Fragment.piece := by
      rw [map_append]
      exact perm_append_singleton _ _
    exact (perm_orderedInsert _ _ _).trans ((h.perm.cons f.piece).trans hfirst.symm)
  · apply KeyedList.pairwise_orderedInsert _ (fun x y : List Octet × ℕ => x.2 ≤ y.2)
    · exact fun x y hlt => Nat.le_of_lt hlt
    · exact fun x y hge => Nat.le_of_not_lt hge
    · exact fun x y z hxy hyz => Nat.le_trans hxy hyz
    · exact h.sorted
  · intro _
    dsimp only
    split
    · -- at the end of the list
      rename_i hall
      refine ⟨received, f, [], rfl, rfl, fun g hg => ?_, fun g hg => absurd hg not_mem_nil⟩
      have hpiece : g.piece ∈ s.fragments :=
        h.perm.mem_iff.mpr (mem_map_of_mem hg)
      exact of_decide_eq_true (all_eq_true.mp hall g.piece hpiece)
    · -- before a fragment with a greater offset
      rename_i hsome
      have hgreater : ∃ x ∈ s.fragments, f.fragmentOffset < x.2 := by
        by_contra hnone
        refine hsome (all_eq_true.mpr fun x hx => decide_eq_true ?_)
        by_contra hlt
        exact hnone ⟨x, hx, Nat.lt_of_not_le hlt⟩
      obtain ⟨x, hx, hlt⟩ := hgreater
      obtain ⟨g, hg, rfl⟩ := mem_map.mp (h.perm.mem_iff.mp hx)
      obtain ⟨before, top, behind, rfl, hmore, hbefore, hbehind⟩ :=
        h.latest (ne_nil_of_mem hg)
      have hle : g.fragmentOffset ≤ top.fragmentOffset := by
        rcases mem_append.mp hg with hg | hg
        · exact hbefore g hg
        · rcases mem_cons.mp hg with rfl | hg
          · exact Nat.le_refl _
          · exact Nat.le_of_lt (hbehind g hg)
      refine ⟨before, top, behind ++ [f], by rw [append_assoc, cons_append], hmore,
        hbefore, fun y hy => ?_⟩
      rcases mem_append.mp hy with hy | hy
      · exact hbehind y hy
      · rw [mem_singleton.mp hy]
        exact Nat.lt_of_lt_of_le hlt hle

/-- The sweep of the code is that over pieces of a short message. -/
theorem connected_iff (pieces : List (List Octet × ℕ)) (last : ℕ)
    (h : ∀ x ∈ pieces, x.2 + x.1.length ≤ maxPayload) :
    connected last pieces = true ↔ NoGap last pieces := by
  unfold maxPayload at h
  induction pieces generalizing last with
  | nil => exact iff_of_true rfl trivial
  | cons x rest ih =>
    have hx := h x mem_cons_self
    have hend : (x.1.length + x.2) % 2 ^ 16 = x.1.length + x.2 := Nat.mod_eq_of_lt (by omega)
    unfold connected NoGap
    rw [hend]
    split
    · rename_i hgap
      exact iff_of_false false_ne_true fun hno => absurd hno.1 (Nat.not_le.mpr hgap)
    · rename_i hstart
      rw [ih _ fun y hy => h y (mem_cons_of_mem _ hy)]
      exact (and_iff_right (Nat.le_of_not_lt hstart)).symm

/-- Each piece adds what reaches beyond the ones before. -/
theorem addAtEnd_eq (pieces : List (List Octet × ℕ)) (last : ℕ)
    (h : ∀ x ∈ pieces, IsPiece d.octets x) (hlast : last ≤ d.octets.length)
    (hno : NoGap last pieces) :
    addAtEnd (d.octets.take last) last pieces = d.octets.take (reach last pieces) := by
  have hmax := d.le
  unfold maxPayload at hmax
  induction pieces generalizing last with
  | nil => rfl
  | cons x rest ih =>
    obtain ⟨hstart, hgo⟩ := hno
    have hx := h x mem_cons_self
    have hle := hx.le
    have hnext : (if x.2 < last then
          if last - x.2 < x.1.length then d.octets.take last ++ x.1.drop (last - x.2)
          else d.octets.take last
        else d.octets.take last ++ x.1) = d.octets.take (max last (x.1.length + x.2)) := by
      split
      · split
        · rw [hx.extend hstart (by omega)]
          congr 1
          omega
        · congr 1
          omega
      · rename_i hge
        have heq : last = x.2 := by omega
        have hextend := hx.extend hstart (by omega)
        rw [heq, Nat.sub_self, drop_zero] at hextend
        rw [heq, hextend]
        congr 1
        omega
    have hlength : (d.octets.take (max last (x.1.length + x.2))).length % 2 ^ 16
        = max last (x.1.length + x.2) := by
      rw [length_take, Nat.min_eq_left (by omega), Nat.mod_eq_of_lt (by omega)]
    unfold addAtEnd reach
    dsimp only
    rw [hnext, hlength]
    exact ih _ (fun y hy => h y (mem_cons_of_mem _ hy)) (by omega) hgo

/-- The latest fragment at the end is one. -/
theorem latestAtEnd_unique {more more' : Bool} (h : LatestAtEnd received more)
    (h' : LatestAtEnd received more') : more = more' := by
  obtain ⟨before, f, behind, hsplit, hmore, hbefore, hbehind⟩ := h
  obtain ⟨before', f', behind', hsplit', hmore', hbefore', hbehind'⟩ := h'
  rw [hsplit] at hsplit'
  rcases append_eq_append_iff.mp hsplit' with ⟨mid, hmid, hrest⟩ | ⟨mid, hmid, hrest⟩
  · cases mid with
    | nil =>
      cases hrest
      exact hmore.symm.trans hmore'
    | cons x mid =>
      -- the first one is before the second, which must reach as far
      rw [cons_append] at hrest
      cases hrest
      have hle := hbefore' f (hmid ▸ mem_append_right _ mem_cons_self)
      have hlt := hbehind f' (mem_append_right _ mem_cons_self)
      omega
  · cases mid with
    | nil =>
      cases hrest
      exact hmore.symm.trans hmore'
    | cons x mid =>
      rw [cons_append] at hrest
      cases hrest
      have hle := hbefore f' (hmid ▸ mem_append_right _ mem_cons_self)
      have hlt := hbehind' f (mem_append_right _ mem_cons_self)
      omega

variable (h : s.Holds received) (hof : ∀ f ∈ received, f.Of d ∧ f.IsFragment)
include h hof

/-- All that is in the list is a piece of the datagram, and none is empty. -/
theorem Holds.pieces : ∀ x ∈ s.fragments, IsPiece d.octets x ∧ 0 < x.1.length := by
  intro x hx
  obtain ⟨f, hf, rfl⟩ := mem_map.mp (h.perm.mem_iff.mp hx)
  obtain ⟨hfof, hfrag⟩ := hof f hf
  exact ⟨hfof.isPiece, hfof.pos hfrag⟩

omit h hof in
theorem Holds.covers_iff (h : s.Holds received) (n : ℕ) :
    Covers s.fragments n ↔ Covers (received.map Ipv4Fragment.piece) n := by
  unfold Covers
  exact exists_congr fun x => and_congr_left fun _ => h.perm.mem_iff

/-- The list has no gap exactly if it covers what it reaches over. -/
theorem Holds.noGap_iff : connected 0 s.fragments = true
      ↔ ∀ n, n < reach 0 s.fragments → Covers (received.map Ipv4Fragment.piece) n := by
  have hpieces := h.pieces hof
  have hmax := d.le
  rw [connected_iff _ _ fun x hx => (hpieces x hx).1.le.trans hmax,
    Overlaps.noGap_iff h.sorted fun x hx => (hpieces x hx).2]
  constructor
  · intro hall n hn
    exact (h.covers_iff n).mp (hall n (Nat.zero_le _) hn)
  · intro hall n _ hn
    exact (h.covers_iff n).mpr (hall n hn)

theorem Holds.reach_le : reach 0 s.fragments ≤ d.octets.length :=
  Overlaps.reach_le (Nat.zero_le _) fun x hx => (h.pieces hof x hx).1.le

/-- A last fragment makes the list reach to the end. -/
theorem Holds.reach_eq (hf : f ∈ received) (hlast : f.moreFragments = false) :
    reach 0 s.fragments = d.octets.length := by
  have hend : f.fragmentOffset + f.payload.length = d.octets.length :=
    (hof f hf).1.last.mp hlast
  have hin : f.piece ∈ s.fragments := h.perm.mem_iff.mpr (mem_map_of_mem hf)
  have hreach : f.fragmentOffset + f.payload.length ≤ reach 0 s.fragments := end_le_reach hin
  have hle := h.reach_le hof
  omega

/-- **When a datagram is taken for entire.** -/
theorem Holds.isEntire_iff :
    s.isEntire = true ↔ Complete d received ∧ LatestAtEnd received false := by
  unfold isEntire
  rw [and_eq_true, and_eq_true, h.noGap_iff hof, not_eq_true', not_eq_true']
  constructor
  · rintro ⟨⟨hmore, hsome⟩, hcovers⟩
    have hne : received ≠ [] := by
      rintro rfl
      rw [perm_nil.mp h.perm] at hsome
      cases hsome
    have hlatest := h.latest hne
    rw [hmore] at hlatest
    obtain ⟨before, f, behind, hsplit, hlast, -, -⟩ := id hlatest
    have hf : f ∈ received := hsplit ▸ mem_append_right _ mem_cons_self
    rw [h.reach_eq hof hf hlast] at hcovers
    exact ⟨⟨⟨f, hf, hlast⟩, hcovers⟩, hlatest⟩
  · rintro ⟨⟨⟨f, hf, hlast⟩, hcovers⟩, hlatest⟩
    refine ⟨⟨latestAtEnd_unique (h.latest (ne_nil_of_mem hf)) hlatest, ?_⟩, ?_⟩
    · cases hfragments : s.fragments with
      | nil =>
        have hperm := h.perm
        rw [hfragments] at hperm
        have hin : f.piece ∈ ([] : List (List Octet × ℕ)) :=
          hperm.mem_iff.mpr (mem_map_of_mem hf)
        exact absurd hin not_mem_nil
      | cons x rest => rfl
    · rw [h.reach_eq hof hf hlast]
      exact hcovers

/-- **The packet** of an entire datagram is its payload. -/
theorem Holds.getPacket (hentire : s.isEntire = true) : s.getPacket = .ok d.octets := by
  obtain ⟨⟨⟨f, hf, hlast⟩, -⟩, -⟩ := (h.isEntire_iff hof).mp hentire
  have hreach := h.reach_eq hof hf hlast
  have hpieces := h.pieces hof
  have hmax := d.le
  have hconnected : connected 0 s.fragments = true := (and_eq_true_iff.mp hentire).2
  rw [connected_iff _ _ fun x hx => (hpieces x hx).1.le.trans hmax] at hconnected
  unfold Fragments.getPacket
  cases hfragments : s.fragments with
  | nil =>
    unfold isEntire at hentire
    rw [hfragments] at hentire
    rw [and_eq_true, and_eq_true] at hentire
    cases hentire.1.2
  | cons x rest =>
    rw [hfragments] at hpieces hconnected hreach
    obtain ⟨hstart, hgo⟩ := hconnected
    have hx := (hpieces x mem_cons_self).1
    have hzero : x.2 = 0 := Nat.le_zero.mp hstart
    have hle := hx.le
    have hpacket := hx.eq
    rw [hzero, drop_zero] at hpacket
    rw [hzero, Nat.zero_add] at hle
    unfold maxPayload at hmax
    have hlength : x.1.length % 2 ^ 16 = x.1.length := Nat.mod_eq_of_lt (by omega)
    have hmaxLast : max 0 (x.1.length + x.2) = x.1.length := by
      rw [hzero]
      exact Nat.zero_max _
    unfold reach at hreach
    rw [hmaxLast] at hgo hreach
    have hrest := addAtEnd_eq rest x.1.length
      (fun y hy => (hpieces y (mem_cons_of_mem _ hy)).1) hle hgo
    rw [← hpacket, hreach, take_length] at hrest
    dsimp only
    rw [hlength, hrest]

end Fragments

/-! ## Runs -/

/-- What is kept of all datagrams, and what has been received of each since it was last entire. -/
structure Receiver where
  fragments : MapFragments := fun _ => none
  received : Flow → List Ipv4Fragment := fun _ => []

namespace Receiver

/-- A fragment comes in. -/
def step (s : Receiver) (i : Flow × Ipv4Fragment) : Except Ipv4Fault Receiver := do
  let r ← processFragment s.fragments i.1 i.2
  return {
    fragments := r.2
    received := update s.received i.1
      (if r.1.isSome then [] else s.received i.1 ++ [i.2]) }

def machine : Machine Receiver (Flow × Ipv4Fragment) Ipv4Fault := ⟨fun _ _ => True, step⟩

instance (s : Receiver) (i : Flow × Ipv4Fragment) : Decidable (machine.enabled s i) :=
  inferInstanceAs (Decidable True)

/-- A fragment of the datagram of its flow. -/
def Arrives (sent : Flow → Ipv4Payload) (i : Flow × Ipv4Fragment) : Prop :=
  Produced (sent i.1) i.2 ∧ i.2.IsFragment

/-- **A safe fragment.**  If it makes the datagram complete, the latest one of those with the
greatest offset is a last fragment. -/
def Safe (sent : Flow → Ipv4Payload) (s : Receiver) (i : Flow × Ipv4Fragment) : Prop :=
  Complete (sent i.1) (s.received i.1 ++ [i.2]) → LatestAtEnd (s.received i.1 ++ [i.2]) false

/-- **Right so.**  The datagram is reported exactly if it is complete, and with its payload. -/
def Reports (sent : Flow → Ipv4Payload) (s : Receiver) (i : Flow × Ipv4Fragment) : Prop :=
  ∃ packet m, processFragment s.fragments i.1 i.2 = .ok (packet, m)
    ∧ (packet.isSome = true ↔ Complete (sent i.1) (s.received i.1 ++ [i.2]))
    ∧ ∀ p, packet = some p → p = (sent i.1).octets

/-- The map holds what has been received. -/
structure Agrees (sent : Flow → Ipv4Payload) (s : Receiver) : Prop where
  holds : ∀ h, ((s.fragments (fragmentKey h)).getD {}).Holds (s.received h)
  of : ∀ h, ∀ f ∈ s.received h, f.Of (sent h) ∧ f.IsFragment

variable {sent : Flow → Ipv4Payload} {s : Receiver}

/-- Only the entry of the flow changes. -/
theorem Agrees.update (hs : s.Agrees sent) (h : Flow) (fragments : Option Fragments)
    (received : List Ipv4Fragment) (hholds : (fragments.getD {}).Holds received)
    (hof : ∀ f ∈ received, f.Of (sent h) ∧ f.IsFragment) :
    Agrees sent ⟨update s.fragments (fragmentKey h) fragments,
      update s.received h received⟩ := by
  constructor
  · intro h'
    by_cases heq : h' = h
    · subst heq
      dsimp only
      rw [update_self, update_self]
      exact hholds
    · dsimp only
      rw [update_of_ne heq,
        update_of_ne fun hkey => heq (fragmentKey_injective hkey)]
      exact hs.holds h'
  · intro h'
    by_cases heq : h' = h
    · subst heq
      dsimp only
      rw [update_self]
      exact hof
    · dsimp only
      rw [update_of_ne heq]
      exact hs.of h'

/-- **One fragment.**  The packet is returned exactly if the datagram is complete and the latest
fragment at the end is a last one. -/
theorem Agrees.processFragment (hs : s.Agrees sent) (h : Flow) (f : Ipv4Fragment)
    (hof : f.Of (sent h)) (hfrag : f.IsFragment) :
    ∃ packet m, Internet.processFragment s.fragments h f = .ok (packet, m)
      ∧ (packet.isSome = true ↔ Complete (sent h) (s.received h ++ [f])
          ∧ LatestAtEnd (s.received h ++ [f]) false)
      ∧ (∀ p, packet = some p → p = (sent h).octets)
      ∧ Agrees sent ⟨m, Function.update s.received h
          (if packet.isSome then [] else s.received h ++ [f])⟩ := by
  have hholds := (hs.holds h).addFragment f
  have hall : ∀ g ∈ s.received h ++ [f], g.Of (sent h) ∧ g.IsFragment := by
    intro g hg
    rcases mem_append.mp hg with hg | hg
    · exact hs.of h g hg
    · rw [mem_singleton.mp hg]
      exact ⟨hof, hfrag⟩
  unfold Internet.processFragment
  dsimp only
  generalize ((s.fragments (fragmentKey h)).getD {}).addFragment f.payload f.fragmentOffset
    (!f.isLastFragment) = fragments at hholds
  have hentire := hholds.isEntire_iff hall
  split
  · rename_i hdone
    rw [hholds.getPacket hall hdone]
    refine ⟨some (sent h).octets, _, rfl, iff_of_true rfl (hentire.mp hdone), fun p hp => ?_, ?_⟩
    · cases hp
      rfl
    · exact hs.update h none [] Fragments.holds_nil fun g hg => absurd hg not_mem_nil
  · rename_i hdone
    refine ⟨none, _, rfl, ?_, nofun, ?_⟩
    · exact iff_of_false nofun fun hcomplete => hdone (hentire.mpr hcomplete)
    exact hs.update h (some fragments) _ hholds hall

theorem agrees_init (sent : Flow → Ipv4Payload) : Agrees sent {} :=
  ⟨fun _ => Fragments.holds_nil, fun _ _ hf => absurd hf not_mem_nil⟩

/-- **Fragmentation and reassembly.**  What leaves by an interface fits the link, and all but the
last fragments carry a multiple of eight octets.  In every run of safe fragments, in whatever order
and however often they come, the next one is rightly answered exactly if it is safe. -/
theorem fragments_reassemble (sent : Flow → Ipv4Payload) :
    (∀ h f mtu, Produced (sent h) f → 28 ≤ mtu → mtu < 2 ^ 16 →
      ∃ fs, f.sendRealOut mtu = .ok fs ∧ (fs.map Ipv4Fragment.payload).flatten = f.payload
        ∧ ∀ g ∈ fs, g.payload.length + Ipv4Fragment.headerSize ≤ mtu
          ∧ (g.moreFragments = true → g.payload.length % 8 = 0))
    ∧ ∀ is s, machine.Run (fun s i => Arrives sent i ∧ Safe sent s i) {} is s →
      ∀ i, Arrives sent i → (Reports sent s i ↔ Safe sent s i) := by
  constructor
  · intro h f mtu hf hmtu hlt
    obtain ⟨fs, hsend, hflat, hall⟩ := hf.of.exists_sendRealOut hmtu hlt
    exact ⟨fs, hsend, hflat, fun g hg => ⟨(hall g hg).2, (hall g hg).1.size⟩⟩
  · intro is s hrun i hi
    have hs : Agrees sent s := by
      refine hrun.invariant (Agrees sent) (fun s i hs _ hi => ?_) (agrees_init sent)
      obtain ⟨packet, m, hresult, -, -, hnext⟩ := hs.processFragment i.1 i.2 hi.1.1.of hi.1.2
      show Post (step s i) _
      unfold step
      rw [hresult]
      exact hnext
    obtain ⟨packet, m, hresult, hsome, hpacket, -⟩ := hs.processFragment i.1 i.2 hi.1.of hi.2
    constructor
    · rintro ⟨packet', m', hresult', hsome', -⟩ hcomplete
      rw [hresult] at hresult'
      cases hresult'
      exact (hsome.mp (hsome'.mpr hcomplete)).2
    · intro hsafe
      refine ⟨packet, m, hresult, ?_, hpacket⟩
      rw [hsome]
      exact and_iff_left_of_imp hsafe

/-- Nothing last has come, or a last fragment comes at the end. -/
def isSafe (s : Receiver) (i : Flow × Ipv4Fragment) : Bool :=
  (s.received i.1 ++ [i.2]).all Ipv4Fragment.moreFragments
    || (!i.2.moreFragments
      && (s.received i.1).all fun g => decide (g.fragmentOffset ≤ i.2.fragmentOffset))

theorem safe_of_isSafe {i : Flow × Ipv4Fragment} (h : s.isSafe i = true) : Safe sent s i := by
  rintro ⟨⟨f, hf, hlast⟩, -⟩
  rcases or_eq_true_iff.mp h with hmore | hend
  · rw [all_eq_true.mp hmore f hf] at hlast
    cases hlast
  · obtain ⟨hi, hall⟩ := and_eq_true_iff.mp hend
    rw [not_eq_true'] at hi
    refine ⟨s.received i.1, i.2, [], rfl, hi, fun g hg => ?_,
      fun g hg => absurd hg not_mem_nil⟩
    exact of_decide_eq_true (all_eq_true.mp hall g hg)

/-- A datagram of 32 octets. -/
def sample : Ipv4Payload where
  octets := (List.range 32).map (BitVec.ofNat 8)
  le := by decide

def sampleFlow : Flow :=
  ⟨⟨1, by decide⟩, ⟨2, by decide⟩, ⟨3, by decide⟩, ⟨17, by decide⟩⟩

/-- A part of it. -/
def part (start length : ℕ) (more : Bool) : Flow × Ipv4Fragment :=
  (sampleFlow, ⟨start, more, (sample.octets.drop start).take length⟩)

/-- The datagram is cut in two, and its second half again. -/
def parts : List (Flow × Ipv4Fragment) :=
  [part 0 16 true, part 16 16 false, part 16 8 true, part 24 8 false]

theorem arrives_of_mem {i : Flow × Ipv4Fragment} (h : i ∈ parts) :
    Arrives (fun _ => sample) i := by
  have hhalf : Produced sample (part 16 16 false).2 :=
    .hop _ _ 36 [(part 0 16 true).2, (part 16 16 false).2] .whole (by decide) (by decide) rfl
      (mem_cons_of_mem _ mem_cons_self)
  have hsecond (g : Ipv4Fragment) (hg : g ∈ [(part 16 8 true).2, (part 24 8 false).2]) :
      Produced sample g :=
    .hop _ g 28 [(part 16 8 true).2, (part 24 8 false).2] hhalf (by decide) (by decide) rfl hg
  rcases mem_cons.mp h with rfl | h
  · refine ⟨.hop _ _ 36 [(part 0 16 true).2, (part 16 16 false).2] .whole (by decide) (by decide)
      rfl mem_cons_self, .inl rfl⟩
  rcases mem_cons.mp h with rfl | h
  · exact ⟨hhalf, .inr (by decide)⟩
  rcases mem_cons.mp h with rfl | h
  · exact ⟨hsecond _ mem_cons_self, .inl rfl⟩
  · rw [mem_singleton.mp h]
    exact ⟨hsecond _ (mem_cons_of_mem _ mem_cons_self), .inr (by decide)⟩

/-- The halves in order, with a part of the second one before it. -/
theorem fragments_reassemble_halves :
    ∃ s, machine.Run (fun s i => Arrives (fun _ => sample) i ∧ Safe (fun _ => sample) s i) {}
        [part 0 16 true, part 16 8 true] s
      ∧ (s.received sampleFlow).length = 2
      ∧ Reports (fun _ => sample) s (part 16 16 false) := by
  obtain ⟨s, hrun, htest⟩ := Machine.exists_run_of_exec (m := machine)
    (fun s i => parts.contains i && s.isSafe i)
    (fun s => (s.received sampleFlow).length == 2 && s.isSafe (part 16 16 false)) {}
    [part 0 16 true, part 16 8 true] (by decide +kernel)
  obtain ⟨hlength, hsafe⟩ := and_eq_true_iff.mp htest
  have hrun' : machine.Run (fun s i => Arrives (fun _ => sample) i ∧ Safe (fun _ => sample) s i) {}
      [part 0 16 true, part 16 8 true] s := by
    refine hrun.mono fun s i hi => ?_
    obtain ⟨hmem, hsafe⟩ := and_eq_true_iff.mp hi
    exact ⟨arrives_of_mem (contains_iff_mem.mp hmem), safe_of_isSafe hsafe⟩
  have hnext : Arrives (fun _ => sample) (part 16 16 false) :=
    arrives_of_mem (mem_cons_of_mem _ mem_cons_self)
  exact ⟨s, hrun', beq_iff_eq.mp hlength,
    ((fragments_reassemble fun _ => sample).2 _ s hrun' _ hnext).mpr (safe_of_isSafe hsafe)⟩

/-- The packet is not returned. -/
def returnsNothing (s : Receiver) (i : Flow × Ipv4Fragment) : Bool :=
  match processFragment s.fragments i.1 i.2 with
  | .ok (packet, _) => packet.isNone
  | .error _ => false

/-- The second half comes first, then a part of it that was cut again, and then the first half. -/
theorem not_fragments_reassemble : ¬ ∀ (sent : Flow → Ipv4Payload)
    (is : List (Flow × Ipv4Fragment)) (s : Receiver),
      machine.Run (fun _ i => Arrives sent i) {} is s → ∀ i, Arrives sent i → Reports sent s i := by
  intro hall
  obtain ⟨s, hrun, htest⟩ := Machine.exists_run_of_exec (m := machine)
    (fun _ i => parts.contains i)
    (fun s => s.received sampleFlow == [(part 16 16 false).2, (part 16 8 true).2]
      && s.returnsNothing (part 0 16 true)) {}
    [part 16 16 false, part 16 8 true] (by decide +kernel)
  obtain ⟨hreceived, hnothing⟩ := and_eq_true_iff.mp htest
  have hreceived : s.received sampleFlow = [(part 16 16 false).2, (part 16 8 true).2] :=
    beq_iff_eq.mp hreceived
  obtain ⟨packet, m, hresult, hsome, -⟩ := hall (fun _ => sample) _ s
    (hrun.mono fun _ i hi => arrives_of_mem (contains_iff_mem.mp hi)) (part 0 16 true)
    (arrives_of_mem mem_cons_self)
  have hcomplete : Complete sample (s.received sampleFlow ++ [(part 0 16 true).2]) := by
    rw [hreceived]
    refine ⟨⟨(part 16 16 false).2, mem_cons_self, rfl⟩, fun n hn => ?_⟩
    have hlt : n < 32 := hn
    by_cases hhalf : n < 16
    · refine ⟨(part 0 16 true).2.piece, ?_, Nat.zero_le _, hhalf⟩
      exact mem_map_of_mem (mem_append_right _ mem_cons_self)
    · exact ⟨(part 16 16 false).2.piece, mem_cons_self, Nat.le_of_not_lt hhalf, hlt⟩
  unfold returnsNothing at hnothing
  rw [hresult] at hnothing
  have hpacket : packet.isSome = true := hsome.mpr hcomplete
  cases packet with
  | none => cases hpacket
  | some p => cases hnothing

end Receiver

end Ns3Dsme.Internet
