/-
# The part of a datagram that has come

`GetPartialPacket` puts together what has come of a datagram when its time is over.  It takes the
fragments by their offsets as `GetPacket` does, but cuts the ones that overlap without asking
whether they reach further.
-/
import Ns3Dsme.Internet.Ipv4Reassembly
import Ns3Dsme.Lib.Word32
import Mathlib.Data.Int.Notation

open List Overlaps

namespace Ns3Dsme.Internet

/-- `Packet::CreateFragment`, with its assertion: `Buffer::CreateFragment` removes octets at both
ends, as far as there are any. -/
def createFragment (packet : List Octet) (start length : ℕ) : Option (List Octet) :=
  if Word32.add start length ≤ packet.length then
    some ((packet.drop start).take
      ((packet.drop start).length - Word32.sub packet.length (Word32.add start length)))
  else none

/-- What `GetPartialPacket` computes: the packet and the values of `newSize`, before they become
words of 32 bits. -/
structure PartialPacket where
  packet : List Octet := []
  newSizes : List ℤ := []
  deriving DecidableEq

namespace Fragments

/-- A turn of the loop of `GetPartialPacket`. -/
def addPartialFragment (r : PartialPacket) (lastEndOffset : ℕ) (it : List Octet × ℕ) :
    Option PartialPacket :=
  if it.2 < lastEndOffset then
    let newStart := lastEndOffset - it.2
    (createFragment it.1 newStart (Word32.sub it.1.length newStart)).map fun tempFragment =>
      ⟨r.packet ++ tempFragment, r.newSizes ++ [(it.1.length : ℤ) - newStart]⟩
  else if lastEndOffset = it.2 then some { r with packet := r.packet ++ it.1 }
  else some r

/-- The loop of `GetPartialPacket`. -/
def addPartial (r : PartialPacket) (lastEndOffset : ℕ) :
    List (List Octet × ℕ) → Option PartialPacket
  | [] => some r
  | it :: rest => do
    let r ← addPartialFragment r lastEndOffset it
    addPartial r (r.packet.length % 2 ^ 16) rest

/-- `GetPartialPacket`. -/
def getPartialPacket (s : Fragments) : Option PartialPacket :=
  match s.fragments with
  | [] => none
  | it :: _ => if it.2 > 0 then some {} else addPartial {} 0 s.fragments

end Fragments

/-- The octets from the start of a datagram that the pieces cover, as far as they go, each one as
some piece has it. -/
structure IsLongestPrefix (pieces : List (List Octet × ℕ)) (packet : List Octet) : Prop where
  octets : ∀ n < packet.length, ∃ x ∈ pieces, x.2 ≤ n ∧ x.1[n - x.2]? = packet[n]?
  stops : ¬ Covers pieces packet.length

/-- **Right so**: the longest prefix, without an underflow on the way. -/
structure PartialPacket.Exact (r : PartialPacket) (pieces : List (List Octet × ℕ)) : Prop where
  noUnderflow : ∀ newSize ∈ r.newSizes, 0 ≤ newSize
  longest : IsLongestPrefix pieces r.packet

/-- No piece up to the first gap ends before the one in front of it, until one ends behind all
that 16 bits count; and none reaches further than that one. -/
def Growing : ℕ → List (List Octet × ℕ) → Prop
  | _, [] => True
  | last, it :: rest =>
    it.2 ≤ last → last ≤ it.2 + it.1.length ∧
      if it.2 + it.1.length < 2 ^ 16 then Growing (it.2 + it.1.length) rest
      else ∀ x ∈ rest, x.2 + x.1.length ≤ it.2 + it.1.length

/-- The lengths and the offsets that fragments can have. -/
def Short (pieces : List (List Octet × ℕ)) : Prop :=
  ∀ x ∈ pieces, x.2 < 2 ^ 16 ∧ x.1.length < 2 ^ 16

/-! ## A turn -/

/-- The words wrap around so that nothing is left where a piece is too short. -/
theorem createFragment_sub {packet : List Octet} (start : ℕ) (hsize : packet.length < 2 ^ 32) :
    createFragment packet start (Word32.sub packet.length start) = some (packet.drop start) := by
  have hadd : Word32.add start (Word32.sub packet.length start) = packet.length := by
    unfold Word32.add Word32.sub
    omega
  have hsub : Word32.sub packet.length packet.length = 0 := by
    rw [Word32.sub_eq (Nat.le_refl _) hsize, Nat.sub_self]
  unfold createFragment
  rw [hadd, if_pos (Nat.le_refl _), hsub, Nat.sub_zero, take_length]

namespace Fragments

variable {r : PartialPacket} {it : List Octet × ℕ} {rest : List (List Octet × ℕ)} {last : ℕ}

/-- Behind a gap. -/
theorem addPartialFragment_gap (hgap : last < it.2) : addPartialFragment r last it = some r := by
  unfold addPartialFragment
  rw [if_neg (by omega), if_neg (by omega)]

/-- A piece adds what of it is behind the packet, and nothing if it ends before. -/
theorem addPartialFragment_meets (hstart : it.2 ≤ last) (hsize : it.1.length < 2 ^ 16) :
    addPartialFragment r last it = some ⟨r.packet ++ it.1.drop (last - it.2),
      r.newSizes ++ if it.2 < last then [(it.1.length : ℤ) - (last - it.2 : ℕ)] else []⟩ := by
  unfold addPartialFragment
  by_cases hlt : it.2 < last
  · have hsize' : it.1.length < 2 ^ 32 := by omega
    rw [if_pos hlt, if_pos hlt]
    dsimp only
    rw [createFragment_sub _ hsize']
    rfl
  · have heq : last = it.2 := by omega
    rw [if_neg hlt, if_neg hlt, if_pos heq, heq, Nat.sub_self, drop_zero, append_nil]

/-- **Behind a gap** nothing is added. -/
theorem addPartial_gap (hlast : r.packet.length % 2 ^ 16 = last) (hgap : ∀ x ∈ rest, last < x.2) :
    addPartial r last rest = some r := by
  induction rest with
  | nil => rfl
  | cons it rest ih =>
    unfold addPartial
    rw [addPartialFragment_gap (hgap it mem_cons_self)]
    show addPartial r (r.packet.length % 2 ^ 16) rest = some r
    rw [hlast]
    exact ih fun x hx => hgap x (mem_cons_of_mem _ hx)

/-- The loop ends, and keeps the sizes that it has computed. -/
theorem exists_addPartial (hshort : Short rest) (r : PartialPacket) (last : ℕ) :
    ∃ r', addPartial r last rest = some r' ∧ r.newSizes ⊆ r'.newSizes := by
  induction rest generalizing r last with
  | nil => exact ⟨r, rfl, List.Subset.refl _⟩
  | cons it rest ih =>
    have hnext : ∃ r1, addPartialFragment r last it = some r1 ∧ r.newSizes ⊆ r1.newSizes := by
      by_cases hstart : it.2 ≤ last
      · refine ⟨_, addPartialFragment_meets hstart (hshort it mem_cons_self).2, ?_⟩
        exact subset_append_left _ _
      · exact ⟨r, addPartialFragment_gap (Nat.lt_of_not_le hstart), List.Subset.refl _⟩
    obtain ⟨r1, hr1, hsub1⟩ := hnext
    obtain ⟨r', hr', hsub⟩ := ih (fun x hx => hshort x (mem_cons_of_mem _ hx)) r1
      (r1.packet.length % 2 ^ 16)
    refine ⟨r', ?_, List.Subset.trans hsub1 hsub⟩
    unfold addPartial
    rw [hr1]
    exact hr'

/-- **The loop**: it computes no negative size and reaches the first gap exactly if the pieces are
growing. -/
theorem addPartial_iff (hsorted : rest.Pairwise fun x y => x.2 ≤ y.2) (hshort : Short rest)
    (hlength : r.packet.length = last) (hlast : last < 2 ^ 16)
    (hsizes : ∀ newSize ∈ r.newSizes, 0 ≤ newSize) {r' : PartialPacket}
    (hr' : addPartial r last rest = some r') :
    ((∀ newSize ∈ r'.newSizes, 0 ≤ newSize) ∧ r'.packet.length = extent last rest) ↔
      Growing last rest := by
  induction rest generalizing r last with
  | nil =>
    cases hr'
    exact iff_of_true ⟨hsizes, hlength⟩ trivial
  | cons it rest ih =>
    obtain ⟨hfirst, hrest⟩ := pairwise_cons.mp hsorted
    obtain ⟨hoffset, hsize⟩ := hshort it mem_cons_self
    have hshort' : Short rest := fun x hx => hshort x (mem_cons_of_mem _ hx)
    by_cases hstart : it.2 ≤ last
    · unfold addPartial at hr'
      rw [addPartialFragment_meets hstart hsize] at hr'
      replace hr' : addPartial _ _ rest = some r' := hr'
      have hextent : extent last (it :: rest) = extent (max last (it.2 + it.1.length)) rest :=
        if_pos hstart
      rw [hextent]
      by_cases hend : last ≤ it.2 + it.1.length
      · -- the piece is added
        have hlength' : (r.packet ++ it.1.drop (last - it.2)).length = it.2 + it.1.length := by
          rw [length_append, length_drop, hlength]
          omega
        have hsizes' : ∀ newSize ∈ r.newSizes ++ (if it.2 < last then
            [(it.1.length : ℤ) - (last - it.2 : ℕ)] else []), 0 ≤ newSize := by
          intro newSize hmem
          rcases mem_append.mp hmem with hold | hnew
          · exact hsizes newSize hold
          · split at hnew
            · rw [mem_singleton.mp hnew]
              omega
            · cases hnew
        have hgrowing : Growing last (it :: rest) ↔ if it.2 + it.1.length < 2 ^ 16 then
            Growing (it.2 + it.1.length) rest
            else ∀ x ∈ rest, x.2 + x.1.length ≤ it.2 + it.1.length :=
          ⟨fun h => (h hstart).2, fun h _ => ⟨hend, h⟩⟩
        rw [hgrowing, Nat.max_eq_right hend]
        split
        · rename_i hshortEnd
          rw [hlength', Nat.mod_eq_of_lt hshortEnd] at hr'
          exact ih hrest hshort' hlength' hshortEnd hsizes' hr'
        · -- the end is cut to 16 bits, so that a gap seems to follow
          rename_i hlong
          rw [hlength'] at hr'
          have hgap : ∀ x ∈ rest, (it.2 + it.1.length) % 2 ^ 16 < x.2 := by
            intro x hx
            have hle := hfirst x hx
            omega
          rw [addPartial_gap (by rw [hlength']) hgap] at hr'
          cases hr'
          dsimp only
          rw [hlength', eq_comm, extent_eq_self_iff fun x hx => by
            have hx' := (hshort' x hx).1
            omega]
          exact and_iff_right hsizes'
      · -- the piece is embedded: the size is negative
        refine iff_of_false (fun h => ?_) fun h => hend (h hstart).1
        have hlt : it.2 < last := by omega
        obtain ⟨r'', hr'', hsub⟩ := exists_addPartial hshort' ⟨r.packet ++ it.1.drop (last - it.2),
          r.newSizes ++ if it.2 < last then [(it.1.length : ℤ) - (last - it.2 : ℕ)] else []⟩
          ((r.packet ++ it.1.drop (last - it.2)).length % 2 ^ 16)
        cases hr'.symm.trans hr''
        have hmem : (it.1.length : ℤ) - (last - it.2 : ℕ) ∈ r'.newSizes := by
          apply hsub
          rw [if_pos hlt]
          exact mem_append_right _ mem_cons_self
        have hneg := h.1 _ hmem
        omega
    · -- a gap
      have hgap : ∀ x ∈ it :: rest, last < x.2 := by
        intro x hx
        rcases mem_cons.mp hx with rfl | hx
        · exact Nat.lt_of_not_le hstart
        · exact Nat.lt_of_lt_of_le (Nat.lt_of_not_le hstart) (hfirst x hx)
      rw [addPartial_gap (by rw [hlength, Nat.mod_eq_of_lt hlast]) hgap] at hr'
      cases hr'
      rw [extent_of_gap hgap]
      exact iff_of_true ⟨hsizes, hlength⟩ fun h => absurd h hstart

/-- What a piece adds is at its place. -/
theorem octets_append {pieces : List (List Octet × ℕ)} {packet : List Octet} (hit : it ∈ pieces)
    (hstart : it.2 ≤ packet.length)
    (hoctets : ∀ n < packet.length, ∃ x ∈ pieces, x.2 ≤ n ∧ x.1[n - x.2]? = packet[n]?) :
    ∀ n < (packet ++ it.1.drop (packet.length - it.2)).length,
      ∃ x ∈ pieces, x.2 ≤ n ∧
        x.1[n - x.2]? = (packet ++ it.1.drop (packet.length - it.2))[n]? := by
  intro n hn
  by_cases hold : n < packet.length
  · obtain ⟨x, hx, hle, hoctet⟩ := hoctets n hold
    exact ⟨x, hx, hle, hoctet.trans (List.getElem?_append_left hold).symm⟩
  · have hplace : packet.length - it.2 + (n - packet.length) = n - it.2 := by omega
    refine ⟨it, hit, by omega, ?_⟩
    rw [List.getElem?_append_right (Nat.le_of_not_lt hold), List.getElem?_drop, hplace]

/-- **Every octet of the packet** is one of a piece. -/
theorem octets_addPartial {pieces : List (List Octet × ℕ)} (hsub : rest ⊆ pieces)
    (hsorted : rest.Pairwise fun x y => x.2 ≤ y.2) (hshort : Short rest)
    (hlength : r.packet.length = last) (hlast : last < 2 ^ 16)
    (hoctets : ∀ n < r.packet.length, ∃ x ∈ pieces, x.2 ≤ n ∧ x.1[n - x.2]? = r.packet[n]?)
    {r' : PartialPacket} (hr' : addPartial r last rest = some r') :
    ∀ n < r'.packet.length, ∃ x ∈ pieces, x.2 ≤ n ∧ x.1[n - x.2]? = r'.packet[n]? := by
  induction rest generalizing r last with
  | nil =>
    cases hr'
    exact hoctets
  | cons it rest ih =>
    obtain ⟨hfirst, hrest⟩ := pairwise_cons.mp hsorted
    obtain ⟨hoffset, hsize⟩ := hshort it mem_cons_self
    have hshort' : Short rest := fun x hx => hshort x (mem_cons_of_mem _ hx)
    have hsub' : rest ⊆ pieces := fun x hx => hsub (mem_cons_of_mem _ hx)
    by_cases hstart : it.2 ≤ last
    · unfold addPartial at hr'
      rw [addPartialFragment_meets hstart hsize] at hr'
      replace hr' : addPartial _ _ rest = some r' := hr'
      subst hlength
      have hoctets' := octets_append (hsub mem_cons_self) hstart hoctets
      by_cases hlong : (r.packet ++ it.1.drop (r.packet.length - it.2)).length < 2 ^ 16
      · rw [Nat.mod_eq_of_lt hlong] at hr'
        exact ih hsub' hrest hshort' rfl hlong hoctets' hr'
      · -- nothing more is added
        have hgap : ∀ x ∈ rest,
            (r.packet ++ it.1.drop (r.packet.length - it.2)).length % 2 ^ 16 < x.2 := by
          intro x hx
          have hle := hfirst x hx
          rw [length_append, length_drop] at hlong ⊢
          omega
        rw [addPartial_gap rfl hgap] at hr'
        cases hr'
        exact hoctets'
    · have hgap : ∀ x ∈ it :: rest, last < x.2 := by
        intro x hx
        rcases mem_cons.mp hx with rfl | hx
        · exact Nat.lt_of_not_le hstart
        · exact Nat.lt_of_lt_of_le (Nat.lt_of_not_le hstart) (hfirst x hx)
      rw [addPartial_gap (by rw [hlength, Nat.mod_eq_of_lt hlast]) hgap] at hr'
      cases hr'
      exact hoctets

/-- The question whether the first fragment is at the start is answered by the loop. -/
theorem getPartialPacket_eq {s : Fragments} (hsome : s.fragments ≠ [])
    (hsorted : s.fragments.Pairwise fun x y => x.2 ≤ y.2) :
    s.getPartialPacket = addPartial {} 0 s.fragments := by
  unfold getPartialPacket
  cases hfragments : s.fragments with
  | nil => exact absurd hfragments hsome
  | cons it rest =>
    rw [hfragments] at hsorted
    dsimp only
    split
    · rename_i hpos
      have hgap : ∀ x ∈ it :: rest, 0 < x.2 := by
        intro x hx
        rcases mem_cons.mp hx with rfl | hx
        · exact hpos
        · exact Nat.lt_of_lt_of_le hpos ((pairwise_cons.mp hsorted).1 x hx)
      have hzero : ({} : PartialPacket).packet.length % 2 ^ 16 = 0 := rfl
      exact (addPartial_gap hzero hgap).symm
    · rfl

/-- A packet of octets of the pieces is the longest prefix exactly if it reaches the first gap. -/
theorem isLongestPrefix_iff {pieces : List (List Octet × ℕ)} {packet : List Octet}
    (hsorted : pieces.Pairwise fun x y => x.2 ≤ y.2)
    (hoctets : ∀ n < packet.length, ∃ x ∈ pieces, x.2 ≤ n ∧ x.1[n - x.2]? = packet[n]?) :
    IsLongestPrefix pieces packet ↔ packet.length = extent 0 pieces := by
  constructor
  · intro h
    rcases Nat.lt_trichotomy packet.length (extent 0 pieces) with hlt | heq | hgt
    · exact absurd (covers_of_lt_extent (Nat.zero_le _) hlt) h.stops
    · exact heq
    · obtain ⟨x, hx, hle, hoctet⟩ := hoctets _ hgt
      rw [List.getElem?_eq_getElem hgt] at hoctet
      obtain ⟨hin, -⟩ := List.getElem?_eq_some_iff.mp hoctet
      exact absurd ⟨x, hx, hle, by omega⟩ (not_covers_extent hsorted)
  · intro heq
    refine ⟨hoctets, ?_⟩
    rw [heq]
    exact not_covers_extent hsorted

/-- **What `GetPartialPacket` computes** is exact if and only if the fragments are growing. -/
theorem exact_getPartialPacket_iff {s : Fragments} (hsome : s.fragments ≠ [])
    (hsorted : s.fragments.Pairwise fun x y => x.2 ≤ y.2) (hshort : Short s.fragments) :
    ∃ r, s.getPartialPacket = some r ∧ (r.Exact s.fragments ↔ Growing 0 s.fragments) := by
  obtain ⟨r, hr, -⟩ := exists_addPartial hshort {} 0
  have hnone : ∀ n < ({} : PartialPacket).packet.length,
      ∃ x ∈ s.fragments, x.2 ≤ n ∧ x.1[n - x.2]? = ({} : PartialPacket).packet[n]? :=
    fun n hn => absurd hn (Nat.not_lt_zero n)
  have hlength : ({} : PartialPacket).packet.length = 0 := rfl
  have hsizes : ∀ newSize ∈ ({} : PartialPacket).newSizes, 0 ≤ newSize :=
    fun _ h => absurd h not_mem_nil
  have hoctets :=
    octets_addPartial (List.Subset.refl _) hsorted hshort hlength (by decide) hnone hr
  have hiff := addPartial_iff hsorted hshort hlength (by decide) hsizes hr
  refine ⟨r, (getPartialPacket_eq hsome hsorted).trans hr, ?_⟩
  rw [← hiff, ← isLongestPrefix_iff hsorted hoctets]
  exact ⟨fun h => ⟨h.noUnderflow, h.longest⟩, fun h => ⟨h.1, h.2⟩⟩

end Fragments

end Ns3Dsme.Internet
