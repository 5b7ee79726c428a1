/-
# IPv4 fragments

`DoFragmentation` cuts a packet that does not fit the link into pieces of a multiple of eight
octets, and the last one of what is left.  A piece may be cut again on the way.
-/
import Ns3Dsme.Lib.Octets
import Ns3Dsme.Lib.Overlaps
import Ns3Dsme.Lib.Program
import Mathlib.Algebra.Group.Nat.Defs

open List Program Overlaps

namespace Ns3Dsme.Internet

/-- What stops the code: a failed check, a read past the end, or a loop that does not end. -/
inductive Ipv4Fault
  | invalidOffset
  | noFragment
  | endless
  deriving DecidableEq, Repr

/-- A packet on its way: what `DoFragmentation` and `ProcessFragment` read and write of its header,
and its payload. -/
structure Ipv4Fragment where
  fragmentOffset : ℕ
  moreFragments : Bool
  payload : List Octet
  deriving DecidableEq

namespace Ipv4Fragment

/-- `GetSerializedSize` of a header without options. -/
def headerSize : ℕ := 20

/-- `IsLastFragment`. -/
def isLastFragment (f : Ipv4Fragment) : Bool := !f.moreFragments

/-- `SetFragmentOffset`, which checks the offset. -/
def setFragmentOffset (f : Ipv4Fragment) (offsetBytes : ℕ) : Except Ipv4Fault Ipv4Fragment :=
  if offsetBytes % 8 ≠ 0 then .error .invalidOffset
  else .ok { f with fragmentOffset := offsetBytes }

/-- The octets that a fragment carries on a link. -/
def targetSize (outIfaceMtu : ℕ) : ℕ := (outIfaceMtu + 2 ^ 32 - headerSize) % 2 ^ 32 / 8 * 8

/-- The loop of `DoFragmentation`.  `turns` bounds its turns; it is a fault to need more. -/
def cut (f : Ipv4Fragment) (fragmentSize : ℕ) : ℕ → ℕ → Except Ipv4Fault (List Ipv4Fragment)
  | 0, _ => .error .endless
  | turns + 1, offset =>
    if offset + fragmentSize < f.payload.length then do
      let fragment ← setFragmentOffset ⟨f.fragmentOffset, true,
        (f.payload.drop offset).take fragmentSize⟩ ((offset + f.fragmentOffset) % 2 ^ 16)
      let rest ← f.cut fragmentSize turns ((offset + fragmentSize) % 2 ^ 16)
      return fragment :: rest
    else do
      let fragment ← setFragmentOffset ⟨f.fragmentOffset, !f.isLastFragment,
        (f.payload.drop offset).take (f.payload.length - offset)⟩
        ((offset + f.fragmentOffset) % 2 ^ 16)
      return [fragment]

/-- `DoFragmentation`. -/
def doFragmentation (f : Ipv4Fragment) (outIfaceMtu : ℕ) : Except Ipv4Fault (List Ipv4Fragment) :=
  f.cut (targetSize outIfaceMtu) (f.payload.length + 1) 0

/-- `SendRealOut`: what leaves by an interface. -/
def sendRealOut (f : Ipv4Fragment) (mtu : ℕ) : Except Ipv4Fault (List Ipv4Fragment) :=
  if mtu < f.payload.length + headerSize then f.doFragmentation mtu else .ok [f]

end Ipv4Fragment

/-- The largest payload of a datagram. -/
def maxPayload : ℕ := 65515

/-- The payload of a datagram. -/
structure Ipv4Payload where
  octets : List Octet
  le : octets.length ≤ maxPayload

/-- The fragments of a datagram that can be on the way: the packet as it was sent, and what the
links it passes make of it. -/
inductive Produced (d : Ipv4Payload) : Ipv4Fragment → Prop
  | whole : Produced d ⟨0, false, d.octets⟩
  | hop (f g : Ipv4Fragment) (mtu : ℕ) (fs : List Ipv4Fragment) (hf : Produced d f)
      (hmtu : 28 ≤ mtu) (hlt : mtu < 2 ^ 16) (hsend : f.sendRealOut mtu = .ok fs) (hg : g ∈ fs) :
      Produced d g

namespace Ipv4Fragment

/-- The fragment as a piece of its datagram. -/
def piece (f : Ipv4Fragment) : List Octet × ℕ := (f.payload, f.fragmentOffset)

/-- `LocalDeliver` takes it for a fragment. -/
def IsFragment (f : Ipv4Fragment) : Prop := f.moreFragments = true ∨ f.fragmentOffset ≠ 0

/-- A fragment of a datagram: it is a piece at a multiple of eight octets, it is the last one
exactly if it ends where the datagram ends, and else carries a multiple of eight octets. -/
structure Of (d : Ipv4Payload) (f : Ipv4Fragment) : Prop where
  isPiece : IsPiece d.octets f.piece
  offset : f.fragmentOffset % 8 = 0
  last : f.moreFragments = false ↔ f.fragmentOffset + f.payload.length = d.octets.length
  size : f.moreFragments = true → f.payload.length % 8 = 0
  pos : f.IsFragment → 0 < f.payload.length

/-- What is cut out of a packet: `length` octets at `start`.  It ends before the packet does, or it
is the last one. -/
structure CutAt (f : Ipv4Fragment) (fragmentSize : ℕ) (g : Ipv4Fragment) (start : ℕ) : Prop where
  dvd : start % 8 = 0
  offset : g.fragmentOffset = start + f.fragmentOffset
  le : start + g.payload.length ≤ f.payload.length
  payload : g.payload = (f.payload.drop start).take g.payload.length
  pos : 0 < g.payload.length
  fits : g.payload.length ≤ fragmentSize
  more : (g.moreFragments = true ∧ g.payload.length = fragmentSize
      ∧ start + g.payload.length < f.payload.length)
    ∨ (g.moreFragments = f.moreFragments ∧ start + g.payload.length = f.payload.length)

variable {d : Ipv4Payload} {f g : Ipv4Fragment} {fragmentSize mtu : ℕ}

/-- **The loop of the cut.** -/
theorem exists_cut (f : Ipv4Fragment) (fragmentSize : ℕ) (hpos : 0 < fragmentSize)
    (hdvd : fragmentSize % 8 = 0) (hoffset : f.fragmentOffset % 8 = 0)
    (hbound : f.fragmentOffset + f.payload.length ≤ maxPayload) (turns : ℕ) :
    ∀ offset, offset % 8 = 0 → offset < f.payload.length → f.payload.length - offset ≤ turns →
      ∃ fs, f.cut fragmentSize turns offset = .ok fs
        ∧ (fs.map Ipv4Fragment.payload).flatten = f.payload.drop offset
        ∧ ∀ g ∈ fs, ∃ start, f.CutAt fragmentSize g start := by
  unfold maxPayload at hbound
  induction turns with
  | zero =>
    intro offset _ hlt hturns
    exact absurd hturns (by omega)
  | succ turns ih =>
    intro offset hmod hlt hturns
    have hhere : (offset + f.fragmentOffset) % 2 ^ 16 = offset + f.fragmentOffset :=
      Nat.mod_eq_of_lt (by omega)
    have hvalid : ¬ (offset + f.fragmentOffset) % 8 ≠ 0 := by omega
    unfold cut setFragmentOffset
    rw [hhere, if_neg hvalid, if_neg hvalid]
    split
    · -- another fragment follows
      rename_i hmore
      have hnext : (offset + fragmentSize) % 2 ^ 16 = offset + fragmentSize :=
        Nat.mod_eq_of_lt (by omega)
      obtain ⟨rest, hrest, hflat, hall⟩ := ih (offset + fragmentSize) (by omega) hmore (by omega)
      have hlength : ((f.payload.drop offset).take fragmentSize).length = fragmentSize := by
        rw [length_take, length_drop]
        omega
      rw [hnext, hrest]
      refine ⟨_, rfl, ?_, ?_⟩
      · rw [map_cons, flatten_cons, hflat, ← drop_drop]
        exact take_append_drop fragmentSize (f.payload.drop offset)
      · intro g hg
        rcases mem_cons.mp hg with rfl | hg
        · refine ⟨offset, hmod, rfl, ?_, ?_, ?_, ?_, .inl ⟨rfl, hlength, ?_⟩⟩
          · show offset + ((f.payload.drop offset).take fragmentSize).length ≤ _
            omega
          · show _ = (f.payload.drop offset).take ((f.payload.drop offset).take fragmentSize).length
            rw [hlength]
          · show 0 < ((f.payload.drop offset).take fragmentSize).length
            omega
          · exact hlength.le
          · show offset + ((f.payload.drop offset).take fragmentSize).length < _
            omega
        · exact hall g hg
    · -- the last fragment takes what is left
      rename_i hlast
      have hlength : ((f.payload.drop offset).take (f.payload.length - offset)).length
          = f.payload.length - offset := by
        rw [length_take, length_drop]
        omega
      have hall : (f.payload.drop offset).take (f.payload.length - offset)
          = f.payload.drop offset :=
        take_of_length_le (by rw [length_drop])
      refine ⟨_, rfl, ?_, ?_⟩
      · rw [map_cons, map_nil, flatten_cons, flatten_nil, append_nil]
        exact hall
      · intro g hg
        rcases mem_singleton.mp hg with rfl
        refine ⟨offset, hmod, rfl, ?_, ?_, ?_, ?_, .inr ⟨Bool.not_not _, ?_⟩⟩
        · show offset + ((f.payload.drop offset).take (f.payload.length - offset)).length ≤ _
          omega
        · show _ = (f.payload.drop offset).take
            ((f.payload.drop offset).take (f.payload.length - offset)).length
          rw [hlength]
        · show 0 < ((f.payload.drop offset).take (f.payload.length - offset)).length
          omega
        · show ((f.payload.drop offset).take (f.payload.length - offset)).length ≤ _
          omega
        · show offset + ((f.payload.drop offset).take (f.payload.length - offset)).length = _
          omega

/-- What is cut out of a fragment of a datagram is a fragment of the datagram. -/
theorem Of.of_cutAt (h : f.Of d) {start : ℕ} (hcut : f.CutAt fragmentSize g start)
    (hdvd : fragmentSize % 8 = 0) : g.Of d := by
  have hle := h.isPiece.le
  have heq := h.isPiece.eq
  unfold piece at hle heq
  dsimp only at hle heq
  have hin := hcut.le
  have hoffset := h.offset
  have hstart := hcut.dvd
  refine ⟨⟨?_, ?_⟩, ?_, ?_, ?_, fun _ => hcut.pos⟩
  · show g.fragmentOffset + g.payload.length ≤ _
    rw [hcut.offset]
    omega
  · show g.payload = (d.octets.drop g.fragmentOffset).take g.payload.length
    have hpayload := hcut.payload
    rw [heq, drop_take, drop_drop, take_take, Nat.min_eq_left (by omega)] at hpayload
    rw [hcut.offset, Nat.add_comm]
    exact hpayload
  · rw [hcut.offset]
    omega
  · rw [hcut.offset]
    rcases hcut.more with ⟨hmore, -, hbefore⟩ | ⟨hmore, hend⟩
    · rw [hmore]
      refine iff_of_false (fun htrue => Bool.noConfusion htrue) ?_
      omega
    · rw [hmore, h.last]
      omega
  · intro hmore
    rcases hcut.more with ⟨-, hsize, -⟩ | ⟨hsame, hend⟩
    · rw [hsize]
      exact hdvd
    · have hsize := h.size (hsame.symm.trans hmore)
      omega

/-- **What leaves by an interface** fits the link and carries a multiple of eight octets, unless it
is the last fragment.  Together it is what was to be sent. -/
theorem Of.exists_sendRealOut (h : f.Of d) (hmtu : 28 ≤ mtu) (hlt : mtu < 2 ^ 16) :
    ∃ fs, f.sendRealOut mtu = .ok fs ∧ (fs.map Ipv4Fragment.payload).flatten = f.payload
      ∧ ∀ g ∈ fs, g.Of d ∧ g.payload.length + headerSize ≤ mtu := by
  have hle := h.isPiece.le
  have hmax := d.le
  unfold piece at hle
  dsimp only at hle
  unfold sendRealOut headerSize
  split
  · rename_i hlong
    have htarget : targetSize mtu = (mtu - 20) / 8 * 8 := by
      unfold targetSize headerSize
      omega
    obtain ⟨fs, hcut, hflat, hall⟩ := exists_cut f (targetSize mtu) (by omega) (by omega)
      h.offset (hle.trans hmax) (f.payload.length + 1) 0 rfl (by omega)
      (by omega)
    refine ⟨fs, hcut, hflat, fun g hg => ?_⟩
    obtain ⟨start, hg⟩ := hall g hg
    have hfits := hg.fits
    exact ⟨h.of_cutAt hg (by omega), by omega⟩
  · refine ⟨[f], rfl, append_nil _, fun g hg => ?_⟩
    rw [mem_singleton.mp hg]
    exact ⟨h, by omega⟩

end Ipv4Fragment

open Ipv4Fragment

/-- **All that is on the way** are fragments of the datagram. -/
theorem Produced.of {d : Ipv4Payload} {f : Ipv4Fragment} (h : Produced d f) : f.Of d := by
  induction h with
  | whole =>
    refine ⟨⟨?_, ?_⟩, rfl, ?_, nofun, ?_⟩
    · exact (Nat.zero_add _).le
    · exact (take_length (l := d.octets)).symm
    · exact iff_of_true rfl (Nat.zero_add _)
    · rintro (hmore | hoffset)
      · cases hmore
      · exact absurd rfl hoffset
  | hop f g mtu fs _ hmtu hlt hsend hg ih =>
    obtain ⟨fs', hsend', -, hall⟩ := ih.exists_sendRealOut hmtu hlt
    rw [hsend] at hsend'
    cases hsend'
    exact (hall g hg).1

end Ns3Dsme.Internet
