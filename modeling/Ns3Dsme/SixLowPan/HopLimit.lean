/-
# The hop limit of the mesh header with positions

The dispatch value of the header takes the bit of the hop count with the lowest value: a count is
decoded as the odd number that is not below it.  A relaying node counts down to an even number,
so the next node decodes what it did, and the packet is never discarded.
-/
import Ns3Dsme.SixLowPan.Headers
import Ns3Dsme.SixLowPan.MeshDelivery
import Mathlib.Data.List.Chain

open List Program

namespace Ns3Dsme.SixLowPan

/-! ## Journeys -/

/-- The device reads mesh headers with positions. -/
structure NetDevice.InGreedyMode (d : NetDevice) : Prop where
  dataFlooding : d.dataFlooding = false
  direct : d.direct = false
  greedyRouting : d.greedyRouting = true

/-- The hops left that a device decodes from a frame. -/
def hopsLeftAt (d : NetDevice) (packet : List Octet) : Option Octet :=
  match parseHeaders d packet with
  | .ok p => if p.hasMesh then some p.meshGEO.hopsLeft else none
  | .error _ => none

/-- The packet that a device hands to `DoSendGreedyForwarding`, which sends it as it is. -/
def forwardedBy (d : NetDevice) (packet : List Octet) (src dst : MacAddress) :
    Option (List Octet) :=
  match receiveFromDevice d packet src dst with
  | .ok (_, effects) => effects.findSome? fun
    | .forward (.doSendGreedyForwarding packet' _) => some packet'
    | _ => none
  | .error _ => none

/-- A packet on its way: each node in turn decodes the hops left and sends the packet on. -/
inductive Journey : List Octet → List Octet → List Octet → Prop
  | nil (packet : List Octet) : Journey packet [] packet
  | cons (d : NetDevice) (packet packet' last values : List Octet) (src dst : MacAddress)
    (v : Octet) (hmode : d.InGreedyMode) (hdecode : hopsLeftAt d packet = some v)
    (hforward : forwardedBy d packet src dst = some packet')
    (hrest : Journey packet' values last) : Journey packet (v :: values) last

/-- Every value is one less than the one before, and there are no more relays than the
originator allowed. -/
structure CountsDown (initial : Octet) (values : List Octet) (v : Octet) : Prop where
  chain : (values ++ [v]).IsChain fun a b => b.toNat + 1 = a.toNat
  relays : values.length ≤ initial.toNat

/-! ## What a node decodes -/

/-- The value that is decoded for a hop count. -/
def decodedHops (hopsLeft : Octet) : Octet := (if hopsLeft ≤ 0xF then hopsLeft else 0xF) ||| 1

/-- Counting down has no effect on the next receiver. -/
theorem decodedHops_pred (hopsLeft : Octet) :
    decodedHops (decodedHops hopsLeft - 1) = decodedHops hopsLeft := by
  have hall : ∀ n : Octet, decodedHops (decodedHops n - 1) = decodedHops n := by
    decide +kernel
  exact hall hopsLeft

/-- The packet starts with a mesh header that was sent with a hop count. -/
def Carries (hopsLeft : Octet) (packet : List Octet) : Prop :=
  ∃ isShort isShort' rest, packet = meshOctet 0x81 isShort isShort' hopsLeft :: rest

theorem carries_serialize (hdr : SixLowPanMeshGEO) (rest : List Octet) :
    Carries hdr.hopsLeft (hdr.serialize ++ rest) := ⟨_, _, _, rfl⟩

/-- The hop count is what the first octet says. -/
theorem post_deserialize_hopsLeft (temp : Octet) (rest : List Octet) :
    Post (SixLowPanMeshGEO.deserialize (temp :: rest)) fun r => r.1.hopsLeft = temp &&& 0xF := by
  unfold SixLowPanMeshGEO.deserialize
  apply wp_of_bind
  refine post_bind fun r₁ _ => ?_
  refine post_bind fun r₂ _ => ?_
  refine post_bind fun r₃ _ => ?_
  refine post_bind fun r₄ _ => ?_
  refine post_bind fun r₅ _ => ?_
  exact post_bind fun r₆ _ => rfl

variable {d : NetDevice} {n : Octet} {packet : List Octet}

/-- A device in greedy mode that can read the headers finds a mesh header with the decoded
value. -/
theorem post_parseHeaders (hmode : d.InGreedyMode) (hcarries : Carries n packet) :
    Post (parseHeaders d packet) fun p =>
      p.hello = none ∧ p.hasMesh = true ∧ p.meshGEO.hopsLeft = decodedHops n := by
  obtain ⟨isShort, isShort', rest, rfl⟩ := hcarries
  obtain ⟨-, -, hvalue, hdispatch⟩ := meshOctet_geo isShort isShort' n
  generalize hfirst : meshOctet 0x81 isShort isShort' n = first at hvalue hdispatch
  unfold parseHeaders
  apply wp_of_bind
  -- the packet does not start with a hello header
  have hdisp : (({ rest := [] } : Parsed).advance (first :: rest)).dispatch = .meshGEO := hdispatch
  unfold Parsed.takeHello
  rw [hdisp, if_neg (by decide)]
  apply wp_of_bind
  unfold Parsed.takeMesh
  rw [hdisp, if_pos (Or.inr rfl), hmode.dataFlooding, hmode.direct, hmode.greedyRouting,
    if_neg (by decide), if_pos rfl]
  refine (post_deserialize_hopsLeft first rest).bind fun r hr => ?_
  refine (Parsed.post_takeBc0 _).bind fun p₁ h₁ => ?_
  refine (Parsed.post_takeRREQ p₁).bind fun p₂ h₂ => ?_
  refine (Parsed.post_takeRREP p₂).imp fun p₃ h₃ => ?_
  have hkeeps := (h₁.trans h₂.1).trans h₃.1
  refine ⟨hkeeps.hello, hkeeps.hasMesh, ?_⟩
  rw [hkeeps.meshGEO]
  exact hr.trans hvalue

/-- The value that a device decodes. -/
theorem hopsLeftAt_eq (hmode : d.InGreedyMode) (hcarries : Carries n packet) {v : Octet}
    (hdecode : hopsLeftAt d packet = some v) : v = decodedHops n := by
  unfold hopsLeftAt at hdecode
  cases hparse : parseHeaders d packet with
  | error e =>
    rw [hparse] at hdecode
    cases hdecode
  | ok p =>
    obtain ⟨-, hmesh, hvalue⟩ := (post_parseHeaders hmode hcarries).of_eq_ok hparse
    rw [hparse] at hdecode
    dsimp only at hdecode
    rw [hmesh, if_pos rfl, Option.some_inj] at hdecode
    exact hdecode.symm.trans hvalue

/-! ## What a node sends on -/

/-- The branch sends the packet on with one hop less. -/
theorem post_receiveGreedy_effects (d : NetDevice) (p : Parsed) :
    Post (d.receiveGreedy p) fun b => ∀ packet' finalDst,
      .forward (.doSendGreedyForwarding packet' finalDst) ∈ b.effects →
        packet' = { p.meshGEO with hopsLeft := p.meshGEO.hopsLeft - 1 }.serialize ++ p.rest := by
  refine NetDevice.relayed_receiveGreedy.imp fun b hb packet' finalDst h => ?_
  cases hb with
  | arrived => exact absurd h not_mem_nil
  | dropped => exact absurd h not_mem_nil
  | forwarded =>
    have heq := mem_singleton.mp h
    cases heq
    rfl

/-- A packet that is sent on was scheduled by one of the effects. -/
theorem mem_of_forwardedBy {src dst : MacAddress} {packet' : List Octet}
    (hforward : forwardedBy d packet src dst = some packet') :
    ∃ d' effects finalDst, receiveFromDevice d packet src dst = .ok (d', effects) ∧
      .forward (.doSendGreedyForwarding packet' finalDst) ∈ effects := by
  unfold forwardedBy at hforward
  cases hrun : receiveFromDevice d packet src dst with
  | error e =>
    rw [hrun] at hforward
    cases hforward
  | ok r =>
    obtain ⟨d', effects⟩ := r
    rw [hrun] at hforward
    obtain ⟨effect, hmem, heq⟩ := exists_of_findSome?_eq_some hforward
    split at heq
    · rename_i q finalDst
      cases heq
      exact ⟨d', effects, finalDst, rfl, hmem⟩
    · cases heq

/-- The packet that is sent on carries one hop less than was decoded. -/
theorem carries_of_forwardedBy (hmode : d.InGreedyMode) (hcarries : Carries n packet)
    {src dst : MacAddress} {packet' : List Octet}
    (hforward : forwardedBy d packet src dst = some packet') :
    Carries (decodedHops n - 1) packet' := by
  obtain ⟨d', effects, finalDst, hrun, hmem⟩ := mem_of_forwardedBy hforward
  cases hparse : parseHeaders d packet with
  | error e =>
    unfold receiveFromDevice at hrun
    rw [hparse] at hrun
    cases hrun
  | ok p =>
    obtain ⟨hhello, hmesh, hvalue⟩ := (post_parseHeaders hmode hcarries).of_eq_ok hparse
    obtain ⟨b, hb, hcaused⟩ := NetDevice.caused_of_run hparse hmesh hhello hrun
    unfold NetDevice.receiveMesh at hb
    rw [hmode.dataFlooding, hmode.greedyRouting, if_neg Bool.false_ne_true, if_pos rfl] at hb
    have hbranch : .forward (.doSendGreedyForwarding packet' finalDst) ∈ b.effects := by
      cases hcaused with
      | stopped _ => exact hmem
      | silent _ _ => exact hmem
      | handedUp _ _ q =>
        rcases mem_append.mp hmem with h | h
        · exact h
        · simp at h
    rw [(post_receiveGreedy_effects d p).of_eq_ok hb packet' finalDst hbranch, ← hvalue]
    exact carries_serialize _ _

/-- All the nodes on a journey decode the same value. -/
theorem Journey.constant {last values : List Octet} (hjourney : Journey packet values last) :
    ∀ n, Carries n packet → (∀ v ∈ values, v = decodedHops n) ∧
      ∃ m, Carries m last ∧ decodedHops m = decodedHops n := by
  induction hjourney with
  | nil packet => exact fun n hcarries => ⟨by simp, n, hcarries, rfl⟩
  | cons d packet packet' last values src dst v hmode hdecode hforward hrest ih =>
    intro n hcarries
    have hv : v = decodedHops n := hopsLeftAt_eq hmode hcarries hdecode
    obtain ⟨hvalues, m, hlast, hm⟩ := ih _ (carries_of_forwardedBy hmode hcarries hforward)
    rw [decodedHops_pred] at hvalues hm
    refine ⟨?_, m, hlast, hm⟩
    intro w hw
    rcases mem_cons.mp hw with rfl | hw
    · exact hv
    · exact hvalues w hw

/-- **The hop limit has no effect.**  Whatever hop count the originator sets, the values decoded
along a journey count down by one, and the relays stay within the count, exactly if no node has
sent the packet on. -/
theorem countsDown_iff (hdr : SixLowPanMeshGEO) (payload values last : List Octet)
    (hjourney : Journey (hdr.serialize ++ payload) values last) (d : NetDevice) (v : Octet)
    (hmode : d.InGreedyMode) (hdecode : hopsLeftAt d last = some v) :
    CountsDown hdr.hopsLeft values v ↔ values = [] := by
  obtain ⟨hvalues, m, hlast, hm⟩ := hjourney.constant hdr.hopsLeft (carries_serialize hdr payload)
  have hv : v = decodedHops hdr.hopsLeft := (hopsLeftAt_eq hmode hlast hdecode).trans hm
  constructor
  · intro hcounts
    by_contra hne
    -- the last relay and the node behind it have decoded the same
    obtain ⟨init, w, rfl⟩ := (eq_nil_or_concat' values) |>.resolve_left hne
    have hw : w = decodedHops hdr.hopsLeft := hvalues w (by simp)
    have hchain := hcounts.chain
    rw [append_assoc, isChain_append] at hchain
    have hpair : v.toNat + 1 = w.toNat := by simpa using hchain.2.1
    rw [hv, hw] at hpair
    omega
  · rintro rfl
    exact ⟨isChain_singleton _, Nat.zero_le _⟩

/-- The header with the hop count that `DoSendGreedy` sets. -/
def sentHeader : SixLowPanMeshGEO := ⟨.short 0 1, .short 0 9, 15, 0, 0⟩

/-- The first relay and the node behind it both decode 15 hops. -/
theorem not_countsDown : ∃ last, Journey (sentHeader.serialize ++ [0x41]) [15] last ∧
      hopsLeftAt NetDevice.greedyDevice last = some 15 ∧
      ¬ CountsDown sentHeader.hopsLeft [15] 15 := by
  refine ⟨_, .cons NetDevice.greedyDevice _ _ _ [] (.mac48 0 0 0 0 0 1) (.mac48 0 0 0 0 0 5) 15
    ⟨rfl, rfl, rfl⟩ rfl rfl (.nil _), rfl, fun h => ?_⟩
  have hpair : (15 : Octet).toNat + 1 = (15 : Octet).toNat := by simpa using h.chain
  exact absurd hpair (by decide)

/-- The first receiver decodes the count of the originator, and no other one does. -/
theorem countsDown_iff_sample :
    CountsDown sentHeader.hopsLeft [] 15 ∧ ¬ CountsDown sentHeader.hopsLeft [15] 15 := by
  constructor
  · exact (countsDown_iff sentHeader [0x41] [] _ (.nil _) NetDevice.greedyDevice 15
      ⟨rfl, rfl, rfl⟩ rfl).mpr rfl
  · intro h
    have hrelay := Journey.cons NetDevice.greedyDevice (sentHeader.serialize ++ [0x41]) _ _ []
      (.mac48 0 0 0 0 0 1) (.mac48 0 0 0 0 0 5) 15 ⟨rfl, rfl, rfl⟩ rfl rfl (.nil _)
    have hnone := (countsDown_iff sentHeader [0x41] [15] _ hrelay NetDevice.greedyDevice 15
      ⟨rfl, rfl, rfl⟩ rfl).mp h
    exact cons_ne_nil _ _ hnone

end Ns3Dsme.SixLowPan
