/-
# Delivery in the mesh modes

A packet with a mesh header belongs to its final destination.  A device in a mesh mode hands it
to the upper layer only there, except where a branch sends the packet on and `ReceiveFromDevice`
goes on behind it: the packet is then relayed and handed up at once.
-/
import Ns3Dsme.SixLowPan.NetDevice

open List Program

namespace Ns3Dsme.SixLowPan.NetDevice

/-! ## What a frame may cause -/

/-- The device is in one of the modes that relay packets. -/
def InMeshMode (d : NetDevice) : Prop :=
  d.dataFlooding = true ∨ d.greedyRouting = true ∨ d.loadRouting = true

/-- The final destination in the mesh header of the mode. -/
def meshDst (d : NetDevice) (p : Parsed) : MeshAddress :=
  if d.dataFlooding then p.mesh.finalDst
  else if d.greedyRouting then p.meshGEO.finalDst
  else p.mesh.finalDst

/-- The hops that are left in the mesh header of the mode. -/
def meshHopsLeft (d : NetDevice) (p : Parsed) : Octet :=
  if d.dataFlooding then p.mesh.hopsLeft
  else if d.greedyRouting then p.meshGEO.hopsLeft
  else p.mesh.hopsLeft

/-- The packet is handed up only at its destination, and not where it is sent on, unless it is
for a group. -/
structure OnlyAtDestination (d : NetDevice) (p : Parsed) (effects : List Effect) : Prop where
  delivered : ∀ packet, .deliver packet ∈ effects →
    d.own = .ok (d.meshDst p) ∨ (d.meshDst p).isGroup = true
  notBoth : ∀ f packet, .forward f ∈ effects → (d.meshDst p).isGroup = false →
    .deliver packet ∉ effects

/-- The mode and the frame lead to one of the two branches that go on behind the forwarding. -/
def Relays (d : NetDevice) (p : Parsed) : Prop :=
  d.dataFlooding = false ∧
    (d.greedyRouting = true ∨ (p.hasRREQ = false ∧ p.hasRREP = false ∧ d.loadRouting = true))

/-- What follows the headers is something that the device hands up. -/
def HandsUp (d : NetDevice) (p : Parsed) : Prop :=
  p.dispatch = .ipv6 ∨ (p.dispatch = .hc1 ∧ d.useHC1 = false)

/-- The frame for another device is relayed, and what follows the headers is handed up. -/
structure FallsThrough (d : NetDevice) (p : Parsed) : Prop where
  hello : p.hello.isNone = true
  relays : d.Relays p
  other : d.own ≠ .ok (d.meshDst p)
  single : (d.meshDst p).isGroup = false
  hopsLeft : d.meshHopsLeft p ≠ 0
  handsUp : d.HandsUp p

/-! ## The branches -/

variable {d : NetDevice} {p : Parsed} {src dst : MacAddress}

/-- What is handed up. -/
theorem post_handUp (d : NetDevice) (p : Parsed) (src dst : MacAddress) :
    Post (d.handUp p src dst) fun effects =>
      (d.HandsUp p → ∃ packet, effects = [.deliver packet]) ∧ (¬ d.HandsUp p → effects = []) := by
  unfold handUp
  split
  · rename_i hipv6
    refine post_bind fun r _ => ?_
    exact ⟨fun _ => ⟨_, rfl⟩, fun hnot => absurd (.inl hipv6) hnot⟩
  · rename_i hhc1
    split
    · rename_i huse
      refine ⟨fun hup => ?_, fun _ => rfl⟩
      rcases hup with hipv6 | ⟨-, hnot⟩
      · rw [hhc1] at hipv6
        cases hipv6
      · rw [huse] at hnot
        cases hnot
    · rename_i huse
      refine post_bind fun r _ => ?_
      exact ⟨fun _ => ⟨_, rfl⟩, fun hnot => absurd (.inr ⟨hhc1, by simpa using huse⟩) hnot⟩
  · rename_i hipv6 hhc1
    refine ⟨fun hup => ?_, fun _ => rfl⟩
    rcases hup with h | ⟨h, -⟩
    · exact absurd h hipv6
    · exact absurd h hhc1

/-- A branch that goes on only where the packet has arrived, and hands nothing up itself. -/
structure StopsElsewhere (d : NetDevice) (p : Parsed) (b : Branch) : Prop where
  arrived : b.continues = true → d.own = .ok (d.meshDst p) ∧ b.effects = []
  silent : ∀ packet, .deliver packet ∉ b.effects

theorem post_receiveFlooding (hmode : d.dataFlooding = true) :
    Post (d.receiveFlooding p) (d.StopsElsewhere p) := by
  refine flooded_receiveFlooding.imp fun b hb => ?_
  cases hb with
  | seen => exact ⟨fun h => Bool.noConfusion h, fun _ => not_mem_nil⟩
  | dropped => exact ⟨fun h => Bool.noConfusion h, fun _ => not_mem_nil⟩
  | forwarded => exact ⟨fun h => Bool.noConfusion h, fun _ => by simp⟩
  | arrived hseen hown =>
    refine ⟨fun _ => ⟨?_, rfl⟩, fun _ => not_mem_nil⟩
    unfold meshDst
    rw [hmode, if_pos rfl]
    exact hown

/-- Requests and replies are never handed up. -/
theorem post_receiveRREQ : Post (d.receiveRREQ src p) (d.StopsElsewhere p) := by
  refine requested_receiveRREQ.imp fun b hb => ?_
  cases hb with
  | seen => exact ⟨fun h => Bool.noConfusion h, fun _ => not_mem_nil⟩
  | dropped => exact ⟨fun h => Bool.noConfusion h, fun _ => not_mem_nil⟩
  | forwarded => exact ⟨fun h => Bool.noConfusion h, fun _ => by simp⟩
  | replied => exact ⟨fun h => Bool.noConfusion h, fun _ => by simp⟩

theorem post_receiveRREP : Post (d.receiveRREP src p) (d.StopsElsewhere p) := by
  refine replied_receiveRREP.imp fun b hb => ?_
  cases hb with
  | dropped => exact ⟨fun h => Bool.noConfusion h, fun _ => not_mem_nil⟩
  | forwarded => exact ⟨fun h => Bool.noConfusion h, fun _ => by simp⟩
  | arrived => exact ⟨fun h => Bool.noConfusion h, fun _ => by simp⟩

/-- The branch goes on at the destination and behind the forwarding, and hands nothing up
itself. -/
structure GoesOn (d : NetDevice) (p : Parsed) (b : Branch) : Prop where
  useHC1 : b.device.useHC1 = d.useHC1
  arrived : d.own = .ok (d.meshDst p) → b.effects = []
  dropped : d.own ≠ .ok (d.meshDst p) → d.meshHopsLeft p = 0 →
    b.effects = [] ∧ b.continues = false
  relayed : d.own ≠ .ok (d.meshDst p) → d.meshHopsLeft p ≠ 0 →
    (∃ f, b.effects = [.forward f]) ∧ b.continues = true

theorem Relayed.goesOn {f : Forwarding} {b : Branch}
    (h : d.Relayed (d.meshDst p) (d.meshHopsLeft p) f b) : d.GoesOn p b := by
  cases h with
  | arrived hown => exact ⟨rfl, fun _ => rfl, fun h => absurd hown h, fun h => absurd hown h⟩
  | dropped hother hzero =>
    exact ⟨rfl, fun h => absurd h hother, fun _ _ => ⟨rfl, rfl⟩, fun _ h => absurd hzero h⟩
  | forwarded hother hleft =>
    exact ⟨rfl, fun h => absurd h hother, fun _ h => absurd h hleft, fun _ _ => ⟨⟨f, rfl⟩, rfl⟩⟩

theorem post_receiveGreedy (hflooding : d.dataFlooding = false) (hmode : d.greedyRouting = true) :
    Post (d.receiveGreedy p) (d.GoesOn p) := by
  refine relayed_receiveGreedy.imp fun b hb => ?_
  apply Relayed.goesOn
  unfold meshDst meshHopsLeft
  rw [hflooding, hmode]
  exact hb

theorem post_receiveLoad (hflooding : d.dataFlooding = false) (hgreedy : d.greedyRouting = false) :
    Post (d.receiveLoad p) (d.GoesOn p) := by
  refine relayed_receiveLoad.imp fun b hb => ?_
  apply Relayed.goesOn
  unfold meshDst meshHopsLeft
  rw [hflooding, hgreedy]
  exact hb

/-! ## The whole handler -/

/-- The branches other than the two that relay packets. -/
theorem post_receiveMesh_of_not_relays (hmode : d.InMeshMode) (hrelays : ¬ d.Relays p) :
    Post (d.receiveMesh src p) (d.StopsElsewhere p) := by
  unfold receiveMesh
  split
  · rename_i hflooding
    exact post_receiveFlooding hflooding
  · rename_i hflooding
    rw [Bool.not_eq_true] at hflooding
    have hgreedy : d.greedyRouting = false := by
      by_contra h
      exact hrelays ⟨hflooding, .inl (by simpa using h)⟩
    rw [hgreedy, if_neg Bool.false_ne_true]
    split
    · exact post_receiveRREQ
    · rename_i hrreq
      split
      · exact post_receiveRREP
      · rename_i hrrep
        -- only LOAD is left of the mesh modes
        rcases hmode with h | h | hload
        · rw [hflooding] at h
          cases h
        · rw [hgreedy] at h
          cases h
        · refine absurd ⟨hflooding, .inr ⟨?_, ?_, hload⟩⟩ hrelays
          · simpa using hrreq
          · simpa using hrrep

theorem post_receiveMesh_of_relays (hrelays : d.Relays p) :
    Post (d.receiveMesh src p) (d.GoesOn p) := by
  obtain ⟨hflooding, hbranch⟩ := hrelays
  unfold receiveMesh
  rw [hflooding, if_neg Bool.false_ne_true]
  by_cases hgreedy : d.greedyRouting = true
  · rw [if_pos hgreedy]
    exact post_receiveGreedy hflooding hgreedy
  · rw [if_neg hgreedy]
    rcases hbranch with h | ⟨hrreq, hrrep, hload⟩
    · exact absurd h hgreedy
    · rw [hrreq, hrrep, hload, if_neg Bool.false_ne_true, if_neg Bool.false_ne_true, if_pos rfl]
      exact post_receiveLoad hflooding (by simpa using hgreedy)

/-- Nothing is handed up: nothing is wrong. -/
theorem onlyAtDestination_of_silent {effects : List Effect}
    (h : ∀ packet, .deliver packet ∉ effects) : d.OnlyAtDestination p effects :=
  ⟨fun packet hmem => absurd hmem (h packet), fun _ packet _ _ => h packet⟩

/-- What a frame with a mesh header has caused: the effects of the branch, and what is handed up
behind it if the branch goes on. -/
inductive Caused (p : Parsed) (b : Branch) : List Effect → Prop
  | stopped (hstop : b.continues = false) : Caused p b b.effects
  | silent (hgo : b.continues = true) (hnot : ¬ b.device.HandsUp p) : Caused p b b.effects
  | handedUp (hgo : b.continues = true) (hup : b.device.HandsUp p) (packet : List Octet) :
    Caused p b (b.effects ++ [.deliver packet])

theorem caused_of_run {packet : List Octet} {d' : NetDevice} {effects : List Effect}
    (hparse : parseHeaders d packet = .ok p) (hmesh : p.hasMesh = true) (hhello : p.hello = none)
    (hrun : receiveFromDevice d packet src dst = .ok (d', effects)) :
    ∃ b, d.receiveMesh src p = .ok b ∧ Caused p b effects := by
  rw [receiveFromDevice_of_mesh hparse hhello hmesh] at hrun
  cases hb : d.receiveMesh src p with
  | error e =>
    rw [hb] at hrun
    cases hrun
  | ok b =>
    rw [hb] at hrun
    change (if b.continues = true then
      (b.device.handUp p src dst >>= fun up => .ok (b.device, b.effects ++ up))
      else .ok (b.device, b.effects)) = .ok (d', effects) at hrun
    refine ⟨b, rfl, ?_⟩
    split at hrun
    · rename_i hgo
      cases hup : b.device.handUp p src dst with
      | error e =>
        rw [hup] at hrun
        cases hrun
      | ok up =>
        rw [hup] at hrun
        cases hrun
        obtain ⟨hhands, hnot⟩ := (post_handUp b.device p src dst).of_eq_ok hup
        by_cases h : b.device.HandsUp p
        · obtain ⟨packet, rfl⟩ := hhands h
          exact .handedUp hgo h packet
        · rw [hnot h, append_nil]
          exact .silent hgo h
    · rename_i hstop
      cases hrun
      exact .stopped (by simpa using hstop)

/-- Where the branch goes on at the destination only, all is well. -/
theorem onlyAtDestination_of_stopsElsewhere {b : Branch} {effects : List Effect}
    (hb : d.StopsElsewhere p b) (hcaused : Caused p b effects) :
    d.OnlyAtDestination p effects := by
  cases hcaused with
  | stopped hstop => exact onlyAtDestination_of_silent hb.silent
  | silent hgo hnot => exact onlyAtDestination_of_silent hb.silent
  | handedUp hgo hup packet =>
    obtain ⟨hown, hnil⟩ := hb.arrived hgo
    rw [hnil]
    exact ⟨fun _ _ => .inl hown, fun f _ hf => by simp at hf⟩

/-- Where the branch goes on behind the forwarding, all is well unless something is handed up
there. -/
theorem onlyAtDestination_iff_of_goesOn {b : Branch} {effects : List Effect} (hb : d.GoesOn p b)
    (hcaused : Caused p b effects) (hrelays : d.Relays p) (hhello : p.hello = none) :
    d.OnlyAtDestination p effects ↔ ¬ d.FallsThrough p := by
  have hhands : b.device.HandsUp p ↔ d.HandsUp p := by
    unfold HandsUp
    rw [hb.useHC1]
  by_cases hown : d.own = .ok (d.meshDst p)
  · refine iff_of_true ?_ fun h => h.other hown
    refine ⟨fun _ _ => .inl hown, fun f packet hf _ => ?_⟩
    have hnil := hb.arrived hown
    cases hcaused with
    | stopped hstop => simp [hnil] at hf
    | silent hgo hnot => simp [hnil] at hf
    | handedUp hgo hup packet => simp [hnil] at hf
  · by_cases hhops : d.meshHopsLeft p = 0
    · obtain ⟨hnil, hstop⟩ := hb.dropped hown hhops
      refine iff_of_true (onlyAtDestination_of_silent fun packet => ?_) fun h => h.hopsLeft hhops
      cases hcaused with
      | stopped _ => simp [hnil]
      | silent hgo _ => simp [hnil]
      | handedUp hgo _ _ =>
        rw [hstop] at hgo
        cases hgo
    · obtain ⟨⟨f, hforward⟩, hcontinues⟩ := hb.relayed hown hhops
      cases hcaused with
      | stopped hstop =>
        rw [hcontinues] at hstop
        cases hstop
      | silent _ hnot =>
        refine iff_of_true (onlyAtDestination_of_silent fun packet => ?_) fun h => ?_
        · simp [hforward]
        · exact hnot (hhands.mpr h.handsUp)
      | handedUp _ hup packet =>
        rw [hforward]
        by_cases hgroup : (d.meshDst p).isGroup = true
        · refine iff_of_true ⟨fun _ _ => .inr hgroup, fun _ _ _ hsingle => ?_⟩ fun h => ?_
          · rw [hgroup] at hsingle
            cases hsingle
          · rw [h.single] at hgroup
            cases hgroup
        · rw [Bool.not_eq_true] at hgroup
          refine iff_of_false (fun h => ?_) fun hnot => ?_
          · exact h.notBoth f packet (by simp) hgroup (by simp)
          · refine hnot ⟨?_, hrelays, hown, hgroup, hhops, hhands.mp hup⟩
            rw [hhello]
            rfl

/-- **Delivery only at the destination.**  In a mesh mode, a packet with a mesh header is handed
to the upper layer only by its final destination, and not by a device that sends it on, exactly
if the device does not fall through from the forwarding to the dispatch switch. -/
theorem onlyAtDestination_iff (d : NetDevice) (packet : List Octet) (src dst : MacAddress)
    (p : Parsed) (d' : NetDevice) (effects : List Effect) (hparse : parseHeaders d packet = .ok p)
    (hmesh : p.hasMesh = true) (hmode : d.InMeshMode)
    (hrun : receiveFromDevice d packet src dst = .ok (d', effects)) :
    d.OnlyAtDestination p effects ↔ ¬ d.FallsThrough p := by
  cases hhello : p.hello with
  | some hello =>
    rw [receiveFromDevice_of_hello hparse hhello] at hrun
    cases hrun
    refine iff_of_true (onlyAtDestination_of_silent fun _ => not_mem_nil) fun h => ?_
    have hnone := h.hello
    rw [hhello] at hnone
    cases hnone
  | none =>
    obtain ⟨b, hb, hcaused⟩ := caused_of_run hparse hmesh hhello hrun
    by_cases hrelays : d.Relays p
    · have hgoes := (post_receiveMesh_of_relays hrelays).of_eq_ok hb
      exact onlyAtDestination_iff_of_goesOn hgoes hcaused hrelays hhello
    · have hstops := (post_receiveMesh_of_not_relays hmode hrelays).of_eq_ok hb
      exact iff_of_true (onlyAtDestination_of_stopsElsewhere hstops hcaused) fun h =>
        hrelays h.relays

/-- A device in greedy mode with the short address `00:05`. -/
def greedyDevice : NetDevice where
  useHC1 := false
  dataFlooding := false
  greedyRouting := true
  loadRouting := false
  direct := false
  address := .mac48 0 0 0 0 0 5

/-- A frame from `00:01` with an uncompressed packet of one octet. -/
def greedyFrame (finalDst : MeshAddress) : List Octet :=
  SixLowPanMeshGEO.serialize ⟨.short 0 1, finalDst, 7, 0, 0⟩ ++ [0x41, 9]

/-- The frame as it is parsed. -/
def greedyParsed (finalDst : MeshAddress) : Parsed where
  hasMesh := true
  meshGEO := ⟨.short 0 1, finalDst, 7, 0, 0⟩
  dispatchRaw := 0x41
  rest := [0x41, 9]

/-- The device sends a packet for `00:09` on, and hands it up. -/
theorem not_onlyAtDestination :
    ∃ d' effects, receiveFromDevice greedyDevice (greedyFrame (.short 0 9))
        (.mac48 0 0 0 0 0 1) (.mac48 0 0 0 0 0 5) = .ok (d', effects) ∧
      parseHeaders greedyDevice (greedyFrame (.short 0 9))
        = .ok (greedyParsed (.short 0 9)) ∧
      greedyDevice.InMeshMode ∧
      ¬ greedyDevice.OnlyAtDestination (greedyParsed (.short 0 9)) effects := by
  refine ⟨_, _, rfl, rfl, .inr (.inl rfl), fun h => ?_⟩
  exact h.notBoth _ [9] (mem_cons_self ..) rfl (mem_cons_of_mem _ (mem_cons_self ..))

/-- A packet for the device itself is handed up, and not sent on. -/
theorem onlyAtDestination_greedyDevice :
    greedyDevice.OnlyAtDestination (greedyParsed (.short 0 5)) [.deliver [9]] := by
  refine (onlyAtDestination_iff greedyDevice (greedyFrame (.short 0 5)) (.mac48 0 0 0 0 0 1)
    (.mac48 0 0 0 0 0 5) (greedyParsed (.short 0 5)) greedyDevice [.deliver [9]] rfl rfl
    (.inr (.inl rfl)) rfl).mpr fun h => h.other rfl

end Ns3Dsme.SixLowPan.NetDevice
