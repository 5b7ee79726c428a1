/-
# Channel hopping

Every GTS has a channel of its own, which follows from the superframe, the slot, the channel
offset and the number of the last beacon of the PAN coordinator.  A device takes that number
from the beacon.  The PAN coordinator counts a beacon before it sends it and puts the number
before the count into the beacon, but hops with the number after it.  So two devices that hear
the same beacons meet, and the PAN coordinator is one channel ahead of both.
-/
import Ns3Dsme.LrWpan.Footprint
import Mathlib.Data.Nat.ModEq

open List Bool Program Program.Views

namespace Ns3Dsme

open Mac

/-! ## The channel of a GTS -/

namespace Mac

/-- `StartGTS` of entry `idx`, which is `e`, of superframe `k` hands channel `ch` to the PHY. -/
def Tunes (s : Mac) (k idx : ℕ) (e : MacDSMEACTEntity) (ch : ℕ) : Prop :=
  (s.enterGTS k idx e).gtsChannel e = .ok ch

/-- What `StartGTS` schedules does not change the channel, and the PHY is asked for it. -/
theorem post_startGTS_tunes {s : Mac} {k idx alloc : ℕ} {e : MacDSMEACTEntity}
    {superframeType : SuperframeType} (hlookup : s.gts.macDsmeACT.lookup k idx = some e)
    (hdeallocated : e.deallocated = false) (hexpired : e.expired = false) :
    Post (s.startGTS superframeType k idx alloc) fun _ => ∃ u v ch,
      s.openGTS superframeType k idx alloc e = .ok u ∧ s.Tunes k idx e ch ∧
        (u.emit (.phyCurrentChannel ch)).plmeSetAttributeRequest = .ok v := by
  unfold startGTS
  rw [hlookup]
  dsimp only
  rw [hdeallocated, hexpired, if_neg Bool.false_ne_true, if_neg Bool.false_ne_true]
  refine post_bind fun u hopen => post_bind fun ch hch => post_bind fun v hset => ?_
  refine post_of_forall fun _ _ => ⟨u, v, ch, hopen, ?_, hset⟩
  have hsame : ∃ sim, u = { s.enterGTS k idx e with sim } := by
    unfold openGTS scheduleEndGTS schedule at hopen
    have hnext : ∃ sim, (s.enterGTS k idx e).scheduleNextGTS idx alloc e =
        { s.enterGTS k idx e with sim } := by
      unfold scheduleNextGTS
      split
      · exact ⟨_, rfl⟩
      · exact ⟨_, rfl⟩
    obtain ⟨sim, hnext⟩ := hnext
    rw [hnext] at hopen
    dsimp only at hopen
    split at hopen <;> split at hopen <;> cases hopen <;> exact ⟨_, rfl⟩
  obtain ⟨sim, rfl⟩ := hsame
  exact hch

/-- What the hopping formula adds to the slot and the channel offset in superframe `k`, if
`bsn` is the number of the last beacon. -/
def hop (s : Mac) (k : ℕ) (bsn : BitVec 8) : ℕ :=
  if s.cfg.forDsmeNetDeviceIntegrateWithHigerLayer then 0
  else k * (if s.out.macCAPReductionFlag ∧ k ≠ 0 then 15 else 7) + bsn.toNat

theorem tunes_iff {s : Mac} {k idx : ℕ} {e : MacDSMEACTEntity} {ch : ℕ}
    (hpos : 0 < s.cfg.numOfChannels) :
    s.Tunes k idx e ch ↔ (s.hop k s.adv.macPANCoordinatorBSN + (e.slotID + e.channelID))
      % s.cfg.numOfChannels + 11 = ch := by
  have hformula : (s.enterGTS k idx e).gtsChannel e =
      .ok ((s.hop k s.adv.macPANCoordinatorBSN + (e.slotID + e.channelID))
        % s.cfg.numOfChannels + 11) := by
    unfold gtsChannel hop
    rw [if_neg (by exact hpos.ne')]
    by_cases hhigher : s.cfg.forDsmeNetDeviceIntegrateWithHigerLayer = true
    · rw [if_pos (by exact hhigher), if_pos hhigher, Nat.zero_add, Nat.add_comm e.slotID]
      rfl
    · rw [if_neg (by exact hhigher), if_neg hhigher]
      refine congrArg (fun hop => Except.ok (hop % s.cfg.numOfChannels + 11)) ?_
      show k * (if s.out.macCAPReductionFlag = true ∧ k ≠ 0 then 15 else 7) + e.slotID
        + e.channelID + s.adv.macPANCoordinatorBSN.toNat = _
      omega
  unfold Tunes
  rw [hformula]
  exact ⟨Except.ok.inj, congrArg _⟩

end Mac

namespace ChannelHopping

/-- What two devices owe each other in superframe `k`.  GTSs of one slot and one offset have one
channel, one of 11 to 26; offsets that differ modulo the number of channels have different
channels. -/
def Rendezvous (a b : Mac) (k : ℕ) : Prop :=
  ∀ (i j : ℕ) (e e' : MacDSMEACTEntity) (ch ch' : ℕ), a.Tunes k i e ch → b.Tunes k j e' ch' →
    e.slotID = e'.slotID →
      (e.channelID = e'.channelID → ch = ch') ∧ (11 ≤ ch ∧ ch ≤ 26)
        ∧ (¬ e.channelID ≡ e'.channelID [MOD a.cfg.numOfChannels] → ch ≠ ch')

/-- **When two devices meet.**  They do exactly if the number of channels divides the difference
of what they add to the slot and the offset. -/
theorem rendezvous_iff_hop {a b : Mac} {k n : ℕ} (hn : 1 ≤ n ∧ n ≤ 16)
    (ha : a.cfg.numOfChannels = n) (hb : b.cfg.numOfChannels = n) :
    Rendezvous a b k ↔ a.hop k a.adv.macPANCoordinatorBSN
      ≡ b.hop k b.adv.macPANCoordinatorBSN [MOD n] := by
  have hposa : 0 < a.cfg.numOfChannels := by omega
  have hposb : 0 < b.cfg.numOfChannels := by omega
  constructor
  · intro h
    -- any entry does, for example the first slot with offset 0
    have hchannel := (h 0 0 ⟨0, 0, 0, 0, 0, 0, false, false, false, 0⟩
      ⟨0, 0, 0, 0, 0, 0, false, false, false, 0⟩ _ _ ((tunes_iff hposa).mpr rfl)
      ((tunes_iff hposb).mpr rfl) rfl).1 rfl
    rw [ha, hb] at hchannel
    exact Nat.add_right_cancel hchannel
  · intro h i j e e' ch ch' hch hch' hslot
    rw [tunes_iff hposa, ha] at hch
    rw [tunes_iff hposb, hb] at hch'
    rw [ha]
    have hlt := Nat.mod_lt (a.hop k a.adv.macPANCoordinatorBSN + (e.slotID + e.channelID))
      (show 0 < n by omega)
    refine ⟨fun hoffset => ?_, by omega, fun hoffset heq => hoffset ?_⟩
    · rw [← hch, ← hch', hslot, hoffset]
      exact congrArg (· + 11) (h.add_right _)
    · rw [← hch, ← hch', hslot] at heq
      exact ((h.add_left_cancel (Nat.add_right_cancel heq)).add_left_cancel' _)

/-! ## The PAN coordinator -/

/-- The beacon that a report is about. -/
def sentBeacon : Output → Option Packet
  | .enhancedBeacon p _ => some p
  | _ => none

/-- The beacons a device has sent. -/
def sentBeacons (s : Mac) : List Packet := s.trace.filterMap sentBeacon

theorem sentBeacons_of_keeps {touched : List View} {s t : Mac} (h : views.Keeps touched s t)
    (htouched : View.beacons ∉ touched) : sentBeacons t = sentBeacons s := by
  have hfilter (os : List Output) :
      os.filterMap sentBeacon = (os.filter Output.isBeacon).filterMap sentBeacon := by
    rw [filterMap_filter]
    refine congrArg (List.filterMap · os) (funext fun o => ?_)
    cases o <;> rfl
  have hsame : t.trace.filter Output.isBeacon = s.trace.filter Output.isBeacon :=
    h .beacons htouched
  unfold sentBeacons
  rw [hfilter t.trace, hsame, ← hfilter]

theorem bsn_of_keeps {touched : List View} {s t : Mac} (h : views.Keeps touched s t)
    (htouched : View.hopping ∉ touched) :
    t.adv.macPANCoordinatorBSN = s.adv.macPANCoordinatorBSN :=
  h .hopping htouched

/-- The number of a beacon that hopping goes by. -/
def hoppingNumber (p : Packet) : BitVec 8 :=
  (p.descriptor.map fun d => d.channelHopping.panCoordinatorBSN).getD 0

/-- A beacon with a descriptor carries the number before the one that is set. -/
theorem hoppingNumber_beaconPacket {s : Mac} {seqNum : BitVec 8}
    (h : (s.beaconPacket seqNum).descriptor.isSome = true) :
    hoppingNumber (s.beaconPacket seqNum) = s.adv.macPANCoordinatorBSN - 1 := by
  have hdescriptor : (s.beaconPacket seqNum).descriptor = s.beaconDescriptor := rfl
  unfold hoppingNumber
  rw [hdescriptor] at h ⊢
  unfold beaconDescriptor at h ⊢
  split
  · rfl
  · rename_i hoff
    rw [if_neg hoff] at h
    cases h

/-- `SendOneEnhancedBeacon` counts the beacon of a PAN coordinator, and what it sends carries
the number before. -/
theorem post_sendOneEnhancedBeacon (s : Mac) : Post s.sendOneEnhancedBeacon fun t =>
    (t.adv.macPANCoordinatorBSN = s.adv.macPANCoordinatorBSN ∧ sentBeacons t = sentBeacons s)
      ∨ t.adv.macPANCoordinatorBSN
          = (if s.role.panCoor then s.adv.macPANCoordinatorBSN + 1
              else s.adv.macPANCoordinatorBSN)
        ∧ ∃ p, sentBeacons t = sentBeacons s ++ [p] ∧ (p.descriptor.isSome = true →
          hoppingNumber p = t.adv.macPANCoordinatorBSN - 1) := by
  unfold sendOneEnhancedBeacon
  split
  · trivial
  · split
    · trivial
    · split
      · exact .inl ⟨rfl, rfl⟩
      · refine (touches_startBeaconPeriod _).post.bind fun t ht => ?_
        refine (touches_plmeSetTRXStateRequest _).post.imp fun u hu => .inr ?_
        have hcounted : t.adv.macPANCoordinatorBSN = s.countBeacon.adv.macPANCoordinatorBSN := by
          refine (bsn_of_keeps ht not_mem_nil).trans ?_
          rfl
        have hbsn : u.adv.macPANCoordinatorBSN = s.countBeacon.adv.macPANCoordinatorBSN :=
          (bsn_of_keeps hu not_mem_nil).trans hcounted
        have hsent : sentBeacons t = sentBeacons s := by
          refine (sentBeacons_of_keeps ht not_mem_nil).trans ?_
          rfl
        refine ⟨hbsn, beaconPacket
          (if s.role.panCoor then s.adv.macPANCoordinatorBSN else s.adv.macEbsn)
          { s with out := { s.out with startOfBcnSlot := s.sim.now } }.countBeacon,
          ?_, fun hsome => ?_⟩
        · rw [sentBeacons_of_keeps hu not_mem_nil, ← hsent]
          exact filterMap_append
        · rw [hoppingNumber_beaconPacket hsome]
          exact congrArg (· - 1) hbsn.symm

/-- The number of the PAN coordinator is one ahead of its last beacon. -/
def Ahead (s : Mac) : Prop :=
  ∀ p, (sentBeacons s).getLast? = some p → p.descriptor.isSome = true →
    s.adv.macPANCoordinatorBSN = hoppingNumber p + 1

theorem Ahead.of_same {s t : Mac} (h : Ahead s) (hsent : sentBeacons t = sentBeacons s)
    (hbsn : t.adv.macPANCoordinatorBSN = s.adv.macPANCoordinatorBSN) : Ahead t := by
  intro p hlast hsome
  rw [hsent] at hlast
  exact hbsn.trans (h p hlast hsome)

/-- The step sends a beacon. -/
def sendsBeacon (s : Mac) (i : Input) : Prop :=
  ∃ n e sim, i.action = .fire n ∧ s.sim.take n = some (e, sim) ∧ e.event = .sendOneEnhancedBeacon

/-- A step that neither sends nor receives changes neither the number nor the beacons sent. -/
theorem post_act_other (s : Mac) (a : Action)
    (hsends : ∀ n e sim, a = .fire n → s.sim.take n = some (e, sim) →
      e.event ≠ .sendOneEnhancedBeacon) (hreceives : ∀ p fcsOk, a ≠ .pdDataIndication p fcsOk) :
    Post (s.act a) fun t => t.adv.macPANCoordinatorBSN = s.adv.macPANCoordinatorBSN
      ∧ sentBeacons t = sentBeacons s := by
  cases a with
  | pdDataIndication p fcsOk => exact absurd rfl (hreceives _ _)
  | fire n =>
    show Post (s.fire n) _
    cases htake : s.sim.take n with
    | none =>
      unfold fire
      rw [htake]
      exact ⟨rfl, rfl⟩
    | some r =>
      obtain ⟨e, sim⟩ := r
      have hother : e.event ≠ .sendOneEnhancedBeacon := hsends n e sim rfl htake
      refine (post_fire s sim n e htake).imp fun t ht => ⟨?_, ?_⟩
      · exact bsn_of_keeps ht fun hmem => hother (MacEvent.of_mem_footprint hmem)
      · exact sentBeacons_of_keeps ht fun hmem => hother (MacEvent.of_mem_footprint hmem)
  | _ =>
    refine (post_act s _ (by simp)).imp fun t ht => ⟨?_, ?_⟩
    · exact bsn_of_keeps ht (by simp [Action.footprint])
    · exact sentBeacons_of_keeps ht (by simp [Action.footprint])

/-- A reception sends nothing, and a descriptor that is heard sets the number. -/
theorem post_pdDataIndication (s : Mac) (p : Packet) (fcsOk : Bool) :
    Post (s.pdDataIndication p fcsOk) fun t => t.adv.macPANCoordinatorBSN
        = (s.takeDescriptor p (if fcsOk then s.heardDescriptor p else none)).adv.macPANCoordinatorBSN
      ∧ sentBeacons t = sentBeacons s := by
  have hsent : Post (s.pdDataIndication p fcsOk) fun t => sentBeacons t = sentBeacons s :=
    (touches_pdDataIndication s p fcsOk).post.imp fun t ht => sentBeacons_of_keeps ht (by simp)
  exact ((same_pdDataIndication (.inr rfl) s p fcsOk).and hsent).mono (fun t ht => ht)
    fun _ _ => trivial

/-- The device has the address of the PAN coordinator, and sends beacons only in that role. -/
def IsPanCoordinator (s : Mac) (i : Input) : Prop :=
  s.cfg.shortAddress = panCoordAddr ∧ (sendsBeacon s i → s.role.panCoor = true)

/-- The PAN coordinator stays one ahead of its last beacon. -/
theorem ahead_step (s : Mac) (i : Input) (hs : Ahead s) (hi : IsPanCoordinator s i) :
    Post (step s i) Ahead := by
  obtain ⟨a, answers⟩ := i
  obtain ⟨haddr, hrole⟩ := hi
  have hs' : Ahead { s with phy := answers } := hs
  unfold step
  by_cases hsends : sendsBeacon s ⟨a, answers⟩
  · obtain ⟨n, e, sim, rfl, htake, hevent⟩ := id hsends
    show Post (fire n _) Ahead
    unfold fire
    rw [show Sim.take _ n = _ from htake]
    dsimp only
    rw [hevent]
    refine (post_sendOneEnhancedBeacon _).imp fun t ht => ?_
    rcases ht with ⟨hbsn, hsent⟩ | ⟨-, p, hsent, hnumber⟩
    · exact hs'.of_same hsent hbsn
    · intro q hq hsome
      rw [hsent, List.getLast?_concat] at hq
      cases hq
      rw [hnumber hsome, BitVec.sub_add_cancel]
  · cases a with
    | pdDataIndication p fcsOk =>
      refine (post_pdDataIndication _ p fcsOk).imp fun t ht => hs'.of_same ht.2 (ht.1.trans ?_)
      unfold takeDescriptor
      cases (if fcsOk then heardDescriptor p { s with phy := answers } else none) with
      | none => rfl
      | some d => exact if_neg fun hself => hself.2 haddr
    | _ =>
      refine (post_act_other _ _ (fun n e sim ha htake hevent => hsends ?_) (by simp)).imp
        fun t ht => hs'.of_same ht.2 ht.1
      exact ⟨n, e, sim, ha, htake, hevent⟩

/-! ## The other devices -/

/-- The beacon of the PAN coordinator that a step reads. -/
def heardBeacon (s : Mac) (i : Input) : Option Packet :=
  match i.action with
  | .pdDataIndication p true =>
    if p.hdr.shortSrcAddr = panCoordAddr ∧ (s.heardDescriptor p).isSome = true then some p
    else none
  | _ => none

/-- The beacons of the PAN coordinator that a device has read. -/
def recordHeard (ps : List Packet) (s : Mac) (i : Input) (_ : Mac) : List Packet :=
  ps ++ (heardBeacon s i).toList

/-- The device does not have the address of the PAN coordinator, and sends no beacons in that
role. -/
def IsNode (s : Mac) (i : Input) : Prop :=
  s.cfg.shortAddress ≠ panCoordAddr ∧ (sendsBeacon s i → s.role.panCoor = false)

/-- The number of the device is that of the last beacon it has read. -/
def Follows (ps : List Packet) (s : Mac) : Prop :=
  ∀ p, ps.getLast? = some p →
    p.descriptor.isSome = true ∧ s.adv.macPANCoordinatorBSN = hoppingNumber p

theorem Follows.of_same {ps : List Packet} {s t : Mac} (h : Follows ps s)
    (hbsn : t.adv.macPANCoordinatorBSN = s.adv.macPANCoordinatorBSN) : Follows ps t :=
  fun p hlast => ⟨(h p hlast).1, hbsn.trans (h p hlast).2⟩

theorem descriptor_of_heard {s : Mac} {p : Packet} {d : DsmePANDescriptorIE}
    (h : s.heardDescriptor p = some d) : p.descriptor = some d := by
  unfold heardDescriptor at h
  split at h
  · exact h
  · cases h

/-- A reception. -/
theorem Follows.heard {ps : List Packet} {s t : Mac} {p : Packet} {fcsOk : Bool}
    {answers : PhyAnswers} (h : Follows ps s) (haddr : s.cfg.shortAddress ≠ panCoordAddr)
    (ht : t.adv.macPANCoordinatorBSN = (s.takeDescriptor p
      (if fcsOk then s.heardDescriptor p else none)).adv.macPANCoordinatorBSN) :
    Follows (ps ++ (heardBeacon s ⟨.pdDataIndication p fcsOk, answers⟩).toList) t := by
  cases fcsOk with
  | false => exact (append_nil ps).symm ▸ h.of_same ht
  | true =>
    rw [if_pos rfl] at ht
    show Follows (ps ++ (if p.hdr.shortSrcAddr = panCoordAddr
      ∧ (s.heardDescriptor p).isSome = true then some p else none).toList) t
    cases hheard : s.heardDescriptor p with
    | none =>
      rw [hheard] at ht
      rw [if_neg (fun hand => by cases hand.2)]
      exact (append_nil ps).symm ▸ h.of_same ht
    | some d =>
      rw [hheard] at ht
      have hnumber : (s.takeDescriptor p (some d)).adv.macPANCoordinatorBSN =
          if p.hdr.shortSrcAddr = panCoordAddr ∧ s.cfg.shortAddress ≠ panCoordAddr then
            d.channelHopping.panCoordinatorBSN else s.adv.macPANCoordinatorBSN := rfl
      rw [hnumber] at ht
      by_cases hsrc : p.hdr.shortSrcAddr = panCoordAddr
      · rw [if_pos ⟨hsrc, haddr⟩] at ht
        rw [if_pos ⟨hsrc, rfl⟩]
        intro q hq
        have hq : p = q := by simpa using hq
        subst hq
        have hdescriptor := descriptor_of_heard hheard
        unfold hoppingNumber
        rw [hdescriptor]
        exact ⟨rfl, ht⟩
      · rw [if_neg fun hand => hsrc hand.1] at ht
        rw [if_neg fun hand => hsrc hand.1]
        exact (append_nil ps).symm ▸ h.of_same ht

/-- A device goes by the last beacon that it reads. -/
theorem follows_step (ps : List Packet) (s : Mac) (i : Input) (hs : Follows ps s)
    (hi : IsNode s i) : Post (step s i) fun t => Follows (recordHeard ps s i t) t := by
  obtain ⟨a, answers⟩ := i
  obtain ⟨haddr, hrole⟩ := hi
  have hs' : Follows ps { s with phy := answers } := hs
  unfold step recordHeard
  by_cases hsends : sendsBeacon s ⟨a, answers⟩
  · obtain ⟨n, e, sim, rfl, htake, hevent⟩ := id hsends
    show Post (fire n _) fun t => Follows (ps ++ []) t
    unfold fire
    rw [show Sim.take _ n = _ from htake]
    dsimp only
    rw [hevent, append_nil]
    refine (post_sendOneEnhancedBeacon _).imp fun t ht => ?_
    rcases ht with ⟨hbsn, -⟩ | ⟨hbsn, -⟩
    · exact hs'.of_same hbsn
    · rw [if_neg (by simp [hrole hsends])] at hbsn
      exact hs'.of_same hbsn
  · cases a with
    | pdDataIndication p fcsOk =>
      refine (post_pdDataIndication _ p fcsOk).imp fun t ht => ?_
      exact hs'.heard haddr ht.1
    | _ =>
      refine (post_act_other _ _ (fun n e sim ha htake hevent => hsends ?_) (by simp)).imp
        fun t ht => ?_
      · exact ⟨n, e, sim, ha, htake, hevent⟩
      · exact (append_nil ps).symm ▸ hs'.of_same ht.1

/-- The beacons of the PAN coordinator that a device reads in a run. -/
def heardBeacons (s : Mac) (is : List Input) : List Packet :=
  machine.ledger recordHeard [] s is

theorem follows_of_run {s t : Mac} {is : List Input} (h : machine.Run IsNode s is t) :
    Follows (heardBeacons s is) t :=
  h.ledger recordHeard Follows (fun ps u i hu _ hi => follows_step ps u i hu hi) []
    fun p hlast => by cases hlast

theorem ahead_of_run {s t : Mac} {is : List Input} (hnew : sentBeacons s = [])
    (h : machine.Run IsPanCoordinator s is t) : Ahead t := by
  refine h.invariant Ahead (fun u i hu _ hi => ahead_step u i hu hi) fun p hlast => ?_
  rw [hnew] at hlast
  cases hlast

/-! ## The PAN -/

/-- **When the devices of a PAN meet.**  The PAN coordinator has sent beacons, the last of them
`p`, and two other devices have read all of them.  Any two of the three meet in superframe `k`
exactly if the number of channels divides the differences of what they add to the slot and the
offset: the two go by the number of the beacon, the PAN coordinator by the next one. -/
theorem rendezvous_iff {c₀ c t₀ t r₀ r : Mac} {cs ts rs : List Input} {p : Packet} {k n : ℕ}
    (hc : machine.Run IsPanCoordinator c₀ cs c) (ht : machine.Run IsNode t₀ ts t)
    (hr : machine.Run IsNode r₀ rs r) (hnew : sentBeacons c₀ = [])
    (hlast : (sentBeacons c).getLast? = some p) (htheard : heardBeacons t₀ ts = sentBeacons c)
    (hrheard : heardBeacons r₀ rs = sentBeacons c) (hn : 1 ≤ n ∧ n ≤ 16)
    (hcn : c.cfg.numOfChannels = n) (htn : t.cfg.numOfChannels = n)
    (hrn : r.cfg.numOfChannels = n) :
    (∀ a ∈ [c, t, r], ∀ b ∈ [c, t, r], Rendezvous a b k) ↔
      c.hop k (hoppingNumber p + 1) ≡ t.hop k (hoppingNumber p) [MOD n]
        ∧ t.hop k (hoppingNumber p) ≡ r.hop k (hoppingNumber p) [MOD n] := by
  have htbsn := (follows_of_run ht) p (htheard ▸ hlast)
  have hrbsn := (follows_of_run hr) p (hrheard ▸ hlast)
  have hcbsn := (ahead_of_run hnew hc) p hlast htbsn.1
  rw [← hcbsn, ← htbsn.2]
  constructor
  · intro h
    refine ⟨(rendezvous_iff_hop hn hcn htn).mp (h c (by simp) t (by simp)), ?_⟩
    have hmeet := (rendezvous_iff_hop hn htn hrn).mp (h t (by simp) r (by simp))
    rwa [hrbsn.2, ← htbsn.2] at hmeet
  · rintro ⟨hct, htr⟩
    have htr : t.hop k t.adv.macPANCoordinatorBSN ≡ r.hop k r.adv.macPANCoordinatorBSN [MOD n] := by
      rwa [hrbsn.2, ← htbsn.2]
    -- all three add the same modulo the number of channels
    have hall : ∀ a ∈ [c, t, r], a.cfg.numOfChannels = n
        ∧ a.hop k a.adv.macPANCoordinatorBSN ≡ t.hop k t.adv.macPANCoordinatorBSN [MOD n] := by
      simp only [forall_mem_cons]
      exact ⟨⟨hcn, hct⟩, ⟨htn, Nat.ModEq.refl _⟩, ⟨hrn, htr.symm⟩, by simp⟩
    intro a ha b hb
    obtain ⟨han, hahop⟩ := hall a ha
    obtain ⟨hbn, hbhop⟩ := hall b hb
    exact (rendezvous_iff_hop hn han hbn).mpr (hahop.trans hbhop.symm)

/-- The devices use the hopping formula of the MAC, with the same number of channels a slot. -/
def SameFormula (a b : Mac) : Prop :=
  a.cfg.forDsmeNetDeviceIntegrateWithHigerLayer = false
    ∧ b.cfg.forDsmeNetDeviceIntegrateWithHigerLayer = false
    ∧ a.out.macCAPReductionFlag = b.out.macCAPReductionFlag

theorem SameFormula.hop_modEq {a b : Mac} (h : SameFormula a b) (k n : ℕ) (x y : BitVec 8) :
    a.hop k x ≡ b.hop k y [MOD n] ↔ x.toNat ≡ y.toNat [MOD n] := by
  obtain ⟨ha, hb, hflag⟩ := h
  unfold hop
  simp only [ha, hb, hflag, false_eq_true, if_false]
  exact ⟨fun h => h.add_left_cancel' _, fun h => h.add_left _⟩

/-- One formula and one number lead to the same channels. -/
theorem SameFormula.hop_eq {a b : Mac} (h : SameFormula a b) (k n : ℕ) (x : BitVec 8) :
    a.hop k x ≡ b.hop k x [MOD n] :=
  (h.hop_modEq k n x x).mpr (Nat.ModEq.refl _)

/-- A number and the next one agree only where there is one channel, or where the number wraps
around and the number of channels divides 255. -/
theorem next_modEq_iff (n : ℕ) (x : BitVec 8) :
    (x + 1).toNat ≡ x.toNat [MOD n] ↔ n = 1 ∨ x = 255 ∧ n ∣ 255 := by
  by_cases hx : x = 255
  · subst hx
    show 0 ≡ 255 [MOD n] ↔ _
    rw [Nat.modEq_iff_dvd' (by decide)]
    constructor
    · exact fun h => .inr ⟨rfl, h⟩
    · rintro (rfl | ⟨-, h⟩)
      · exact one_dvd _
      · exact h
  · have hlt : x.toNat + 1 < 2 ^ 8 := by
      have hne : x.toNat ≠ 255 := fun h => hx (BitVec.eq_of_toNat_eq h)
      have := x.isLt
      omega
    have hnext : (x + 1).toNat = x.toNat + 1 := by
      rw [BitVec.toNat_add]
      exact Nat.mod_eq_of_lt hlt
    rw [hnext, Nat.ModEq.comm, Nat.modEq_iff_dvd' (Nat.le_add_right _ _), Nat.add_sub_cancel_left,
      Nat.dvd_one]
    exact ⟨.inl, fun h => h.resolve_right fun hand => hx hand.1⟩

/-- Where all three devices use one formula, the two devices always meet, and the PAN coordinator
meets them only in these cases. -/
theorem hop_modEq_iff {c t r : Mac} (hct : SameFormula c t) (htr : SameFormula t r) (k n : ℕ)
    (x : BitVec 8) :
    (c.hop k (x + 1) ≡ t.hop k x [MOD n] ∧ t.hop k x ≡ r.hop k x [MOD n]) ↔
      n = 1 ∨ x = 255 ∧ n ∣ 255 := by
  rw [hct.hop_modEq, next_modEq_iff]
  exact and_iff_left (htr.hop_eq k n x)

/-! ## Examples of runs -/

/-- A PAN coordinator that is not started yet, with `n` channels. -/
def coordinator (n : ℕ) : Mac where
  cfg := { shortAddress := 1, macDSMEenabled := true, numOfChannels := n }

/-- A device of the PAN, with `n` channels. -/
def node (n : ℕ) : Mac where
  cfg := { shortAddress := 2, macDSMEenabled := true, numOfChannels := n }
  role := { macPanId := 7 }

/-- MLME-START, and the two events it posts. -/
def startAndSend : List Input :=
  [⟨.mlmeStartRequest
      { panId := 7, bcnOrd := 6, sfrmOrd := 3, panCoor := true
        dsmeSuperframeSpec := { multiSuperframeOrder := 5 }
        bcnBitmap := { sdIndex := 0, sdBitmapLen := 1, sdBitmap := [1] } } true true, {}⟩,
    ⟨.fire 0, {}⟩, ⟨.fire 0, {}⟩]

/-- The beacon that is sent in the last of them. -/
def firstBeacon : Packet where
  hdr :=
    { frmType := .beacon, ieListPresent := true, frmVer := 2, dstAddrMode := .shortAddr
      dstPanId := 7, shortDstAddr := 0xffff, srcAddrMode := .shortAddr, srcPanId := 7
      shortSrcAddr := 1 }
  body := .beacon {} (some
    { superframeField :=
        { bcnOrder := 6, sprFrmOrder := 3, fnlCapSlot := 8, panCoor := true, assocPermit := true }
      dsmeSuperframeField := { multiSuperframeOrder := 5 }
      beaconBitmap := { sdIndex := 0, sdBitmapLen := 1, sdBitmap := [1] }
      channelHopping := { channelOffsetBitmapLength := 0, channelOffsetBitmap := [] } }) 0
  size := 54
  uid := 0

/-- A test for steps that send beacons only as PAN coordinator. -/
def sendsAsPanCoordinator (s : Mac) (i : Input) : Bool :=
  s.cfg.shortAddress == panCoordAddr && (s.role.panCoor || match i.action with
    | .fire _ => false
    | _ => true)

theorem isPanCoordinator_of_sends (s : Mac) (i : Input) (h : sendsAsPanCoordinator s i = true) :
    IsPanCoordinator s i := by
  obtain ⟨haddr, hrole⟩ := Bool.and_eq_true_iff.mp h
  refine ⟨eq_of_beq haddr, ?_⟩
  rintro ⟨n, e, sim, haction, -, -⟩
  rw [haction, Bool.or_false] at hrole
  exact hrole

/-- The step receives a frame, and the device has another address than the PAN coordinator. -/
def receivesOnly (s : Mac) (i : Input) : Bool :=
  s.cfg.shortAddress != panCoordAddr && match i.action with
    | .pdDataIndication _ _ => true
    | _ => false

theorem isNode_of_receivesOnly (s : Mac) (i : Input) (h : receivesOnly s i = true) :
    IsNode s i := by
  obtain ⟨haddr, haction⟩ := and_eq_true_iff.mp h
  refine ⟨bne_iff_ne.mp haddr, ?_⟩
  rintro ⟨n, e, sim, hfire, -, -⟩
  rw [hfire] at haction
  cases haction

/-- `n` channels, and the formula of the MAC without CAP reduction. -/
def isSetUp (n : ℕ) (s : Mac) : Bool :=
  s.cfg.numOfChannels == n && !s.cfg.forDsmeNetDeviceIntegrateWithHigerLayer
    && !s.out.macCAPReductionFlag

theorem sameFormula_of_isSetUp {n : ℕ} {a b : Mac} (ha : isSetUp n a = true)
    (hb : isSetUp n b = true) : SameFormula a b := by
  simp only [isSetUp, and_eq_true, not_eq_true'] at ha hb
  exact ⟨ha.1.2, hb.1.2, ha.2.trans hb.2.symm⟩

theorem numOfChannels_of_isSetUp {n : ℕ} {a : Mac} (ha : isSetUp n a = true) :
    a.cfg.numOfChannels = n := by
  simp only [isSetUp, and_eq_true, beq_iff_eq] at ha
  exact ha.1.1

/-- The runs up to the first beacon. -/
theorem exists_runs {n : ℕ} (hn : n = 1 ∨ n = 16) :
    ∃ c t, machine.Run IsPanCoordinator (coordinator n) startAndSend c
      ∧ machine.Run IsNode (node n) [⟨.pdDataIndication firstBeacon true, {}⟩] t
      ∧ sentBeacons c = [firstBeacon] ∧ isSetUp n c = true ∧ isSetUp n t = true
      ∧ heardBeacons (node n) [⟨.pdDataIndication firstBeacon true, {}⟩] = [firstBeacon] := by
  have hsend : (machine.exec sendsAsPanCoordinator (coordinator n) startAndSend).any
      (fun c => decide (sentBeacons c = [firstBeacon]) && isSetUp n c) = true := by
    rcases hn with rfl | rfl
    · decide +kernel
    · decide +kernel
  have hreceive : (machine.exec receivesOnly (node n)
      [⟨.pdDataIndication firstBeacon true, {}⟩]).any (isSetUp n) = true := by
    rcases hn with rfl | rfl
    · decide +kernel
    · decide +kernel
  have hheard : heardBeacons (node n) [⟨.pdDataIndication firstBeacon true, {}⟩]
      = [firstBeacon] := by
    rcases hn with rfl | rfl
    · decide +kernel
    · decide +kernel
  obtain ⟨c, hc, hcsetup⟩ := Machine.exists_run_of_exec _ _ _ _ hsend
  obtain ⟨t, ht, htsetup⟩ := Machine.exists_run_of_exec _ _ _ _ hreceive
  obtain ⟨hsent, hcsetup⟩ := and_eq_true_iff.mp hcsetup
  exact ⟨c, t, hc.mono isPanCoordinator_of_sends, ht.mono isNode_of_receivesOnly,
    of_decide_eq_true hsent, hcsetup, htsetup, hheard⟩

/-- With one channel the three devices meet. -/
theorem rendezvous_oneChannel : ∃ c t, sentBeacons c = [firstBeacon]
      ∧ ∀ a ∈ [c, t, t], ∀ b ∈ [c, t, t], Rendezvous a b 3 := by
  obtain ⟨c, t, hc, ht, hsent, hcsetup, htsetup, hheard⟩ := exists_runs (n := 1) (.inl rfl)
  have hnew : sentBeacons (coordinator 1) = [] := rfl
  have htn := numOfChannels_of_isSetUp htsetup
  refine ⟨c, t, hsent, ?_⟩
  refine (rendezvous_iff hc ht ht hnew (congrArg List.getLast? hsent) (hheard.trans hsent.symm)
    (hheard.trans hsent.symm) (by decide) (numOfChannels_of_isSetUp hcsetup) htn htn).mpr ?_
  exact (hop_modEq_iff (sameFormula_of_isSetUp hcsetup htsetup)
    (sameFormula_of_isSetUp htsetup htsetup) _ _ _).mpr (.inl rfl)

/-- With 16 channels the PAN coordinator and a device that has read its beacon do not meet. -/
theorem not_rendezvous : ¬ ∀ (c₀ c t₀ t r₀ r : Mac) (cs ts rs : List Input) (k n : ℕ),
      machine.Run IsPanCoordinator c₀ cs c → machine.Run IsNode t₀ ts t →
      machine.Run IsNode r₀ rs r → sentBeacons c₀ = [] → sentBeacons c ≠ [] →
      heardBeacons t₀ ts = sentBeacons c → heardBeacons r₀ rs = sentBeacons c →
      1 ≤ n ∧ n ≤ 16 → c.cfg.numOfChannels = n → t.cfg.numOfChannels = n →
      r.cfg.numOfChannels = n → SameFormula c t → SameFormula t r →
        ∀ a ∈ [c, t, r], ∀ b ∈ [c, t, r], Rendezvous a b k := by
  intro hall
  obtain ⟨c, t, hc, ht, hsent, hcsetup, htsetup, hheard⟩ := exists_runs (n := 16) (.inr rfl)
  have hnew : sentBeacons (coordinator 16) = [] := rfl
  have hcn := numOfChannels_of_isSetUp hcsetup
  have htn := numOfChannels_of_isSetUp htsetup
  have hct := sameFormula_of_isSetUp hcsetup htsetup
  have hmeet : Rendezvous c t 0 := hall _ c _ t _ t _ _ _ 0 16 hc ht ht hnew (by simp [hsent])
    (hheard.trans hsent.symm) (hheard.trans hsent.symm) (by decide) hcn htn htn hct
    (sameFormula_of_isSetUp htsetup htsetup) c (by simp) t (by simp)
  have hlast : (sentBeacons c).getLast? = some firstBeacon := congrArg List.getLast? hsent
  have hahead := ahead_of_run hnew hc firstBeacon hlast rfl
  have hfollows := (follows_of_run ht firstBeacon (by rw [hheard]; rfl)).2
  have hhop := (rendezvous_iff_hop (by decide) hcn htn).mp hmeet
  rw [hahead, hfollows, hct.hop_modEq, next_modEq_iff] at hhop
  rcases hhop with hone | ⟨hwrap, -⟩
  · cases hone
  · exact absurd hwrap (by decide)

end ChannelHopping

end Ns3Dsme
