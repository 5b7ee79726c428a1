/-
# The superframe index of a PAN coordinator

`StartMultisuperframe` resets the superframe index, and a chain of `StartSuperframe` events
advances it.  The chain is started only by a multi-superframe that begins in the first
superframe duration of the simulation, its first event never advances the index, and a new
MLME-START cancels nothing.  So the index is right in all runs in which a superframe is
also a multi-superframe from the first `StartSuperframe` on, and in which the chain is
started exactly once.
-/
import Ns3Dsme.LrWpan.Footprint

open Bool List Program Program.Views

namespace Ns3Dsme.SuperframeIndex

open Mac

/-! ## The chains of events -/

/-- The event advances the superframe index. -/
def isAdvance : MacEvent → Bool
  | .startSuperframe => true
  | _ => false

/-- The event starts an outgoing multi-superframe. -/
def isRestart : MacEvent → Bool
  | .startMultisuperframe .outgoing => true
  | _ => false

/-- The pending events that advance the superframe index. -/
def advances (s : Mac) : List (MacEvent × ℤ) := s.sim.eventsOf isAdvance

/-- The pending starts of outgoing multi-superframes. -/
def restarts (s : Mac) : List (MacEvent × ℤ) := s.sim.eventsOf isRestart

/-- When the superframe structure that is in force was started. -/
def record (b : Option ℤ) (s : Mac) (i : Input) (_ : Mac) : Option ℤ :=
  match i.action with
  | .mlmeStartRequest params true true =>
    if (s.role.panCoor || params.panCoor) && s.cfg.macDSMEenabled && params.bcnOrd != 15 then
      some s.sim.now
    else none
  | _ => b

/-- The index at a time at which all events of the superframe counters that are due have run. -/
def CountsFrom (t₀ : ℤ) (s : Mac) : Prop :=
  t₀ ≤ s.sim.now → (∀ x ∈ s.sim.eventsOf MacEvent.isCounting, s.sim.now < x.2) →
    (s.count.curSuperframeIDx : ℤ) = (s.sim.now - t₀) / symbols s.out.superframeDuration
        % ((s.out.multiSuperframeDuration / s.out.superframeDuration : ℕ) : ℤ)
      ∧ (advances s).length = 1

/-- An event of the superframe counters that does no harm. -/
def SteadyEvent (s : Mac) (e : Scheduled) : Prop :=
  match e.event with
  | .startSuperframe =>
    s.out.multiSuperframeDuration = s.out.superframeDuration
      ∧ s.out.numOfSuperframes / s.out.numOfMultisuperframes = 1
  | .startMultisuperframe .outgoing =>
    e.time ≤ symbols s.out.superframeDuration ↔ advances s = []
  | .startMultisuperframe .incoming => symbols s.out.superframeDuration < e.time
  | _ => True

/-- While a chain is pending, MLME-START asks for multi-superframes of one superframe; the
index is advanced only if multi-superframes have one superframe; an outgoing multi-superframe
begins in the first superframe duration of the simulation exactly if no chain is pending, and
an incoming one begins later. -/
def Steady (s : Mac) (i : Input) : Prop :=
  match i.action with
  | .mlmeStartRequest params true true =>
    params.bcnOrd ≠ 15 → advances s ≠ [] →
      (params.dsmeSuperframeSpec.multiSuperframeOrder : ℕ) = params.sfrmOrd
  | .fire n =>
    match s.sim.pending[n]? with
    | some e => SteadyEvent s e
    | none => True
  | _ => True

/-! ## The invariant -/

/-- The first multi-superframe is about to begin. -/
structure Awaits (t₀ : ℤ) (s : Mac) : Prop where
  restart : (MacEvent.startMultisuperframe .outgoing, t₀) ∈ restarts s
  single : advances s ≠ [] → s.out.multiSuperframeDuration = s.out.superframeDuration

/-- Superframes are counted: either there is only one, or the first one is going on. -/
structure Counting (t₀ : ℤ) (s : Mac) : Prop where
  index : s.count.curSuperframeIDx = 0
  chain : (advances s).length = 1
  first : s.out.multiSuperframeDuration = s.out.superframeDuration
    ∨ ∀ x ∈ advances s, x.2 ≤ t₀ + symbols s.out.superframeDuration

structure Inv (b : Option ℤ) (s : Mac) : Prop where
  chain : (advances s).length ≤ 1
  started : ∀ t₀, b = some t₀ →
    0 < s.out.superframeDuration ∧ (Awaits t₀ s ∨ Counting t₀ s)

/-- What the invariant tells of the index. -/
theorem Inv.countsFrom {b : Option ℤ} {s : Mac} (h : Inv b s) (t₀ : ℤ) (hb : b = some t₀) :
    CountsFrom t₀ s := by
  intro hnow hdue
  obtain ⟨hpos, hawaits | hcounting⟩ := h.started t₀ hb
  · -- the first multi-superframe would be overdue
    have hmem : (MacEvent.startMultisuperframe .outgoing, t₀)
        ∈ s.sim.eventsOf MacEvent.isCounting :=
      mem_filter.mpr ⟨(mem_filter.mp hawaits.restart).1, rfl⟩
    exact absurd (hdue _ hmem) (by omega)
  · refine ⟨?_, hcounting.chain⟩
    rw [hcounting.index]
    rcases hcounting.first with hone | hfirst
    · rw [hone, Nat.div_self hpos]
      simp
    · obtain ⟨x, hx⟩ := length_eq_one_iff.mp hcounting.chain
      have hmem : x ∈ advances s := by rw [hx]; exact mem_singleton_self x
      have hlate : x.2 ≤ t₀ + symbols s.out.superframeDuration := hfirst x hmem
      have hnext : s.sim.now < x.2 := by
        have hadv : isAdvance x.1 = true := (mem_filter.mp hmem).2
        refine hdue x (mem_filter.mpr ⟨(mem_filter.mp hmem).1, ?_⟩)
        cases hevent : x.1 with
        | startSuperframe => rfl
        | _ =>
          rw [hevent] at hadv
          cases hadv
      rw [Int.ediv_eq_zero_of_lt (by omega) (by omega)]
      simp

/-! ## What leaves the structure alone -/

/-- The superframe structure, its index and its chains of events are the same. -/
structure SameStructure (s t : Mac) : Prop where
  index : t.count.curSuperframeIDx = s.count.curSuperframeIDx
  superframeDuration : t.out.superframeDuration = s.out.superframeDuration
  multiSuperframeDuration : t.out.multiSuperframeDuration = s.out.multiSuperframeDuration
  advances : advances t = advances s
  restarts : restarts t = restarts s

variable (s : Mac)

theorem SameStructure.refl : SameStructure s s := ⟨rfl, rfl, rfl, rfl, rfl⟩

theorem SameStructure.trans {s t u : Mac} (h : SameStructure s t) (h' : SameStructure t u) :
    SameStructure s u :=
  ⟨h'.index.trans h.index, h'.superframeDuration.trans h.superframeDuration,
    h'.multiSuperframeDuration.trans h.multiSuperframeDuration, h'.advances.trans h.advances,
    h'.restarts.trans h.restarts⟩

/-- A part of the timeline is a part of every larger one. -/
theorem eventsOf_congr {sim sim' : Sim} {p q : MacEvent → Bool} (hpq : ∀ e, p e = true → q e = true)
    (h : sim'.eventsOf q = sim.eventsOf q) :
    sim'.eventsOf p = sim.eventsOf p := by
  have hpart (sim : Sim) : sim.eventsOf p = (sim.eventsOf q).filter fun x => p x.1 := by
    unfold Sim.eventsOf
    rw [filter_filter]
    refine filter_congr fun x _ => ?_
    cases hp : p x.1 with
    | false => rfl
    | true => simp [hpq _ hp]
  rw [hpart, hpart, h]

theorem isCounting_of_isAdvance (e : MacEvent) (h : isAdvance e = true) :
    e.isCounting = true := by
  cases e <;> first | rfl | cases h

theorem isCounting_of_isRestart (e : MacEvent) (h : isRestart e = true) :
    e.isCounting = true := by
  cases e <;> first | rfl | cases h

theorem sameStructure_of_keeps {touched : List View} {s t : Mac} (h : views.Keeps touched s t)
    (htouched : View.counting ∉ touched) : SameStructure s t := by
  obtain ⟨hsame, hevents⟩ := h .counting htouched
  exact ⟨congrArg (fun c : Mac.Superframes => c.count.curSuperframeIDx) hsame,
    congrArg Mac.Superframes.superframeDuration hsame,
    congrArg Mac.Superframes.multiSuperframeDuration hsame,
    eventsOf_congr isCounting_of_isAdvance hevents,
    eventsOf_congr isCounting_of_isRestart hevents⟩

theorem inv_of_sameStructure {b : Option ℤ} {s t : Mac} (h : SameStructure s t) (hs : Inv b s) :
    Inv b t := by
  refine ⟨by rw [h.advances]; exact hs.chain, fun t₀ hb => ?_⟩
  obtain ⟨hpos, hphase⟩ := hs.started t₀ hb
  refine ⟨by rw [h.superframeDuration]; exact hpos, hphase.imp (fun ha => ?_) fun hc => ?_⟩
  · refine ⟨by rw [h.restarts]; exact ha.restart, ?_⟩
    rw [h.advances, h.multiSuperframeDuration, h.superframeDuration]
    exact ha.single
  · refine ⟨h.index.trans hc.index, by rw [h.advances]; exact hc.chain, ?_⟩
    rw [h.advances, h.multiSuperframeDuration, h.superframeDuration]
    exact hc.first

/-- A handler that does not count superframes leaves the structure alone. -/
theorem sameStructure_of_touches {touched : List View} {s : Mac} {x : Exec Mac}
    (h : Touches touched s x) (htouched : View.counting ∉ touched) :
    Post x (SameStructure s) :=
  h.post.imp fun _ ht => sameStructure_of_keeps ht htouched

/-- Handlers that leave the structure alone do so one after the other. -/
theorem sameStructure_seq {s : Mac} {x : Exec Mac} {f : Mac → Exec Mac}
    (hx : Post x (SameStructure s)) (hf : ∀ t, Post (f t) (SameStructure t)) :
    Post (x >>= f) (SameStructure s) :=
  Wp.trans (R := SameStructure) (fun _ _ _ => SameStructure.trans) hx hf

/-! ## Receiving -/

/-- A multi-superframe of another coordinator is none of the own ones. -/
theorem sameStructure_startIncomingMultisuperframe :
    Post s.startIncomingMultisuperframe (SameStructure s) := by
  unfold startIncomingMultisuperframe
  split
  · refine post_bind fun r _ => ?_
    split
    · refine ⟨rfl, rfl, rfl, ?_, ?_⟩
      · exact (Sim.eventsOf_post s.sim _ _ _ _ rfl).trans (append_nil _)
      · exact (Sim.eventsOf_post s.sim _ _ _ _ rfl).trans (append_nil _)
    · exact SameStructure.refl s
  · exact SameStructure.refl s

theorem sameStructure_startIncomingSuperframe :
    Post s.startIncomingSuperframe (SameStructure s) := by
  have hcap : SameStructure s s.startIncomingCAP :=
    sameStructure_of_keeps (keeps_startIncomingCAP s) (by simp)
  have hcfp : SameStructure s s.startIncomingFirstCFP :=
    sameStructure_of_keeps (keeps_startIncomingFirstCFP s) (by simp)
  unfold startIncomingSuperframe
  dsimp only
  split
  · split
    · exact hcfp
    · split
      · exact hcap.trans ⟨rfl, rfl, rfl, rfl, rfl⟩
      · refine post_bind fun r _ => ?_
        split
        · exact hcfp
        · exact hcap
  · exact hcap

theorem sameStructure_receiveOwnPanBeacon (p : Packet) (spec : SuperframeField)
    (beaconTimeStamp : BitVec 64) :
    Post (s.receiveOwnPanBeacon p spec beaconTimeStamp) (SameStructure s) := by
  unfold receiveOwnPanBeacon
  have hbegin : SameStructure s (s.csmaCancel.receiveSuperframe spec) :=
    (sameStructure_of_keeps (keeps_csmaCancel s) (by simp)).trans
      (sameStructure_of_keeps (keeps_receiveSuperframe _ spec) (by simp))
  refine sameStructure_seq ((sameStructure_startIncomingMultisuperframe _).imp
    fun t ht => hbegin.trans ht) fun t => ?_
  refine sameStructure_seq ((sameStructure_of_touches (touches_scheduleFirstBeacon _)
    (by simp)).imp fun u hu => ?_) fun u => ?_
  · exact (sameStructure_of_keeps (keeps_noteSyncParent t p _) (by simp)).trans hu
  · refine sameStructure_seq (sameStructure_of_touches
      ((keeps_purgeDsmeACT u).wp (touches_scheduleGtsOnBeacon _ p)) (by simp)) fun v => ?_
    exact sameStructure_startIncomingSuperframe v

theorem sameStructure_receiveBeacon (p : Packet) :
    Post (s.receiveBeacon p) fun r => SameStructure s r.1 := by
  have hnotify (t : Mac) (sduLength : ℕ) : SameStructure t (t.notifyBeacon p sduLength) :=
    sameStructure_of_keeps (keeps_notifyBeacon t p sduLength) (by simp)
  unfold receiveBeacon
  split
  · rename_i spec ie sduLength _
    refine (wp_bind _ _ _ _).mpr ((wp_readBeacon (s.noteBeacon p) p spec ie).mono ?_
      fun _ _ => trivial)
    rintro ⟨t, spec', beaconTimeStamp⟩ ht
    have hnoted : SameStructure s (s.noteBeacon p) := ⟨rfl, rfl, rfl, rfl, rfl⟩
    have hread : SameStructure s t := hnoted.trans (sameStructure_of_keeps ht (by simp))
    dsimp only
    split
    · apply wp_of_bind
      refine (sameStructure_receiveOwnPanBeacon t p spec' beaconTimeStamp).imp fun u hu => ?_
      exact (hread.trans hu).trans (hnotify u _)
    · split
      · exact hread
      · exact hread.trans (hnotify t _)
  · trivial

/-- No reception changes the superframe structure. -/
theorem sameStructure_pdDataIndication (p : Packet) (fcsOk : Bool) :
    Post (s.pdDataIndication p fcsOk) (SameStructure s) := by
  cases hbeacon : p.hdr.isBeacon with
  | true =>
    exact post_pdDataIndication_of_isBeacon s fcsOk _ hbeacon (SameStructure.refl s)
      fun _ _ => sameStructure_receiveBeacon s p
  | false =>
    have hhilow : SameStructure s (s.acceptAllHilow p) :=
      sameStructure_of_keeps (keeps_acceptAllHilow s p) (by simp)
    unfold pdDataIndication
    split
    · trivial
    · split
      · split
        · exact (sameStructure_of_touches (touches_receiveFrame_of_not_beacon _ p hbeacon)
            (by simp)).imp fun t ht => hhilow.trans ht
        · exact hhilow
      · exact SameStructure.refl s

/-! ## Starting a PAN -/

/-- A PAN coordinator has taken over the orders of the request, and its first multi-superframe
is due. -/
structure Begun (params : MlmeStartRequestParams) (s t : Mac) : Prop where
  restart : (MacEvent.startMultisuperframe .outgoing, s.sim.now) ∈ restarts t
  superframeDuration :
    t.out.superframeDuration = 2 ^ params.sfrmOrd * aBaseSuperframeDuration
  multiSuperframeDuration : t.out.multiSuperframeDuration
    = 2 ^ (params.dsmeSuperframeSpec.multiSuperframeOrder : ℕ) * aBaseSuperframeDuration

/-- The start of the beacons leaves the chain of `StartSuperframe` alone; a PAN coordinator
schedules its first multi-superframe for the present. -/
theorem post_startBeacons : s.startBeacons.out = s.out ∧ advances s.startBeacons = advances s
      ∧ (s.role.panCoor = true →
        (MacEvent.startMultisuperframe .outgoing, s.sim.now) ∈ restarts s.startBeacons) := by
  unfold startBeacons
  split
  · refine ⟨rfl, ?_, fun _ => ?_⟩
    · refine (sameStructure_of_keeps (keeps_purgeDsmeACT _) (by simp)).advances.trans ?_
      refine (Sim.eventsOf_post _ _ _ _ _ rfl).trans ?_
      refine (append_nil _).trans ?_
      exact (Sim.eventsOf_post s.sim _ _ _ _ rfl).trans (append_nil _)
    · have hpost := Sim.eventsOf_post s.sim isRestart .multisuperframeStartEvent
        (.startMultisuperframe .outgoing) 0 rfl
      rw [if_pos (by rfl), Int.add_zero] at hpost
      rw [(sameStructure_of_keeps (keeps_purgeDsmeACT _) (by simp)).restarts]
      refine Sim.eventsOf_subset_post _ _ _ _ _ rfl ?_
      exact hpost.symm ▸ mem_append_right _ (mem_singleton_self _)
  · rename_i hpan
    exact ⟨rfl, rfl, fun h => absurd h hpan⟩

theorem post_startBeacon (params : MlmeStartRequestParams) (desc : Option PanDescriptor) :
    Post (s.startBeacon params desc) fun t => advances t = advances s
      ∧ (s.cfg.macDSMEenabled = true → s.role.panCoor = true → desc = none →
        Begun params s t) := by
  unfold startBeacon
  refine (wp_bind _ _ _ _).mpr (((post_startDsmeFrom _ params desc).and
    (touches_startDsmeFrom _ params desc).post).mono (fun t ht => ?_) fun _ _ => trivial)
  obtain ⟨⟨hsim, hrole, hslots, hmulti⟩, hkeeps⟩ := ht
  refine (touches_resizeSAB t).post.bind fun u hu => ?_
  have hsame : SameStructure t u := sameStructure_of_keeps hu (by simp)
  have hadvances : advances u = advances s := by
    rw [hsame.advances]
    unfold advances
    rw [hsim]
    rfl
  have hcfg : u.cfg = s.cfg := (hu .config (by simp)).trans (hkeeps .config (by simp))
  rw [hcfg]
  split
  · rename_i hdsme
    refine (sameStructure_of_touches (touches_scheduleGtsInMac _ false) (by simp)).imp
      fun v hv => ?_
    obtain ⟨hout, hbegin, hrestart⟩ := post_startBeacons u
    refine ⟨hv.advances.trans (hbegin.trans hadvances), fun _ hpan hdesc => ?_⟩
    have hpan' : u.role.panCoor = true := by
      rw [show u.role.panCoor = t.role.panCoor from hu .panCoor (by simp), hrole]
      exact hpan
    have hnow : u.sim.now = s.sim.now := by
      rw [show u.sim.now = t.sim.now from hu .clock (by simp), hsim]
      rfl
    refine ⟨?_, ?_, ?_⟩
    · rw [hv.restarts, ← hnow]
      exact hrestart hpan'
    · rw [hv.superframeDuration, hout, hsame.superframeDuration,
        show t.out.superframeDuration = _ from congrArg Mac.Slots.superframeDuration hslots, hdesc]
      rfl
    · rw [hv.multiSuperframeDuration, hout, hsame.multiSuperframeDuration]
      exact hmulti hdsme hdesc
  · rename_i hdsme
    exact ⟨hadvances, fun h => absurd h hdsme⟩

/-- MLME-START begins a new structure or ends the one in force; it keeps the chain of
`StartSuperframe`. -/
theorem inv_mlmeStartRequest (b : Option ℤ) (s : Mac) (params : MlmeStartRequestParams)
    (pageOk channelOk : Bool) (answers : PhyAnswers) (r : Mac)
    (hi : Steady s ⟨.mlmeStartRequest params pageOk channelOk, answers⟩) (hs : Inv b s) :
    Post (s.mlmeStartRequest params pageOk channelOk)
      (Inv (record b s ⟨.mlmeStartRequest params pageOk channelOk, answers⟩ r)) := by
  refine post_mlmeStartRequest_role s params pageOk channelOk _ (fun hrefused t ht => ?_)
    (fun haccepted t ht hrole hord => ?_) fun haccepted t desc ht hrole hdesc => ?_
  · have hrecord : record b s ⟨.mlmeStartRequest params pageOk channelOk, answers⟩ r = b := by
      unfold record
      cases pageOk <;> cases channelOk <;> first | rfl | cases hrefused
    rw [hrecord]
    exact inv_of_sameStructure (sameStructure_of_keeps ht (by simp)) hs
  · obtain ⟨rfl, rfl⟩ := and_eq_true_iff.mp haccepted
    refine (touches_startNonBeacon t).post.imp fun u hu => ?_
    have hsame : SameStructure s u := (sameStructure_of_keeps ht (by simp)).trans
      (sameStructure_of_keeps hu (by simp))
    refine ⟨(inv_of_sameStructure hsame hs).chain, fun t₀ hb => ?_⟩
    unfold record at hb
    dsimp only at hb
    rw [← hrole] at hb
    split at hb
    · rename_i hstart
      simp only [and_eq_true, bne_iff_ne, ne_eq] at hstart
      exact absurd (hord hstart.1.1) hstart.2
    · cases hb
  · obtain ⟨rfl, rfl⟩ := and_eq_true_iff.mp haccepted
    have hadvances : advances t = advances s :=
      (sameStructure_of_keeps ht (by simp)).advances
    refine (post_startBeacon t params desc).imp fun u hu => ?_
    refine ⟨by rw [hu.1, hadvances]; exact hs.chain, fun t₀ hb => ?_⟩
    unfold record at hb
    dsimp only at hb
    rw [← hrole] at hb
    split at hb
    · rename_i hstart
      simp only [and_eq_true, bne_iff_ne, ne_eq] at hstart
      obtain ⟨⟨hpan, hdsme⟩, hord⟩ := hstart
      obtain rfl := Option.some.inj hb
      have hnone : desc = none := by
        cases desc with
        | none => rfl
        | some d => exact absurd hpan (by simp [hdesc.1])
      have hcfg : t.cfg = s.cfg := ht .config (by simp)
      have hnow : t.sim.now = s.sim.now := ht .clock (by simp)
      have hbegun := hu.2 (by rw [hcfg]; exact hdsme) hpan hnone
      refine ⟨?_, .inl ⟨by rw [← hnow]; exact hbegun.restart, fun hchain => ?_⟩⟩
      · rw [hbegun.superframeDuration]
        exact Nat.mul_pos (Nat.two_pow_pos _) (by decide)
      · rw [hbegun.superframeDuration, hbegun.multiSuperframeDuration,
          hi hord (by rw [← hadvances, ← hu.1]; exact hchain)]
    · cases hb

/-! ## Counting -/

/-- `StartSuperframe`, where a multi-superframe has one superframe. -/
theorem post_startSuperframe (hone : s.out.numOfSuperframes / s.out.numOfMultisuperframes = 1) :
    Post s.startSuperframe fun t => t.count.curSuperframeIDx = s.count.curSuperframeIDx
      ∧ t.out = s.out ∧ (advances t).length = (advances s).length + 1
      ∧ restarts t = restarts s := by
  unfold startSuperframe superframesPerMultisuperframe
  split
  · trivial
  · refine (wp_bind _ _ _ _).mpr ((wp_ok _ _ _).mpr ?_)
    rw [hone]
    unfold difference scheduleAnonymous
    rw [if_pos (Nat.le_refl 1)]
    dsimp only
    split
    · trivial
    · refine ⟨?_, rfl, ?_, ?_⟩
      · -- no index is below the last one, which is 0
        simp
      · show ((s.sim.postAnonymous _ _).eventsOf isAdvance).length = _
        rw [Sim.eventsOf_postAnonymous, if_pos (by rfl), length_append]
        rfl
      · show (s.sim.postAnonymous _ _).eventsOf isRestart = _
        rw [Sim.eventsOf_postAnonymous, if_neg (by decide), append_nil]
        rfl

/-- `StartMultisuperframe` for an outgoing multi-superframe. -/
theorem post_startMultisuperframe_outgoing :
    Post (s.startMultisuperframe .outgoing) fun t => t.count.curSuperframeIDx = 0
      ∧ t.out = s.out ∧ advances t = advances s
        ++ if s.sim.now ≤ symbols s.out.superframeDuration then
            [(.startSuperframe, s.sim.now + symbols s.out.superframeDuration)]
          else [] := by
  have hend : (s.sim.post .multisuperframeEndEvent (.startMultisuperframe .outgoing)
      (symbols s.out.multiSuperframeDuration) rfl).eventsOf isAdvance = advances s :=
    (Sim.eventsOf_post s.sim _ _ _ _ rfl).trans (append_nil _)
  unfold startMultisuperframe
  dsimp only
  split
  · rename_i hearly
    have hearly : s.sim.now ≤ symbols s.out.superframeDuration := hearly
    refine ⟨rfl, rfl, (Sim.eventsOf_post _ _ _ _ _ rfl).trans ?_⟩
    rw [hend, if_pos (by rfl), if_pos hearly]
    rfl
  · rename_i hlate
    have hlate : ¬ s.sim.now ≤ symbols s.out.superframeDuration := hlate
    refine ⟨rfl, rfl, hend.trans ?_⟩
    rw [if_neg hlate, append_nil]

/-- `StartMultisuperframe` for an incoming one that begins late. -/
theorem post_startMultisuperframe_incoming (hlate : symbols s.out.superframeDuration < s.sim.now) :
    Post (s.startMultisuperframe .incoming) fun t => t.count.curSuperframeIDx = 0
      ∧ t.out = s.out ∧ t.sim = s.sim := by
  unfold startMultisuperframe
  dsimp only
  rw [if_neg (by omega)]
  exact ⟨rfl, rfl, rfl⟩

/-! ## Steps and runs -/

/-- A steady event keeps the invariant. -/
theorem inv_fire (b : Option ℤ) (s : Mac) (n : ℕ)
    (hfirst : ∀ e, s.sim.pending[n]? = some e → ∀ x ∈ s.sim.timeline, e.time ≤ x.2)
    (hi : ∀ e, s.sim.pending[n]? = some e → SteadyEvent s e) (hs : Inv b s) :
    Post (s.fire n) (Inv b) := by
  cases htake : s.sim.take n with
  | none =>
    unfold fire
    rw [htake]
    exact hs
  | some r =>
    obtain ⟨e, sim⟩ := r
    have hpending := Sim.getElem?_of_take htake
    have hnow := Sim.now_of_take htake
    have hearly := hfirst e hpending
    have hevent := hi e hpending
    have hpart (p : MacEvent → Bool) (hp : p e.event = false) :
        sim.eventsOf p = s.sim.eventsOf p := Sim.eventsOf_take_of_not _ _ n e p htake hp
    unfold SteadyEvent at hevent
    by_cases hcounting : e.event.isCounting = true
    · unfold fire
      rw [htake]
      dsimp only
      cases he : e.event with
      | startSuperframe =>
        rw [he] at hevent hpart
        refine (post_startSuperframe { s with sim } hevent.2).imp fun t ht => ?_
        obtain ⟨hindex, hout, hchain, hrestarts⟩ := ht
        have hlen : (advances s).length = 1 + (advances { s with sim }).length := by
          have h := (Sim.eventsOf_take _ _ n e isAdvance htake).length_eq
          rw [he, if_pos (by rfl), length_append] at h
          exact h
        have hone : (advances t).length = 1 := by
          have := hs.chain
          omega
        refine ⟨hone.le, fun t₀ hb => ?_⟩
        obtain ⟨hpos, hphase⟩ := hs.started t₀ hb
        rw [hout]
        refine ⟨hpos, hphase.imp (fun ha => ?_) fun hc => ?_⟩
        · refine ⟨?_, fun _ => by rw [hout]; exact hevent.1⟩
          rw [hrestarts, show restarts { s with sim } = restarts s from hpart isRestart rfl]
          exact ha.restart
        · exact ⟨hindex.trans hc.index, hone, .inl (by rw [hout]; exact hevent.1)⟩
      | startMultisuperframe superframeType =>
        rw [he] at hevent hpart
        have hadvances : advances { s with sim } = advances s := hpart isAdvance rfl
        cases superframeType with
        | outgoing =>
          refine (post_startMultisuperframe_outgoing { s with sim }).imp fun t ht => ?_
          obtain ⟨hindex, hout, hchain⟩ := ht
          rw [hadvances] at hchain
          dsimp only at hchain hout
          rw [hnow] at hchain
          by_cases hstart : e.time ≤ symbols s.out.superframeDuration
          · -- the chain is started
            have hnil : advances s = [] := hevent.mp hstart
            rw [hnil, if_pos hstart, nil_append] at hchain
            refine ⟨by rw [hchain]; exact Nat.le_refl 1, fun t₀ hb => ?_⟩
            obtain ⟨hpos, hphase⟩ := hs.started t₀ hb
            rw [hout]
            refine ⟨hpos, .inr ⟨hindex, by rw [hchain]; rfl, .inr fun x hx => ?_⟩⟩
            rw [hchain] at hx
            rw [mem_singleton.mp hx, hout]
            rcases hphase with ha | hc
            · have := hearly _ (mem_filter.mp ha.restart).1
              dsimp only at this ⊢
              omega
            · have := hc.chain
              rw [hnil] at this
              cases this
          · -- the chain goes on
            have hne : advances s ≠ [] := fun h => hstart (hevent.mpr h)
            rw [if_neg hstart, append_nil] at hchain
            refine ⟨by rw [hchain]; exact hs.chain, fun t₀ hb => ?_⟩
            obtain ⟨hpos, hphase⟩ := hs.started t₀ hb
            have hone : (advances t).length = 1 := by
              have hlen := hs.chain
              have hpos := length_pos_iff.mpr hne
              rw [hchain]
              omega
            rw [hout]
            refine ⟨hpos, .inr ⟨hindex, hone, ?_⟩⟩
            rw [hout, hchain]
            exact hphase.elim (fun ha => .inl (ha.single hne)) fun hc => hc.first
        | incoming =>
          refine (post_startMultisuperframe_incoming { s with sim }
            (by rw [hnow]; exact hevent)).imp fun t ht => ?_
          obtain ⟨hindex, hout, hsim⟩ := ht
          have hadv : advances t = advances s := by
            unfold advances
            rw [hsim]
            exact hadvances
          have hres : restarts t = restarts s := by
            unfold restarts
            rw [hsim]
            exact hpart isRestart rfl
          refine ⟨by rw [hadv]; exact hs.chain, fun t₀ hb => ?_⟩
          obtain ⟨hpos, hphase⟩ := hs.started t₀ hb
          rw [hout]
          refine ⟨hpos, hphase.imp (fun ha => ?_) fun hc => ?_⟩
          · exact ⟨by rw [hres]; exact ha.restart, by rw [hadv, hout]; exact ha.single⟩
          · exact ⟨hindex, by rw [hadv]; exact hc.chain, by rw [hadv, hout]; exact hc.first⟩
      | _ =>
        rw [he] at hcounting
        cases hcounting
    · refine (post_fire s sim n e htake).imp fun t ht => ?_
      exact inv_of_sameStructure (sameStructure_of_keeps ht
        fun hmem => hcounting (MacEvent.of_mem_footprint hmem)) hs

/-- A steady step keeps the invariant. -/
theorem inv_step (b : Option ℤ) (s : Mac) (i : Input) (hs : Inv b s) (henabled : s.enabled i = true)
    (hi : Steady s i) : Post (step s i) fun t => Inv (record b s i t) t := by
  obtain ⟨a, answers⟩ := i
  have hs' : Inv b { s with phy := answers } :=
    inv_of_sameStructure (s := s) ⟨rfl, rfl, rfl, rfl, rfl⟩ hs
  unfold step
  cases a with
  | fire n =>
    refine inv_fire b { s with phy := answers } n (fun e he x hx => ?_) (fun e he => ?_) hs'
    · obtain ⟨e', hmem, rfl⟩ := mem_map.mp hx
      unfold enabled at henabled
      dsimp only at henabled he
      rw [he] at henabled
      exact of_decide_eq_true (all_eq_true.mp henabled e' hmem)
    · unfold Steady at hi
      dsimp only at hi he
      rw [he] at hi
      exact hi
  | mlmeStartRequest params pageOk channelOk =>
    exact post_of_forall fun t ht =>
      (inv_mlmeStartRequest b { s with phy := answers } params pageOk channelOk answers t hi
        hs').of_eq_ok ht
  | pdDataIndication p fcsOk =>
    exact (sameStructure_pdDataIndication _ p fcsOk).imp fun t ht => inv_of_sameStructure ht hs'
  | resizeScheduleGTSsEvent bcnOrder multisfrmOrd sfrmOrd =>
    show Post (resizeScheduleGTSsEvent _ _ _ _) (Inv b)
    unfold resizeScheduleGTSsEvent
    refine post_bind fun m _ => ?_
    refine post_bind fun n _ => ?_
    exact inv_of_sameStructure (s := s) ⟨rfl, rfl, rfl, rfl, rfl⟩ hs
  | _ =>
    refine (post_act _ _ (by simp)).imp fun t ht =>
      inv_of_sameStructure (sameStructure_of_keeps ht ?_) hs'
    simp [Action.footprint]

/-- A test for events that do no harm; no multi-superframe of another coordinator passes it. -/
def steadyEventTest (s : Mac) (e : Scheduled) : Bool :=
  match e.event with
  | .startSuperframe => s.out.multiSuperframeDuration == s.out.superframeDuration
      && s.out.numOfSuperframes / s.out.numOfMultisuperframes == 1
  | .startMultisuperframe .outgoing =>
    decide (e.time ≤ symbols s.out.superframeDuration) == (advances s).isEmpty
  | .startMultisuperframe .incoming => false
  | _ => true

theorem steadyEvent_of_test (e : Scheduled) (h : steadyEventTest s e = true) :
    SteadyEvent s e := by
  unfold steadyEventTest at h
  unfold SteadyEvent
  split
  · rename_i hevent
    simpa [hevent] using h
  · rename_i hevent
    rw [hevent] at h
    dsimp only at h
    rw [← List.isEmpty_iff, ← eq_of_beq h, decide_eq_true_iff]
  · rename_i hevent
    rw [hevent] at h
    cases h
  · trivial

/-- A test for steady steps, the starts of a PAN among them only as long as no chain is
pending. -/
def steadyTest (s : Mac) (i : Input) : Bool :=
  match i.action with
  | .mlmeStartRequest _ _ _ => (advances s).isEmpty
  | .fire n => (s.sim.pending[n]?).all (steadyEventTest s)
  | _ => true

theorem steady_of_steadyTest (i : Input) (h : steadyTest s i = true) :
    Steady s i := by
  unfold steadyTest at h
  unfold Steady
  split
  · rename_i haction
    rw [haction] at h
    exact fun _ hne => absurd (isEmpty_iff.mp h) hne
  · rename_i n haction
    rw [haction] at h
    split
    · rename_i e he
      dsimp only at h
      rw [he] at h
      exact steadyEvent_of_test s e h
    · trivial
  · trivial

/-- A PAN coordinator that is not started yet. -/
def panCoordinator : Mac where
  cfg := { shortAddress := 1, macDSMEenabled := true }

/-- The request for a beacon interval of two superframes. -/
def startRequest (multiSuperframeOrder : Fin 16) : MlmeStartRequestParams where
  panId := 7
  bcnOrd := 1
  sfrmOrd := 0
  panCoor := true
  dsmeSuperframeSpec := { multiSuperframeOrder }
  bcnBitmap := { sdIndex := 0, sdBitmapLen := 1, sdBitmap := [1] }

/-- MLME-START one symbol after the start of the simulation, the first multi-superframe, and
the beacon. -/
def beginsFirst (multiSuperframeOrder : Fin 16) : List Input :=
  [⟨.tick 16000, {}⟩, ⟨.mlmeStartRequest (startRequest multiSuperframeOrder) true true, {}⟩,
    ⟨.fire 0, {}⟩, ⟨.fire 0, {}⟩]

/-- The superframe counters have handled all that is due. -/
def settled (s : Mac) : Bool :=
  (s.sim.eventsOf MacEvent.isCounting).all fun x => s.sim.now < x.2

end Ns3Dsme.SuperframeIndex
