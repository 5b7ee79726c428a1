/-
# The advertised beacon slot

A coordinator advertises its own superframe index and the slots it knows to be taken in
the DSME PAN descriptor of its enhanced beacons.  The bitmap object it advertises is also
the one into which it merges the bitmaps of its neighbours, and merging takes over the
superframe index of the neighbour.  So the descriptor names the own slot in all runs in
which no descriptor with another superframe index is merged.
-/
import Ns3Dsme.LrWpan.Footprint

open Program Program.Views

namespace Ns3Dsme.AdvertisedSlot

open Output Mac

/-! ## What a beacon advertises -/

/-- The beacon bitmap in the PAN descriptor of a beacon. -/
def beaconBitmap (p : Packet) : Option BeaconBitmap :=
  match p.body with
  | .beacon _ (some ie) _ => some ie.beaconBitmap
  | _ => none

/-- If the beacon carries a PAN descriptor, it names the own superframe index and marks its
slot as taken. -/
def AdvertisesOwnSlot (p : Packet) (macSDindex : ℕ) : Prop :=
  ∀ b, beaconBitmap p = some b → b.sdIndex = macSDindex ∧ b.hasBit macSDindex = true

/-- The bitmap that the next beacon will advertise is right. -/
def OwnsSlot (s : Mac) : Prop :=
  s.adv.macSDBitmap.sdIndex = s.adv.macSDindex
    ∧ s.adv.macSDBitmap.hasBit s.adv.macSDindex = true

/-- All beacons so far were right, and so will be the next one. -/
structure Inv (s : Mac) : Prop where
  ownsSlot : OwnsSlot s
  sent : ∀ p n, enhancedBeacon p n ∈ s.trace → AdvertisesOwnSlot p n

/-- The bitmap that MLME-START hands to a PAN coordinator marks the slot of its own superframe
index, and a descriptor that is merged comes with the own superframe index. -/
def Undisturbed (s : Mac) (i : Input) : Prop :=
  match i.action with
  | .mlmeStartRequest params true true =>
    s.role.panCoor = true ∨ params.panCoor = true →
      params.bcnBitmap.hasBit params.bcnBitmap.sdIndex = true
  | .pdDataIndication p true =>
    s.acceptFrame p = true → p.hdr.isBeacon = true → s.readsDescriptor p = true →
      ∀ b, beaconBitmap p = some b → b.sdIndex = s.adv.macSDindex
  | _ => True

/-! ## What the views tell -/

variable {touched : List View} (s : Mac) (params : MlmeStartRequestParams) (p : Packet)

theorem ownsSlot_of_keeps {s t : Mac} (h : views.Keeps touched s t)
    (htouched : View.ownSlot ∉ touched) (hs : OwnsSlot s) : OwnsSlot t := by
  obtain ⟨hindex, hbitmap⟩ := h .ownSlot htouched
  unfold OwnsSlot
  rw [hindex, hbitmap]
  exact hs

theorem mem_trace_of_keeps {s t : Mac} (h : views.Keeps touched s t)
    (htouched : View.beacons ∉ touched) (p : Packet) (n : ℕ) :
    enhancedBeacon p n ∈ t.trace ↔ enhancedBeacon p n ∈ s.trace := by
  have hbeacons : t.trace.filter isBeacon = s.trace.filter isBeacon :=
    h .beacons htouched
  have hmem (os : List Output) :
      enhancedBeacon p n ∈ os ↔ enhancedBeacon p n ∈ os.filter isBeacon := by
    rw [List.mem_filter]
    exact ⟨fun hos => ⟨hos, rfl⟩, fun hos => hos.1⟩
  rw [hmem t.trace, hmem s.trace, hbeacons]

theorem inv_of_keeps {s t : Mac} (h : views.Keeps touched s t) (hown : View.ownSlot ∉ touched)
    (hbeacons : View.beacons ∉ touched) (hs : Inv s) : Inv t :=
  ⟨ownsSlot_of_keeps h hown hs.ownsSlot,
    fun p n hp => hs.sent p n ((mem_trace_of_keeps h hbeacons p n).mp hp)⟩

/-! ## Sending a beacon -/

/-- The descriptor of the next beacon carries the bitmap as it is. -/
theorem beaconBitmap_beaconPacket (seqNum : BitVec 8) (b : BeaconBitmap)
    (h : beaconBitmap (s.beaconPacket seqNum) = some b) : b = s.adv.macSDBitmap := by
  unfold beaconBitmap beaconPacket beaconDescriptor at h
  dsimp only at h
  by_cases henhanced : (s.cfg.macDSMEenabled && s.csma.isSlotted) = true
  · rw [if_pos henhanced] at h
    exact (Option.some.inj h).symm
  · rw [if_neg henhanced] at h
    cases h

theorem inv_sendOneEnhancedBeacon (hs : Inv s) : Post s.sendOneEnhancedBeacon Inv := by
  unfold sendOneEnhancedBeacon
  split
  · trivial
  · split
    · trivial
    · split
      · exact hs
      · refine (touches_startBeaconPeriod _).post.bind fun t ht => ?_
        have hown : OwnsSlot t := ownsSlot_of_keeps ht (by simp) hs.ownsSlot
        have hindex : t.adv.macSDindex = s.adv.macSDindex := (ht .ownSlot (by simp)).1
        refine (touches_plmeSetTRXStateRequest _).post.imp fun u hu => ?_
        refine ⟨ownsSlot_of_keeps hu (by simp) hown, fun p n hp => ?_⟩
        have hmem := (mem_trace_of_keeps hu (by simp) p n).mp hp
        rcases List.mem_append.mp hmem with hmem | hmem
        · exact hs.sent p n ((mem_trace_of_keeps ht (by simp) p n).mp hmem)
        · obtain ⟨rfl, rfl⟩ := enhancedBeacon.inj (List.mem_singleton.mp hmem)
          intro b hb
          rw [beaconBitmap_beaconPacket _ _ _ hb]
          show s.adv.macSDBitmap.sdIndex = t.adv.macSDindex
            ∧ s.adv.macSDBitmap.hasBit t.adv.macSDindex = true
          rw [hindex]
          exact hs.ownsSlot

/-! ## Starting a PAN -/

/-- `EndStartRequest` in DSME mode makes the slot of the bitmap the own slot. -/
theorem ownsSlot_startDsme (spec : DsmeSuperFrameField) (bcnBitmap : BeaconBitmap)
    (hbit : bcnBitmap.hasBit bcnBitmap.sdIndex = true) :
    Post (s.startDsme params spec bcnBitmap) OwnsSlot := by
  unfold startDsme
  refine post_bind fun field _ => ?_
  refine post_bind fun m _ => ?_
  refine post_bind fun n _ => ?_
  exact ⟨rfl, hbit⟩

/-- A coordinator that is not the PAN coordinator adds its slot to the bitmap of its parent. -/
theorem hasBit_ownBcnBitmap (parent : BeaconBitmap) (n : ℕ) :
    Post (ownBcnBitmap parent n) fun b => b.hasBit b.sdIndex = true := by
  unfold ownBcnBitmap
  refine post_bind fun b hb => ?_
  exact BeaconBitmap.hasBit_setSDBitmapBit parent b n hb

theorem ownsSlot_startDsmeFrom (desc : Option PanDescriptor)
    (hbit : desc = none → params.bcnBitmap.hasBit params.bcnBitmap.sdIndex = true)
    (hs : OwnsSlot s ∨ s.cfg.macDSMEenabled = true) :
    Post (s.startDsmeFrom params desc) OwnsSlot := by
  unfold startDsmeFrom
  split
  · split
    · exact ownsSlot_startDsme s params _ _ (hbit rfl)
    · refine (hasBit_ownBcnBitmap _ _).bind fun b hb => ?_
      exact ownsSlot_startDsme s params _ b hb
  · rename_i hdsme
    exact hs.resolve_right hdsme

theorem ownsSlot_startPan (bcnOrd : ℕ) (desc : Option PanDescriptor)
    (hbit : desc = none → params.bcnBitmap.hasBit params.bcnBitmap.sdIndex = true)
    (hs : OwnsSlot s ∨ (s.cfg.macDSMEenabled = true ∧ bcnOrd ≠ 15)) :
    Post (s.startPan params bcnOrd desc) OwnsSlot := by
  unfold startPan
  dsimp only
  split
  · rename_i h15
    have hown : OwnsSlot s := hs.resolve_right fun h => h.2 h15
    exact (touches_startNonBeacon _).post.imp fun t ht => ownsSlot_of_keeps ht (by simp) hown
  · unfold startBeacon
    refine (ownsSlot_startDsmeFrom _ params desc hbit ?_).bind ?_
    · exact hs.imp id And.left
    · intro t ht
      refine (touches_resizeSAB t).post.bind fun u hu => ?_
      have hown : OwnsSlot u := ownsSlot_of_keeps hu (by simp) ht
      split
      · refine (touches_scheduleGtsInMac _ _).post.imp fun v hv => ?_
        exact ownsSlot_of_keeps hv (by simp)
          (ownsSlot_of_keeps (keeps_startBeacons u) (by simp) hown)
      · exact hown

/-- The beacon order that `EndStartRequest` takes is below 15, so that the PAN has beacons. -/
def HasBeacons (s : Mac) (params : MlmeStartRequestParams) : Prop :=
  if s.role.panCoor = true ∨ params.panCoor = true then params.bcnOrd ≠ 15
  else ∀ d, s.cfg.panDescriptorList[s.cfg.descIdxOfAssociatedPan]? = some d →
    (d.superframeSpec.bcnOrder : ℕ) ≠ 15

theorem ownsSlot_endStartRequest (hbit : s.role.panCoor = true ∨ params.panCoor = true →
      params.bcnBitmap.hasBit params.bcnBitmap.sdIndex = true)
    (hs : OwnsSlot s ∨ (s.cfg.macDSMEenabled = true ∧ HasBeacons s params)) :
    Post (s.endStartRequest params) OwnsSlot := by
  unfold HasBeacons at hs
  unfold endStartRequest
  dsimp only
  have hrole : (s.takeRole params).role.panCoor = true
      ↔ s.role.panCoor = true ∨ params.panCoor = true := by
    simp [takeRole]
  split
  · trivial
  · split
    · rename_i hpan
      rw [if_pos (hrole.mp hpan)] at hs
      exact ownsSlot_startPan _ params _ none (fun _ => hbit (hrole.mp hpan)) hs
    · rename_i hpan
      rw [if_neg fun h => hpan (hrole.mpr h)] at hs
      split
      · trivial
      · rename_i d hd
        exact ownsSlot_startPan _ params _ (some d) nofun
          (hs.imp id fun h => ⟨h.1, h.2 d hd⟩)

/-- MLME-START keeps the own slot advertised, and a start of a PAN with beacons makes it so. -/
theorem ownsSlot_mlmeStartRequest (pageOk channelOk : Bool)
    (hbit : pageOk = true → channelOk = true → s.role.panCoor = true ∨ params.panCoor = true →
      params.bcnBitmap.hasBit params.bcnBitmap.sdIndex = true)
    (hs : OwnsSlot s ∨ (pageOk = true ∧ channelOk = true ∧ s.cfg.macDSMEenabled = true
      ∧ HasBeacons s params)) :
    Post (s.mlmeStartRequest params pageOk channelOk) OwnsSlot := by
  unfold mlmeStartRequest
  refine (touches_plmeSetAttributeRequest s).post.bind fun t ht => ?_
  split
  · rename_i hpage
    refine (touches_plmeSetAttributeRequest t).post.bind fun u hu => ?_
    have hkeeps : views.Keeps [] s u := ht.trans hu
    split
    · rename_i hchannel
      have hpan : u.role.panCoor = s.role.panCoor := hkeeps .panCoor (by simp)
      have hcfg : u.cfg = s.cfg := hkeeps .config (by simp)
      refine ownsSlot_endStartRequest u params ?_ ?_
      · rw [hpan]
        exact hbit hpage hchannel
      · unfold HasBeacons at hs ⊢
        rw [hpan, hcfg]
        exact hs.imp (ownsSlot_of_keeps hkeeps (by simp)) fun h => h.2.2
    · rename_i hchannel
      exact ownsSlot_of_keeps hkeeps (by simp) (hs.resolve_right fun h => hchannel h.2.1)
  · rename_i hpage
    refine ownsSlot_of_keeps (ht.trans (keeps_confirmStart t false)) (by simp) ?_
    exact hs.resolve_right fun h => hpage h.1

/-! ## Hearing a beacon -/

/-- Merging a descriptor with the own superframe index leaves the own slot advertised. -/
theorem ownsSlot_receiveDescriptor (d : DsmePANDescriptorIE)
    (hindex : d.beaconBitmap.sdIndex = s.adv.macSDindex) (hs : OwnsSlot s) :
    OwnsSlot (s.receiveDescriptor p d) :=
  ⟨hindex, BeaconBitmap.hasBit_merge _ _ _ hs.2⟩

theorem ownsSlot_readBeacon (spec : SuperframeField) (ie : Option DsmePANDescriptorIE) (n : ℕ)
    (hbody : p.body = .beacon spec ie n)
    (hindex : s.readsDescriptor p = true →
      ∀ b, beaconBitmap p = some b → b.sdIndex = s.adv.macSDindex) (hs : OwnsSlot s) :
    Post (s.readBeacon p spec ie) fun r => OwnsSlot r.1 := by
  unfold readBeacon
  split
  · rename_i hreads
    split
    · rename_i d
      refine ownsSlot_receiveDescriptor s p d (hindex hreads d.beaconBitmap ?_) hs
      rw [beaconBitmap, hbody]
    · trivial
  · exact hs

theorem ownsSlot_receiveBeacon (hindex : s.readsDescriptor p = true →
      ∀ b, beaconBitmap p = some b → b.sdIndex = s.adv.macSDindex) (hs : OwnsSlot s) :
    Post (s.receiveBeacon p) fun r => OwnsSlot r.1 := by
  unfold receiveBeacon
  split
  · rename_i spec ie sduLength hbody
    refine (wp_bind _ _ _ _).mpr
      ((ownsSlot_readBeacon (s.noteBeacon p) p spec ie sduLength hbody hindex hs).imp ?_)
    rintro ⟨t, spec', beaconTimeStamp⟩ ht
    dsimp only at ht ⊢
    have hnotify (u : Mac) (hu : OwnsSlot u) : OwnsSlot (u.notifyBeacon p sduLength) :=
      ownsSlot_of_keeps (keeps_notifyBeacon u p sduLength) (by simp) hu
    split
    · apply wp_of_bind
      refine (touches_receiveOwnPanBeacon t p spec' beaconTimeStamp).post.imp fun u hu => ?_
      exact hnotify u (ownsSlot_of_keeps hu (by simp) ht)
    · split
      · exact ht
      · exact hnotify t ht
  · trivial

theorem ownsSlot_receiveFrame (hindex : p.hdr.isBeacon = true → s.readsDescriptor p = true →
      ∀ b, beaconBitmap p = some b → b.sdIndex = s.adv.macSDindex) (hs : OwnsSlot s) :
    Post (s.receiveFrame p) OwnsSlot := by
  cases hbeacon : p.hdr.isBeacon with
  | false =>
    exact (touches_receiveFrame_of_not_beacon s p hbeacon).post.imp fun t ht =>
      ownsSlot_of_keeps ht (by simp) hs
  | true =>
    unfold receiveFrame
    refine (touches_ackRequested s p).post.bind fun t ht => ?_
    have hcfg : t.cfg = s.cfg := ht .config (by simp)
    have hsame : t.adv.macSDindex = s.adv.macSDindex := (ht .ownSlot (by simp)).1
    rw [hbeacon]
    refine (ownsSlot_receiveBeacon t p ?_ ?_).bind ?_
    · rw [hsame]
      intro hreads
      refine hindex hbeacon ?_
      rw [readsDescriptor, ← hcfg]
      exact hreads
    · exact ownsSlot_of_keeps ht (by simp) hs
    · rintro ⟨u, goOn⟩ hu
      dsimp only at hu ⊢
      split
      · exact (touches_receiveGroupAck u p).post.imp fun v hv => ownsSlot_of_keeps hv (by simp) hu
      · exact hu

theorem ownsSlot_pdDataIndication (fcsOk : Bool)
    (hindex : fcsOk = true → s.acceptFrame p = true → p.hdr.isBeacon = true →
      s.readsDescriptor p = true →
      ∀ b, beaconBitmap p = some b → b.sdIndex = s.adv.macSDindex) (hs : OwnsSlot s) :
    Post (s.pdDataIndication p fcsOk) OwnsSlot := by
  unfold pdDataIndication
  split
  · trivial
  · split
    · rename_i hfcs
      have hkeeps : views.Keeps [] s (s.acceptAllHilow p) := keeps_acceptAllHilow s p
      have hown : OwnsSlot (s.acceptAllHilow p) := ownsSlot_of_keeps hkeeps (by simp) hs
      split
      · rename_i haccept
        refine ownsSlot_receiveFrame _ p ?_ hown
        have hsame : (s.acceptAllHilow p).adv = s.adv
            ∧ (s.acceptAllHilow p).cfg = s.cfg ∧ (s.acceptAllHilow p).role = s.role := by
          unfold acceptAllHilow
          split
          · exact ⟨rfl, rfl, rfl⟩
          · exact ⟨rfl, rfl, rfl⟩
        unfold acceptFrame at haccept
        rw [hsame.2.1, hsame.2.2] at haccept
        rw [hsame.1]
        unfold readsDescriptor
        rw [hsame.2.1]
        exact hindex hfcs haccept
      · exact hown
    · exact hs

/-! ## Steps and runs -/

/-- A handler that sends no beacon keeps the invariant if it keeps the own slot. -/
theorem inv_of_ownsSlot {s : Mac} {x : Exec Mac} (hown : Post x OwnsSlot)
    (hx : Post x (views.Keeps touched s)) (hbeacons : View.beacons ∉ touched) (hs : Inv s) :
    Post x Inv :=
  (hown.and hx).mono
    (fun _ ht => ⟨ht.1, fun p n hp => hs.sent p n ((mem_trace_of_keeps ht.2 hbeacons p n).mp hp)⟩)
    fun _ _ => trivial

/-- Running a pending event keeps the invariant. -/
theorem inv_fire (i : ℕ) (hs : Inv s) : Post (s.fire i) Inv := by
  cases htake : s.sim.take i with
  | none =>
    unfold fire
    rw [htake]
    exact hs
  | some r =>
    obtain ⟨e, sim⟩ := r
    by_cases hbeacon : e.event = .sendOneEnhancedBeacon
    · unfold fire
      rw [htake]
      dsimp only
      rw [hbeacon]
      exact inv_sendOneEnhancedBeacon _ ⟨hs.ownsSlot, hs.sent⟩
    · refine (post_fire s sim i e htake).imp fun t ht =>
        inv_of_keeps ht MacEvent.of_mem_footprint ?_ hs
      exact fun hmem => hbeacon (MacEvent.of_mem_footprint hmem)

/-- An undisturbed step keeps the invariant. -/
theorem inv_step (i : Input) (hs : Inv s) (hi : Undisturbed s i) :
    Post (step s i) Inv := by
  obtain ⟨a, answers⟩ := i
  have hs' : Inv { s with phy := answers } := ⟨hs.ownsSlot, hs.sent⟩
  unfold step
  cases a with
  | fire n => exact inv_fire _ n hs'
  | mlmeStartRequest params pageOk channelOk =>
    refine inv_of_ownsSlot (ownsSlot_mlmeStartRequest _ params pageOk channelOk ?_
      (Or.inl hs'.ownsSlot)) (touches_mlmeStartRequest _ _ _ _).post (by simp) hs'
    intro hpage hchannel
    subst hpage hchannel
    exact hi
  | pdDataIndication p fcsOk =>
    refine inv_of_ownsSlot (ownsSlot_pdDataIndication _ p fcsOk ?_ hs'.ownsSlot)
      (touches_pdDataIndication _ _ _).post (by simp) hs'
    intro hfcs
    subst hfcs
    exact hi
  | _ =>
    refine (post_act _ _ (by simp)).imp fun t ht => inv_of_keeps ht ?_ ?_ hs'
    · simp [Action.footprint]
    · simp [Action.footprint]

/-- The MLME-START of a DSME PAN with beacons. -/
def StartsPan (s : Mac) (i : Input) : Prop :=
  ∃ params, i.action = .mlmeStartRequest params true true ∧ s.cfg.macDSMEenabled = true
    ∧ HasBeacons s params

/-- A test for undisturbed steps that receive nothing. -/
def receivesNothing (_ : Mac) (i : Input) : Bool :=
  match i.action with
  | .mlmeStartRequest params _ _ => params.bcnBitmap.hasBit params.bcnBitmap.sdIndex
  | .pdDataIndication _ _ => false
  | _ => true

theorem undisturbed_of_receivesNothing (i : Input) (h : receivesNothing s i = true) :
    Undisturbed s i := by
  unfold receivesNothing at h
  unfold Undisturbed
  split
  · rename_i params haction
    rw [haction] at h
    exact fun _ => h
  · rename_i p haction
    rw [haction] at h
    cases h
  · trivial

/-- A PAN coordinator that is not started yet. -/
def panCoordinator : Mac where
  cfg := { shortAddress := 1, macDSMEenabled := true }

/-- MLME-START with superframe index 0, and the two events it posts. -/
def undisturbedRun : List Input :=
  [⟨.mlmeStartRequest
      { panId := 7, bcnOrd := 6, sfrmOrd := 3, panCoor := true
        dsmeSuperframeSpec := { multiSuperframeOrder := 5 }
        bcnBitmap := { sdIndex := 0, sdBitmapLen := 1, sdBitmap := [1] } } true true, {}⟩,
    ⟨.fire 0, {}⟩, ⟨.fire 0, {}⟩]

/-- A device with address 2 that is associated with the PAN coordinator 1 and has chosen the
superframe index 1. -/
def associated : Mac where
  cfg :=
    { shortAddress := 2
      macCoordShortAddress := 1
      macDSMEenabled := true
      panDescriptorList :=
        [{ superframeSpec := { bcnOrder := 6, sprFrmOrder := 3 }
           dsmeSuperframeSpec := { multiSuperframeOrder := 5 }
           bcnBitmap := { sdIndex := 0, sdBitmapLen := 1, sdBitmap := [1] } }]
      choosedSDIndexToSendBcn := 1 }

/-- The beacon of the PAN coordinator, which has superframe index 0. -/
def parentBeacon : Packet where
  hdr :=
    { frmType := .beacon, ieListPresent := true, frmVer := 2, dstAddrMode := .shortAddr
      dstPanId := 7, shortDstAddr := 0xffff, srcAddrMode := .shortAddr, srcPanId := 7
      shortSrcAddr := 1 }
  body := .beacon {} (some
    { superframeField := { bcnOrder := 6, sprFrmOrder := 3, fnlCapSlot := 8 }
      dsmeSuperframeField := { multiSuperframeOrder := 5 }
      beaconBitmap := { sdIndex := 0, sdBitmapLen := 1, sdBitmap := [1] } }) 0
  size := 70
  uid := 100

/-- MLME-START, the beacon of the parent, and the pending events up to the own beacon. -/
def disturbedRun : List Input :=
  [⟨.mlmeStartRequest { panId := 7 } true true, {}⟩, ⟨.pdDataIndication parentBeacon true, {}⟩,
    ⟨.fire 2, {}⟩, ⟨.fire 2, {}⟩, ⟨.fire 2, {}⟩, ⟨.fire 2, {}⟩, ⟨.fire 0, {}⟩, ⟨.fire 0, {}⟩]

/-- The report is a beacon that names another superframe index than the own one. -/
def namesOtherSlot : Output → Bool
  | .enhancedBeacon p n => (beaconBitmap p).any fun b => b.sdIndex ≠ n
  | _ => false

end Ns3Dsme.AdvertisedSlot
