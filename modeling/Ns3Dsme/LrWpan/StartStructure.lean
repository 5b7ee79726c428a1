/-
# The superframe structure of a started PAN

`EndStartRequest` derives the sizes of the tables from the beacon order, the superframe order and
the multi-superframe order of the request, or of the PAN the device is associated with.  It does
not check the orders, and cuts the size of one bitmap to 8 bits.
-/
import Ns3Dsme.LrWpan.Footprint
import Mathlib.Algebra.Order.Group.Nat

open Program

namespace Ns3Dsme

/-- The orders a start request works with, and the CAP reduction flag. -/
structure StartOrders where
  bcnOrd : ℕ
  sfrmOrd : ℕ
  multisfrmOrd : ℕ
  capReduction : Bool
  deriving DecidableEq

/-- The orders of the request, or of the PAN the device is associated with. -/
def MlmeStartRequestParams.orders (params : MlmeStartRequestParams) :
    Option PanDescriptor → StartOrders
  | none => {
      bcnOrd := params.bcnOrd
      sfrmOrd := params.sfrmOrd
      multisfrmOrd := params.dsmeSuperframeSpec.multiSuperframeOrder
      capReduction := params.dsmeSuperframeSpec.capReductionFlag }
  | some d => {
      bcnOrd := d.superframeSpec.bcnOrder
      sfrmOrd := d.superframeSpec.sprFrmOrder
      multisfrmOrd := d.dsmeSuperframeSpec.multiSuperframeOrder
      capReduction := d.dsmeSuperframeSpec.capReductionFlag }

namespace Mac

/-- The orders that `EndStartRequest` takes in a state: a device that is a PAN coordinator takes
those of the request. -/
def startOrders (s : Mac) (params : MlmeStartRequestParams) : Option StartOrders :=
  if (s.takeRole params).role.panCoor then some (params.orders none)
  else s.cfg.panDescriptorList[s.cfg.descIdxOfAssociatedPan]?.map fun d => params.orders (some d)

/-- The entries of the slot allocation bitmap that is in use. -/
def sabEntries (s : Mac) : ℕ :=
  if s.out.macCAPReductionFlag then s.out.macDSMESAB.length else s.out.macDSMESABCapOff.length

/-- **The superframe structure agrees with the orders.** -/
structure StartStructure (s : Mac) : Prop where
  ordered : s.out.macSuperframeOrder ≤ s.out.macBeaconOrder
  superframes : s.out.numOfSuperframes = 2 ^ (s.out.macBeaconOrder - s.out.macSuperframeOrder)
  sab : s.sabEntries = 2 ^ (s.out.macBeaconOrder - s.out.macSuperframeOrder)
  /-- There is a list for each superframe of a multi-superframe. -/
  gtsLists : s.gts.scheduleGTSsEventSize * s.out.superframeDuration
    = s.out.multiSuperframeDuration
  beaconInterval : s.out.beaconInterval
    = 2 ^ (s.out.macBeaconOrder - s.out.macSuperframeOrder) * s.out.superframeDuration
  durations : 0 < s.out.superframeDuration ∧ 0 < s.gts.scheduleGTSsEventSize

/-- The CAP reduction flag after a start with beacons: without DSME it stays as it was. -/
def startCapReduction (s : Mac) (o : StartOrders) : Bool :=
  if s.cfg.macDSMEenabled then o.capReduction else s.out.macCAPReductionFlag

/-- The orders fit together: SO ≤ BO, with DSME SO ≤ MO ≤ BO, and without CAP reduction fewer
than 256 superframes. -/
structure OrdersFit (s : Mac) (o : StartOrders) : Prop where
  superframe : o.sfrmOrd ≤ o.bcnOrd
  multi : s.cfg.macDSMEenabled = true → o.sfrmOrd ≤ o.multisfrmOrd ∧ o.multisfrmOrd ≤ o.bcnOrd
  sab : s.startCapReduction o = true ∨ o.bcnOrd - o.sfrmOrd < 8

/-- What a start leaves by design: without beacons no structure, without DSME no superframe
counts. -/
structure StartedAs (o : StartOrders) (s t : Mac) : Prop where
  nonBeacon : o.bcnOrd = 15 →
    t.out.beaconInterval = 0 ∧ t.out.numOfSuperframes = s.out.numOfSuperframes
  sab : o.bcnOrd ≠ 15 → t.sabEntries = 2 ^ (o.bcnOrd - o.sfrmOrd)
  beaconInterval : o.bcnOrd ≠ 15 →
    t.out.beaconInterval = 2 ^ (o.bcnOrd - o.sfrmOrd) * t.out.superframeDuration
  superframes : o.bcnOrd ≠ 15 → s.cfg.macDSMEenabled = true →
    t.out.numOfSuperframes = 2 ^ (o.bcnOrd - o.sfrmOrd)
  gtsLists : o.bcnOrd ≠ 15 → s.cfg.macDSMEenabled = true →
    t.gts.scheduleGTSsEventSize * t.out.superframeDuration = t.out.multiSuperframeDuration ∧
      1 ≤ t.gts.scheduleGTSsEventSize

/-! ## What is computed -/

/-- The sizes that depend on the orders, as far as they have been computed. -/
structure Sized (o : StartOrders) (s t : Mac) : Prop where
  cfg : t.cfg = s.cfg
  macBeaconOrder : t.out.macBeaconOrder = o.bcnOrd
  macSuperframeOrder : t.out.macSuperframeOrder = o.sfrmOrd
  beaconInterval : t.out.beaconInterval = 2 ^ o.bcnOrd * aBaseSuperframeDuration
  superframeDuration : t.out.superframeDuration = 2 ^ o.sfrmOrd * aBaseSuperframeDuration
  capReduction : t.out.macCAPReductionFlag = s.startCapReduction o
  dsme : s.cfg.macDSMEenabled = true → o.multisfrmOrd ≤ o.bcnOrd ∧
    t.out.numOfSuperframes = 2 ^ (o.bcnOrd - o.sfrmOrd) ∧
    t.out.multiSuperframeDuration = 2 ^ o.multisfrmOrd * aBaseSuperframeDuration ∧
    t.gts.scheduleGTSsEventSize
      = 2 ^ (o.bcnOrd - o.sfrmOrd) / 2 ^ (o.bcnOrd - o.multisfrmOrd)

/-- The shifts of the computation are defined for the orders. -/
def ShiftsDefined (s : Mac) (o : StartOrders) : Prop :=
  o.sfrmOrd ≤ o.bcnOrd ∧ (s.cfg.macDSMEenabled = true → o.multisfrmOrd ≤ o.bcnOrd)

/-- A shift is undefined only for orders that do not allow it, and nothing is divided by zero. -/
def Refused (s : Mac) (o : StartOrders) (e : Fault) : Prop :=
  (e = .undefinedShift → ¬ s.ShiftsDefined o) ∧ e ≠ .divByZero

theorem refused_fatalError (s : Mac) (o : StartOrders) : s.Refused o .fatalError := by
  constructor
  · rintro ⟨⟩
  · rintro ⟨⟩

theorem wp_shiftDifference_eq (m n : ℕ) (E : Fault → Prop) (hE : ¬ n ≤ m → E .undefinedShift) :
    Wp (shiftDifference m n) (fun k => n ≤ m ∧ k = 2 ^ (m - n)) E := by
  unfold shiftDifference
  split
  · rename_i hle
    exact ⟨hle, rfl⟩
  · rename_i hlt
    exact hE hlt

theorem wp_superframeField_set_fatal (bcnOrder frmOrder capSlot : ℕ)
    (battLifeExt panCoor assocPermit : Bool) :
    Wp (SuperframeField.set bcnOrder frmOrder capSlot battLifeExt panCoor assocPermit)
      (fun _ => True) (fun e => e = .fatalError) := by
  unfold SuperframeField.set
  split
  · split
    · split
      · trivial
      · rfl
    · rfl
  · rfl

theorem wp_ownBcnBitmap_outOfRange (parent : BeaconBitmap) (n : ℕ) :
    Wp (ownBcnBitmap parent n) (fun _ => True) (fun e => e = .outOfRange) := by
  unfold ownBcnBitmap BeaconBitmap.setSDBitmapBit
  split
  · trivial
  · rfl

section

variable {o : StartOrders} {s t : Mac}

variable (params : MlmeStartRequestParams)

/-- The DSME part, for a specification with the given orders. -/
theorem wp_startDsme (spec : DsmeSuperFrameField) (bcnBitmap : BeaconBitmap)
    (hdsme : s.cfg.macDSMEenabled = true)
    (hmulti : (spec.multiSuperframeOrder : ℕ) = o.multisfrmOrd)
    (hcap : spec.capReductionFlag = o.capReduction) (hcfg : t.cfg = s.cfg)
    (hbcn : t.out.macBeaconOrder = o.bcnOrd) (hsfrm : t.out.macSuperframeOrder = o.sfrmOrd)
    (hinterval : t.out.beaconInterval = 2 ^ o.bcnOrd * aBaseSuperframeDuration)
    (hduration : t.out.superframeDuration = 2 ^ o.sfrmOrd * aBaseSuperframeDuration) :
    Wp (t.startDsme params spec bcnBitmap) (Sized o s) (s.Refused o) := by
  have hundefined (hnot : ¬ s.ShiftsDefined o) : s.Refused o .undefinedShift :=
    ⟨fun _ => hnot, nofun⟩
  unfold startDsme
  refine (wp_bind _ _ _ _).mpr ((wp_superframeField_set_fatal _ _ _ _ _ _).mono
    (fun field _ => ?_) fun e he => ?_)
  · rw [hbcn, hsfrm, hmulti]
    refine (wp_shiftDifference_eq _ _ _ fun hlt => hundefined fun h =>
      hlt (h.2 hdsme)).bind fun m hm => ?_
    refine (wp_shiftDifference_eq _ _ _ fun hlt => hundefined fun h =>
      hlt h.1).bind fun n hn => ?_
    obtain ⟨hle, rfl⟩ := hm
    obtain ⟨-, rfl⟩ := hn
    refine ⟨hcfg, hbcn, hsfrm, hinterval, hduration, ?_, fun _ => ⟨hle, rfl, rfl, rfl⟩⟩
    unfold startCapReduction
    rw [if_pos hdsme]
    exact hcap
  · rw [he]
    exact refused_fatalError s o

/-- The DSME part, if DSME is enabled. -/
theorem wp_startDsmeFrom (desc : Option PanDescriptor) (ho : params.orders desc = o)
    (hcfg : t.cfg = s.cfg) (hcap : t.out.macCAPReductionFlag = s.out.macCAPReductionFlag)
    (hbcn : t.out.macBeaconOrder = o.bcnOrd) (hsfrm : t.out.macSuperframeOrder = o.sfrmOrd)
    (hinterval : t.out.beaconInterval = 2 ^ o.bcnOrd * aBaseSuperframeDuration)
    (hduration : t.out.superframeDuration = 2 ^ o.sfrmOrd * aBaseSuperframeDuration) :
    Wp (t.startDsmeFrom params desc) (Sized o s) (s.Refused o) := by
  subst ho
  unfold startDsmeFrom
  rw [hcfg]
  split
  · rename_i hdsme
    cases desc with
    | none =>
      exact wp_startDsme params _ _ hdsme rfl rfl hcfg hbcn hsfrm hinterval hduration
    | some d =>
      dsimp only
      refine (wp_bind _ _ _ _).mpr (Wp.mono (wp_ownBcnBitmap_outOfRange _ _) (fun b _ => ?_)
        fun e he => ?_)
      · exact wp_startDsme params _ b hdsme rfl rfl hcfg hbcn hsfrm hinterval hduration
      · rw [he]
        exact ⟨by rintro ⟨⟩, by rintro ⟨⟩⟩
  · rename_i hdsme
    refine ⟨hcfg, hbcn, hsfrm, hinterval, hduration, ?_, fun h => absurd h hdsme⟩
    unfold startCapReduction
    rw [if_neg hdsme]
    exact hcap

/-- `std::vector::resize` makes the vector as long as it is told. -/
theorem length_resizeWords {w : ℕ} (words : List (BitVec w)) (n : ℕ) :
    (resizeWords words n).length = n := by
  unfold resizeWords
  rw [List.length_append, List.length_take, List.length_replicate]
  omega

/-- The bitmap in use gets as many entries as its size has bits for. -/
theorem wp_resizeSAB (h : Sized o s t) :
    Wp t.resizeSAB (fun u => Sized o s u ∧ o.sfrmOrd ≤ o.bcnOrd ∧
        u.sabEntries = 2 ^ (o.bcnOrd - o.sfrmOrd) % 2 ^ (if s.startCapReduction o then 16 else 8))
      (s.Refused o) := by
  unfold resizeSAB
  rw [h.macBeaconOrder, h.macSuperframeOrder]
  refine (wp_shiftDifference_eq _ _ _ fun hlt =>
    ⟨fun _ hdefined => hlt hdefined.1, nofun⟩).bind fun n hn => ?_
  obtain ⟨hle, rfl⟩ := hn
  refine ⟨{ h with }, hle, ?_⟩
  rw [← h.capReduction]
  unfold sabEntries
  dsimp only
  by_cases hcap : t.out.macCAPReductionFlag = true
  · rw [if_pos hcap, if_pos hcap, if_pos hcap, length_resizeWords]
  · rw [if_neg hcap, if_neg hcap, if_neg hcap, length_resizeWords]

/-- Nothing that the structure looks at has changed. -/
def SameSizes (s t : Mac) : Prop :=
  t.cfg = s.cfg ∧ t.out = s.out ∧ t.gts.scheduleGTSsEventSize = s.gts.scheduleGTSsEventSize

theorem wp_scheduleEntry_sizes (s t : Mac) (pos : ℕ × ℕ) (h : SameSizes s t) :
    Wp (t.scheduleEntry pos) (SameSizes s) fun e => e ≠ .undefinedShift ∧ e ≠ .divByZero := by
  unfold scheduleEntry
  split
  · exact h
  · split
    · exact h
    · unfold Mac.schedule
      split
      · exact ⟨by rintro ⟨⟩, by rintro ⟨⟩⟩
      · apply wp_of_bind
        split
        · exact h
        · exact ⟨by rintro ⟨⟩, by rintro ⟨⟩⟩

theorem wp_scheduleGtsInMac_sizes (s : Mac) (indication : Bool) :
    Wp (s.scheduleGtsInMac indication) (SameSizes s)
      fun e => e ≠ .undefinedShift ∧ e ≠ .divByZero := by
  unfold scheduleGtsInMac scheduleGts
  split
  · exact ⟨rfl, rfl, rfl⟩
  · split
    · exact ⟨rfl, rfl, rfl⟩
    · split
      · exact ⟨rfl, rfl, rfl⟩
      · exact wp_foldlM (SameSizes s) _ scheduleEntry _
          (fun t pos _ ht => wp_scheduleEntry_sizes s t pos ht) s ⟨rfl, rfl, rfl⟩

theorem sameSizes_startBeacons (s : Mac) : SameSizes s s.startBeacons := by
  unfold startBeacons
  split
  · exact ⟨rfl, rfl, rfl⟩
  · exact ⟨rfl, rfl, rfl⟩

theorem SameSizes.trans {u : Mac} (h : SameSizes s t) (h' : SameSizes t u) : SameSizes s u :=
  ⟨h'.1.trans h.1, h'.2.1.trans h.2.1, h'.2.2.trans h.2.2⟩

/-- The sizes after a start with beacons. -/
structure Structured (o : StartOrders) (s t : Mac) : Prop where
  sized : Sized o s t
  ordered : o.sfrmOrd ≤ o.bcnOrd
  sab : t.sabEntries = 2 ^ (o.bcnOrd - o.sfrmOrd) % 2 ^ (if s.startCapReduction o then 16 else 8)

theorem Structured.of_sameSizes {u : Mac} (h : Structured o s t) (hsame : SameSizes t u) :
    Structured o s u := by
  obtain ⟨hcfg, hout, hsize⟩ := hsame
  refine ⟨⟨hcfg.trans h.sized.cfg, ?_, ?_, ?_, ?_, ?_, ?_⟩, h.ordered, ?_⟩
  · rw [hout]
    exact h.sized.macBeaconOrder
  · rw [hout]
    exact h.sized.macSuperframeOrder
  · rw [hout]
    exact h.sized.beaconInterval
  · rw [hout]
    exact h.sized.superframeDuration
  · rw [hout]
    exact h.sized.capReduction
  · rw [hout, hsize]
    exact h.sized.dsme
  · unfold sabEntries
    rw [hout]
    exact h.sab

/-- **A start with beacons**, from any state. -/
theorem wp_startBeacon (desc : Option PanDescriptor) (ho : params.orders desc = o)
    (hcfg : t.cfg = s.cfg) (hcap : t.out.macCAPReductionFlag = s.out.macCAPReductionFlag)
    (hbcn : t.out.macBeaconOrder = o.bcnOrd) :
    Wp (t.startBeacon params desc) (Structured o s) (s.Refused o) := by
  have hsfrm : (t.startSuperframeStructure params desc).out.macSuperframeOrder = o.sfrmOrd := by
    rw [← ho]
    cases desc with
    | none => rfl
    | some d => rfl
  unfold startBeacon
  refine Wp.bind (wp_startDsmeFrom params desc ho ?_ ?_ ?_ hsfrm ?_ ?_)
    fun u hu => ?_
  · exact hcfg
  · exact hcap
  · exact hbcn
  · show 2 ^ t.out.macBeaconOrder * aBaseSuperframeDuration = _
    rw [hbcn]
  · rw [← hsfrm]
    rfl
  refine (wp_resizeSAB hu).bind fun v hv => ?_
  obtain ⟨hsized, hordered, hsab⟩ := hv
  have hstructured : Structured o s v := ⟨hsized, hordered, hsab⟩
  split
  · refine (wp_scheduleGtsInMac_sizes v.startBeacons false).mono (fun w hw => ?_) fun e he => ?_
    · exact hstructured.of_sameSizes ((sameSizes_startBeacons v).trans hw)
    · exact ⟨fun h => absurd h he.1, he.2⟩
  · exact hstructured

/-! ## The arithmetic of the orders -/

/-- There are whole superframes in a multi-superframe exactly if it is no shorter than one. -/
theorem gtsLists_iff {bo mo so : ℕ} (hso : so ≤ bo) (hmo : mo ≤ bo) (base : ℕ) :
    2 ^ (bo - so) / 2 ^ (bo - mo) * (2 ^ so * base) = 2 ^ mo * base ∧
      0 < 2 ^ (bo - so) / 2 ^ (bo - mo) ↔ so ≤ mo := by
  constructor
  · rintro ⟨-, hpos⟩
    by_contra hlt
    have hless : 2 ^ (bo - so) < 2 ^ (bo - mo) := Nat.pow_lt_pow_right (by omega) (by omega)
    rw [Nat.div_eq_of_lt hless] at hpos
    exact lt_irrefl 0 hpos
  · intro hle
    have hsplit : 2 ^ (bo - so) = 2 ^ (mo - so) * 2 ^ (bo - mo) := by
      rw [← Nat.pow_add]
      congr 1
      omega
    rw [hsplit, Nat.mul_div_cancel _ (Nat.two_pow_pos _)]
    refine ⟨?_, Nat.two_pow_pos _⟩
    rw [← Nat.mul_assoc, ← Nat.pow_add]
    congr 2
    omega

/-- The size of the bitmap survives the cut to 16 or to 8 bits exactly if it fits. -/
theorem sabSize_iff {k : ℕ} (hk : k < 16) (cap : Bool) :
    2 ^ k % 2 ^ (if cap then 16 else 8) = 2 ^ k ↔ cap = true ∨ k < 8 := by
  cases cap with
  | true =>
    refine iff_of_true ?_ (Or.inl rfl)
    exact Nat.mod_eq_of_lt (Nat.pow_lt_pow_right (by omega) hk)
  | false =>
    constructor
    · intro h
      by_contra hnot
      rw [not_or, Nat.not_lt] at hnot
      have hdvd : 2 ^ 8 ∣ 2 ^ k := Nat.pow_dvd_pow 2 hnot.2
      rw [if_neg Bool.false_ne_true, Nat.mod_eq_zero_of_dvd hdvd] at h
      exact absurd h.symm (Nat.ne_of_gt (Nat.two_pow_pos k))
    · rintro (h | h)
      · cases h
      · exact Nat.mod_eq_of_lt (Nat.pow_lt_pow_right (by omega) h)

/-- The beacon interval in superframes. -/
theorem beaconInterval_eq {bo so : ℕ} (hso : so ≤ bo) (base : ℕ) :
    2 ^ bo * base = 2 ^ (bo - so) * (2 ^ so * base) := by
  rw [← Nat.mul_assoc, ← Nat.pow_add]
  congr 2
  omega

/-- Orders that fit give the structure. -/
theorem Structured.startedAs (h : Structured o s t) (hbcn : o.bcnOrd < 15) (hfit : s.OrdersFit o) :
    StartedAs o s t := by
  have hinterval : t.out.beaconInterval
      = 2 ^ (o.bcnOrd - o.sfrmOrd) * t.out.superframeDuration := by
    rw [h.sized.beaconInterval, h.sized.superframeDuration]
    exact beaconInterval_eq h.ordered _
  refine ⟨fun heq => absurd heq (Nat.ne_of_lt hbcn), fun _ => ?_, fun _ => hinterval,
    fun _ hdsme => (h.sized.dsme hdsme).2.1, fun _ hdsme => ?_⟩
  · rw [h.sab]
    exact (sabSize_iff (by omega) _).mpr hfit.sab
  · obtain ⟨hmo, -, hmulti, hlists⟩ := h.sized.dsme hdsme
    rw [hlists, hmulti, h.sized.superframeDuration]
    exact (gtsLists_iff h.ordered hmo aBaseSuperframeDuration).mpr (hfit.multi hdsme).1

/-! ## The whole request -/

/-- A start is refused, or made with the orders of the state. -/
theorem endStartRequest_eq (ho : s.startOrders params = some o) :
    ∃ desc, params.orders desc = o ∧ s.endStartRequest params =
      if params.panId = 0xffff then .error .assertFailed
      else (s.takeRole params).startPan params o.bcnOrd desc := by
  unfold startOrders at ho
  unfold endStartRequest
  dsimp only
  by_cases hpan : (s.takeRole params).role.panCoor = true
  · rw [if_pos hpan] at ho ⊢
    cases ho
    exact ⟨none, rfl, rfl⟩
  · rw [if_neg hpan] at ho ⊢
    cases hdesc : s.cfg.panDescriptorList[s.cfg.descIdxOfAssociatedPan]? with
    | none =>
      rw [hdesc] at ho
      cases ho
    | some d =>
      rw [hdesc] at ho
      cases ho
      have hdesc' : (s.takeRole params).cfg.panDescriptorList[
          (s.takeRole params).cfg.descIdxOfAssociatedPan]? = some d := hdesc
      refine ⟨some d, rfl, ?_⟩
      rw [hdesc']
      rfl

/-- A start without beacons. -/
theorem post_startNonBeacon (s : Mac) : Post s.startNonBeacon fun t =>
    t.out.beaconInterval = 0 ∧ t.out.numOfSuperframes = s.out.numOfSuperframes := by
  unfold startNonBeacon
  refine ((touches_plmeSetTRXStateRequest _).post).imp fun t ht => ?_
  have hslots := (ht .timeline (by simp)).1
  have hsuperframes := (ht .counting (by simp)).1
  have hconfirm (u : Mac) : (u.confirmStart true).out = u.out := by
    unfold confirmStart
    split
    · rfl
    · rfl
  refine ⟨(congrArg Slots.beaconInterval hslots).trans ?_,
    (congrArg Superframes.numOfSuperframes hsuperframes).trans ?_⟩
  · exact (congrArg Outgoing.beaconInterval (hconfirm _)).trans rfl
  · exact (congrArg Outgoing.numOfSuperframes (hconfirm _)).trans rfl

/-- **A start from any state**, with beacons. -/
theorem wp_endStartRequest (ho : s.startOrders params = some o) (hbcn : o.bcnOrd ≠ 15) :
    Wp (s.endStartRequest params) (Structured o s) (s.Refused o) := by
  obtain ⟨desc, hdesc, heq⟩ := endStartRequest_eq params ho
  rw [heq]
  split
  · exact ⟨by rintro ⟨⟩, by rintro ⟨⟩⟩
  · unfold startPan
    dsimp only
    rw [if_neg hbcn]
    exact wp_startBeacon params desc hdesc rfl rfl rfl

/-- **The structure of a started PAN.**  Whatever happened before, a start request for orders that
fit together leaves the superframe structure that belongs to them, as far as beacons and DSME are
used, and no shift is undefined and nothing is divided by zero on the way. -/
theorem startedAs_of_endStartRequest (s : Mac) (params : MlmeStartRequestParams) (o : StartOrders)
    (ho : s.startOrders params = some o) (hbcn : o.bcnOrd ≤ 15)
    (hfit : o.bcnOrd ≠ 15 → s.OrdersFit o) :
    Wp (s.endStartRequest params) (StartedAs o s)
      fun e => o.bcnOrd ≠ 15 → e ≠ .undefinedShift ∧ e ≠ .divByZero := by
  by_cases hnone : o.bcnOrd = 15
  · have hpost : Post (s.endStartRequest params) (StartedAs o s) := by
      obtain ⟨desc, -, heq⟩ := endStartRequest_eq params ho
      rw [heq]
      split
      · trivial
      · unfold startPan
        dsimp only
        rw [if_pos hnone]
        exact (post_startNonBeacon _).imp fun t ht => ⟨fun _ => ht, fun h => absurd hnone h,
          fun h => absurd hnone h, fun h => absurd hnone h, fun h => absurd hnone h⟩
    exact hpost.mono (fun _ ht => ht) fun _ _ h => absurd hnone h
  · have hlt : o.bcnOrd < 15 := by omega
    refine (wp_endStartRequest params ho hnone).mono (fun t ht => ht.startedAs hlt (hfit hnone))
      fun e he _ => ⟨fun hshift => he.1 hshift ?_, he.2⟩
    exact ⟨(hfit hnone).superframe, fun hdsme => ((hfit hnone).multi hdsme).2⟩

/-- A new device that uses DSME. -/
def dsmeDevice : Mac where
  cfg := { macDSMEenabled := true }

/-- A request to a PAN coordinator without CAP reduction. -/
def startRequest (bcnOrd sfrmOrd : ℕ) (multiSuperframeOrder : Fin 16) :
    MlmeStartRequestParams where
  panId := 5
  bcnOrd := bcnOrd
  sfrmOrd := sfrmOrd
  panCoor := true
  dsmeSuperframeSpec := { multiSuperframeOrder }

/-- A beacon interval of 8 superframes, two to the multi-superframe. -/
theorem startedAs_of_endStartRequest_dsme :
    ∃ t, dsmeDevice.endStartRequest (startRequest 6 3 4) = .ok t ∧
      StartedAs ⟨6, 3, 4, false⟩ dsmeDevice t := by
  have hstart := startedAs_of_endStartRequest dsmeDevice (startRequest 6 3 4) ⟨6, 3, 4, false⟩ rfl
    (by decide) fun _ => ⟨by decide, fun _ => by decide, Or.inr (by decide)⟩
  exact ⟨_, rfl, hstart⟩

/-- A start request without beacons leaves no superframes, and one for 256 superframes without
CAP reduction an empty bitmap. -/
theorem not_startStructure :
    (∃ t, dsmeDevice.endStartRequest (startRequest 15 15 15) = .ok t ∧ ¬ t.StartStructure) ∧
      ∃ t, dsmeDevice.endStartRequest (startRequest 8 0 8) = .ok t ∧ ¬ t.StartStructure := by
  constructor
  · refine ⟨_, rfl, fun h => ?_⟩
    have hsuperframes := h.superframes
    revert hsuperframes
    decide
  · refine ⟨_, rfl, fun h => ?_⟩
    have hsab := h.sab
    revert hsab
    decide

end

end Mac

end Ns3Dsme
