/-
# Merging beacon bitmaps

A coordinator merges the bitmap of every enhanced beacon it reads into its own.  The words
and the length of the bitmap are updated apart: the words are joined only if both vectors
have one size, but the length is always taken over.  So the merge is a join as long as the
sizes agree or the own vector is still empty, and in no other case.
-/
import Ns3Dsme.LrWpan.Footprint
import Mathlib.Data.Set.Lattice

open List Program Program.Views

namespace Ns3Dsme

namespace BeaconBitmap

/-! ## Bitmaps as sets -/

/-- The vector has one word for every 16 superframes. -/
def WellFormed (b : BeaconBitmap) : Prop :=
  b.sdBitmap.length = wordCount b.sdBitmapLen

/-- The superframes that the bitmap marks as taken. -/
def bits (b : BeaconBitmap) : Set ℕ := {n | b.hasBit n = true}

/-- Joining two vectors of one size word by word joins their bits. -/
theorem bits_zipWith (a b c : BeaconBitmap) (hlen : a.sdBitmap.length = b.sdBitmap.length)
    (hc : c.sdBitmap = List.zipWith (· ||| ·) a.sdBitmap b.sdBitmap) :
    c.bits = a.bits ∪ b.bits := by
  ext n
  show c.hasBit n = true ↔ a.hasBit n = true ∨ b.hasBit n = true
  unfold hasBit
  rw [hc, List.getElem?_zipWith]
  by_cases hlt : n / 16 < a.sdBitmap.length
  · rw [List.getElem?_eq_getElem hlt, List.getElem?_eq_getElem (hlen ▸ hlt)]
    simp
  · rw [List.getElem?_eq_none_iff.mpr (by omega), List.getElem?_eq_none_iff.mpr (by omega)]
    simp

variable (own : BeaconBitmap) (bs : List BeaconBitmap) (b : BeaconBitmap)

/-- A bitmap without words marks nothing. -/
theorem bits_of_nil (h : b.sdBitmap = []) : b.bits = ∅ := by
  ext n
  show b.hasBit n = true ↔ False
  simp [hasBit, h]

/-- `operator|` on well-formed bitmaps of one length. -/
theorem or_eq_ok (a b : BeaconBitmap) (ha : a.WellFormed) (hb : b.WellFormed)
    (hlen : a.sdBitmapLen = b.sdBitmapLen) :
    a.or b = .ok ⟨0, a.sdBitmapLen, List.zipWith (· ||| ·) a.sdBitmap b.sdBitmap⟩ := by
  unfold WellFormed at ha hb
  have hwords : a.sdBitmap.length = b.sdBitmap.length := by rw [ha, hb, hlen]
  unfold or
  rw [if_pos hlen, if_pos ⟨by omega, by omega⟩, ha, Nat.sub_self]
  simp

/-! ## One merge -/

/-- The own vector is still empty, or both vectors have one size. -/
def Fits (own incoming : BeaconBitmap) : Prop :=
  own.sdBitmap = [] ∨ own.sdBitmap.length = incoming.sdBitmap.length

theorem bits_merge (own incoming : BeaconBitmap) (h : Fits own incoming) :
    (own.merge incoming).bits = own.bits ∪ incoming.bits := by
  by_cases hnil : own.sdBitmap = []
  · rw [bits_of_nil own hnil, Set.empty_union]
    ext n
    show hasBit _ n = true ↔ hasBit _ n = true
    simp [hasBit, merge, mergeWords, hnil]
  · have hlen := h.resolve_left hnil
    refine bits_zipWith _ _ _ hlen ?_
    show mergeWords _ _ = _
    have hne : own.sdBitmap.length ≠ 0 := fun h0 => hnil (length_eq_zero_iff.mp h0)
    rw [mergeWords, if_neg hne, if_pos hlen]

/-- **When a merge is well formed.**  Merging keeps the bitmap well formed exactly if the sizes
fit. -/
theorem wellFormed_merge_iff (own incoming : BeaconBitmap) (hincoming : incoming.WellFormed) :
    (own.merge incoming).WellFormed ↔ Fits own incoming := by
  unfold WellFormed at *
  show (mergeWords own.sdBitmap incoming.sdBitmap).length = wordCount incoming.sdBitmapLen ↔ _
  rw [← hincoming]
  unfold mergeWords Fits
  split
  · rename_i hnil
    simp [length_eq_zero_iff.mp hnil]
  · rename_i hnil
    have hne : own.sdBitmap ≠ [] := fun h => hnil (length_eq_zero_iff.mpr h)
    split
    · rename_i hlen
      simp [hlen]
    · rename_i hlen
      simp [hlen, hne]

/-- A merge of bitmaps of one length has the words and the length of `operator|`. -/
theorem or_eq_merge (own incoming : BeaconBitmap) (hown : own.WellFormed)
    (hincoming : incoming.WellFormed) (hlen : own.sdBitmapLen = incoming.sdBitmapLen) :
    own.or incoming = .ok { own.merge incoming with sdIndex := 0 } := by
  rw [or_eq_ok own incoming hown hincoming hlen]
  have hwords : own.sdBitmap.length = incoming.sdBitmap.length := by
    rw [hown, hincoming, hlen]
  have hmerge : List.zipWith (· ||| ·) own.sdBitmap incoming.sdBitmap
      = mergeWords own.sdBitmap incoming.sdBitmap := by
    unfold mergeWords
    rw [if_pos hwords]
    split
    · rename_i h0
      have hown0 : own.sdBitmap = [] := length_eq_zero_iff.mp h0
      have hincoming0 : incoming.sdBitmap = [] := length_eq_zero_iff.mp (hwords ▸ h0)
      rw [hown0, hincoming0]
      rfl
    · rfl
  rw [hmerge, hlen]
  rfl

/-! ## A sequence of merges -/

/-- Every bitmap of the list is well formed and fits when its turn comes. -/
def AllFit : BeaconBitmap → List BeaconBitmap → Prop
  | _, [] => True
  | own, b :: bs => b.WellFormed ∧ Fits own b ∧ AllFit (own.merge b) bs

theorem allFit_append :
    AllFit own (bs ++ [b]) ↔ AllFit own bs ∧ b.WellFormed ∧ Fits (bs.foldl merge own) b := by
  induction bs generalizing own with
  | nil => simp [AllFit]
  | cons c bs ih =>
    simp only [cons_append, AllFit, foldl_cons, ih]
    tauto

theorem wellFormed_foldl (hown : own.WellFormed) (h : AllFit own bs) :
    (bs.foldl merge own).WellFormed := by
  induction bs generalizing own with
  | nil => exact hown
  | cons b bs ih => exact ih _ ((wellFormed_merge_iff own b h.1).mpr h.2.1) h.2.2

/-- Merging collects the bits of all bitmaps, in whatever order and how often they come. -/
theorem bits_foldl (h : AllFit own bs) :
    (bs.foldl merge own).bits = own.bits ∪ ⋃ b ∈ bs, b.bits := by
  induction bs generalizing own with
  | nil => simp
  | cons b bs ih =>
    rw [foldl_cons, ih _ h.2.2, bits_merge own b h.2.1]
    simp [Set.union_assoc]

/-- The bitmaps that make up the result: the own one, unless it is still empty, and the merged
ones. -/
def parts (own : BeaconBitmap) (bs : List BeaconBitmap) : List BeaconBitmap :=
  if own.sdBitmap = [] then bs else own :: bs

/-- `operator|` over a list of bitmaps. -/
def orAll (b : BeaconBitmap) (bs : List BeaconBitmap) : Exec BeaconBitmap := bs.foldlM or b

/-- Merging bitmaps of one length has the words and the length of `operator|` over them. -/
theorem orAll_eq_foldl (bs : List BeaconBitmap) (hb : b.WellFormed)
    (hbs : ∀ c ∈ bs, c.WellFormed ∧ c.sdBitmapLen = b.sdBitmapLen) (a : BeaconBitmap)
    (hlen : a.sdBitmapLen = b.sdBitmapLen) (hwords : a.sdBitmap = b.sdBitmap) :
    ∃ r, orAll a bs = .ok r ∧ r.sdBitmapLen = (bs.foldl merge b).sdBitmapLen
      ∧ r.sdBitmap = (bs.foldl merge b).sdBitmap := by
  induction bs generalizing a b with
  | nil => exact ⟨a, rfl, hlen, hwords⟩
  | cons c bs ih =>
    obtain ⟨hc, hclen⟩ := hbs c (by simp)
    have ha : a.WellFormed := by rw [WellFormed, hwords, hlen, hb]
    have hor := or_eq_merge a c ha hc (hlen.trans hclen.symm)
    have hfit : Fits b c := Or.inr (by rw [hb, hc, hclen])
    have hmerge : (b.merge c).WellFormed := (wellFormed_merge_iff b c hc).mpr hfit
    have hsame : (a.merge c).sdBitmap = (b.merge c).sdBitmap := by
      show mergeWords _ _ = mergeWords _ _
      rw [hwords]
    obtain ⟨r, hr, hrlen, hrwords⟩ := ih (b.merge c) hmerge
      (fun d hd => ⟨(hbs d (by simp [hd])).1, (hbs d (by simp [hd])).2.trans hclen.symm⟩)
      { a.merge c with sdIndex := 0 } rfl hsame
    refine ⟨r, ?_, hrlen, hrwords⟩
    unfold orAll at hr ⊢
    rw [foldlM_cons, hor]
    exact hr

/-- **A join.**  The bitmap is the join of the own bitmap and the merged ones. -/
structure IsJoin (own : BeaconBitmap) (bs : List BeaconBitmap) (b : BeaconBitmap) : Prop where
  wellFormed : b.WellFormed
  bits : b.bits = own.bits ∪ ⋃ c ∈ bs, c.bits
  /-- It agrees with `operator|` wherever that is defined. -/
  or : ∀ c cs, parts own bs = c :: cs → (∀ d ∈ cs, d.sdBitmapLen = c.sdBitmapLen) →
    ∃ r, orAll c cs = .ok r ∧ r.sdBitmapLen = b.sdBitmapLen ∧ r.sdBitmap = b.sdBitmap

theorem wellFormed_of_allFit (h : AllFit own bs) :
    ∀ b ∈ bs, b.WellFormed := by
  induction bs generalizing own with
  | nil => simp
  | cons b bs ih =>
    intro c hc
    rcases mem_cons.mp hc with rfl | hc
    · exact h.1
    · exact ih _ h.2.2 c hc

/-- Merging bitmaps that all fit joins them. -/
theorem isJoin_foldl (hown : own.WellFormed) (h : AllFit own bs) :
    IsJoin own bs (bs.foldl merge own) := by
  have hwell := wellFormed_of_allFit own bs h
  refine ⟨wellFormed_foldl own bs hown h, bits_foldl own bs h, fun c cs hparts hlen => ?_⟩
  unfold parts at hparts
  split at hparts
  · rename_i hnil
    -- the first bitmap that is merged replaces the empty one
    subst hparts
    have hfirst : own.merge c = c := by
      simp [merge, mergeWords, hnil]
    rw [foldl_cons, hfirst]
    exact orAll_eq_foldl c cs (hwell c (by simp))
      (fun d hd => ⟨hwell d (by simp [hd]), hlen d hd⟩) c rfl rfl
  · obtain ⟨rfl, rfl⟩ := List.cons.inj hparts
    exact orAll_eq_foldl own bs hown (fun d hd => ⟨hwell d hd, hlen d hd⟩) own rfl rfl

end BeaconBitmap

namespace BitmapMerge

open BeaconBitmap

/-! ## Hearing beacons -/

/-- The bitmap of a frame that is read as an enhanced beacon. -/
def heardBitmap (p : Packet) (s : Mac) : Option BeaconBitmap :=
  if s.acceptFrame p && p.hdr.isBeacon && s.readsDescriptor p then
    match p.body with
    | .beacon _ (some d) _ => some d.beaconBitmap
    | _ => none
  else none

/-- The bitmap that a step merges. -/
def mergedBitmap (s : Mac) (i : Input) : Option BeaconBitmap :=
  match i.action with
  | .pdDataIndication p true => heardBitmap p s
  | _ => none

/-- The own bitmap after another one was heard, or none. -/
def after (own : BeaconBitmap) (heard : Option BeaconBitmap) : BeaconBitmap :=
  (heard.map own.merge).getD own

theorem macSDBitmap_of_keeps {touched : List View} {s t : Mac} (h : views.Keeps touched s t)
    (htouched : View.ownSlot ∉ touched) : t.adv.macSDBitmap = s.adv.macSDBitmap :=
  (h .ownSlot htouched).2

/-- What is heard is the bitmap of the PAN descriptor. -/
theorem heardBitmap_eq (p : Packet) (s : Mac) :
    heardBitmap p s = (s.heardDescriptor p).map fun d => d.beaconBitmap := by
  unfold heardBitmap Mac.heardDescriptor Packet.descriptor
  split
  · split
    · rename_i hbody
      rw [hbody]
      rfl
    · rename_i hother
      split
      · rename_i spec ie n hbody
        cases ie with
        | none => rfl
        | some d => exact absurd hbody (hother spec d n)
      · rfl
  · rfl

variable (s : Mac)

/-- A reception merges the bitmap that was heard, and nothing else. -/
theorem macSDBitmap_pdDataIndication (p : Packet) (fcsOk : Bool) :
    Post (s.pdDataIndication p fcsOk) fun t => t.adv.macSDBitmap
      = after s.adv.macSDBitmap (if fcsOk then heardBitmap p s else none) := by
  refine (same_pdDataIndication (Or.inl rfl) s p fcsOk).imp fun t ht => ht.2.trans ?_
  rw [heardBitmap_eq]
  cases fcsOk with
  | false => rfl
  | true => cases s.heardDescriptor p <;> rfl

/-! ## Starting a PAN -/

/-- A coordinator's own slot is set in a bitmap of the size of its parent's. -/
theorem wellFormed_ownBcnBitmap (parent : BeaconBitmap) (n : ℕ) (h : parent.WellFormed) :
    Post (Mac.ownBcnBitmap parent n) WellFormed := by
  unfold Mac.ownBcnBitmap setSDBitmapBit
  apply wp_of_bind
  split
  · show (List.set _ _ _).length = _
    rw [length_set]
    exact h
  · trivial

theorem wellFormed_startDsmeFrom (params : MlmeStartRequestParams) (desc : Option PanDescriptor)
    (hs : s.adv.macSDBitmap.WellFormed) (hparams : params.bcnBitmap.WellFormed)
    (hdesc : ∀ d, desc = some d → d.bcnBitmap.WellFormed) :
    Post (s.startDsmeFrom params desc) fun t => t.adv.macSDBitmap.WellFormed := by
  have hstart (spec : DsmeSuperFrameField) (b : BeaconBitmap) (hb : b.WellFormed) :
      Post (s.startDsme params spec b) fun t => t.adv.macSDBitmap.WellFormed := by
    unfold Mac.startDsme
    refine post_bind fun field _ => ?_
    refine post_bind fun m _ => ?_
    exact post_bind fun n _ => hb
  unfold Mac.startDsmeFrom
  split
  · split
    · exact hstart _ _ hparams
    · rename_i d
      apply wp_of_bind
      exact (wellFormed_ownBcnBitmap _ _ (hdesc d rfl)).imp fun b hb => hstart _ b hb
  · exact hs

/-- MLME-START keeps the bitmap well formed when it is given well-formed ones. -/
theorem wellFormed_mlmeStartRequest (params : MlmeStartRequestParams) (pageOk channelOk : Bool)
    (hs : s.adv.macSDBitmap.WellFormed) (hparams : params.bcnBitmap.WellFormed)
    (hdesc : ∀ d ∈ s.cfg.panDescriptorList, d.bcnBitmap.WellFormed) :
    Post (s.mlmeStartRequest params pageOk channelOk) fun t => t.adv.macSDBitmap.WellFormed := by
  have hkept {touched : List View} {t u : Mac} (h : views.Keeps touched t u)
      (htouched : View.ownSlot ∉ touched) (ht : t.adv.macSDBitmap.WellFormed) :
      u.adv.macSDBitmap.WellFormed := by
    rw [macSDBitmap_of_keeps h htouched]
    exact ht
  refine post_mlmeStartRequest s params pageOk channelOk _ (fun t ht => ?_) (fun t ht => ?_)
    fun t desc ht hlist => ?_
  · exact hkept ht (by simp) hs
  · exact (touches_startNonBeacon t).post.imp fun u hu =>
      hkept hu (by simp) (hkept ht (by simp) hs)
  · unfold Mac.startBeacon
    have hwell : t.adv.macSDBitmap.WellFormed := hkept ht (by simp) hs
    refine (wp_bind _ _ _ _).mpr
      ((wellFormed_startDsmeFrom (Mac.startSuperframeStructure _ _ _) params desc ?_ hparams
        fun d hd => hdesc d (hlist d hd)).imp fun u hu => ?_)
    · exact hwell
    · refine (touches_resizeSAB u).post.bind fun v hv => ?_
      have hwell : v.adv.macSDBitmap.WellFormed := hkept hv (by simp) hu
      split
      · refine (touches_scheduleGtsInMac _ _).post.imp fun w hw => ?_
        exact hkept hw (by simp) (hkept (keeps_startBeacons v) (by simp) hwell)
      · exact hwell

/-! ## Steps and runs -/

/-- The bitmap the device had when it was last started, and the bitmaps merged since. -/
structure Merges where
  own : BeaconBitmap
  merged : List BeaconBitmap := []

/-- What a step adds: MLME-START begins anew, a beacon that is heard adds its bitmap. -/
def Merges.record (l : Merges) (s : Mac) (i : Input) (t : Mac) : Merges :=
  match i.action with
  | .mlmeStartRequest _ _ _ => ⟨t.adv.macSDBitmap, []⟩
  | _ =>
    match mergedBitmap s i with
    | some b => ⟨l.own, l.merged ++ [b]⟩
    | none => l

/-- MLME-START is given well-formed bitmaps, and a bitmap that is merged is well formed and has
as many words as the own one, unless that is still empty. -/
def Fitting (s : Mac) (i : Input) : Prop :=
  match i.action with
  | .mlmeStartRequest params _ _ =>
    params.bcnBitmap.WellFormed ∧ ∀ d ∈ s.cfg.panDescriptorList, d.bcnBitmap.WellFormed
  | _ => ∀ b, mergedBitmap s i = some b → b.WellFormed ∧ Fits s.adv.macSDBitmap b

/-- The bitmap of the device is what the merges make of the first one. -/
structure Merges.Made (l : Merges) (s : Mac) : Prop where
  wellFormed : l.own.WellFormed
  allFit : AllFit l.own l.merged
  macSDBitmap : s.adv.macSDBitmap = l.merged.foldl merge l.own

theorem Merges.Made.isJoin {l : Merges} {s : Mac} (h : l.Made s) :
    IsJoin l.own l.merged s.adv.macSDBitmap := by
  rw [h.macSDBitmap]
  exact isJoin_foldl l.own l.merged h.wellFormed h.allFit

/-- A step that hears no beacon and starts no PAN leaves the bitmap alone. -/
theorem macSDBitmap_act (a : Action)
    (hstart : ∀ params pageOk channelOk, a ≠ .mlmeStartRequest params pageOk channelOk)
    (hheard : ∀ p fcsOk, a ≠ .pdDataIndication p fcsOk) :
    Post (s.act a) fun t => t.adv.macSDBitmap = s.adv.macSDBitmap := by
  cases a with
  | mlmeStartRequest params pageOk channelOk => exact absurd rfl (hstart _ _ _)
  | pdDataIndication p fcsOk => exact absurd rfl (hheard _ _)
  | fire n =>
    show Post (s.fire n) _
    cases htake : s.sim.take n with
    | none =>
      unfold Mac.fire
      rw [htake]
      rfl
    | some r =>
      exact (post_fire s r.2 n r.1 htake).imp fun t ht =>
        macSDBitmap_of_keeps ht MacEvent.of_mem_footprint
  | _ =>
    refine (post_act s _ (by simp)).imp fun t ht => macSDBitmap_of_keeps ht ?_
    simp [Action.footprint]

/-- A step that fits keeps the record of the merges right. -/
theorem made_step (l : Merges) (s : Mac) (i : Input) (hl : l.Made s) (hi : Fitting s i) :
    Post (Mac.step s i) fun t => (l.record s i t).Made t := by
  obtain ⟨a, answers⟩ := i
  have hwell : s.adv.macSDBitmap.WellFormed := hl.isJoin.wellFormed
  unfold Mac.step
  dsimp only
  cases a with
  | mlmeStartRequest params pageOk channelOk =>
    refine (wellFormed_mlmeStartRequest { s with phy := answers } params pageOk channelOk hwell
      hi.1 hi.2).imp fun t ht => ?_
    exact ⟨ht, trivial, rfl⟩
  | pdDataIndication p fcsOk =>
    refine (macSDBitmap_pdDataIndication { s with phy := answers } p fcsOk).imp fun t ht => ?_
    have hheard : (if fcsOk then heardBitmap p { s with phy := answers } else none)
        = mergedBitmap s ⟨.pdDataIndication p fcsOk, answers⟩ := by
      cases fcsOk with
      | false => rfl
      | true => rfl
    rw [hheard] at ht
    unfold Merges.record
    dsimp only
    cases hmerged : mergedBitmap s ⟨.pdDataIndication p fcsOk, answers⟩ with
    | none =>
      rw [hmerged] at ht
      exact ⟨hl.wellFormed, hl.allFit, ht.trans hl.macSDBitmap⟩
    | some b =>
      rw [hmerged] at ht
      obtain ⟨hb, hfits⟩ := hi b hmerged
      rw [hl.macSDBitmap] at hfits
      refine ⟨hl.wellFormed, (allFit_append _ _ _).mpr ⟨hl.allFit, hb, hfits⟩, ?_⟩
      rw [ht, foldl_append, ← hl.macSDBitmap]
      rfl
  | _ =>
    refine (macSDBitmap_act _ _ (by simp) (by simp)).imp fun t ht => ?_
    exact ⟨hl.wellFormed, hl.allFit, ht.trans hl.macSDBitmap⟩

/-- A beacon with a bitmap. -/
def beaconWith (b : BeaconBitmap) : Packet where
  hdr :=
    { frmType := .beacon, ieListPresent := true, frmVer := 2, dstAddrMode := .shortAddr
      dstPanId := 7, shortDstAddr := 0xffff, srcAddrMode := .shortAddr, srcPanId := 7
      shortSrcAddr := 1 }
  body := .beacon {} (some
    { superframeField := { bcnOrder := 8, sprFrmOrder := 3, fnlCapSlot := 8 }
      dsmeSuperframeField := { multiSuperframeOrder := 5 }
      beaconBitmap := b }) 0
  size := 70
  uid := 100

/-- A device that has merged nothing yet. -/
def listener : Mac where
  cfg := { shortAddress := 2, macDSMEenabled := true }
  role := { macPanId := 7 }

/-- Two superframes of the first 16 are taken, one of them by both. -/
def shortBitmaps : List BeaconBitmap := [⟨0, 16, [1]⟩, ⟨1, 16, [3]⟩]

/-- A bitmap for 16 superframes, then one for 32. -/
def longerBitmap : List BeaconBitmap := [⟨0, 16, [1]⟩, ⟨16, 32, [1, 1]⟩]

/-- The beacons with these bitmaps come in. -/
def hear (bs : List BeaconBitmap) : List Input :=
  bs.map fun b => ⟨.pdDataIndication (beaconWith b) true, {}⟩

/-- A test for steps that fit. -/
def hears (s : Mac) (i : Input) : Bool :=
  match i.action with
  | .pdDataIndication _ _ => (mergedBitmap s i).all fun b =>
      b.sdBitmap.length == wordCount b.sdBitmapLen
        && (s.adv.macSDBitmap.sdBitmap == []
          || s.adv.macSDBitmap.sdBitmap.length == b.sdBitmap.length)
  | _ => false

theorem fitting_of_hears (i : Input) (h : hears s i = true) : Fitting s i := by
  unfold hears at h
  unfold Fitting
  split at h
  · rename_i p fcsOk haction
    rw [haction]
    intro b hb
    rw [hb, Option.all_some, Bool.and_eq_true, Bool.or_eq_true, beq_iff_eq, beq_iff_eq,
      beq_iff_eq] at h
    exact h
  · cases h

end BitmapMerge

end Ns3Dsme
