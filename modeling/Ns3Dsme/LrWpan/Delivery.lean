/-
# Delivery to the next higher layer

`PdDataIndication` passes a data frame up behind the frame filter.  With `m_acceptAllHilowPkt`
it also passes every data frame up in front of the filter, and the test that kept the second
delivery from happening as well is commented out in the source.  A frame that passes and asks for
an acknowledgment is read as a command first, and stops the simulator where it is too short for one.
-/
import Ns3Dsme.LrWpan.Device

open Program

namespace Ns3Dsme.Delivery

/-! ## What is passed up -/

/-- The packets that were passed up, in order. -/
def deliveries (os : List Output) : List Packet :=
  os.filterMap fun o => match o with
    | .mcpsDataIndication p => some p
    | _ => none

theorem deliveries_append (os os' : List Output) :
    deliveries (os ++ os') = deliveries os ++ deliveries os' :=
  List.filterMap_append

/-- Between the two states the packet is passed up exactly once if `C` holds, else not at
all. -/
def DeliversOnceIff (p : Packet) (s t : Mac) (C : Prop) : Prop :=
  (C → deliveries t.trace = deliveries s.trace ++ [p])
    ∧ (¬ C → deliveries t.trace = deliveries s.trace)

/-- The MAC states in which a frame may come in. -/
def Receives (s : Mac) : Prop :=
  s.macState = .macIdle ∨ s.macState = .macAckPending ∨ s.macState = .macCsma
    ∨ s.macState = .macGts

/-- The filter that is configured: accept-all mode lets every data frame through. -/
def PassesFilter (s : Mac) (p : Packet) : Prop :=
  s.cfg.acceptAllHilowPkt = true ∨ s.acceptFrame p = true

/-- The frame passes the filter, asks for an acknowledgment and is too short to be read as a
command. -/
def IsTooShort (s : Mac) (p : Packet) (fcsOk : Bool) : Prop :=
  fcsOk = true ∧ s.acceptFrame p = true ∧ Mac.asksForAck p = true ∧ Mac.peeksCommand p = false

/-- What can stop the handler in a receiving state: a shift beyond a group acknowledgment
bitmap, a current GTS that is not in the table, or a frame that is too short. -/
def StopsEarly (s : Mac) (p : Packet) (fcsOk : Bool) (e : Fault) : Prop :=
  Receives s → e = .undefinedShift ∨ e = .outOfRange ∨ e = .assertFailed ∧ IsTooShort s p fcsOk

/-! ## The blocks of the handler -/

theorem trace_markGroupAck (s : Mac) (p : Packet) :
    Wp (s.markGroupAck p) (fun t => t.trace = s.trace ∧ t.cfg = s.cfg)
      fun e => e = .undefinedShift := by
  have hback (t : Mac) : t.backToGts.trace = t.trace ∧ t.backToGts.cfg = t.cfg := by
    unfold Mac.backToGts
    split
    · exact ⟨rfl, rfl⟩
    · exact ⟨rfl, rfl⟩
  have hprob (bitmap : BitVec 64) (key count : ℕ) :
      Wp (doQuadraticProb bitmap key count) (fun _ => True) fun e => e = .undefinedShift := by
    fun_induction doQuadraticProb bitmap key count with
    | case1 key count hlt hbit ih => exact ih
    | case2 key count hlt hbit => trivial
    | case3 key count hlt => rfl
  have hkey (g : GroupAck) : Wp (g.enhancedMark s.cfg.hash64 p.hdr.shortSrcAddr p.hdr.seqNum)
      (fun _ => True) fun e => e = .undefinedShift := by
    unfold GroupAck.enhancedMark generateHashTableKey checkCollision isHashTableKeyCollision
    apply wp_of_bind
    apply wp_of_bind
    split
    · refine (wp_ok _ _ _).mpr ?_
      show Wp (if _ then _ else _) _ _
      split
      · exact (hprob _ _ _).imp fun _ _ => trivial
      · trivial
    · rfl
  unfold Mac.markGroupAck
  split
  · exact (hkey _).bind fun g _ => hback _
  · apply wp_of_bind
    unfold GroupAck.legacyMark
    split
    · exact hback _
    · rfl
  · exact ⟨rfl, rfl⟩

theorem trace_ackRequested (s : Mac) (p : Packet) :
    Wp (s.ackRequested p)
      (fun t => t.trace = s.trace ∧ t.cfg = s.cfg
        ∧ (Mac.asksForAck p = true → Mac.peeksCommand p = true))
      fun e => e = .undefinedShift
        ∨ e = .assertFailed ∧ Mac.asksForAck p = true ∧ Mac.peeksCommand p = false := by
  unfold Mac.ackRequested
  split
  · rename_i hasks
    split
    · rename_i hpeeks
      exact (trace_markGroupAck _ p).mono (fun t ht => ⟨ht.1, ht.2, fun _ => hpeeks⟩)
        fun e he => Or.inl he
    · rename_i hshort
      exact Or.inr ⟨rfl, hasks, eq_false_of_ne_true hshort⟩
  · rename_i hnone
    exact ⟨rfl, rfl, fun hasks => absurd hasks hnone⟩

/-- Behind the filter a data frame is passed up once. -/
theorem deliveries_receiveFrame (s : Mac) (p : Packet) (hdata : p.hdr.isData = true)
    (hcallback : s.cfg.mcpsDataIndicationCallback = true) :
    Wp (s.receiveFrame p)
      (fun t => deliveries t.trace = deliveries s.trace ++ [p]
        ∧ (Mac.asksForAck p = true → Mac.peeksCommand p = true))
      fun e => e = .undefinedShift ∨ e = .outOfRange
        ∨ e = .assertFailed ∧ Mac.asksForAck p = true ∧ Mac.peeksCommand p = false := by
  have htype : p.hdr.frmType = .data := eq_of_beq hdata
  have hbeacon : p.hdr.isBeacon = false := by
    rw [LrWpanMacHeader.isBeacon, htype]
    rfl
  have hack : p.hdr.isAcknowledgment = false := by
    rw [LrWpanMacHeader.isAcknowledgment, htype]
    rfl
  have hcnt (t : Mac) : Wp t.resetCnt (fun u => u.trace = t.trace) fun e => e = .outOfRange := by
    unfold Mac.resetCnt
    split
    · split
      · rfl
      · rfl
    · rfl
  unfold Mac.receiveFrame
  refine (wp_bind _ _ _ _).mpr ((trace_ackRequested s p).mono ?_ fun e he => he.imp_right Or.inr)
  rintro t ⟨htrace, hcfg, hpeeks⟩
  rw [hbeacon]
  apply wp_of_bind
  unfold Mac.receiveData
  rw [if_pos (by rw [hdata, hcfg, hcallback]; rfl)]
  refine (hcnt _).mono (fun u hu => ?_) fun e he => Or.inr (Or.inl he)
  unfold Mac.receiveGroupAck
  rw [if_neg (by simp [hack])]
  refine ⟨?_, hpeeks⟩
  rw [hu, ← htrace]
  exact deliveries_append _ _

/-! ## One frame -/

/-- A data frame with a correct FCS is passed up once in front of the filter in accept-all mode,
and once behind the filter if it passes and is not too short. -/
theorem deliveries_pdDataIndication (s : Mac) (p : Packet) (fcsOk : Bool)
    (hdata : p.hdr.isData = true) (hcallback : s.cfg.mcpsDataIndicationCallback = true) :
    Wp (s.pdDataIndication p fcsOk)
      (fun t => deliveries t.trace = deliveries s.trace
        ++ ((if fcsOk = true ∧ s.cfg.acceptAllHilowPkt = true then [p] else [])
          ++ if fcsOk = true ∧ s.acceptFrame p = true then [p] else [])
        ∧ ¬ IsTooShort s p fcsOk)
      (StopsEarly s p fcsOk) := by
  have hilow : deliveries (s.acceptAllHilow p).trace
        = deliveries s.trace ++ (if s.cfg.acceptAllHilowPkt = true then [p] else [])
      ∧ (s.acceptAllHilow p).cfg = s.cfg ∧ (s.acceptAllHilow p).role = s.role := by
    unfold Mac.acceptAllHilow
    rw [hdata, hcallback]
    by_cases hall : s.cfg.acceptAllHilowPkt = true
    · rw [if_pos (by simp [hall]), if_pos hall]
      exact ⟨deliveries_append _ _, rfl, rfl⟩
    · rw [if_neg (by simp [hall]), if_neg hall, List.append_nil]
      exact ⟨rfl, rfl, rfl⟩
  have haccept : (s.acceptAllHilow p).acceptFrame p = s.acceptFrame p := by
    unfold Mac.acceptFrame
    rw [hilow.2.1, hilow.2.2]
  unfold Mac.pdDataIndication
  split
  · rename_i hstate
    intro hreceives
    rcases hreceives with h | h | h | h
    · exact absurd h hstate.1
    · exact absurd h hstate.2.1
    · exact absurd h hstate.2.2.1
    · exact absurd h hstate.2.2.2
  · cases fcsOk with
    | false =>
      refine ⟨?_, fun hshort => Bool.false_ne_true hshort.1⟩
      simp
    | true =>
      rw [if_pos rfl, haccept]
      by_cases hpass : s.acceptFrame p = true
      · rw [if_pos hpass]
        refine (deliveries_receiveFrame _ p hdata (by rw [hilow.2.1, hcallback])).mono
          (fun t ht => ⟨?_, fun hshort => ?_⟩) fun e he _ => ?_
        · rw [ht.1, hilow.1]
          simp [hpass, List.append_assoc]
        · exact absurd (ht.2 hshort.2.2.1) (ne_true_of_eq_false hshort.2.2.2)
        · exact he.imp_right fun he => he.imp_right fun he => ⟨he.1, rfl, hpass, he.2⟩
      · rw [if_neg hpass]
        refine ⟨?_, fun hshort => hpass hshort.2.1⟩
        show deliveries (s.acceptAllHilow p).trace = _
        rw [hilow.1]
        simp [hpass]

/-- **When a data frame is delivered properly.**  A data frame is passed up exactly once if its
FCS is correct and it passes the configured filter, and else not at all, unless it passes the
address filter in accept-all mode: then it is passed up twice.  Measured by the address filter
alone, every frame with a correct FCS is delivered wrongly in accept-all mode.  Where the frame is
too short the handler does not get to the delivery behind the filter. -/
theorem deliversOnceIff_pdDataIndication (s : Mac) (p : Packet) (fcsOk : Bool)
    (hdata : p.hdr.isData = true) (hcallback : s.cfg.mcpsDataIndicationCallback = true) :
    Wp (s.pdDataIndication p fcsOk)
      (fun t =>
        (DeliversOnceIff p s t (fcsOk = true ∧ PassesFilter s p) ↔
          ¬ (fcsOk = true ∧ s.cfg.acceptAllHilowPkt = true ∧ s.acceptFrame p = true))
        ∧ (DeliversOnceIff p s t (fcsOk = true ∧ s.acceptFrame p = true) ↔
          ¬ (fcsOk = true ∧ s.cfg.acceptAllHilowPkt = true))
        ∧ ¬ IsTooShort s p fcsOk)
      (StopsEarly s p fcsOk) := by
  refine (deliveries_pdDataIndication s p fcsOk hdata hcallback).imp fun t ⟨ht, hshort⟩ => ?_
  unfold DeliversOnceIff PassesFilter
  rw [ht, ← and_assoc]
  refine ⟨?_, hshort⟩
  cases fcsOk with
  | false => simp
  | true =>
    by_cases hall : s.cfg.acceptAllHilowPkt = true
    · by_cases hpass : s.acceptFrame p = true
      · simp [hall, hpass]
      · simp [hall, hpass]
    · by_cases hpass : s.acceptFrame p = true
      · simp [hall, hpass]
      · simp [hall, hpass]

/-- A data frame for the device with address 2, that asks for an acknowledgment. -/
def dataForTwo : Packet where
  hdr := { ackReq := true, frmVer := 1, dstAddrMode := .shortAddr, dstPanId := 7, shortDstAddr := 2,
           srcAddrMode := .shortAddr, srcPanId := 7, shortSrcAddr := 1 }
  body := .data (List.replicate 10 0)
  size := 23
  uid := 0

/-- That device, in accept-all mode or not. -/
def device (acceptAllHilowPkt : Bool) : Mac where
  cfg := { shortAddress := 2, acceptAllHilowPkt }
  role := { macPanId := 7 }

/-- Without accept-all mode the device delivers the frame properly. -/
theorem device_deliversOnceIff : Wp ((device false).pdDataIndication dataForTwo true)
      (fun t =>
        (DeliversOnceIff dataForTwo (device false) t
            (true = true ∧ PassesFilter (device false) dataForTwo) ↔
          ¬ (true = true ∧ (device false).cfg.acceptAllHilowPkt = true
            ∧ (device false).acceptFrame dataForTwo = true))
        ∧ (DeliversOnceIff dataForTwo (device false) t
            (true = true ∧ (device false).acceptFrame dataForTwo = true) ↔
          ¬ (true = true ∧ (device false).cfg.acceptAllHilowPkt = true))
        ∧ ¬ IsTooShort (device false) dataForTwo true)
      (StopsEarly (device false) dataForTwo true) :=
  deliversOnceIff_pdDataIndication (device false) dataForTwo true rfl rfl

/-- In accept-all mode it delivers the frame twice. -/
theorem exists_run_delivers_twice : ∃ t, Mac.machine.Run (fun _ _ => True) (device true)
        [⟨.pdDataIndication dataForTwo true, {}⟩] t
      ∧ deliveries t.trace = [dataForTwo, dataForTwo] := by
  have hexec : (Mac.machine.exec (fun _ _ => true) (device true)
      [⟨.pdDataIndication dataForTwo true, {}⟩]).any
        (fun t => decide (deliveries t.trace = [dataForTwo, dataForTwo])) = true := by
    decide +kernel
  obtain ⟨t, hrun, ht⟩ := Machine.exists_run_of_exec _ _ _ _ hexec
  exact ⟨t, hrun.mono fun _ _ _ => trivial, of_decide_eq_true ht⟩

end Ns3Dsme.Delivery
