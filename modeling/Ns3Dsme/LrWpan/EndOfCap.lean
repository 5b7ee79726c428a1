/-
# The end of the CAP

The MAC ends the CAP of a superframe with the event `StartCFP`, which `StartCAP` schedules
relative to the start of the beacon slot.  CSMA-CA computes the end of the CAP in
`GetTimeLeftInCap`, relative to the time at which the beacon had been sent or received.  The
two origins lie the airtime of the beacon apart, so the two ends never agree, and CSMA-CA
accepts transactions that reach into the CFP.
-/
import Ns3Dsme.LrWpan.Device

open Program

namespace Ns3Dsme.EndOfCap

open Mac

/-! ## The two ends of the CAP -/

/-- The end of the CAP as CSMA-CA computes it. -/
def capEnd (s : Mac) : ℤ := s.sim.now + s.getTimeLeftInCap

/-- The member that holds the `StartCFP` which `StartCAP` schedules. -/
def capMember : SuperframeType → Member
  | .outgoing => .capEvent
  | .incoming => .incCapEvent

/-- The `StartCFP` pending in `v` comes at the end of the CAP that CSMA-CA computes in `w`. -/
def Agrees (superframeType : SuperframeType) (v w : Mac) : Prop :=
  v.sim.held (capMember superframeType) = [(.startCFP superframeType, capEnd w)]

/-- A beacon is about to be confirmed as sent, or to be read, that starts a superframe of this
device.  A transmission takes at least its airtime. -/
structure StartsSuperframe (superframeType : SuperframeType) (p : Packet) (s : Mac) : Prop where
  isBeacon : p.hdr.isBeacon = true
  size : p.size ≤ aMaxPhyPacketSize
  outgoing : superframeType = .outgoing →
    s.tx.txPkt = some p ∧ s.csma.isSlotted = true
      ∧ s.out.beaconStartTxTime + calculateTxTime p ≤ s.sim.now
  incoming : superframeType = .incoming →
    s.acceptFrame p = true ∧ s.role.macPanId = p.hdr.dstPanId

/-- What ends the transmission or the reception of the beacon. -/
def endBeacon (superframeType : SuperframeType) (p : Packet) (s : Mac) : Exec Mac :=
  match superframeType with
  | .outgoing => s.pdDataConfirm .phySuccess
  | .incoming => s.pdDataIndication p true

/-- Both states belong to the same superframe: its beacon times, its length and its final CAP
slot are the same. -/
def SameSuperframe (superframeType : SuperframeType) (s t : Mac) : Prop :=
  match superframeType with
  | .outgoing =>
    t.out.macBeaconTxTime = s.out.macBeaconTxTime
      ∧ t.out.beaconStartTxTime = s.out.beaconStartTxTime
      ∧ t.out.superframeDuration = s.out.superframeDuration
      ∧ t.out.fnlCapSlot = s.out.fnlCapSlot
  | .incoming =>
    t.inc.macBeaconRxTime = s.inc.macBeaconRxTime
      ∧ t.inc.rxBeaconSymbols = s.inc.rxBeaconSymbols
      ∧ t.inc.incomingSuperframeDuration = s.inc.incomingSuperframeDuration
      ∧ t.inc.incomingFnlCapSlot = s.inc.incomingFnlCapSlot

/-- A coordinator contends in its own superframe, a device in that of its coordinator. -/
def ContendsIn (superframeType : SuperframeType) (w : Mac) : Prop :=
  match superframeType with
  | .outgoing => w.role.coord = true ∧ w.csma.incCsma = false
  | .incoming => w.role.coord = false ∧ w.csma.incCsma = true

/-- One superframe: its beacon ends in the step from `s` to `t`, `StartCAP` runs at the same time
in the step from `u` to `v`, and CSMA-CA asks for the time left in `w`. -/
structure Superframe (superframeType : SuperframeType) (p : Packet) (s t u v w : Mac) :
    Prop where
  starts : StartsSuperframe superframeType p s
  beacon : endBeacon superframeType p s = .ok t
  sameCap : SameSuperframe superframeType t u
  now : u.sim.now = t.sim.now
  startCAP : u.startCAP superframeType = .ok v
  same : SameSuperframe superframeType v w
  contends : ContendsIn superframeType w

/-! ## The end that CSMA-CA computes -/

theorem capEnd_outgoing (w : Mac) (hw : ContendsIn .outgoing w) :
    capEnd w = w.out.macBeaconTxTime
      + symbols (capDuration w.out.superframeDuration w.out.fnlCapSlot) := by
  unfold capEnd getTimeLeftInCap capDuration
  simp only [hw.1, hw.2, if_true, Bool.false_eq_true, if_false]
  omega

theorem capEnd_incoming (w : Mac) (hw : ContendsIn .incoming w) :
    capEnd w = w.inc.macBeaconRxTime
      + symbols (capDuration w.inc.incomingSuperframeDuration w.inc.incomingFnlCapSlot) := by
  unfold capEnd getTimeLeftInCap capDuration
  simp only [hw.1, hw.2, if_true, Bool.false_eq_true, if_false]
  omega

/-! ## The end that StartCAP schedules -/

variable (s : Mac) (p : Packet)

/-- Looking at the queue does not move the end of the CAP. -/
theorem held_checkQueue (m : Member) (hm : Member.setMacState ≠ m) :
    s.checkQueue.sim.held m = s.sim.held m := by
  unfold checkQueue
  split
  · split
    · rfl
    · split
      · split
        · exact Sim.held_post_of_ne _ _ _ _ _ rfl hm
        · rfl
      · rfl
  · rfl

/-- Nor does it touch the superframe. -/
theorem out_inc_checkQueue : s.checkQueue.out = s.out ∧ s.checkQueue.inc = s.inc := by
  unfold checkQueue
  split
  · split
    · exact ⟨rfl, rfl⟩
    · split
      · split
        · exact ⟨rfl, rfl⟩
        · exact ⟨rfl, rfl⟩
      · exact ⟨rfl, rfl⟩
  · exact ⟨rfl, rfl⟩

/-- The outgoing CAP ends the length of the CAP after the start of the beacon. -/
theorem held_startCAP_outgoing (u : Mac) :
    Post (u.startCAP .outgoing) fun v =>
      SameSuperframe .outgoing u v ∧ v.sim.held .capEvent =
        [(.startCFP .outgoing, u.sim.now
          + (symbols (capDuration u.out.superframeDuration u.out.fnlCapSlot)
            - (u.out.macBeaconTxTime - u.out.beaconStartTxTime)))] := by
  unfold startCAP schedule
  dsimp only
  split
  · trivial
  · refine ⟨?_, ?_⟩
    · unfold SameSuperframe
      dsimp only
      rw [(out_inc_checkQueue _).1]
      exact ⟨rfl, rfl, rfl, rfl⟩
    · rw [held_checkQueue _ _ (by decide)]
      exact Sim.held_post _ _ _ _ rfl

/-- The symbols between the beacon and the end of the incoming CAP, as the unsigned difference
that the code computes. -/
def incomingCapTime (u : Mac) : ℕ :=
  (u.difference .capMinusRxBeacon 64
    (capDuration u.inc.incomingSuperframeDuration u.inc.incomingFnlCapSlot)
    u.inc.rxBeaconSymbols).1

theorem held_startCAP_incoming (u : Mac) :
    Post (u.startCAP .incoming) fun v =>
      SameSuperframe .incoming u v ∧ v.sim.held .incCapEvent =
        [(.startCFP .incoming, u.sim.now + symbols (incomingCapTime u))] := by
  have hend (t : Mac) (n : ℕ) :
      (t.scheduleSymbols .incCapEvent (.startCFP .incoming) n).checkQueue.sim.held .incCapEvent
        = [(.startCFP .incoming, t.sim.now + symbols n)] := by
    rw [held_checkQueue _ _ (by decide)]
    exact Sim.held_post _ _ _ _ rfl
  unfold startCAP incomingCapTime difference
  dsimp only
  split
  · refine ⟨?_, hend _ _⟩
    unfold SameSuperframe
    dsimp only
    rw [(out_inc_checkQueue _).2]
    exact ⟨rfl, rfl, rfl, rfl⟩
  · refine ⟨?_, hend _ _⟩
    unfold SameSuperframe
    dsimp only
    rw [(out_inc_checkQueue _).2]
    exact ⟨rfl, rfl, rfl, rfl⟩

/-! ## The times of the beacon -/

/-- The time, the outgoing superframe and the beacon that was heard last are the same. -/
structure SameTimes (s t : Mac) : Prop where
  now : t.sim.now = s.sim.now
  out : t.out = s.out
  macBeaconRxTime : t.inc.macBeaconRxTime = s.inc.macBeaconRxTime
  rxBeaconSymbols : t.inc.rxBeaconSymbols = s.inc.rxBeaconSymbols

theorem SameTimes.refl : SameTimes s s := ⟨rfl, rfl, rfl, rfl⟩

theorem SameTimes.trans {s t u : Mac} (h : SameTimes s t) (h' : SameTimes t u) : SameTimes s u :=
  ⟨h'.now.trans h.now, h'.out.trans h.out, h'.macBeaconRxTime.trans h.macBeaconRxTime,
    h'.rxBeaconSymbols.trans h.rxBeaconSymbols⟩

theorem sameTimes_seq {s : Mac} {x : Exec Mac} {f : Mac → Exec Mac} (hx : Post x (SameTimes s))
    (hf : ∀ t, Post (f t) (SameTimes t)) : Post (x >>= f) (SameTimes s) :=
  Wp.trans (R := SameTimes) (fun _ _ _ => SameTimes.trans) hx hf

theorem sameTimes_schedule (m : Member) (event : MacEvent) (delay : ℤ)
    (h : m.mayHold event = true) : Post (s.schedule m event delay h) (SameTimes s) := by
  unfold schedule
  split
  · trivial
  · exact ⟨rfl, rfl, rfl, rfl⟩

theorem sameTimes_scheduleEntry (pos : ℕ × ℕ) :
    Post (s.scheduleEntry pos) (SameTimes s) := by
  unfold scheduleEntry
  split
  · exact SameTimes.refl s
  · split
    · exact SameTimes.refl s
    · refine sameTimes_seq (sameTimes_schedule _ _ _ _ _) fun t => ?_
      split
      · exact ⟨rfl, rfl, rfl, rfl⟩
      · trivial

theorem sameTimes_scheduleGtsInMac (indication : Bool) :
    Post (s.scheduleGtsInMac indication) (SameTimes s) := by
  unfold scheduleGtsInMac
  split
  · exact SameTimes.refl s
  · unfold scheduleGts
    split
    · exact SameTimes.refl s
    · split
      · exact SameTimes.refl s
      · refine wp_foldlM _ _ _ _ (fun t pos _ ht => ?_) s (SameTimes.refl s)
        exact (sameTimes_scheduleEntry t pos).imp fun u hu => ht.trans hu

/-- The confirm of a beacon notes when its transmission ended. -/
theorem post_endBeacon_outgoing (s : Mac) (h : StartsSuperframe .outgoing p s) :
    Post (endBeacon .outgoing p s) fun t =>
      t.sim.now = s.sim.now
        ∧ t.out.macBeaconTxTime = s.sim.now - milliSeconds (frameSymbols p.size)
        ∧ t.out.beaconStartTxTime = s.out.beaconStartTxTime := by
  obtain ⟨htx, hslotted, _⟩ := h.outgoing rfl
  have hack : p.hdr.isAcknowledgment = false := (frmType_of_isBeacon h.isBeacon).2.2
  have hend (t : Mac) (n : ℕ) :
      (t.endPdDataConfirm n).sim.now = t.sim.now ∧ (t.endPdDataConfirm n).out = t.out := by
    unfold endPdDataConfirm leaveSending waitIfs
    split
    · split <;> exact ⟨rfl, rfl⟩
    · split <;> exact ⟨rfl, rfl⟩
  have hstart (t : Mac) : Post t.startOutgoingSuperframe fun u =>
      u.sim.now = t.sim.now ∧ u.out.macBeaconTxTime = t.out.macBeaconTxTime
        ∧ u.out.beaconStartTxTime = t.out.beaconStartTxTime := by
    unfold startOutgoingSuperframe
    split
    · refine post_bind fun r _ => ?_
      split
      · exact ⟨rfl, rfl, rfl⟩
      · exact ⟨rfl, rfl, rfl⟩
    · exact ⟨rfl, rfl, rfl⟩
  have hconfirm (t : Mac) : (t.confirmStart true).sim = t.sim
      ∧ (t.confirmStart true).out = t.out := by
    unfold confirmStart
    split
    · exact ⟨rfl, rfl⟩
    · exact ⟨rfl, rfl⟩
  unfold endBeacon pdDataConfirm
  dsimp only
  split
  · trivial
  · rw [htx]
    dsimp only
    rw [if_pos rfl]
    unfold frameSent beaconSent
    simp only [hack, h.isBeacon, hslotted, if_true, Bool.false_eq_true, if_false]
    apply wp_of_bind
    refine (sameTimes_scheduleGtsInMac _ _).bind fun t ht => ?_
    refine (hstart t).bind fun u hu => ?_
    refine ⟨?_, ?_, ?_⟩
    · rw [(hend _ _).1]
      show (u.confirmStart true).sim.now = s.sim.now
      rw [(hconfirm u).1, hu.1, ht.now]
      rfl
    · rw [(hend _ _).2]
      show (u.confirmStart true).out.macBeaconTxTime = _
      rw [(hconfirm u).2, hu.2.1, ht.out]
      rfl
    · rw [(hend _ _).2]
      show (u.confirmStart true).out.beaconStartTxTime = _
      rw [(hconfirm u).2, hu.2.2, ht.out]
      rfl

theorem sameTimes_scheduleFirstBeacon : Post s.scheduleFirstBeacon (SameTimes s) := by
  unfold scheduleFirstBeacon
  split
  · refine sameTimes_seq (sameTimes_schedule _ _ _ _ _) fun t => ?_
    refine sameTimes_seq (sameTimes_schedule _ _ _ _ _) fun u => ?_
    exact ⟨rfl, rfl, rfl, rfl⟩
  · exact SameTimes.refl s

theorem sameTimes_startIncomingMultisuperframe :
    Post s.startIncomingMultisuperframe (SameTimes s) := by
  unfold startIncomingMultisuperframe
  split
  · refine post_bind fun r _ => ?_
    split
    · exact ⟨rfl, rfl, rfl, rfl⟩
    · exact SameTimes.refl s
  · exact SameTimes.refl s

theorem sameTimes_startIncomingSuperframe : Post s.startIncomingSuperframe (SameTimes s) := by
  unfold startIncomingSuperframe
  split
  · dsimp only
    split
    · exact ⟨rfl, rfl, rfl, rfl⟩
    · split
      · exact ⟨rfl, rfl, rfl, rfl⟩
      · refine post_bind fun r _ => ?_
        split
        · exact ⟨rfl, rfl, rfl, rfl⟩
        · exact ⟨rfl, rfl, rfl, rfl⟩
  · exact ⟨rfl, rfl, rfl, rfl⟩

theorem sameTimes_noteSyncParent (beaconTimeStamp : BitVec 64) :
    SameTimes s (s.noteSyncParent p beaconTimeStamp) := by
  unfold noteSyncParent
  split
  · exact ⟨rfl, rfl, rfl, rfl⟩
  · exact SameTimes.refl s

theorem sameTimes_scheduleGtsOnBeacon : Post (s.scheduleGtsOnBeacon p) (SameTimes s) := by
  unfold scheduleGtsOnBeacon
  split
  · exact sameTimes_scheduleGtsInMac _ _
  · exact SameTimes.refl s

theorem sameTimes_receiveOwnPanBeacon (spec : SuperframeField) (beaconTimeStamp : BitVec 64) :
    Post (s.receiveOwnPanBeacon p spec beaconTimeStamp) (SameTimes s) := by
  unfold receiveOwnPanBeacon
  have hspec : SameTimes s (s.csmaCancel.receiveSuperframe spec) := ⟨rfl, rfl, rfl, rfl⟩
  refine sameTimes_seq ?_ fun t => ?_
  · exact (sameTimes_startIncomingMultisuperframe _).imp fun t ht => hspec.trans ht
  · refine sameTimes_seq ?_ fun u => ?_
    · exact (sameTimes_scheduleFirstBeacon _).imp fun u hu =>
        (sameTimes_noteSyncParent t p beaconTimeStamp).trans hu
    · have hpurge : SameTimes u u.purgeDsmeACT := ⟨rfl, rfl, rfl, rfl⟩
      refine sameTimes_seq ?_ fun v => sameTimes_startIncomingSuperframe v
      exact (sameTimes_scheduleGtsOnBeacon _ _).imp fun v hv => hpurge.trans hv

theorem sameTimes_notifyBeacon (sduLength : ℕ) :
    SameTimes s (s.notifyBeacon p sduLength) := by
  have hpayload : SameTimes s (s.notifyPayload p sduLength) := by
    unfold notifyPayload
    split
    · exact ⟨rfl, rfl, rfl, rfl⟩
    · exact SameTimes.refl s
  have htracking (t : Mac) : SameTimes t t.keepTracking := by
    unfold keepTracking
    split
    · dsimp only
      split
      · exact ⟨rfl, rfl, rfl, rfl⟩
      · exact ⟨rfl, rfl, rfl, rfl⟩
    · exact SameTimes.refl t
  unfold notifyBeacon
  split
  · exact hpayload.trans (htracking _)
  · exact SameTimes.refl s

theorem sameTimes_readBeacon (spec : SuperframeField) (ie : Option DsmePANDescriptorIE) :
    Post (s.readBeacon p spec ie) fun r => SameTimes s r.1 := by
  unfold readBeacon
  split
  · split
    · exact ⟨rfl, rfl, rfl, rfl⟩
    · trivial
  · exact SameTimes.refl s

/-- Behind the note of its arrival a beacon changes the times no more. -/
theorem sameTimes_receiveBeacon :
    Post (s.receiveBeacon p) fun r => SameTimes (s.noteBeacon p) r.1 := by
  unfold receiveBeacon
  split
  · rename_i spec ie sduLength _
    refine (sameTimes_readBeacon (s.noteBeacon p) p spec ie).bind ?_
    rintro ⟨t, spec', beaconTimeStamp⟩ ht
    dsimp only at ht ⊢
    split
    · apply wp_of_bind
      refine (sameTimes_receiveOwnPanBeacon t p spec' beaconTimeStamp).imp fun u hu => ?_
      exact ht.trans (hu.trans (sameTimes_notifyBeacon u p sduLength))
    · split
      · exact ht
      · exact ht.trans (sameTimes_notifyBeacon t p sduLength)
  · trivial

/-- The reception of a beacon notes its airtime and when it ended. -/
theorem post_endBeacon_incoming (s : Mac) (h : StartsSuperframe .incoming p s) :
    Post (endBeacon .incoming p s) fun t =>
      t.sim.now = s.sim.now
        ∧ t.inc.macBeaconRxTime = s.sim.now - milliSeconds (frameSymbols p.size)
        ∧ t.inc.rxBeaconSymbols = frameSymbols p.size := by
  unfold endBeacon pdDataIndication
  dsimp only
  split
  · trivial
  · rw [if_pos rfl, acceptAllHilow_of_isBeacon s h.isBeacon, if_pos (h.incoming rfl).1]
    refine post_receiveFrame_of_isBeacon s _ h.isBeacon ?_
    exact (sameTimes_receiveBeacon s p).imp fun r hr =>
      ⟨hr.now, hr.macBeaconRxTime, hr.rxBeaconSymbols⟩

/-! ## The ends never agree -/

/-- An outgoing CAP ends, for CSMA-CA, after `StartCFP`, by the time the beacon took. -/
theorem startCFP_lt_capEnd {p : Packet} {s t u v w : Mac} (h : Superframe .outgoing p s t u v w) :
    ∃ x, v.sim.held .capEvent = [(.startCFP .outgoing, x)]
      ∧ x + calculateTxTime p ≤ capEnd w := by
  obtain ⟨hnow, htx, hstart⟩ := (post_endBeacon_outgoing p s h.starts).of_eq_ok h.beacon
  obtain ⟨hsame, hheld⟩ := (held_startCAP_outgoing u).of_eq_ok h.startCAP
  refine ⟨_, hheld, ?_⟩
  have hair := (h.starts.outgoing rfl).2.2
  obtain ⟨htu, hstu, -, -⟩ := h.sameCap
  obtain ⟨huv, -, hdur, hfnl⟩ := hsame
  obtain ⟨hvw, -, hdur', hfnl'⟩ := h.same
  have hcap : capEnd w = s.sim.now
      + symbols (capDuration u.out.superframeDuration u.out.fnlCapSlot) := by
    rw [capEnd_outgoing w h.contends, hvw, huv, htu, htx, hdur', hdur, hfnl', hfnl,
      milliSeconds_frameSymbols _ h.starts.size]
    omega
  rw [hcap, h.now, hnow, htu, htx, hstu, hstart, milliSeconds_frameSymbols _ h.starts.size]
  omega

/-- An incoming CAP has, for CSMA-CA, its full length behind the end of the beacon. -/
theorem capEnd_of_incoming {p : Packet} {s t u v w : Mac} (h : Superframe .incoming p s t u v w) :
    v.sim.held .incCapEvent = [(.startCFP .incoming, u.sim.now + symbols (incomingCapTime u))]
      ∧ u.inc.rxBeaconSymbols = frameSymbols p.size
      ∧ capEnd w = u.sim.now + symbols (capDuration u.inc.incomingSuperframeDuration
          u.inc.incomingFnlCapSlot) := by
  obtain ⟨hnow, hrx, hsymbols⟩ := (post_endBeacon_incoming p s h.starts).of_eq_ok h.beacon
  obtain ⟨hsame, hheld⟩ := (held_startCAP_incoming u).of_eq_ok h.startCAP
  obtain ⟨htu, hstu, -, -⟩ := h.sameCap
  obtain ⟨huv, -, hdur, hfnl⟩ := hsame
  obtain ⟨hvw, -, hdur', hfnl'⟩ := h.same
  refine ⟨hheld, hstu.trans hsymbols, ?_⟩
  rw [capEnd_incoming w h.contends, hvw, huv, htu, hrx, hdur', hdur, hfnl', hfnl,
    milliSeconds_frameSymbols _ h.starts.size, h.now, hnow]
  omega

/-- The unsigned difference that ends the incoming CAP is not the length of the CAP. -/
theorem incomingCapTime_ne (u : Mac) (size : ℕ) (hsize : size ≤ aMaxPhyPacketSize)
    (h : u.inc.rxBeaconSymbols = frameSymbols size) :
    incomingCapTime u
      ≠ capDuration u.inc.incomingSuperframeDuration u.inc.incomingFnlCapSlot := by
  unfold aMaxPhyPacketSize at hsize
  have hpos := frameSymbols_pos size
  have hlt : frameSymbols size < 2 ^ 64 := by
    unfold frameSymbols phySHRDuration phySymbolsPerOctet
    omega
  unfold incomingCapTime difference
  rw [h]
  split
  · dsimp only
    omega
  · dsimp only
    unfold unsignedSub
    omega

/-- **The two ends of the CAP never agree.**  In every superframe, outgoing on a coordinator or
incoming on a device, the `StartCFP` that `StartCAP` schedules comes at another time than the
end of the CAP that CSMA-CA computes. -/
theorem not_agrees {superframeType : SuperframeType} {p : Packet} {s t u v w : Mac}
    (h : Superframe superframeType p s t u v w) : ¬ Agrees superframeType v w := by
  intro hagrees
  cases superframeType with
  | outgoing =>
    obtain ⟨x, hheld, hx⟩ := startCFP_lt_capEnd h
    have hair := calculateTxTime_pos p
    have heq := hheld.symm.trans hagrees
    simp only [List.cons.injEq, Prod.mk.injEq, true_and, and_true] at heq
    omega
  | incoming =>
    obtain ⟨hheld, hsymbols, hcap⟩ := capEnd_of_incoming h
    have hne := incomingCapTime_ne u p.size h.starts.size hsymbols
    have heq := hheld.symm.trans hagrees
    simp only [List.cons.injEq, Prod.mk.injEq, true_and, and_true] at heq
    rw [hcap] at heq
    unfold symbols at heq
    omega

/-- A beacon with 30 octets. -/
def shortBeacon : Packet where
  hdr := { frmType := .beacon }
  body := .beacon {} none 0
  size := 30
  uid := 0

/-- A coordinator at the end of the transmission of that beacon, which started at time 0. -/
def sendingBeacon : Mac where
  sim := ⟨1152000, []⟩
  macState := .macSending
  tx := { txPkt := some shortBeacon }
  role := { coord := true }
  out := { superframeDuration := 7680, fnlCapSlot := 8 }
  csma := { isSlotted := true }

/-- The beacon ends and `StartCAP` runs, on a coordinator outside an incoming superframe. -/
def startsCAP (s : Mac) : Bool :=
  match s.pdDataConfirm .phySuccess with
  | .ok t =>
    match t.startCAP .outgoing with
    | .ok v => v.role.coord && !v.csma.incCsma
    | .error _ => false
  | .error _ => false

/-- The superframe of that coordinator. -/
theorem sendingBeacon_not_agrees :
    ∃ t v, Superframe .outgoing shortBeacon sendingBeacon t t v v ∧ ¬ Agrees .outgoing v v := by
  have hstarts : startsCAP sendingBeacon = true := by decide +kernel
  unfold startsCAP at hstarts
  split at hstarts
  · rename_i t hbeacon
    split at hstarts
    · rename_i v hcap
      rw [Bool.and_eq_true, Bool.not_eq_true'] at hstarts
      have hsuperframe : Superframe .outgoing shortBeacon sendingBeacon t t v v :=
        { starts := ⟨rfl, by decide, fun _ => ⟨rfl, rfl, by decide⟩, nofun⟩
          beacon := hbeacon
          sameCap := ⟨rfl, rfl, rfl, rfl⟩
          now := rfl
          startCAP := hcap
          same := ⟨rfl, rfl, rfl, rfl⟩
          contends := hstarts }
      exact ⟨t, v, hsuperframe, not_agrees hsuperframe⟩
    · cases hstarts
  · cases hstarts

/-! ## Transactions that reach into the CFP -/

/-- A coordinator of the PAN that is not started yet. -/
def coordinator : Mac where
  cfg := { shortAddress := 1, macDSMEenabled := true }
  role := { coord := true }

/-- MLME-START, the beacon, `StartCAP`, and near the end of the CAP a data request with its
backoff up to `CanProceed`. -/
def capRun : List Input :=
  [⟨.mlmeStartRequest
      { panId := 7, bcnOrd := 6, sfrmOrd := 3, panCoor := true
        dsmeSuperframeSpec := { multiSuperframeOrder := 5 }
        bcnBitmap := { sdIndex := 0, sdBitmapLen := 1, sdBitmap := [1] } } true true, {}⟩,
    ⟨.fire 0, {}⟩, ⟨.fire 0, { trx := [some .phyTxOn] }⟩, ⟨.fire 2, {}⟩, ⟨.fire 2, {}⟩,
    ⟨.fire 3, {}⟩, ⟨.fire 2, {}⟩, ⟨.tick 67200000, {}⟩,
    ⟨.mcpsDataRequest { dstAddr := 2, txOptionDirect := true, msdu := List.replicate 10 0 }, {}⟩,
    ⟨.fire 3, { trx := [some .phyRxOn] }⟩, ⟨.fire 3, {}⟩, ⟨.fire 3, {}⟩]

/-- A transaction was accepted that ends after the pending `StartCFP`. -/
def acceptedIntoCfp (s : Mac) : Bool :=
  match s.sim.held .capEvent, s.sim.held .requestCcaEvent, s.tx.txPkt with
  | [(.startCFP .outgoing, x)], [(.requestCCA, y)], some q =>
    decide (x ≠ capEnd s) && decide (x < y + symbols (transactionSymbols s.csma.cw q))
  | _, _, _ => false

/-- A coordinator accepts a transaction that does not end before the CFP begins. -/
theorem exists_run_accepts_into_cfp :
    ∃ t x y q, machine.Run (fun _ _ => True) coordinator capRun t
      ∧ t.sim.held .capEvent = [(.startCFP .outgoing, x)] ∧ x ≠ capEnd t
      ∧ t.tx.txPkt = some q ∧ t.sim.held .requestCcaEvent = [(.requestCCA, y)]
      ∧ x < y + symbols (transactionSymbols t.csma.cw q) := by
  have hexec : (machine.exec (fun _ _ => true) coordinator capRun).any acceptedIntoCfp
      = true := by decide +kernel
  obtain ⟨t, hrun, ht⟩ := Machine.exists_run_of_exec _ _ _ _ hexec
  unfold acceptedIntoCfp at ht
  split at ht
  · rename_i x y q hcap hcca hq
    obtain ⟨hne, hlate⟩ := Bool.and_eq_true_iff.mp ht
    exact ⟨t, x, y, q, hrun.mono fun _ _ _ => trivial, hcap, of_decide_eq_true hne, hq, hcca,
      of_decide_eq_true hlate⟩
  · cases ht

end Ns3Dsme.EndOfCap
