/-
# Confirms of data requests

A data request is confirmed when its frame does not fit into the transmit queue, when the PHY
has sent it, or when a group acknowledgment comes for it.  The handle of the confirm is taken
from three different places: from the request, from the front of the transmit queue, and from
the last data request.  The ledger below notes which frame each confirm is about.
-/
import Ns3Dsme.LrWpan.Footprint
import Mathlib.Data.List.Nodup

open List Program Program.Views

namespace Ns3Dsme.Confirms

open Mac

/-! ## The ledger -/

/-- The data requests of a run and their confirms, each as a frame with a handle. -/
structure Ledger where
  /-- The frame that was made of every MSDU, with the handle of the MSDU. -/
  requests : List (Packet × ℕ) := []
  /-- The frames that wait for a group acknowledgment, in the order of the buffer. -/
  awaiting : List Packet := []
  /-- The frame whose fate a confirm reports, with the handle it carries. -/
  confirms : List (Packet × ℕ) := []

/-- The handle of a confirm. -/
def handle : Output → Option ℕ
  | .mcpsDataConfirm msduHandle _ => some msduHandle
  | _ => none

/-- The handles of all confirms so far. -/
def handles (s : Mac) : List ℕ := s.trace.filterMap handle

/-- The handles of the confirms of one step. -/
def newHandles (s t : Mac) : List ℕ := (handles t).drop (handles s).length

/-- The frame that the end of a transmission reports as sent. -/
def reportedFrame (s : Mac) (answers : PhyAnswers) : Option Packet :=
  if answers.endTx = some .phySuccess then s.tx.txPkt else none

/-- The frame that a pending event reports as sent. -/
def sentFrame (s : Mac) (answers : PhyAnswers) (n : ℕ) : Option Packet :=
  match s.sim.pending[n]? with
  | some e =>
    match e.event with
    | .endTx => reportedFrame s answers
    | _ => none
  | none => none

/-- A frame that is neither a group acknowledgment nor a beacon and asks for no acknowledgment:
the front of the transmit queue is confirmed when it was sent. -/
def confirmsFront (p : Packet) : Bool :=
  !p.hdr.isAcknowledgment && !p.hdr.isBeacon && !p.hdr.ackReq

/-- A data frame that is buffered for the group acknowledgment when it was sent. -/
def awaitsGroupAck (s : Mac) (p : Packet) : Bool :=
  p.hdr.isData && p.hdr.ackReq && s.gtsRunning
    && (s.cfg.groupAckPolicy == .groupAckEnhanced || s.cfg.groupAckPolicy == .groupAckLegacy)

/-- What a device makes of a frame that acknowledges some of the buffered ones. -/
def groupAckVerdicts (s : Mac) (p : Packet) : Option (List Bool) :=
  if p.hdr.isAcknowledgment && p.hdr.ieListPresent then
    match s.cfg.groupAckPolicy, p.body with
    | .groupAckEnhanced, .enhancedGroupAck groupAckBitmap =>
      if groupAckBitmap = 0 then none
      else
        (s.gack.enhancedVerdicts s.cfg.hash64 s.cfg.shortAddress groupAckBitmap).toOption
    | .groupAckLegacy, .legacyGroupAck gackBitmap _ _ _ =>
      if gackBitmap = 0 then none else some (s.gack.legacyVerdicts gackBitmap)
    | _, _ => none
  else none

/-- The buffered frames that count as acknowledged. -/
def Ledger.acknowledged (b : Ledger) (verdicts : List Bool) : List Packet :=
  ((b.awaiting.zip verdicts).filter Prod.snd).map Prod.fst

/-- Note the confirms of a step with the frames they are about. -/
def Ledger.confirm (b : Ledger) (frames : List Packet) (s t : Mac) : Ledger :=
  { b with confirms := b.confirms ++ frames.zip (newHandles s t) }

/-- Note that a frame was sent. -/
def Ledger.sent (b : Ledger) (p : Packet) (s t : Mac) : Ledger :=
  { b.confirm [p] s t with
    awaiting := if awaitsGroupAck s p then b.awaiting ++ [p] else b.awaiting }

/-- Keep the ledger. -/
def record (b : Ledger) (s : Mac) (i : Input) (t : Mac) : Ledger :=
  match i.action with
  | .mcpsDataRequest params =>
    { b.confirm [s.dataFrame params] s t with
      requests := b.requests ++ [(s.dataFrame params, params.msduHandle)] }
  | .pdDataIndication p fcsOk =>
    if fcsOk && s.acceptFrame p then
      match groupAckVerdicts s p with
      | some verdicts => { b.confirm (b.acknowledged verdicts) s t with awaiting := [] }
      | none => b
    else b
  | .fire n =>
    match sentFrame s i.answers n with
    | some p => b.sent p s t
    | none => b
  | _ => b

/-- The confirms are right: each names the MSDU whose fate it reports, and no MSDU is confirmed
twice. -/
structure Right (b : Ledger) (t : Mac) : Prop where
  /-- The ledger has the confirms of the run. -/
  handles : handles t = b.confirms.map Prod.snd
  /-- A frame belongs to one MSDU. -/
  requests : (b.requests.map Prod.fst).Nodup
  named : ∀ c ∈ b.confirms, c ∈ b.requests
  once : (b.confirms.map Prod.fst).Nodup

/-- Group acknowledgments are reported to the next higher layer. -/
def reportsGroupAcks (s : Mac) : Prop :=
  s.cfg.mcpsDataConfirmCallback = true ∧ s.cfg.forDsmeNetDeviceIntegrateWithHigerLayer = false

/-- When a step confirms no wrong MSDU: a frame that was sent and asks for no acknowledgment is
the front of the transmit queue; a frame that was sent and is buffered was neither buffered nor
confirmed before; and the last data request had the handle of the frames that a group
acknowledgment acknowledges. -/
def Orderly (c : Ledger × Mac) (i : Input) : Prop :=
  match i.action with
  | .pdDataIndication p fcsOk =>
    fcsOk = true → c.2.acceptFrame p = true → reportsGroupAcks c.2 →
      ∀ verdicts, groupAckVerdicts c.2 p = some verdicts →
        ∀ q ∈ c.1.acknowledged verdicts, (q, c.2.tx.msduHandle) ∈ c.1.requests
  | .fire n =>
    ∀ p, sentFrame c.2 i.answers n = some p →
      (confirmsFront p = true → c.2.front = some p)
      ∧ (awaitsGroupAck c.2 p = true → p ∉ c.1.awaiting ∧ p ∉ c.1.confirms.map Prod.fst)
  | _ => True

/-! ## The invariant -/

/-- The number of frames in the buffer that is in use. -/
def buffered (s : Mac) : ℕ :=
  match s.cfg.groupAckPolicy with
  | .groupAckEnhanced => s.gack.groupAckPktBuffer.length
  | .groupAckLegacy => s.gack.legacyGackGTSIdxBuffer.length
  | _ => 0

/-- What holds between the ledger and the device. -/
structure Inv (b : Ledger) (s : Mac) : Prop extends Right b s where
  uid : ∀ r ∈ b.requests, r.1.uid < s.tx.nextUid
  txPkt : ∀ p, s.tx.txPkt = some p → p.uid < s.tx.nextUid
  queue : ∀ el ∈ s.tx.txQueue, (el.txQPkt, el.txQMsduHandle) ∈ b.requests
  queueNodup : (s.tx.txQueue.map TxQueueElement.txQPkt).Nodup
  queued : ∀ el ∈ s.tx.txQueue, el.txQPkt.hdr.ackReq = false →
    el.txQPkt ∉ b.confirms.map Prod.fst
  awaiting : ∀ p ∈ b.awaiting, p.hdr.ackReq = true ∧ p.uid < s.tx.nextUid
    ∧ p ∉ b.confirms.map Prod.fst
  awaitingNodup : b.awaiting.Nodup
  awaitingLength : buffered s = b.awaiting.length

/-! ## What leaves the confirms alone -/

/-- The handles are all that confirms are read for. -/
theorem handles_congr {s t : Mac}
    (h : t.trace.filter Output.isConfirm = s.trace.filter Output.isConfirm) :
    handles t = handles s := by
  have hfilter (os : List Output) :
      os.filterMap handle = (os.filter Output.isConfirm).filterMap handle := by
    rw [filterMap_filter]
    refine filterMap_congr fun o _ => ?_
    cases o <;> rfl
  unfold handles
  rw [hfilter t.trace, hfilter s.trace, h]

theorem newHandles_append {s t : Mac} {hs : List ℕ} (h : handles t = handles s ++ hs) :
    newHandles s t = hs := by
  unfold newHandles
  rw [h, drop_left]

theorem newHandles_eq_nil {s t : Mac} (h : handles t = handles s) : newHandles s t = [] :=
  newHandles_append (h.trans (append_nil _).symm)

/-- A step without confirms leaves the ledger alone. -/
theorem Ledger.confirm_nil (b : Ledger) (frames : List Packet) {s t : Mac}
    (h : handles t = handles s) : b.confirm frames s t = b := by
  unfold Ledger.confirm
  rw [newHandles_eq_nil h, zip_nil_right, append_nil]

variable {b : Ledger} {s : Mac} {p : Packet}

/-- Packets may get into transmission, as long as they have a number. -/
theorem Inv.congr {s t : Mac} (hs : Inv b s) (hqueue : t.tx.txQueue = s.tx.txQueue)
    (huid : s.tx.nextUid ≤ t.tx.nextUid) (htxPkt : ∀ p, t.tx.txPkt = some p → p.uid < t.tx.nextUid)
    (hhandles : handles t = handles s) (hbuffered : buffered t = buffered s) :
    Inv b t := by
  refine ⟨⟨hhandles.trans hs.handles, hs.requests, hs.named, hs.once⟩,
    fun r hr => Nat.lt_of_lt_of_le (hs.uid r hr) huid, htxPkt, ?_, ?_, ?_, fun p hp => ?_,
    hs.awaitingNodup, hbuffered.trans hs.awaitingLength⟩
  · rw [hqueue]
    exact hs.queue
  · rw [hqueue]
    exact hs.queueNodup
  · rw [hqueue]
    exact hs.queued
  · obtain ⟨hack, hlt, hconfirm⟩ := hs.awaiting p hp
    exact ⟨hack, Nat.lt_of_lt_of_le hlt huid, hconfirm⟩

theorem buffered_congr {s t : Mac} (hcfg : t.cfg = s.cfg) (haccounts : t.accounts = s.accounts) :
    buffered t = buffered s := by
  unfold buffered
  rw [hcfg, show t.gack.groupAckPktBuffer = s.gack.groupAckPktBuffer from
      congrArg Mac.Accounts.groupAckPktBuffer haccounts,
    show t.gack.legacyGackGTSIdxBuffer = s.gack.legacyGackGTSIdxBuffer from
      congrArg Mac.Accounts.legacyGackGTSIdxBuffer haccounts]

/-- The packet in transmission is none, the same one or the front of the queue. -/
theorem inv_of_keeps {touched : List View} {s t : Mac} (h : views.Keeps touched s t)
    (hapart : ∀ v ∈ [View.transmit, .confirms, .config], v ∉ touched) (hs : Inv b s) :
    Inv b t := by
  have htx : s.Transmits t := h .transmit (hapart _ (by simp))
  obtain ⟨haccounts, hlog⟩ := h .confirms (hapart _ (by simp))
  refine hs.congr htx.txQueue htx.nextUid.ge (fun p hp => ?_) (handles_congr hlog)
    (buffered_congr (h .config (hapart _ (by simp))) haccounts)
  rw [htx.nextUid]
  rcases htx.txPkt with ht | ht | ht
  · rw [ht] at hp
    cases hp
  · exact hs.txPkt p (ht.symm.trans hp)
  · obtain ⟨el, hel, rfl⟩ := Option.map_eq_some_iff.mp (ht.symm.trans hp)
    exact hs.uid _ (hs.queue el (mem_of_head? hel))

theorem inv_of_touches {touched : List View} {x : Exec Mac} (h : Post x (views.Keeps touched s))
    (hapart : ∀ v ∈ [View.transmit, .confirms, .config], v ∉ touched) (hs : Inv b s) :
    Post x (Inv b) :=
  h.imp fun _ ht => inv_of_keeps ht hapart hs

/-- Right confirms are added to the ledger. -/
theorem Inv.append {t u : Mac} (ht : Inv b t) (cs : List (Packet × ℕ)) (htx : u.tx = t.tx)
    (hgack : u.gack = t.gack) (hcfg : u.cfg = t.cfg)
    (hhandles : handles u = handles t ++ cs.map Prod.snd) (hnamed : ∀ c ∈ cs, c ∈ b.requests)
    (honce : (cs.map Prod.fst).Nodup)
    (hfresh : ∀ p ∈ cs.map Prod.fst, p ∉ b.confirms.map Prod.fst ∧ p ∉ b.awaiting
      ∧ ∀ el ∈ t.tx.txQueue, el.txQPkt = p → p.hdr.ackReq = true) :
    Inv { b with confirms := b.confirms ++ cs } u := by
  refine ⟨⟨?_, ht.requests, fun c hc => ?_, ?_⟩, ?_, ?_, ?_, ?_, fun el hel hack => ?_,
    fun p hp => ?_, ht.awaitingNodup, ?_⟩
  · rw [hhandles, ht.handles]
    exact map_append.symm
  · exact (mem_append.mp hc).elim (ht.named c) (hnamed c)
  · show ((b.confirms ++ cs).map Prod.fst).Nodup
    rw [map_append]
    refine nodup_append.mpr ⟨ht.once, honce, fun p hp q hq => ?_⟩
    rintro rfl
    exact (hfresh p hq).1 hp
  · rw [htx]
    exact ht.uid
  · rw [htx]
    exact ht.txPkt
  · rw [htx]
    exact ht.queue
  · rw [htx]
    exact ht.queueNodup
  · rw [htx] at hel
    show el.txQPkt ∉ (b.confirms ++ cs).map Prod.fst
    rw [map_append, mem_append, not_or]
    refine ⟨ht.queued el hel hack, fun hmem => ?_⟩
    rw [(hfresh _ hmem).2.2 el hel rfl] at hack
    cases hack
  · obtain ⟨hack, huid, hconfirm⟩ := ht.awaiting p hp
    refine ⟨hack, by rw [htx]; exact huid, ?_⟩
    show p ∉ (b.confirms ++ cs).map Prod.fst
    rw [map_append, mem_append, not_or]
    exact ⟨hconfirm, fun hmem => (hfresh p hmem).2.1 hp⟩
  · refine Eq.trans ?_ ht.awaitingLength
    unfold buffered
    rw [hcfg, hgack]

/-! ## Data requests -/

/-- The ledger after a step without confirms. -/
theorem Inv.confirm_nil {b c : Ledger} {s t : Mac} (hs : Right b s) (ht : Inv c t)
    (hsame : c.confirms = b.confirms) (frames : List Packet) :
    Inv (c.confirm frames s t) t := by
  rw [c.confirm_nil frames (ht.handles.trans ((congrArg _ hsame).trans hs.handles.symm))]
  exact ht

/-- A new data request has a frame of its own. -/
theorem dataFrame_not_mem (hs : Inv b s) (params : Mac.McpsDataRequestParams) :
    s.dataFrame params ∉ b.requests.map Prod.fst := by
  intro hmem
  obtain ⟨r, hr, heq⟩ := mem_map.mp hmem
  have huid := hs.uid r hr
  rw [heq] at huid
  exact Nat.lt_irrefl _ huid

/-- The request is noted, whatever becomes of its frame. -/
theorem inv_request (hs : Inv b s) (params : Mac.McpsDataRequestParams) :
    Inv { b with requests := b.requests ++ [(s.dataFrame params, params.msduHandle)] }
      { s with tx := { s.tx with
        msduHandle := params.msduHandle, macDsn := s.tx.macDsn + 1
        nextUid := s.tx.nextUid + 1 } } := by
  have hfresh := dataFrame_not_mem hs params
  refine ⟨⟨hs.handles, ?_, fun c hc => mem_append_left _ (hs.named c hc), hs.once⟩, ?_, ?_,
    fun el hel => mem_append_left _ (hs.queue el hel), hs.queueNodup, hs.queued, ?_,
    hs.awaitingNodup, hs.awaitingLength⟩
  · rw [map_append]
    refine nodup_append.mpr ⟨hs.requests, nodup_singleton _, fun p hp q hq => ?_⟩
    rw [mem_singleton.mp hq]
    rintro rfl
    exact hfresh hp
  · intro r hr
    rcases mem_append.mp hr with hr | hr
    · exact Nat.lt_succ_of_lt (hs.uid r hr)
    · rw [mem_singleton.mp hr]
      exact Nat.lt_succ_self _
  · exact fun p hp => Nat.lt_succ_of_lt (hs.txPkt p hp)
  · intro p hp
    obtain ⟨hack, huid, hconfirm⟩ := hs.awaiting p hp
    exact ⟨hack, Nat.lt_succ_of_lt huid, hconfirm⟩

/-- A request whose frame is queued, or refused with a confirm. -/
theorem inv_enqueueTxQElement {s t : Mac} (el : TxQueueElement) (hs : Right b s)
    (ht : Inv { b with requests := b.requests ++ [(el.txQPkt, el.txQMsduHandle)] } t)
    (hfresh : el.txQPkt ∉ b.requests.map Prod.fst) (hawaiting : el.txQPkt ∉ b.awaiting)
    (hqueue : el.txQPkt ∉ t.tx.txQueue.map TxQueueElement.txQPkt) :
    Inv { b.confirm [el.txQPkt] s (t.enqueueTxQElement el) with
      requests := b.requests ++ [(el.txQPkt, el.txQMsduHandle)] } (t.enqueueTxQElement el) := by
  have hunconfirmed : el.txQPkt ∉ b.confirms.map Prod.fst := fun hmem => by
    obtain ⟨c, hc, heq⟩ := mem_map.mp hmem
    exact hfresh (mem_map.mpr ⟨c, hs.named c hc, heq⟩)
  have hhandles : handles t = handles s := ht.handles.trans hs.handles.symm
  have hrefused (u : Mac) : handles (u.emit (.macTxDrop el.txQPkt)) = handles u := by
    unfold handles
    rw [filterMap_append]
    exact append_nil _
  unfold enqueueTxQElement
  split
  · -- the frame is queued
    refine Inv.confirm_nil hs (c := { b with
      requests := b.requests ++ [(el.txQPkt, el.txQMsduHandle)] }) ?_ rfl _
    refine ⟨⟨?_, ht.requests, ht.named, ht.once⟩, ht.uid, ht.txPkt, fun el' hel => ?_, ?_,
      fun el' hel => ?_, ht.awaiting, ht.awaitingNodup, ht.awaitingLength⟩
    · refine Eq.trans ?_ ht.handles
      unfold handles
      rw [filterMap_append]
      exact append_nil _
    · rcases mem_append.mp hel with hel | hel
      · exact ht.queue el' hel
      · rw [mem_singleton.mp hel]
        exact mem_append_right _ (mem_singleton_self _)
    · show ((t.tx.txQueue ++ [el]).map TxQueueElement.txQPkt).Nodup
      rw [map_append]
      refine nodup_append.mpr ⟨ht.queueNodup, nodup_singleton _, fun p hp q hq => ?_⟩
      rw [mem_singleton.mp hq]
      rintro rfl
      exact hqueue hp
    · rcases mem_append.mp hel with hel | hel
      · exact ht.queued el' hel
      · rw [mem_singleton.mp hel]
        exact fun _ => hunconfirmed
  · dsimp only
    split
    · -- the queue is full, and the request is confirmed with its own handle
      have hnew : handles ((t.emit (.mcpsDataConfirm el.txQMsduHandle .transactionOverflow)).emit
          (.macTxDrop el.txQPkt)) = handles t ++ [el.txQMsduHandle] := by
        rw [hrefused]
        unfold handles
        rw [filterMap_append]
        rfl
      unfold Ledger.confirm
      rw [newHandles_append (hnew.trans (by rw [hhandles]))]
      refine ht.append [(el.txQPkt, el.txQMsduHandle)] rfl rfl rfl hnew ?_ ?_ ?_
      · simp
      · exact nodup_singleton _
      · intro p hp
        rw [map_singleton, mem_singleton] at hp
        subst hp
        exact ⟨hunconfirmed, hawaiting, fun el' hel heq => absurd
          (mem_map.mpr ⟨el', hel, heq⟩) hqueue⟩
    · refine Inv.confirm_nil hs (c := { b with
        requests := b.requests ++ [(el.txQPkt, el.txQMsduHandle)] }) ?_ rfl _
      exact ht.congr rfl (Nat.le_refl _) ht.txPkt (hrefused t) rfl

theorem inv_mcpsDataRequest (hs : Inv b s) (params : Mac.McpsDataRequestParams)
    (answers : PhyAnswers) :
    Post (mcpsDataRequest params { s with phy := answers }) fun t =>
      Inv (record b s ⟨.mcpsDataRequest params, answers⟩ t) t := by
  let b' : Ledger := { b with
    requests := b.requests ++ [(s.dataFrame params, params.msduHandle)] }
  let noted : Mac := { s with
    phy := answers
    tx := { s.tx with
      msduHandle := params.msduHandle, macDsn := s.tx.macDsn + 1
      nextUid := s.tx.nextUid + 1 } }
  have hnoted : Inv b' noted := by
    have h := inv_request hs params
    exact h.congr rfl (Nat.le_refl _) h.txPkt rfl rfl
  have hquiet (t : Mac) (ht : Inv b' t) :
      Inv (record b s ⟨.mcpsDataRequest params, answers⟩ t) t :=
    Inv.confirm_nil hs.toRight ht rfl _
  unfold mcpsDataRequest
  dsimp only
  split
  · split
    · have htx : Inv b' ((noted.setTxPkt (some (s.dataFrame params))).changeMacState
          .macGtsSending) := by
        refine hnoted.congr rfl (Nat.le_refl _) (fun p hp => ?_) rfl rfl
        cases hp
        exact Nat.lt_succ_self _
      exact (inv_of_touches (touches_plmeSetTRXStateRequest _).post (by simp)
        htx).imp hquiet
    · exact hquiet noted hnoted
  · split
    · exact hquiet noted hnoted
    · split
      · have hfresh := dataFrame_not_mem hs params
        have hqueue : s.dataFrame params ∉ noted.tx.txQueue.map TxQueueElement.txQPkt := by
          intro hmem
          obtain ⟨el, hel, heq⟩ := mem_map.mp hmem
          exact hfresh (mem_map.mpr ⟨_, hs.queue el hel, heq⟩)
        have hawaiting : s.dataFrame params ∉ b.awaiting := fun hmem =>
          Nat.lt_irrefl _ (hs.awaiting _ hmem).2.1
        have henqueued := inv_enqueueTxQElement ⟨params.msduHandle, s.dataFrame params⟩
          hs.toRight hnoted hfresh hawaiting hqueue
        have hcheck := keeps_checkQueue
          (noted.enqueueTxQElement ⟨params.msduHandle, s.dataFrame params⟩)
        have hlast := inv_of_keeps hcheck (by simp) henqueued
        have hsame : newHandles s (noted.enqueueTxQElement
              ⟨params.msduHandle, s.dataFrame params⟩).checkQueue
            = newHandles s (noted.enqueueTxQElement ⟨params.msduHandle, s.dataFrame params⟩) := by
          unfold newHandles
          rw [handles_congr (hcheck .confirms (by simp)).2]
        unfold Ledger.confirm at hlast
        rw [← hsame] at hlast
        exact hlast
      · exact hquiet noted hnoted

/-! ## Beacons and group acknowledgments -/

theorem inv_sendOneEnhancedBeacon (hs : Inv b s) :
    Post s.sendOneEnhancedBeacon (Inv b) := by
  have hreported (t : Mac) (p : Packet) (n : ℕ) : views.Keeps [.beacons] t
      ((t.emit (.enhancedBeacon p n)).changeMacState .macSending) :=
    Keeps.trans (keeps_emit t _ (by simp)) (keeps_changeMacState _ _ (by decide))
  unfold sendOneEnhancedBeacon
  split
  · trivial
  · split
    · trivial
    · split
      · exact hs
      · apply wp_of_bind
        refine (inv_of_touches (b := b) (touches_startBeaconPeriod _).post (by simp)
          ?_).imp fun t ht => ?_
        · refine hs.congr (s := s) rfl (Nat.le_succ _) (fun p hp => ?_) rfl rfl
          cases hp
          exact Nat.lt_succ_self _
        · refine inv_of_touches (touches_plmeSetTRXStateRequest _).post (by simp) ?_
          refine inv_of_keeps (hreported _ _ _) (by simp) ?_
          exact ht.congr (s := t) rfl (Nat.le_refl _) ht.txPkt rfl rfl

theorem inv_sendGroupAck (hs : Inv b s) (policy : LrWpanGroupAckPolicy) (body : FrameBody)
    (ieSize : ℕ) : Post (s.sendGroupAck policy body ieSize) (Inv b) := by
  unfold sendGroupAck
  split
  · trivial
  · split
    · trivial
    · split
      · exact hs
      · refine inv_of_touches (touches_plmeSetTRXStateRequest _).post (by simp) ?_
        refine hs.congr (s := s) rfl (Nat.le_succ _) (fun p hp => ?_) rfl rfl
        cases hp
        exact Nat.lt_succ_self _

/-! ## The end of a transmission -/

/-- A frame that is not buffered and not confirmed. -/
theorem inv_sent_of_not_awaits {s t : Mac} (hs : Right b s) (ht : Inv b t)
    (hawaits : awaitsGroupAck s p = false) : Inv (b.sent p s t) t := by
  unfold Ledger.sent
  rw [hawaits, if_neg (by decide)]
  exact Inv.confirm_nil hs ht rfl _

/-- A frame that is neither data nor a command is not buffered. -/
theorem awaitsGroupAck_of_not_data (h : p.hdr.isData = false) :
    awaitsGroupAck s p = false := by
  unfold awaitsGroupAck
  rw [h]
  rfl

/-- The buffer grows by the frames that are buffered. -/
theorem buffered_ackReqSent (s : Mac) (p : Packet) (hack : p.hdr.ackReq = true) :
    buffered (s.ackReqSent p) = buffered s + if awaitsGroupAck s p then 1 else 0 := by
  have hcfg : (s.ackReqSent p).cfg = s.cfg := keeps_ackReqSent s p .config (by simp)
  unfold buffered
  rw [hcfg, gack_ackReqSent]
  unfold awaitsGroupAck awaitGroupAck
  rw [hack]
  cases hpolicy : s.cfg.groupAckPolicy with
  | groupAckEnhanced =>
    cases hnoted : p.hdr.isData && s.gtsRunning with
    | true =>
      obtain ⟨hdata, hgts⟩ := Bool.and_eq_true_iff.mp hnoted
      simp [hdata, hgts, GroupAck.enhancedSent]
    | false =>
      rcases Bool.and_eq_false_iff.mp hnoted with h | h
      · simp [h]
      · simp [h]
  | groupAckLegacy =>
    cases hnoted : p.hdr.isData && s.gtsRunning with
    | true =>
      obtain ⟨hdata, hgts⟩ := Bool.and_eq_true_iff.mp hnoted
      simp [hdata, hgts, GroupAck.legacySent]
    | false =>
      rcases Bool.and_eq_false_iff.mp hnoted with h | h
      · simp [h]
      · simp [h]
  | _ => simp

/-- A frame that asks for an acknowledgment stays in transmission, and is buffered in a GTS. -/
theorem inv_ackReqSent (hs : Inv b s) (hack : p.hdr.ackReq = true) (htx : s.tx.txPkt = some p)
    (hawaits : awaitsGroupAck s p = true → p ∉ b.awaiting ∧ p ∉ b.confirms.map Prod.fst) :
    Inv (b.sent p s (ackReqSent p (s.emit (.pdDataSuccess p))))
      (ackReqSent p (s.emit (.pdDataSuccess p))) := by
  let t : Mac := ackReqSent p (s.emit (.pdDataSuccess p))
  obtain ⟨htx', htrace⟩ := tx_trace_ackReqSent (s.emit (.pdDataSuccess p)) p
  change t.tx = s.tx at htx'
  change t.trace = s.trace ++ [.pdDataSuccess p] at htrace
  have hhandles : handles t = handles s := by
    unfold handles
    rw [htrace, filterMap_append]
    exact append_nil _
  have hbuffered : buffered t = buffered s + if awaitsGroupAck s p then 1 else 0 :=
    buffered_ackReqSent (s.emit (.pdDataSuccess p)) p hack
  unfold Ledger.sent
  rw [b.confirm_nil [p] (t := t) hhandles]
  cases ha : awaitsGroupAck s p with
  | false =>
    rw [ha, if_neg (by decide)] at hbuffered
    rw [if_neg (by decide)]
    exact hs.congr (congrArg Tx.txQueue htx') (by rw [htx']) (by rw [htx']; exact hs.txPkt)
      hhandles hbuffered
  | true =>
    obtain ⟨hnew, hunconfirmed⟩ := hawaits ha
    rw [ha, if_pos rfl] at hbuffered
    rw [if_pos rfl]
    refine ⟨⟨hhandles.trans hs.handles, hs.requests, hs.named, hs.once⟩, ?_, ?_, ?_, ?_, ?_,
      fun q hq => ?_, ?_, ?_⟩
    · rw [htx']
      exact hs.uid
    · rw [htx']
      exact hs.txPkt
    · rw [htx']
      exact hs.queue
    · rw [htx']
      exact hs.queueNodup
    · rw [htx']
      exact hs.queued
    · rw [htx']
      rcases mem_append.mp hq with hq | hq
      · exact hs.awaiting q hq
      · rw [mem_singleton.mp hq]
        exact ⟨hack, hs.txPkt p htx, hunconfirmed⟩
    · refine nodup_append.mpr ⟨hs.awaitingNodup, nodup_singleton _, fun q hq r hr => ?_⟩
      rw [mem_singleton.mp hr]
      rintro rfl
      exact hnew hq
    · rw [hbuffered, hs.awaitingLength, length_append, length_singleton]

/-- `RemoveFirstTxQElement` confirms nothing. -/
theorem post_removeFirstTxQElement (s : Mac) (el : TxQueueElement) (rest : List TxQueueElement)
    (hqueue : s.tx.txQueue = el :: rest) :
    Post s.removeFirstTxQElement fun t =>
      t.tx = { s.tx with txQueue := rest, txPkt := none, retransmission := 0, numCsmacaRetry := 0 }
        ∧ t.gack = s.gack ∧ t.cfg = s.cfg ∧ handles t = handles s := by
  have htraced : views.Keeps [] s (s.traceSentPkt el.txQPkt) := keeps_traceSentPkt s _
  have hhandles := handles_congr (htraced .confirms (by simp)).2
  have hsame : (s.traceSentPkt el.txQPkt).tx = s.tx ∧ (s.traceSentPkt el.txQPkt).gack = s.gack := by
    unfold traceSentPkt
    split
    · exact ⟨rfl, rfl⟩
    · exact ⟨rfl, rfl⟩
  unfold removeFirstTxQElement
  rw [hqueue]
  refine ⟨?_, hsame.2, htraced .config (by simp), ?_⟩
  · dsimp only
    rw [hsame.1]
  · refine Eq.trans ?_ hhandles
    unfold handles
    rw [filterMap_append]
    exact append_nil _

/-- A frame without an acknowledgment is confirmed and leaves the queue. -/
theorem inv_frontSent (hs : Inv b s) (hack : p.hdr.ackReq = false) (hfront : s.front = some p) :
    Post (confirmFront (s.emit (.pdDataSuccess p)) >>= removeFirstTxQElement)
      fun t => Inv (b.sent p s t) t := by
  have hawaits : awaitsGroupAck s p = false := by
    unfold awaitsGroupAck
    simp [hack]
  obtain ⟨el, hel, rfl⟩ := Option.map_eq_some_iff.mp hfront
  obtain ⟨rest, hqueue⟩ : ∃ rest, s.tx.txQueue = el :: rest := List.head?_eq_some_iff.mp hel
  have hmem : el ∈ s.tx.txQueue := mem_of_head? hel
  have hnodup := hs.queueNodup
  rw [hqueue, map_cons, nodup_cons] at hnodup
  -- the queue without its front
  have hpopped : Inv b { s with tx := { s.tx with
      txQueue := rest, txPkt := none, retransmission := 0, numCsmacaRetry := 0 } } := by
    have hsub : ∀ el' ∈ rest, el' ∈ s.tx.txQueue := fun el' h => by
      rw [hqueue]
      exact mem_cons_of_mem _ h
    exact ⟨{ hs with }, hs.uid, (by simp),
      fun el' h => hs.queue el' (hsub el' h), hnodup.2, fun el' h => hs.queued el' (hsub el' h),
      hs.awaiting, hs.awaitingNodup, hs.awaitingLength⟩
  have hsuccess : handles (s.emit (.pdDataSuccess el.txQPkt)) = handles s := by
    unfold handles
    rw [filterMap_append]
    exact append_nil _
  apply wp_of_bind
  unfold confirmFront
  rw [show (s.emit (.pdDataSuccess el.txQPkt)).tx.txQueue = el :: rest from hqueue]
  split
  · refine (post_removeFirstTxQElement ((s.emit (.pdDataSuccess el.txQPkt)).emit
      (.mcpsDataConfirm el.txQMsduHandle .success)) el rest hqueue).imp fun t ht => ?_
    obtain ⟨htx, hgack, hcfg, hhandles⟩ := ht
    have hnew : handles t = handles s ++ [el.txQMsduHandle] := by
      rw [hhandles, ← hsuccess]
      unfold handles
      rw [filterMap_append]
      rfl
    unfold Ledger.sent Ledger.confirm
    rw [newHandles_append hnew, hawaits, if_neg (by decide)]
    refine hpopped.append [(el.txQPkt, el.txQMsduHandle)] htx hgack hcfg hnew ?_ ?_ ?_
    · intro c hc
      rw [mem_singleton.mp hc]
      exact hs.queue el hmem
    · exact nodup_singleton _
    · intro q hq
      rw [map_singleton, mem_singleton] at hq
      subst hq
      refine ⟨hs.queued el hmem hack, fun h => ?_, fun el' hel' heq => ?_⟩
      · rw [(hs.awaiting _ h).1] at hack
        cases hack
      · exact absurd (mem_map.mpr ⟨el', hel', heq⟩) hnodup.1
  · refine (post_removeFirstTxQElement (s.emit (.pdDataSuccess el.txQPkt)) el rest hqueue).imp
      fun t ht => ?_
    obtain ⟨htx, hgack, hcfg, hhandles⟩ := ht
    refine inv_sent_of_not_awaits hs.toRight ?_ hawaits
    refine hpopped.congr (by rw [htx]) (by rw [htx]) ?_
      (hhandles.trans hsuccess) ?_
    · rw [htx]
      simp
    · unfold buffered
      rw [hcfg, hgack]

/-- What a frame that was sent leaves in the ledger. -/
theorem inv_frameSent (hs : Inv b s) (htx : s.tx.txPkt = some p)
    (hfront : confirmsFront p = true → s.front = some p)
    (hawaits : awaitsGroupAck s p = true → p ∉ b.awaiting ∧ p ∉ b.confirms.map Prod.fst) :
    Post (frameSent p (s.emit (.pdDataSuccess p))) fun t => Inv (b.sent p s t) t := by
  have hsuccess : Inv b (s.emit (.pdDataSuccess p)) := by
    refine hs.congr rfl (Nat.le_refl _) hs.txPkt ?_ rfl
    unfold handles
    rw [filterMap_append]
    exact append_nil _
  have hend (t u : Mac) (h : views.Keeps [] t u) (ht : Inv (b.sent p s t) t) :
      Inv (b.sent p s u) u := by
    have hhandles := handles_congr (h .confirms (by simp)).2
    have hsame : b.sent p s u = b.sent p s t := by
      unfold Ledger.sent Ledger.confirm newHandles
      rw [hhandles]
    rw [hsame]
    exact inv_of_keeps h (by simp) ht
  unfold frameSent
  split
  · rename_i hack
    refine inv_sent_of_not_awaits hs.toRight ?_ (awaitsGroupAck_of_not_data ?_)
    · exact inv_of_keeps ((keeps_groupAckSent _ p).trans (keeps_endPdDataConfirm _ _)) (by simp)
        hsuccess
    · have htype : p.hdr.frmType = .acknowledgment := eq_of_beq hack
      unfold LrWpanMacHeader.isData
      rw [htype]
      rfl
  · rename_i hack
    split
    · rename_i hbeacon
      have hdata := awaitsGroupAck_of_not_data (s := s) (frmType_of_isBeacon hbeacon).1
      split
      · apply wp_of_bind
        refine (inv_of_touches (touches_beaconSent _ p).post (by simp)
          hsuccess).imp fun t ht => ?_
        refine inv_sent_of_not_awaits hs.toRight ?_ hdata
        exact inv_of_keeps (keeps_beaconEnd t p) (by simp) ht
      · refine inv_sent_of_not_awaits hs.toRight ?_ hdata
        exact inv_of_keeps (keeps_beaconEnd _ p) (by simp) hsuccess
    · rename_i hbeacon
      split
      · rename_i hackReq
        exact inv_ackReqSent hs hackReq htx hawaits
      · rename_i hackReq
        have hackReq : p.hdr.ackReq = false := by simpa using hackReq
        have hconfirms : confirmsFront p = true := by
          unfold confirmsFront
          simp [hack, hbeacon, hackReq]
        have hsent := inv_frontSent hs hackReq (hfront hconfirms)
        apply wp_of_bind
        refine Wp.imp ((wp_bind _ _ _ _).mp hsent) fun t ht => ?_
        refine ht.bind fun u hu => ?_
        exact hend u _ (keeps_endPdDataConfirm u _) hu

theorem inv_endTx (hs : Inv b s)
    (hgood : ∀ p, reportedFrame s s.phy = some p → (confirmsFront p = true → s.front = some p)
      ∧ (awaitsGroupAck s p = true → p ∉ b.awaiting ∧ p ∉ b.confirms.map Prod.fst)) :
    Post s.endTx fun t => Inv (match reportedFrame s s.phy with
      | some p => b.sent p s t
      | none => b) t := by
  unfold endTx
  unfold reportedFrame at hgood ⊢
  cases hend : s.phy.endTx with
  | none => exact hs
  | some status =>
    dsimp only
    by_cases hstatus : status = .phySuccess
    · subst hstatus
      unfold pdDataConfirm
      split
      · trivial
      · cases htx : s.tx.txPkt with
        | none => trivial
        | some p =>
          obtain ⟨hfront, hawaits⟩ := hgood p (by rw [if_pos hend]; exact htx)
          exact inv_frameSent hs htx hfront hawaits
    · rw [if_neg fun h => hstatus (Option.some.inj h)]
      exact inv_of_touches (touches_pdDataConfirm_failure s status hstatus).post (by simp) hs

/-! ## Receiving -/

/-- An enhanced group acknowledgment has one verdict for every buffered frame. -/
theorem length_enhancedVerdicts (hash64 : List Char → BitVec 64) (self : Mac16Address)
    (g : GroupAck) (received : BitVec 64) :
    Post (g.enhancedVerdicts hash64 self received) fun verdicts =>
      verdicts.length = g.groupAckPktBuffer.length := by
  have hverify (buffer : List ℕ) : ∀ own received,
      Post (GroupAck.enhancedVerify hash64 self buffer own received) fun r =>
        r.1.length = buffer.length := by
    induction buffer with
    | nil => exact fun _ _ => rfl
    | cons seq buffer ih =>
      intro own received
      unfold GroupAck.enhancedVerify
      refine post_bind fun k _ => ?_
      dsimp only
      split
      · exact (ih _ _).bind fun r hr => congrArg (· + 1) hr
      · exact (ih _ _).bind fun r hr => congrArg (· + 1) hr
  unfold GroupAck.enhancedVerdicts
  split
  · exact length_map _
  · exact (hverify _ _ _).bind fun _ hr => hr

/-- The acknowledged frames are buffered frames, one for every verdict that says so. -/
theorem acknowledged_spec (b : Ledger) (verdicts : List Bool)
    (hlen : verdicts.length = b.awaiting.length) :
    (b.acknowledged verdicts).Sublist b.awaiting
      ∧ (b.acknowledged verdicts).length = (verdicts.filter id).length := by
  unfold Ledger.acknowledged
  constructor
  · have hsub := (filter_sublist (l := b.awaiting.zip verdicts) (p := Prod.snd)).map Prod.fst
    rwa [map_fst_zip hlen.ge] at hsub
  · have hverdicts := map_snd_zip hlen.le
    rw [length_map, ← hverdicts, filter_map, length_map, hverdicts]
    rfl

/-- Every acknowledged frame gets the same handle. -/
theorem zip_map_const (frames : List Packet) (verdicts : List Bool) (msduHandle : ℕ)
    (hlen : frames.length = verdicts.length) :
    frames.zip (verdicts.map fun _ => msduHandle) = frames.map fun q => (q, msduHandle) := by
  induction frames generalizing verdicts with
  | nil => rfl
  | cons q frames ih =>
    cases verdicts with
    | nil => cases hlen
    | cons v verdicts =>
      rw [map_cons, zip_cons_cons, map_cons,
        ih verdicts (Nat.succ_injective hlen)]

theorem keeps_groupAckReceived (s : Mac) : views.Keeps [] s s.groupAckReceived := by
  unfold groupAckReceived
  split
  · exact ((keeps_setTxPkt s none (Or.inl rfl)).trans
      (keeps_post _ .setMacState _ _ rfl (by simp))).trans
      (keeps_post _ .ifsEvent _ _ rfl (by simp))
  · exact Keeps.refl [] s

/-- A group acknowledgment confirms the frames it acknowledges, and empties the buffer. -/
theorem inv_applyVerdicts (hs : Inv b s) (verdicts : List Bool) (gack : GroupAck)
    (hempty : buffered { s with gack } = 0) (hlen : verdicts.length = buffered s)
    (hgood : reportsGroupAcks s →
      ∀ q ∈ b.acknowledged verdicts, (q, s.tx.msduHandle) ∈ b.requests) :
    Inv { b.confirm (b.acknowledged verdicts) s (s.applyVerdicts verdicts gack) with
      awaiting := [] } (s.applyVerdicts verdicts gack) := by
  obtain ⟨hsub, hcount⟩ := acknowledged_spec b verdicts (hlen.trans hs.awaitingLength)
  let u : Mac := { s with gack }
  have hu : Inv { b with awaiting := [] } u :=
    ⟨{ hs with }, hs.uid, hs.txPkt, hs.queue, hs.queueNodup,
      hs.queued, by simp, nodup_nil, hempty⟩
  have hend := keeps_groupAckReceived (u.confirmVerdicts verdicts)
  have hhandles : handles (s.applyVerdicts verdicts gack) = handles (u.confirmVerdicts verdicts) :=
    handles_congr (hend .confirms (by simp)).2
  refine inv_of_keeps hend (by simp) ?_
  unfold Ledger.confirm newHandles
  rw [hhandles]
  change Inv { b with
    awaiting := []
    confirms := b.confirms
      ++ (b.acknowledged verdicts).zip (newHandles s (u.confirmVerdicts verdicts)) } _
  by_cases hreports : reportsGroupAcks s
  · have hconfirmed : u.confirmVerdicts verdicts = { u with
        trace := s.trace ++ ((verdicts.filter id).map
          fun _ => .mcpsDataConfirm s.tx.msduHandle .success) } :=
      if_pos hreports
    have hnew : handles (u.confirmVerdicts verdicts)
        = handles s ++ (verdicts.filter id).map fun _ => s.tx.msduHandle := by
      rw [hconfirmed]
      unfold handles
      rw [filterMap_append, filterMap_map]
      exact congrArg (_ ++ ·) (congrFun filterMap_eq_map _)
    rw [newHandles_append hnew, zip_map_const _ _ _ hcount]
    have hframes : ((b.acknowledged verdicts).map fun q => (q, s.tx.msduHandle)).map Prod.fst
        = b.acknowledged verdicts := by
      rw [map_map]
      exact map_id _
    refine hu.append _ (by rw [hconfirmed]) (by rw [hconfirmed]) (by rw [hconfirmed])
      (hnew.trans ?_) (fun c hc => ?_) ?_ fun q hq => ?_
    · rw [map_map]
      refine congrArg (handles s ++ ·) ?_
      rw [map_const', ← hcount]
      exact (map_const' ..).symm
    · obtain ⟨q, hq, rfl⟩ := mem_map.mp hc
      exact hgood hreports q hq
    · rw [hframes]
      exact hs.awaitingNodup.sublist hsub
    · rw [hframes] at hq
      obtain ⟨hack, -, hconfirm⟩ := hs.awaiting q (hsub.subset hq)
      exact ⟨hconfirm, by simp, fun _ _ _ => hack⟩
  · have hsame : u.confirmVerdicts verdicts = u := by
      unfold confirmVerdicts
      exact if_neg hreports
    rw [hsame, show newHandles s u = [] from newHandles_eq_nil rfl, zip_nil_right,
      append_nil]
    exact hu

theorem inv_receiveGroupAck (hs : Inv b s) (p : Packet)
    (hgood : reportsGroupAcks s → ∀ verdicts, groupAckVerdicts s p = some verdicts →
      ∀ q ∈ b.acknowledged verdicts, (q, s.tx.msduHandle) ∈ b.requests) :
    Post (s.receiveGroupAck p) fun t => Inv (match groupAckVerdicts s p with
      | some verdicts => { b.confirm (b.acknowledged verdicts) s t with awaiting := [] }
      | none => b) t := by
  unfold receiveGroupAck
  unfold groupAckVerdicts at hgood ⊢
  split
  · cases hpolicy : s.cfg.groupAckPolicy with
    | groupAckEnhanced =>
      cases hbody : p.body with
      | enhancedGroupAck groupAckBitmap =>
        rw [hpolicy, hbody] at hgood
        dsimp only at hgood ⊢
        split
        · exact hs
        · rename_i hzero
          cases hverdicts : s.gack.enhancedVerdicts s.cfg.hash64 s.cfg.shortAddress
              groupAckBitmap with
          | error e => trivial
          | ok verdicts =>
            have hlen := (length_enhancedVerdicts s.cfg.hash64 s.cfg.shortAddress s.gack
              groupAckBitmap).of_eq_ok hverdicts
            refine inv_applyVerdicts hs verdicts _ ?_ (hlen.trans ?_) fun hreports => ?_
            · unfold buffered
              rw [hpolicy]
              rfl
            · unfold buffered
              rw [hpolicy]
            · refine hgood hreports verdicts ?_
              rw [if_pos (by assumption), if_neg hzero, hverdicts]
              rfl
      | _ => trivial
    | groupAckLegacy =>
      cases hbody : p.body with
      | legacyGroupAck gackBitmap gackDevList gackIdx gackDirections =>
        rw [hpolicy, hbody] at hgood
        dsimp only at hgood ⊢
        split
        · exact hs
        · rename_i hzero
          refine inv_applyVerdicts hs _ _ ?_ ?_ fun hreports => ?_
          · unfold buffered
            rw [hpolicy]
            rfl
          · unfold buffered GroupAck.legacyVerdicts
            rw [hpolicy, length_map]
          · refine hgood hreports _ ?_
            rw [if_pos (by assumption), if_neg hzero]
      | _ => trivial
    | _ => exact hs
  · exact hs

/-- A frame that is no group acknowledgment confirms nothing. -/
theorem inv_pdDataIndication_of_not_ack (hs : Inv b s) (fcsOk : Bool)
    (hack : p.hdr.isAcknowledgment = false) :
    Post (s.pdDataIndication p fcsOk) (Inv b) := by
  cases hbeacon : p.hdr.isBeacon with
  | true =>
    refine post_pdDataIndication_of_isBeacon s fcsOk _ hbeacon hs fun _ _ => ?_
    refine (wp_receiveBeacon s p).mono (fun r hr => ?_) fun _ _ => trivial
    exact inv_of_keeps hr (by simp) hs
  | false =>
    have hhilow : Inv b (s.acceptAllHilow p) :=
      inv_of_keeps (keeps_acceptAllHilow s p) (by simp) hs
    have hframe : Post (receiveFrame p (s.acceptAllHilow p)) (Inv b) := by
      unfold receiveFrame
      apply wp_of_bind
      refine (inv_of_touches (touches_ackRequested _ p).post (by simp)
        hhilow).imp fun t ht => ?_
      rw [hbeacon]
      apply wp_of_bind
      refine (inv_of_touches (touches_receiveData t p).post (by simp)
        ht).imp fun u hu => ?_
      unfold receiveGroupAck
      rw [hack]
      exact hu
    unfold pdDataIndication
    split
    · trivial
    · split
      · split
        · exact hframe
        · exact hhilow
      · exact hs

/-- The reception of a group acknowledgment. -/
theorem pdDataIndication_of_isAcknowledgment (s : Mac) (fcsOk : Bool)
    (hack : p.hdr.isAcknowledgment = true) (Q : Mac → Prop)
    (hdropped : (fcsOk && s.acceptFrame p) = false → Q s)
    (haccepted : (fcsOk && s.acceptFrame p) = true → Post (s.receiveGroupAck p) Q) :
    Post (s.pdDataIndication p fcsOk) Q := by
  have htype : p.hdr.frmType = .acknowledgment := eq_of_beq hack
  have hdata : p.hdr.isData = false := by
    unfold LrWpanMacHeader.isData
    rw [htype]
    rfl
  have hcommand : p.hdr.isCommand = false := by
    unfold LrWpanMacHeader.isCommand
    rw [htype]
    rfl
  have hbeacon : p.hdr.isBeacon = false := by
    unfold LrWpanMacHeader.isBeacon
    rw [htype]
    rfl
  have hhilow : s.acceptAllHilow p = s := by
    unfold acceptAllHilow
    simp [hdata]
  have hframe : s.receiveFrame p = s.receiveGroupAck p := by
    unfold receiveFrame ackRequested asksForAck receiveData
    rw [hdata, hcommand, hbeacon]
    rfl
  unfold pdDataIndication
  rw [hhilow]
  cases fcsOk with
  | false =>
    split
    · trivial
    · exact hdropped rfl
  | true =>
    cases haccept : s.acceptFrame p with
    | false =>
      split
      · trivial
      · exact hdropped haccept
    | true =>
      split
      · trivial
      · show Post (s.receiveFrame p) Q
        rw [hframe]
        exact haccepted haccept

/-! ## Steps and runs -/

/-- The end of a transmission does not end a GTS. -/
theorem gtsRunning_of_take {sim : Sim} {n : ℕ} {e : Scheduled}
    (htake : s.sim.take n = some (e, sim)) (he : e.event = .endTx) :
    gtsRunning { s with sim } = s.gtsRunning := by
  have hsame (m : Member) (hm : m.mayHold .endTx = false) :
      sim.isRunning m = s.sim.isRunning m := by
    have hholder : e.holder ≠ some m := fun h => by
      have hhold := e.holder_ok m h
      rw [he, hm] at hhold
      cases hhold
    rw [Bool.eq_iff_iff, Sim.isRunning_iff_held, Sim.isRunning_iff_held,
      Sim.held_take_of_ne _ _ n e m htake hholder]
  unfold gtsRunning isRunning
  rw [hsame .gtsEvent rfl, hsame .incGtsEvent rfl]

theorem inv_fire (hs : Inv b s) (n : ℕ) (answers : PhyAnswers)
    (hgood : Orderly (b, s) ⟨.fire n, answers⟩) :
    Post (fire n { s with phy := answers }) fun t =>
      Inv (record b s ⟨.fire n, answers⟩ t) t := by
  have hs' : Inv b { s with phy := answers } :=
    hs.congr rfl (Nat.le_refl _) hs.txPkt rfl rfl
  unfold Orderly at hgood
  unfold record
  dsimp only at hgood ⊢
  cases htake : s.sim.take n with
  | none =>
    have hsent : sentFrame s answers n = none := by
      unfold sentFrame
      rw [Sim.getElem?_of_take_none htake]
    rw [hsent]
    unfold fire
    rw [show ({ s with phy := answers } : Mac).sim.take n = none from htake]
    exact hs'
  | some r =>
    obtain ⟨e, sim⟩ := r
    have hpending := Sim.getElem?_of_take htake
    have htaken : Inv b { s with phy := answers, sim } :=
      hs.congr rfl (Nat.le_refl _) hs.txPkt rfl rfl
    have hfire : fire n { s with phy := answers }
        = dispatch e.event { s with phy := answers, sim } := by
      unfold fire
      rw [show ({ s with phy := answers } : Mac).sim.take n = some (e, sim) from htake]
    by_cases htx : e.event = .endTx
    · -- the frame that was sent is the one in transmission
      have hgts : gtsRunning { s with phy := answers, sim } = s.gtsRunning :=
        gtsRunning_of_take htake htx
      have hawaits (p : Packet) :
          awaitsGroupAck { s with phy := answers, sim } p = awaitsGroupAck s p := by
        unfold awaitsGroupAck
        rw [hgts]
      have hsent : sentFrame s answers n = reportedFrame s answers := by
        unfold sentFrame
        rw [hpending]
        dsimp only
        rw [htx]
      have hledger (p : Packet) (t : Mac) :
          b.sent p { s with phy := answers, sim } t = b.sent p s t := by
        unfold Ledger.sent
        rw [hawaits]
        rfl
      rw [hsent] at hgood ⊢
      rw [hfire, htx]
      refine (inv_endTx htaken fun p hp => ?_).imp fun t ht => ?_
      · rw [hawaits]
        exact hgood p hp
      · change Inv (match reportedFrame s answers with
          | some p => b.sent p { s with phy := answers, sim } t
          | none => b) t at ht
        cases hp : reportedFrame s answers with
        | none =>
          rw [hp] at ht
          exact ht
        | some p =>
          rw [hp] at ht
          show Inv (b.sent p s t) t
          rw [← hledger]
          exact ht
    · have hsent : sentFrame s answers n = none := by
        unfold sentFrame
        rw [hpending]
        dsimp only
        split
        · rename_i h
          exact absurd h htx
        · rfl
      rw [hsent, hfire]
      by_cases htransmit : View.transmit ∈ .clock :: e.event.footprint
      · rcases MacEvent.of_mem_footprint htransmit with he | he | he | he
        · rw [he]
          exact inv_sendOneEnhancedBeacon htaken
        · rw [he]
          exact inv_sendGroupAck htaken _ _ _
        · rw [he]
          exact inv_sendGroupAck htaken _ _ _
        · exact absurd he htx
      · have hkeeps := post_fire { s with phy := answers } sim n e htake
        rw [hfire] at hkeeps
        refine inv_of_touches hkeeps ?_ hs'
        simp only [forall_mem_cons]
        exact ⟨htransmit, fun h => htx (MacEvent.of_mem_footprint h), MacEvent.of_mem_footprint,
          nofun⟩

theorem inv_step (hs : Inv b s) (i : Input) (hgood : Orderly (b, s) i) :
    Post (step s i) fun t => Inv (record b s i t) t := by
  obtain ⟨a, answers⟩ := i
  have hs' : Inv b { s with phy := answers } :=
    hs.congr rfl (Nat.le_refl _) hs.txPkt rfl rfl
  unfold step
  cases a with
  | fire n => exact inv_fire hs n answers hgood
  | mcpsDataRequest params => exact inv_mcpsDataRequest hs params answers
  | pdDataIndication p fcsOk =>
    cases hack : p.hdr.isAcknowledgment with
    | false =>
      refine (inv_pdDataIndication_of_not_ack hs' fcsOk hack).imp fun t ht => ?_
      have hverdicts : groupAckVerdicts s p = none := by
        unfold groupAckVerdicts
        rw [hack]
        rfl
      unfold record
      dsimp only
      rw [hverdicts]
      split
      · exact ht
      · exact ht
    | true =>
      unfold record
      dsimp only
      refine pdDataIndication_of_isAcknowledgment _ fcsOk hack _ (fun hdropped => ?_)
        fun haccepted => ?_
      · rw [if_neg (by rw [show s.acceptFrame p = acceptFrame { s with phy := answers } p
          from rfl, hdropped]; decide)]
        exact hs'
      · have haccept := Bool.and_eq_true_iff.mp haccepted
        refine (inv_receiveGroupAck hs' p (hgood haccept.1 haccept.2)).imp fun t ht => ?_
        rw [if_pos (show (fcsOk && s.acceptFrame p) = true from haccepted)]
        exact ht
  | _ =>
    refine inv_of_touches (post_act _ _ (by simp)) ?_ hs'
    simp [Action.footprint]

/-- A device that was not asked to send anything. -/
structure Fresh (s : Mac) : Prop where
  trace : s.trace = []
  txQueue : s.tx.txQueue = []
  txPkt : s.tx.txPkt = none
  groupAckPktBuffer : s.gack.groupAckPktBuffer = []
  legacyGackGTSIdxBuffer : s.gack.legacyGackGTSIdxBuffer = []

theorem inv_of_fresh (h : Fresh s) : Inv {} s := by
  refine ⟨⟨?_, nodup_nil, by simp, nodup_nil⟩, by simp, ?_, ?_, ?_, by simp, by simp,
    nodup_nil, ?_⟩
  · unfold handles
    rw [h.trace]
    rfl
  · rw [h.txPkt]
    simp
  · rw [h.txQueue]
    simp
  · rw [h.txQueue]
    exact nodup_nil
  · unfold buffered
    split
    · rw [h.groupAckPktBuffer]
      rfl
    · rw [h.legacyGackGTSIdxBuffer]
      rfl
    · rfl

/-- The machine that keeps the ledger. -/
def machine : Machine (Ledger × Mac) Input Fault := Mac.machine.recording record

instance (c : Ledger × Mac) (i : Input) : Decidable (machine.enabled c i) :=
  inferInstanceAs (Decidable (Mac.machine.enabled c.2 i))

/-- **Confirms name the right MSDU.**  In every run of orderly steps of a fresh device, every
confirm carries the handle of the MSDU whose fate it reports, and no MSDU is confirmed twice. -/
theorem right_of_run (b : Ledger) (s t : Mac) (is : List Input) (hfresh : Fresh s)
    (hrun : machine.Run Orderly ({}, s) is (b, t)) : Right b t := by
  have hinv : Inv b t :=
    hrun.recorded Inv (fun b s i hs _ hgood => inv_step hs i hgood) (inv_of_fresh hfresh)
  exact hinv.toRight

/-- A test for orderly steps. -/
def orderlyTest (c : Ledger × Mac) (i : Input) : Bool :=
  match i.action with
  | .pdDataIndication p _ =>
    (groupAckVerdicts c.2 p).all fun verdicts =>
      (c.1.acknowledged verdicts).all fun q => c.1.requests.contains (q, c.2.tx.msduHandle)
  | .fire n =>
    (sentFrame c.2 i.answers n).all fun p =>
      (!confirmsFront p || c.2.front == some p)
        && (!awaitsGroupAck c.2 p
          || !c.1.awaiting.contains p && !(c.1.confirms.map Prod.fst).contains p)
  | _ => true

theorem orderly_of_test (c : Ledger × Mac) (i : Input) (h : orderlyTest c i = true) :
    Orderly c i := by
  unfold orderlyTest at h
  unfold Orderly
  split
  · rename_i p fcsOk haction
    rw [haction] at h
    intro _ _ _ verdicts hverdicts q hq
    dsimp only at h
    rw [hverdicts] at h
    exact contains_iff_mem.mp (all_eq_true.mp h q hq)
  · rename_i n haction
    rw [haction] at h
    intro p hp
    dsimp only at h
    rw [hp] at h
    obtain ⟨hfront, hawaits⟩ := Bool.and_eq_true_iff.mp h
    refine ⟨fun hconfirms => ?_, fun ha => ?_⟩
    · rw [hconfirms] at hfront
      exact eq_of_beq hfront
    · rw [ha] at hawaits
      simpa using hawaits
  · trivial

/-- A device with legacy group acknowledgments that knows the superframe structure of its
coordinator. -/
def device : Mac where
  cfg := { shortAddress := 2, macDSMEenabled := true, groupAckPolicy := .groupAckLegacy }
  role := { macPanId := 7 }
  inc :=
    { incomingSuperframeDuration := 7680, incomingFnlCapSlot := 8
      incomingMultisuperframeDuration := 30720 }

/-- A GTS in slot 0, and in it a data frame with handle 1. -/
def requestInGts : List Input :=
  [⟨.resizeScheduleGTSsEvent 6 5 3, {}⟩,
    ⟨.addDsmeACTEntity 0 { superframeID := 0, slotID := 0, numSlot := 1 }, {}⟩,
    ⟨.scheduleGts false, {}⟩, ⟨.fire 0, {}⟩,
    ⟨.mcpsDataRequest
      { dstAddr := 1, msduHandle := 1, txOptionAck := true, txOptionGts := true, msdu := List.replicate 10 0 },
      { trx := [some .phyTxOn] }⟩]

/-- The group acknowledgment for slot 0. -/
def groupAck : Packet where
  hdr :=
    { frmType := .acknowledgment, ieListPresent := true, frmVer := 2, dstAddrMode := .shortAddr
      dstPanId := 7, shortDstAddr := 0xffff, srcAddrMode := .shortAddr, srcPanId := 7
      shortSrcAddr := 1 }
  body := .legacyGroupAck 1 0 0 0
  size := 20
  uid := 100

/-- The frame is sent, and the group acknowledgment comes. -/
def acknowledgment : List Input :=
  [⟨.fire 2, {}⟩, ⟨.fire 2, {}⟩, ⟨.pdDataIndication groupAck true, {}⟩]

theorem fresh_device : Fresh device := ⟨rfl, rfl, rfl, rfl, rfl⟩

/-- Without another data request, the confirm carries handle 1. -/
theorem device_right :
    ∃ b t, machine.Run Orderly ({}, device) (requestInGts ++ acknowledgment) (b, t)
      ∧ b.confirms.map Prod.snd = [1] ∧ Right b t := by
  have hexec : (machine.exec orderlyTest ({}, device) (requestInGts ++ acknowledgment)).any
      (fun c => c.1.confirms.map Prod.snd == [1]) = true := by decide +kernel
  obtain ⟨⟨b, t⟩, hrun, ht⟩ := Machine.exists_run_of_exec _ _ _ _ hexec
  have hrun := hrun.mono orderly_of_test
  exact ⟨b, t, hrun, eq_of_beq ht, right_of_run b device t _ fresh_device hrun⟩

/-- A data request with handle 2 comes before the group acknowledgment: the frame with handle 1
is confirmed with handle 2. -/
theorem exists_run_confirms_other : ∃ b t, machine.Run (fun _ _ => True) ({}, device)
        (requestInGts ++ ⟨.mcpsDataRequest { dstAddr := 1, msduHandle := 2 }, {}⟩
          :: acknowledgment) (b, t)
      ∧ ¬ Right b t := by
  have hexec : (machine.exec (fun _ _ => true) ({}, device)
      (requestInGts ++ ⟨.mcpsDataRequest { dstAddr := 1, msduHandle := 2 }, {}⟩
        :: acknowledgment)).any
      (fun c => c.1.confirms.any fun x => !c.1.requests.contains x) = true := by decide +kernel
  obtain ⟨⟨b, t⟩, hrun, ht⟩ := Machine.exists_run_of_exec _ _ _ _ hexec
  refine ⟨b, t, hrun.mono fun _ _ _ => trivial, fun hright => ?_⟩
  obtain ⟨c, hc, hother⟩ := any_eq_true.mp ht
  simp [hright.named c hc] at hother

end Ns3Dsme.Confirms
