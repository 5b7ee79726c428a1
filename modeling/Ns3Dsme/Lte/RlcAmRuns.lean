/-
# Runs of the RLC AM transmitter

Whatever is called, in whatever order, the books are kept, as long as no STATUS PDU NACKs a number
whose PDU is gone.  An old report can do that, although what it said was true when it was sent.
-/
import Ns3Dsme.Lte.RlcAmBookkeeping
import Ns3Dsme.Lib.Machine

open Function Program Totals

namespace Ns3Dsme.Lte

open SequenceNumber10

/-- What else may stop a transmitter: an opportunity that is too small, an empty SDU, or a header
with more octets than its 16-bit length counts. -/
def Fault.IsOther (e : Fault) : Prop := e = .stingyMac ∨ e = .noSegment ∨ e = .overrun

namespace LteRlcAm

variable {s t : LteRlcAm} {sn : Fin 1024} {pdu : AmPdu}

/-! ## SDUs and new PDUs -/

theorem Kept.doTransmitPdcpPdu (h : Kept s) (p : List Octet) : Kept (s.doTransmitPdcpPdu p) := by
  unfold LteRlcAm.doTransmitPdcpPdu
  split
  · refine { h with txon := ?_ }
    show s.txonBufferSize + counted p.length = counted (waiting (s.txonBuffer ++ [⟨p, .fullSdu⟩]))
    rw [h.txon, ← counted_add, waiting_append]
    rfl
  · exact h

/-- The loop over the segments keeps the size of what waits. -/
theorem waiting_fill (txonBuffer : List Sdu) :
    ∀ (d : Draft) (firstSegment : Sdu),
      (d.fill firstSegment (counted (waiting txonBuffer)) txonBuffer).2.2
        = counted (waiting (d.fill firstSegment (counted (waiting txonBuffer)) txonBuffer).2.1) := by
  have hback (rest : Sdu) (ps : List Sdu) :
      counted (waiting ps) + counted rest.size = counted (waiting (rest :: ps)) := by
    rw [waiting_cons, Nat.add_comm, counted_add]
  induction txonBuffer with
  | nil =>
    intro d firstSegment
    unfold Draft.fill
    split
    · rfl
    split
    · dsimp only
      split
      · exact hback _ _
      · rfl
    · rfl
  | cons next others ih =>
    intro d firstSegment
    unfold Draft.fill
    split
    · rfl
    split
    · dsimp only
      split
      · exact hback _ _
      · rfl
    dsimp only
    split
    · rfl
    · rw [waiting_cons, Nat.add_comm, counted_add_sub]
      exact ih (d.push firstSegment) next

theorem exists_pollsNew (h : s.vtS.modulusBase = s.vtMs.modulusBase) :
    ∃ pollingBit, s.pollsNew = .ok pollingBit := by
  unfold LteRlcAm.pollsNew
  split
  · exact ⟨true, rfl⟩
  · rw [ge_eq h]
    exact ⟨_, rfl⟩

theorem exists_pollsRetx (h : s.vtS.modulusBase = s.vtMs.modulusBase) (pdu : AmPdu) :
    ∃ pollingBit, s.pollsRetx pdu = .ok pollingBit := by
  unfold LteRlcAm.pollsRetx
  split
  · exact ⟨true, rfl⟩
  · rw [ge_eq h]
    exact ⟨_, rfl⟩

/-- A new PDU takes the next number. -/
theorem Kept.store (h : Kept s) (hroom : s.inUse < windowSize) (pdu : AmPdu)
    (hsn : pdu.header.sequenceNumber.value = s.vtS.value) :
    Kept { s with
      vtS := s.vtS.next
      txedBufferSize := s.txedBufferSize + counted pdu.size
      txedBuffer := update s.txedBuffer s.vtS.value (some pdu) } := by
  have hnone : s.pduOf s.vtS.value = none := h.unused _ Nat.le.refl
  obtain ⟨htxed, hretx⟩ := Option.or_eq_none_iff.mp hnone
  have hnext : ahead s.vtA.value s.vtS.next.value = s.inUse + 1 :=
    ahead_next (by
      unfold windowSize at hroom
      exact Nat.lt_trans hroom (by decide))
  have helse (x : Fin 1024) (hx : x ≠ s.vtS.value) :
      (update s.txedBuffer s.vtS.value (some pdu) x).or (s.retxBuffer x) = s.pduOf x := by
    rw [update_of_ne hx]
    rfl
  have hself : (update s.txedBuffer s.vtS.value (some pdu) s.vtS.value).or
      (s.retxBuffer s.vtS.value) = some pdu := by
    rw [update_self]
    rfl
  constructor
  · exact h.baseA
  · exact h.baseS
  · exact h.baseMs
  · exact hnext.trans_le hroom
  · exact h.last
  · intro x
    by_cases hx : x = s.vtS.value
    · rw [hx]
      exact .inr hretx
    · dsimp only
      rw [update_of_ne hx]
      exact h.once x
  · intro x p hp
    by_cases hx : x = s.vtS.value
    · subst hx
      cases hself.symm.trans hp
      exact hsn
    · exact h.own x p ((helse x hx).symm.trans hp)
  · intro x hout
    have hfar : s.inUse + 1 ≤ ahead s.vtA.value x := hnext.ge.trans hout
    have hx : x ≠ s.vtS.value := by
      rintro rfl
      exact absurd hfar (Nat.not_succ_le_self _)
    exact (helse x hx).trans (h.unused x (by omega))
  · show s.txedBufferSize + counted pdu.size = _
    rw [h.txed, ← counted_add, ← total_put _ htxed]
  · exact h.retx
  · exact h.txon

/-- **A new PDU.** -/
theorem Kept.sendNewPdu (h : Kept s) (hroom : s.inUse < windowSize) (bytes : ℕ) :
    Wp (s.sendNewPdu bytes) (fun r => Kept r.1)
      (fun e => e = .noSegment ∨ e = .overrun) := by
  unfold LteRlcAm.sendNewPdu
  cases htxon : s.txonBuffer with
  | nil => exact h
  | cons firstSegment others =>
    have hsize : s.txonBufferSize - counted firstSegment.size = counted (waiting others) := by
      rw [h.txon, htxon, waiting_cons, Nat.add_comm, counted_add_sub]
    dsimp only
    rw [hsize]
    have hfill := waiting_fill others { nextSegmentSize := bytes - 4 } firstSegment
    generalize Draft.fill { nextSegmentSize := bytes - 4 } firstSegment
      (counted (waiting others)) others = built at hfill
    have hlt : s.vtS.lt s.vtMs = .ok true := by
      rw [lt_eq (h.baseS.trans h.baseMs.symm), h.baseS, h.ahead_vtMs]
      exact congrArg Except.ok (decide_eq_true hroom)
    have hge : s.vtS.ge s.vtA = .ok true := by
      rw [ge_eq (h.baseS.trans h.baseA.symm), h.baseS, ahead_self]
      exact congrArg Except.ok (decide_eq_true (Nat.zero_le _))
    rw [hlt, ok_bind, show ensure true .outsideWindow = .ok () from rfl, ok_bind, hge, ok_bind,
      show ensure true .outsideWindow = .ok () from rfl, ok_bind]
    cases framingInfo built.1.dataField with
    | none => exact .inl rfl
    | some framingInfo =>
      dsimp only
      generalize (built.1.dataField.map Sdu.octets).flatten = data
      have hkept : Kept { s with
          txonBuffer := built.2.1
          txonBufferSize := built.2.2
          pduWithoutPoll := s.pduWithoutPoll + 1
          byteWithoutPoll := s.byteWithoutPoll + counted data.length } := { h with txon := hfill }
      obtain ⟨pollingBit, hpolls⟩ := exists_pollsNew (s := { s with
          txonBuffer := built.2.1
          txonBufferSize := built.2.2
          vtS := s.vtS.next
          pduWithoutPoll := s.pduWithoutPoll + 1
          byteWithoutPoll := s.byteWithoutPoll + counted data.length }) (h.baseS.trans h.baseMs.symm)
      have hstored :=
        hkept.store hroom ⟨buildHeader built.1.header s.vtS framingInfo pollingBit, data⟩ rfl
      rw [hpolls, ok_bind]
      cases AmPdu.holdsHeader ⟨buildHeader built.1.header s.vtS framingInfo pollingBit, data⟩ with
      | false => exact .inr rfl
      | true =>
        rw [show ensure true .overrun = .ok () from rfl, ok_bind]
        cases pollingBit with
        | true => exact { hstored with }
        | false => exact { hstored with }

/-! ## PDUs that are sent again -/

/-- The search finds a PDU if there is one. -/
theorem Kept.findRetx (h : Kept s) (fuel : ℕ) :
    ∀ sn : SequenceNumber10, sn.modulusBase = s.vtA.value → ahead s.vtA.value sn.value ≤ s.inUse →
      s.inUse - ahead s.vtA.value sn.value < fuel →
      Wp (s.findRetx fuel sn)
        (fun r =>
          (∃ x pdu, r = some (x, pdu) ∧ s.retxBuffer x = some pdu)
            ∨ (r = none ∧ ∀ x, ahead s.vtA.value sn.value ≤ ahead s.vtA.value x →
              s.retxBuffer x = none))
        (fun _ => False) := by
  induction fuel with
  | zero =>
    intro sn _ _ hfuel
    exact absurd hfuel (Nat.not_lt_zero _)
  | succ fuel ih =>
    intro sn hsn hle hfuel
    unfold LteRlcAm.findRetx
    rw [h.lt_vtS hsn, ok_bind]
    by_cases hlt : ahead s.vtA.value sn.value < s.inUse
    swap
    · rw [if_neg (by rw [decide_eq_true_eq]; exact hlt)]
      refine .inr ⟨rfl, fun x hx => ?_⟩
      exact (Option.or_eq_none_iff.mp (h.unused x (by omega))).2
    rw [if_pos (decide_eq_true hlt)]
    cases hretx : s.retxBuffer sn.value with
    | some pdu => exact .inl ⟨sn.value, pdu, rfl, hretx⟩
    | none =>
      have hwindow := h.window
      have hnext : ahead s.vtA.value sn.next.value = ahead s.vtA.value sn.value + 1 :=
        ahead_next (by
          unfold windowSize at hwindow
          omega)
      refine (ih sn.next hsn (by omega) (by omega)).mono ?_ fun _ hfalse => hfalse
      rintro r (hfound | ⟨hnone, hrest⟩)
      · exact .inl hfound
      · refine .inr ⟨hnone, fun x hx => ?_⟩
        by_cases heq : x = sn.value
        · rw [heq]
          exact hretx
        · have hne : ahead s.vtA.value x ≠ ahead s.vtA.value sn.value :=
            fun hsame => heq (ahead_inj _ hsame)
          exact hrest x (by omega)

/-- **A PDU is sent again.** -/
theorem Kept.retransmit (h : Kept s) (hsize : 0 < s.retxBufferSize) (bytes : ℕ) :
    Wp (s.retransmit bytes) (fun r => Kept r.1) (fun _ => False) := by
  rw [h.retx] at hsize
  obtain ⟨x, p, hx⟩ := exists_of_total_pos (pos_of_counted hsize)
  have hpos : 0 < s.inUse :=
    Nat.lt_of_le_of_lt (Nat.zero_le _) (h.lt_inUse (pduOf_of_retx hx (h.txed_of_retx hx)))
  have hzero : ahead s.vtA.value s.vtA.value = 0 := ahead_self _
  have hlt : s.vtA.lt s.vtS = .ok true := by
    rw [lt_eq (h.baseA.trans h.baseS.symm), h.baseA, hzero]
    exact congrArg Except.ok (decide_eq_true hpos)
  have hwindow := h.window
  unfold windowSize at hwindow
  unfold LteRlcAm.retransmit
  rw [hlt, ok_bind, show ensure true .emptyWindow = .ok () from rfl, ok_bind, wp_bind]
  refine (h.findRetx 1024 s.vtA h.baseA (by omega) (by omega)).mono ?_ fun _ hfalse => hfalse
  rintro r (⟨sn, pdu, rfl, hretx⟩ | ⟨-, hnone⟩)
  · dsimp only
    obtain ⟨pollingBit, hpolls⟩ := exists_pollsRetx (h.baseS.trans h.baseMs.symm) pdu
    have hmoved := h.moveToTxed hretx
    rw [hpolls]
    split
    · cases pollingBit with
      | true => exact { hmoved with }
      | false => exact hmoved
    · exact h
  · -- the size comes from a PDU that the search has passed by
    rw [hnone x (by omega)] at hx
    cases hx

/-- The loop that moves all transmitted PDUs. -/
theorem retransmitFrom_keeps (fuel : ℕ) :
    ∀ (s : LteRlcAm) (sn : SequenceNumber10), Kept s → sn.modulusBase = s.vtA.value →
      ahead s.vtA.value sn.value ≤ s.inUse → s.inUse - ahead s.vtA.value sn.value < fuel →
      Wp (retransmitFrom fuel s sn) Kept (fun _ => False) := by
  induction fuel with
  | zero =>
    intro s sn _ _ _ hfuel
    exact absurd hfuel (Nat.not_lt_zero _)
  | succ fuel ih =>
    intro s sn h hsn hle hfuel
    unfold retransmitFrom
    rw [h.lt_vtS hsn, ok_bind]
    by_cases hlt : ahead s.vtA.value sn.value < s.inUse
    swap
    · rw [if_neg (by rw [decide_eq_true_eq]; exact hlt)]
      exact h
    rw [if_pos (decide_eq_true hlt)]
    have hwindow := h.window
    have hnext : ahead s.vtA.value sn.next.value = ahead s.vtA.value sn.value + 1 :=
      ahead_next (by
        unfold windowSize at hwindow
        omega)
    cases htxed : s.txedBuffer sn.value with
    | some pdu =>
      refine ih _ sn.next (h.moveToRetx htxed) hsn ?_ ?_
      · show ahead s.vtA.value sn.next.value ≤ s.inUse
        omega
      · show s.inUse - ahead s.vtA.value sn.next.value < fuel
        omega
    | none => exact ih s sn.next h hsn (by omega) (by omega)

theorem Kept.le_vtMs (h : Kept s) : s.vtS.le s.vtMs = .ok true := by
  rw [le_eq (h.baseS.trans h.baseMs.symm), h.baseS, h.ahead_vtMs]
  exact congrArg Except.ok (decide_eq_true h.window)

/-- **The poll retransmit timer expires.** -/
theorem Kept.expirePollRetransmitTimer (h : Kept s) :
    Wp s.expirePollRetransmitTimer Kept (fun _ => False) := by
  have hk : Kept { s with
      pollRetransmitTimer := false, pollRetransmitTimerJustExpired := true } := { h with }
  have hzero : ahead s.vtA.value s.vtA.value = 0 := ahead_self _
  have hwindow := h.window
  unfold windowSize at hwindow
  unfold LteRlcAm.expirePollRetransmitTimer
  dsimp only
  rw [h.le_vtMs, ok_bind, show ensure true .outsideWindow = .ok () from rfl, ok_bind]
  split
  · refine retransmitFrom_keeps 1024 _ _ hk h.baseA ?_ ?_
    · show ahead s.vtA.value s.vtA.value ≤ s.inUse
      omega
    · show s.inUse - ahead s.vtA.value s.vtA.value < 1024
      omega
  · exact hk

/-- **A transmit opportunity** keeps the books, and fails for other reasons only. -/
theorem Kept.doNotifyTxOpportunity (h : Kept s) (bytes : ℕ) (statusPduSize : Option ℕ) :
    Wp (s.doNotifyTxOpportunity bytes statusPduSize) (fun r => Kept r.1) Fault.IsOther := by
  unfold LteRlcAm.doNotifyTxOpportunity
  split
  · exact .inl rfl
  cases statusPduSize with
  | some size =>
    dsimp only
    split
    · exact .inl rfl
    · exact h
  | none =>
    dsimp only
    split
    · rename_i hretx
      exact (h.retransmit hretx bytes).mono (fun _ hkept => hkept) fun _ hfalse => hfalse.elim
    split
    · split
      · exact .inl rfl
      rw [h.le_vtMs, ok_bind, show ensure true .outsideWindow = .ok () from rfl, ok_bind]
      split
      · exact h
      · rename_i hopen
        have hroom : s.inUse < windowSize := by
          refine Nat.lt_of_le_of_ne h.window fun hfull => hopen ?_
          exact ahead_inj s.vtA.value (hfull.trans h.ahead_vtMs.symm)
        exact (h.sendNewPdu hroom bytes).mono (fun _ hkept => hkept) fun _ he => .inr he
    · exact h

end LteRlcAm

/-! ## The link to the peer -/

/-- What a STATUS PDU says, with numbers that do not wrap around. -/
structure Report where
  ackSn : ℕ
  nackSns : List ℕ
  deriving DecidableEq, Repr

/-- The report is true of a peer that has these PDUs: below `ACK_SN` just the NACKed ones are
missing, and the next one is missing too. -/
def Report.Truthful (r : Report) (received : List ℕ) : Prop :=
  (∀ n, n < r.ackSn → r.nackSns.contains n = !received.contains n)
    ∧ received.contains r.ackSn = false ∧ r.nackSns.all (fun n => decide (n < r.ackSn)) = true

instance (r : Report) (received : List ℕ) : Decidable (r.Truthful received) :=
  inferInstanceAs (Decidable (_ ∧ _ ∧ _))

/-- The transmitter, how many PDUs it has numbered, which of them the peer has, and the STATUS
PDUs on their way back. -/
structure Link where
  tx : LteRlcAm
  sent : ℕ := 0
  received : List ℕ := []
  reports : List Report := []

/-- What can happen next. -/
inductive LinkInput
  | transmitPdcpPdu (p : List Octet)
  | notifyTxOpportunity (bytes : ℕ) (statusPduSize : Option ℕ)
  | expirePollRetransmitTimer
  | peerReceives (n : ℕ)
  | peerReports (r : Report)
  | statusArrives (i : ℕ)

namespace Link

/-- The peer receives what was sent, and reports what is true.  Reports arrive in any order. -/
def enabled (s : Link) : LinkInput → Prop
  | .transmitPdcpPdu _ => True
  | .notifyTxOpportunity _ _ => True
  | .expirePollRetransmitTimer => s.tx.pollRetransmitTimer = true
  | .peerReceives n => n < s.sent
  | .peerReports r => r.ackSn ≤ s.sent ∧ r.Truthful s.received
  | .statusArrives i => i < s.reports.length

instance (s : Link) (i : LinkInput) : Decidable (s.enabled i) := by
  cases i <;> dsimp only [enabled] <;> infer_instance

/-- A STATUS PDU, as it is coded. -/
def receive (s : Link) (r : Report) : Except Fault LteRlcAm :=
  s.tx.receiveStatus (tenBits r.ackSn) (r.nackSns.map (tenBits))

def arrive (s : Link) (i : ℕ) : Except Fault Link :=
  match s.reports[i]? with
  | some r => (s.receive r).map fun tx => { s with tx, reports := s.reports.eraseIdx i }
  | none => .ok s

def step (s : Link) : LinkInput → Except Fault Link
  | .transmitPdcpPdu p => .ok { s with tx := s.tx.doTransmitPdcpPdu p }
  | .notifyTxOpportunity bytes statusPduSize =>
    (s.tx.doNotifyTxOpportunity bytes statusPduSize).map fun r =>
      { s with tx := r.1, sent := if r.1.vtS = s.tx.vtS then s.sent else s.sent + 1 }
  | .expirePollRetransmitTimer =>
    s.tx.expirePollRetransmitTimer.map fun tx => { s with tx }
  | .peerReceives n => .ok { s with received := n :: s.received }
  | .peerReports r => .ok { s with reports := s.reports ++ [r] }
  | .statusArrives i => s.arrive i

def machine : Machine Link LinkInput Fault := ⟨enabled, step⟩

instance (s : Link) (i : LinkInput) : Decidable (machine.enabled s i) :=
  inferInstanceAs (Decidable (s.enabled i))

/-- **A safe step.**  A report that arrives NACKs no number whose PDU is gone. -/
def Safe (s : Link) : LinkInput → Prop
  | .statusArrives i => ∀ r, s.reports[i]? = some r →
    s.tx.StatusSafe (tenBits r.ackSn) (r.nackSns.map (tenBits))
  | _ => True

/-- **A step** keeps the books if it is safe, and then it stops for other reasons only.  If it is not
safe, an assertion fails. -/
theorem step_spec {s : Link} (h : s.tx.Kept) (i : LinkInput) :
    Wp (s.step i) (fun t => t.tx.Kept ∧ s.Safe i)
      (fun e => (s.Safe i ∧ e.IsOther)
        ∨ (¬ s.Safe i ∧ e = .retxPduMissing)) := by
  cases i with
  | transmitPdcpPdu p => exact ⟨h.doTransmitPdcpPdu p, trivial⟩
  | notifyTxOpportunity bytes statusPduSize =>
    refine (wp_map _ _ _ _).mpr ((h.doNotifyTxOpportunity bytes statusPduSize).mono ?_ ?_)
    · intro r hkept
      exact ⟨hkept, trivial⟩
    · intro e he
      exact .inl ⟨trivial, he⟩
  | expirePollRetransmitTimer =>
    refine (wp_map _ _ _ _).mpr (h.expirePollRetransmitTimer.mono ?_ fun _ hfalse => hfalse.elim)
    intro tx hkept
    exact ⟨hkept, trivial⟩
  | peerReceives n => exact ⟨h, trivial⟩
  | peerReports r => exact ⟨h, trivial⟩
  | statusArrives i =>
    show Wp (s.arrive i) _ _
    unfold arrive
    cases hr : s.reports[i]? with
    | none =>
      refine ⟨h, fun r hsome => ?_⟩
      rw [hr] at hsome
      cases hsome
    | some r =>
      have hsafe_iff : s.Safe (.statusArrives i)
          ↔ s.tx.StatusSafe (tenBits r.ackSn) (r.nackSns.map (tenBits)) := by
        constructor
        · intro hsafe
          exact hsafe r hr
        · intro hsafe r' hsome
          rw [hr] at hsome
          cases hsome
          exact hsafe
      refine (wp_map _ _ _ _).mpr ((h.receiveStatus _ _).mono ?_ ?_)
      · rintro tx ⟨hkept, hsafe⟩
        exact ⟨hkept, hsafe_iff.mpr hsafe⟩
      · rintro e ⟨he, hrisk⟩
        exact .inr ⟨fun hsafe => hrisk (hsafe_iff.mp hsafe), he⟩

/-- A transmitter as it is set up, with nothing sent. -/
def start (maxTxBufferSize : BitVec 32) (alwaysBigEnough : Bool) : Link :=
  { tx := { maxTxBufferSize, txOpportunityForRetxAlwaysBigEnough := alwaysBigEnough } }

theorem kept_start (maxTxBufferSize : BitVec 32) (alwaysBigEnough : Bool) :
    (start maxTxBufferSize alwaysBigEnough).tx.Kept where
  baseA := rfl
  baseS := rfl
  baseMs := rfl
  window := by
    show ahead (tenBits 0) (tenBits 0) ≤ windowSize
    decide
  last := rfl
  once _ := .inl rfl
  own _ _ hpdu := by cases hpdu
  unused _ _ := rfl
  txed := congrArg counted total_empty.symm
  retx := congrArg counted total_empty.symm
  txon := rfl

/-- No assertion about the buffers or the window fails. -/
def Returns (s : Link) (i : LinkInput) : Prop := Wp (s.step i) (fun _ => True) Fault.IsOther

/-- **Bookkeeping.**  In every run of safe steps the books are kept, and the sizes are exact just as
long as 32 bits hold them.  In what happens next no assertion about the buffers or the window fails
exactly if it is safe. -/
theorem kept_of_run {maxTxBufferSize : BitVec 32} {alwaysBigEnough : Bool} {is : List LinkInput}
    {s : Link} (h : machine.Run Safe (start maxTxBufferSize alwaysBigEnough) is s) :
    s.tx.Kept ∧ (s.tx.Exact ↔ s.tx.Fits) ∧ ∀ i, s.Returns i ↔ s.Safe i := by
  have hkept : s.tx.Kept := h.invariant (fun s => s.tx.Kept)
    (fun s i hs _ _ => (step_spec hs i).mono (fun _ ht => ht.1) fun _ _ => trivial)
    (kept_start maxTxBufferSize alwaysBigEnough)
  refine ⟨hkept, hkept.exact_iff_fits, fun i => ?_⟩
  have hstep := step_spec hkept i
  unfold Returns
  cases hresult : s.step i with
  | ok t =>
    rw [hresult] at hstep
    exact iff_of_true trivial hstep.2
  | error e =>
    rw [hresult] at hstep
    rcases hstep with ⟨hsafe, he⟩ | ⟨hrisk, he⟩
    · exact iff_of_true he hsafe
    · refine iff_of_false ?_ hrisk
      rw [he]
      rintro (he' | he' | he') <;> cases he'

/-- The test for safe steps. -/
def isSafe (s : Link) : LinkInput → Bool
  | .statusArrives i =>
    match s.reports[i]? with
    | some r => r.nackSns.all fun n => (s.tx.pduOf (tenBits n)).isSome
    | none => true
  | _ => true

theorem safe_of_isSafe {s : Link} {i : LinkInput} (h : s.isSafe i = true) : s.Safe i := by
  cases i with
  | statusArrives i =>
    intro r hr x _ _ _ hnack
    unfold isSafe at h
    dsimp only at h
    rw [hr] at h
    obtain ⟨n, hn, rfl⟩ := List.mem_map.mp (List.contains_iff_mem.mp hnack)
    exact List.all_eq_true.mp h n hn
  | transmitPdcpPdu p => trivial
  | notifyTxOpportunity bytes statusPduSize => trivial
  | expirePollRetransmitTimer => trivial
  | peerReceives n => trivial
  | peerReports r => trivial

/-- Two PDUs are sent, and the peer misses the first one. -/
def sendTwo : List LinkInput :=
  [.transmitPdcpPdu [1, 2, 3], .transmitPdcpPdu [4, 5, 6], .notifyTxOpportunity 7 none,
    .notifyTxOpportunity 7 none]

/-- The missing PDU is asked for, sent again and acknowledged. -/
theorem kept_resent : ∃ s, machine.Run Safe (start 0 false)
        (sendTwo ++ [.peerReceives 1, .peerReports ⟨2, [0]⟩, .statusArrives 0,
          .notifyTxOpportunity 7 none, .peerReceives 0, .peerReports ⟨2, []⟩, .statusArrives 0]) s
      ∧ s.tx.vtA.value = 2 ∧ s.tx.retxBufferSize = 0 ∧ s.tx.Kept := by
  obtain ⟨s, hrun, htest⟩ := Machine.exists_run_of_exec (m := machine) isSafe
    (fun s => s.tx.vtA.value == 2 && s.tx.retxBufferSize == 0) (start 0 false)
    (sendTwo ++ [.peerReceives 1, .peerReports ⟨2, [0]⟩, .statusArrives 0,
      .notifyTxOpportunity 7 none, .peerReceives 0, .peerReports ⟨2, []⟩, .statusArrives 0])
    (by decide +kernel)
  obtain ⟨hvtA, hretx⟩ := Bool.and_eq_true_iff.mp htest
  have hsafe := hrun.mono fun s i => safe_of_isSafe
  exact ⟨s, hsafe, beq_iff_eq.mp hvtA, beq_iff_eq.mp hretx, (kept_of_run hsafe).1⟩

/-- The step stops at the assertion about a NACKed number. -/
def missesPdu (s : Link) (i : LinkInput) : Bool :=
  match s.step i with
  | .ok _ => false
  | .error e => e == .retxPduMissing

/-- Three PDUs are sent and the peer receives the third.  It reports that it misses the others,
receives the second and reports that it misses the first; the second report arrives before the
first. -/
theorem not_kept : ¬ ∀ (maxTxBufferSize : BitVec 32) (alwaysBigEnough : Bool)
    (is : List LinkInput) (s : Link),
    machine.Run (fun _ _ => True) (start maxTxBufferSize alwaysBigEnough) is s →
      s.tx.Kept ∧ ∀ i, machine.enabled s i → s.Returns i := by
  intro hall
  obtain ⟨s, hrun, htest⟩ := Machine.exists_run_of_exec (m := machine) (fun _ _ => true)
    (fun s => decide (0 < s.reports.length) && s.missesPdu (.statusArrives 0)) (start 0 false)
    (sendTwo ++ [.transmitPdcpPdu [7, 8, 9], .notifyTxOpportunity 7 none, .peerReceives 2,
      .peerReports ⟨3, [0, 1]⟩, .peerReceives 1, .peerReports ⟨3, [0]⟩, .statusArrives 1])
    (by decide +kernel)
  obtain ⟨hlength, hmisses⟩ := Bool.and_eq_true_iff.mp htest
  have hreturns := (hall 0 false _ s (hrun.mono fun _ _ _ => trivial)).2 (.statusArrives 0)
    (of_decide_eq_true hlength)
  unfold missesPdu at hmisses
  unfold Returns at hreturns
  split at hmisses
  · cases hmisses
  · rename_i e hstep
    rw [hstep, beq_iff_eq.mp hmisses] at hreturns
    rcases hreturns with he | he | he <;> cases he

end Link

end Ns3Dsme.Lte
