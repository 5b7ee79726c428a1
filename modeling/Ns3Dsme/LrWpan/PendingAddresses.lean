/-
# The pending addresses of a beacon

`GetPendingAddrFields` goes through the queue of indirect transmissions and names the short
destinations in the field of pending addresses.  `AddAddress` stops at seven addresses; the counter
of the loop does not, and it is written into the field at the end.
-/
import Ns3Dsme.LrWpan.FieldCodecs

open List BitFields Reader

namespace Ns3Dsme.Codec.PendingAddrFields

/-! ## Filling the field -/

/-- `PendingAddrFields()`. -/
def empty : PendingAddrFields where
  numShortAddr := 0
  numExtAddr := 0
  shortAddrList := List.replicate 7 0
  extAddrList := List.replicate 7 0
  length_shortAddrList := length_noShortAddr
  length_extAddrList := length_noExtAddr

/-- `AddAddress` of a short address; seven addresses are not exceeded. -/
def addShortAddr (f : PendingAddrFields) (shortAddr : Mac16Address) : PendingAddrFields :=
  if f.numShortAddr + f.numExtAddr = 7 then f
  else { f with
    numShortAddr := f.numShortAddr + 1
    shortAddrList := f.shortAddrList.set f.numShortAddr.toNat shortAddr
    length_shortAddrList := length_set.trans f.length_shortAddrList }

/-- One turn of the loop over the queue, with the field and `numOfShortAddr`. -/
def addPending (acc : PendingAddrFields × Octet) (hdr : LrWpanMacHeader) :
    PendingAddrFields × Octet :=
  if hdr.fctrl.dstAddrMode = shortAddr then
    (acc.1.addShortAddr hdr.addrShortDstAddr, acc.2 + 1)
  else acc

/-- `GetPendingAddrFields`, for the headers of the packets in the queue.  No extended address is
counted. -/
def getPendingAddrFields (indTxQueue : List LrWpanMacHeader) : PendingAddrFields :=
  let acc := indTxQueue.foldl addPending (empty, 0)
  { acc.1 with numShortAddr := acc.2, numExtAddr := 0 }

/-- The short destinations of the queue. -/
def shortDsts (indTxQueue : List LrWpanMacHeader) : List Mac16Address :=
  indTxQueue.filterMap fun hdr =>
    if hdr.fctrl.dstAddrMode = shortAddr then some hdr.addrShortDstAddr else none

/-! ## What is promised -/

/-- The field names at most seven addresses, the first destinations of the queue; its counts are
those of the addresses it carries, and it survives the wire. -/
structure Advertises (indTxQueue : List LrWpanMacHeader) (f : PendingAddrFields) : Prop where
  total : f.numShortAddr.toNat + f.numExtAddr.toNat ≤ 7
  numShortAddr : f.numShortAddr.toNat = ((shortDsts indTxQueue).take 7).length
  numExtAddr : f.numExtAddr = 0
  spec : f.getPndAddrSpecField &&& 7 = f.numShortAddr ∧
    (f.getPndAddrSpecField >>> 4) &&& 7 = f.numExtAddr
  shortAddrList : f.shortAddrList.take f.numShortAddr.toNat = (shortDsts indTxQueue).take 7
  codec : ∃ octets, f.serialize = some octets ∧ octets.length = f.getSerializedSize ∧
    ∀ f₀ rest, ∃ f', (deserialize f₀).run (octets ++ rest) = some (f', rest) ∧ Same f f'

/-! ## The loop -/

/-- What the loop has done with the destinations it has seen. -/
structure Filled (dsts : List Mac16Address) (acc : PendingAddrFields × Octet) : Prop where
  count : acc.2 = BitVec.ofNat 8 dsts.length
  numShortAddr : acc.1.numShortAddr.toNat = (dsts.take 7).length
  numExtAddr : acc.1.numExtAddr = 0
  shortAddrList : acc.1.shortAddrList.take (dsts.take 7).length = dsts.take 7

theorem filled_empty : Filled [] (empty, 0) := ⟨rfl, rfl, rfl, rfl⟩

/-- The next address goes behind those that are there. -/
theorem take_set_length {α : Type} {old new : List α} {a : α} (hlt : new.length < old.length)
    (hold : old.take new.length = new) : (old.set new.length a).take (new.length + 1) = new ++ [a] := by
  rw [take_add_one, take_set_of_le (Nat.le_refl _), hold, List.getElem?_set_self hlt]
  rfl

/-- One more destination. -/
theorem Filled.add {dsts : List Mac16Address} {acc : PendingAddrFields × Octet}
    (h : Filled dsts acc) (a : Mac16Address) :
    Filled (dsts ++ [a]) (acc.1.addShortAddr a, acc.2 + 1) := by
  have hcount : acc.2 + 1 = BitVec.ofNat 8 (dsts ++ [a]).length := by
    rw [h.count, length_append]
    exact (BitVec.ofNat_add dsts.length 1).symm
  have hlen : (dsts.take 7).length = min 7 dsts.length := length_take
  by_cases hfull : 7 ≤ dsts.length
  · -- the field is full: the address is not added
    have htake : (dsts ++ [a]).take 7 = dsts.take 7 := take_append_of_le_length hfull
    have hseven : acc.1.numShortAddr + acc.1.numExtAddr = 7 := by
      rw [h.numExtAddr]
      apply BitVec.eq_of_toNat_eq
      rw [BitVec.toNat_add, h.numShortAddr, hlen]
      show (min 7 dsts.length + 0) % 256 = 7
      omega
    have hsame : acc.1.addShortAddr a = acc.1 := if_pos hseven
    rw [hsame]
    exact ⟨hcount, by rw [htake, h.numShortAddr], h.numExtAddr, by rw [htake, h.shortAddrList]⟩
  · have htake : (dsts ++ [a]).take 7 = dsts ++ [a] :=
      take_of_length_le (by rw [length_append, length_singleton]; omega)
    have hdsts : dsts.take 7 = dsts := take_of_length_le (by omega)
    have hnum := h.numShortAddr
    have hlist := h.shortAddrList
    rw [hdsts] at hnum hlist
    have hnotSeven : ¬ acc.1.numShortAddr + acc.1.numExtAddr = 7 := by
      intro hseven
      rw [h.numExtAddr] at hseven
      have hnat := congrArg BitVec.toNat hseven
      rw [BitVec.toNat_add, hnum] at hnat
      have hsum : (dsts.length + 0) % 256 = 7 := hnat
      omega
    have hadd : acc.1.addShortAddr a = { acc.1 with
        numShortAddr := acc.1.numShortAddr + 1
        shortAddrList := acc.1.shortAddrList.set acc.1.numShortAddr.toNat a
        length_shortAddrList := length_set.trans acc.1.length_shortAddrList } :=
      if_neg hnotSeven
    rw [hadd]
    refine ⟨hcount, ?_, h.numExtAddr, ?_⟩
    · show (acc.1.numShortAddr + 1).toNat = _
      rw [htake, BitVec.toNat_add, hnum, length_append]
      show (dsts.length + 1) % 256 = dsts.length + 1
      omega
    · show (acc.1.shortAddrList.set acc.1.numShortAddr.toNat a).take _ = _
      rw [htake, hnum, length_append]
      exact take_set_length (by rw [acc.1.length_shortAddrList]; omega) hlist

/-- The whole loop. -/
theorem filled_foldl (indTxQueue : List LrWpanMacHeader) :
    ∀ dsts acc, Filled dsts acc →
      Filled (dsts ++ shortDsts indTxQueue) (indTxQueue.foldl addPending acc) := by
  induction indTxQueue with
  | nil =>
    intro dsts acc h
    rw [show shortDsts [] = [] from rfl, append_nil]
    exact h
  | cons hdr queue ih =>
    intro dsts acc h
    rw [foldl_cons]
    by_cases hmode : hdr.fctrl.dstAddrMode = shortAddr
    · have hdsts : shortDsts (hdr :: queue) = hdr.addrShortDstAddr :: shortDsts queue :=
        filterMap_cons_some (if_pos hmode)
      have hacc : addPending acc hdr =
          (acc.1.addShortAddr hdr.addrShortDstAddr, acc.2 + 1) := if_pos hmode
      rw [hdsts, hacc, append_cons]
      exact ih _ _ (h.add hdr.addrShortDstAddr)
    · have hdsts : shortDsts (hdr :: queue) = shortDsts queue :=
        filterMap_cons_none (if_neg hmode)
      have hacc : addPending acc hdr = acc := if_neg hmode
      rw [hdsts, hacc]
      exact ih dsts acc h

/-! ## The field -/

/-- **When the field of pending addresses is right**: the queue has at most seven short
destinations, or so many more that the counter of eight bits says seven again. -/
theorem advertises_getPendingAddrFields_iff (indTxQueue : List LrWpanMacHeader) :
    Advertises indTxQueue (getPendingAddrFields indTxQueue) ↔
      (shortDsts indTxQueue).length ≤ 7 ∨ (shortDsts indTxQueue).length % 256 = 7 := by
  have hfilled := filled_foldl indTxQueue [] (empty, 0) filled_empty
  rw [nil_append] at hfilled
  have hcount : (getPendingAddrFields indTxQueue).numShortAddr.toNat =
      (shortDsts indTxQueue).length % 256 := by
    show BitVec.toNat (indTxQueue.foldl addPending (empty, 0)).2 = _
    rw [hfilled.count, BitVec.toNat_ofNat]
  have hlen : ((shortDsts indTxQueue).take 7).length = min 7 (shortDsts indTxQueue).length :=
    length_take
  constructor
  · intro h
    have hnum := h.numShortAddr
    rw [hcount, hlen] at hnum
    omega
  · intro h
    have hnum : (getPendingAddrFields indTxQueue).numShortAddr.toNat =
        ((shortDsts indTxQueue).take 7).length := by
      rw [hcount, hlen]
      omega
    have hseven : (getPendingAddrFields indTxQueue).numShortAddr.toNat ≤ 7 := by
      rw [hnum, hlen]
      omega
    have hspec := (getPendingAddrFields indTxQueue).spec_masked
    rw [and_eq_self (k := 3) rfl (Nat.lt_succ_of_le hseven),
      and_eq_self (a := (getPendingAddrFields indTxQueue).numExtAddr) (k := 3) rfl
        (Nat.zero_lt_succ 7)] at hspec
    refine ⟨?_, hnum, rfl, hspec, ?_, ?_⟩
    · show (getPendingAddrFields indTxQueue).numShortAddr.toNat + 0 ≤ 7
      exact hseven
    · rw [hnum]
      exact hfilled.shortAddrList
    · obtain ⟨octets, hser⟩ : ∃ octets, (getPendingAddrFields indTxQueue).serialize = some octets :=
        ⟨_, if_pos ⟨hseven, Nat.zero_le 7⟩⟩
      refine ⟨octets, hser, length_of_serialize hser, fun f₀ rest => ?_⟩
      obtain ⟨octets', f', hser', hread, hsame⟩ :=
        exists_reads (f := getPendingAddrFields indTxQueue) f₀ hseven (Nat.zero_le 7)
      rw [hser] at hser'
      cases hser'
      exact ⟨f', hread rest, hsame⟩

/-- A data frame to a short address. -/
def toShortAddr (dst : Mac16Address) : LrWpanMacHeader where
  fctrl :=
    { frmType := 1, secU := false, frmPending := false, ackReq := true, panIdComp := false
      reserved := 0, seqNumSup := false, ieListPresent := false, dstAddrMode := shortAddr
      frmVer := 2, srcAddrMode := shortAddr }
  seqNum := 0
  addrDstPanId := 1
  addrSimpleDstAddr := 0
  addrShortDstAddr := dst
  addrExtDstAddr := 0
  addrSrcPanId := 1
  addrSimpleSrcAddr := 0
  addrShortSrcAddr := 1
  addrExtSrcAddr := 0
  auxFrmCntr := 0
  secctrl := ⟨0, implicit, false, false, 0⟩
  auxKeyIdKeySrc64 := 0
  auxKeyIdKeyIndex := 0

/-- With eight destinations the field announces eight addresses. -/
theorem not_advertises_getPendingAddrFields :
    ¬ ∀ indTxQueue, Advertises indTxQueue (getPendingAddrFields indTxQueue) := by
  intro hall
  have htotal := (hall ([2, 3, 4, 5, 6, 7, 8, 9].map toShortAddr)).total
  exact absurd htotal (by decide)

end Ns3Dsme.Codec.PendingAddrFields
