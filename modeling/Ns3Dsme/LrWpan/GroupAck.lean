/-
# Group acknowledgments

The two group acknowledgment schemes, as operations on the `GroupAck` members.  In the
enhanced scheme a frame owns a bit of a 64-bit hash table, found by hashing the sum of
the sender's address and the sequence number and probing past occupied bits; in the
legacy scheme it owns the bit of a GTS.
-/
import Ns3Dsme.LrWpan.State

namespace Ns3Dsme

/-! ## The hash table key -/

/-- The 20 octets `sprintf(addrBuf, "%d", n)` leaves in a zeroed buffer: the sum is a word of 32
bits, and it is printed as a signed number. -/
def addrBuf (n : ℕ) : List Char :=
  let digits :=
    if n % 4294967296 < 2147483648 then Nat.toDigits 10 (n % 4294967296)
    else '-' :: Nat.toDigits 10 (4294967296 - n % 4294967296)
  digits ++ List.replicate (20 - digits.length) (Char.ofNat 0)

/-- `Hash64(addrBuf, bufSize) % primeNumClosestToBitmapSize`: the key before probing.  The
hash input is the *sum* of the address and the sequence number. -/
def hashTableKey (hash64 : List Char → BitVec 64) (devAddr : Mac16Address)
    (packetSeq : ℕ) : ℕ :=
  (hash64 (addrBuf (devAddr.toNat + packetSeq))).toNat % 61

/-- `IsHashTableKeyCollision`.  The mask `1 << key` is undefined from 64 on. -/
def isHashTableKeyCollision (bitmap : BitVec 64) (key : ℕ) : Exec Bool :=
  if key < 64 then .ok (bitmap.getLsbD key) else .error .undefinedShift

/-- `DoQuadraticProb`. -/
def doQuadraticProb (bitmap : BitVec 64) (key count : ℕ) : Exec ℕ :=
  if key < 64 then
    if bitmap.getLsbD key then doQuadraticProb bitmap (key + count * count) (count + 1)
    else .ok key
  else .error .undefinedShift
termination_by (64 - key, 1 - count)
decreasing_by
  cases count with
  | zero =>
    right
    omega
  | succ n =>
    left
    have hpos : 0 < (n + 1) * (n + 1) := Nat.mul_pos (Nat.succ_pos n) (Nat.succ_pos n)
    omega

/-- `CheckCollision`. -/
def checkCollision (bitmap : BitVec 64) (key : ℕ) : Exec ℕ := do
  let collision ← isHashTableKeyCollision bitmap key
  if collision then doQuadraticProb bitmap key 1 else .ok key

/-- `GenerateHashTableKey`, against the bitmap of the device that computes it. -/
def generateHashTableKey (hash64 : List Char → BitVec 64) (bitmap : BitVec 64)
    (devAddr : Mac16Address) (packetSeq : ℕ) : Exec ℕ :=
  checkCollision bitmap (hashTableKey hash64 devAddr packetSeq)

/-- The key before probing is a bit of the table. -/
theorem hashTableKey_lt (hash64 : List Char → BitVec 64) (devAddr : Mac16Address) (packetSeq : ℕ) :
    hashTableKey hash64 devAddr packetSeq < 61 :=
  Nat.mod_lt _ (by omega)

/-- Without a collision the key is not moved. -/
theorem generateHashTableKey_eq (hash64 : List Char → BitVec 64) (bitmap : BitVec 64)
    (devAddr : Mac16Address) (packetSeq : ℕ)
    (h : bitmap.getLsbD (hashTableKey hash64 devAddr packetSeq) = false) :
    generateHashTableKey hash64 bitmap devAddr packetSeq
      = .ok (hashTableKey hash64 devAddr packetSeq) := by
  have hlt := hashTableKey_lt hash64 devAddr packetSeq
  unfold generateHashTableKey checkCollision isHashTableKeyCollision
  rw [if_pos (by omega), h]
  rfl

/-- A key that is returned is a free bit of the table. -/
theorem doQuadraticProb_free (bitmap : BitVec 64) (key count k : ℕ)
    (h : doQuadraticProb bitmap key count = .ok k) : k < 64 ∧ bitmap.getLsbD k = false := by
  fun_induction doQuadraticProb bitmap key count with
  | case1 key count hlt hbit ih => exact ih h
  | case2 key count hlt hbit =>
    cases h
    exact ⟨hlt, by simpa using hbit⟩
  | case3 key count hlt => cases h

/-- The same for the key of a frame. -/
theorem generateHashTableKey_free (hash64 : List Char → BitVec 64) (bitmap : BitVec 64)
    (devAddr : Mac16Address) (packetSeq k : ℕ)
    (h : generateHashTableKey hash64 bitmap devAddr packetSeq = .ok k) :
    k < 64 ∧ bitmap.getLsbD k = false := by
  by_cases hfree : bitmap.getLsbD (hashTableKey hash64 devAddr packetSeq) = false
  · rw [generateHashTableKey_eq hash64 bitmap devAddr packetSeq hfree] at h
    cases h
    have hlt := hashTableKey_lt hash64 devAddr packetSeq
    exact ⟨by omega, hfree⟩
  · have hlt := hashTableKey_lt hash64 devAddr packetSeq
    unfold generateHashTableKey checkCollision isHashTableKeyCollision at h
    rw [if_pos (by omega), Bool.eq_true_of_not_eq_false hfree] at h
    exact doQuadraticProb_free bitmap _ 1 k h

/-! ## Which keys are found -/

/-- The cell that is probed after `n` collisions. -/
def probeCell (key : ℕ) : ℕ → ℕ
  | 0 => key
  | n + 1 => probeCell key n + (n + 1) * (n + 1)

/-- The probes move away from the start of the table. -/
theorem probeCell_mono (key : ℕ) {m n : ℕ} (h : m ≤ n) : probeCell key m ≤ probeCell key n := by
  induction n with
  | zero =>
    obtain rfl : m = 0 := by omega
    exact Nat.le_refl _
  | succ n ih =>
    by_cases hmn : m = n + 1
    · rw [hmn]
    · exact Nat.le_trans (ih (by omega)) (Nat.le_add_right _ _)

/-- Probing finds a key when it comes by a free cell before it leaves the table. -/
theorem exists_doQuadraticProb_iff (bitmap : BitVec 64) (key n : ℕ) :
    (∃ k, doQuadraticProb bitmap (probeCell key n) (n + 1) = .ok k) ↔
      ∃ m, n ≤ m ∧ probeCell key m < 64 ∧ bitmap.getLsbD (probeCell key m) = false := by
  by_cases hlt : probeCell key n < 64
  · by_cases hbit : bitmap.getLsbD (probeCell key n) = true
    · have hnext := exists_doQuadraticProb_iff bitmap key (n + 1)
      have hstep : doQuadraticProb bitmap (probeCell key n) (n + 1) =
          doQuadraticProb bitmap (probeCell key (n + 1)) (n + 1 + 1) := by
        rw [doQuadraticProb.eq_1 bitmap (probeCell key n), if_pos hlt, if_pos hbit]
        rfl
      rw [hstep, hnext]
      constructor
      · rintro ⟨m, hm, hfree⟩
        exact ⟨m, by omega, hfree⟩
      · rintro ⟨m, hm, hfree⟩
        -- the cell that is occupied is not the one that is found
        have hne : m ≠ n := by
          rintro rfl
          rw [hbit] at hfree
          exact Bool.noConfusion hfree.2
        exact ⟨m, by omega, hfree⟩
    · rw [doQuadraticProb.eq_1, if_pos hlt, if_neg hbit]
      exact ⟨fun _ => ⟨n, Nat.le_refl n, hlt, by simpa using hbit⟩, fun _ => ⟨_, rfl⟩⟩
  · rw [doQuadraticProb.eq_1, if_neg hlt]
    constructor
    · rintro ⟨k, hk⟩
      cases hk
    · rintro ⟨m, hm, hlt', -⟩
      exact absurd (Nat.lt_of_le_of_lt (probeCell_mono key hm) hlt') hlt
termination_by 64 - probeCell key n
decreasing_by
  have hpos : 0 < (n + 1) * (n + 1) := Nat.mul_pos (Nat.succ_pos n) (Nat.succ_pos n)
  show 64 - (probeCell key n + (n + 1) * (n + 1)) < 64 - probeCell key n
  omega

/-- The first look at the table is the first turn of the probing. -/
theorem checkCollision_eq (bitmap : BitVec 64) {key : ℕ} (hkey : key < 64) :
    checkCollision bitmap key = doQuadraticProb bitmap key 1 := by
  unfold checkCollision isHashTableKeyCollision
  rw [if_pos hkey]
  show (if bitmap.getLsbD key = true then doQuadraticProb bitmap key 1 else .ok key) = _
  by_cases hbit : bitmap.getLsbD key = true
  · rw [if_pos hbit]
  · rw [if_neg hbit, doQuadraticProb.eq_1, if_pos hkey, if_neg hbit]

/-- **When a key is found.**  A key is returned, below 64 and free, exactly if one of the cells
that are probed before the probes leave the table is free. -/
theorem generateHashTableKey_iff (hash64 : List Char → BitVec 64) (bitmap : BitVec 64)
    (devAddr : Mac16Address) (packetSeq : ℕ) :
    (∃ key, generateHashTableKey hash64 bitmap devAddr packetSeq = .ok key ∧ key < 64 ∧
        bitmap.getLsbD key = false) ↔
      ∃ n, probeCell (hashTableKey hash64 devAddr packetSeq) n < 64 ∧
        bitmap.getLsbD (probeCell (hashTableKey hash64 devAddr packetSeq) n) = false := by
  have hkey := hashTableKey_lt hash64 devAddr packetSeq
  have hcheck : generateHashTableKey hash64 bitmap devAddr packetSeq =
      doQuadraticProb bitmap (probeCell (hashTableKey hash64 devAddr packetSeq) 0) (0 + 1) :=
    checkCollision_eq bitmap (by omega)
  have hfound := exists_doQuadraticProb_iff bitmap (hashTableKey hash64 devAddr packetSeq) 0
  rw [← hcheck] at hfound
  constructor
  · rintro ⟨key, hok, -⟩
    obtain ⟨m, -, hfree⟩ := hfound.mp ⟨key, hok⟩
    exact ⟨m, hfree⟩
  · rintro ⟨n, hfree⟩
    obtain ⟨key, hok⟩ := hfound.mpr ⟨n, Nat.zero_le n, hfree⟩
    exact ⟨key, hok, generateHashTableKey_free hash64 bitmap devAddr packetSeq key hok⟩

/-- A free bit is not enough: from the cells 60 and 61 the probes leave the table. -/
theorem not_exists_generateHashTableKey :
    ¬ ∀ (hash64 : List Char → BitVec 64) (bitmap : BitVec 64) (devAddr : Mac16Address)
      (packetSeq : ℕ), (∃ i < 64, bitmap.getLsbD i = false) →
        ∃ key, generateHashTableKey hash64 bitmap devAddr packetSeq = .ok key ∧ key < 64 ∧
          bitmap.getLsbD key = false := by
  intro hall
  obtain ⟨key, hok, -⟩ := hall (fun _ => 60) 0x3000000000000000 1 0 ⟨0, by decide, by decide⟩
  have hfault : generateHashTableKey (fun _ => 60) 0x3000000000000000 1 0 =
      .error .undefinedShift := by
    unfold generateHashTableKey hashTableKey
    rw [checkCollision_eq _ (by decide), doQuadraticProb.eq_1, if_pos (by decide),
      if_pos (by decide), doQuadraticProb.eq_1, if_pos (by decide), if_pos (by decide),
      doQuadraticProb.eq_1, if_neg (by decide)]
  rw [hfault] at hok
  cases hok

/-! ## The enhanced scheme -/

namespace GroupAck

/-- The coordinator's side of `PdDataIndication`: mark a received frame. -/
def enhancedMark (hash64 : List Char → BitVec 64) (g : GroupAck) (srcAddr : Mac16Address)
    (seqNum : BitVec 8) : Exec GroupAck := do
  let bitLocation ← generateHashTableKey hash64 g.enhancedGACKBitmap srcAddr seqNum.toNat
  .ok { g with enhancedGACKBitmap := g.enhancedGACKBitmap ||| BitVec.twoPow 64 bitLocation }

/-- The sender's side of `PdDataConfirm`: remember a frame that was sent in a GTS. -/
def enhancedSent (g : GroupAck) (seqNum : BitVec 8) : GroupAck :=
  { g with groupAckPktBuffer := g.groupAckPktBuffer ++ [seqNum.toNat] }

/-- The loop over `m_groupAckPktBuffer`: which of the buffered frames count as
acknowledged, and the own bitmap afterwards. -/
def enhancedVerify (hash64 : List Char → BitVec 64) (self : Mac16Address) :
    List ℕ → BitVec 64 → BitVec 64 → Exec (List Bool × BitVec 64)
  | [], own, _ => .ok ([], own)
  | seq :: buffer, own, received => do
    let bitLocation ← generateHashTableKey hash64 own self seq
    let own := own ||| BitVec.twoPow 64 bitLocation
    if received.getLsbD bitLocation then
      let rest ← enhancedVerify hash64 self buffer own
        (received &&& ~~~ BitVec.twoPow 64 bitLocation)
      .ok (true :: rest.1, rest.2)
    else
      let rest ← enhancedVerify hash64 self buffer own received
      .ok (false :: rest.1, rest.2)

/-- The verdicts a sender reaches on an enhanced group acknowledgment; an empty bitmap
acknowledges nothing and leaves the buffer for the next one. -/
def enhancedVerdicts (hash64 : List Char → BitVec 64) (self : Mac16Address) (g : GroupAck)
    (received : BitVec 64) : Exec (List Bool) :=
  if received = 0 then .ok (g.groupAckPktBuffer.map fun _ => false)
  else do
    let rest ← enhancedVerify hash64 self g.groupAckPktBuffer g.enhancedGACKBitmap received
    .ok rest.1

/-- `ResetEnhancedGroupAckBitmap` and `ResetEnhancedGroupAckBuffer`. -/
def enhancedReset (g : GroupAck) : GroupAck :=
  { g with enhancedGACKBitmap := 0, groupAckPktBuffer := [] }

/-! ## The legacy scheme -/

/-- The coordinator's side of `PdDataIndication`: set the bit of `m_curGTSIdx`, the index
into the *vector* of the current superframe.  The bitmap has 16 bits, so a higher bit is
cut off.  No handler reads the device list and the index list; their shift counts wrap
at 32. -/
def legacyMark (g : GroupAck) (curGTSIdx : ℕ) (srcAddr : Mac16Address) : Exec GroupAck :=
  if curGTSIdx < 32 then
    .ok { g with
      legacyGackBitmap := g.legacyGackBitmap ||| BitVec.twoPow 16 curGTSIdx
      legacyGackDevList := g.legacyGackDevList ||| BitVec.twoPow 8 (srcAddr.toNat % 32)
      legacyGackIdx := g.legacyGackIdx |||
        BitVec.ofNat 16 ((curGTSIdx % 16) <<< (g.legacyGackIndexCounter * 4 % 32))
      legacyGackDirections := 0
      legacyGackIndexCounter := g.legacyGackIndexCounter + 1 }
  else .error .undefinedShift

/-- The sender's side of `PdDataConfirm`: remember `m_currentGTSIdx`, which is the *slot ID*
of the current entry. -/
def legacySent (g : GroupAck) (currentGTSIdx : ℕ) : GroupAck :=
  { g with legacyGackGTSIdxBuffer := g.legacyGackGTSIdxBuffer ++ [currentGTSIdx] }

/-- The loop over `m_legacyGackGTSIdxBuffer`. -/
def legacyVerdicts (g : GroupAck) (received : BitVec 16) : List Bool :=
  g.legacyGackGTSIdxBuffer.map fun slot => received.getLsbD slot

end GroupAck

end Ns3Dsme
