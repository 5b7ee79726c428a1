/-
# The frame check sequence

`LrWpanMacTrailer`: the check sequence of a frame, computed octet by octet with shifts of the
whole accumulator.  It is the reflected CRC-16 of the bits in the order in which they are
transmitted, and detects every burst of errors of at most 16 bits; but the size of a packet is
cut to 16 bits before its octets are copied, so that the rest of a larger packet is not covered.
-/
import Ns3Dsme.Lib.Crc
import Ns3Dsme.Lib.Octets
import Mathlib.Data.List.DropRight

open List List Octet

namespace Ns3Dsme

/-! ## The trailer -/

/-- `LrWpanMacTrailer`. -/
structure LrWpanMacTrailer where
  fcs : BitVec 16 := 0
  calcFcs : Bool := false

namespace LrWpanMacTrailer

/-- A turn of the loop in `GenerateCrc16`. -/
def crcOctet (accumulator : BitVec 16) (data : Octet) : BitVec 16 :=
  let accumulator := accumulator ^^^ data.setWidth 16
  let accumulator := (accumulator >>> 8) ||| (accumulator <<< 8)
  let accumulator := accumulator ^^^ (accumulator &&& 0xff00) <<< 4
  let accumulator := accumulator ^^^ (accumulator >>> 8) >>> 4
  accumulator ^^^ (accumulator &&& 0xff00) >>> 5

/-- `GenerateCrc16`. -/
def generateCrc16 (data : List Octet) : BitVec 16 := data.foldl crcOctet 0

/-- The octets of a packet that `SetFcs` and `CheckFcs` copy: the size is cut to 16 bits. -/
def copied (packet : List Octet) : List Octet :=
  packet.take (BitVec.ofNat 16 packet.length).toNat

def enableFcs (t : LrWpanMacTrailer) (enable : Bool) : LrWpanMacTrailer :=
  { fcs := if enable then t.fcs else 0, calcFcs := enable }

def setFcs (t : LrWpanMacTrailer) (packet : List Octet) : LrWpanMacTrailer :=
  if t.calcFcs then { t with fcs := generateCrc16 (copied packet) } else t

def checkFcs (t : LrWpanMacTrailer) (packet : List Octet) : Bool :=
  if !t.calcFcs then true else generateCrc16 (copied packet) == t.fcs

/-- `Serialize`: the low octet first. -/
def serialize (t : LrWpanMacTrailer) : List Octet := [t.fcs.setWidth 8, (t.fcs >>> 8).setWidth 8]

/-- `RemoveTrailer`: the trailer with the check sequence at the end of a frame, and the packet
before it. -/
def removeTrailer (t : LrWpanMacTrailer) (frame : List Octet) :
    Option (LrWpanMacTrailer × List Octet) :=
  match frame.rtake 2 with
  | [a, b] => some ({ t with fcs := word16 b a }, frame.rdrop 2)
  | _ => none

/-! ## The check sequence is a cyclic redundancy check -/

/-- The bits of a packet in the order of their transmission, the lowest of an octet first. -/
def transmitted : List Octet → List Bool
  | [] => []
  | o :: octets => (range 8).map o.getLsbD ++ transmitted octets

/-- The polynomial `0x1021`, reflected. -/
def polynomial : BitVec 16 := 0x8408

/-- The shifts of the accumulator once the octet has been added to it. -/
def mix (a : BitVec 16) : BitVec 16 := crcOctet a 0

variable (t : LrWpanMacTrailer) (packet : List Octet) (a : BitVec 16)

theorem crcOctet_eq_mix (o : Octet) :
    crcOctet a o = mix (a ^^^ o.setWidth 16) := by
  unfold mix crcOctet
  simp

/-- A sum to which a part of it is added. -/
theorem xor_part (f : BitVec 16 → BitVec 16) (hf : ∀ a b, f (a ^^^ b) = f a ^^^ f b)
    (a b : BitVec 16) : (a ^^^ b) ^^^ f (a ^^^ b) = (a ^^^ f a) ^^^ (b ^^^ f b) := by
  rw [hf]
  ac_rfl

theorem and_xor (a b c : BitVec 16) : (a ^^^ b) &&& c = (a &&& c) ^^^ (b &&& c) := by
  apply BitVec.eq_of_getLsbD_eq
  intro i hi
  simp only [BitVec.getLsbD_and, BitVec.getLsbD_xor]
  exact Bool.and_xor_distrib_right _ _ _

/-- Exchanging the octets of a sum. -/
theorem swap_xor (a b : BitVec 16) :
    (a ^^^ b) >>> 8 ||| (a ^^^ b) <<< 8 = (a >>> 8 ||| a <<< 8) ^^^ (b >>> 8 ||| b <<< 8) := by
  exact eq_of_sameBits (by simp)

/-- The shifts are linear. -/
theorem mix_xor (a b : BitVec 16) : mix (a ^^^ b) = mix a ^^^ mix b := by
  unfold mix crcOctet
  have hzero (c : BitVec 16) : c ^^^ BitVec.setWidth 16 (0 : Octet) = c := by simp
  rw [hzero, hzero, hzero]
  dsimp only
  rw [swap_xor,
    xor_part (fun c => (c &&& 0xff00) <<< 4)
      (fun a b => by rw [and_xor, BitVec.shiftLeft_xor_distrib]),
    xor_part (fun c => c >>> 8 >>> 4)
      (fun a b => by rw [BitVec.ushiftRight_xor_distrib, BitVec.ushiftRight_xor_distrib]),
    xor_part (fun c => (c &&& 0xff00) >>> 5)
      (fun a b => by rw [and_xor, BitVec.ushiftRight_xor_distrib])]

/-- The two octets of the accumulator. -/
theorem eq_xor_octets :
    a = (a.setWidth 8).setWidth 16 ^^^ ((a >>> 8).setWidth 8).setWidth 16 <<< 8 := by
  exact eq_of_sameBits (by simp)

/-- On each of the octets the shifts are those of eight bits. -/
theorem mix_octets (o : Octet) :
    mix (o.setWidth 16) = Crc.steps polynomial 8 (o.setWidth 16) ∧
      mix (o.setWidth 16 <<< 8) = Crc.steps polynomial 8 (o.setWidth 16 <<< 8) := by
  have hall : ∀ o : Octet, mix (o.setWidth 16) = Crc.steps polynomial 8 (o.setWidth 16) ∧
      mix (o.setWidth 16 <<< 8) = Crc.steps polynomial 8 (o.setWidth 16 <<< 8) := by
    decide +kernel
  exact hall o

/-- The shifts of the accumulator are those of eight bits. -/
theorem mix_eq_steps : mix a = Crc.steps polynomial 8 a := by
  rw [eq_xor_octets a, mix_xor, Crc.steps_xor, (mix_octets _).1, (mix_octets _).2]

/-- A turn of the loop reads the eight bits of an octet. -/
theorem crcOctet_eq (o : Octet) :
    crcOctet a o = Crc.register polynomial a ((range 8).map o.getLsbD) := by
  have hword : ∀ o : Octet, Crc.word 16 ((range 8).map o.getLsbD) = o.setWidth 16 := by
    decide +kernel
  rw [crcOctet_eq_mix, mix_eq_steps, Crc.register_eq_steps polynomial _ (by simp), hword]
  rfl

/-- **`GenerateCrc16` is the reflected CRC-16** of the bits that are transmitted, with the initial
value 0. -/
theorem generateCrc16_eq (data : List Octet) :
    generateCrc16 data = Crc.register polynomial 0 (transmitted data) := by
  have hloop (a : BitVec 16) :
      data.foldl crcOctet a = Crc.register polynomial a (transmitted data) := by
    induction data generalizing a with
    | nil => rfl
    | cons o octets ih =>
      show octets.foldl crcOctet (crcOctet a o) = _
      rw [ih, crcOctet_eq, ← Crc.register_append]
      rfl
  exact hloop 0

/-! ## Frames and errors -/

/-- A frame as it is sent, with a trailer that `SetFcs` has computed. -/
def sent (packet : List Octet) : List Octet :=
  packet ++ ((({} : LrWpanMacTrailer).enableFcs true).setFcs packet).serialize

/-- The receiver takes the trailer off and checks it. -/
def accepts (t : LrWpanMacTrailer) (frame : List Octet) : Bool :=
  (t.removeTrailer frame).any fun r => r.1.checkFcs r.2

/-- The frame with the bits inverted that are set in `errors`. -/
def corrupted (frame errors : List Octet) : List Octet := zipWith (· ^^^ ·) frame errors

/-- The errors are not farther apart than 16 bits of the transmission, and there is one. -/
def IsBurst (errors : List Octet) : Prop :=
  ∃ before burst after,
    transmitted errors = replicate before false ++ burst ++ replicate after false ∧
      burst.length ≤ 16 ∧ true ∈ burst

/-- What is wanted of the check sequence of a packet. -/
structure FcsSound (packet : List Octet) : Prop where
  crc : generateCrc16 packet = Crc.register polynomial 0 (transmitted packet)
  intact : ∀ t : LrWpanMacTrailer, t.calcFcs = true → t.accepts (sent packet) = true
  burst : ∀ (t : LrWpanMacTrailer) (errors : List Octet), t.calcFcs = true →
    errors.length = (sent packet).length → IsBurst errors →
    t.accepts (corrupted (sent packet) errors) = false

theorem length_corrupted (frame errors : List Octet) (h : errors.length = frame.length) :
    (corrupted frame errors).length = frame.length := by
  unfold corrupted
  rw [length_zipWith, h, Nat.min_self]

theorem transmitted_append (xs ys : List Octet) :
    transmitted (xs ++ ys) = transmitted xs ++ transmitted ys := by
  induction xs with
  | nil => rfl
  | cons x xs ih =>
    show (range 8).map x.getLsbD ++ transmitted (xs ++ ys) = _
    rw [ih, ← append_assoc]
    rfl

theorem length_transmitted (octets : List Octet) :
    (transmitted octets).length = 8 * octets.length := by
  induction octets with
  | nil => rfl
  | cons o octets ih =>
    show ((range 8).map o.getLsbD ++ transmitted octets).length = _
    rw [length_append, length_map, length_range, ih, length_cons]
    omega

/-- Inverted octets are inverted bits. -/
theorem transmitted_corrupted (frame errors : List Octet) (h : frame.length = errors.length) :
    transmitted (corrupted frame errors)
      = zipWith xor (transmitted frame) (transmitted errors) := by
  induction frame generalizing errors with
  | nil =>
    obtain rfl := eq_nil_of_length_eq_zero h.symm
    rfl
  | cons x frame ih =>
    cases errors with
    | nil => cases h
    | cons y errors =>
      have hrest := ih errors (Nat.succ.inj h)
      show (range 8).map (x ^^^ y).getLsbD ++ transmitted (corrupted frame errors) =
        zipWith xor ((range 8).map x.getLsbD ++ transmitted frame)
          ((range 8).map y.getLsbD ++ transmitted errors)
      rw [hrest, zipWith_append (by simp), zipWith_map, zipWith_self]
      congr 1
      exact map_congr_left fun i _ => BitVec.getLsbD_xor

/-- The bits of a check sequence are those of its two octets. -/
theorem word_transmitted (a b : Octet) : Crc.word 16 (transmitted [a, b]) = word16 b a := by
  unfold word16
  apply BitVec.eq_of_getLsbD_eq
  intro i hi
  rw [Crc.getLsbD_word _ i hi]
  interval_cases i <;> simp [transmitted, range_succ]

/-- The trailer is at the end of the frame. -/
theorem removeTrailer_append (a b : Octet) :
    t.removeTrailer (packet ++ [a, b]) = some ({ t with fcs := word16 b a }, packet) := by
  have htake : (packet ++ [a, b]).rtake 2 = [a, b] := by
    unfold rtake
    rw [length_append, length_cons, length_singleton, Nat.add_sub_cancel,
      drop_left]
  have hdrop : (packet ++ [a, b]).rdrop 2 = packet := by
    unfold rdrop
    rw [length_append, length_cons, length_singleton, Nat.add_sub_cancel,
      take_left]
  unfold removeTrailer
  rw [htake, hdrop]

/-- The receiver compares the check sequence with that of the octets it copies. -/
theorem accepts_append (h : t.calcFcs = true) (packet : List Octet) (a b : Octet) :
    t.accepts (packet ++ [a, b]) = true ↔ generateCrc16 (copied packet) = word16 b a := by
  unfold accepts checkFcs
  rw [removeTrailer_append]
  simp [h]

/-- What is sent ends with the check sequence. -/
theorem exists_sent :
    ∃ a b, sent packet = packet ++ [a, b] ∧ word16 b a = generateCrc16 (copied packet) :=
  ⟨_, _, rfl, word16_octets16 _⟩

theorem copied_of_lt (h : packet.length < 2 ^ 16) :
    copied packet = packet := by
  unfold copied
  rw [BitVec.toNat_ofNat, Nat.mod_eq_of_lt h, take_length]

/-- A frame with a packet that is copied whole is accepted exactly if it is a code word. -/
theorem accepts_iff (h : t.calcFcs = true) (packet : List Octet) (hsize : packet.length < 2 ^ 16)
    (a b : Octet) :
    t.accepts (packet ++ [a, b]) = true ↔
      Crc.register polynomial 0 (transmitted (packet ++ [a, b])) = 0 := by
  rw [accepts_append t h, copied_of_lt packet hsize, generateCrc16_eq, transmitted_append,
    Crc.register_append, Crc.register_eq_zero_iff (by decide) _ _ (by
      rw [length_transmitted]
      rfl), word_transmitted]

/-! ## Which packets are protected -/

/-- What is sent is accepted, whatever its size. -/
theorem accepts_sent (h : t.calcFcs = true) (packet : List Octet) :
    t.accepts (sent packet) = true := by
  obtain ⟨a, b, hsent, hfcs⟩ := exists_sent packet
  rw [hsent, accepts_append t h, hfcs]

/-- A frame of the same length, as a packet and its check sequence. -/
theorem exists_append_pair {frame packet : List Octet} (h : frame.length = packet.length + 2) :
    ∃ packet' a b, frame = packet' ++ [a, b] ∧ packet'.length = packet.length := by
  have hlength : (frame.drop packet.length).length = 2 := by
    rw [length_drop]
    omega
  obtain ⟨a, b, hpair⟩ := length_eq_two.mp hlength
  refine ⟨frame.take packet.length, a, b, ?_, ?_⟩
  · rw [← hpair, take_append_drop]
  · rw [length_take]
    omega

/-- Bursts in a packet that is copied whole are detected. -/
theorem rejects_burst (h : t.calcFcs = true) (packet errors : List Octet)
    (hsize : packet.length < 2 ^ 16) (hlength : errors.length = (sent packet).length)
    (hburst : IsBurst errors) : t.accepts (corrupted (sent packet) errors) = false := by
  obtain ⟨before, burst, after, hbits, hshort, hone⟩ := hburst
  have hintact := accepts_sent t h packet
  have hsame := length_corrupted (sent packet) errors hlength
  have hcorrupted := transmitted_corrupted (sent packet) errors hlength.symm
  obtain ⟨a, b, hsent, -⟩ := exists_sent packet
  rw [hsent, accepts_iff t h packet hsize, ← hsent] at hintact
  have hpair : (corrupted (sent packet) errors).length = packet.length + 2 := by
    rw [hsame, hsent]
    simp
  obtain ⟨packet', a', b', hframe, hpacket'⟩ := exists_append_pair hpair
  rw [Bool.eq_false_iff, hframe, ne_eq, accepts_iff t h packet' (hpacket' ▸ hsize), ← hframe,
    hcorrupted]
  intro hzero
  -- the register is the sum of that of the code word and that of the errors
  have hsum := Crc.register_xor polynomial (transmitted (sent packet)) (transmitted errors)
    (by rw [length_transmitted, length_transmitted, hlength]) 0 0
  rw [show (0 : BitVec 16) ^^^ 0 = 0 from rfl, hzero, hintact, hbits] at hsum
  have herrors := hsum.trans BitVec.zero_xor
  exact Crc.register_burst_ne_zero (by decide) before burst after hshort hone herrors.symm

/-- An inverted bit in one octet. -/
def oneError (before after : ℕ) : List Octet :=
  replicate before 0 ++ 1 :: replicate after 0

theorem transmitted_replicate_zero (n : ℕ) :
    transmitted (replicate n 0) = replicate (8 * n) false := by
  induction n with
  | zero => rfl
  | succ n ih =>
    have hzero : (range 8).map (0 : Octet).getLsbD = replicate 8 false := by decide
    show (range 8).map (0 : Octet).getLsbD ++ transmitted (replicate n 0) = _
    rw [ih, hzero, replicate_append_replicate]
    congr 1
    omega

theorem isBurst_oneError (before after : ℕ) : IsBurst (oneError before after) := by
  have hone : (range 8).map (1 : Octet).getLsbD = [true] ++ replicate 7 false := by
    decide
  refine ⟨8 * before, [true], 7 + 8 * after, ?_, by simp, mem_singleton_self true⟩
  unfold oneError
  rw [transmitted_append, transmitted_replicate_zero]
  show _ ++ ((range 8).map (1 : Octet).getLsbD ++ transmitted (replicate after 0)) = _
  rw [hone, transmitted_replicate_zero, append_assoc, replicate_append_replicate,
    append_assoc]

theorem corrupted_replicate_zero (octets : List Octet) :
    corrupted octets (replicate octets.length 0) = octets := by
  induction octets with
  | nil => rfl
  | cons o octets ih =>
    show (o ^^^ 0) :: corrupted octets (replicate octets.length 0) = _
    rw [ih]
    simp

/-- An error behind the octets that are copied is not seen. -/
theorem accepts_oneError (h : t.calcFcs = true) (packet : List Octet)
    (hsize : 2 ^ 16 ≤ packet.length) :
    t.accepts (corrupted (sent packet) (oneError (packet.length % 2 ^ 16)
      (packet.length - packet.length % 2 ^ 16 + 1))) = true := by
  generalize hn : packet.length = n at *
  generalize hm : n % 2 ^ 16 = m at *
  have hlt : m < n := by omega
  obtain ⟨a, b, hsent, hfcs⟩ := exists_sent packet
  have herrors : oneError m (n - m + 1) = oneError m (n - m - 1) ++ replicate 2 0 := by
    unfold oneError
    rw [append_assoc, cons_append, replicate_append_replicate]
    congr 3
    omega
  have hlength : (oneError m (n - m - 1)).length = n := by
    unfold oneError
    rw [length_append, length_cons, length_replicate, length_replicate]
    omega
  have hframe : corrupted (sent packet) (oneError m (n - m + 1))
      = corrupted packet (oneError m (n - m - 1)) ++ [a, b] := by
    rw [hsent, herrors]
    unfold corrupted
    rw [zipWith_append (by rw [hlength, hn])]
    congr 1
    exact corrupted_replicate_zero [a, b]
  have hcopied : copied (corrupted packet (oneError m (n - m - 1))) = copied packet := by
    have hsame := length_corrupted packet (oneError m (n - m - 1)) (hlength.trans hn.symm)
    have hfront : (oneError m (n - m - 1)).take m = replicate m 0 := by
      unfold oneError
      rw [take_append_of_le_length (by simp)]
      exact take_of_length_le (by simp)
    have htake : (packet.take m).length = m := by
      rw [length_take]
      omega
    unfold copied
    rw [hsame, hn, BitVec.toNat_ofNat, hm]
    unfold corrupted
    rw [take_zipWith, hfront]
    have hzero := corrupted_replicate_zero (packet.take m)
    rwa [htake] at hzero
  rw [hframe, accepts_append t h, hcopied, hfcs]

/-- An error in a larger packet can go unnoticed. -/
theorem not_fcsSound_of_le (hsize : 2 ^ 16 ≤ packet.length) :
    ¬ FcsSound packet := by
  intro hsound
  obtain ⟨a, b, hsent, -⟩ := exists_sent packet
  have hlt : packet.length % 2 ^ 16 < packet.length :=
    Nat.lt_of_lt_of_le (Nat.mod_lt _ (by decide)) hsize
  have hlength : (oneError (packet.length % 2 ^ 16)
      (packet.length - packet.length % 2 ^ 16 + 1)).length = (sent packet).length := by
    unfold oneError
    rw [hsent, length_append, length_append, length_cons, length_replicate,
      length_replicate]
    show _ = packet.length + 2
    omega
  have hrejected := hsound.burst { calcFcs := true } _ rfl hlength (isBurst_oneError _ _)
  rw [accepts_oneError { calcFcs := true } rfl packet hsize] at hrejected
  cases hrejected

/-- **The check sequence is sound** for the packets of less than `2 ^ 16` octets: it is the CRC-16
of the packet, what is sent is accepted, and every burst of errors of at most 16 bits is
detected. -/
theorem fcsSound_iff (packet : List Octet) : FcsSound packet ↔ packet.length < 2 ^ 16 := by
  constructor
  · intro hsound
    by_contra hsize
    exact not_fcsSound_of_le packet (Nat.not_lt.mp hsize) hsound
  · intro hsize
    constructor
    · exact generateCrc16_eq packet
    · exact fun t h => accepts_sent t h packet
    · exact fun t errors h hlength hburst => rejects_burst t h packet errors hsize hlength hburst

/-- Of a packet of 65537 octets only the first one is covered. -/
theorem not_fcsSound : ¬ FcsSound (replicate 65537 0) :=
  not_fcsSound_of_le (replicate 65537 0) (by
    rw [length_replicate]
    decide)

end LrWpanMacTrailer

end Ns3Dsme
