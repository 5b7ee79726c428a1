/-
# Fragmentation

`DoFragmentation` cuts a compressed packet into pieces that fit the frames of the link, and
`ProcessFragment` puts them together again.  The offsets are those of the uncompressed packet, so
the receiver decompresses the first fragment to know where it ends, and keeps the fragment as it
came for the packet that it hands up.
-/
import Ns3Dsme.Lib.Machine
import Ns3Dsme.Lib.Reassembly
import Ns3Dsme.SixLowPan.Hc1
import Ns3Dsme.SixLowPan.MeshHeaders
import Mathlib.Data.List.AList

open List Octet Program Reassembly

namespace Ns3Dsme.SixLowPan

/-! ## The headers -/

/-- `SixLowPanFrag1`. -/
structure SixLowPanFrag1 where
  datagramSize : BitVec 16
  datagramTag : BitVec 16
  deriving DecidableEq

/-- `SixLowPanFragN`. -/
structure SixLowPanFragN where
  datagramSize : BitVec 16
  datagramTag : BitVec 16
  datagramOffset : Octet
  deriving DecidableEq

/-- What `SetDatagramSize` keeps of a size. -/
def datagramSizeOf (size : ℕ) : BitVec 16 := BitVec.ofNat 16 size &&& 0x7FF

/-- The size with the dispatch value in the bits that it leaves, and the tag, its low octet
first. -/
def writeDatagram (dispatch size tag : BitVec 16) : List Octet :=
  octets16 (size ||| dispatch <<< 8) ++ (octets16 tag).reverse

/-- The size and the tag behind a dispatch value. -/
def readDatagram : List Octet → Except PacketFault (BitVec 16 × BitVec 16 × List Octet)
  | a :: b :: c :: d :: octets => .ok (word16 a b &&& 0x7FF, word16 d c, octets)
  | _ => .error .overrun

def SixLowPanFrag1.serialize (h : SixLowPanFrag1) : List Octet :=
  writeDatagram 0xC0 h.datagramSize h.datagramTag

def SixLowPanFrag1.deserialize (octets : List Octet) :
    Except PacketFault (SixLowPanFrag1 × List Octet) :=
  (readDatagram octets).map fun r => (⟨r.1, r.2.1⟩, r.2.2)

def SixLowPanFragN.serialize (h : SixLowPanFragN) : List Octet :=
  writeDatagram 0xE0 h.datagramSize h.datagramTag ++ [h.datagramOffset]

def SixLowPanFragN.deserialize (octets : List Octet) :
    Except PacketFault (SixLowPanFragN × List Octet) := do
  let r ← readDatagram octets
  let r' ← readU8 r.2.2
  return (⟨r.1, r.2.1, r'.1⟩, r'.2)

/-! ## Cutting -/

/-- A difference of 32-bit numbers. -/
def sub32 (a b : ℕ) : ℕ := (a + (2 ^ 32 - b % 2 ^ 32)) % 2 ^ 32

/-- `CreateFragment`. -/
def createFragment (packet : List Octet) (start length : ℕ) : Except PacketFault (List Octet) :=
  if (start + length) % 2 ^ 32 ≤ packet.length then .ok ((packet.drop start).take length)
  else .error .assertFailed

/-- A packet on its way into fragments: the arguments of `DoFragmentation`, the MTU of the link
and the tag that was drawn. -/
structure Datagram where
  src : MacAddress
  dst : MacAddress
  packet : List Octet
  origPacketSize : ℕ
  origHdrSize : ℕ
  extraHdrSize : ℕ
  l2Mtu : ℕ
  tag : BitVec 16
  deriving DecidableEq

namespace Datagram

def compressedHeaderSize (d : Datagram) : ℕ :=
  sub32 d.packet.length (sub32 d.origPacketSize d.origHdrSize)

/-- The size of the first fragment without its header. -/
def firstSize (d : Datagram) : ℕ :=
  let size := sub32 (sub32 (sub32 d.l2Mtu 4) d.compressedHeaderSize) d.extraHdrSize
  (size - size % 8 + d.compressedHeaderSize) % 2 ^ 32

/-- The size of the other fragments without their header. -/
def nextSize (d : Datagram) : ℕ :=
  let size := sub32 (sub32 d.l2Mtu 5) d.extraHdrSize
  size - size % 8

/-- One of the other fragments, unless it would be empty. -/
def nextFragment (d : Datagram) (offset offsetData size : ℕ) :
    Except PacketFault (List (List Octet)) :=
  if 0 < size then do
    let fragment ← createFragment d.packet offsetData size
    let header : SixLowPanFragN :=
      ⟨datagramSizeOf d.origPacketSize, d.tag, BitVec.ofNat 8 (offset >>> 3)⟩
    return [header.serialize ++ fragment]
  else .ok []

/-- The loop for the other fragments.  `turns` bounds its turns; it is a fault to need more. -/
def nextFragments (d : Datagram) (offset offsetData : ℕ) :
    ℕ → Except PacketFault (List (List Octet))
  | 0 => .error .overrun
  | turns + 1 =>
    if (offsetData + d.nextSize) % 2 ^ 32 > d.packet.length then
      d.nextFragment offset offsetData (sub32 d.packet.length offsetData)
    else do
      let here ← d.nextFragment offset offsetData d.nextSize
      let rest ← d.nextFragments ((offset + d.nextSize) % 2 ^ 16)
        ((offsetData + d.nextSize) % 2 ^ 16) turns
      return here ++ rest

def doFragmentation (d : Datagram) : Except PacketFault (List (List Octet)) :=
  if d.l2Mtu ≤ 4 then .error .assertFailed
  else do
    let fragment1 ← createFragment d.packet 0 d.firstSize
    let header : SixLowPanFrag1 := ⟨datagramSizeOf d.origPacketSize, d.tag⟩
    let rest ← d.nextFragments
      (sub32 (d.firstSize + d.origHdrSize) d.compressedHeaderSize % 2 ^ 16) (d.firstSize % 2 ^ 16)
      (d.packet.length + 1)
    return (header.serialize ++ fragment1) :: rest

end Datagram

/-! ## The fragments of one packet -/

/-- `Fragments`: the decompressed fragments with their offsets, and the first one as it came. -/
structure Fragments where
  packetSize : ℕ
  fragments : List (List Octet × ℕ) := []
  firstFragment : Option (List Octet) := none
  deriving DecidableEq

namespace Fragments

/-- The loop of `AddFragment`: before the first fragment with a greater offset, unless there is
one with the same offset. -/
def insertFragment (fragment : List Octet) (offset : ℕ) :
    List (List Octet × ℕ) → Except PacketFault (List (List Octet × ℕ))
  | [] => .ok [(fragment, offset)]
  | it :: rest =>
    if it.2 > offset then .ok ((fragment, offset) :: it :: rest)
    else if it.2 = offset then
      if fragment.length = it.1.length then .ok (it :: rest) else .error .assertFailed
    else (insertFragment fragment offset rest).map fun rest => it :: rest

def addFragment (f : Fragments) (fragment : List Octet) (offset : ℕ) :
    Except PacketFault Fragments :=
  (insertFragment fragment offset f.fragments).map fun fragments => { f with fragments }

def addFirstFragment (f : Fragments) (packet : List Octet) : Fragments :=
  { f with firstFragment := some packet }

/-- The loop of `IsEntire`: the end of the last fragment, if there is no gap. -/
def lastEndOffset (last : ℕ) : List (List Octet × ℕ) → Option ℕ
  | [] => some last
  | it :: rest =>
    if last < it.2 then none
    else lastEndOffset (max last ((it.1.length + it.2) % 2 ^ 16)) rest

def isEntire (f : Fragments) : Bool :=
  !f.fragments.isEmpty && lastEndOffset 0 f.fragments == some f.packetSize

/-- The loop of `GetPacket`. -/
def addAtEnd (packet : List Octet) (last : ℕ) :
    List (List Octet × ℕ) → Except PacketFault (List Octet)
  | [] => .ok packet
  | it :: rest =>
    if last > it.2 then .error .aborted
    else addAtEnd (packet ++ it.1) ((last + it.1.length) % 2 ^ 16) rest

/-- Without a first fragment or any other there is nothing to start with. -/
def getPacket (f : Fragments) : Except PacketFault (List Octet) :=
  match f.firstFragment, f.fragments with
  | some first, it :: rest => addAtEnd first (it.1.length % 2 ^ 16) rest
  | _, _ => .error .uninitialised

end Fragments

/-! ## Putting together -/

/-- `FragmentKey_t`: the addresses, the size and the tag. -/
abbrev FragmentKey := (MacAddress × MacAddress) × (BitVec 16 × BitVec 16)

/-- What the device remembers of packets of which fragments are missing.  The timeouts are in the
order in which they will happen. -/
structure Reassembler where
  fragments : AList fun _ : FragmentKey => Fragments := ∅
  timeoutEventList : List FragmentKey := []
  fragmentReassemblyListSize : ℕ := 0

namespace Reassembler

/-- The first fragment without its compression, which is needed for its size. -/
def openFirst (packet : List Octet) (src dst : MacAddress) : Except PacketFault (List Octet) :=
  match getDispatchType (packet.headD 0) with
  | .ipv6 => (readU8 packet).map Prod.snd
  | .hc1 => decompressLowPanHc1 packet src dst
  | _ => .error .aborted

/-- What `ProcessFragment` reads of a packet: the key, the offset and the fragment. -/
def readFragment (packet : List Octet) (src dst : MacAddress) (isFirst : Bool) :
    Except PacketFault (FragmentKey × ℕ × List Octet) :=
  if isFirst then do
    let r ← SixLowPanFrag1.deserialize packet
    let p ← openFirst r.2 src dst
    return (((src, dst), (r.1.datagramSize, r.1.datagramTag)), 0, p)
  else do
    let r ← SixLowPanFragN.deserialize packet
    return (((src, dst), (r.1.datagramSize, r.1.datagramTag)),
      r.1.datagramOffset.toNat <<< 3, r.2)

/-- Make room for one packet more: the oldest one is given up if the list is full. -/
def eraseOldest (s : Reassembler) : Except PacketFault Reassembler :=
  if s.fragmentReassemblyListSize ≠ 0 ∧ s.fragmentReassemblyListSize ≤ s.fragments.keys.length then
    match s.timeoutEventList with
    | oldestKey :: _ =>
      match s.fragments.lookup oldestKey with
      | some _ => .ok { s with
          timeoutEventList := s.timeoutEventList.erase oldestKey
          fragments := s.fragments.erase oldestKey }
      | none => .error .uninitialised
    | [] => .error .overrun
  else .ok s

/-- The entry of a key, which is made if there is none. -/
def findFragments (s : Reassembler) (key : FragmentKey) :
    Except PacketFault (Fragments × Reassembler) :=
  match s.fragments.lookup key with
  | some fragments => .ok (fragments, s)
  | none => do
    let s ← s.eraseOldest
    let fragments : Fragments := { packetSize := key.2.1.toNat }
    return (fragments, { s with
      fragments := s.fragments.insert key fragments
      timeoutEventList := s.timeoutEventList ++ [key] })

/-- Hand up the packet if it is entire, without the header of its first fragment. -/
def finish (s : Reassembler) (key : FragmentKey) (fragments : Fragments) :
    Except PacketFault (Option (List Octet) × Reassembler) :=
  if fragments.isEntire then do
    let packet ← fragments.getPacket
    let r ← SixLowPanFrag1.deserialize packet
    return (some r.2, { s with
      timeoutEventList := s.timeoutEventList.erase key
      fragments := s.fragments.erase key })
  else .ok (none, { s with fragments := s.fragments.insert key fragments })

/-- `ProcessFragment`: the packet, if it returns true. -/
def processFragment (s : Reassembler) (packet : List Octet) (src dst : MacAddress)
    (isFirst : Bool) : Except PacketFault (Option (List Octet) × Reassembler) := do
  let r ← readFragment packet src dst isFirst
  let found ← s.findFragments r.1
  let fragments ← found.1.addFragment r.2.2 r.2.1
  found.2.finish r.1 (if isFirst then fragments.addFirstFragment packet else fragments)

end Reassembler

/-! ## The headers are read as they are written -/

theorem datagramSizeOf_and (size : ℕ) : datagramSizeOf size &&& 0x7FF = datagramSizeOf size := by
  unfold datagramSizeOf
  rw [BitVec.and_assoc, BitVec.and_self]

theorem toNat_datagramSizeOf {size : ℕ} (h : size < 2 ^ 11) :
    (datagramSizeOf size).toNat = size := by
  unfold datagramSizeOf
  rw [BitVec.toNat_and, BitVec.toNat_ofNat]
  have hmask : (0x7FF : BitVec 16).toNat = 2 ^ 11 - 1 := rfl
  rw [hmask, Nat.and_two_pow_sub_one_eq_mod]
  omega

/-- The dispatch value is above the bits of the size. -/
theorem readDatagram_append (dispatch tag : BitVec 16) (size : ℕ) (rest : List Octet)
    (hdispatch : dispatch <<< 8 &&& 0x7FF = 0) :
    readDatagram (writeDatagram dispatch (datagramSizeOf size) tag ++ rest)
      = .ok (datagramSizeOf size, tag, rest) := by
  have hsize : (datagramSizeOf size ||| dispatch <<< 8) &&& 0x7FF = datagramSizeOf size := by
    rw [BitVec.and_or_distrib_right, datagramSizeOf_and, hdispatch]
    exact BitVec.or_zero
  show Except.ok (word16 _ _ &&& 0x7FF, word16 _ _, rest) = _
  rw [word16_octets16, word16_octets16, hsize]

theorem length_writeDatagram (dispatch size tag : BitVec 16) :
    (writeDatagram dispatch size tag).length = 4 := by
  unfold writeDatagram
  rw [length_append, length_reverse]
  rfl

/-! ## The cut -/

theorem sub32_eq {a b : ℕ} (hba : b ≤ a) (ha : a < 2 ^ 32) : sub32 a b = a - b := by
  unfold sub32
  omega

theorem createFragment_eq {packet : List Octet} {start length : ℕ}
    (h : start + length ≤ packet.length) :
    createFragment packet start length = .ok ((packet.drop start).take length) :=
  if_pos ((Nat.mod_le _ _).trans h)

namespace Datagram

/-- What `DoFragmentation` relies on: the packet is too long for a frame, a frame has room for
eight octets behind the headers, the size of the original packet fits its field, and the
compression has added at most a dispatch octet. -/
structure Sized (d : Datagram) : Prop where
  hdr_dvd : 8 ∣ d.origHdrSize
  hdr_le : d.origHdrSize ≤ d.origPacketSize
  orig_lt : d.origPacketSize < 2 ^ 11
  data_le : d.origPacketSize - d.origHdrSize ≤ d.packet.length
  length_le : d.packet.length ≤ d.origPacketSize + 1
  mtu_lt : d.l2Mtu < 2 ^ 16
  room : 13 + d.extraHdrSize ≤ d.l2Mtu
  too_long : d.l2Mtu < d.packet.length + d.extraHdrSize

/-- And what the receiver relies on: it can decompress the first fragment. -/
structure Fragmentable (d : Datagram) : Prop extends Sized d where
  opens : ∃ p, Reassembler.openFirst (d.packet.take d.firstSize) d.src d.dst = .ok p ∧
    p.length + d.compressedHeaderSize = d.firstSize + d.origHdrSize

/-- The key under which the receiver collects the fragments. -/
def key (d : Datagram) : FragmentKey :=
  ((d.src, d.dst), (datagramSizeOf d.origPacketSize, d.tag))

/-- The first fragment as it is sent. -/
def renderFirst (d : Datagram) : List Octet :=
  (⟨datagramSizeOf d.origPacketSize, d.tag⟩ : SixLowPanFrag1).serialize ++
    d.packet.take d.firstSize

/-- Another fragment as it is sent. -/
def renderNext (d : Datagram) (y : List Octet × ℕ) : List Octet :=
  (⟨datagramSizeOf d.origPacketSize, d.tag, BitVec.ofNat 8 (y.2 >>> 3)⟩ :
    SixLowPanFragN).serialize ++ y.1

variable {d : Datagram}

theorem Sized.compressedHeaderSize_eq (hd : d.Sized) :
    d.compressedHeaderSize + (d.origPacketSize - d.origHdrSize) = d.packet.length := by
  obtain ⟨-, hhdr, horig, hdata, hlength, -, -, -⟩ := hd
  unfold compressedHeaderSize
  rw [sub32_eq hhdr (by omega), sub32_eq hdata (by omega)]
  omega

/-- The first fragment fits the frame, and what follows it starts at a multiple of eight. -/
theorem Sized.firstSize_spec (hd : d.Sized) :
    d.firstSize + 4 + d.extraHdrSize ≤ d.l2Mtu ∧ 0 < d.firstSize ∧
      d.compressedHeaderSize < d.firstSize + d.origHdrSize ∧
      8 ∣ d.firstSize + d.origHdrSize - d.compressedHeaderSize := by
  have hc := hd.compressedHeaderSize_eq
  obtain ⟨hdvd, hhdr, horig, hdata, hlength, hmtu, hroom, hlong⟩ := hd
  unfold firstSize
  generalize d.compressedHeaderSize = c at hc ⊢
  dsimp only
  rw [sub32_eq (show 4 ≤ d.l2Mtu by omega) (by omega)]
  by_cases hfits : 4 + c + d.extraHdrSize ≤ d.l2Mtu
  · rw [sub32_eq (show c ≤ d.l2Mtu - 4 by omega) (by omega), sub32_eq (by omega) (by omega)]
    omega
  · -- the difference wraps around, and the sum wraps back
    unfold sub32
    omega

theorem Sized.nextSize_spec (hd : d.Sized) :
    d.nextSize + 5 + d.extraHdrSize ≤ d.l2Mtu ∧ 0 < d.nextSize ∧ 8 ∣ d.nextSize := by
  obtain ⟨-, -, -, -, -, hmtu, hroom, -⟩ := hd
  unfold nextSize
  dsimp only
  rw [sub32_eq (show 5 ≤ d.l2Mtu by omega) (by omega), sub32_eq (by omega) (by omega)]
  omega

/-- A fragment that is not empty. -/
theorem nextFragment_eq {offset offsetData size : ℕ} (hpos : 0 < size)
    (hsize : offsetData + size ≤ d.packet.length) :
    d.nextFragment offset offsetData size =
      .ok [d.renderNext ((d.packet.drop offsetData).take size, offset)] := by
  unfold nextFragment
  rw [if_pos hpos, createFragment_eq hsize, ok_bind]
  rfl

theorem nextFragment_zero (offset offsetData : ℕ) : d.nextFragment offset offsetData 0 = .ok [] :=
  rfl

/-- Behind the dispatch octet for uncompressed headers every first fragment can be read. -/
theorem Sized.fragmentable_of_ipv6 (hd : d.Sized) (octets : List Octet)
    (hpacket : d.packet = 0x41 :: octets) (hlength : octets.length = d.origPacketSize) :
    d.Fragmentable := by
  obtain ⟨hfirst, hpos, -, -⟩ := hd.firstSize_spec
  have hc := hd.compressedHeaderSize_eq
  have hhdr := hd.hdr_le
  have hlong := hd.too_long
  have htotal : d.packet.length = octets.length + 1 := by
    rw [hpacket, length_cons]
  obtain ⟨n, hn⟩ : ∃ n, d.firstSize = n + 1 := ⟨d.firstSize - 1, by omega⟩
  refine ⟨hd, octets.take n, ?_, ?_⟩
  · have hdispatch : getDispatchType 0x41 = .ipv6 := by decide
    rw [hpacket, hn, take_succ_cons]
    unfold Reassembler.openFirst
    rw [headD_cons, hdispatch]
    rfl
  · rw [length_take]
    omega

/-- What the loop makes of the packet from a place on: pieces, one behind the other. -/
structure CutFrom (d : Datagram) (offset offsetData : ℕ) (pieces : List (List Octet × ℕ)) :
    Prop where
  consecutive : Consecutive offset pieces d.origPacketSize
  whole : (pieces.map Prod.fst).flatten = d.packet.drop offsetData
  fits : ∀ y ∈ pieces, 8 ∣ y.2 ∧ y.1.length ≤ d.nextSize

/-- The last turn: what is left of the packet, if anything. -/
theorem cutFrom_last {offset offsetData : ℕ} (hoffset : 8 ∣ offset)
    (hle : offsetData ≤ d.packet.length)
    (hend : offset + (d.packet.length - offsetData) = d.origPacketSize)
    (hlast : d.packet.length ≤ offsetData + d.nextSize) :
    ∃ pieces, d.nextFragment offset offsetData (d.packet.length - offsetData)
      = .ok (pieces.map d.renderNext) ∧ CutFrom d offset offsetData pieces := by
  by_cases hrest : 0 < d.packet.length - offsetData
  · have hlength : (d.packet.drop offsetData).length = d.packet.length - offsetData :=
      length_drop
    have hwhole : (d.packet.drop offsetData).take (d.packet.length - offsetData) =
        d.packet.drop offsetData := take_of_length_le hlength.le
    refine ⟨[(d.packet.drop offsetData, offset)], ?_, ?_, ?_, ?_⟩
    · rw [nextFragment_eq hrest (by omega), hwhole, map_singleton]
    · refine .cons _ _ _ _ ?_ ?_
      · exact ne_nil_of_length_pos (by rwa [hlength])
      · rw [hlength, hend]
        exact .nil _
    · rw [map_singleton, flatten_singleton]
    · intro y hy
      obtain rfl := mem_singleton.mp hy
      refine ⟨hoffset, ?_⟩
      dsimp only
      omega
  · have hzero : d.packet.length - offsetData = 0 := by omega
    have hall : d.packet.length ≤ offsetData := by omega
    have hsame : offset = d.origPacketSize := by omega
    refine ⟨[], ?_, ?_, ?_, ?_⟩
    · rw [hzero, nextFragment_zero, map_nil]
    · rw [hsame]
      exact .nil _
    · rw [drop_of_length_le hall, map_nil, flatten_nil]
    · intro y hy
      exact absurd hy not_mem_nil

/-- Any other turn: a full piece, and then the rest. -/
theorem CutFrom.cons {offset offsetData : ℕ} {pieces : List (List Octet × ℕ)}
    (hpos : 0 < d.nextSize) (hoffset : 8 ∣ offset)
    (hmore : offsetData + d.nextSize ≤ d.packet.length)
    (hcut : CutFrom d (offset + d.nextSize) (offsetData + d.nextSize) pieces) :
    CutFrom d offset offsetData
      (((d.packet.drop offsetData).take d.nextSize, offset) :: pieces) := by
  have htake : ((d.packet.drop offsetData).take d.nextSize).length = d.nextSize := by
    rw [length_take, length_drop]
    omega
  constructor
  · refine .cons _ _ _ _ ?_ ?_
    · exact ne_nil_of_length_pos (by omega)
    · rw [htake]
      exact hcut.consecutive
  · rw [map_cons, flatten_cons, hcut.whole, ← drop_drop]
    exact take_append_drop _ _
  · intro y hy
    rcases mem_cons.mp hy with rfl | hy
    · exact ⟨hoffset, htake.le⟩
    · exact hcut.fits y hy

/-- The loop cuts the rest of the packet into pieces. -/
theorem Sized.nextFragments_cut (hd : d.Sized) (offset offsetData turns : ℕ) (hoffset : 8 ∣ offset)
    (hle : offsetData ≤ d.packet.length)
    (hend : offset + (d.packet.length - offsetData) = d.origPacketSize)
    (hturns : d.packet.length - offsetData < turns) :
    ∃ pieces, d.nextFragments offset offsetData turns = .ok (pieces.map d.renderNext) ∧
      CutFrom d offset offsetData pieces := by
  obtain ⟨hnext, hpos, hdvd⟩ := hd.nextSize_spec
  have horig := hd.orig_lt
  have hlength := hd.length_le
  have hmtu := hd.mtu_lt
  induction turns generalizing offset offsetData with
  | zero => omega
  | succ turns ih =>
    have hno32 : (offsetData + d.nextSize) % 2 ^ 32 = offsetData + d.nextSize :=
      Nat.mod_eq_of_lt (by omega)
    unfold nextFragments
    rw [hno32]
    by_cases hlast : offsetData + d.nextSize > d.packet.length
    · rw [if_pos hlast, sub32_eq hle (by omega)]
      exact cutFrom_last hoffset hle hend hlast.le
    · have hmore : offsetData + d.nextSize ≤ d.packet.length := not_lt.mp hlast
      have hno16 : (offset + d.nextSize) % 2 ^ 16 = offset + d.nextSize :=
        Nat.mod_eq_of_lt (by omega)
      have hno16' : (offsetData + d.nextSize) % 2 ^ 16 = offsetData + d.nextSize :=
        Nat.mod_eq_of_lt (by omega)
      obtain ⟨pieces, hrun, hcut⟩ := ih (offset + d.nextSize) (offsetData + d.nextSize)
        (Nat.dvd_add hoffset hdvd) hmore (by omega) (by omega)
      refine ⟨_, ?_, hcut.cons hpos hoffset hmore⟩
      rw [if_neg hlast, nextFragment_eq hpos hmore, ok_bind, hno16, hno16', hrun, ok_bind,
        map_cons]
      rfl

/-- A packet in pieces: what the first fragment is decompressed to, and the other fragments. -/
structure Cut (d : Datagram) (opened : List Octet) (pieces : List (List Octet × ℕ)) : Prop where
  run : d.doFragmentation = .ok (d.renderFirst :: pieces.map d.renderNext)
  opens : Reassembler.openFirst (d.packet.take d.firstSize) d.src d.dst = .ok opened
  consecutive : Consecutive 0 ((opened, 0) :: pieces) d.origPacketSize
  whole : d.packet.take d.firstSize ++ (pieces.map Prod.fst).flatten = d.packet
  fits : ∀ y ∈ pieces, 8 ∣ y.2 ∧ y.1.length ≤ d.nextSize

/-- `DoFragmentation` cuts the packet into pieces. -/
theorem Fragmentable.cut (hd : d.Fragmentable) : ∃ opened pieces, Cut d opened pieces := by
  obtain ⟨hfirst, hpos, hheader, hdvd⟩ := hd.firstSize_spec
  have hc := hd.compressedHeaderSize_eq
  obtain ⟨opened, hopens, hopened⟩ := hd.opens
  obtain ⟨-, hhdr, horig, hdata, hlength, hmtu, hroom, hlong⟩ := hd.toSized
  have hoffset : sub32 (d.firstSize + d.origHdrSize) d.compressedHeaderSize % 2 ^ 16 =
      d.firstSize + d.origHdrSize - d.compressedHeaderSize := by
    rw [sub32_eq hheader.le (by omega)]
    exact Nat.mod_eq_of_lt (by omega)
  have hdata16 : d.firstSize % 2 ^ 16 = d.firstSize := Nat.mod_eq_of_lt (by omega)
  obtain ⟨pieces, hrun, hcut⟩ := hd.nextFragments_cut
    (d.firstSize + d.origHdrSize - d.compressedHeaderSize) d.firstSize (d.packet.length + 1) hdvd
    (by omega) (by omega) (by omega)
  refine ⟨opened, pieces, ?_, hopens, ?_, ?_, hcut.fits⟩
  · unfold doFragmentation
    rw [if_neg (by omega), createFragment_eq (show 0 + d.firstSize ≤ d.packet.length by omega),
      ok_bind, hoffset, hdata16, hrun, ok_bind]
    rfl
  · refine .cons _ _ _ _ ?_ ?_
    · exact ne_nil_of_length_pos (by omega)
    · have hstart : 0 + opened.length =
          d.firstSize + d.origHdrSize - d.compressedHeaderSize := by omega
      rw [hstart]
      exact hcut.consecutive
  · rw [hcut.whole]
    exact take_append_drop _ _

/-- Every fragment fits the frame, with the headers in front of it. -/
theorem Cut.fits_mtu {opened : List Octet} {pieces : List (List Octet × ℕ)}
    (hcut : Cut d opened pieces) (hd : d.Fragmentable) :
    ∀ f ∈ d.renderFirst :: pieces.map d.renderNext, f.length + d.extraHdrSize ≤ d.l2Mtu := by
  intro f hf
  rcases mem_cons.mp hf with rfl | hf
  · have hfirst := hd.firstSize_spec.1
    have htake := length_take_le d.firstSize d.packet
    unfold renderFirst SixLowPanFrag1.serialize
    rw [length_append, length_writeDatagram]
    omega
  · obtain ⟨y, hy, rfl⟩ := mem_map.mp hf
    have hnext := hd.nextSize_spec.1
    have hle := (hcut.fits y hy).2
    unfold renderNext SixLowPanFragN.serialize
    rw [length_append, length_append, length_writeDatagram, length_singleton]
    omega

end Datagram

/-! ## Collecting pieces -/

namespace Fragments

variable {pieces : List (List Octet × ℕ)}

/-- A fragment takes its place among those that are there, or is there already. -/
theorem insertFragment_spec {b e : ℕ} (hpieces : Consecutive b pieces e) (y : List Octet × ℕ)
    (hy : y ∈ pieces) (l : List (List Octet × ℕ)) (hl : l.Sublist pieces) :
    ∃ l', insertFragment y.1 y.2 l = .ok l' ∧ l'.Sublist pieces ∧
      ∀ z, z ∈ l' ↔ z = y ∨ z ∈ l := by
  induction hpieces generalizing l with
  | nil b => exact absurd hy not_mem_nil
  | cons p b rest e hp hrest ih =>
    have hpos : 0 < p.length := length_pos_of_ne_nil hp
    have hlater (z : List Octet × ℕ) (hz : z ∈ rest) : b < z.2 := by
      have hstart := (hrest.bounds z hz).1
      omega
    cases hl with
    | cons _ hl =>
      rcases mem_cons.mp hy with rfl | hy
      · -- the first of all pieces, before those that are there
        cases l with
        | nil => exact ⟨[(p, b)], rfl, List.Sublist.cons_cons _ hl, fun z => by simp⟩
        | cons it l =>
          refine ⟨(p, b) :: it :: l, if_pos (hlater it (hl.subset mem_cons_self)),
            List.Sublist.cons_cons _ hl, fun z => mem_cons⟩
      · obtain ⟨l', hrun, hsub, hmem⟩ := ih hy l hl
        exact ⟨l', hrun, hsub.cons _, hmem⟩
    | cons_cons _ hl =>
      rename_i l
      rcases mem_cons.mp hy with rfl | hy
      · refine ⟨(p, b) :: l, ?_, List.Sublist.cons_cons _ hl, fun z => ?_⟩
        · unfold insertFragment
          rw [if_neg (Nat.lt_irrefl b), if_pos rfl, if_pos rfl]
        · rw [mem_cons]
          exact ⟨fun h => .inr h, fun h => h.elim .inl id⟩
      · obtain ⟨l', hrun, hsub, hmem⟩ := ih hy l hl
        have hlt := hlater y hy
        refine ⟨(p, b) :: l', ?_, List.Sublist.cons_cons _ hsub, fun z => ?_⟩
        · unfold insertFragment
          rw [if_neg (by exact not_lt.mpr hlt.le), if_neg (by exact hlt.ne), hrun]
          rfl
        · rw [mem_cons, mem_cons, hmem]
          exact or_left_comm

/-- There is no gap and the end is reached exactly if all pieces are there. -/
theorem lastEndOffset_eq_iff {b e : ℕ} (hpieces : Consecutive b pieces e) (he : e < 2 ^ 16)
    (l : List (List Octet × ℕ)) (hl : l.Sublist pieces) :
    lastEndOffset b l = some e ↔ l = pieces := by
  induction hpieces generalizing l with
  | nil b =>
    rw [sublist_nil.mp hl]
    exact iff_of_true rfl rfl
  | cons p b rest e hp hrest ih =>
    have hpos : 0 < p.length := length_pos_of_ne_nil hp
    have hle := hrest.le
    cases hl with
    | cons _ hl =>
      -- the first piece is missing
      refine iff_of_false ?_ ?_
      · cases l with
        | nil =>
          intro hend
          have heq : b = e := Option.some.inj hend
          omega
        | cons it l =>
          have hstart := (hrest.bounds it (hl.subset mem_cons_self)).1
          have hgap : lastEndOffset b (it :: l) = none := if_pos (by omega)
          rw [hgap]
          exact (Option.some_ne_none e).symm
      · intro heq
        rw [heq] at hl
        exact absurd hl.length_le (by simp)
    | cons_cons _ hl =>
      rename_i l
      have hend : max b ((p.length + b) % 2 ^ 16) = b + p.length := by
        rw [Nat.mod_eq_of_lt (by omega)]
        omega
      have hstep : lastEndOffset b ((p, b) :: l) = lastEndOffset (b + p.length) l := by
        rw [← hend]
        exact if_neg (Nat.lt_irrefl b)
      rw [hstep, ih he l hl, cons_inj_right]

/-- Pieces without a gap are joined one after the other. -/
theorem addAtEnd_eq {b e : ℕ} (hpieces : Consecutive b pieces e) (he : e < 2 ^ 16)
    (packet : List Octet) :
    addAtEnd packet b pieces = .ok (packet ++ (pieces.map Prod.fst).flatten) := by
  induction hpieces generalizing packet with
  | nil b =>
    rw [map_nil, flatten_nil, append_nil]
    rfl
  | cons p b rest e hp hrest ih =>
    have hle := hrest.le
    have hstep : addAtEnd packet b ((p, b) :: rest) = addAtEnd (packet ++ p) (b + p.length) rest := by
      rw [← Nat.mod_eq_of_lt (show b + p.length < 2 ^ 16 by omega)]
      exact if_neg (Nat.lt_irrefl b)
    rw [hstep, ih he, map_cons, flatten_cons, append_assoc]

end Fragments

/-! ## What arrives -/

namespace Datagram

/-- The fragments with what is said about them: the first one is the first. -/
def marked : List (List Octet) → List (List Octet × Bool)
  | [] => []
  | first :: rest => (first, true) :: rest.map fun fragment => (fragment, false)

/-- The fragments of a packet as they are given to `ProcessFragment`. -/
def deliveries (d : Datagram) : List (List Octet × Bool) :=
  match d.doFragmentation with
  | .ok fragments => marked fragments
  | .error _ => []

/-- A piece as it is given to `ProcessFragment`. -/
def mark (d : Datagram) (y : List Octet × ℕ) : List Octet × Bool :=
  if y.2 = 0 then (d.renderFirst, true) else (d.renderNext y, false)

variable {d : Datagram} {opened : List Octet} {pieces : List (List Octet × ℕ)}

variable {y : List Octet × ℕ}

/-- No other piece starts where the first one does. -/
theorem Cut.pos_of_mem (hcut : Cut d opened pieces) (hy : y ∈ pieces) :
    0 < y.2 := by
  have hpairs := (pairwise_cons.mp hcut.consecutive.pairwise).1
  exact hpairs y hy

theorem Cut.deliveries_eq (hcut : Cut d opened pieces) :
    d.deliveries = ((opened, 0) :: pieces).map d.mark := by
  have hrest : pieces.map d.mark = (pieces.map d.renderNext).map fun fragment => (fragment, false) := by
    rw [map_map]
    refine map_congr_left fun y hy => ?_
    exact if_neg (hcut.pos_of_mem hy).ne'
  unfold deliveries
  rw [hcut.run, map_cons, hrest]
  rfl

theorem deserialize_renderFirst (rest : List Octet) :
    SixLowPanFrag1.deserialize (d.renderFirst ++ rest) =
      .ok (⟨datagramSizeOf d.origPacketSize, d.tag⟩, d.packet.take d.firstSize ++ rest) := by
  unfold SixLowPanFrag1.deserialize renderFirst SixLowPanFrag1.serialize
  rw [append_assoc, readDatagram_append _ _ _ _ (by decide)]
  rfl

theorem deserialize_renderNext (y : List Octet × ℕ) :
    SixLowPanFragN.deserialize (d.renderNext y) =
      .ok (⟨datagramSizeOf d.origPacketSize, d.tag, BitVec.ofNat 8 (y.2 >>> 3)⟩, y.1) := by
  unfold SixLowPanFragN.deserialize renderNext SixLowPanFragN.serialize
  rw [append_assoc, readDatagram_append _ _ _ _ (by decide), ok_bind]
  rfl

/-- An offset that is a multiple of eight survives. -/
theorem offset_of_octet {offset : ℕ} (hdvd : 8 ∣ offset) (hlt : offset < 2 ^ 11) :
    (BitVec.ofNat 8 (offset >>> 3)).toNat <<< 3 = offset := by
  rw [BitVec.toNat_ofNat, Nat.shiftRight_eq_div_pow, Nat.shiftLeft_eq]
  omega

/-- A piece is read as it was cut. -/
theorem Cut.readFragment (hcut : Cut d opened pieces) (hd : d.Fragmentable) (hy : y ∈ (opened, 0) :: pieces) :
    Reassembler.readFragment (d.mark y).1 d.src d.dst (d.mark y).2 = .ok (d.key, y.2, y.1) := by
  rcases mem_cons.mp hy with rfl | hrest
  · have hfirst : SixLowPanFrag1.deserialize d.renderFirst =
        .ok (⟨datagramSizeOf d.origPacketSize, d.tag⟩, d.packet.take d.firstSize) := by
      have h := d.deserialize_renderFirst []
      rwa [append_nil, append_nil] at h
    have hmark : d.mark (opened, 0) = (d.renderFirst, true) := if_pos rfl
    unfold Reassembler.readFragment
    rw [hmark, if_pos rfl, hfirst, ok_bind, hcut.opens, ok_bind]
    rfl
  · have hmark : d.mark y = (d.renderNext y, false) := if_neg (hcut.pos_of_mem hrest).ne'
    have hlt : y.2 < 2 ^ 11 := (hcut.consecutive.bounds y hy).2.1.trans hd.orig_lt
    have hoffset := offset_of_octet (hcut.fits y hrest).1 hlt
    unfold Reassembler.readFragment
    rw [hmark, if_neg Bool.false_ne_true, deserialize_renderNext, ok_bind]
    dsimp only
    rw [hoffset]
    rfl

/-- Different pieces arrive as different fragments. -/
theorem Cut.mark_injective (hcut : Cut d opened pieces) (hd : d.Fragmentable) {y z : List Octet × ℕ}
    (hy : y ∈ (opened, 0) :: pieces) (hz : z ∈ (opened, 0) :: pieces) (heq : d.mark y = d.mark z) :
    y = z := by
  have hread := hcut.readFragment hd hy
  rw [heq, hcut.readFragment hd hz] at hread
  have hboth := congrArg Prod.snd (Except.ok.inj hread)
  exact Prod.ext (congrArg Prod.snd hboth).symm (congrArg Prod.fst hboth).symm

/-- Every other fragment of the packet has arrived. -/
def Completes (d : Datagram) (seen : List (List Octet × Bool)) (f : List Octet × Bool) : Prop :=
  ∀ g ∈ d.deliveries, g = f ∨ g ∈ seen

instance (seen : List (List Octet × Bool)) (f : List Octet × Bool) :
    Decidable (d.Completes seen f) :=
  inferInstanceAs (Decidable (∀ g ∈ d.deliveries, g = f ∨ g ∈ seen))

/-- What the receiver has collected of a packet of which something is missing. -/
structure Collected (d : Datagram) (all : List (List Octet × ℕ))
    (seen : List (List Octet × Bool)) (f : Fragments) : Prop where
  size : f.packetSize = d.origPacketSize
  sublist : f.fragments.Sublist all
  mem : ∀ y ∈ all, y ∈ f.fragments ↔ d.mark y ∈ seen
  missing : f.fragments ≠ all
  first : ∀ y ∈ f.fragments, y.2 = 0 → f.firstFragment = some d.renderFirst

/-- The pieces that have arrived are all exactly if the packet is complete. -/
theorem Cut.eq_all_iff (hcut : Cut d opened pieces) (hd : d.Fragmentable)
    {seen : List (List Octet × Bool)} {l l' : List (List Octet × ℕ)}
    (hy : y ∈ (opened, 0) :: pieces) (hsub : l'.Sublist ((opened, 0) :: pieces))
    (hmem : ∀ z ∈ (opened, 0) :: pieces, z ∈ l ↔ d.mark z ∈ seen)
    (hmem' : ∀ z, z ∈ l' ↔ z = y ∨ z ∈ l) :
    l' = (opened, 0) :: pieces ↔ d.Completes seen (d.mark y) := by
  unfold Completes
  rw [hcut.deliveries_eq]
  constructor
  · rintro rfl g hg
    obtain ⟨z, hz, rfl⟩ := mem_map.mp hg
    rcases (hmem' z).mp hz with rfl | hold
    · exact .inl rfl
    · exact .inr ((hmem z hz).mp hold)
  · intro hall
    refine hcut.consecutive.eq_of_subset hsub fun z hz => (hmem' z).mpr ?_
    rcases hall (d.mark z) (mem_map_of_mem hz) with heq | hold
    · exact .inl (hcut.mark_injective hd hz hy heq)
    · exact .inr ((hmem z hz).mpr hold)

/-- All pieces together are the packet behind the header of the first fragment. -/
theorem Cut.getPacket (hcut : Cut d opened pieces) (hd : d.Fragmentable) {g : Fragments}
    (hall : g.fragments = (opened, 0) :: pieces) (hfirst : g.firstFragment = some d.renderFirst) :
    g.getPacket = .ok (d.renderFirst ++ (pieces.map Prod.fst).flatten) := by
  have hbounds := hcut.consecutive.bounds (opened, 0) mem_cons_self
  have horig := hd.orig_lt
  have hlt : opened.length < 2 ^ 16 := by
    have hle : 0 + opened.length ≤ d.origPacketSize := hbounds.2.2
    omega
  unfold Fragments.getPacket
  rw [hall, hfirst]
  dsimp only
  rw [Nat.mod_eq_of_lt hlt]
  cases hcut.consecutive with
  | cons _ _ _ _ _ hrest =>
    rw [Nat.zero_add] at hrest
    exact Fragments.addAtEnd_eq hrest (by omega) _

/-- A fragment more: either that was the last one, and the packet can be put together, or there
is still something missing. -/
theorem Collected.arrive (hcut : Cut d opened pieces) (hd : d.Fragmentable)
    {seen : List (List Octet × Bool)} {f : Fragments}
    (hcol : Collected d ((opened, 0) :: pieces) seen f) (hy : y ∈ (opened, 0) :: pieces) :
    ∃ f', f.addFragment y.1 y.2 = .ok f' ∧
      ∀ g, g = (if (d.mark y).2 then f'.addFirstFragment (d.mark y).1 else f') →
        if d.Completes seen (d.mark y) then
          g.isEntire = true ∧ g.getPacket = .ok (d.renderFirst ++ (pieces.map Prod.fst).flatten)
        else g.isEntire = false ∧
          Collected d ((opened, 0) :: pieces) (d.mark y :: seen) g := by
  obtain ⟨l', hinsert, hsub, hmem'⟩ :=
    Fragments.insertFragment_spec hcut.consecutive y hy f.fragments hcol.sublist
  have hiff := hcut.eq_all_iff hd hy hsub hcol.mem hmem'
  have horig : d.origPacketSize < 2 ^ 16 := hd.orig_lt.trans (by decide)
  have hend := Fragments.lastEndOffset_eq_iff hcut.consecutive horig l' hsub
  refine ⟨{ f with fragments := l' }, ?_, ?_⟩
  · unfold Fragments.addFragment
    rw [hinsert]
    rfl
  · rintro g hg
    have hfragments : g.fragments = l' := by
      rw [hg]
      split
      · rfl
      · rfl
    have hsize : g.packetSize = d.origPacketSize := by
      rw [hg]
      split
      · exact hcol.size
      · exact hcol.size
    have hfirst : ∀ z ∈ l', z.2 = 0 → g.firstFragment = some d.renderFirst := by
      intro z hz hzero
      rw [hg]
      by_cases hyzero : y.2 = 0
      · have hmark : d.mark y = (d.renderFirst, true) := if_pos hyzero
        rw [hmark, if_pos rfl]
        rfl
      · have hmark : d.mark y = (d.renderNext y, false) := if_neg hyzero
        rw [hmark, if_neg Bool.false_ne_true]
        rcases (hmem' z).mp hz with rfl | hold
        · exact absurd hzero hyzero
        · exact hcol.first z hold hzero
    have hentire : g.isEntire = true ↔ l' = (opened, 0) :: pieces := by
      have hne : l'.isEmpty = false :=
        isEmpty_eq_false_iff.mpr (ne_nil_of_mem ((hmem' y).mpr (.inl rfl)))
      unfold Fragments.isEntire
      rw [hfragments, hsize, hne, Bool.not_false, Bool.true_and, beq_iff_eq]
      exact hend
    split
    · rename_i hcomplete
      have hall := hiff.mpr hcomplete
      refine ⟨hentire.mpr hall, hcut.getPacket hd (hfragments.trans hall) ?_⟩
      rw [hall] at hfirst
      exact hfirst (opened, 0) mem_cons_self rfl
    · rename_i hnot
      have hmissing : l' ≠ (opened, 0) :: pieces := fun hall => hnot (hiff.mp hall)
      refine ⟨Bool.eq_false_iff.mpr fun h => hmissing (hentire.mp h), hsize, ?_, ?_, ?_, ?_⟩
      · rw [hfragments]
        exact hsub
      · intro z hz
        rw [hfragments, hmem' z, hcol.mem z hz, mem_cons]
        refine or_congr_left ⟨?_, fun heq => hcut.mark_injective hd hz hy heq⟩
        rintro rfl
        rfl
      · rw [hfragments]
        exact hmissing
      · rw [hfragments]
        exact hfirst

end Datagram

/-! ## The receiver -/

namespace Reassembler

open Datagram

variable {d : Datagram} {opened : List Octet} {pieces : List (List Octet × ℕ)}

/-- What the receiver has of a packet agrees with what has arrived of it. -/
def Holds (s : Reassembler) (d : Datagram) (all : List (List Octet × ℕ))
    (seen : List (List Octet × Bool)) : Prop :=
  match s.fragments.lookup d.key with
  | some f => Collected d all seen f
  | none => seen = []

/-- The entry of the packet is found, or made, and the other entries stay. -/
theorem findFragments_spec {s : Reassembler} {seen : List (List Octet × Bool)} (hd : d.Fragmentable)
    (hholds : s.Holds d ((opened, 0) :: pieces) seen)
    (hroom : s.fragments.lookup d.key = none → s.eraseOldest = .ok s) :
    ∃ f s', s.findFragments d.key = .ok (f, s') ∧
      Collected d ((opened, 0) :: pieces) seen f ∧
      (∀ key, key ≠ d.key → s'.fragments.lookup key = s.fragments.lookup key) ∧
      (∀ key, key ∈ s'.fragments → key = d.key ∨ key ∈ s.fragments) ∧
      s'.fragmentReassemblyListSize = s.fragmentReassemblyListSize := by
  unfold findFragments
  unfold Holds at hholds
  cases hlookup : s.fragments.lookup d.key with
  | some f =>
    rw [hlookup] at hholds
    exact ⟨f, s, rfl, hholds, fun _ _ => rfl, fun _ h => .inr h, rfl⟩
  | none =>
    rw [hlookup] at hholds
    have hseen : seen = [] := hholds
    dsimp only
    rw [hroom hlookup, ok_bind]
    refine ⟨_, _, rfl, ⟨?_, ?_, ?_, ?_, ?_⟩, ?_, ?_, rfl⟩
    · exact toNat_datagramSizeOf hd.orig_lt
    · exact nil_sublist _
    · intro y _
      rw [hseen]
      exact iff_of_false not_mem_nil not_mem_nil
    · exact (cons_ne_nil _ _).symm
    · intro y hy
      exact absurd hy not_mem_nil
    · intro key hkey
      exact AList.lookup_insert_ne hkey
    · intro key hkey
      exact (AList.mem_insert _).mp hkey

/-- **One fragment.**  `ProcessFragment` hands up the packet with the last fragment that was
missing, and nothing before; what it has of other packets stays as it is. -/
theorem processFragment_spec {s : Reassembler} {seen : List (List Octet × Bool)}
    (hd : d.Fragmentable) (hcut : Cut d opened pieces)
    (hholds : s.Holds d ((opened, 0) :: pieces) seen)
    (hroom : s.fragments.lookup d.key = none → s.eraseOldest = .ok s) {f : List Octet × Bool}
    (hf : f ∈ d.deliveries) :
    ∃ s', s.processFragment f.1 d.src d.dst f.2
        = .ok (if d.Completes seen f then some d.packet else none, s') ∧
      s'.Holds d ((opened, 0) :: pieces) (if d.Completes seen f then [] else f :: seen) ∧
      (∀ key, key ≠ d.key → s'.fragments.lookup key = s.fragments.lookup key) ∧
      (∀ key, key ∈ s'.fragments → key = d.key ∨ key ∈ s.fragments) ∧
      s'.fragmentReassemblyListSize = s.fragmentReassemblyListSize := by
  rw [hcut.deliveries_eq] at hf
  obtain ⟨y, hy, rfl⟩ := mem_map.mp hf
  obtain ⟨f, s₁, hfind, hcol, hother, hkeys, hlist⟩ := findFragments_spec hd hholds hroom
  obtain ⟨f', hadd, harrive⟩ := hcol.arrive hcut hd hy
  have hrun : s.processFragment (d.mark y).1 d.src d.dst (d.mark y).2 = s₁.finish d.key
      (if (d.mark y).2 then f'.addFirstFragment (d.mark y).1 else f') := by
    unfold processFragment
    rw [hcut.readFragment hd hy, ok_bind, hfind, ok_bind, hadd, ok_bind]
  rw [hrun]
  generalize hg : (if (d.mark y).2 then f'.addFirstFragment (d.mark y).1 else f') = g
  have hentire := harrive g hg.symm
  unfold finish
  by_cases hcomplete : d.Completes seen (d.mark y)
  · rw [if_pos hcomplete] at hentire
    obtain ⟨hentire, hpacket⟩ := hentire
    rw [if_pos hcomplete, if_pos hcomplete, if_pos hentire, hpacket, ok_bind,
      deserialize_renderFirst, ok_bind]
    refine ⟨{ s₁ with
      timeoutEventList := s₁.timeoutEventList.erase d.key
      fragments := s₁.fragments.erase d.key }, ?_, ?_, ?_, ?_, hlist⟩
    · rw [hcut.whole]
      rfl
    · unfold Holds
      rw [AList.lookup_erase]
    · intro key hkey
      rw [AList.lookup_erase_ne hkey]
      exact hother key hkey
    · intro key hkey
      exact hkeys key (AList.mem_erase.mp hkey).2
  · rw [if_neg hcomplete] at hentire
    obtain ⟨hentire, hcol'⟩ := hentire
    rw [if_neg hcomplete, if_neg hcomplete, if_neg (by rw [hentire]; exact Bool.false_ne_true)]
    refine ⟨_, rfl, ?_, ?_, ?_, hlist⟩
    · unfold Holds
      rw [AList.lookup_insert]
      exact hcol'
    · intro key hkey
      rw [AList.lookup_insert_ne hkey]
      exact hother key hkey
    · intro key hkey
      rcases (AList.mem_insert _).mp hkey with rfl | hkey
      · exact .inl rfl
      · exact hkeys key hkey

/-! ## Runs -/

/-- A fragment of a packet that arrives. -/
structure Arrival where
  datagram : Datagram
  fragment : List Octet × Bool

/-- The receiver, and for every packet what has arrived since it was last complete. -/
structure Receiving where
  reassembler : Reassembler
  seen : FragmentKey → List (List Octet × Bool) := fun _ => []

def Receiving.after (r : Receiving) (a : Arrival) (s : Reassembler) : Receiving where
  reassembler := s
  seen := Function.update r.seen a.datagram.key
    (if a.datagram.Completes (r.seen a.datagram.key) a.fragment then []
    else a.fragment :: r.seen a.datagram.key)

theorem Receiving.seen_after_self (r : Receiving) (a : Arrival) (s : Reassembler) :
    (r.after a s).seen a.datagram.key =
      if a.datagram.Completes (r.seen a.datagram.key) a.fragment then []
      else a.fragment :: r.seen a.datagram.key := Function.update_self ..

theorem Receiving.seen_after_of_ne (r : Receiving) (a : Arrival) (s : Reassembler)
    {key : FragmentKey} (hkey : key ≠ a.datagram.key) :
    (r.after a s).seen key = r.seen key := Function.update_of_ne hkey ..

/-- The fragments of some packets arrive in any order and any number of times. -/
def machine (ds : List Datagram) : Machine Receiving Arrival PacketFault where
  enabled _ a := a.datagram ∈ ds ∧ a.fragment ∈ a.datagram.deliveries
  step r a :=
    (r.reassembler.processFragment a.fragment.1 a.datagram.src a.datagram.dst a.fragment.2).map
      fun out => r.after a out.2

/-- Packets that can be fragmented, of which no two have the same key, and room for all of
them. -/
structure Distinct (ds : List Datagram) (listSize : ℕ) : Prop where
  fragmentable : ∀ d ∈ ds, d.Fragmentable
  key_inj : ∀ d ∈ ds, ∀ d' ∈ ds, d.key = d'.key → d = d'
  room : listSize = 0 ∨ ds.length ≤ listSize

/-- What holds of the receiver after any arrivals. -/
structure Receiving.Good (ds : List Datagram) (listSize : ℕ) (r : Receiving) : Prop where
  holds : ∀ d ∈ ds, ∀ opened pieces, Cut d opened pieces →
    r.reassembler.Holds d ((opened, 0) :: pieces) (r.seen d.key)
  keys : ∀ key, key ∈ r.reassembler.fragments → key ∈ ds.map Datagram.key
  listSize : r.reassembler.fragmentReassemblyListSize = listSize

variable {ds : List Datagram} {listSize : ℕ}

/-- There is room for every packet that is not there yet. -/
theorem eraseOldest_eq (hds : Distinct ds listSize) {r : Receiving} (hgood : r.Good ds listSize)
    (hd : d ∈ ds) (hlookup : r.reassembler.fragments.lookup d.key = none) :
    r.reassembler.eraseOldest = .ok r.reassembler := by
  have hnot : d.key ∉ r.reassembler.fragments.keys := AList.lookup_eq_none.mp hlookup
  have hsub : d.key :: r.reassembler.fragments.keys ⊆ ds.map Datagram.key := by
    intro key hkey
    rcases mem_cons.mp hkey with rfl | hkey
    · exact mem_map_of_mem hd
    · exact hgood.keys key hkey
  have hnodup : (d.key :: r.reassembler.fragments.keys).Nodup :=
    nodup_cons.mpr ⟨hnot, r.reassembler.fragments.keys_nodup⟩
  have hle := (subperm_of_subset hnodup hsub).length_le
  rw [length_cons, length_map] at hle
  unfold eraseOldest
  rw [hgood.listSize]
  refine if_neg ?_
  rintro ⟨hzero, hfull⟩
  rcases hds.room with h | h
  · exact hzero h
  · omega

/-- An arrival is processed, and what is known of the receiver holds again. -/
theorem Receiving.Good.arrive (hds : Distinct ds listSize) {r : Receiving}
    (hgood : r.Good ds listSize) (hd : d ∈ ds) {f : List Octet × Bool} (hf : f ∈ d.deliveries) :
    ∃ s', r.reassembler.processFragment f.1 d.src d.dst f.2
        = .ok (if d.Completes (r.seen d.key) f then some d.packet else none, s') ∧
      (r.after ⟨d, f⟩ s').Good ds listSize := by
  have hfrag := hds.fragmentable d hd
  obtain ⟨opened, pieces, hcut⟩ := hfrag.cut
  have hholds := hgood.holds d hd opened pieces hcut
  have hroom := eraseOldest_eq hds hgood hd
  obtain ⟨s', hrun, hholds', hother, hkeys, hlist⟩ :=
    processFragment_spec hfrag hcut hholds hroom hf
  refine ⟨s', hrun, ?_, ?_, hlist.trans hgood.listSize⟩
  · intro d' hd' opened' pieces' hcut'
    by_cases hsame : d'.key = d.key
    · obtain rfl := hds.key_inj d' hd' d hd hsame
      have hholds₂ := hgood.holds d' hd opened' pieces' hcut'
      obtain ⟨s₂, hrun₂, hnew, -⟩ := processFragment_spec hfrag hcut' hholds₂ hroom hf
      have hsame : s₂ = s' := congrArg Prod.snd (Except.ok.inj (hrun₂.symm.trans hrun))
      rw [hsame] at hnew
      rw [r.seen_after_self ⟨d', f⟩ s']
      exact hnew
    · have hold := hgood.holds d' hd' opened' pieces' hcut'
      rw [r.seen_after_of_ne ⟨d, f⟩ s' hsame]
      show s'.Holds d' _ _
      unfold Holds at hold ⊢
      rw [hother _ hsame]
      exact hold
  · intro key hkey
    rcases hkeys key hkey with rfl | hkey
    · exact mem_map_of_mem hd
    · exact hgood.keys key hkey

/-- An empty receiver. -/
def start (listSize : ℕ) : Receiving where
  reassembler := { fragmentReassemblyListSize := listSize }

theorem good_start (ds : List Datagram) (listSize : ℕ) : (start listSize).Good ds listSize := by
  refine ⟨?_, ?_, rfl⟩
  · intro d _ opened pieces _
    show Holds { fragmentReassemblyListSize := listSize } d _ []
    unfold Holds
    rw [AList.lookup_empty]
  · intro key hkey
    exact absurd hkey (AList.notMem_empty key)

/-- Whatever arrives is processed. -/
theorem exists_run (hds : Distinct ds listSize) (as : List Arrival)
    (has : ∀ a ∈ as, a.datagram ∈ ds ∧ a.fragment ∈ a.datagram.deliveries) (r : Receiving)
    (hgood : r.Good ds listSize) :
    ∃ r', (machine ds).Run (fun _ _ => True) r as r' ∧ r'.Good ds listSize := by
  induction as generalizing r with
  | nil => exact ⟨r, .nil r, hgood⟩
  | cons a as ih =>
    obtain ⟨hd, hf⟩ := has a mem_cons_self
    obtain ⟨s', hrun, hgood'⟩ := hgood.arrive hds hd hf
    obtain ⟨r', hrest, hgood''⟩ :=
      ih (fun a' ha' => has a' (mem_cons_of_mem _ ha')) (r.after a s') hgood'
    refine ⟨r', .cons _ _ _ _ _ ⟨hd, hf⟩ trivial ?_ hrest, hgood''⟩
    show (r.reassembler.processFragment _ _ _ _).map _ = _
    rw [hrun]
    rfl

/-- **Fragmentation and reassembly.**  Let some packets be fragmented that are too long for their
links and that the receiver can decompress, no two with the same addresses, size and tag.  Then
every fragment fits its link, and whatever fragments arrive, in any order and any number of times,
all are processed, and afterwards `ProcessFragment` answers the next one with its packet if all
others of this packet have arrived since it was last complete, and with false if not. -/
theorem reassembles_of_distinct (ds : List Datagram) (listSize : ℕ) (hds : Distinct ds listSize)
    (as : List Arrival) (has : ∀ a ∈ as, a.datagram ∈ ds ∧ a.fragment ∈ a.datagram.deliveries) :
    ∃ r, (machine ds).Run (fun _ _ => True) (start listSize) as r ∧
      ∀ d ∈ ds, ∃ fragments, d.doFragmentation = .ok fragments ∧
        (∀ f ∈ fragments, f.length + d.extraHdrSize ≤ d.l2Mtu) ∧
        ∀ f ∈ d.deliveries, ∃ s',
          r.reassembler.processFragment f.1 d.src d.dst f.2
            = .ok (if d.Completes (r.seen d.key) f then some d.packet else none, s') := by
  obtain ⟨r, hrun, hgood⟩ := exists_run hds as has _ (good_start ds listSize)
  refine ⟨r, hrun, fun d hd => ?_⟩
  have hfrag := hds.fragmentable d hd
  obtain ⟨opened, pieces, hcut⟩ := hfrag.cut
  refine ⟨_, hcut.run, hcut.fits_mtu hfrag, fun f hf => ?_⟩
  obtain ⟨s', hstep, -⟩ := hgood.arrive hds hd hf
  exact ⟨s', hstep⟩

/-- A packet behind the dispatch octet for uncompressed headers. -/
def sample (a : Octet) (tag : BitVec 16) : Datagram where
  src := .mac16 0 1
  dst := .mac16 0 2
  packet := 0x41 :: List.replicate 56 a
  origPacketSize := 56
  origHdrSize := 40
  extraHdrSize := 0
  l2Mtu := 40
  tag := tag

theorem fragmentable_sample (a : Octet) (tag : BitVec 16) : (sample a tag).Fragmentable := by
  have hlength : (sample a tag).packet.length = 57 := by
    show (0x41 :: List.replicate 56 a).length = 57
    rw [length_cons, length_replicate]
  have hsized : (sample a tag).Sized := by
    constructor
    · show 8 ∣ 40
      decide
    · show 40 ≤ 56
      decide
    · show 56 < 2 ^ 11
      decide
    · show 56 - 40 ≤ (sample a tag).packet.length
      rw [hlength]
      decide
    · show (sample a tag).packet.length ≤ 56 + 1
      rw [hlength]
    · show 40 < 2 ^ 16
      decide
    · show 13 + 0 ≤ 40
      decide
    · show 40 < (sample a tag).packet.length + 0
      rw [hlength]
      decide
  exact hsized.fragmentable_of_ipv6 (List.replicate 56 a) rfl length_replicate

/-- Fragments of two packets: the first fragment of the one, twice, and the second fragment of the
other. -/
def sampleArrivals : List Arrival :=
  ((sample 1 7).deliveries.take 1 ++ (sample 1 7).deliveries.take 1).map (⟨sample 1 7, ·⟩) ++
    ((sample 2 8).deliveries.drop 1).map (⟨sample 2 8, ·⟩)

theorem reassembles_sample :
    ∃ r, (machine [sample 1 7, sample 2 8]).Run (fun _ _ => True) (start 2) sampleArrivals r ∧
      ∀ f ∈ (sample 1 7).deliveries, ∃ s',
        r.reassembler.processFragment f.1 (.mac16 0 1) (.mac16 0 2) f.2
          = .ok (if (sample 1 7).Completes (r.seen (sample 1 7).key) f
            then some (sample 1 7).packet else none, s') := by
  have hds : Distinct [sample 1 7, sample 2 8] 2 := by
    constructor
    · intro d hd
      rcases mem_pair.mp hd with rfl | rfl
      · exact fragmentable_sample 1 7
      · exact fragmentable_sample 2 8
    · decide +kernel
    · exact .inr (le_refl 2)
  obtain ⟨r, hrun, hall⟩ := reassembles_of_distinct [sample 1 7, sample 2 8] 2 hds sampleArrivals
    (by decide +kernel)
  obtain ⟨-, -, -, hsteps⟩ := hall (sample 1 7) mem_cons_self
  exact ⟨r, hrun, hsteps⟩

/-- What the receiver answers to fragments from one sender. -/
def answers (s : Reassembler) : List (List Octet × Bool) → Except PacketFault (List (Option (List Octet)))
  | [] => .ok []
  | f :: fs => do
    let out ← s.processFragment f.1 (.mac16 0 1) (.mac16 0 2) f.2
    let rest ← answers out.2 fs
    return out.1 :: rest

/-- A packet that is compressed as RFC 6282 says. -/
def sampleIphc : Datagram := { sample 3 7 with packet := 0x60 :: List.replicate 56 3 }

/-- A packet of more octets than the field for its size can hold. -/
def sampleLong : Datagram :=
  { sample 3 7 with
    packet := 0x41 :: List.replicate 2100 3
    origPacketSize := 2100
    l2Mtu := 1500 }

/-- A packet that is not too long for its link. -/
def sampleShort : Datagram :=
  { sample 3 7 with
    packet := 0x41 :: List.replicate 40 3
    origPacketSize := 40
    l2Mtu := 100 }

set_option maxRecDepth 20000 in
/-- Without the conditions: the first fragment of another compression stops the simulation, the
fragments of a packet of 2100 octets never become entire, two packets with the same tag are mixed
into one, and a packet that fits the link cannot be cut. -/
theorem not_reassembles :
    (sampleIphc.Sized ∧ answers {} (sampleIphc.deliveries.take 1) = .error .aborted) ∧
    (sampleLong.deliveries.length = 2 ∧ answers {} sampleLong.deliveries = .ok [none, none]) ∧
    ((∃ packet, answers {} ((sample 1 7).deliveries.take 1 ++ (sample 2 7).deliveries.drop 1)
        = .ok [none, some packet] ∧ packet ≠ (sample 1 7).packet ∧ packet ≠ (sample 2 7).packet)) ∧
    sampleShort.doFragmentation = .error .assertFailed := by
  refine ⟨⟨?_, by decide +kernel⟩, by decide +kernel, ?_, by decide +kernel⟩
  · constructor
    all_goals decide +kernel
  · refine ⟨0x41 :: (List.replicate 32 1 ++ List.replicate 24 2), ?_, ?_, ?_⟩
    all_goals decide +kernel

end Reassembler

end Ns3Dsme.SixLowPan
