/-
# When the MAC header survives the wire

What every reading of a header gives and takes, and from it for which headers reading gives back
what was written.
-/
import Ns3Dsme.LrWpan.MacHeader

open List BitFields Reader

namespace Ns3Dsme.Codec.LrWpanMacHeader

/-! ## What is taken -/

/-- The octets that `Deserialize` takes for the destination. -/
def dstTaken (c : FrameControl) : ℕ :=
  if c.dstAddrMode = simpleAddr then 2
  else if c.dstAddrMode = shortAddr then 4
  else if c.dstAddrMode = extAddr then 10
  else 0

/-- The octets that `Serialize` writes and `Deserialize` takes for the source. -/
def srcTaken (c : FrameControl) : ℕ :=
  (if c.srcAddrMode = noAddr ∨ c.panIdComp = true then 0 else 2) +
    if c.srcAddrMode = shortAddr then 2 else if c.srcAddrMode = extAddr then 8 else 0

/-- The octets of a key identifier, in the order in which its parts are read. -/
def keyOctets (inOrder : Bool) (h : LrWpanMacHeader) : List Octet :=
  if h.secctrl.keyIdMode = noKeySource then [h.auxKeyIdKeyIndex]
  else if h.secctrl.keyIdMode = shortKeySource then
    if inOrder then lowFirst h.auxKeyIdKeySrc32 4 ++ [h.auxKeyIdKeyIndex]
    else h.auxKeyIdKeyIndex :: lowFirst h.auxKeyIdKeySrc32 4
  else if h.secctrl.keyIdMode = longKeySource then
    if inOrder then lowFirst h.auxKeyIdKeySrc64 8 ++ [h.auxKeyIdKeyIndex]
    else h.auxKeyIdKeyIndex :: lowFirst h.auxKeyIdKeySrc64 8
  else []

theorem length_keyOctets (inOrder : Bool) (h : LrWpanMacHeader) :
    (h.keyOctets inOrder).length = keySize h.secctrl := by
  unfold keyOctets keySize
  split
  · rfl
  · split
    · cases inOrder <;> rfl
    · split
      · cases inOrder <;> rfl
      · rfl

theorem keyOctets_inOrder (h : LrWpanMacHeader) : h.keyOctets true = h.writeKey := rfl

theorem setKeySrc32_low (h : LrWpanMacHeader) (keySrc : BitVec 32) :
    (h.setKeySrc32 keySrc).setWidth 32 = keySrc := by
  unfold setKeySrc32
  apply BitVec.eq_of_getLsbD_eq
  intro i hi
  rw [BitVec.getLsbD_setWidth, BitVec.getLsbD_or, BitVec.getLsbD_shiftLeft,
    BitVec.getLsbD_setWidth, decide_eq_true hi, decide_eq_true (show i < 64 by omega)]
  simp

/-! ## What every reading gives -/

/-- The destination is read, and the rest stays. -/
theorem yields_readDst (h : LrWpanMacHeader) : Yields h.readDst fun h' xs =>
    h'.fctrl = h.fctrl ∧ h'.seqNum = h.seqNum ∧ h'.addrSrcPanId = h.addrSrcPanId ∧
      xs.length = dstTaken h.fctrl := by
  unfold readDst dstTaken
  split
  · refine (yields_word (n := 16) (k := 2) rfl).bind fun w xs hxs => yields_pure ?_
    rw [hxs]
    exact ⟨rfl, rfl, rfl, rfl⟩
  · split
    · refine (yields_word (n := 16) (k := 2) rfl).bind fun w xs hxs =>
        (yields_word (n := 16) (k := 2) rfl).bind fun w' ys hys => yields_pure ?_
      rw [hxs, hys]
      exact ⟨rfl, rfl, rfl, rfl⟩
    · split
      · refine (yields_word (n := 16) (k := 2) rfl).bind fun w xs hxs =>
          (yields_word (n := 64) (k := 8) rfl).bind fun w' ys hys => yields_pure ?_
        rw [hxs, hys]
        exact ⟨rfl, rfl, rfl, rfl⟩
      · exact yields_pure ⟨rfl, rfl, rfl, rfl⟩

theorem yields_readSrcPanId (h : LrWpanMacHeader) : Yields h.readSrcPanId fun panId xs =>
    (h.fctrl.panIdComp = true →
      panId = if h.fctrl.dstAddrMode ≠ noAddr then h.addrDstPanId else h.addrSrcPanId) ∧
      xs.length = if h.fctrl.panIdComp = true then 0 else 2 := by
  unfold readSrcPanId
  by_cases hcomp : h.fctrl.panIdComp = true
  · rw [if_pos hcomp, if_pos hcomp]
    exact yields_pure ⟨fun _ => rfl, rfl⟩
  · rw [if_neg hcomp, if_neg hcomp]
    refine (yields_word (n := 16) (k := 2) rfl).mono fun w xs hxs => ⟨fun h => absurd h hcomp, ?_⟩
    rw [hxs]
    rfl

/-- The source is read, and the rest stays. -/
theorem yields_readSrc (h : LrWpanMacHeader) (hmode : h.fctrl.srcAddrMode.toNat < 4) :
    Yields h.readSrc fun h' xs =>
      h'.fctrl = h.fctrl ∧ h'.seqNum = h.seqNum ∧ xs.length = srcTaken h.fctrl ∧
        (h.fctrl.panIdComp = true → h.fctrl.srcAddrMode ≠ noAddr → h'.addrSrcPanId =
          if h.fctrl.dstAddrMode ≠ noAddr then h'.addrDstPanId else h.addrSrcPanId) := by
  have hpan := h.yields_readSrcPanId
  unfold readSrc srcTaken
  split
  · rename_i hsimple
    refine hpan.bind fun panId xs hxs => yields_pure ⟨rfl, rfl, ?_, fun hcomp _ => hxs.1 hcomp⟩
    rw [append_nil, hxs.2, hsimple, if_neg (show simpleAddr ≠ shortAddr by decide),
      if_neg (show simpleAddr ≠ extAddr by decide), Nat.add_zero]
    exact if_congr (by rw [or_iff_right (show simpleAddr ≠ noAddr by decide)]) rfl rfl
  · split
    · rename_i hshort
      refine hpan.bind fun panId xs hxs => (yields_word (n := 16) (k := 2) rfl).bind
        fun w ys hys => yields_pure ⟨rfl, rfl, ?_, fun hcomp _ => hxs.1 hcomp⟩
      rw [append_nil, length_append, hxs.2, hys, length_lowFirst, hshort]
      exact congrArg (· + 2)
        (if_congr (by rw [or_iff_right (show shortAddr ≠ noAddr by decide)]) rfl rfl)
    · split
      · rename_i hext
        refine hpan.bind fun panId xs hxs => (yields_word (n := 64) (k := 8) rfl).bind
          fun w ys hys => yields_pure ⟨rfl, rfl, ?_, fun hcomp _ => hxs.1 hcomp⟩
        rw [append_nil, length_append, hxs.2, hys, length_lowFirst, hext]
        exact congrArg (· + 8)
          (if_congr (by rw [or_iff_right (show extAddr ≠ noAddr by decide)]) rfl rfl)
      · rename_i hsimple hshort hext
        have hnone : h.fctrl.srcAddrMode = noAddr := by
          unfold simpleAddr at hsimple
          unfold shortAddr at hshort
          unfold extAddr at hext
          unfold noAddr
          bv_omega
        refine yields_pure ⟨rfl, rfl, ?_, fun _ hne => absurd hnone hne⟩
        rw [if_pos (Or.inl hnone)]
        rfl

theorem yields_readKeyId (inOrder : Bool) {n k : ℕ} (hn : n = 8 * k) :
    Yields (readKeyId inOrder n k) fun key xs =>
      xs = if inOrder then lowFirst key.1 k ++ [key.2] else key.2 :: lowFirst key.1 k := by
  unfold readKeyId
  cases inOrder with
  | true =>
    refine (yields_word hn).bind fun w xs hxs => yields_octet.bind fun a ys hys => yields_pure ?_
    rw [hxs, hys, append_nil]
    rfl
  | false =>
    refine yields_octet.bind fun a ys hys => (yields_word hn).bind fun w xs hxs => yields_pure ?_
    rw [hxs, hys, append_nil]
    rfl

/-- The key identifier is read, and the rest stays. -/
theorem yields_readKey (inOrder : Bool) (h : LrWpanMacHeader) :
    Yields (h.readKey inOrder) fun h' xs =>
      h'.fctrl = h.fctrl ∧ h'.seqNum = h.seqNum ∧ h'.addrDstPanId = h.addrDstPanId ∧
        h'.addrSrcPanId = h.addrSrcPanId ∧ h'.secctrl = h.secctrl ∧
        h'.auxFrmCntr = h.auxFrmCntr ∧ xs = h'.keyOctets inOrder := by
  unfold readKey
  split
  · rename_i hmode
    refine yields_octet.bind fun a xs hxs =>
      yields_pure ⟨rfl, rfl, rfl, rfl, rfl, rfl, ?_⟩
    unfold keyOctets
    rw [if_pos hmode, hxs, append_nil]
  · rename_i hmode
    split
    · rename_i hmode'
      refine (yields_readKeyId inOrder (n := 32) (k := 4) rfl).bind fun key xs hxs =>
        yields_pure ⟨rfl, rfl, rfl, rfl, rfl, rfl, ?_⟩
      unfold keyOctets auxKeyIdKeySrc32
      rw [if_neg hmode, if_pos hmode', setKeySrc32_low, hxs, append_nil]
    · rename_i hmode'
      split
      · rename_i hmode''
        refine (yields_readKeyId inOrder (n := 64) (k := 8) rfl).bind fun key xs hxs =>
          yields_pure ⟨rfl, rfl, rfl, rfl, rfl, rfl, ?_⟩
        unfold keyOctets
        rw [if_neg hmode, if_neg hmode', if_pos hmode'', hxs, append_nil]
      · rename_i hmode''
        refine yields_pure ⟨rfl, rfl, rfl, rfl, rfl, rfl, ?_⟩
        unfold keyOctets
        rw [if_neg hmode, if_neg hmode', if_neg hmode'']

/-- What the security header leaves, where there is one. -/
structure SecRead (inOrder : Bool) (h : LrWpanMacHeader) (xs : List Octet) : Prop where
  secLevel : h.secctrl.secLevel.toNat < 8
  keyIdMode : h.secctrl.keyIdMode.toNat < 4
  reserved : h.secctrl.reserved.toNat < 2
  frmCntr : h.auxFrmCntr.toNat < 2 ^ 32
  octets : ∃ c cnt, xs = [c] ++ (lowFirst (n := 32) cnt 4 ++ h.keyOctets inOrder)

theorem yields_readSec (inOrder : Bool) (h : LrWpanMacHeader) :
    Yields (h.readSec inOrder) fun h' xs =>
      h'.fctrl = h.fctrl ∧ h'.seqNum = h.seqNum ∧ h'.addrDstPanId = h.addrDstPanId ∧
        h'.addrSrcPanId = h.addrSrcPanId ∧ (h.fctrl.secU = true → h'.SecRead inOrder xs) ∧
        (h.fctrl.secU = false → xs = []) := by
  unfold readSec
  by_cases hsec : h.fctrl.secU = true
  · rw [if_pos hsec]
    refine yields_octet.bind fun c xs hxs => (yields_word (n := 32) (k := 4) rfl).bind
      fun cnt ys hys => (yields_readKey inOrder _).mono fun h' zs hzs => ?_
    obtain ⟨hfctrl, hseq, hdst, hsrc, hctrl, hcnt, hkey⟩ := hzs
    refine ⟨hfctrl, hseq, hdst, hsrc, fun _ => ?_, fun hno => ?_⟩
    · obtain ⟨hlevel, hmode, hres⟩ := SecControl.setSecControl_lt c
      refine ⟨?_, ?_, ?_, ?_, c, cnt, by rw [hxs, hys, hkey]⟩
      · rw [hctrl]
        exact hlevel
      · rw [hctrl]
        exact hmode
      · rw [hctrl]
        exact hres
      · rw [hcnt]
        show (cnt.setWidth 64).toNat < 2 ^ 32
        rw [BitVec.toNat_setWidth]
        exact lt_of_le_of_lt (Nat.mod_le _ _) cnt.isLt
    · rw [hsec] at hno
      cases hno
  · rw [if_neg hsec]
    exact yields_pure ⟨rfl, rfl, rfl, rfl, fun h => absurd h hsec, fun _ => rfl⟩

/-- **What every reading of a header gives and takes.** -/
structure IsRead (inOrder : Bool) (h₀ h : LrWpanMacHeader) (xs : List Octet) : Prop where
  reserved : h.fctrl.reserved.toNat < 2
  dstAddrMode : h.fctrl.dstAddrMode.toNat < 4
  frmVer : h.fctrl.frmVer.toNat < 4
  srcAddrMode : h.fctrl.srcAddrMode.toNat < 4
  srcPanId : h.fctrl.panIdComp = true → h.fctrl.srcAddrMode ≠ noAddr →
    h.addrSrcPanId = if h.fctrl.dstAddrMode ≠ noAddr then h.addrDstPanId else h₀.addrSrcPanId
  octets : ∃ front sec, xs = front ++ sec ∧
    front.length = 3 + dstTaken h.fctrl + srcTaken h.fctrl ∧
    (h.fctrl.secU = true → h.SecRead inOrder sec) ∧ (h.fctrl.secU = false → sec = [])

theorem yields_deserialize (inOrder : Bool) (h₀ : LrWpanMacHeader) :
    Yields (deserialize inOrder h₀) (IsRead inOrder h₀) := by
  unfold deserialize
  refine (yields_word (n := 16) (k := 2) rfl).bind fun fc xs hxs => yields_octet.bind
    fun seq ys hys => (yields_readDst _).bind fun h₁ zs hzs => ?_
  obtain ⟨hfctrl, hseq, hsrc, hlen⟩ := hzs
  have hfctrl' : h₁.fctrl = FrameControl.setFrameControl fc := hfctrl
  obtain ⟨hres, hdst, hver, hmode⟩ := FrameControl.setFrameControl_lt fc
  refine (h₁.yields_readSrc (by rw [hfctrl']; exact hmode)).bind fun h₂ us hus => ?_
  obtain ⟨hfctrl₂, -, hlen₂, hpan₂⟩ := hus
  refine (h₂.yields_readSec inOrder).mono fun h₃ vs hvs => ?_
  obtain ⟨hfctrl₃, -, hdst₃, hsrc₃, hsec₃, hnosec₃⟩ := hvs
  have hall : h₃.fctrl = FrameControl.setFrameControl fc :=
    hfctrl₃.trans (hfctrl₂.trans hfctrl')
  refine ⟨?_, ?_, ?_, ?_, ?_, (xs ++ (ys ++ (zs ++ us))), vs, ?_, ?_, ?_, ?_⟩
  · rw [hall]
    exact hres
  · rw [hall]
    exact hdst
  · rw [hall]
    exact hver
  · rw [hall]
    exact hmode
  · intro hcomp hne
    rw [hfctrl₃, hfctrl₂] at hcomp hne ⊢
    rw [hsrc₃, hdst₃, hpan₂ hcomp hne, hsrc]
  · rw [append_assoc, append_assoc, append_assoc]
  · rw [length_append, length_append, length_append, hxs, hys, hlen, hlen₂, hall,
      hfctrl']
    show 2 + (1 + (dstTaken (FrameControl.setFrameControl fc) +
      srcTaken (FrameControl.setFrameControl fc))) = _
    omega
  · rw [hfctrl₃]
    exact hsec₃
  · rw [hfctrl₃]
    exact hnosec₃

/-! ## Reading what was written -/

/-- A mode is one of the four. -/
theorem mode_cases {m : Octet} (hlt : m.toNat < 4) (hsimple : m ≠ simpleAddr) :
    m = noAddr ∨ m = shortAddr ∨ m = extAddr := by
  unfold noAddr shortAddr extAddr
  unfold simpleAddr at hsimple
  bv_omega

theorem length_writeDst (h : LrWpanMacHeader) : h.writeDst.length = h.dstSize := by
  unfold writeDst dstSize
  split
  · rfl
  · split
    · rfl
    · split
      · rfl
      · rfl

theorem length_writeSrc (h : LrWpanMacHeader) (hmode : h.fctrl.srcAddrMode.toNat < 4) :
    h.writeSrc.length = srcTaken h.fctrl := by
  have hpan : h.writeSrcPanId.length = if h.fctrl.panIdComp = true then 0 else 2 := by
    unfold writeSrcPanId
    split <;> rfl
  by_cases hsimple : h.fctrl.srcAddrMode = simpleAddr
  · unfold writeSrc srcTaken
    rw [if_pos hsimple, hpan, hsimple]
    exact if_congr (by rw [or_iff_right (show simpleAddr ≠ noAddr by decide)]) rfl rfl
  · unfold writeSrc srcTaken
    rcases mode_cases hmode hsimple with hno | hshort | hext
    · rw [hno]
      rfl
    · rw [hshort, if_neg (show shortAddr ≠ simpleAddr by decide), if_pos rfl, if_pos rfl,
        length_append, hpan, length_lowFirst]
      exact congrArg (· + 2)
        (if_congr (by rw [or_iff_right (show shortAddr ≠ noAddr by decide)]) rfl rfl)
    · rw [hext, if_neg (show extAddr ≠ simpleAddr by decide),
        if_neg (show extAddr ≠ shortAddr by decide), if_pos rfl,
        if_neg (show extAddr ≠ shortAddr by decide), if_pos rfl, length_append, hpan,
        length_lowFirst]
      exact congrArg (· + 8)
        (if_congr (by rw [or_iff_right (show extAddr ≠ noAddr by decide)]) rfl rfl)

theorem length_writeSec (h : LrWpanMacHeader) :
    h.writeSec.length = if h.fctrl.secU = true then 5 + keySize h.secctrl else 0 := by
  unfold writeSec
  split
  · rw [length_append, length_append, length_lowFirst, ← keyOctets_inOrder,
      length_keyOctets]
    exact (Nat.add_assoc 1 4 _).symm
  · rfl

/-- The destination comes back. -/
theorem exists_readDst (h g : LrWpanMacHeader) (hfctrl : g.fctrl = h.fctrl)
    (hmode : h.fctrl.dstAddrMode = noAddr ∨ h.fctrl.dstAddrMode = shortAddr ∨
      h.fctrl.dstAddrMode = extAddr) :
    ∃ g', Reads g.readDst h.writeDst g' ∧ g'.fctrl = g.fctrl ∧ g'.seqNum = g.seqNum ∧
      g'.addrSrcPanId = g.addrSrcPanId ∧
      (h.fctrl.dstAddrMode ≠ noAddr → g'.addrDstPanId = h.addrDstPanId) ∧
      (h.fctrl.dstAddrMode = shortAddr → g'.addrShortDstAddr = h.addrShortDstAddr) ∧
      (h.fctrl.dstAddrMode = extAddr → g'.addrExtDstAddr = h.addrExtDstAddr) := by
  have hmode' : g.fctrl.dstAddrMode = h.fctrl.dstAddrMode := by rw [hfctrl]
  unfold readDst writeDst
  rw [hmode']
  rcases hmode with hno | hshort | hext
  · rw [hno]
    exact ⟨g, reads_pure g, rfl, rfl, rfl, fun h => absurd rfl h, by rintro ⟨⟩, by rintro ⟨⟩⟩
  · rw [hshort]
    refine ⟨{ g with addrDstPanId := h.addrDstPanId, addrShortDstAddr := h.addrShortDstAddr },
      (reads_word (k := 2) _ rfl).bind ((reads_word (k := 2) _ rfl).bind_pure rfl), rfl, rfl,
      rfl, fun _ => rfl, fun _ => rfl, by rintro ⟨⟩⟩
  · rw [hext]
    refine ⟨{ g with addrDstPanId := h.addrDstPanId, addrExtDstAddr := h.addrExtDstAddr },
      (reads_word (k := 2) _ rfl).bind ((reads_word (k := 8) _ rfl).bind_pure rfl), rfl, rfl,
      rfl, fun _ => rfl, by rintro ⟨⟩, fun _ => rfl⟩

theorem reads_readSrcPanId (h g : LrWpanMacHeader) (hfctrl : g.fctrl = h.fctrl)
    (hpan : h.fctrl.panIdComp = true → h.addrSrcPanId =
      if g.fctrl.dstAddrMode ≠ noAddr then g.addrDstPanId else g.addrSrcPanId) :
    Reads g.readSrcPanId h.writeSrcPanId h.addrSrcPanId := by
  have hcomp' : g.fctrl.panIdComp = h.fctrl.panIdComp := by rw [hfctrl]
  unfold readSrcPanId writeSrcPanId
  rw [hcomp']
  by_cases hcomp : h.fctrl.panIdComp = true
  · rw [if_pos hcomp, if_pos hcomp, ← hpan hcomp]
    exact reads_pure _
  · rw [if_neg hcomp, if_neg hcomp]
    exact reads_word _ rfl

/-- The source comes back. -/
theorem exists_readSrc (h g : LrWpanMacHeader) (hfctrl : g.fctrl = h.fctrl)
    (hmode : h.fctrl.srcAddrMode = noAddr ∨ h.fctrl.srcAddrMode = shortAddr ∨
      h.fctrl.srcAddrMode = extAddr)
    (hpan : h.fctrl.panIdComp = true → h.fctrl.srcAddrMode ≠ noAddr → h.addrSrcPanId =
      if g.fctrl.dstAddrMode ≠ noAddr then g.addrDstPanId else g.addrSrcPanId) :
    ∃ g', Reads g.readSrc h.writeSrc g' ∧ g'.fctrl = g.fctrl ∧ g'.seqNum = g.seqNum ∧
      g'.addrDstPanId = g.addrDstPanId ∧ g'.addrShortDstAddr = g.addrShortDstAddr ∧
      g'.addrExtDstAddr = g.addrExtDstAddr ∧
      (h.fctrl.srcAddrMode ≠ noAddr → g'.addrSrcPanId = h.addrSrcPanId) ∧
      (h.fctrl.srcAddrMode = shortAddr → g'.addrShortSrcAddr = h.addrShortSrcAddr) ∧
      (h.fctrl.srcAddrMode = extAddr → g'.addrExtSrcAddr = h.addrExtSrcAddr) := by
  have hmode' : g.fctrl.srcAddrMode = h.fctrl.srcAddrMode := by rw [hfctrl]
  unfold readSrc writeSrc
  rw [hmode']
  rcases hmode with hno | hshort | hext
  · rw [hno]
    exact ⟨g, reads_pure g, rfl, rfl, rfl, rfl, rfl, fun h => absurd rfl h, by rintro ⟨⟩,
      by rintro ⟨⟩⟩
  · have hread := reads_readSrcPanId h g hfctrl fun hcomp =>
      hpan hcomp (by rw [hshort]; decide)
    rw [hshort]
    exact ⟨{ g with addrSrcPanId := h.addrSrcPanId, addrShortSrcAddr := h.addrShortSrcAddr },
      hread.bind ((reads_word (k := 2) _ rfl).bind_pure rfl), rfl, rfl, rfl, rfl, rfl,
      fun _ => rfl, fun _ => rfl, by rintro ⟨⟩⟩
  · have hread := reads_readSrcPanId h g hfctrl fun hcomp =>
      hpan hcomp (by rw [hext]; decide)
    rw [hext]
    exact ⟨{ g with addrSrcPanId := h.addrSrcPanId, addrExtSrcAddr := h.addrExtSrcAddr },
      hread.bind ((reads_word (k := 8) _ rfl).bind_pure rfl), rfl, rfl, rfl, rfl, rfl,
      fun _ => rfl, by rintro ⟨⟩, fun _ => rfl⟩

/-- A list that stays the same when its last element is moved to the front has one element only. -/
theorem cons_eq_append_iff {a : Octet} {xs : List Octet} :
    a :: xs = xs ++ [a] ↔ xs = List.replicate xs.length a := by
  induction xs with
  | nil => exact ⟨fun _ => rfl, fun _ => rfl⟩
  | cons b xs ih =>
    rw [cons_append, List.cons.injEq, length_cons, replicate_succ, List.cons.injEq]
    constructor
    · rintro ⟨rfl, hxs⟩
      exact ⟨rfl, ih.mp hxs⟩
    · rintro ⟨rfl, hxs⟩
      exact ⟨rfl, ih.mpr hxs⟩

theorem reads_readKeyId (inOrder : Bool) {n k : ℕ} (hn : n = 8 * k) (keySrc : BitVec n)
    (keyIndex : Octet) (hsame : inOrder = false → lowFirst keySrc k = List.replicate k keyIndex) :
    Reads (readKeyId inOrder n k) (lowFirst keySrc k ++ [keyIndex]) (keySrc, keyIndex) := by
  unfold readKeyId
  cases inOrder with
  | true => exact (reads_word keySrc hn).bind ((reads_octet keyIndex).bind_pure rfl)
  | false =>
    have hmove : lowFirst keySrc k ++ [keyIndex] = [keyIndex] ++ lowFirst keySrc k := by
      refine (cons_eq_append_iff.mpr ?_).symm
      rw [length_lowFirst]
      exact hsame rfl
    rw [hmove]
    exact (reads_octet keyIndex).bind ((reads_word keySrc hn).bind_pure rfl)

/-- The key identifier comes back. -/
theorem exists_readKey (inOrder : Bool) (h g : LrWpanMacHeader) (hctrl : g.secctrl = h.secctrl)
    (hkey : inOrder = false →
      (h.secctrl.keyIdMode = shortKeySource →
        lowFirst h.auxKeyIdKeySrc32 4 = List.replicate 4 h.auxKeyIdKeyIndex) ∧
      (h.secctrl.keyIdMode = longKeySource →
        lowFirst h.auxKeyIdKeySrc64 8 = List.replicate 8 h.auxKeyIdKeyIndex))
    (hlt : h.secctrl.keyIdMode.toNat < 4) :
    ∃ g', Reads (g.readKey inOrder) h.writeKey g' ∧
      { g' with auxKeyIdKeySrc64 := 0, auxKeyIdKeyIndex := 0 } =
        { g with auxKeyIdKeySrc64 := 0, auxKeyIdKeyIndex := 0 } ∧
      (h.secctrl.keyIdMode ≠ implicit → g'.auxKeyIdKeyIndex = h.auxKeyIdKeyIndex) ∧
      (h.secctrl.keyIdMode = shortKeySource → g'.auxKeyIdKeySrc32 = h.auxKeyIdKeySrc32) ∧
      (h.secctrl.keyIdMode = longKeySource → g'.auxKeyIdKeySrc64 = h.auxKeyIdKeySrc64) := by
  have hmode' : g.secctrl.keyIdMode = h.secctrl.keyIdMode := by rw [hctrl]
  unfold readKey writeKey
  rw [hmode']
  by_cases hnokey : h.secctrl.keyIdMode = noKeySource
  · rw [hnokey]
    exact ⟨{ g with auxKeyIdKeyIndex := h.auxKeyIdKeyIndex }, (reads_octet _).bind_pure rfl, rfl,
      fun _ => rfl, by rintro ⟨⟩, by rintro ⟨⟩⟩
  · rcases mode_cases hlt hnokey with himplicit | hshort | hlong
    · rw [himplicit]
      exact ⟨g, reads_pure g, rfl, fun h => absurd rfl h, by rintro ⟨⟩, by rintro ⟨⟩⟩
    · have hread := reads_readKeyId inOrder (n := 32) (k := 4) rfl h.auxKeyIdKeySrc32
        h.auxKeyIdKeyIndex fun hout => (hkey hout).1 hshort
      rw [hshort]
      exact ⟨{ g with
          auxKeyIdKeySrc64 := g.setKeySrc32 h.auxKeyIdKeySrc32
          auxKeyIdKeyIndex := h.auxKeyIdKeyIndex }, hread.bind_pure rfl, rfl, fun _ => rfl,
        fun _ => setKeySrc32_low g _, by rintro ⟨⟩⟩
    · have hread := reads_readKeyId inOrder (n := 64) (k := 8) rfl h.auxKeyIdKeySrc64
        h.auxKeyIdKeyIndex fun hout => (hkey hout).2 hlong
      rw [hlong]
      exact ⟨{ g with
          auxKeyIdKeySrc64 := h.auxKeyIdKeySrc64
          auxKeyIdKeyIndex := h.auxKeyIdKeyIndex }, hread.bind_pure rfl, rfl, fun _ => rfl,
        by rintro ⟨⟩, fun _ => rfl⟩

/-- The security header comes back. -/
theorem exists_readSec {inOrder : Bool} {h h₀ : LrWpanMacHeader} (hc : Carried inOrder h h₀)
    (g : LrWpanMacHeader) (hfctrl : g.fctrl = h.fctrl) :
    ∃ g', Reads (g.readSec inOrder) h.writeSec g' ∧
      { g' with
        secctrl := g.secctrl
        auxFrmCntr := g.auxFrmCntr
        auxKeyIdKeySrc64 := g.auxKeyIdKeySrc64
        auxKeyIdKeyIndex := g.auxKeyIdKeyIndex } = g ∧
      (h.fctrl.secU = true → (g'.secctrl = h.secctrl ∧ g'.auxFrmCntr = h.auxFrmCntr) ∧
        (h.secctrl.keyIdMode ≠ implicit → g'.auxKeyIdKeyIndex = h.auxKeyIdKeyIndex) ∧
        (h.secctrl.keyIdMode = shortKeySource → g'.auxKeyIdKeySrc32 = h.auxKeyIdKeySrc32) ∧
        (h.secctrl.keyIdMode = longKeySource → g'.auxKeyIdKeySrc64 = h.auxKeyIdKeySrc64)) := by
  have hsec' : g.fctrl.secU = h.fctrl.secU := by rw [hfctrl]
  unfold readSec writeSec
  rw [hsec']
  by_cases hsec : h.fctrl.secU = true
  · obtain ⟨hlevel, hmode, hres, hsup, hsize⟩ := hc.secctrl hsec
    have hctrl : SecControl.setSecControl h.secctrl.getSecControl = h.secctrl := by
      rw [SecControl.setSecControl_getSecControl, and_eq_self (k := 3) rfl hlevel,
        and_eq_self (k := 2) rfl hmode, and_eq_self (k := 1) rfl hres]
    have hcntr : (h.auxFrmCntr.setWidth 32).setWidth 64 = h.auxFrmCntr := by
      apply BitVec.eq_of_toNat_eq
      rw [BitVec.toNat_setWidth, BitVec.toNat_setWidth, Nat.mod_eq_of_lt (hc.frmCntr hsec)]
      exact Nat.mod_eq_of_lt h.auxFrmCntr.isLt
    obtain ⟨g', hread, hrest, hindex, hshort, hlong⟩ := exists_readKey inOrder h
      { g with secctrl := h.secctrl, auxFrmCntr := h.auxFrmCntr } rfl (hc.key hsec) hmode
    rw [if_pos hsec, if_pos hsec]
    rw [mk.injEq] at hrest
    obtain ⟨e₁, e₂, e₃, e₄, e₅, e₆, e₇, e₈, e₉, e₁₀, e₁₁, e₁₂, -⟩ := hrest
    refine ⟨g', (reads_octet _).bind ((reads_word (k := 4) _ rfl).bind ?_), ?_,
      fun _ => ⟨⟨e₁₂, e₁₁⟩, hindex, hshort, hlong⟩⟩
    · rw [hctrl, hcntr]
      exact hread
    · rw [e₁, e₂, e₃, e₄, e₅, e₆, e₇, e₈, e₉, e₁₀]
  · rw [if_neg hsec, if_neg hsec]
    exact ⟨g, reads_pure g, rfl, fun h => absurd h hsec⟩

/-- **A header that meets the conditions comes back.** -/
theorem Carried.roundTrips {inOrder : Bool} {h h₀ : LrWpanMacHeader} (hc : Carried inOrder h h₀) :
    RoundTrips inOrder h h₀ := by
  have hmode : h.fctrl.srcAddrMode.toNat < 4 := by
    rcases hc.srcAddrMode with hm | hm | hm <;> rw [hm] <;> decide
  have hdmode : h.fctrl.dstAddrMode.toNat < 4 := by
    rcases hc.dstAddrMode with hm | hm | hm <;> rw [hm] <;> decide
  constructor
  · -- the lengths
    unfold getSerializedSize serialize
    rw [length_append, length_append, length_append, length_append,
      length_lowFirst, length_writeDst, length_writeSrc h hmode, length_writeSec]
    have hsrc : h.srcSize = srcTaken h.fctrl := by
      unfold srcSize srcTaken
      rcases hc.srcAddrMode with hm | hm | hm
      · rw [hm]
        rfl
      · rw [hm]
        cases h.fctrl.panIdComp <;> rfl
      · rw [hm]
        cases h.fctrl.panIdComp <;> rfl
    have hsec : h.secSize = if h.fctrl.secU = true then 5 + keySize h.secctrl else 0 := by
      unfold secSize
      by_cases hsec : h.fctrl.secU = true
      · obtain ⟨-, -, -, hsup, hsize⟩ := hc.secctrl hsec
        rw [if_pos hsec, if_pos hsec, hsup, hsize]
        rfl
      · rw [if_neg hsec, if_neg hsec]
    rw [hsrc, hsec]
    show _ = 2 + (1 + _)
    omega
  · -- the fields
    have hfc : FrameControl.setFrameControl h.fctrl.getFrameControl = h.fctrl := by
      rw [FrameControl.setFrameControl_getFrameControl, and_eq_self (k := 1) rfl hc.reserved,
        and_eq_self (k := 2) rfl hdmode, and_eq_self (k := 2) rfl hc.frmVer,
        and_eq_self (k := 2) rfl hmode]
    obtain ⟨g₁, hread₁, hfctrl₁, hseq₁, hsrc₁, hdst₁, hshort₁, hext₁⟩ := exists_readDst h
      { h₀ with fctrl := h.fctrl, seqNum := h.seqNum } rfl hc.dstAddrMode
    obtain ⟨g₂, hread₂, hfctrl₂, hseq₂, hdst₂, hsd₂, hed₂, hsrc₂, hshort₂, hext₂⟩ :=
      exists_readSrc h g₁ hfctrl₁ hc.srcAddrMode fun hcomp hne => by
        rw [hfctrl₁, hc.srcPanId hcomp hne]
        show _ = if h.fctrl.dstAddrMode ≠ noAddr then g₁.addrDstPanId else g₁.addrSrcPanId
        by_cases hdst : h.fctrl.dstAddrMode ≠ noAddr
        · rw [if_pos hdst, if_pos hdst, hdst₁ hdst]
        · rw [if_neg hdst, if_neg hdst, hsrc₁]
    obtain ⟨g₃, hread₃, hrest₃, hsec₃⟩ := exists_readSec hc g₂ (hfctrl₂.trans hfctrl₁)
    have hdeser : Reads (deserialize inOrder h₀) h.serialize g₃ := by
      unfold deserialize serialize
      refine (reads_word (k := 2) h.fctrl.getFrameControl rfl).bind ((reads_octet _).bind ?_)
      rw [hfc]
      exact hread₁.bind (hread₂.bind hread₃)
    rw [mk.injEq] at hrest₃
    obtain ⟨e₁, e₂, e₃, -, e₅, e₆, e₇, -, e₉, e₁₀, -⟩ := hrest₃
    refine fun rest => ⟨g₃, hdeser rest, e₁.trans (hfctrl₂.trans hfctrl₁),
      e₂.trans (hseq₂.trans hseq₁), fun hm => e₃.trans (hdst₂.trans (hdst₁ hm)), fun hm => ?_,
      fun hm => e₅.trans (hsd₂.trans (hshort₁ hm)), fun hm => e₆.trans (hed₂.trans (hext₁ hm)),
      fun hm => e₇.trans (hsrc₂ hm), fun hm => ?_, fun hm => e₉.trans (hshort₂ hm),
      fun hm => e₁₀.trans (hext₂ hm), fun hm => (hsec₃ hm).1, fun hm => (hsec₃ hm).2.1,
      fun hm => (hsec₃ hm).2.2.1, fun hm => (hsec₃ hm).2.2.2⟩
    · rcases hc.dstAddrMode with hd | hd | hd <;> rw [hm] at hd <;> cases hd
    · rcases hc.srcAddrMode with hd | hd | hd <;> rw [hm] at hd <;> cases hd

/-- The size that is reported for a source with a simple address is too large by one. -/
theorem srcSize_eq {h : LrWpanMacHeader} (hslt : h.fctrl.srcAddrMode < 4) :
    h.srcSize = srcTaken h.fctrl + if h.fctrl.srcAddrMode = simpleAddr then 1 else 0 := by
  by_cases hsimple : h.fctrl.srcAddrMode = simpleAddr
  · unfold srcSize srcTaken
    rw [hsimple]
    cases h.fctrl.panIdComp <;> rfl
  · unfold srcSize srcTaken
    rcases mode_cases hslt hsimple with hm | hm | hm
    · rw [hm]
      rfl
    · rw [hm]
      cases h.fctrl.panIdComp <;> rfl
    · rw [hm]
      cases h.fctrl.panIdComp <;> rfl

theorem length_serialize {h : LrWpanMacHeader} (hslt : h.fctrl.srcAddrMode < 4) :
    h.serialize.length = 3 + h.dstSize + srcTaken h.fctrl + h.writeSec.length := by
  unfold serialize
  rw [length_append, length_append, length_append, length_append, length_lowFirst,
    h.length_writeDst, h.length_writeSrc hslt]
  show 2 + (1 + _) = _
  omega

/-- A reported size that is right leaves no simple address and no suppressed or short frame
counter. -/
theorem supported_of_size {h : LrWpanMacHeader} (hslt : h.fctrl.srcAddrMode < 4)
    (hsize : h.getSerializedSize = h.serialize.length) :
    h.fctrl.srcAddrMode ≠ simpleAddr ∧ (h.fctrl.secU = true →
      h.secctrl.frmCntSup = false ∧ h.secctrl.frmCntSize = false) := by
  have hreported : h.srcSize + h.secSize = srcTaken h.fctrl + h.writeSec.length := by
    have htotal := length_serialize hslt
    unfold getSerializedSize at hsize
    omega
  rw [srcSize_eq hslt, h.length_writeSec] at hreported
  unfold secSize at hreported
  by_cases hs : h.fctrl.srcAddrMode = simpleAddr
  · rw [if_pos hs] at hreported
    by_cases hU : h.fctrl.secU = true
    · rw [if_pos hU, if_pos hU] at hreported
      split at hreported
      · omega
      · split at hreported <;> omega
    · rw [if_neg hU, if_neg hU] at hreported
      omega
  · refine ⟨hs, fun hU => ?_⟩
    rw [if_neg hs, if_pos hU, if_pos hU] at hreported
    split at hreported
    · omega
    · rename_i hsup
      split at hreported
      · omega
      · rename_i hcnt
        exact ⟨Bool.eq_false_iff.mpr hsup, Bool.eq_false_iff.mpr hcnt⟩

/-- **A header that comes back meets the conditions.** -/
theorem RoundTrips.carried {inOrder : Bool} {h h₀ : LrWpanMacHeader}
    (hr : RoundTrips inOrder h h₀) : Carried inOrder h h₀ := by
  obtain ⟨hsize, hread⟩ := hr
  obtain ⟨h', hrun, hsame⟩ := hread []
  have hall := (yields_deserialize inOrder h₀).of_run hrun
  obtain ⟨hres, hdlt, hver, hslt, hpan, front, sec, hoctets, hfront, hsec, hnosec⟩ := hall
  rw [hsame.fctrl] at hres hdlt hver hslt hpan hfront hsec hnosec
  have hsecLength := h.length_writeSec
  -- what was written and what was taken are equally long, part for part
  have hsecTaken : sec.length = h.writeSec.length := by
    rw [hsecLength]
    by_cases hU : h.fctrl.secU = true
    · obtain ⟨c, cnt, hxs⟩ := (hsec hU).octets
      rw [if_pos hU, hxs, length_append, length_append, length_lowFirst,
        length_keyOctets, (hsame.sec hU).1]
      exact (Nat.add_assoc 1 4 _).symm
    · rw [if_neg hU, hnosec (Bool.eq_false_iff.mpr hU)]
      rfl
  have htotal := length_serialize hslt
  have hfrontLength : front.length = 3 + h.dstSize + srcTaken h.fctrl := by
    have hsum := congrArg List.length hoctets
    rw [length_append, htotal] at hsum
    omega
  have hdst : h.fctrl.dstAddrMode ≠ simpleAddr := by
    intro hsimple
    have htaken : dstTaken h.fctrl = 2 := by
      unfold dstTaken
      rw [if_pos hsimple]
    have hwritten : h.dstSize = 3 := by
      unfold dstSize
      rw [if_pos hsimple]
    omega
  have hsimple := supported_of_size hslt hsize
  -- the octets of the security header are those that were taken for it
  have hsecOctets : sec = h.writeSec := by
    have hfull : front ++ sec =
        (lowFirst h.fctrl.getFrameControl 2 ++ ([h.seqNum] ++ (h.writeDst ++ h.writeSrc))) ++
          h.writeSec := by
      rw [← hoctets, serialize]
      simp only [append_assoc]
    refine (append_inj' hfull hsecTaken).2
  refine ⟨hres, hver, mode_cases hdlt hdst, mode_cases hslt hsimple.1, fun hcomp hne => ?_,
    fun hU => ?_, fun hU => ?_, fun hU hout => ?_⟩
  · have hback := hpan hcomp hne
    rw [hsame.srcPanId hne] at hback
    rw [hback]
    by_cases hd : h.fctrl.dstAddrMode ≠ noAddr
    · rw [if_pos hd, if_pos hd, hsame.dstPanId hd]
    · rw [if_neg hd, if_neg hd]
  · have hs := hsec hU
    rw [← (hsame.sec hU).1]
    refine ⟨hs.secLevel, hs.keyIdMode, hs.reserved, ?_⟩
    rw [(hsame.sec hU).1]
    exact hsimple.2 hU
  · rw [← (hsame.sec hU).2]
    exact (hsec hU).frmCntr
  · obtain ⟨c, cnt, hxs⟩ := (hsec hU).octets
    have hkey : h'.keyOctets inOrder = h.writeKey := by
      rw [hsecOctets, writeSec, if_pos hU] at hxs
      have hlen : h.writeKey.length = (h'.keyOctets inOrder).length := by
        rw [← keyOctets_inOrder, length_keyOctets, length_keyOctets, (hsame.sec hU).1]
      have htail := (append_inj' hxs (by
        rw [length_append, length_append, length_lowFirst, length_lowFirst, hlen])).2
      exact (append_inj' htail hlen).2.symm
    have hmode : h'.secctrl.keyIdMode = h.secctrl.keyIdMode := by rw [(hsame.sec hU).1]
    unfold keyOctets writeKey at hkey
    rw [hmode, hout] at hkey
    constructor
    · intro hshort
      rw [hshort] at hkey
      have hindex := hsame.keyIndex hU (by rw [hshort]; decide)
      have hsrc := hsame.keySrc32 hU hshort
      rw [hindex, hsrc] at hkey
      have hmove := cons_eq_append_iff.mp hkey
      rw [length_lowFirst] at hmove
      exact hmove
    · intro hlong
      rw [hlong] at hkey
      have hindex := hsame.keyIndex hU (by rw [hlong]; decide)
      have hsrc := hsame.keySrc64 hU hlong
      rw [hindex, hsrc] at hkey
      have hmove := cons_eq_append_iff.mp hkey
      rw [length_lowFirst] at hmove
      exact hmove

/-- **When a header survives the wire.**  Fields of two bits must fit them, no address may be a
simple one, the source PAN identifier that compression leaves out must be the one that is filled in,
the frame counter must be written in four octets, and the arguments of `SetKeyId` must be read in
the order in which they were written. -/
theorem roundTrips_iff (inOrder : Bool) (h h₀ : LrWpanMacHeader) :
    RoundTrips inOrder h h₀ ↔ Carried inOrder h h₀ :=
  ⟨RoundTrips.carried, Carried.roundTrips⟩

/-- A data frame from a simple address. -/
def simpleSource : LrWpanMacHeader where
  fctrl :=
    { frmType := 1, secU := false, frmPending := false, ackReq := false, panIdComp := false
      reserved := 0, seqNumSup := false, ieListPresent := false, dstAddrMode := shortAddr
      frmVer := 2, srcAddrMode := simpleAddr }
  seqNum := 7
  addrDstPanId := 1
  addrSimpleDstAddr := 0
  addrShortDstAddr := 2
  addrExtDstAddr := 0
  addrSrcPanId := 1
  addrSimpleSrcAddr := 3
  addrShortSrcAddr := 0
  addrExtSrcAddr := 0
  auxFrmCntr := 0
  secctrl := ⟨0, implicit, false, false, 0⟩
  auxKeyIdKeySrc64 := 0
  auxKeyIdKeyIndex := 0

/-- Not every header survives: the simple source address is counted but not written. -/
theorem not_roundTrips : ¬ ∀ inOrder h h₀, RoundTrips inOrder h h₀ := by
  intro hall
  obtain ⟨hsize, -⟩ := hall true simpleSource simpleSource
  exact absurd hsize (by decide)

end Ns3Dsme.Codec.LrWpanMacHeader
