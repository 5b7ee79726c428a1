/-
# Setting attributes of the PHY

`PlmeSetAttributeRequest` with the whole PIB, the page and what the PHY keeps for the channel it
is tuned to: the power spectral densities of its transmissions and of the noise, and the signals
it sees.

Every attribute is checked before it is set.  For the channel alone the check and the update are
two `if`s in a row, so an unsupported channel is reported as invalid and set all the same.
-/
import Ns3Dsme.LrWpan.Phy

open Program

namespace Ns3Dsme

/-- `LrWpanPibAttributeIdentifier`. -/
inductive LrWpanPibAttributeIdentifier
  | phyCurrentChannel
  | phyChannelsSupported
  | phyTransmitPower
  | phyCCAMode
  | phyCurrentPage
  | phyMaxFrameDuration
  | phySHRDuration
  | phySymbolsPerOctet
  deriving DecidableEq, Repr

/-- `LrWpanPhyPibAttributes`, as far as a request can set it. -/
structure LrWpanPhyPibAttributes where
  phyCurrentChannel : BitVec 8 := 0
  phyChannelsSupported : Vector (BitVec 32) 32 := Vector.replicate 32 0
  phyTransmitPower : BitVec 8 := 0
  phyCCAMode : BitVec 8 := 0
  phyCurrentPage : BitVec 8 := 0
  deriving DecidableEq

/-- What `CreateTxPowerSpectralDensity` makes of a power in dBm and a channel. -/
structure TxPsd where
  txPower : ℤ
  channel : BitVec 8
  deriving DecidableEq, Repr

/-- The PHY with the rest of its PIB, of which the page selects one of 32 sets of channels.  The
inherited `phyChannelsSupported` is the set of page 0, and `signal` the frames on the air that
`m_signal` adds up. -/
structure TunedPhy extends LrWpanPhy where
  phyCurrentPage : Fin 32 := 0
  /-- `phyChannelsSupported[1]` to `phyChannelsSupported[31]`. -/
  furtherChannelsSupported : Vector (BitVec 32) 31 := Vector.replicate 31 0xF8000000
  phyTransmitPower : BitVec 8 := 0
  phyOption : LrWpanPhyOption := .oqpsk2400
  txPsd : TxPsd := ⟨0, 11⟩
  /-- The channel of the noise. -/
  noise : BitVec 8 := 11
  signal : List ℕ := []

namespace LrWpanPhy

/-- The 2.4 GHz band, for which alone there are power spectral densities. -/
def InBand (channel : BitVec 8) : Prop := 11 ≤ channel ∧ channel ≤ 26

instance (channel : BitVec 8) : Decidable (InBand channel) :=
  inferInstanceAs (Decidable (_ ∧ _))

/-- What the page and the channel make of the PHY option, and of the channel if the page does not
have it. -/
def optionOfPage (page : ℕ) (channel : BitVec 8) (option : LrWpanPhyOption) :
    LrWpanPhyOption × BitVec 8 :=
  match page with
  | 0 =>
    if channel = 0 then (.bpsk868, channel)
    else if channel ≤ 10 then (.bpsk915, channel)
    else if channel ≤ 26 then (.oqpsk2400, channel)
    else (option, channel)
  | 1 =>
    if channel = 0 then (.ask868, channel)
    else if channel ≤ 10 then (.ask915, channel)
    else (.ask868, 0)
  | 2 =>
    if channel = 0 then (.oqpsk868, channel)
    else if channel ≤ 10 then (.oqpsk915, channel)
    else (.oqpsk868, 0)
  | 5 => if channel ≤ 3 then (.oqpsk780, channel) else (.oqpsk780, 0)
  | 6 => if channel ≤ 9 then (.bpsk950, channel) else (.bpsk950, 0)
  | _ => (option, channel)

/-- `GetNominalTxPowerFromPib`. -/
def nominalTxPower (phyTransmitPower : BitVec 8) : ℤ :=
  let nominalTxPower : ℤ := (phyTransmitPower &&& 0x1F).toNat
  if phyTransmitPower &&& 0x20 ≠ 0 then nominalTxPower - 32 else nominalTxPower

end LrWpanPhy

namespace TunedPhy

open LrWpanPhy

/-- `m_phyPIBAttributes.phyChannelsSupported[page]`. -/
def channelsOf (page : Fin 32) (s : TunedPhy) : BitVec 32 :=
  page.cases s.phyChannelsSupported fun i => s.furtherChannelsSupported[i]

/-- `ChannelSupported`. -/
def supports (channel : BitVec 8) (s : TunedPhy) : Bool :=
  s.channelsOf s.phyCurrentPage &&& (1 <<< channel.toNat) != 0

/-- `PageSupported(0)`; it aborts on any other page. -/
def pageSupported (s : TunedPhy) : Bool :=
  (s.phyChannelsSupported >>> 27) &&& 0x1F == 0

/-- `m_txPsd = psdHelper.CreateTxPowerSpectralDensity(..)`. -/
def renewTxPsd (s : TunedPhy) : Except PhyFault TunedPhy :=
  if InBand s.phyCurrentChannel then
    .ok { s with txPsd := ⟨nominalTxPower s.phyTransmitPower, s.phyCurrentChannel⟩ }
  else .error .assertFailed

/-- New power spectral densities, and no signal seen yet. -/
def renewSpectrum (s : TunedPhy) : Except PhyFault TunedPhy := do
  let s ← s.renewTxPsd
  .ok { s with noise := s.phyCurrentChannel, signal := [] }

/-- Another page is set. -/
def switchPage (page : Fin 32) (s : TunedPhy) : Except PhyFault TunedPhy :=
  let s := { s with toLrWpanPhy := s.breakOff }
  let (phyOption, phyCurrentChannel) := optionOfPage page s.phyCurrentChannel s.phyOption
  { s with phyOption, phyCurrentChannel, phyCurrentPage := page }.renewSpectrum

/-- Another channel is set. -/
def setChannel (channel : BitVec 8) (s : TunedPhy) : Except PhyFault TunedPhy :=
  { s with toLrWpanPhy :=
    { s.breakOff with phyCurrentChannel := channel }.emit (.phyCurrentChannel channel) }.renewSpectrum

/-- `PlmeSetAttributeRequest` up to the confirm, with its status. -/
def setAttribute (id : LrWpanPibAttributeIdentifier) (attr : LrWpanPhyPibAttributes)
    (s : TunedPhy) : Except PhyFault (SetAttributeStatus × TunedPhy) :=
  match id with
  | .phyCurrentPage =>
    if attr.phyCurrentPage ≠ 0 then .error .abort
    else if !s.pageSupported then .ok (.invalidParameter, s)
    else if s.phyCurrentPage ≠ 0 then do
      let s ← s.switchPage 0
      .ok (.success, s)
    else .ok (.success, s)
  | .phyCurrentChannel =>
    if attr.phyCurrentChannel.toNat ≥ 32 then .error .undefinedShift
    else do
      let status :=
        if s.supports attr.phyCurrentChannel then SetAttributeStatus.success
        else .invalidParameter
      let s ←
        if s.phyCurrentChannel ≠ attr.phyCurrentChannel then
          s.setChannel attr.phyCurrentChannel
        else .ok s
      .ok (status, s)
  | .phyChannelsSupported =>
    if attr.phyChannelsSupported[0] &&& 0xf8000000 ≠ 0 then .ok (.invalidParameter, s)
    else .ok (.success, { s with phyChannelsSupported := attr.phyChannelsSupported[0] })
  | .phyTransmitPower =>
    if attr.phyTransmitPower &&& 0xC0 ≠ 0 then .ok (.invalidParameter, s)
    else do
      let s ← { s with phyTransmitPower := attr.phyTransmitPower }.renewTxPsd
      .ok (.success, s)
  | .phyCCAMode =>
    if attr.phyCCAMode < 1 ∨ attr.phyCCAMode > 3 then .ok (.invalidParameter, s)
    else .ok (.success, { s with phyCCAMode := attr.phyCCAMode })
  | _ => .ok (.unsupportedAttribute, s)

/-- The confirm of a request. -/
def confirm (status : SetAttributeStatus) (s : TunedPhy) : TunedPhy :=
  { s with toLrWpanPhy := s.toLrWpanPhy.emit (.plmeSetAttributeConfirm status) }

/-- `PlmeSetAttributeRequest`. -/
def plmeSetAttributeRequest (id : LrWpanPibAttributeIdentifier)
    (attr : LrWpanPhyPibAttributes) (s : TunedPhy) : Except PhyFault TunedPhy := do
  let (status, s) ← s.setAttribute id attr
  .ok (s.confirm status)

/-! ## The transceiver -/

/-- The request as the model of the transceiver takes it. -/
def attributeOf (id : LrWpanPibAttributeIdentifier) (attr : LrWpanPhyPibAttributes) : Attribute :=
  match id with
  | .phyCurrentPage => .phyCurrentPage attr.phyCurrentPage
  | .phyCurrentChannel => .phyCurrentChannel attr.phyCurrentChannel
  | .phyChannelsSupported => .phyChannelsSupported attr.phyChannelsSupported[0]
  | .phyTransmitPower => .phyTransmitPower attr.phyTransmitPower
  | .phyCCAMode => .phyCCAMode attr.phyCCAMode
  | _ => .unsupported

theorem setChannel_toLrWpanPhy (channel : BitVec 8) (s : TunedPhy) :
    (s.setChannel channel).map toLrWpanPhy = s.toLrWpanPhy.switchChannel channel := by
  unfold setChannel renewSpectrum renewTxPsd switchChannel
  by_cases h : InBand channel
  · rw [if_pos (by exact h), if_pos (by exact h)]
    rfl
  · rw [if_neg (by exact h), if_neg (by exact h)]
    rfl

/-- **On the page and in the band of 2.4 GHz** the attributes do to the transceiver what its own
model says. -/
theorem plmeSetAttributeRequest_toLrWpanPhy (id : LrWpanPibAttributeIdentifier)
    (attr : LrWpanPhyPibAttributes) {s : TunedPhy} (hpage : s.phyCurrentPage = 0)
    (hband : InBand s.phyCurrentChannel) :
    (s.plmeSetAttributeRequest id attr).map toLrWpanPhy =
      s.toLrWpanPhy.plmeSetAttributeRequest (attributeOf id attr) := by
  have hsupports (channel : BitVec 8) : s.supports channel = s.channelSupported channel := by
    unfold supports channelsOf
    rw [hpage]
    rfl
  unfold plmeSetAttributeRequest LrWpanPhy.plmeSetAttributeRequest setAttribute attributeOf
  cases id with
  | phyCurrentPage =>
    dsimp only
    unfold pageSupported
    rw [if_neg (not_not.mpr hpage)]
    by_cases hset : s.phyChannelsSupported >>> 27 &&& 0x1F = 0
    · rw [hset]
      split <;> rfl
    · rw [beq_false_of_ne hset, if_neg hset]
      split <;> rfl
  | phyCurrentChannel =>
    dsimp only
    rw [hsupports]
    split
    · rfl
    · split
      · rw [← setChannel_toLrWpanPhy]
        cases s.setChannel attr.phyCurrentChannel <;> rfl
      · rfl
  | phyChannelsSupported =>
    dsimp only
    split <;> rfl
  | phyTransmitPower =>
    dsimp only
    unfold renewTxPsd
    rw [if_pos hband]
    split <;> rfl
  | phyCCAMode =>
    dsimp only
    split <;> rfl
  | _ => rfl

/-! ## What a change of the channel or the page keeps -/

@[simp] theorem breakOff_keeps (s : LrWpanPhy) :
    s.breakOff.phyCurrentChannel = s.phyCurrentChannel
      ∧ s.breakOff.phyChannelsSupported = s.phyChannelsSupported := by
  unfold breakOff
  dsimp only
  -- none of the three parts touches the two attributes
  split <;> split <;> split <;> exact ⟨rfl, rfl⟩

/-- What the PHY supports on the current page is not changed by another channel. -/
theorem supports_congr {s t : TunedPhy} (hpage : t.phyCurrentPage = s.phyCurrentPage)
    (hchannels : t.phyChannelsSupported = s.phyChannelsSupported)
    (hfurther : t.furtherChannelsSupported = s.furtherChannelsSupported) (channel : BitVec 8) :
    t.supports channel = s.supports channel := by
  unfold supports channelsOf
  rw [hpage, hchannels, hfurther]

/-- A channel in the band is set, whatever the check says. -/
theorem exists_setChannel {channel : BitVec 8} (h : InBand channel) (s : TunedPhy) :
    ∃ t, s.setChannel channel = .ok t ∧ t.phyCurrentChannel = channel
      ∧ ∀ c, t.supports c = s.supports c := by
  let t : TunedPhy := { s with
    toLrWpanPhy :=
      { s.breakOff with phyCurrentChannel := channel }.emit (.phyCurrentChannel channel)
    txPsd := ⟨nominalTxPower s.phyTransmitPower, channel⟩
    noise := channel
    signal := [] }
  refine ⟨t, ?_, rfl, fun c => ?_⟩
  · unfold setChannel renewSpectrum renewTxPsd
    rw [if_pos (by exact h), ok_bind]
    rfl
  · exact supports_congr (s := s) (t := t) rfl (breakOff_keeps s.toLrWpanPhy).2 rfl c

theorem setChannel_outOfBand {channel : BitVec 8} (h : ¬ InBand channel) (s : TunedPhy) :
    s.setChannel channel = .error .assertFailed := by
  unfold setChannel renewSpectrum renewTxPsd
  rw [if_neg (by exact h)]
  rfl

theorem toNat_lt_of_inBand {channel : BitVec 8} (h : InBand channel) : channel.toNat < 32 := by
  have hle : channel.toNat ≤ 26 := BitVec.le_def.mp h.2
  omega

/-! ## Writes that change nothing or succeed -/

/-- The last thing the PHY issued is a confirm with this status. -/
def Reports (status : SetAttributeStatus) (s : TunedPhy) : Prop :=
  s.trace.getLast? = some (s.now, .plmeSetAttributeConfirm status)

/-- **A clean write.**  When a request is refused, the confirm is all that it does; when it
succeeds for the channel, the channel is a supported one. -/
structure CleanWrite (id : LrWpanPibAttributeIdentifier) (attr : LrWpanPhyPibAttributes)
    (s : TunedPhy) : Prop where
  refused : ∀ t status, s.plmeSetAttributeRequest id attr = .ok t → Reports status t →
    status ≠ .success → t = s.confirm status
  channel : ∀ t, s.plmeSetAttributeRequest id attr = .ok t → Reports .success t →
    id = .phyCurrentChannel → t.supports t.phyCurrentChannel = true

/-- The check of the channel fails, and the update does not. -/
def SlipsThrough (channel : BitVec 8) (s : TunedPhy) : Prop :=
  s.supports channel = false ∧ s.phyCurrentChannel ≠ channel ∧ InBand channel

theorem reports_confirm {status status' : SetAttributeStatus} {s : TunedPhy} :
    Reports status (s.confirm status') ↔ status = status' := by
  unfold Reports confirm emit
  dsimp only
  rw [List.getLast?_append, List.getLast?_singleton]
  simp [eq_comm]

/-- A request that returns has set the attribute and issued the confirm. -/
theorem plmeSetAttributeRequest_ok {id : LrWpanPibAttributeIdentifier}
    {attr : LrWpanPhyPibAttributes} {s t : TunedPhy} :
    s.plmeSetAttributeRequest id attr = .ok t
      ↔ ∃ status u, s.setAttribute id attr = .ok (status, u) ∧ t = u.confirm status := by
  unfold plmeSetAttributeRequest
  cases s.setAttribute id attr with
  | error fault =>
    constructor
    · intro ht
      cases ht
    · rintro ⟨status, u, hu, -⟩
      cases hu
  | ok r =>
    obtain ⟨status, u⟩ := r
    constructor
    · intro ht
      exact ⟨status, u, rfl, (Except.ok.inj ht).symm⟩
    · rintro ⟨status', u', hu, rfl⟩
      cases hu
      rfl

/-- Setting an attribute up to the confirm, unless a channel slips through. -/
theorem post_setAttribute (id : LrWpanPibAttributeIdentifier) (attr : LrWpanPhyPibAttributes)
    (s : TunedPhy) (h : ¬ (id = .phyCurrentChannel ∧ SlipsThrough attr.phyCurrentChannel s)) :
    Post (s.setAttribute id attr) fun r => (r.1 ≠ .success → r.2 = s)
      ∧ (r.1 = .success → id = .phyCurrentChannel →
        r.2.supports r.2.phyCurrentChannel = true) := by
  have hrefused (status : SetAttributeStatus) (hstatus : status ≠ .success) :
      (status ≠ .success → s = s) ∧ (status = .success → id = .phyCurrentChannel →
        s.supports s.phyCurrentChannel = true) :=
    ⟨fun _ => rfl, fun hother => absurd hother hstatus⟩
  unfold setAttribute
  cases id with
  | phyCurrentPage =>
    dsimp only
    split
    · trivial
    split
    · exact hrefused .invalidParameter nofun
    split
    · refine post_bind fun t _ => ?_
      exact ⟨fun hother => absurd rfl hother, nofun⟩
    · exact ⟨fun _ => rfl, nofun⟩
  | phyCurrentChannel =>
    dsimp only
    split
    · trivial
    by_cases hsame : s.phyCurrentChannel = attr.phyCurrentChannel
    · -- the channel stays, whether supported or not
      rw [if_neg (by simpa using hsame), ok_bind]
      refine ⟨fun _ => rfl, fun hsuccess _ => ?_⟩
      rw [hsame]
      by_contra hunsupported
      rw [if_neg hunsupported] at hsuccess
      cases hsuccess
    · rw [if_pos hsame]
      by_cases hband : InBand attr.phyCurrentChannel
      · have hsupports : s.supports attr.phyCurrentChannel = true := by
          by_contra hunsupported
          exact h ⟨rfl, Bool.eq_false_iff.mpr hunsupported, hsame, hband⟩
        obtain ⟨t, ht, hchannel, hkeeps⟩ := exists_setChannel hband s
        rw [ht, ok_bind, if_pos hsupports]
        refine ⟨fun hother => absurd rfl hother, fun _ _ => ?_⟩
        show t.supports t.phyCurrentChannel = true
        rw [hchannel, hkeeps, hsupports]
      · rw [setChannel_outOfBand hband]
        trivial
  | phyChannelsSupported =>
    dsimp only
    split
    · exact hrefused .invalidParameter nofun
    · exact ⟨fun hother => absurd rfl hother, nofun⟩
  | phyTransmitPower =>
    dsimp only
    split
    · exact hrefused .invalidParameter nofun
    · refine post_bind fun t _ => ?_
      exact ⟨fun hother => absurd rfl hother, nofun⟩
  | phyCCAMode =>
    dsimp only
    split
    · exact hrefused .invalidParameter nofun
    · exact ⟨fun hother => absurd rfl hother, nofun⟩
  | _ => exact hrefused .unsupportedAttribute nofun

/-- **Refused writes.**  A write is clean unless it is for an unsupported channel of the band that
is not the current one: that one is refused and set. -/
theorem cleanWrite_iff (id : LrWpanPibAttributeIdentifier) (attr : LrWpanPhyPibAttributes)
    (s : TunedPhy) : CleanWrite id attr s
      ↔ ¬ (id = .phyCurrentChannel ∧ SlipsThrough attr.phyCurrentChannel s) := by
  constructor
  · rintro hclean ⟨rfl, hunsupported, hother, hband⟩
    -- the request returns, with the channel set and the confirm of a refusal
    obtain ⟨t, hset, hchannel, -⟩ := exists_setChannel hband s
    have ht : s.setAttribute .phyCurrentChannel attr = .ok (.invalidParameter, t) := by
      unfold setAttribute
      dsimp only
      rw [if_neg (Nat.not_le_of_lt (toNat_lt_of_inBand hband)), if_pos hother, hset, ok_bind,
          hunsupported]
      rfl
    have hsame := hclean.refused (t.confirm .invalidParameter) .invalidParameter
      (plmeSetAttributeRequest_ok.mpr ⟨_, _, ht, rfl⟩) (reports_confirm.mpr rfl) (by decide)
    have hcurrent := congrArg (fun u : TunedPhy => u.phyCurrentChannel) hsame
    exact hother (hcurrent.symm.trans hchannel)
  · intro h
    have hspec := post_setAttribute id attr s h
    constructor
    · intro t status ht hreports hrefused
      obtain ⟨status', u, hu, rfl⟩ := plmeSetAttributeRequest_ok.mp ht
      obtain rfl := reports_confirm.mp hreports
      exact congrArg (confirm status) ((hspec.of_eq_ok hu).1 hrefused)
    · intro t ht hreports hid
      obtain ⟨status', u, hu, rfl⟩ := plmeSetAttributeRequest_ok.mp ht
      obtain rfl := reports_confirm.mp hreports
      exact (hspec.of_eq_ok hu).2 rfl hid

/-- A PHY that supports channel 11 alone is asked for channel 12. -/
theorem not_cleanWrite : ¬ ∀ (id : LrWpanPibAttributeIdentifier) (attr : LrWpanPhyPibAttributes)
    (s : TunedPhy), CleanWrite id attr s := by
  intro hall
  have hslips : SlipsThrough 12 { ({} : TunedPhy) with phyChannelsSupported := 0x800 } := by
    refine ⟨by decide, by decide, by decide⟩
  exact (cleanWrite_iff .phyCurrentChannel { phyCurrentChannel := 12 } _).mp (hall _ _ _) ⟨rfl, hslips⟩

end TunedPhy

end Ns3Dsme
