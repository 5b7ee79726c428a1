/-
# The timeouts of the reassembly

A packet of which fragments are missing is in a map, and its timeout in a list.  It leaves both when
it is entire, when its time is over, or when there is no more room for it; its record has the
iterator of its timeout, so that the entry can be erased.
-/
import Ns3Dsme.Lib.Deadlines
import Ns3Dsme.SixLowPan.Fragmentation

open AList List Deadlines Program

namespace Ns3Dsme.SixLowPan

/-- An entry of `m_timeoutEventList`.  `iter` is the entry that an iterator refers to. -/
structure TimeoutEntry where
  time : ℕ
  key : FragmentKey
  iter : ℕ
  deriving DecidableEq

/-- The fragments of one packet, with the iterator of its timeout. -/
structure WaitingFragments where
  fragments : Fragments
  timeoutIter : ℕ
  deriving DecidableEq

/-- What stops the device: a packet that cannot be read or put together, or an access to a timeout
or a packet that is not there. -/
inductive ReassemblyFault
  | packet (fault : PacketFault)
  | noTimeout
  | noDatagram
  | staleIterator
  | negativeDelay
  deriving DecidableEq

/-- The attributes: how many packets are put together at a time, where zero is no limit, and how
long they wait. -/
structure ReassemblyAttributes where
  fragmentReassemblyListSize : ℕ
  fragmentExpirationTimeout : ℕ

/-- The packets of which fragments are missing, their timeouts, and the pending events of
`HandleTimeout`. -/
structure ReassemblingDevice where
  now : ℕ := 0
  fragments : AList fun _ : FragmentKey => WaitingFragments := ∅
  timeoutEventList : List TimeoutEntry := []
  timeoutEvents : List ℕ := []
  nextIter : ℕ := 0

namespace ReassemblingDevice

/-- What can stop the work on a packet. -/
def ofPacket {α : Type} (x : Except PacketFault α) : Except ReassemblyFault α :=
  x.mapError ReassemblyFault.packet

/-- `Simulator::Schedule` for `HandleTimeout`, with its assertion. -/
def schedule (s : ReassemblingDevice) (delay : ℤ) : Except ReassemblyFault ReassemblingDevice :=
  if delay < 0 then .error .negativeDelay
  else .ok { s with timeoutEvents := s.timeoutEvents ++ [s.now + delay.toNat] }

/-- `m_timeoutEventList.erase`. -/
def eraseTimeout (s : ReassemblingDevice) (iter : ℕ) : Except ReassemblyFault ReassemblingDevice :=
  if s.timeoutEventList.any fun e => e.iter == iter then
    .ok { s with timeoutEventList := s.timeoutEventList.eraseP fun e => e.iter == iter }
  else .error .staleIterator

/-- Where the list is full, the oldest packet is erased. -/
def eraseOldest (a : ReassemblyAttributes) (s : ReassemblingDevice) :
    Except ReassemblyFault ReassemblingDevice :=
  if a.fragmentReassemblyListSize ≠ 0 ∧ a.fragmentReassemblyListSize ≤ s.fragments.keys.length then
    match s.timeoutEventList with
    | [] => .error .noTimeout
    | oldest :: _ =>
      match s.fragments.lookup oldest.key with
      | none => .error .noDatagram
      | some w => do
        let s ← s.eraseTimeout w.timeoutIter
        return { s with fragments := s.fragments.erase oldest.key }
  else .ok s

/-- `SetTimeout`, with the iterator that it returns. -/
def setTimeout (a : ReassemblyAttributes) (s : ReassemblingDevice) (key : FragmentKey) :
    Except ReassemblyFault (ℕ × ReassemblingDevice) := do
  let s ← if s.timeoutEventList.isEmpty then s.schedule a.fragmentExpirationTimeout else .ok s
  return (s.nextIter, { s with
    timeoutEventList := s.timeoutEventList ++
      [⟨s.now + a.fragmentExpirationTimeout, key, s.nextIter⟩]
    nextIter := s.nextIter + 1 })

/-- The entry of a key, which is made if there is none. -/
def findFragments (a : ReassemblyAttributes) (s : ReassemblingDevice) (key : FragmentKey) :
    Except ReassemblyFault (WaitingFragments × ReassemblingDevice) :=
  match s.fragments.lookup key with
  | some w => .ok (w, s)
  | none => do
    let s ← s.eraseOldest a
    let (iter, s) ← s.setTimeout a key
    let w : WaitingFragments := ⟨{ packetSize := key.2.1.toNat }, iter⟩
    return (w, { s with fragments := s.fragments.insert key w })

/-- Hand up the packet if it is entire, without the header of its first fragment. -/
def finish (s : ReassemblingDevice) (key : FragmentKey) (w : WaitingFragments) :
    Except ReassemblyFault (Option (List Octet) × ReassemblingDevice) :=
  if w.fragments.isEntire then do
    let packet ← ofPacket w.fragments.getPacket
    let r ← ofPacket (SixLowPanFrag1.deserialize packet)
    let s ← s.eraseTimeout w.timeoutIter
    return (some r.2, { s with fragments := s.fragments.erase key })
  else .ok (none, { s with fragments := s.fragments.insert key w })

/-- `ProcessFragment`: the packet, if it returns true. -/
def processFragment (a : ReassemblyAttributes) (s : ReassemblingDevice) (packet : List Octet)
    (src dst : MacAddress) (isFirst : Bool) :
    Except ReassemblyFault (Option (List Octet) × ReassemblingDevice) := do
  let r ← ofPacket (Reassembler.readFragment packet src dst isFirst)
  let (w, s) ← s.findFragments a r.1
  let fragments ← ofPacket (w.fragments.addFragment r.2.2 r.2.1)
  s.finish r.1 { w with
    fragments := if isFirst then fragments.addFirstFragment packet else fragments }

/-- `HandleFragmentsTimeout`. -/
def handleFragmentsTimeout (s : ReassemblingDevice) (key : FragmentKey) :
    Except ReassemblyFault ReassemblingDevice :=
  match s.fragments.lookup key with
  | none => .error .noDatagram
  | some _ => .ok { s with fragments := s.fragments.erase key }

/-- The loop of `HandleTimeout`. -/
def expire : List TimeoutEntry → ReassemblingDevice → Except ReassemblyFault ReassemblingDevice
  | [], s => .ok s
  | e :: rest, s =>
    if e.time = s.now then do
      let s ← s.handleFragmentsTimeout e.key
      expire rest { s with timeoutEventList := rest }
    else .ok s

/-- The end of `HandleTimeout`. -/
def scheduleNext (s : ReassemblingDevice) : Except ReassemblyFault ReassemblingDevice :=
  match s.timeoutEventList with
  | [] => .ok s
  | e :: _ => s.schedule ((e.time : ℤ) - s.now)

/-- `HandleTimeout`. -/
def handleTimeout (s : ReassemblingDevice) : Except ReassemblyFault ReassemblingDevice := do
  let s ← expire s.timeoutEventList s
  s.scheduleNext

/-! ## Runs -/

/-- What happens: time passes, a fragment comes in, or an event of `HandleTimeout` runs. -/
inductive Input
  | tick (time : ℕ)
  | receive (packet : List Octet) (src dst : MacAddress) (isFirst : Bool)
  | timeout

/-- No event is passed over, and one runs at its time. -/
def enabled (s : ReassemblingDevice) : Input → Prop
  | .tick time => s.now ≤ time ∧ ∀ event ∈ s.timeoutEvents, time ≤ event
  | .receive .. => True
  | .timeout => s.now ∈ s.timeoutEvents

instance (s : ReassemblingDevice) (i : Input) : Decidable (s.enabled i) := by
  cases i <;> dsimp only [enabled] <;> infer_instance

def step (a : ReassemblyAttributes) (s : ReassemblingDevice) :
    Input → Except ReassemblyFault ReassemblingDevice
  | .tick time => .ok { s with now := time }
  | .receive packet src dst isFirst => (s.processFragment a packet src dst isFirst).map Prod.snd
  | .timeout => handleTimeout { s with timeoutEvents := s.timeoutEvents.erase s.now }

def machine (a : ReassemblyAttributes) : Machine ReassemblingDevice Input ReassemblyFault :=
  ⟨enabled, step a⟩

instance (a : ReassemblyAttributes) (s : ReassemblingDevice) (i : Input) :
    Decidable ((machine a).enabled s i) :=
  inferInstanceAs (Decidable (s.enabled i))

/-- **The map and the list belong together**: every packet that waits has one timeout, every timeout
is that of a packet that waits, whose record refers to it, and the packets are no more than may
be. -/
structure Bookkeeping (a : ReassemblyAttributes) (s : ReassemblingDevice) : Prop where
  once : ∀ key ∈ s.fragments, (s.timeoutEventList.map (·.key)).count key = 1
  refers : ∀ e ∈ s.timeoutEventList, ∃ w, s.fragments.lookup e.key = some w ∧
    w.timeoutIter = e.iter
  bound : a.fragmentReassemblyListSize ≠ 0 →
    s.fragments.keys.length ≤ a.fragmentReassemblyListSize

/-- How the map and the list belong together, as every step keeps it. -/
structure Inv (a : ReassemblyAttributes) (s : ReassemblingDevice) : Prop where
  listed : ∀ e ∈ s.timeoutEventList, ∃ w, s.fragments.lookup e.key = some w ∧
    w.timeoutIter = e.iter
  waits : ∀ key w, s.fragments.lookup key = some w → ∃ e ∈ s.timeoutEventList, e.key = key
  keys : (s.timeoutEventList.map (·.key)).Nodup
  iters : (s.timeoutEventList.map (·.iter)).Nodup
  fresh : ∀ e ∈ s.timeoutEventList, e.iter < s.nextIter
  bound : a.fragmentReassemblyListSize ≠ 0 →
    s.fragments.keys.length ≤ a.fragmentReassemblyListSize
  last : ∀ e ∈ s.timeoutEventList, e.time ≤ s.now + a.fragmentExpirationTimeout

/-- The timeouts are in order, and an event runs before each of them. -/
abbrev Timely (s : ReassemblingDevice) : Prop :=
  Watched s.now (s.timeoutEventList.map (·.time)) s.timeoutEvents

variable {a : ReassemblyAttributes} {s : ReassemblingDevice}

theorem Inv.bookkeeping (h : Inv a s) : Bookkeeping a s where
  once := by
    intro key hkey
    obtain ⟨w, hw⟩ := Option.isSome_iff_exists.mp (lookup_isSome.mpr hkey)
    obtain ⟨e, he, rfl⟩ := h.waits key w hw
    exact count_eq_one_of_mem h.keys (mem_map_of_mem he)
  refers := h.listed
  bound := h.bound

/-! ## The size of a map -/

section

variable {α : Type*} {β : α → Type*} [DecidableEq α] {m : AList β} {k : α}

theorem length_keys_erase_le (m : AList β) (k : α) : (m.erase k).keys.length ≤ m.keys.length := by
  rw [keys_erase]
  exact length_erase_le

theorem length_keys_erase (h : k ∈ m) : (m.erase k).keys.length < m.keys.length := by
  have hpos := length_pos_of_mem (mem_keys.mp h)
  rw [keys_erase, length_erase_of_mem (mem_keys.mp h)]
  omega

theorem length_keys_insert_of_mem (h : k ∈ m) (b : β k) :
    (m.insert k b).keys.length = m.keys.length := by
  have hpos := length_pos_of_mem (mem_keys.mp h)
  rw [keys_insert, length_cons, length_erase_of_mem (mem_keys.mp h)]
  omega

theorem length_keys_insert_of_not_mem (h : k ∉ m) (b : β k) :
    (m.insert k b).keys.length = m.keys.length + 1 := by
  have hkeys : k ∉ m.keys := fun hin => h (mem_keys.mpr hin)
  rw [keys_insert, length_cons, erase_of_not_mem hkeys]

end

/-! ## A packet leaves -/

/-- The entry that an iterator refers to is erased, and no other. -/
theorem Inv.eraseTimeout_eq (h : Inv a s) {before behind : List TimeoutEntry} {e : TimeoutEntry}
    (hlist : s.timeoutEventList = before ++ e :: behind) :
    s.eraseTimeout e.iter = .ok { s with timeoutEventList := before ++ behind } := by
  have hiters := h.iters
  rw [hlist, map_append, map_cons, nodup_middle] at hiters
  have hnot : e.iter ∉ before.map (·.iter) := fun hin =>
    (nodup_cons.mp hiters).1 (mem_append_left _ hin)
  have hbefore : ∀ x ∈ before, ¬(x.iter == e.iter) = true := by
    intro x hx heq
    exact hnot (beq_iff_eq.mp heq ▸ mem_map_of_mem hx)
  unfold eraseTimeout
  have herase : (e :: behind).eraseP (fun x => x.iter == e.iter) = behind :=
    eraseP_cons_of_pos (beq_self_eq_true e.iter)
  rw [hlist, if_pos (by simp), eraseP_append_right _ hbefore, herase]

/-- **A packet is taken out** of the map and the list. -/
theorem Inv.remove (h : Inv a s) {before behind : List TimeoutEntry} {e : TimeoutEntry}
    (hlist : s.timeoutEventList = before ++ e :: behind) :
    Inv a { s with
      timeoutEventList := before ++ behind
      fragments := s.fragments.erase e.key } := by
  have hsub : (before ++ behind).Sublist s.timeoutEventList := by
    rw [hlist]
    exact List.Sublist.append (List.Sublist.refl _) (sublist_cons_self _ _)
  have hkeys := h.keys
  rw [hlist, map_append, map_cons, nodup_middle, ← map_append] at hkeys
  obtain ⟨hnot, -⟩ := nodup_cons.mp hkeys
  have hother : ∀ e' ∈ before ++ behind, e'.key ≠ e.key := fun e' he' heq =>
    hnot (heq ▸ mem_map_of_mem he')
  constructor
  · intro e' he'
    obtain ⟨w, hw⟩ := h.listed e' (hsub.subset he')
    refine ⟨w, ?_⟩
    rw [lookup_erase_ne (hother e' he')]
    exact hw
  · intro key w hw
    replace hw : (s.fragments.erase e.key).lookup key = some w := hw
    by_cases heq : key = e.key
    · rw [heq, lookup_erase] at hw
      cases hw
    · rw [lookup_erase_ne heq] at hw
      obtain ⟨e', he', hkey⟩ := h.waits key w hw
      refine ⟨e', ?_, hkey⟩
      rw [hlist, mem_append, mem_cons] at he'
      rcases he' with hin | rfl | hin
      · exact mem_append_left _ hin
      · exact absurd hkey.symm heq
      · exact mem_append_right _ hin
  · exact h.keys.sublist (hsub.map _)
  · exact h.iters.sublist (hsub.map _)
  · exact fun e' he' => h.fresh e' (hsub.subset he')
  · intro hsize
    exact (length_keys_erase_le s.fragments e.key).trans (h.bound hsize)
  · exact fun e' he' => h.last e' (hsub.subset he')

/-- A packet that is in the map can be taken out with its iterator. -/
theorem Inv.exists_remove (h : Inv a s) (htime : s.Timely) {key : FragmentKey}
    {w : WaitingFragments} (hkey : s.fragments.lookup key = some w) :
    ∃ s', s.eraseTimeout w.timeoutIter = .ok s' ∧ s'.fragments = s.fragments ∧
      Inv a { s' with fragments := s.fragments.erase key } ∧ s'.Timely := by
  obtain ⟨e, he, rfl⟩ := h.waits key w hkey
  obtain ⟨w', hw', hiter⟩ := h.listed e he
  rw [hkey] at hw'
  cases hw'
  obtain ⟨before, behind, hlist⟩ := append_of_mem he
  have hsub : (before ++ behind).Sublist s.timeoutEventList := by
    rw [hlist]
    exact List.Sublist.append (List.Sublist.refl _) (sublist_cons_self _ _)
  rw [hiter]
  exact ⟨_, h.eraseTimeout_eq hlist, rfl, h.remove hlist, htime.sublist (hsub.map _)⟩

/-- Room is made for one packet more. -/
theorem Inv.eraseOldest (h : Inv a s) (htime : s.Timely) :
    ∃ s', s.eraseOldest a = .ok s' ∧ Inv a s' ∧ s'.Timely ∧
      (a.fragmentReassemblyListSize ≠ 0 →
        s'.fragments.keys.length < a.fragmentReassemblyListSize) ∧
      ∀ key, s.fragments.lookup key = none → s'.fragments.lookup key = none := by
  unfold ReassemblingDevice.eraseOldest
  by_cases hfull : a.fragmentReassemblyListSize ≠ 0 ∧
      a.fragmentReassemblyListSize ≤ s.fragments.keys.length
  · rw [if_pos hfull]
    cases hlist : s.timeoutEventList with
    | nil =>
      -- the list is as long as the map
      exfalso
      cases hkeys : s.fragments.keys with
      | nil =>
        rw [hkeys, length_nil] at hfull
        exact hfull.1 (Nat.le_zero.mp hfull.2)
      | cons key rest =>
        have hmem : key ∈ s.fragments := mem_keys.mpr (hkeys ▸ mem_cons_self)
        obtain ⟨w, hw⟩ := Option.isSome_iff_exists.mp (lookup_isSome.mpr hmem)
        obtain ⟨e, he, -⟩ := h.waits key w hw
        rw [hlist] at he
        cases he
    | cons oldest rest =>
      obtain ⟨w, hw, -⟩ := h.listed oldest (hlist ▸ mem_cons_self)
      obtain ⟨s', herase, hfragments, hinv, htimely⟩ := h.exists_remove htime hw
      dsimp only
      rw [hw]
      dsimp only
      rw [herase]
      refine ⟨_, rfl, hfragments ▸ hinv, htimely, ?_, ?_⟩
      · intro hsize
        show (s'.fragments.erase oldest.key).keys.length < _
        have hmem : oldest.key ∈ s.fragments := lookup_isSome.mp (hw ▸ rfl)
        rw [hfragments]
        exact (length_keys_erase hmem).trans_le (h.bound hsize)
      · intro key hkey
        show (s'.fragments.erase oldest.key).lookup key = none
        rw [hfragments]
        by_cases heq : key = oldest.key
        · rw [heq, lookup_erase]
        · rw [lookup_erase_ne heq]
          exact hkey
  · rw [if_neg hfull]
    refine ⟨s, rfl, h, htime, ?_, fun _ hkey => hkey⟩
    intro hsize
    exact Nat.lt_of_not_le fun hle => hfull ⟨hsize, hle⟩

/-! ## A packet comes -/

theorem setTimeout_eq (a : ReassemblyAttributes) (s : ReassemblingDevice) (key : FragmentKey) :
    s.setTimeout a key = .ok (s.nextIter, { s with
      timeoutEventList := s.timeoutEventList ++
        [⟨s.now + a.fragmentExpirationTimeout, key, s.nextIter⟩]
      timeoutEvents :=
        if s.timeoutEventList.isEmpty then s.timeoutEvents ++ [s.now + a.fragmentExpirationTimeout]
        else s.timeoutEvents
      nextIter := s.nextIter + 1 }) := by
  have hschedule : s.schedule a.fragmentExpirationTimeout = .ok { s with
      timeoutEvents := s.timeoutEvents ++ [s.now + a.fragmentExpirationTimeout] } := by
    unfold schedule
    rw [if_neg (by omega), Int.toNat_natCast]
  unfold setTimeout
  split
  · rw [hschedule]
    rfl
  · rfl

/-- **A packet is put in**, with its timeout at the end of the list. -/
theorem Inv.insert (h : Inv a s) {key : FragmentKey} (hnew : s.fragments.lookup key = none)
    (hroom : a.fragmentReassemblyListSize ≠ 0 →
      s.fragments.keys.length < a.fragmentReassemblyListSize) (f : Fragments) (events : List ℕ) :
    Inv a { s with
      timeoutEventList := s.timeoutEventList ++
        [⟨s.now + a.fragmentExpirationTimeout, key, s.nextIter⟩]
      timeoutEvents := events
      nextIter := s.nextIter + 1
      fragments := s.fragments.insert key ⟨f, s.nextIter⟩ } := by
  have hother : ∀ e ∈ s.timeoutEventList, e.key ≠ key := by
    intro e he heq
    obtain ⟨w, hw, -⟩ := h.listed e he
    rw [heq, hnew] at hw
    cases hw
  have hnot : key ∉ s.fragments := lookup_eq_none.mp hnew
  constructor
  · intro e he
    show ∃ w, (s.fragments.insert key _).lookup e.key = some w ∧ _
    rcases mem_append.mp he with hold | hin
    · rw [lookup_insert_ne (hother e hold)]
      exact h.listed e hold
    · rw [mem_singleton.mp hin, lookup_insert]
      exact ⟨_, rfl, rfl⟩
  · intro key' w hw
    replace hw : (s.fragments.insert key _).lookup key' = some w := hw
    by_cases heq : key' = key
    · exact ⟨_, mem_append_right _ mem_cons_self, heq.symm⟩
    · rw [lookup_insert_ne heq] at hw
      obtain ⟨e, he, hkey⟩ := h.waits key' w hw
      exact ⟨e, mem_append_left _ he, hkey⟩
  · rw [map_append, nodup_append]
    refine ⟨h.keys, nodup_singleton _, ?_⟩
    intro k hk k' hk'
    obtain ⟨e, he, rfl⟩ := mem_map.mp hk
    rw [mem_singleton.mp hk']
    exact hother e he
  · rw [map_append, nodup_append]
    refine ⟨h.iters, nodup_singleton _, ?_⟩
    intro k hk k' hk'
    obtain ⟨e, he, rfl⟩ := mem_map.mp hk
    rw [mem_singleton.mp hk']
    exact Nat.ne_of_lt (h.fresh e he)
  · intro e he
    rcases mem_append.mp he with hold | hin
    · exact Nat.lt_succ_of_lt (h.fresh e hold)
    · rw [mem_singleton.mp hin]
      exact Nat.lt_succ_self _
  · intro hsize
    show (s.fragments.insert key _).keys.length ≤ _
    rw [length_keys_insert_of_not_mem hnot]
    exact hroom hsize
  · intro e he
    rcases mem_append.mp he with hold | hin
    · exact h.last e hold
    · rw [mem_singleton.mp hin]

/-- The record of a packet changes, but for its iterator. -/
theorem Inv.put (h : Inv a s) {key : FragmentKey} {w : WaitingFragments}
    (hkey : s.fragments.lookup key = some w) (f : Fragments) :
    Inv a { s with fragments := s.fragments.insert key { w with fragments := f } } := by
  have hmem : key ∈ s.fragments := lookup_isSome.mp (hkey ▸ rfl)
  refine { h with listed := ?_, waits := ?_, bound := ?_ }
  · intro e he
    obtain ⟨w', hw', hiter⟩ := h.listed e he
    show ∃ w, (s.fragments.insert key _).lookup e.key = some w ∧ _
    by_cases heq : e.key = key
    · rw [heq, hkey] at hw'
      cases hw'
      rw [heq, lookup_insert]
      exact ⟨_, rfl, hiter⟩
    · rw [lookup_insert_ne heq]
      exact ⟨w', hw', hiter⟩
  · intro key' w' hw'
    replace hw' : (s.fragments.insert key _).lookup key' = some w' := hw'
    by_cases heq : key' = key
    · rw [heq]
      exact h.waits key w hkey
    · rw [lookup_insert_ne heq] at hw'
      exact h.waits key' w' hw'
  · intro hsize
    show (s.fragments.insert key _).keys.length ≤ _
    rw [length_keys_insert_of_mem hmem]
    exact h.bound hsize

/-- The entry of a key is found or made. -/
theorem Inv.findFragments (h : Inv a s) (htime : s.Timely) (key : FragmentKey) :
    ∃ w s', s.findFragments a key = .ok (w, s') ∧ Inv a s' ∧ s'.Timely ∧
      s'.fragments.lookup key = some w := by
  unfold ReassemblingDevice.findFragments
  cases hkey : s.fragments.lookup key with
  | some w => exact ⟨w, s, rfl, h, htime, hkey⟩
  | none =>
    obtain ⟨s1, herase, h1, htime1, hroom, hnone⟩ := h.eraseOldest htime
    dsimp only
    rw [herase, ok_bind, setTimeout_eq]
    refine ⟨_, _, rfl, h1.insert (hnone key hkey) hroom _ _, ?_, lookup_insert _⟩
    have hlast : ∀ t ∈ s1.timeoutEventList.map (·.time),
        t ≤ s1.now + a.fragmentExpirationTimeout := by
      intro t ht
      obtain ⟨e, he, rfl⟩ := mem_map.mp ht
      exact h1.last e he
    have hconcat := htime1.concat (Nat.le_add_right s1.now a.fragmentExpirationTimeout) hlast
    rw [isEmpty_map] at hconcat
    show Watched s1.now ((s1.timeoutEventList ++ [_]).map fun e : TimeoutEntry => e.time) _
    rw [map_append]
    exact hconcat

/-- A step that does not look for what is not there: it succeeds, or the packet stops it. -/
abbrev Keeps (a : ReassemblyAttributes) (x : Except ReassemblyFault ReassemblingDevice) : Prop :=
  Wp x (fun s' => Inv a s' ∧ s'.Timely) fun fault => ∃ f, fault = .packet f

theorem wp_ofPacket {α : Type} (x : Except PacketFault α) {Q : α → Prop} (hQ : ∀ r, Q r) :
    Wp (ofPacket x) Q fun fault => ∃ f, fault = .packet f := by
  cases x with
  | ok r => exact hQ r
  | error fault => exact ⟨fault, rfl⟩

/-- **A fragment** is put with those of its packet, which leaves if it is entire. -/
theorem Inv.processFragment (h : Inv a s) (htime : s.Timely) (packet : List Octet)
    (src dst : MacAddress) (isFirst : Bool) :
    Keeps a ((s.processFragment a packet src dst isFirst).map Prod.snd) := by
  unfold Keeps ReassemblingDevice.processFragment
  rw [wp_map, wp_bind]
  apply wp_ofPacket
  intro r
  obtain ⟨w, s1, hfind, h1, htime1, hkey⟩ := h.findFragments htime r.1
  rw [hfind, ok_bind]
  dsimp only
  rw [wp_bind]
  apply wp_ofPacket
  intro fragments
  generalize (if isFirst then fragments.addFirstFragment packet else fragments) = f
  unfold finish
  split
  · -- the packet is entire
    rw [wp_bind]
    apply wp_ofPacket
    intro packet'
    rw [wp_bind]
    apply wp_ofPacket
    intro r'
    obtain ⟨s2, herase, hfragments, h2, htime2⟩ := h1.exists_remove htime1 hkey
    rw [herase]
    exact ⟨hfragments ▸ h2, htime2⟩
  · exact ⟨h1.put hkey f, htime1⟩

/-! ## The device without the times -/

section

/-- The model without times has the same packets, in the same order. -/
structure Implements (a : ReassemblyAttributes) (s : ReassemblingDevice) (r : Reassembler) :
    Prop where
  lookup : ∀ key, r.fragments.lookup key = (s.fragments.lookup key).map (·.fragments)
  keys : r.fragments.keys = s.fragments.keys
  timeouts : r.timeoutEventList = s.timeoutEventList.map (·.key)
  listSize : r.fragmentReassemblyListSize = a.fragmentReassemblyListSize

variable {r : Reassembler} {s' : ReassemblingDevice}

theorem Implements.insert (h : Implements a s r) (key : FragmentKey) (w : WaitingFragments) :
    Implements a { s with fragments := s.fragments.insert key w }
      { r with fragments := r.fragments.insert key w.fragments } := by
  refine { h with lookup := fun key' => ?_, keys := ?_ }
  · show (r.fragments.insert key _).lookup key' = ((s.fragments.insert key w).lookup key').map _
    by_cases heq : key' = key
    · rw [heq, lookup_insert, lookup_insert]
      rfl
    · rw [lookup_insert_ne heq, lookup_insert_ne heq]
      exact h.lookup key'
  · show (r.fragments.insert key _).keys = (s.fragments.insert key w).keys
    rw [keys_insert, keys_insert, h.keys]

/-- A packet leaves both. -/
theorem Implements.erase (h : Implements a s r) (hinv : Inv a s) {key : FragmentKey}
    {w : WaitingFragments} (hkey : s.fragments.lookup key = some w)
    (herase : s.eraseTimeout w.timeoutIter = .ok s') :
    Implements a { s' with fragments := s'.fragments.erase key }
      { r with
        timeoutEventList := r.timeoutEventList.erase key
        fragments := r.fragments.erase key } := by
  obtain ⟨e, he, rfl⟩ := hinv.waits key w hkey
  obtain ⟨w', hw', hiter⟩ := hinv.listed e he
  cases hkey.symm.trans hw'
  obtain ⟨before, behind, hlist⟩ := append_of_mem he
  rw [hiter, hinv.eraseTimeout_eq hlist] at herase
  cases herase
  have hnot : e.key ∉ before.map (·.key) := by
    have hkeys := hinv.keys
    rw [hlist, map_append, map_cons, nodup_middle] at hkeys
    exact fun hin => (nodup_cons.mp hkeys).1 (mem_append_left _ hin)
  refine { h with lookup := fun key => ?_, keys := ?_, timeouts := ?_ }
  · show (r.fragments.erase e.key).lookup key = ((s.fragments.erase e.key).lookup key).map _
    by_cases heq : key = e.key
    · rw [heq, lookup_erase, lookup_erase]
      rfl
    · rw [lookup_erase_ne heq, lookup_erase_ne heq]
      exact h.lookup key
  · show (r.fragments.erase e.key).keys = (s.fragments.erase e.key).keys
    rw [keys_erase, keys_erase, h.keys]
  · show r.timeoutEventList.erase e.key = (before ++ behind).map (·.key)
    rw [h.timeouts, hlist, map_append, map_cons, erase_append_right _ hnot, erase_cons_head,
      map_append]

/-- What the model without times leaves, if it gives the same. -/
abbrev Follows (a : ReassemblyAttributes) {α : Type}
    (x : Except ReassemblyFault (α × ReassemblingDevice)) {β : Type} (f : α → β)
    (y : Except PacketFault (β × Reassembler)) : Prop :=
  Post x fun p => ∃ r', y = .ok (f p.1, r') ∧ Implements a p.2 r'

theorem eq_ok_of_ofPacket {α : Type} {x : Except PacketFault α} {y : α}
    (h : ofPacket x = .ok y) : x = .ok y := by
  cases x with
  | error e => cases h
  | ok z => exact congrArg _ (Except.ok.inj h)

theorem Implements.eraseOldest (h : Implements a s r) (hinv : Inv a s) :
    Post (s.eraseOldest a) fun s' => ∃ r', r.eraseOldest = .ok r' ∧ Implements a s' r' := by
  unfold ReassemblingDevice.eraseOldest Reassembler.eraseOldest
  rw [h.listSize, h.keys, h.timeouts]
  split
  · cases hlist : s.timeoutEventList with
    | nil => trivial
    | cons oldest rest =>
      rw [map_cons]
      dsimp only
      rw [h.lookup]
      cases hkey : s.fragments.lookup oldest.key with
      | none => trivial
      | some w =>
        refine post_bind fun s₁ herase => ⟨_, rfl, ?_⟩
        have herased := h.erase hinv hkey herase
        rw [h.timeouts, h.listSize, hlist, map_cons] at herased
        exact herased
  · exact ⟨r, rfl, h⟩

theorem Implements.findFragments (h : Implements a s r) (hinv : Inv a s) (key : FragmentKey) :
    Follows a (s.findFragments a key) (·.fragments) (r.findFragments key) := by
  unfold ReassemblingDevice.findFragments Reassembler.findFragments
  rw [h.lookup]
  cases hkey : s.fragments.lookup key with
  | some found => exact ⟨r, rfl, h⟩
  | none =>
    refine (h.eraseOldest hinv).bind fun s₁ hr => ?_
    obtain ⟨r₁, hr₁, h₁⟩ := hr
    rw [setTimeout_eq]
    refine ⟨_, congrArg (· >>= _) hr₁, ?_⟩
    have hnew := h₁.insert key ⟨{ packetSize := key.2.1.toNat }, s₁.nextIter⟩
    refine { hnew with timeouts := ?_ }
    show r₁.timeoutEventList ++ [key] = (s₁.timeoutEventList ++ [_]).map TimeoutEntry.key
    rw [map_append, h₁.timeouts]
    rfl

theorem Implements.finish (h : Implements a s r) (hinv : Inv a s) {key : FragmentKey}
    {w found : WaitingFragments} (hkey : s.fragments.lookup key = some found)
    (hiter : w.timeoutIter = found.timeoutIter) :
    Follows a (s.finish key w) id (r.finish key w.fragments) := by
  unfold ReassemblingDevice.finish Reassembler.finish
  split
  · refine post_bind fun packet hpacket => post_bind fun read hread => post_bind fun s₁ herase => ?_
    rw [eq_ok_of_ofPacket hpacket, ok_bind, eq_ok_of_ofPacket hread]
    rw [hiter] at herase
    exact ⟨_, rfl, h.erase hinv hkey herase⟩
  · exact ⟨_, rfl, h.insert key w⟩

/-- **The times do not disturb the reassembly**: as long as they go well, `ProcessFragment` does
what it does without them. -/
theorem Implements.processFragment (h : Implements a s r) (hinv : Inv a s) (htime : s.Timely)
    (packet : List Octet) (src dst : MacAddress) (isFirst : Bool) :
    Follows a (s.processFragment a packet src dst isFirst) id
      (r.processFragment packet src dst isFirst) := by
  unfold ReassemblingDevice.processFragment Reassembler.processFragment
  refine post_bind fun read hread => ?_
  rw [eq_ok_of_ofPacket hread, ok_bind]
  obtain ⟨w, s₁, hfind, hinv₁, -, hkey⟩ := hinv.findFragments htime read.1
  obtain ⟨r₁, hr₁, h₁⟩ := (h.findFragments hinv read.1).of_eq_ok hfind
  rw [hfind, hr₁, ok_bind, ok_bind]
  refine post_bind fun fragments hadd => ?_
  rw [eq_ok_of_ofPacket hadd, ok_bind]
  exact h₁.finish hinv₁ hkey rfl

end

/-! ## Time is over -/

/-- **The loop of `HandleTimeout`** finds every packet of which it takes the timeout out. -/
theorem Inv.expire (h : Inv a s) :
    ∃ s', expire s.timeoutEventList s = .ok s' ∧ Inv a s' ∧ s'.now = s.now ∧
      s'.timeoutEvents = s.timeoutEvents ∧
      s'.timeoutEventList.Sublist s.timeoutEventList := by
  obtain ⟨entries, hentries⟩ : ∃ entries, s.timeoutEventList = entries := ⟨_, rfl⟩
  rw [hentries]
  induction entries generalizing s with
  | nil => exact ⟨s, rfl, h, rfl, rfl, hentries ▸ List.Sublist.refl _⟩
  | cons e rest ih =>
    unfold ReassemblingDevice.expire
    by_cases hnow : e.time = s.now
    · obtain ⟨w, hw, -⟩ := h.listed e (hentries ▸ mem_cons_self)
      have hhandle : s.handleFragmentsTimeout e.key =
          .ok { s with fragments := s.fragments.erase e.key } := by
        unfold handleFragmentsTimeout
        rw [hw]
      have hremove := h.remove (hentries.trans (nil_append _).symm)
      obtain ⟨s', hrest, h', hnow', hevents, hsub⟩ := ih hremove rfl
      rw [if_pos hnow, hhandle, ok_bind]
      exact ⟨s', hrest, h', hnow', hevents, hsub.trans (sublist_cons_self _ _)⟩
    · rw [if_neg hnow]
      exact ⟨s, rfl, h, rfl, rfl, hentries ▸ List.Sublist.refl _⟩

/-- **An event of `HandleTimeout`** never fails. -/
theorem Inv.handleTimeout (h : Inv a s) (htime : s.Timely) :
    ∃ s', handleTimeout { s with timeoutEvents := s.timeoutEvents.erase s.now } = .ok s' ∧
      Inv a s' ∧ s'.Timely := by
  have hstart : Inv a { s with timeoutEvents := s.timeoutEvents.erase s.now } := { h with }
  obtain ⟨s1, hexpire, h1, hnow, hevents, hsub⟩ := hstart.expire
  replace hnow : s1.now = s.now := hnow
  replace hevents : s1.timeoutEvents = s.timeoutEvents.erase s.now := hevents
  have hfire := htime.fire (hsub.map (·.time))
  unfold ReassemblingDevice.handleTimeout
  rw [hexpire, ok_bind]
  unfold scheduleNext
  cases hlist : s1.timeoutEventList with
  | nil =>
    refine ⟨s1, rfl, h1, ?_⟩
    unfold Timely
    rw [hlist] at hfire ⊢
    rw [hnow, hevents]
    simpa using hfire
  | cons e rest =>
    rw [hlist] at hfire
    have hdue : s.now ≤ e.time := hfire.due e.time mem_cons_self
    have hschedule : s1.schedule ((e.time : ℤ) - s1.now) =
        .ok { s1 with timeoutEvents := s1.timeoutEvents ++ [e.time] } := by
      unfold schedule
      have hsum : s1.now + ((e.time : ℤ) - s1.now).toNat = e.time := by
        rw [hnow]
        omega
      rw [if_neg (by omega), hsum]
    refine ⟨_, hschedule, { h1 with }, ?_⟩
    show Watched s1.now (s1.timeoutEventList.map (·.time)) (s1.timeoutEvents ++ [e.time])
    rw [hlist, hnow, hevents]
    exact hfire

/-! ## Every run -/

/-- **The step lemma.** -/
theorem Inv.step (h : Inv a s) (htime : s.Timely) {i : Input} (hi : s.enabled i) :
    Keeps a (s.step a i) := by
  cases i with
  | tick time =>
    obtain ⟨hnow, hlate⟩ := hi
    refine ⟨{ h with last := ?_ }, htime.tick hlate⟩
    intro e he
    exact (h.last e he).trans (Nat.add_le_add_right hnow _)
  | receive packet src dst isFirst => exact h.processFragment htime packet src dst isFirst
  | timeout =>
    obtain ⟨s', hstep, h', htime'⟩ := h.handleTimeout htime
    show Keeps a (ReassemblingDevice.handleTimeout _)
    rw [hstep]
    exact ⟨h', htime'⟩

theorem inv_empty (a : ReassemblyAttributes) : Inv a {} where
  listed := by simp
  waits := by simp
  keys := nodup_nil
  iters := nodup_nil
  fresh := by simp
  bound := fun _ => Nat.zero_le _
  last := by simp

/-- **In every run the map and the list belong together**, and no step looks for a timeout or a
packet that is not there. -/
theorem bookkeeping_of_run (a : ReassemblyAttributes) (is : List Input) (s : ReassemblingDevice)
    (h : (machine a).Run (fun _ _ => True) {} is s) :
    Bookkeeping a s ∧ ∀ i, s.enabled i → ∀ fault, s.step a i = .error fault →
      ∃ f, fault = .packet f := by
  have hinv : Inv a s ∧ s.Timely := by
    refine h.invariant (fun s => Inv a s ∧ s.Timely) ?_ ⟨inv_empty a, watched_nil 0⟩
    intro s i hs hi _
    exact (hs.1.step hs.2 hi).mono (fun _ hs' => hs') fun _ _ => trivial
  refine ⟨hinv.1.bookkeeping, ?_⟩
  intro i hi fault hfault
  have hstep := hinv.1.step hinv.2 hi
  unfold Keeps at hstep
  rw [hfault] at hstep
  exact hstep

/-- One packet at a time, for five units of time. -/
def sampleAttributes : ReassemblyAttributes := ⟨1, 5⟩

/-- The first fragment of a packet of 24 octets. -/
def sampleFirst (tag : BitVec 16) : Input :=
  .receive ((⟨24, tag⟩ : SixLowPanFrag1).serialize ++ 0x41 :: List.replicate 16 7) (.mac16 0 1)
    (.mac16 0 2) true

/-- And its other fragment. -/
def sampleOther (tag : BitVec 16) : Input :=
  .receive ((⟨24, tag, 2⟩ : SixLowPanFragN).serialize ++ List.replicate 8 9) (.mac16 0 1)
    (.mac16 0 2) false

/-- The second packet drives the first one out and is entire in time; the third one is not. -/
def sampleInputs : List Input :=
  [sampleFirst 1, .tick 2, sampleFirst 2, sampleOther 2, sampleFirst 3, .tick 5, .timeout, .tick 7,
    .timeout]

theorem bookkeeping_of_run_sample : ∃ s, (machine sampleAttributes).Run (fun _ _ => True) {}
    sampleInputs s ∧ s.now = 7 ∧ s.fragments.keys.length = 0 ∧ Bookkeeping sampleAttributes s := by
  obtain ⟨s, hrun, hs⟩ := Machine.exists_run_of_exec (m := machine sampleAttributes)
    (fun _ _ => true) (fun s => s.now == 7 && s.fragments.keys.length == 0) {} sampleInputs
    (by decide +kernel)
  rw [Bool.and_eq_true, beq_iff_eq, beq_iff_eq] at hs
  have hall := hrun.mono (D := fun _ _ => True) fun _ _ _ => trivial
  exact ⟨s, hall, hs.1, hs.2, (bookkeeping_of_run sampleAttributes sampleInputs s hall).1⟩

end ReassemblingDevice

end Ns3Dsme.SixLowPan
