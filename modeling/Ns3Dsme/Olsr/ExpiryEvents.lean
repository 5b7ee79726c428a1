/-
# Every tuple has its expiry event

The six repositories whose tuples expire, and what the handlers that write to them need so that
every tuple keeps an event with its key that comes in time.
-/
import Ns3Dsme.Olsr.NeighborLinks

open List KeyedList Program Program.Views

namespace Ns3Dsme.Olsr

/-! ## The repositories -/

def twoHopRepository : TimedRepository TwoHopNeighborTuple (Ipv4Address × Ipv4Address) where
  view := .twoHops
  tuples := (·.twoHopNeighborSet)
  tuples_same _ _ h := h
  key t := (t.neighborMainAddr, t.twoHopNeighborAddr)
  expirationTime := (·.expirationTime)
  action k := .nb2hopTuple k.1 k.2
  action_injective := by
    rintro ⟨a, b⟩ ⟨c, d⟩ ⟨⟩
    rfl

def topologyRepository : TimedRepository TopologyTuple (Ipv4Address × Ipv4Address) where
  view := .topology
  tuples := (·.topologySet)
  tuples_same _ _ h := h
  key t := (t.destAddr, t.lastAddr)
  expirationTime := (·.expirationTime)
  action k := .topologyTuple k.1 k.2
  action_injective := by
    rintro ⟨a, b⟩ ⟨c, d⟩ ⟨⟩
    rfl

def mprSelectorRepository : TimedRepository MprSelectorTuple Ipv4Address where
  view := .selectors
  tuples := (·.mprSelectorSet)
  tuples_same _ _ h := h
  key := (·.mainAddr)
  expirationTime := (·.expirationTime)
  action := .mprSelTuple
  action_injective := by
    rintro a b ⟨⟩
    rfl

def ifaceAssocRepository : TimedRepository IfaceAssocTuple Ipv4Address where
  view := .ifaceAssocs
  tuples := (·.ifaceAssocSet)
  tuples_same _ _ h := h
  key := (·.ifaceAddr)
  expirationTime := (·.time)
  action := .ifaceAssocTuple
  action_injective := by
    rintro a b ⟨⟩
    rfl

def associationRepository :
    TimedRepository AssociationTuple (Ipv4Address × Ipv4Address × Ipv4Mask) where
  view := .associations
  tuples := (·.associationSet)
  tuples_same _ _ h := h
  key t := (t.gatewayAddr, t.networkAddr, t.netmask)
  expirationTime := (·.expirationTime)
  action k := .associationTuple k.1 k.2.1 k.2.2
  action_injective := by
    rintro ⟨a, b, c⟩ ⟨d, e, f⟩ ⟨⟩
    rfl

def duplicateRepository : TimedRepository DuplicateTuple (Ipv4Address × BitVec 16) where
  view := .duplicates
  tuples := (·.duplicateSet)
  tuples_same _ _ h := h
  key t := (t.address, t.sequenceNumber)
  expirationTime := (·.expirationTime)
  action k := .dupTuple k.1 k.2
  action_injective := by
    rintro ⟨a, b⟩ ⟨c, d⟩ ⟨⟩
    rfl

/-! ## New tuples and their timers -/

namespace RoutingProtocol

variable {n m : RoutingProtocol}

/-- A timer that is set for a later time comes in time. -/
theorem awaits_schedule (n : RoutingProtocol) {time : ℤ} (htime : n.now ≤ time)
    (action : TimerAction) :
    Awaits (n.schedule (n.delay time) action).events action time := by
  refine ⟨_, mem_append_right _ mem_cons_self, rfl, ?_⟩
  unfold delay granularity
  rw [if_neg (by omega)]
  show n.now + (time - n.now + 1000) ≤ time + 1000
  omega

/-- An event that is pending stays so. -/
theorem Awaits.of_keeps {touched : List NodeView} {action : TimerAction} {time : ℤ}
    (h : Awaits n.events action time) (hkeeps : nodeViews.Keeps touched n m)
    (hevents : .events ∉ touched) : Awaits m.events action time := by
  obtain ⟨-, hsub, -⟩ : RoutingProtocol.Same .events n m := hkeeps .events hevents
  obtain ⟨e, he, hrest⟩ := h
  exact ⟨e, hsub he, hrest⟩

theorem le_add_getVTime (n : RoutingProtocol) (msg : MessageHeader) :
    n.now ≤ n.now + msg.getVTime := by
  have := getVTime_nonneg msg
  omega

end RoutingProtocol

namespace TimedRepository

open RoutingProtocol

variable {τ κ : Type} {R : TimedRepository τ κ} {n : RoutingProtocol}

variable {f : OlsrState → OlsrState}

/-- **A tuple is recorded**: it is added with a timer. -/
theorem Guarded.record (h : R.GuardedAt n) {t : τ}
    (hset : R.tuples (f n.state) = R.tuples n.state ++ [t])
    (hnew : ∀ u ∈ R.tuples n.state, R.key u ≠ R.key t) {time : ℤ}
    (htime : R.expirationTime t = time) (hlater : n.now ≤ time) {action : TimerAction}
    (haction : action = R.action (R.key t)) :
    R.GuardedAt ((n.withState f).schedule ((n.withState f).delay time) action) := by
  show R.Guarded (R.tuples (f n.state)) (n.events ++ [_])
  rw [hset]
  apply Guarded.insert (h.mono (subset_append_left _ _)) hnew
  rw [htime, haction]
  exact awaits_schedule (n.withState f) hlater _

/-- Nothing is in the repository, and nothing needs an event. -/
theorem guarded_nil (events : List Event) : R.Guarded [] events where
  distinct := nodup_nil
  pending t ht := by cases ht

/-- **The timer of a repository runs.** -/
theorem Guarded.tupleTimerExpire (h : R.GuardedAt n) {e : Event} {k : κ}
    (hk : e.action = R.action k) {p : τ → Bool} (hp : ∀ t, p t = true ↔ R.key t = k)
    {remove : τ → RoutingProtocol → RoutingProtocol} {q : τ → τ → Bool}
    (hsame : ∀ t u, q u t = true → R.key u = R.key t) (hself : ∀ t, q t t = true)
    (hremove : ∀ t m, R.tuples (remove t m).state = (R.tuples m.state).eraseP fun u => q u t)
    (hevents : ∀ t m, (remove t m).events = m.events) {again : τ → TimerAction}
    (hagain : ∀ t, R.key t = k → again t = R.action k) :
    R.GuardedAt ({ n with events := n.events.erase e }.tupleTimerExpire
      ((R.tuples n.state).find? p) R.expirationTime remove again) := by
  obtain ⟨hmissing, hthere⟩ := h.fire e hk ((R.tuples n.state).find? p)
    (fun t ht => ⟨mem_of_find?_eq_some ht, (hp t).mp (List.find?_some ht)⟩)
    (fun hnone t ht hkey => List.find?_eq_none.mp hnone t ht ((hp t).mpr hkey))
  unfold RoutingProtocol.tupleTimerExpire
  split
  · rename_i hfound
    exact hmissing hfound
  · rename_i t hfound
    obtain ⟨hexpired, hlive⟩ := hthere t hfound
    have hkey : R.key t = k := (hp t).mp (List.find?_some hfound)
    split
    · show R.Guarded (R.tuples (remove t _).state) (remove t _).events
      rw [hremove, hevents]
      exact hexpired _ (hself t) fun u _ hu => hsame t u hu
    · rename_i hle
      show R.Guarded (R.tuples n.state) (n.events.erase e ++ [⟨n.now + _, again t⟩])
      rw [hagain t hkey]
      apply hlive
      unfold delay granularity
      rw [if_neg hle]
      show n.now + (R.expirationTime t - n.now + 1000) ≤ R.expirationTime t + 1000
      omega

/-! ## Messages that record and refresh tuples -/

/-- A message is being processed that gives the tuples with certain keys a new time: each of them
has an event that is early enough. -/
structure Renewable (R : TimedRepository τ κ) (S : κ → Prop) (time : ℤ) (n : RoutingProtocol) :
    Prop where
  guarded : R.GuardedAt n
  early : ∀ t ∈ R.tuples n.state, S (R.key t) → Awaits n.events (R.action (R.key t)) time

variable {S : κ → Prop} {time : ℤ}

theorem Renewable.record (h : R.Renewable S time n) {t : τ}
    (hset : R.tuples (f n.state) = R.tuples n.state ++ [t])
    (hnew : ∀ u ∈ R.tuples n.state, R.key u ≠ R.key t) (htime : R.expirationTime t = time)
    (hlater : n.now ≤ time) {action : TimerAction} (haction : action = R.action (R.key t)) :
    R.Renewable S time ((n.withState f).schedule ((n.withState f).delay time) action) where
  guarded := h.guarded.record hset hnew htime hlater haction
  early u hu hS := by
    have hu' : u ∈ R.tuples n.state ++ [t] := hset ▸ hu
    rcases mem_append.mp hu' with hu' | hu'
    · obtain ⟨e, he, hrest⟩ := h.early u hu' hS
      exact ⟨e, mem_append_left _ he, hrest⟩
    · rw [mem_singleton.mp hu', ← haction]
      exact awaits_schedule (n.withState f) hlater _

theorem Renewable.refresh (h : R.Renewable S time n) {k : κ} (hk : S k) {p : τ → Bool} {g : τ → τ} (hset : R.tuples (f n.state) = updateFirst p g (R.tuples n.state))
    (hp : ∀ t, p t = true → R.key t = k) (hkey : ∀ t, R.key (g t) = R.key t)
    (htime : ∀ t, R.expirationTime (g t) = time) : R.Renewable S time (n.withState f) where
  guarded := by
    show R.Guarded (R.tuples (f n.state)) n.events
    rw [hset]
    apply h.guarded.refresh hkey
    intro t ht hpt
    rw [htime]
    exact h.early t ht (by rw [hp t hpt]; exact hk)
  early u hu hS := by
    have hu' : u ∈ updateFirst p g (R.tuples n.state) := hset ▸ hu
    rcases mem_updateFirst hu' with hu' | ⟨t, ht, hpt, rfl⟩
    · exact h.early u hu' hS
    · rw [hkey] at hS ⊢
      exact h.early t ht hS

theorem Renewable.sublist (h : R.Renewable S time n)
    (hset : (R.tuples (f n.state)).Sublist (R.tuples n.state)) :
    R.Renewable S time (n.withState f) where
  guarded := h.guarded.sublist hset
  early t ht hS := h.early t (hset.subset ht) hS

end TimedRepository

namespace RoutingProtocol

open TimedRepository

variable {n m : RoutingProtocol}

/-! ### Two-hop neighbours -/

/-- The main addresses that a HELLO lists as its neighbours. -/
def listedTwoHops (n : RoutingProtocol) (hello : Hello) : List Ipv4Address :=
  hello.linkMessages.flatMap fun linkMessage =>
    match linkMessage.neighborType with
    | .symNeigh | .mprNeigh => linkMessage.neighborInterfaceAddresses.map n.getMainAddress
    | _ => []

/-- The two-hop tuples that a HELLO refreshes. -/
def ListsTwoHop (n : RoutingProtocol) (msg : MessageHeader) (hello : Hello)
    (k : Ipv4Address × Ipv4Address) : Prop :=
  k.1 = msg.originatorAddress ∧ k.2 ∈ n.listedTwoHops hello

variable {msg : MessageHeader}

theorem renewable_populateTwoHopNeighbor {S : Ipv4Address × Ipv4Address → Prop} {neighborType : NeighborType} {addr : Ipv4Address}
    (h : twoHopRepository.Renewable S (n.now + msg.getVTime) n)
    (hS : neighborType = .symNeigh ∨ neighborType = .mprNeigh →
      S (msg.originatorAddress, n.getMainAddress addr)) :
    twoHopRepository.Renewable S (n.now + msg.getVTime)
      (n.populateTwoHopNeighbor msg neighborType addr) := by
  have hlisted (hS : S (msg.originatorAddress, n.getMainAddress addr)) :
      twoHopRepository.Renewable S (n.now + msg.getVTime)
        (n.populateTwoHopNeighbor msg .symNeigh addr) := by
    unfold populateTwoHopNeighbor
    dsimp only
    split
    · exact h
    · split
      · rename_i hnone
        refine h.record (t := ⟨msg.originatorAddress, n.getMainAddress addr, _⟩) rfl ?_ rfl
          (n.le_add_getVTime msg) rfl
        intro u hu hkey
        have hfirst : u.neighborMainAddr = msg.originatorAddress := congrArg Prod.fst hkey
        have hsecond : u.twoHopNeighborAddr = n.getMainAddress addr := congrArg Prod.snd hkey
        have := List.find?_eq_none.mp hnone u hu
        simp [hfirst, hsecond] at this
      · refine h.refresh hS rfl (fun t ht => ?_) (fun _ => rfl) fun _ => rfl
        rw [Bool.and_eq_true, beq_iff_eq, beq_iff_eq] at ht
        exact Prod.ext ht.1 ht.2
  cases neighborType with
  | symNeigh => exact hlisted (hS (Or.inl rfl))
  | mprNeigh => exact hlisted (hS (Or.inr rfl))
  | notNeigh => exact h.sublist filter_sublist
  | bad => exact h

/-- **The two-hop neighbours of a HELLO.** -/
theorem guarded_populateTwoHopNeighborSet {hello : Hello} (h : twoHopRepository.GuardedAt n)
    (hmild : ∀ t ∈ n.state.twoHopNeighborSet, n.ListsTwoHop msg hello (twoHopRepository.key t) →
      Awaits n.events (.nb2hopTuple t.neighborMainAddr t.twoHopNeighborAddr)
        (n.now + msg.getVTime)) :
    twoHopRepository.GuardedAt (n.populateTwoHopNeighborSet msg hello) := by
  let J (m : RoutingProtocol) : Prop :=
    nodeViews.Keeps [.twoHops] n m ∧
      twoHopRepository.Renewable (n.ListsTwoHop msg hello) (n.now + msg.getVTime) m
  have hturn (m : RoutingProtocol) (hm : J m) (linkMessage : LinkMessage)
      (hmem : linkMessage ∈ hello.linkMessages) (addr : Ipv4Address)
      (haddr : addr ∈ linkMessage.neighborInterfaceAddresses) :
      J (m.populateTwoHopNeighbor msg linkMessage.neighborType addr) := by
    obtain ⟨hkeeps, hrenewable⟩ := hm
    have hnow : m.now = n.now := hkeeps .clock (by simp)
    refine ⟨hkeeps.trans (m.keeps_populateTwoHopNeighbor msg _ addr), ?_⟩
    rw [← hnow] at hrenewable ⊢
    apply renewable_populateTwoHopNeighbor hrenewable
    intro htype
    refine ⟨rfl, mem_flatMap.mpr ⟨linkMessage, hmem, ?_⟩⟩
    rw [getMainAddress_of_keeps hkeeps (by simp)]
    rcases htype with htype | htype
    · rw [htype]
      exact mem_map_of_mem haddr
    · rw [htype]
      exact mem_map_of_mem haddr
  have hloop : J (n.populateTwoHopNeighborSet msg hello) := by
    unfold populateTwoHopNeighborSet
    refine List.foldlRecOn (motive := J) _ _ ⟨Keeps.refl _ n, h, hmild⟩ fun m hm link _ => ?_
    split
    · exact hm
    · split
      · exact hm
      · refine List.foldlRecOn (motive := J) _ _ hm fun k hk linkMessage hmem => ?_
        refine List.foldlRecOn (motive := J) _ _ hk fun l hl addr haddr => ?_
        exact hturn l hl linkMessage hmem addr haddr
  exact hloop.2.guarded

/-! ### MPR selectors -/

/-- The HELLO chooses this node as a relay. -/
def IsChosen (n : RoutingProtocol) (hello : Hello) : Prop :=
  ∃ linkMessage ∈ hello.linkMessages,
    NeighborType.ofCode (linkMessage.linkCode.toNat / 4) = .mprNeigh ∧
      ∃ addr ∈ linkMessage.neighborInterfaceAddresses, n.getMainAddress addr = n.mainAddress

theorem renewable_populateMprSelector {S : Ipv4Address → Prop} {addr : Ipv4Address}
    (h : mprSelectorRepository.Renewable S (n.now + msg.getVTime) n)
    (hS : n.getMainAddress addr = n.mainAddress → S msg.originatorAddress) :
    mprSelectorRepository.Renewable S (n.now + msg.getVTime) (n.populateMprSelector msg addr) := by
  unfold populateMprSelector
  dsimp only
  split
  · rename_i hself
    split
    · rename_i hnone
      -- the ANSN is not part of the repository
      have hrecord := h.record (t := ⟨msg.originatorAddress, n.now + msg.getVTime⟩)
        (f := (·.insertMprSelectorTuple ⟨msg.originatorAddress, n.now + msg.getVTime⟩)) rfl (by
          intro u hu hkey
          have := List.find?_eq_none.mp hnone u hu
          have hkey' : u.mainAddr = msg.originatorAddress := hkey
          simp [hkey'] at this) rfl (n.le_add_getVTime msg) rfl
      exact ⟨⟨hrecord.guarded.distinct, hrecord.guarded.pending⟩, hrecord.early⟩
    · refine h.refresh (hS hself) rfl (fun t ht => ?_) (fun _ => rfl) fun _ => rfl
      exact beq_iff_eq.mp ht
  · exact h

/-- **The MPR selectors of a HELLO.** -/
theorem guarded_populateMprSelectorSet {hello : Hello} (h : mprSelectorRepository.GuardedAt n)
    (hmild : ∀ t ∈ n.state.mprSelectorSet, t.mainAddr = msg.originatorAddress →
      n.IsChosen hello → Awaits n.events (.mprSelTuple t.mainAddr) (n.now + msg.getVTime)) :
    mprSelectorRepository.GuardedAt (n.populateMprSelectorSet msg hello) := by
  let J (m : RoutingProtocol) : Prop :=
    nodeViews.Keeps [.selectors, .ansn] n m ∧
      mprSelectorRepository.Renewable
        (fun a => a = msg.originatorAddress ∧ n.IsChosen hello) (n.now + msg.getVTime) m
  have hloop : J (n.populateMprSelectorSet msg hello) := by
    unfold populateMprSelectorSet
    refine List.foldlRecOn (motive := J) _ _
      ⟨Keeps.refl _ n, h, fun t ht hS => hmild t ht hS.1 hS.2⟩ fun m hm linkMessage hmem => ?_
    split
    · rename_i htype
      refine List.foldlRecOn (motive := J) _ _ hm fun k hk addr haddr => ?_
      obtain ⟨hkeeps, hrenewable⟩ := hk
      have hnow : k.now = n.now := hkeeps .clock (by simp)
      have hmain : k.mainAddress = n.mainAddress := (hkeeps .config (by simp)).1
      refine ⟨hkeeps.trans (k.keeps_populateMprSelector msg addr), ?_⟩
      rw [← hnow] at hrenewable ⊢
      apply renewable_populateMprSelector hrenewable
      intro hself
      rw [getMainAddress_of_keeps hkeeps (by simp), hmain] at hself
      exact ⟨rfl, linkMessage, hmem, htype, addr, haddr, hself⟩
    · exact hm
  exact hloop.2.guarded

/-! ### Topology tuples -/

/-- **The neighbours listed in a TC message.** -/
theorem guarded_processTc {tc : Tc} {senderIface : Ipv4Address} (h : topologyRepository.GuardedAt n)
    (hmild : ∀ t ∈ n.state.topologySet, t.lastAddr = msg.originatorAddress →
      t.destAddr ∈ tc.neighborAddresses → ¬ t.sequenceNumber < tc.ansn →
      (n.state.findSymLinkTuple senderIface n.now).isSome = true →
      (n.state.findNewerTopologyTuple msg.originatorAddress tc.ansn).isNone = true →
      Awaits n.events (.topologyTuple t.destAddr t.lastAddr) (n.now + msg.getVTime)) :
    topologyRepository.GuardedAt (n.processTc msg tc senderIface) := by
  unfold processTc
  split
  · exact h
  · rename_i hsym
    split
    · exact h
    · rename_i hnewer
      let S (k : Ipv4Address × Ipv4Address) : Prop :=
        k.1 ∈ tc.neighborAddresses ∧ k.2 = msg.originatorAddress
      let J (m : RoutingProtocol) : Prop :=
        m.now = n.now ∧ topologyRepository.Renewable S (n.now + msg.getVTime) m
      have hstart : J (n.withState (·.eraseOlderTopologyTuples msg.originatorAddress tc.ansn)) := by
        refine ⟨rfl, h.sublist filter_sublist, fun t ht hS => ?_⟩
        obtain ⟨ht, hkept⟩ := mem_filter.mp ht
        have hlast : t.lastAddr = msg.originatorAddress := hS.2
        refine hmild t ht hlast hS.1 (fun hlt => ?_) ?_ ?_
        · simp [hlast, hlt] at hkept
        · exact Option.isSome_iff_ne_none.mpr fun h' => hsym (by rw [h']; rfl)
        · exact Option.isNone_iff_eq_none.mpr (by simpa using hnewer)
      refine (List.foldlRecOn (motive := J) _ _ hstart fun m hm addr haddr => ?_).2.guarded
      obtain ⟨hnow, hrenewable⟩ := hm
      refine ⟨((m.keeps_advertisedNeighbor msg tc.ansn addr) .clock (by simp)).trans hnow, ?_⟩
      rw [← hnow] at hrenewable ⊢
      unfold advertisedNeighbor
      dsimp only
      split
      · refine hrenewable.refresh (k := (addr, msg.originatorAddress)) ⟨haddr, rfl⟩ rfl
          (fun t ht => ?_) (fun _ => rfl) fun _ => rfl
        rw [Bool.and_eq_true, beq_iff_eq, beq_iff_eq] at ht
        exact Prod.ext ht.1 ht.2
      · rename_i hnone
        refine hrenewable.record (t := ⟨addr, msg.originatorAddress, tc.ansn, _⟩) rfl ?_ rfl
          (m.le_add_getVTime msg) rfl
        intro u hu hkey
        have hdest : u.destAddr = addr := congrArg Prod.fst hkey
        have hlast : u.lastAddr = msg.originatorAddress := congrArg Prod.snd hkey
        have := List.find?_eq_none.mp hnone u hu
        simp [hdest, hlast] at this

/-! ### Associations of interfaces and networks -/

/-- **The interfaces of a MID message.** -/
theorem guarded_associateIfaces {addrs : List Ipv4Address} (h : ifaceAssocRepository.GuardedAt n)
    (hmild : ∀ t ∈ n.state.ifaceAssocSet, t.ifaceAddr ∈ addrs →
      t.mainAddr = msg.originatorAddress ∧
        Awaits n.events (.ifaceAssocTuple t.ifaceAddr) (n.now + msg.getVTime)) :
    ifaceAssocRepository.GuardedAt (addrs.foldl (associateIface msg) n) := by
  let J (m : RoutingProtocol) : Prop :=
    m.now = n.now ∧
      ifaceAssocRepository.Renewable (· ∈ addrs) (n.now + msg.getVTime) m ∧
      ∀ t ∈ m.state.ifaceAssocSet, t.ifaceAddr ∈ addrs → t.mainAddr = msg.originatorAddress
  refine (List.foldlRecOn (motive := J) _ _ ⟨rfl, ⟨h, fun t ht hS => (hmild t ht hS).2⟩,
    fun t ht hS => (hmild t ht hS).1⟩ fun m hm addr haddr => ?_).2.1.guarded
  obtain ⟨hnow, hrenewable, hmain⟩ := hm
  have hkeeps := m.keeps_associateIface msg addr
  refine ⟨(hkeeps .clock (by simp)).trans hnow, ?_⟩
  rw [← hnow] at hrenewable ⊢
  unfold associateIface
  dsimp only
  split
  · -- the tuples that are listed are refreshed
    have hkey (t : IfaceAssocTuple) :
        (if (t.ifaceAddr == addr && t.mainAddr == msg.originatorAddress) = true then
          { t with time := m.now + msg.getVTime } else t).ifaceAddr = t.ifaceAddr := by
      split <;> rfl
    have hname (t : IfaceAssocTuple) :
        (if (t.ifaceAddr == addr && t.mainAddr == msg.originatorAddress) = true then
          { t with time := m.now + msg.getVTime } else t).mainAddr = t.mainAddr := by
      split <;> rfl
    refine ⟨⟨hrenewable.guarded.map hkey fun t ht => ?_, fun u hu hS => ?_⟩, fun u hu hS => ?_⟩
    · split
      · rename_i hlisted
        rw [Bool.and_eq_true, beq_iff_eq] at hlisted
        apply hrenewable.early t ht
        show t.ifaceAddr ∈ addrs
        rw [hlisted.1]
        exact haddr
      · exact hrenewable.guarded.pending t ht
    · obtain ⟨t, ht, rfl⟩ := mem_map.mp hu
      refine (iff_of_eq (congrArg (fun a => Awaits m.events (.ifaceAssocTuple a) _)
        (hkey t))).mpr (hrenewable.early t ht ?_)
      exact (iff_of_eq (congrArg (· ∈ addrs) (hkey t))).mp hS
    · obtain ⟨t, ht, rfl⟩ := mem_map.mp hu
      rw [hname]
      rw [hkey] at hS
      exact hmain t ht hS
  · rename_i hlisted
    have hnew : ∀ u ∈ m.state.ifaceAssocSet, u.ifaceAddr ≠ addr := by
      intro u hu heq
      apply hlisted
      have hu_main := hmain u hu (heq ▸ haddr)
      exact any_eq_true.mpr ⟨u, hu, by simp [heq, hu_main]⟩
    refine ⟨hrenewable.record (t := ⟨addr, msg.originatorAddress, _⟩) rfl hnew rfl
      (m.le_add_getVTime msg) rfl, fun u hu hS => ?_⟩
    rcases mem_append.mp hu with hu | hu
    · exact hmain u hu hS
    · rw [mem_singleton.mp hu]

/-- **The networks of an HNA message.** -/
theorem guarded_processHna {networks : List Association} {senderIface : Ipv4Address}
    (h : associationRepository.GuardedAt n)
    (hmild : ∀ t ∈ n.state.associationSet, t.gatewayAddr = msg.originatorAddress →
      ⟨t.networkAddr, t.netmask⟩ ∈ networks →
      (n.state.findSymLinkTuple senderIface n.now).isSome = true →
      Awaits n.events (.associationTuple t.gatewayAddr t.networkAddr t.netmask)
        (n.now + msg.getVTime)) :
    associationRepository.GuardedAt (n.processHna msg networks senderIface) := by
  unfold processHna
  split
  · exact h
  · rename_i hsym
    let S (k : Ipv4Address × Ipv4Address × Ipv4Mask) : Prop :=
      k.1 = msg.originatorAddress ∧ ⟨k.2.1, k.2.2⟩ ∈ networks
    let J (m : RoutingProtocol) : Prop :=
      m.now = n.now ∧ associationRepository.Renewable S (n.now + msg.getVTime) m
    have hstart : J n := by
      refine ⟨rfl, h, fun t ht hS => hmild t ht hS.1 hS.2 ?_⟩
      exact Option.isSome_iff_ne_none.mpr fun h' => hsym (by rw [h']; rfl)
    refine (List.foldlRecOn (motive := J) _ _ hstart fun m hm network hmem => ?_).2.guarded
    obtain ⟨hnow, hrenewable⟩ := hm
    refine ⟨((m.keeps_associateNetwork msg network) .clock (by simp)).trans hnow, ?_⟩
    rw [← hnow] at hrenewable ⊢
    unfold associateNetwork
    dsimp only
    split
    · refine hrenewable.refresh
        (k := (msg.originatorAddress, network.networkAddr, network.netmask)) ⟨rfl, hmem⟩ rfl
        (fun t ht => ?_) (fun _ => rfl) fun _ => rfl
      simp only [Bool.and_eq_true, beq_iff_eq] at ht
      exact Prod.ext ht.1.1 (Prod.ext ht.1.2 ht.2)
    · rename_i hnone
      refine hrenewable.record
        (t := ⟨msg.originatorAddress, network.networkAddr, network.netmask, _⟩) rfl ?_ rfl
        (m.le_add_getVTime msg) rfl
      intro u hu hkey
      have hgateway : u.gatewayAddr = msg.originatorAddress := congrArg Prod.fst hkey
      have hnetwork : u.networkAddr = network.networkAddr := congrArg (·.2.1) hkey
      have hmask : u.netmask = network.netmask := congrArg (·.2.2) hkey
      have := List.find?_eq_none.mp hnone u hu
      simp [hgateway, hnetwork, hmask] at this

/-! ### Duplicates -/

/-- Duplicate tuples are all held equally long. -/
def DuplicatesHeld (n : RoutingProtocol) : Prop :=
  ∀ t ∈ n.state.duplicateSet, t.expirationTime ≤ n.now + dupHoldTime

/-- **A message is recorded as a duplicate**, under a key that was looked up. -/
theorem guarded_recordDuplicate {duplicated retransmitted : Bool} {localIface : Ipv4Address}
    (h : duplicateRepository.GuardedAt n) (hheld : n.DuplicatesHeld)
    (hfound : duplicated = (n.state.findDuplicateTuple msg.originatorAddress
      msg.messageSequenceNumber).isSome) :
    duplicateRepository.GuardedAt (n.recordDuplicate msg duplicated retransmitted localIface) ∧
      (n.recordDuplicate msg duplicated retransmitted localIface).DuplicatesHeld := by
  unfold recordDuplicate
  dsimp only
  split
  · -- the tuple has an event for its old time, which is not later
    constructor
    · refine h.refresh (fun _ => rfl) fun t ht _ => ?_
      obtain ⟨e, he, haction, htime⟩ := h.pending t ht
      exact ⟨e, he, haction, htime.trans (Int.add_le_add_right (hheld t ht) _)⟩
    · intro u hu
      rcases mem_updateFirst hu with hu | ⟨t, ht, -, rfl⟩
      · exact hheld u hu
      · exact le_rfl
  · rename_i hnew
    have hnone : n.state.findDuplicateTuple msg.originatorAddress msg.messageSequenceNumber
        = none := by
      rw [hfound] at hnew
      simpa using hnew
    constructor
    · refine Guarded.insert (h.mono (subset_append_left _ _)) ?_ ?_
      · intro u hu hkey
        have haddr : u.address = msg.originatorAddress := congrArg Prod.fst hkey
        have hseq : u.sequenceNumber = msg.messageSequenceNumber := congrArg Prod.snd hkey
        have := List.find?_eq_none.mp hnone u hu
        simp [haddr, hseq] at this
      · refine ⟨_, mem_append_right _ mem_cons_self, rfl, ?_⟩
        exact le_add_of_nonneg_right (by decide)
    · intro u hu
      rcases mem_append.mp hu with hu | hu
      · exact hheld u hu
      · rw [mem_singleton.mp hu]
        exact le_rfl

theorem guarded_considerForwarding (receiverIface senderIface : Ipv4Address)
    {duplicated : Option DuplicateTuple} (h : duplicateRepository.GuardedAt n)
    (hheld : n.DuplicatesHeld)
    (hfound : duplicated = n.state.findDuplicateTuple msg.originatorAddress
      msg.messageSequenceNumber) :
    duplicateRepository.GuardedAt
        (n.considerForwarding msg duplicated receiverIface senderIface) ∧
      (n.considerForwarding msg duplicated receiverIface senderIface).DuplicatesHeld := by
  unfold considerForwarding
  split
  · exact ⟨h, hheld⟩
  · unfold forwardDefault
    split
    · exact ⟨h, hheld⟩
    · split
      · exact ⟨h, hheld⟩
      · dsimp only
        split
        · exact guarded_recordDuplicate (n := n.queueMessage _) h hheld (congrArg _ hfound)
        · exact guarded_recordDuplicate h hheld (congrArg _ hfound)

/-! ### Timers -/

variable {e : Event}

theorem guarded_dupTupleTimerExpire {address : Ipv4Address} {sequenceNumber : BitVec 16}
    (h : duplicateRepository.GuardedAt n) (hk : e.action = .dupTuple address sequenceNumber) :
    duplicateRepository.GuardedAt
      ({ n with events := n.events.erase e }.dupTupleTimerExpire address sequenceNumber) := by
  refine h.tupleTimerExpire (k := (address, sequenceNumber)) (q := DuplicateTuple.same) hk
    (fun t => ?_) (fun t u hsame => ?_) (fun t => ?_)
    (fun t m => ?_) (fun t m => ?_) fun _ _ => rfl
  · simp [duplicateRepository]
  · simpa [DuplicateTuple.same, duplicateRepository] using hsame
  · simp [DuplicateTuple.same]
  · rfl
  · rfl

theorem guarded_nb2hopTupleTimerExpire {neighborMainAddr twoHopNeighborAddr : Ipv4Address}
    (h : twoHopRepository.GuardedAt n)
    (hk : e.action = .nb2hopTuple neighborMainAddr twoHopNeighborAddr) :
    twoHopRepository.GuardedAt
      ({ n with events := n.events.erase e }.nb2hopTupleTimerExpire neighborMainAddr
        twoHopNeighborAddr) := by
  refine h.tupleTimerExpire (k := (neighborMainAddr, twoHopNeighborAddr)) (q := TwoHopNeighborTuple.same)
    hk (fun t => ?_) (fun t u hsame => ?_) (fun t => ?_)
    (fun t m => ?_) (fun t m => ?_) fun _ _ => rfl
  · simp [twoHopRepository]
  · simpa [TwoHopNeighborTuple.same, twoHopRepository] using hsame
  · simp [TwoHopNeighborTuple.same]
  · rfl
  · rfl

theorem guarded_mprSelTupleTimerExpire {mainAddr : Ipv4Address}
    (h : mprSelectorRepository.GuardedAt n) (hk : e.action = .mprSelTuple mainAddr) :
    mprSelectorRepository.GuardedAt
      ({ n with events := n.events.erase e }.mprSelTupleTimerExpire mainAddr) := by
  refine h.tupleTimerExpire (k := mainAddr) (q := MprSelectorTuple.same) hk
    (fun t => ?_) (fun t u hsame => ?_) (fun t => ?_)
    (fun t m => ?_) (fun t m => ?_) fun _ _ => rfl
  · simp [mprSelectorRepository]
  · simpa [MprSelectorTuple.same, mprSelectorRepository] using hsame
  · simp [MprSelectorTuple.same]
  · rfl
  · rfl

theorem guarded_topologyTupleTimerExpire {destAddr lastAddr : Ipv4Address}
    (h : topologyRepository.GuardedAt n) (hk : e.action = .topologyTuple destAddr lastAddr) :
    topologyRepository.GuardedAt
      ({ n with events := n.events.erase e }.topologyTupleTimerExpire destAddr lastAddr) := by
  refine h.tupleTimerExpire (k := (destAddr, lastAddr)) (q := TopologyTuple.same) hk
    (fun t => ?_) (fun t u hsame => ?_) (fun t => ?_)
    (fun t m => ?_) (fun t m => ?_) fun t ht => ?_
  · simp [topologyRepository]
  · simp only [TopologyTuple.same, Bool.and_eq_true, beq_iff_eq] at hsame
    exact Prod.ext hsame.1.1 hsame.1.2
  · simp [TopologyTuple.same]
  · rfl
  · rfl
  · exact congrArg topologyRepository.action ht

theorem guarded_ifaceAssocTupleTimerExpire {ifaceAddr : Ipv4Address}
    (h : ifaceAssocRepository.GuardedAt n) (hk : e.action = .ifaceAssocTuple ifaceAddr) :
    ifaceAssocRepository.GuardedAt
      ({ n with events := n.events.erase e }.ifaceAssocTupleTimerExpire ifaceAddr) := by
  refine h.tupleTimerExpire (k := ifaceAddr) (q := IfaceAssocTuple.same) hk
    (fun t => ?_) (fun t u hsame => ?_) (fun t => ?_)
    (fun t m => ?_) (fun t m => ?_) fun _ _ => rfl
  · simp [ifaceAssocRepository]
  · simp only [IfaceAssocTuple.same, Bool.and_eq_true, beq_iff_eq] at hsame
    exact hsame.1
  · simp [IfaceAssocTuple.same]
  · rfl
  · rfl

theorem guarded_associationTupleTimerExpire {gatewayAddr networkAddr : Ipv4Address}
    {netmask : Ipv4Mask} (h : associationRepository.GuardedAt n)
    (hk : e.action = .associationTuple gatewayAddr networkAddr netmask) :
    associationRepository.GuardedAt
      ({ n with events := n.events.erase e }.associationTupleTimerExpire gatewayAddr networkAddr
        netmask) := by
  refine h.tupleTimerExpire (k := (gatewayAddr, networkAddr, netmask)) (q := AssociationTuple.same)
    hk (fun t => ?_) (fun t u hsame => ?_) (fun t => ?_)
    (fun t m => ?_) (fun t m => ?_) fun _ _ => rfl
  · simp [associationRepository, and_assoc]
  · simpa [AssociationTuple.same, associationRepository, and_assoc] using hsame
  · simp [AssociationTuple.same]
  · rfl
  · rfl

end RoutingProtocol

end Ns3Dsme.Olsr
