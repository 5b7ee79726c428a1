/-
# The advertised neighbour set of a node

A node advertises its MPR selectors, and numbers the set that it advertises.  Every handler but
the one that loses a neighbour increases the number when it takes a selector out of the set.
-/
import Ns3Dsme.Olsr.Frames
import Mathlib.Algebra.Order.Group.Nat

open KeyedList Program Program.Views

namespace Ns3Dsme.Olsr.RoutingProtocol

/-- The neighbours that a TC message of the node lists. -/
def advertised (n : RoutingProtocol) : List Ipv4Address := n.state.mprSelectorSet.map (·.mainAddr)

/-- From one state to another the ANSN has been increased as often as was counted. -/
structure Counts (n m : RoutingProtocol) : Prop where
  main : m.mainAddress = n.mainAddress
  steps : n.ansnSteps ≤ m.ansnSteps
  ansn : m.ansn = n.ansn + BitVec.ofNat 16 (m.ansnSteps - n.ansnSteps)

/-- The advertised set has not lost a neighbour without a step of the ANSN. -/
structure Advertises (n m : RoutingProtocol) : Prop extends Counts n m where
  kept : m.ansnSteps = n.ansnSteps → n.advertised ⊆ m.advertised

variable {n m k : RoutingProtocol}

theorem Counts.refl (n : RoutingProtocol) : Counts n n where
  main := rfl
  steps := le_rfl
  ansn := by simp

theorem Counts.trans (h : Counts n m) (h' : Counts m k) : Counts n k where
  main := h'.main.trans h.main
  steps := h.steps.trans h'.steps
  ansn := by
    have hsum : k.ansnSteps - n.ansnSteps
        = (m.ansnSteps - n.ansnSteps) + (k.ansnSteps - m.ansnSteps) := by
      have h₁ := h.steps
      have h₂ := h'.steps
      omega
    rw [h'.ansn, h.ansn, hsum, BitVec.ofNat_add, BitVec.add_assoc]

theorem Advertises.refl (n : RoutingProtocol) : Advertises n n where
  toCounts := .refl n
  kept _ := List.Subset.refl _

theorem Advertises.trans (h : Advertises n m) (h' : Advertises m k) : Advertises n k where
  toCounts := h.toCounts.trans h'.toCounts
  kept hsteps := by
    -- no step on the whole way is no step on either part
    have h₁ := h.steps
    have h₂ := h'.steps
    exact List.Subset.trans (h.kept (by omega)) (h'.kept (by omega))

/-- A step that leaves the ANSN alone. -/
theorem counts_of_keeps {touched : List NodeView} (h : nodeViews.Keeps touched n m)
    (hansn : .ansn ∉ touched) (hconfig : .config ∉ touched) : Counts n m := by
  obtain ⟨hansn, hsteps⟩ := h .ansn hansn
  exact {
    main := (h .config hconfig).1
    steps := hsteps.ge
    ansn := by simp [hansn, hsteps] }

/-- A step that leaves the selectors alone as well. -/
theorem advertises_of_keeps {touched : List NodeView} (h : nodeViews.Keeps touched n m)
    (hapart : ∀ v ∈ [.ansn, .config, .selectors], v ∉ touched) : Advertises n m where
  toCounts := counts_of_keeps h (hapart _ (by simp)) (hapart _ (by simp))
  kept _ := by
    have hset : m.state.mprSelectorSet = n.state.mprSelectorSet := h .selectors (hapart _ (by simp))
    unfold advertised
    rw [hset]
    exact List.Subset.refl _

/-- Whatever happens to the selectors, a step of the ANSN makes up for it. -/
theorem advertises_incrementAnsn (h : Counts n m) : Advertises n m.incrementAnsn where
  toCounts := h.trans {
    main := rfl
    steps := Nat.le_succ _
    ansn := by
      have hone : m.incrementAnsn.ansnSteps - m.ansnSteps = 1 := Nat.add_sub_cancel_left ..
      rw [hone]
      apply BitVec.eq_of_toNat_eq
      show (BitVec.ofNat 16 ((m.ansn.toNat + 1) % (65535 + 1))).toNat = _
      simp }
  kept hsteps := by
    have h₁ := h.steps
    have h₂ : m.incrementAnsn.ansnSteps = m.ansnSteps + 1 := rfl
    omega

/-! ## The handlers -/

theorem advertises_addNeighborTuple (tuple : NeighborTuple) (n : RoutingProtocol) :
    Advertises n (n.addNeighborTuple tuple) := by
  apply advertises_incrementAnsn
  exact ⟨rfl, le_rfl, by simp [withState]⟩

theorem advertises_linkTupleUpdated (tuple : LinkTuple) (willingness : Octet)
    (n : RoutingProtocol) : Advertises n (n.linkTupleUpdated tuple willingness) := by
  have hupdate (m : RoutingProtocol) (mainAddr : Ipv4Address) :
      Advertises m (m.updateNeighborStatus mainAddr) := by
    apply advertises_of_keeps (m.keeps_updateNeighborStatus mainAddr)
    all_goals simp
  unfold linkTupleUpdated
  dsimp only
  split
  · exact (advertises_addNeighborTuple _ n).trans (hupdate _ _)
  · exact hupdate _ _

theorem advertises_schedule (delay : ℤ) (action : TimerAction) (n : RoutingProtocol) :
    Advertises n (n.schedule delay action) :=
  ⟨⟨rfl, le_rfl, by simp [schedule]⟩, fun _ => List.Subset.refl _⟩

theorem advertises_storeLink (created updated : Bool) (willingness : Octet) (link : LinkTuple)
    (n : RoutingProtocol) : Advertises n (n.storeLink created updated willingness link) := by
  have hstore : Advertises n
      (n.withState fun s => if created then s.insertLinkTuple link else s.writeLinkTuple link) := by
    refine ⟨⟨rfl, le_rfl, by simp [withState]⟩, fun _ => ?_⟩
    cases created
    · exact List.Subset.refl _
    · exact List.Subset.refl _
  have hupdated (m : RoutingProtocol) : Advertises m
      (if updated then m.linkTupleUpdated link willingness else m) := by
    split
    · exact advertises_linkTupleUpdated link willingness m
    · exact .refl m
  have hadded (m : RoutingProtocol) : Advertises m
      (if created then
        (m.linkTupleAdded link willingness).schedule
          ((m.linkTupleAdded link willingness).delay (min link.time link.symTime))
          (.linkTuple link.neighborIfaceAddr)
      else m) := by
    split
    · exact (advertises_addNeighborTuple _ m).trans (advertises_schedule _ _ _)
    · exact .refl m
  exact hstore.trans ((hupdated _).trans (hadded _))

variable (msg : MessageHeader) (receiverIface senderIface : Ipv4Address)

theorem advertises_populateMprSelector (addr : Ipv4Address) (n : RoutingProtocol) :
    Advertises n (n.populateMprSelector msg addr) := by
  unfold populateMprSelector
  dsimp only
  split
  · split
    · have hadd (t : MprSelectorTuple) : Advertises n (n.addMprSelectorTuple t) := by
        apply advertises_incrementAnsn
        exact ⟨rfl, le_rfl, by simp [withState]⟩
      exact (hadd _).trans (advertises_schedule _ _ _)
    · -- the time of a selector is not listed
      have hrefresh (expirationTime : ℤ) :
          (n.withState (·.refreshMprSelectorTuple msg.originatorAddress expirationTime)).advertised
            = n.advertised := map_updateFirst fun _ _ => rfl
      refine ⟨⟨rfl, le_rfl, by simp [withState]⟩, fun _ => ?_⟩
      rw [hrefresh]
      exact List.Subset.refl _
  · exact .refl n

theorem advertises_foldl {α : Type} (f : RoutingProtocol → α → RoutingProtocol)
    (h : ∀ n x, Advertises n (f n x)) (xs : List α) (n : RoutingProtocol) :
    Advertises n (xs.foldl f n) := by
  induction xs generalizing n with
  | nil => exact .refl n
  | cons x xs ih => exact (h n x).trans (ih (f n x))

theorem advertises_populateMprSelectorSet (hello : Hello) (n : RoutingProtocol) :
    Advertises n (n.populateMprSelectorSet msg hello) := by
  unfold populateMprSelectorSet
  refine advertises_foldl _ (fun m linkMessage => ?_) _ n
  split
  · exact advertises_foldl _ (fun k addr => advertises_populateMprSelector msg addr k) _ m
  · exact .refl m

theorem advertises_mprComputation (n : RoutingProtocol) :
    Post n.mprComputation (Advertises n) :=
  n.touches_mprComputation.imp fun m hm =>
    advertises_of_keeps hm (by simp)

theorem advertises_processHello (hello : Hello) (receiverIface senderIface : Ipv4Address)
    (n : RoutingProtocol) :
    Post (n.processHello msg hello receiverIface senderIface) (Advertises n) := by
  have hsensing : Post (n.linkSensing msg hello receiverIface senderIface) (Advertises n) := by
    unfold linkSensing
    refine post_bind fun sensed _ => ?_
    exact advertises_storeLink _ _ _ _ n
  refine Wp.trans (R := Advertises) (fun _ _ _ => Advertises.trans) hsensing fun m => ?_
  have hpopulate : Advertises m
      ((m.populateNeighborSet msg hello).populateTwoHopNeighborSet msg hello) := by
    refine Advertises.trans (advertises_of_keeps (m.keeps_populateNeighborSet msg hello) ?_)
      (advertises_of_keeps (keeps_populateTwoHopNeighborSet _ msg hello) ?_)
    all_goals simp
  refine (advertises_mprComputation _).bind fun k hk => ?_
  exact (hpopulate.trans hk).trans (advertises_populateMprSelectorSet msg hello k)

theorem advertises_processMessage (n : RoutingProtocol) :
    Post (n.processMessage msg receiverIface senderIface) (Advertises n) := by
  unfold processMessage
  cases msg.body with
  | hello hello => exact advertises_processHello msg hello receiverIface senderIface n
  | tc tc =>
    exact advertises_of_keeps (n.keeps_processTc msg tc senderIface) (by simp)
  | mid addrs =>
    exact advertises_of_keeps (n.keeps_processMid msg addrs senderIface) (by simp)
  | hna networks =>
    exact advertises_of_keeps (n.keeps_processHna msg networks senderIface) (by simp)

theorem advertises_recvMessage (n : RoutingProtocol) :
    Post (n.recvMessage msg receiverIface senderIface) (Advertises n) := by
  unfold recvMessage
  split
  · exact Advertises.refl n
  · have hprocess : Post (n.processNew msg receiverIface senderIface) (Advertises n) := by
      unfold processNew
      split
      · exact advertises_processMessage msg receiverIface senderIface n
      · exact Advertises.refl n
    refine (wp_map _ _ _ _).mpr (hprocess.imp fun m hm => hm.trans ?_)
    apply advertises_of_keeps (m.keeps_considerForwarding msg _ _ _)
    all_goals simp

theorem advertises_recvOlsr (messages : List MessageHeader)
    (receiverIface senderIface : Ipv4Address) (n : RoutingProtocol) :
    Post (n.recvOlsr messages receiverIface senderIface) (Advertises n) :=
  wp_foldlM (Advertises n) _ _ messages
    (fun m msg _ hm => (advertises_recvMessage msg receiverIface senderIface m).imp
      fun _ hk => hm.trans hk) n (.refl n)

theorem advertises_mprSelTupleTimerExpire (mainAddr : Ipv4Address) (n : RoutingProtocol) :
    Advertises n (n.mprSelTupleTimerExpire mainAddr) := by
  unfold mprSelTupleTimerExpire tupleTimerExpire
  split
  · exact .refl n
  · split
    · apply advertises_incrementAnsn
      exact ⟨rfl, le_rfl, by simp [withState]⟩
    · exact advertises_schedule _ _ n

theorem counts_linkTupleTimerExpire (neighborIfaceAddr : Ipv4Address) (n : RoutingProtocol) :
    Post (n.linkTupleTimerExpire neighborIfaceAddr) (Counts n) := by
  unfold linkTupleTimerExpire
  split
  · exact Counts.refl n
  · rename_i tuple _
    split
    · exact counts_of_keeps (n.keeps_removeLinkTuple _) (by simp) (by simp)
    · split
      · refine (wp_map _ _ _ _).mpr ?_
        split
        · exact ⟨rfl, le_rfl, by simp [schedule]⟩
        · unfold neighborLoss
          have hlink := (advertises_linkTupleUpdated tuple willDefault n).toCounts
          have herase (m : RoutingProtocol) (f : OlsrState → OlsrState) :
              Counts m (m.withState f) := ⟨rfl, le_rfl, by simp [withState]⟩
          refine (advertises_mprComputation _).imp fun m hm => ?_
          exact (hlink.trans (herase _ _)).trans
            (hm.toCounts.trans (advertises_schedule _ _ m).toCounts)
      · exact (advertises_schedule _ _ n).toCounts

/-- Of all that happens to a node, only the timer of a link may take a neighbour out of the
advertised set without a step of the ANSN. -/
theorem advertises_act (a : NodeAction)
    (h : ∀ time neighborIfaceAddr, a ≠ .fire ⟨time, .linkTuple neighborIfaceAddr⟩)
    (n : RoutingProtocol) : Post (n.act a) (Advertises n) := by
  have htimer {touched : List NodeView} {m k : RoutingProtocol}
      (hkeeps : nodeViews.Keeps touched m k)
      (hapart : ∀ v ∈ [.ansn, .config, .selectors], v ∉ touched) : Advertises m k :=
    advertises_of_keeps hkeeps hapart
  cases a with
  | recv messages receiverIface senderIface =>
    exact advertises_recvOlsr messages receiverIface senderIface n
  | advance time => exact ⟨⟨rfl, le_rfl, by simp⟩, fun _ => List.Subset.refl _⟩
  | sendTc =>
    exact ⟨⟨rfl, le_rfl, by simp [sendTc, queueMessage]⟩, fun _ => List.Subset.refl _⟩
  | fire event =>
    obtain ⟨time, action⟩ := event
    let m : RoutingProtocol := { n with events := n.events.erase ⟨time, action⟩ }
    have herase (k : RoutingProtocol) (hk : Advertises m k) : Advertises n k :=
      ⟨{ hk with }, hk.kept⟩
    cases action with
    | linkTuple iface => exact absurd rfl (h time iface)
    | mprSelTuple addr => exact herase _ (advertises_mprSelTupleTimerExpire addr m)
    | dupTuple addr seq =>
      exact herase _ (htimer (m.keeps_dupTupleTimerExpire addr seq) (by simp))
    | nb2hopTuple a b =>
      exact herase _ (htimer (m.keeps_nb2hopTupleTimerExpire a b) (by simp))
    | topologyTuple d l =>
      exact herase _ (htimer (m.keeps_topologyTupleTimerExpire d l) (by simp))
    | ifaceAssocTuple a =>
      exact herase _ (htimer (m.keeps_ifaceAssocTupleTimerExpire a) (by simp))
    | associationTuple g w k =>
      exact herase _
        (htimer (m.keeps_associationTupleTimerExpire g w k) (by simp))

/-- Everything that happens to a node counts the steps of the ANSN. -/
theorem counts_act (a : NodeAction) (n : RoutingProtocol) : Post (n.act a) (Counts n) := by
  by_cases h : ∃ time neighborIfaceAddr, a = .fire ⟨time, .linkTuple neighborIfaceAddr⟩
  · obtain ⟨time, iface, rfl⟩ := h
    refine (counts_linkTupleTimerExpire iface _).imp fun m hm => ?_
    exact { hm with }
  · push Not at h
    exact (advertises_act a h n).imp fun m hm => hm.toCounts

end Ns3Dsme.Olsr.RoutingProtocol
