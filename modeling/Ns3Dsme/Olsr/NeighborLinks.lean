/-
# Neighbours and links

The neighbour set should have one tuple for every node that some link leads to.  The lemmas say
what each handler does to the main addresses of the neighbours and to the interfaces that the
links lead to.
-/
import Ns3Dsme.Olsr.TimedRepository

open Option KeyedList Program Program.Views

namespace Ns3Dsme.Olsr.RoutingProtocol

/-- The main addresses of the neighbours. -/
def neighborMains (n : RoutingProtocol) : List Ipv4Address :=
  n.state.neighborSet.map (·.neighborMainAddr)

/-- The interfaces that the links lead to. -/
def linkIfaces (n : RoutingProtocol) : List Ipv4Address :=
  n.state.linkSet.map (·.neighborIfaceAddr)

/-- **The neighbours are the nodes that links lead to.** -/
structure NeighborsMatch (n : RoutingProtocol) : Prop where
  distinct : n.neighborMains.Nodup
  links : n.linkIfaces.Nodup
  iff : ∀ a, a ∈ n.neighborMains ↔ ∃ iface ∈ n.linkIfaces, n.getMainAddress iface = a

variable {n m : RoutingProtocol}

variable {touched : List NodeView}

theorem getMainAddress_of_keeps (h : nodeViews.Keeps touched n m) (hifaces : .ifaceAssocs ∉ touched)
    (a : Ipv4Address) :
    m.getMainAddress a = n.getMainAddress a := by
  have hset : m.state.ifaceAssocSet = n.state.ifaceAssocSet := h .ifaceAssocs hifaces
  unfold getMainAddress OlsrState.getMainAddress OlsrState.findIfaceAssocTuple
  rw [hset]

theorem linkIfaces_of_keeps (h : nodeViews.Keeps touched n m) (hlinks : .links ∉ touched) :
    m.linkIfaces = n.linkIfaces := by
  have hset : m.state.linkSet = n.state.linkSet := h .links hlinks
  unfold linkIfaces
  rw [hset]

theorem neighborMains_of_keeps (h : nodeViews.Keeps touched n m)
    (hneighbors : .neighbors ∉ touched) : m.neighborMains = n.neighborMains := by
  have hset : m.state.neighborSet = n.state.neighborSet := h .neighbors hneighbors
  unfold neighborMains
  rw [hset]

/-- A step that changes no main addresses, neither of neighbours nor of interfaces. -/
theorem NeighborsMatch.of_eq (h : n.NeighborsMatch) (hmains : m.neighborMains = n.neighborMains)
    (hlinks : m.linkIfaces = n.linkIfaces)
    (hmain : ∀ a ∈ n.linkIfaces, m.getMainAddress a = n.getMainAddress a) :
    m.NeighborsMatch where
  distinct := hmains ▸ h.distinct
  links := hlinks ▸ h.links
  iff a := by
    rw [hmains, h.iff, hlinks]
    constructor
    · rintro ⟨iface, hmem, rfl⟩
      exact ⟨iface, hmem, hmain iface hmem⟩
    · rintro ⟨iface, hmem, rfl⟩
      exact ⟨iface, hmem, (hmain iface hmem).symm⟩

theorem NeighborsMatch.of_keeps (h : n.NeighborsMatch) (hkeeps : nodeViews.Keeps touched n m)
    (hapart : ∀ v ∈ [.neighbors, .links, .ifaceAssocs], v ∉ touched) : m.NeighborsMatch :=
  h.of_eq (neighborMains_of_keeps hkeeps (hapart _ (by simp)))
    (linkIfaces_of_keeps hkeeps (hapart _ (by simp)))
    fun a _ => getMainAddress_of_keeps hkeeps (hapart _ (by simp)) a

/-! ## Neighbour tuples -/

theorem neighborMains_addNeighborTuple (tuple : NeighborTuple) (n : RoutingProtocol) :
    (n.addNeighborTuple tuple).neighborMains = addNew tuple.neighborMainAddr n.neighborMains := by
  unfold addNeighborTuple incrementAnsn withState neighborMains OlsrState.insertNeighborTuple
  dsimp only
  split
  · rename_i hfound
    obtain ⟨t, ht⟩ := isSome_iff_exists.mp hfound
    have hmem : tuple.neighborMainAddr ∈ n.state.neighborSet.map (·.neighborMainAddr) := by
      have hkey := List.find?_some ht
      rw [beq_iff_eq] at hkey
      exact hkey ▸ List.mem_map_of_mem (List.mem_of_find?_eq_some ht)
    rw [addNew_of_mem hmem]
    apply map_updateFirst
    intro t ht
    exact (beq_iff_eq.mp ht).symm
  · rename_i hfound
    have hnone : n.state.findNeighborTuple tuple.neighborMainAddr = none := by
      simpa using hfound
    have hnot : tuple.neighborMainAddr ∉ n.state.neighborSet.map (·.neighborMainAddr) := by
      intro hmem
      obtain ⟨t, ht, heq⟩ := List.mem_map.mp hmem
      have := List.find?_eq_none.mp hnone t ht
      simp [heq] at this
    unfold addNew
    rw [if_neg hnot, List.map_append]
    rfl

theorem neighborMains_updateNeighborStatus (mainAddr : Ipv4Address) (n : RoutingProtocol) :
    (n.updateNeighborStatus mainAddr).neighborMains = n.neighborMains :=
  map_updateFirst fun _ _ => rfl

theorem neighborMains_linkTupleUpdated (tuple : LinkTuple) (willingness : Octet)
    (n : RoutingProtocol) :
    (n.linkTupleUpdated tuple willingness).neighborMains
      = addNew (n.getMainAddress tuple.neighborIfaceAddr) n.neighborMains := by
  unfold linkTupleUpdated
  dsimp only
  rw [neighborMains_updateNeighborStatus]
  split
  · exact neighborMains_addNeighborTuple _ n
  · rename_i hfound
    -- the neighbour is there already
    obtain ⟨t, ht⟩ := isSome_iff_exists.mp
      (isSome_iff_ne_none.mpr (by simpa using hfound))
    have hkey := List.find?_some ht
    rw [beq_iff_eq] at hkey
    refine (addNew_of_mem ?_).symm
    exact hkey ▸ List.mem_map_of_mem (List.mem_of_find?_eq_some ht)

/-! ## Link sensing -/

theorem mem_linkIfaces_iff (iface : Ipv4Address) (n : RoutingProtocol) :
    iface ∈ n.linkIfaces ↔ (n.state.findLinkTuple iface).isSome = true := by
  unfold linkIfaces OlsrState.findLinkTuple
  rw [List.mem_map, List.find?_isSome]
  simp only [beq_iff_eq]

/-- A link is added together with its node. -/
theorem NeighborsMatch.addLink (h : n.NeighborsMatch) (iface : Ipv4Address)
    (hmains : m.neighborMains = addNew (n.getMainAddress iface) n.neighborMains)
    (hlinks : m.linkIfaces = addNew iface n.linkIfaces)
    (hmain : ∀ a, m.getMainAddress a = n.getMainAddress a) : m.NeighborsMatch where
  distinct := hmains ▸ nodup_addNew h.distinct
  links := hlinks ▸ nodup_addNew h.links
  iff a := by
    rw [hmains, hlinks, mem_addNew, h.iff]
    constructor
    · rintro (⟨i, hi, rfl⟩ | rfl)
      · exact ⟨i, mem_addNew.mpr (Or.inl hi), hmain i⟩
      · exact ⟨iface, mem_addNew.mpr (Or.inr rfl), hmain iface⟩
    · rintro ⟨i, hi, rfl⟩
      rcases mem_addNew.mp hi with hi | rfl
      · exact Or.inl ⟨i, hi, (hmain i).symm⟩
      · exact Or.inr (hmain i)

/-- The links and the neighbours when a link is updated, or not. -/
theorem neighborMains_updateIf (updated : Bool) (willingness : Octet) (link : LinkTuple)
    (n : RoutingProtocol) :
    (if updated then n.linkTupleUpdated link willingness else n).neighborMains
      = if updated then addNew (n.getMainAddress link.neighborIfaceAddr) n.neighborMains
        else n.neighborMains := by
  split
  · exact neighborMains_linkTupleUpdated link willingness n
  · rfl

theorem keeps_updateIf (updated : Bool) (willingness : Octet) (link : LinkTuple)
    (n : RoutingProtocol) : nodeViews.Keeps [.neighbors, .ansn] n
      (if updated then n.linkTupleUpdated link willingness else n) := by
  split
  · exact n.keeps_linkTupleUpdated link willingness
  · exact Keeps.refl _ n

/-- **Link sensing** stores the link, and its node becomes a neighbour. -/
theorem NeighborsMatch.storeLink (h : n.NeighborsMatch) {link : LinkTuple} {created updated : Bool}
    (hcreated : created = (n.state.findLinkTuple link.neighborIfaceAddr).isNone)
    (willingness : Octet) : (n.storeLink created updated willingness link).NeighborsMatch := by
  have hmain (a : Ipv4Address) :
      (n.storeLink created updated willingness link).getMainAddress a = n.getMainAddress a :=
    getMainAddress_of_keeps (n.keeps_storeLink _ _ _ _) (by simp) a
  have hmem := mem_linkIfaces_iff link.neighborIfaceAddr n
  cases created with
  | true =>
    have hnew : link.neighborIfaceAddr ∉ n.linkIfaces := by
      rw [hmem, isNone_iff_eq_none.mp hcreated.symm]
      simp
    let stored : RoutingProtocol := n.withState (·.insertLinkTuple link)
    let sensed : RoutingProtocol :=
      if updated then stored.linkTupleUpdated link willingness else stored
    have hsensed := keeps_updateIf updated willingness link stored
    have hsensed_main (a : Ipv4Address) : sensed.getMainAddress a = n.getMainAddress a :=
      getMainAddress_of_keeps hsensed (by simp) a
    refine h.addLink link.neighborIfaceAddr ?_ ?_ hmain
    · -- the neighbour is there already when the link counts as updated
      show (sensed.addNeighborTuple _).neighborMains = _
      rw [neighborMains_addNeighborTuple]
      show addNew (sensed.getMainAddress link.neighborIfaceAddr) sensed.neighborMains = _
      rw [hsensed_main, neighborMains_updateIf updated willingness link stored]
      split
      · exact addNew_of_mem (mem_addNew.mpr (Or.inr rfl))
      · rfl
    · show (sensed.addNeighborTuple _).linkIfaces = _
      rw [linkIfaces_of_keeps (keeps_addNeighborTuple _ _) (by simp),
        linkIfaces_of_keeps hsensed (by simp)]
      unfold addNew
      rw [if_neg hnew]
      exact List.map_append
  | false =>
    have hthere : link.neighborIfaceAddr ∈ n.linkIfaces := by
      rw [hmem, ← not_isNone, ← hcreated]
      rfl
    let stored : RoutingProtocol := n.withState (·.writeLinkTuple link)
    have hsensed := keeps_updateIf updated willingness link stored
    refine h.addLink link.neighborIfaceAddr ?_ ?_ hmain
    · show (if updated then stored.linkTupleUpdated link willingness else stored).neighborMains = _
      rw [neighborMains_updateIf updated willingness link stored]
      split
      · rfl
      · exact (addNew_of_mem ((h.iff _).mpr ⟨_, hthere, rfl⟩)).symm
    · show (if updated then stored.linkTupleUpdated link willingness else stored).linkIfaces = _
      rw [linkIfaces_of_keeps hsensed (by simp), addNew_of_mem hthere]
      exact map_updateFirst fun t ht => (beq_iff_eq.mp ht).symm

/-- Sensing does not change where the link leads to. -/
theorem neighborIfaceAddr_senseLinkMessage (vTime : ℤ) (receiverIface : Ipv4Address)
    (sensed : Sensed) (linkMessage : LinkMessage) :
    Post (senseLinkMessage vTime receiverIface n sensed linkMessage) fun s =>
      s.link.neighborIfaceAddr = sensed.link.neighborIfaceAddr := by
  unfold senseLinkMessage
  dsimp only
  split
  · rfl
  · split
    · cases linkMessage.linkType <;> trivial
    · rfl

theorem NeighborsMatch.linkSensing (h : n.NeighborsMatch) (msg : MessageHeader) (hello : Hello)
    (receiverIface senderIface : Ipv4Address) :
    Post (n.linkSensing msg hello receiverIface senderIface) NeighborsMatch := by
  have hsender : (n.sensedLink msg.getVTime receiverIface senderIface).neighborIfaceAddr
      = senderIface := by
    unfold sensedLink
    dsimp only
    cases hfound : n.state.findLinkTuple senderIface with
    | none => rfl
    | some t =>
      have hkey := List.find?_some hfound
      exact beq_iff_eq.mp hkey
  have hloop : Post (hello.linkMessages.foldlM (senseLinkMessage msg.getVTime receiverIface n)
      ⟨n.sensedLink msg.getVTime receiverIface senderIface,
        !(n.state.findLinkTuple senderIface).isNone⟩)
      fun s => s.link.neighborIfaceAddr = senderIface := by
    refine wp_foldlM (fun s : Sensed => s.link.neighborIfaceAddr = senderIface) _ _ _ ?_ _ hsender
    intro s linkMessage _ hs
    exact (neighborIfaceAddr_senseLinkMessage _ _ s linkMessage).imp fun s' hs' => hs'.trans hs
  unfold RoutingProtocol.linkSensing
  refine hloop.bind fun s hs => ?_
  exact h.storeLink (by rw [← hs]; rfl) hello.willingness

/-! ## Links are removed -/

/-- A link is removed together with its node, if no other link leads to it. -/
theorem NeighborsMatch.removeLinkTuple (h : n.NeighborsMatch) {tuple : LinkTuple}
    (hmem : tuple ∈ n.state.linkSet)
    (honly : ∀ l ∈ n.state.linkSet, l.neighborIfaceAddr ≠ tuple.neighborIfaceAddr →
      n.getMainAddress l.neighborIfaceAddr ≠ n.getMainAddress tuple.neighborIfaceAddr) :
    (n.removeLinkTuple tuple).NeighborsMatch := by
  have hneighbor : n.getMainAddress tuple.neighborIfaceAddr ∈ n.neighborMains :=
    (h.iff _).mpr ⟨_, List.mem_map_of_mem hmem, rfl⟩
  obtain ⟨nb, hnb, hnb_main⟩ := List.mem_map.mp hneighbor
  have hlink (l : LinkTuple) : l ∈ (n.removeLinkTuple tuple).state.linkSet ↔
      l ∈ n.state.linkSet ∧ l.neighborIfaceAddr ≠ tuple.neighborIfaceAddr := by
    apply mem_eraseP_iff h.links hmem
    · simp [LinkTuple.same]
    · intro l _ hl
      simp only [LinkTuple.same, Bool.and_eq_true, beq_iff_eq] at hl
      exact hl.2
  have hmains (t : NeighborTuple) : t ∈ (n.removeLinkTuple tuple).state.neighborSet ↔
      t ∈ n.state.neighborSet ∧ t.neighborMainAddr ≠ nb.neighborMainAddr := by
    apply mem_eraseP_iff h.distinct hnb
    · simpa using hnb_main
    · intro t _ ht
      exact (beq_iff_eq.mp ht).trans hnb_main.symm
  exact {
    distinct := h.distinct.sublist (List.eraseP_sublist.map _)
    links := h.links.sublist (List.eraseP_sublist.map _)
    iff := fun a => by
      constructor
      · intro ha
        obtain ⟨t, ht, rfl⟩ := List.mem_map.mp ha
        obtain ⟨ht, hne⟩ := (hmains t).mp ht
        obtain ⟨iface, hi, heq⟩ := (h.iff _).mp (List.mem_map_of_mem ht)
        obtain ⟨l, hl, rfl⟩ := List.mem_map.mp hi
        refine ⟨l.neighborIfaceAddr, List.mem_map_of_mem ((hlink l).mpr ⟨hl, ?_⟩), heq⟩
        intro hiface
        exact hne (heq.symm.trans ((congrArg _ hiface).trans hnb_main.symm))
      · rintro ⟨iface, hi, rfl⟩
        obtain ⟨l, hl, rfl⟩ := List.mem_map.mp hi
        obtain ⟨hl, hne⟩ := (hlink l).mp hl
        have hmain : n.getMainAddress l.neighborIfaceAddr ∈ n.neighborMains :=
          (h.iff _).mpr ⟨_, List.mem_map_of_mem hl, rfl⟩
        obtain ⟨t, ht, heq⟩ := List.mem_map.mp hmain
        refine List.mem_map.mpr ⟨t, (hmains t).mpr ⟨ht, ?_⟩, heq⟩
        exact fun h' => honly l hl hne (heq.symm.trans (h'.trans hnb_main)) }

/-- The loss of a neighbour keeps its tuple. -/
theorem NeighborsMatch.neighborLoss (h : n.NeighborsMatch) {tuple : LinkTuple}
    (hmem : tuple ∈ n.state.linkSet) : Post (n.neighborLoss tuple) NeighborsMatch := by
  have hneighbor : n.getMainAddress tuple.neighborIfaceAddr ∈ n.neighborMains :=
    (h.iff _).mpr ⟨_, List.mem_map_of_mem hmem, rfl⟩
  have hupdated : (n.linkTupleUpdated tuple willDefault).NeighborsMatch := by
    have hkeeps := n.keeps_linkTupleUpdated tuple willDefault
    refine h.of_eq ?_ (linkIfaces_of_keeps hkeeps (by simp))
      fun a _ => getMainAddress_of_keeps hkeeps (by simp) a
    rw [neighborMains_linkTupleUpdated, addNew_of_mem hneighbor]
  unfold RoutingProtocol.neighborLoss
  refine (touches_mprComputation _).imp fun m hm => ?_
  have herased (mainAddr : Ipv4Address) :
      ((n.linkTupleUpdated tuple willDefault).withState fun s =>
        (s.eraseTwoHopNeighborTuples mainAddr).eraseMprSelectorTuples mainAddr).NeighborsMatch :=
    hupdated.of_eq rfl rfl fun _ _ => rfl
  exact (herased _).of_keeps hm (by simp)

/-! ## Interface associations -/

/-- The main address of an interface once a MID message has been stored. -/
def mainAfter (msg : MessageHeader) (addrs : List Ipv4Address) (n : RoutingProtocol)
    (a : Ipv4Address) : Ipv4Address :=
  match n.state.findIfaceAssocTuple a with
  | some t => t.mainAddr
  | none => if a ∈ addrs then msg.originatorAddress else a

/-- What one interface of a MID message does to the associations. -/
theorem findIfaceAssocTuple_associateIface (msg : MessageHeader) (addr a : Ipv4Address)
    (n : RoutingProtocol) :
    ((n.associateIface msg addr).state.findIfaceAssocTuple a).map (·.mainAddr)
      = ((n.state.findIfaceAssocTuple a).map (·.mainAddr)).or
          (if a = addr then some msg.originatorAddress else none) := by
  unfold associateIface
  dsimp only
  split
  · rename_i hlisted
    obtain ⟨t, ht, hkey⟩ := List.any_eq_true.mp hlisted
    rw [Bool.and_eq_true, beq_iff_eq, beq_iff_eq] at hkey
    have hmap : ((n.withState fun s =>
        { s with ifaceAssocSet := s.ifaceAssocSet.map fun t =>
            if (t.ifaceAddr == addr && t.mainAddr == msg.originatorAddress) = true then
              { t with time := n.now + msg.getVTime } else t }).state.findIfaceAssocTuple a).map
          (·.mainAddr) = (n.state.findIfaceAssocTuple a).map (·.mainAddr) := by
      show ((List.map _ n.state.ifaceAssocSet).find? _).map _ = _
      rw [List.find?_map, map_map]
      -- neither the interfaces nor the main addresses change
      have hpred : ((fun t : IfaceAssocTuple => t.ifaceAddr == a) ∘ fun t =>
          if (t.ifaceAddr == addr && t.mainAddr == msg.originatorAddress) = true then
            { t with time := n.now + msg.getVTime } else t)
          = fun t : IfaceAssocTuple => t.ifaceAddr == a := by
        funext t
        simp only [Function.comp_apply]
        split <;> rfl
      rw [hpred]
      congr 1
      funext t
      simp only [Function.comp_apply]
      split <;> rfl
    refine hmap.trans ?_
    by_cases ha : a = addr
    · have hfound : (n.state.findIfaceAssocTuple a).isSome = true :=
        List.find?_isSome.mpr ⟨t, ht, by simp [ha, hkey.1]⟩
      obtain ⟨u, hu⟩ := isSome_iff_exists.mp hfound
      rw [hu]
      rfl
    · rw [if_neg ha, or_none]
  · show ((n.state.ifaceAssocSet ++ [_]).find? _).map _ = _
    rw [List.find?_append]
    unfold OlsrState.findIfaceAssocTuple
    cases List.find? (fun t : IfaceAssocTuple => t.ifaceAddr == a) n.state.ifaceAssocSet with
    | some t => rfl
    | none =>
      by_cases ha : a = addr
      · simp [ha]
      · simp [ha, Ne.symm ha]

theorem getMainAddress_eq (n : RoutingProtocol) (a : Ipv4Address) :
    n.getMainAddress a = ((n.state.findIfaceAssocTuple a).map (·.mainAddr)).getD a := by
  unfold getMainAddress OlsrState.getMainAddress
  cases n.state.findIfaceAssocTuple a <;> rfl

/-- The main addresses after all interfaces of a MID message. -/
theorem getMainAddress_associate (msg : MessageHeader) (addrs : List Ipv4Address)
    (n : RoutingProtocol) (a : Ipv4Address) :
    (addrs.foldl (associateIface msg) n).getMainAddress a = n.mainAfter msg addrs a := by
  have hloop : ((addrs.foldl (associateIface msg) n).state.findIfaceAssocTuple a).map (·.mainAddr)
      = ((n.state.findIfaceAssocTuple a).map (·.mainAddr)).or
          (if a ∈ addrs then some msg.originatorAddress else none) := by
    induction addrs generalizing n with
    | nil => simp
    | cons addr addrs ih =>
      rw [List.foldl_cons, ih, findIfaceAssocTuple_associateIface, Option.or_assoc]
      congr 1
      by_cases h₁ : a = addr
      · simp [h₁]
      · simp [h₁]
  rw [getMainAddress_eq, hloop]
  unfold mainAfter
  cases n.state.findIfaceAssocTuple a with
  | some t => rfl
  | none =>
    by_cases h : a ∈ addrs
    · simp [h]
    · simp [h]

/-- **A MID message** renames neighbours and links alike, if no two neighbours get the same
name. -/
theorem NeighborsMatch.processMid (h : n.NeighborsMatch) {msg : MessageHeader}
    {addrs : List Ipv4Address} (hdistinct : (n.neighborMains.map (n.mainAfter msg addrs)).Nodup)
    (hlinked : ∀ iface ∈ n.linkIfaces,
      n.mainAfter msg addrs (n.getMainAddress iface) = n.mainAfter msg addrs iface) :
    (addrs.foldl (associateIface msg) n).renameNeighbors.NeighborsMatch := by
  have hkeeps := n.keeps_foldl _ (fun m addr => m.keeps_associateIface msg addr) addrs
  have hmain (a : Ipv4Address) :
      (addrs.foldl (associateIface msg) n).getMainAddress a = n.mainAfter msg addrs a :=
    getMainAddress_associate msg addrs n a
  have hmains : (addrs.foldl (associateIface msg) n).renameNeighbors.neighborMains
      = n.neighborMains.map (n.mainAfter msg addrs) := by
    have hset : (addrs.foldl (associateIface msg) n).state.neighborSet = n.state.neighborSet :=
      hkeeps .neighbors (by simp)
    unfold renameNeighbors withState neighborMains
    rw [List.map_map, List.map_map, hset]
    exact List.map_congr_left fun t _ => hmain _
  have hlinks : (addrs.foldl (associateIface msg) n).renameNeighbors.linkIfaces = n.linkIfaces :=
    (linkIfaces_of_keeps (keeps_renameNeighbors _) (by simp)).trans
      (linkIfaces_of_keeps hkeeps (by simp))
  exact {
    distinct := hmains ▸ hdistinct
    links := hlinks ▸ h.links
    iff := fun a => by
      rw [hmains, hlinks, List.mem_map]
      constructor
      · rintro ⟨b, hb, rfl⟩
        obtain ⟨iface, hi, rfl⟩ := (h.iff b).mp hb
        exact ⟨iface, hi, (hmain iface).trans (hlinked iface hi).symm⟩
      · rintro ⟨iface, hi, rfl⟩
        refine ⟨n.getMainAddress iface, (h.iff _).mpr ⟨iface, hi, rfl⟩, ?_⟩
        exact (hlinked iface hi).trans (hmain iface).symm }

end Ns3Dsme.Olsr.RoutingProtocol
