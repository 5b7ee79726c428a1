/-
# The routes to associated networks

The end of `RoutingTableComputation`: the routes to the networks that gateways announce are taken
from the association set.  The loop that clears the table of these routes stops half-way.
-/
import Ns3Dsme.Olsr.RoutingTable
import Ns3Dsme.Lib.Selection
import Mathlib.Data.List.Perm.Basic
import Mathlib.Order.OrderDual

open Bool List Selection

namespace Ns3Dsme.Olsr

/-- A route of `m_hnaRoutingTable`, with its metric. -/
structure HnaRoute where
  destNetwork : Ipv4Address
  destNetworkMask : Ipv4Mask
  gateway : Ipv4Address
  interface : ℕ
  metric : ℕ
  deriving DecidableEq

namespace HnaRoute

/-- The route leads to this network. -/
def isTo (network : Ipv4Address) (mask : Ipv4Mask) (route : HnaRoute) : Bool :=
  route.destNetwork == network && route.destNetworkMask == mask

/-- `LookupRoute` compares all fields. -/
def same (a b : HnaRoute) : Bool :=
  a.destNetwork == b.destNetwork && a.destNetworkMask == b.destNetworkMask &&
    a.gateway == b.gateway && a.interface == b.interface && a.metric == b.metric

end HnaRoute

/-- `AddNetworkRouteTo`. -/
def addNetworkRouteTo (route : HnaRoute) (hna : List HnaRoute) : List HnaRoute :=
  if hna.any fun r => r.same route then hna else hna ++ [route]

/-- The loop that clears the table: the first route is removed as long as `i` is less than the
number of routes, which goes down while `i` goes up. -/
def clearHnaRoutes (i : ℕ) : List HnaRoute → List HnaRoute
  | [] => []
  | route :: rest =>
    if i < (route :: rest).length then clearHnaRoutes (i + 1) rest else route :: rest

namespace RoutingProtocol

variable (n : RoutingProtocol)

/-- This node announces the network itself. -/
def announces (tuple : AssociationTuple) : Bool :=
  n.state.associations.any fun assoc =>
    assoc.networkAddr == tuple.networkAddr && assoc.netmask == tuple.netmask

/-- The route that the entry of the gateway gives. -/
def gatewayRoute (tuple : AssociationTuple) (gatewayEntry : RoutingTableEntry) : HnaRoute :=
  ⟨tuple.networkAddr, tuple.netmask, gatewayEntry.nextAddr, gatewayEntry.interface,
    gatewayEntry.distance⟩

/-- 5. The route of a tuple of the association set.  A route to the same network is replaced where
its metric is greater. -/
def addHnaRoute (table : RoutingTable) (hna : List HnaRoute) (tuple : AssociationTuple) :
    List HnaRoute :=
  if n.announces tuple then hna
  else
    match table tuple.gatewayAddr with
    | none => hna
    | some gatewayEntry =>
      match hna.find? (·.isTo tuple.networkAddr tuple.netmask) with
      | none => addNetworkRouteTo (gatewayRoute tuple gatewayEntry) hna
      | some route =>
        if route.metric > gatewayEntry.distance then
          addNetworkRouteTo (gatewayRoute tuple gatewayEntry)
            (hna.eraseP (·.isTo tuple.networkAddr tuple.netmask))
        else hna

/-- 5. The routes to the networks of the association set. -/
def hnaComputation (table : RoutingTable) (hna : List HnaRoute) : List HnaRoute :=
  n.state.associationSet.foldl (n.addHnaRoute table) (clearHnaRoutes 0 hna)

/-- `RoutingTableComputation`, of both tables. -/
def computeTables (ipv4 : List (List Ipv4Address)) (hna : List HnaRoute) :
    Except RoutingFault (RoutingTable × List HnaRoute) :=
  (n.routingTableComputation ipv4).map fun table => (table, n.hnaComputation table hna)

/-! ## What is expected -/

/-- The route of a gateway in the routing table, to a network that this node does not announce. -/
def Offers (table : RoutingTable) (route : HnaRoute) : Prop :=
  ∃ tuple ∈ n.state.associationSet, n.announces tuple = false ∧
    ∃ gatewayEntry, table tuple.gatewayAddr = some gatewayEntry ∧
      route = gatewayRoute tuple gatewayEntry

/-- The route of a gateway at minimal distance. -/
structure OffersBest (table : RoutingTable) (route : HnaRoute) : Prop where
  offers : n.Offers table route
  best : ∀ other, n.Offers table other →
    other.isTo route.destNetwork route.destNetworkMask = true → route.metric ≤ other.metric

/-- One route to each network that is to be reached, and no other route. -/
structure HnaRoutesExact (table : RoutingTable) (hna : List HnaRoute) : Prop where
  one : ∀ network mask, (∃ route, n.Offers table route ∧ route.isTo network mask = true) →
    ∃ route, hna.filter (·.isTo network mask) = [route] ∧ n.OffersBest table route
  only : ∀ route ∈ hna, ∃ other, n.Offers table other ∧
    other.isTo route.destNetwork route.destNetworkMask = true

/-- The routes that are not removed: the second half. -/
def leftOver (hna : List HnaRoute) : List HnaRoute := hna.drop ((hna.length + 1) / 2)

/-- A route that is not removed is replaced by a nearer gateway, or it is the route of a gateway at
minimal distance. -/
def Settles (table : RoutingTable) (route : HnaRoute) : Prop :=
  (∃ other, n.Offers table other ∧
    other.isTo route.destNetwork route.destNetworkMask = true ∧ other.metric < route.metric) ∨
  n.OffersBest table route

end RoutingProtocol

/-! ## The table as a fold -/

/-- The network of a route. -/
def HnaRoute.network (route : HnaRoute) : Ipv4Address × Ipv4Mask :=
  (route.destNetwork, route.destNetworkMask)

theorem HnaRoute.isTo_iff {network : Ipv4Address} {mask : Ipv4Mask} {route : HnaRoute} :
    route.isTo network mask = true ↔ route.network = (network, mask) := by
  unfold HnaRoute.isTo HnaRoute.network
  rw [and_eq_true, beq_iff_eq, beq_iff_eq, Prod.mk.injEq]

theorem HnaRoute.isTo_eq (network : Ipv4Address) (mask : Ipv4Mask) :
    HnaRoute.isTo network mask = fun route => decide (route.network = (network, mask)) := by
  funext route
  rw [Bool.eq_iff_iff, HnaRoute.isTo_iff, decide_eq_true_iff]

theorem HnaRoute.same_iff {a b : HnaRoute} : a.same b = true ↔ a = b := by
  unfold HnaRoute.same
  rw [and_eq_true, and_eq_true, and_eq_true, and_eq_true, beq_iff_eq,
    beq_iff_eq, beq_iff_eq, beq_iff_eq, beq_iff_eq, HnaRoute.mk.injEq]
  constructor
  · rintro ⟨⟨⟨⟨h₁, h₂⟩, h₃⟩, h₄⟩, h₅⟩
    exact ⟨h₁, h₂, h₃, h₄, h₅⟩
  · rintro ⟨h₁, h₂, h₃, h₄, h₅⟩
    exact ⟨⟨⟨⟨h₁, h₂⟩, h₃⟩, h₄⟩, h₅⟩

/-- A smaller metric is better. -/
def HnaRoute.rank (route : HnaRoute) : ℕᵒᵈ := OrderDual.toDual route.metric

theorem addNetworkRouteTo_eq (route : HnaRoute) (hna : List HnaRoute) :
    addNetworkRouteTo route hna = KeyedList.addNew route hna := by
  unfold addNetworkRouteTo KeyedList.addNew
  by_cases hmem : route ∈ hna
  · rw [if_pos hmem, if_pos]
    exact any_eq_true.mpr ⟨route, hmem, HnaRoute.same_iff.mpr rfl⟩
  · rw [if_neg hmem, if_neg]
    intro hany
    obtain ⟨r, hr, hsame⟩ := any_eq_true.mp hany
    rw [HnaRoute.same_iff.mp hsame] at hr
    exact hmem hr

/-- **Half of the routes are removed.** -/
theorem clearHnaRoutes_eq (i : ℕ) (hna : List HnaRoute) :
    clearHnaRoutes i hna = hna.drop ((hna.length - i + 1) / 2) := by
  induction hna generalizing i with
  | nil => exact drop_nil.symm
  | cons route rest ih =>
    unfold clearHnaRoutes
    split
    · rename_i hless
      rw [length_cons] at hless
      have hcount : ((route :: rest).length - i + 1) / 2 = (rest.length - (i + 1) + 1) / 2 + 1 := by
        rw [length_cons]
        omega
      rw [ih, hcount, drop_succ_cons]
    · rename_i hnot
      have hnone : ((route :: rest).length - i + 1) / 2 = 0 := by omega
      rw [hnone, drop_zero]

namespace RoutingProtocol

variable {n : RoutingProtocol} {table : RoutingTable} {hna : List HnaRoute}

/-- The route that a tuple offers. -/
def offeredRoute (n : RoutingProtocol) (table : RoutingTable) (tuple : AssociationTuple) :
    Option HnaRoute :=
  if n.announces tuple then none else (table tuple.gatewayAddr).map (gatewayRoute tuple)

/-- The routes that are offered, in the order of the association set. -/
def offeredRoutes (n : RoutingProtocol) (table : RoutingTable) : List HnaRoute :=
  n.state.associationSet.filterMap (n.offeredRoute table)

theorem mem_offeredRoutes {route : HnaRoute} :
    route ∈ n.offeredRoutes table ↔ n.Offers table route := by
  unfold offeredRoutes Offers offeredRoute
  rw [mem_filterMap]
  constructor
  · rintro ⟨tuple, htuple, hroute⟩
    split at hroute
    · cases hroute
    · rename_i hnot
      obtain ⟨gatewayEntry, hentry, rfl⟩ := Option.map_eq_some_iff.mp hroute
      exact ⟨tuple, htuple, eq_false_iff.mpr hnot, gatewayEntry, hentry, rfl⟩
  · rintro ⟨tuple, htuple, hnot, gatewayEntry, hentry, rfl⟩
    refine ⟨tuple, htuple, ?_⟩
    rw [if_neg (eq_false_iff.mp hnot), hentry]
    rfl

theorem addHnaRoute_eq (hna : List HnaRoute) (tuple : AssociationTuple) :
    n.addHnaRoute table hna tuple =
      match n.offeredRoute table tuple with
      | some route => offer HnaRoute.network HnaRoute.rank hna route
      | none => hna := by
  unfold addHnaRoute offeredRoute
  split
  · rfl
  · cases table tuple.gatewayAddr with
    | none => rfl
    | some gatewayEntry =>
      have hnetwork : (gatewayRoute tuple gatewayEntry).network =
          (tuple.networkAddr, tuple.netmask) := rfl
      rw [Option.map_some]
      dsimp only
      unfold offer
      simp only [addNetworkRouteTo_eq, HnaRoute.isTo_eq, hnetwork]
      cases hna.find? fun route => decide (route.network = (tuple.networkAddr, tuple.netmask)) with
      | none => rfl
      | some route =>
        dsimp only
        by_cases hnearer : route.metric > gatewayEntry.distance
        · rw [if_pos hnearer, if_pos]
          exact hnearer
        · rw [if_neg hnearer, if_neg]
          exact hnearer

/-- **Every tuple offers its route**, to the routes that are left over. -/
theorem hnaComputation_eq (hna : List HnaRoute) :
    n.hnaComputation table hna =
      (n.offeredRoutes table).foldl (offer HnaRoute.network HnaRoute.rank) (leftOver hna) := by
  unfold hnaComputation offeredRoutes leftOver
  rw [clearHnaRoutes_eq, Nat.sub_zero, foldl_filterMap]
  refine foldl_ext _ _ _ fun hna tuple _ => ?_
  rw [addHnaRoute_eq]
  cases n.offeredRoute table tuple with
  | none => rfl
  | some route => rfl

/-! ## What becomes of the routes to one network -/

section Network

variable {network : Ipv4Address} {mask : Ipv4Mask}

/-- The routes to a network that are left over or offered. -/
def contenders (n : RoutingProtocol) (table : RoutingTable) (hna : List HnaRoute)
    (network : Ipv4Address) (mask : Ipv4Mask) : List HnaRoute :=
  ((leftOver hna).find? (·.isTo network mask)).toList ++
    (n.offeredRoutes table).filter (·.isTo network mask)

/-- Where one route to each network is left over, one is kept: the first one of those with the
smallest metric. -/
theorem filter_hnaComputation (h : ((leftOver hna).map HnaRoute.network).Nodup) :
    (n.hnaComputation table hna).filter (·.isTo network mask) =
      ((n.contenders table hna network mask).foldl (keep HnaRoute.rank) none).toList := by
  have hfold : ((n.hnaComputation table hna).map HnaRoute.network).Nodup ∧
      (n.hnaComputation table hna).find? (fun r => decide (r.network = (network, mask))) =
        ((n.offeredRoutes table).filter fun r => decide (r.network = (network, mask))).foldl
          (keep HnaRoute.rank)
          ((leftOver hna).find? fun r => decide (r.network = (network, mask))) := by
    rw [hnaComputation_eq]
    exact find?_foldl_offer h (n.offeredRoutes table)
  obtain ⟨hnodup, hfind⟩ := hfold
  unfold contenders
  rw [← foldl_keep_toList, HnaRoute.isTo_eq, ← hfind]
  exact filter_key_eq_toList hnodup

theorem mem_contenders {route : HnaRoute} (h : route ∈ n.contenders table hna network mask) :
    route.network = (network, mask) ∧ (route ∈ leftOver hna ∨ n.Offers table route) := by
  rcases mem_append.mp h with hleft | hoffered
  · have hfind := Option.mem_toList.mp hleft
    exact ⟨HnaRoute.isTo_iff.mp (List.find?_some hfind), Or.inl (mem_of_find?_eq_some hfind)⟩
  · obtain ⟨hmem, hto⟩ := mem_filter.mp hoffered
    exact ⟨HnaRoute.isTo_iff.mp hto, Or.inr (mem_offeredRoutes.mp hmem)⟩

theorem mem_contenders_of_offers {route : HnaRoute} (h : n.Offers table route)
    (hto : route.isTo network mask = true) : route ∈ n.contenders table hna network mask :=
  mem_append_right _ (mem_filter.mpr ⟨mem_offeredRoutes.mpr h, hto⟩)

/-- A network with contenders has a route, which is the first one of the nearest. -/
theorem exists_kept (h : ((leftOver hna).map HnaRoute.network).Nodup)
    (hne : n.contenders table hna network mask ≠ []) :
    ∃ route, (n.hnaComputation table hna).filter (·.isTo network mask) = [route] ∧
      IsFirst (Top HnaRoute.rank (n.contenders table hna network mask))
        (n.contenders table hna network mask) route := by
  rw [filter_hnaComputation h]
  cases hkept : (n.contenders table hna network mask).foldl (keep HnaRoute.rank) none with
  | none => exact absurd (foldl_keep_eq_none hkept) hne
  | some route => exact ⟨route, rfl, isFirst_foldl_keep _ hkept⟩

end Network

/-- The metric of the nearest contender. -/
theorem metric_le {xs : List HnaRoute} {route other : HnaRoute} (h : Top HnaRoute.rank xs route)
    (hother : other ∈ xs) : route.metric ≤ other.metric := h other hother

/-! ## When the routes are exact -/

/-- What is left over does not stay where it should not. -/
theorem hnaRoutesExact_of_settles (h : ((leftOver hna).map HnaRoute.network).Nodup)
    (hsettles : ∀ route ∈ leftOver hna, n.Settles table route) :
    n.HnaRoutesExact table (n.hnaComputation table hna) := by
  constructor
  · rintro network mask ⟨offered, hoffers, hto⟩
    have hmem : offered ∈ n.contenders table hna network mask := mem_contenders_of_offers hoffers hto
    obtain ⟨route, hfilter, hfirst⟩ := exists_kept h (ne_nil_of_mem hmem)
    obtain ⟨hnetwork, hcases⟩ := mem_contenders hfirst.mem
    have hbest : ∀ other, n.Offers table other → other.isTo network mask = true →
        route.metric ≤ other.metric := fun other hother hother' =>
      metric_le hfirst.holds (mem_contenders_of_offers hother hother')
    obtain ⟨rfl, rfl⟩ := Prod.mk.inj hnetwork
    refine ⟨route, hfilter, ?_⟩
    rcases hcases with hleft | hoffer
    · rcases hsettles route hleft with ⟨other, hother, hother', hless⟩ | hoffersBest
      · exact absurd (hbest other hother hother') (Nat.not_le_of_gt hless)
      · exact hoffersBest
    · exact ⟨hoffer, hbest⟩
  · intro route hroute
    have hself : route.isTo route.destNetwork route.destNetworkMask = true :=
      HnaRoute.isTo_iff.mpr rfl
    have hkept : route ∈ (n.hnaComputation table hna).filter
        (·.isTo route.destNetwork route.destNetworkMask) := mem_filter.mpr ⟨hroute, hself⟩
    have hne : n.contenders table hna route.destNetwork route.destNetworkMask ≠ [] := by
      intro hnil
      rw [filter_hnaComputation h, hnil] at hkept
      cases hkept
    obtain ⟨kept, hfilter, hfirst⟩ := exists_kept h hne
    rw [hfilter] at hkept
    cases mem_singleton.mp hkept
    rcases (mem_contenders hfirst.mem).2 with hleft | hoffer
    · rcases hsettles route hleft with ⟨other, hother, hother', -⟩ | hoffersBest
      · exact ⟨other, hother, hother'⟩
      · exact ⟨route, hoffersBest.offers, hself⟩
    · exact ⟨route, hoffer, hself⟩

/-- What stays where it should not makes the routes wrong. -/
theorem settles_of_hnaRoutesExact (h : ((leftOver hna).map HnaRoute.network).Nodup)
    (hexact : n.HnaRoutesExact table (n.hnaComputation table hna)) :
    ∀ route ∈ leftOver hna, n.Settles table route := by
  intro route hleft
  have hself : route.isTo route.destNetwork route.destNetworkMask = true :=
    HnaRoute.isTo_iff.mpr rfl
  by_cases hnearer : ∃ other, n.Offers table other ∧
      other.isTo route.destNetwork route.destNetworkMask = true ∧ other.metric < route.metric
  · exact Or.inl hnearer
  · right
    -- the route is the first contender, and no other one is nearer
    have hfind : (leftOver hna).find? (·.isTo route.destNetwork route.destNetworkMask) =
        some route := by
      have hmem := mem_filter.mpr ⟨hleft, hself⟩
      rw [HnaRoute.isTo_eq] at hmem ⊢
      rw [filter_key_eq_toList h] at hmem
      exact Option.mem_toList.mp hmem
    have hcontenders : n.contenders table hna route.destNetwork route.destNetworkMask =
        route :: (n.offeredRoutes table).filter
          (·.isTo route.destNetwork route.destNetworkMask) := by
      unfold contenders
      rw [hfind]
      rfl
    have hfirst : IsFirst (Top HnaRoute.rank
        (n.contenders table hna route.destNetwork route.destNetworkMask))
        (n.contenders table hna route.destNetwork route.destNetworkMask) route := by
      rw [hcontenders]
      refine .head fun other hother => ?_
      rcases mem_cons.mp hother with rfl | hother
      · exact le_refl _
      · obtain ⟨hmem, hto⟩ := mem_filter.mp hother
        refine Nat.le_of_not_lt fun hless => hnearer ⟨other, ?_, hto, hless⟩
        exact mem_offeredRoutes.mp hmem
    -- so it stays, and it has to be right
    have hsome : n.contenders table hna route.destNetwork route.destNetworkMask ≠ [] :=
      ne_nil_of_mem hfirst.mem
    obtain ⟨kept, hfilter, hkept⟩ := exists_kept h hsome
    cases hkept.unique hfirst
    have hroute : route ∈ n.hnaComputation table hna :=
      (mem_filter.mp (hfilter ▸ mem_singleton_self route)).1
    obtain ⟨other, hother, hother'⟩ := hexact.only route hroute
    obtain ⟨best, hbest, hoffersBest⟩ := hexact.one _ _ ⟨other, hother, hother'⟩
    rw [hfilter] at hbest
    cases hbest
    exact hoffersBest

/-- A table with one route to each network is kept so. -/
theorem nodup_hnaComputation (h : (hna.map HnaRoute.network).Nodup) :
    ((n.hnaComputation table hna).map HnaRoute.network).Nodup := by
  rw [hnaComputation_eq]
  have hleft : ((leftOver hna).map HnaRoute.network).Nodup :=
    h.sublist ((drop_sublist _ _).map _)
  exact (find?_foldl_offer (k := (0, 0)) hleft (n.offeredRoutes table)).1

end RoutingProtocol

open RoutingProtocol in
/-- **The routes to associated networks are rebuilt exactly** where what the loop leaves over is
replaced or right, and, as long as it is one route to each network, nowhere else. -/
theorem RoutingProtocol.hnaRoutesExact_iff (n : RoutingProtocol) (ipv4 : List (List Ipv4Address))
    (old : List HnaRoute) (table : RoutingTable) (hna : List HnaRoute)
    (h : n.computeTables ipv4 old = .ok (table, hna)) :
    (((leftOver old).map HnaRoute.network).Nodup ∧ (∀ route ∈ leftOver old, n.Settles table route) →
      n.HnaRoutesExact table hna) ∧
    (((leftOver old).map HnaRoute.network).Nodup → n.HnaRoutesExact table hna →
      ∀ route ∈ leftOver old, n.Settles table route) ∧
    ((old.map HnaRoute.network).Nodup → (hna.map HnaRoute.network).Nodup) := by
  unfold computeTables at h
  cases hroutes : n.routingTableComputation ipv4 with
  | error f =>
    rw [hroutes] at h
    cases h
  | ok routes =>
    rw [hroutes] at h
    cases h
    refine ⟨?_, ?_, ?_⟩
    · rintro ⟨hnodup, hsettles⟩
      exact hnaRoutesExact_of_settles hnodup hsettles
    · intro hnodup hexact
      exact settles_of_hnaRoutesExact hnodup hexact
    · intro hnodup
      exact nodup_hnaComputation hnodup

/-- A node with one neighbour, which is a gateway. -/
def sampleGateway : RoutingProtocol where
  mainAddress := 1
  helloInterval := seconds 2
  topHoldVTime := 0
  state :=
    { neighborSet := [⟨5, .sym, willDefault⟩]
      linkSet := [⟨1, 5, 0, 0, 0⟩]
      associationSet := [⟨5, 0x0a000000, 0xff000000, 0⟩] }

/-- Two old routes, of which the second one is replaced. -/
def sampleOldRoutes : List HnaRoute :=
  [⟨0x0b000000, 0xff000000, 5, 0, 1⟩, ⟨0x0a000000, 0xff000000, 7, 0, 3⟩]

theorem RoutingProtocol.hnaRoutesExact_iff_sample :
    ∃ table, sampleGateway.computeTables [[1]] sampleOldRoutes =
        .ok (table, [⟨0x0a000000, 0xff000000, 5, 0, 1⟩]) ∧
      sampleGateway.HnaRoutesExact table [⟨0x0a000000, 0xff000000, 5, 0, 1⟩] := by
  obtain ⟨table, htable, hgateway⟩ : ∃ table, sampleGateway.computeTables [[1]] sampleOldRoutes =
      .ok (table, [⟨0x0a000000, 0xff000000, 5, 0, 1⟩]) ∧
        table 5 = some ⟨5, 5, 0, 1, .link ⟨1, 5, 0, 0, 0⟩⟩ := ⟨_, rfl, rfl⟩
  refine ⟨table, htable, ?_⟩
  apply (sampleGateway.hnaRoutesExact_iff [[1]] sampleOldRoutes table _ htable).1
  refine ⟨by decide, fun route hroute => Or.inl ?_⟩
  cases mem_singleton.mp hroute
  refine ⟨⟨0x0a000000, 0xff000000, 5, 0, 1⟩, ?_, by decide, by decide⟩
  exact ⟨_, mem_cons_self, rfl, _, hgateway, rfl⟩

/-- A node that knows of no network. -/
def lonelyNode : RoutingProtocol where
  mainAddress := 1
  helloInterval := seconds 2
  topHoldVTime := 0

/-- The second of two old routes stays. -/
theorem RoutingProtocol.not_hnaRoutesExact :
    ¬ ∀ (n : RoutingProtocol) (ipv4 : List (List Ipv4Address)) (old : List HnaRoute)
      (table : RoutingTable) (hna : List HnaRoute), n.computeTables ipv4 old = .ok (table, hna) →
      n.HnaRoutesExact table hna := by
  intro hexact
  have h := hexact lonelyNode [[1]] sampleOldRoutes (fun _ => none)
    [⟨0x0a000000, 0xff000000, 7, 0, 3⟩] rfl
  obtain ⟨other, ⟨tuple, htuple, -⟩, -⟩ := h.only _ mem_cons_self
  exact not_mem_nil htuple

end Ns3Dsme.Olsr
