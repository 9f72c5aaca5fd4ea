import Mathlib.Data.List.Induction
import LinkState.Routing.Route
import LinkState.Proofs.Avl.Validity
import LinkState.Proofs.Keys
import LinkState.Proofs.Routing.Paths

/-!
# Which route is taken to a network

Every router of the tree that has a next hop offers a route to each network that its LSP advertises
(`IsCandidate`). Of all routes that are offered to a network the one with the smallest metric is
selected, and among equals the one of the lowest system ID (`Selected`); there is one such route at
most (`Selected.eq`).

The routes are taken in one by one. A route gives way only to one that is strictly nearer
(`find?_offer`), so that the first of the nearest stays (`selected_concat_of_lt`,
`Selected.concat`), and the routers come in the order of their system IDs (`selects_foldl`).
Networks that the router itself advertises are left out. So what is found under a network is the
selected route to it, and nothing is found only if the router itself or nobody advertises the
network (`compute_selects`).
-/

namespace LinkState

/-- No bit behind the network part of the address is set. -/
def Ipv4.Network.HostFree (network : Network) : Prop :=
  2 ^ (32 - network.length.val) ∣ network.address.word.toNat

/-- A network whose host bits are cleared has none. -/
theorem Ipv4.Network.hostFree_normalize (network : Network) : network.normalize.HostFree := by
  have hword : network.normalize.address.word.toNat =
      network.address.word.toNat / 2 ^ (32 - network.length.val) *
        2 ^ (32 - network.length.val) := by
    have hle := Nat.div_mul_le_self network.address.word.toNat (2 ^ (32 - network.length.val))
    have hlt := network.address.word.toNat_lt
    unfold normalize
    rw [Nat.one_shiftLeft, UInt32.toNat_ofNat', Nat.mod_eq_of_lt (by omega)]
  unfold HostFree
  rw [hword]
  exact Nat.dvd_mul_left _ _

namespace Routes

/-- A router of the tree offers the route: it is the advertiser and has the next hop, and its LSP
advertises the network, host bits apart, at such a metric. Sums are cut off at the largest
metric. -/
def IsCandidate (topology : Avl.Map Vertex) (database : Database) (route : Route) : Prop :=
  ∃ vertex ∈ topology.values, vertex.systemId = route.advertiser ∧
    vertex.nexthop = some route.nexthop ∧
    ∃ lsp, database.router? vertex.systemId = some lsp ∧
      ∃ reach ∈ lsp.prefixes, reach.network.normalize = route.network ∧
        route.metric.toNat = min (vertex.distance.toNat + reach.metric.toNat) (2 ^ 32 - 1)

/-- The router itself advertises the network, host bits apart. -/
def IsConnected (systemId : SystemId) (database : Database) (network : Ipv4.Network) : Prop :=
  ∃ lsp, database.router? systemId = some lsp ∧
    ∃ reach ∈ lsp.prefixes, reach.network.normalize = network

/-- Of the routes that are offered, the one that is taken to a network. -/
structure Selected (offers : Route → Prop) (network : Ipv4.Network) (route : Route) : Prop where
  offered : offers route
  network_eq : route.network = network
  /-- No route to the network is nearer. -/
  nearest : ∀ other, offers other → other.network = network → route.metric ≤ other.metric
  /-- No other one of the nearest has a lower advertiser. -/
  lowest : ∀ other, offers other → other.network = network → other.metric = route.metric →
    ¬other.advertiser < route.advertiser

section

variable {offers : Route → Prop} {network : Ipv4.Network} {route other : Route}

/-- At most one route is selected if routers do not offer several next hops. -/
theorem Selected.eq
    (hnexthop : ∀ one two, offers one → offers two → one.advertiser = two.advertiser →
      one.nexthop = two.nexthop)
    (h : Selected offers network route) (hother : Selected offers network other) :
    route = other := by
  have hnetwork : route.network = other.network := h.network_eq.trans hother.network_eq.symm
  have hmetric : route.metric = other.metric :=
    UInt32.le_antisymm (h.nearest other hother.offered hother.network_eq)
      (hother.nearest route h.offered h.network_eq)
  have hadvertiser : route.advertiser = other.advertiser :=
    SystemId.eq_of_not_lt (hother.lowest route h.offered h.network_eq hmetric)
      (h.lowest other hother.offered hother.network_eq hmetric.symm)
  have hhop := hnexthop route other h.offered hother.offered hadvertiser
  cases route
  cases other
  simp only [Route.mk.injEq]
  exact ⟨hnetwork, hmetric, hadvertiser, hhop⟩

/-- Offers to other networks make no difference. -/
theorem selected_congr {offers' : Route → Prop}
    (h : ∀ other, other.network = network → (offers other ↔ offers' other)) :
    Selected offers network route ↔ Selected offers' network route := by
  have himp {one two : Route → Prop}
      (h : ∀ other, other.network = network → (one other ↔ two other))
      (hselected : Selected one network route) : Selected two network route :=
    { offered := (h route hselected.network_eq).1 hselected.offered
      network_eq := hselected.network_eq
      nearest := fun other hother hnetwork =>
        hselected.nearest other ((h other hnetwork).2 hother) hnetwork
      lowest := fun other hother hnetwork =>
        hselected.lowest other ((h other hnetwork).2 hother) hnetwork }
  exact ⟨himp h, himp fun other hnetwork => (h other hnetwork).symm⟩

/-- One more route is selected if it is nearer than all the others. -/
theorem selected_concat_of_lt {offered : List Route} (hnetwork : route.network = network)
    (hlt : ∀ other ∈ offered, other.network = network → route.metric < other.metric) :
    Selected (· ∈ offered ++ [route]) network route where
  offered := List.mem_append_right _ (List.mem_singleton.2 rfl)
  network_eq := hnetwork
  nearest other hother hsame := by
    rcases List.mem_append.1 hother with hother | hother
    · exact UInt32.le_of_lt (hlt other hother hsame)
    · rw [List.mem_singleton.1 hother]
      exact UInt32.le_refl _
  lowest other hother hsame hmetric := by
    rcases List.mem_append.1 hother with hother | hother
    · have hself := hlt other hother hsame
      rw [hmetric] at hself
      exact absurd hself (UInt32.lt_irrefl _)
    · rw [List.mem_singleton.1 hother]
      exact SystemId.lt_irrefl _

/-- The selected route stays if one more is not nearer and its advertiser is not lower. -/
theorem Selected.concat {offered : List Route} (h : Selected (· ∈ offered) network route)
    (hle : other.network = network → route.metric ≤ other.metric)
    (hlater : ¬other.advertiser < route.advertiser) :
    Selected (· ∈ offered ++ [other]) network route where
  offered := List.mem_append_left _ h.offered
  network_eq := h.network_eq
  nearest one hone hsame := by
    rcases List.mem_append.1 hone with hone | hone
    · exact h.nearest one hone hsame
    · cases List.mem_singleton.1 hone
      exact hle hsame
  lowest one hone hsame hmetric := by
    rcases List.mem_append.1 hone with hone | hone
    · exact h.lowest one hone hsame hmetric
    · rw [List.mem_singleton.1 hone]
      exact hlater

end

/-! ### Taking in routes one by one -/

variable {routes : Routes} {network : Ipv4.Network} {offered : List Route} {route : Route}

/-- A route is taken in if all there is to its network is farther away, and it changes nothing of
other networks. -/
theorem find?_offer (routes : Routes) (route : Route) (network : Ipv4.Network) :
    (routes.offer route).find? network =
      if network = route.network ∧
          ∀ present, routes.find? network = some present → route.metric < present.metric
      then some route else routes.find? network := by
  have hinsert : Table.find? (routes.insert route.network route) network =
      if network = route.network then some route else routes.find? network := by
    rw [Table.find?_insert]
    exact if_congr ⟨Ranked.rank_inj, congrArg _⟩ rfl rfl
  unfold offer
  by_cases hnetwork : network = route.network
  · subst hnetwork
    rw [if_pos rfl] at hinsert
    cases hpresent : routes.find? route.network with
    | none =>
      rw [if_pos ⟨rfl, fun _ h => by cases h⟩]
      exact hinsert
    | some present =>
      dsimp only
      by_cases hle : present.metric ≤ route.metric
      · rw [if_pos hle, if_neg fun h => UInt32.not_lt.2 hle (h.2 present rfl), hpresent]
      · have hnearer : ∀ other, some present = some other → route.metric < other.metric :=
          fun other hother => Option.some.inj hother ▸ UInt32.not_le.1 hle
        rw [if_neg hle, hinsert, if_pos ⟨rfl, hnearer⟩]
  · rw [if_neg hnetwork] at hinsert
    rw [if_neg fun h => hnetwork h.1]
    split
    · exact hinsert
    · split
      · rfl
      · exact hinsert

/-- What is found under a network is the selected one of some routes, and nothing is found only if
none of them leads there. -/
def Selects (routes : Routes) (offered : List Route) (network : Ipv4.Network) : Prop :=
  (routes.find? network = none → ∀ other ∈ offered, other.network ≠ network) ∧
    ∀ route, routes.find? network = some route → Selected (· ∈ offered) network route

/-- One more route is taken in, of a router that is not lower than the others. -/
theorem Selects.offer (h : routes.Selects offered network)
    (hlater : ∀ other ∈ offered, ¬route.advertiser < other.advertiser) :
    (routes.offer route).Selects (offered ++ [route]) network := by
  unfold Selects
  rw [find?_offer]
  split
  · -- The new route is the first one to the network, or nearer than all the others.
    rename_i htaken
    obtain ⟨hnetwork, hnearer⟩ := htaken
    have hlt : ∀ other ∈ offered, other.network = network → route.metric < other.metric := by
      intro other hother hsame
      cases hfound : routes.find? network with
      | none => exact absurd hsame (h.1 hfound other hother)
      | some present =>
        have hpresent : present.metric ≤ other.metric :=
          (h.2 present hfound).nearest other hother hsame
        exact UInt32.lt_of_lt_of_le (hnearer present hfound) hpresent
    refine ⟨fun hnone => absurd hnone (Option.some_ne_none route), fun taken htaken => ?_⟩
    cases htaken
    exact selected_concat_of_lt hnetwork.symm hlt
  · rename_i hkept
    -- A new route to the network is no nearer than the present one, which comes first.
    have hpresent (hsame : route.network = network) :
        ∃ present, routes.find? network = some present ∧ present.metric ≤ route.metric := by
      by_contra hnone
      refine hkept ⟨hsame.symm, fun present hfound => UInt32.not_le.1 fun hle => ?_⟩
      exact hnone ⟨present, hfound, hle⟩
    refine ⟨fun hnone other hother hsame => ?_, fun present hfound => ?_⟩
    · rcases List.mem_append.1 hother with hother | hother
      · exact h.1 hnone other hother hsame
      · cases List.mem_singleton.1 hother
        obtain ⟨present, hfound, -⟩ := hpresent hsame
        cases hnone.symm.trans hfound
    · have hselected := h.2 present hfound
      refine hselected.concat (fun hsame => ?_) (hlater present hselected.offered)
      obtain ⟨found, hfound', hle⟩ := hpresent hsame
      cases hfound.symm.trans hfound'
      exact hle

/-- Routes that are taken in in the order of their advertisers are selected. -/
theorem selects_foldl (network : Ipv4.Network)
    (hsorted : offered.Pairwise fun a b => ¬b.advertiser < a.advertiser) :
    Selects (offered.foldl offer .empty) offered network := by
  induction offered using List.reverseRecOn with
  | nil => exact ⟨fun _ _ h => absurd h List.not_mem_nil, fun _ h => by cases h⟩
  | append_singleton offered route ih =>
    obtain ⟨hoffered, -, hlater⟩ := List.pairwise_append.1 hsorted
    rw [List.foldl_append, List.foldl_cons, List.foldl_nil]
    exact (ih hoffered).offer fun other hother =>
      hlater other hother route (List.mem_singleton.2 rfl)

/-! ### What is offered -/

/-- A tree whose entries are filed under the keys of their system IDs. -/
structure Keyed (topology : Avl.Map Vertex) : Prop where
  valid : topology.Valid
  filed : ∀ key vertex, topology.find? key = some vertex → key = vertex.systemId.key

variable {systemId : SystemId} {topology : Avl.Map Vertex} {database : Database}

/-- The routes that a router of the tree offers are those to the networks of its LSP, if it has a
next hop. -/
theorem mem_candidates {vertex : Vertex} :
    route ∈ candidates database vertex ↔ vertex.systemId = route.advertiser ∧
      vertex.nexthop = some route.nexthop ∧ ∃ lsp, database.router? vertex.systemId = some lsp ∧
        ∃ reach ∈ lsp.prefixes, reach.network.normalize = route.network ∧
          route.metric.toNat = min (vertex.distance.toNat + reach.metric.toNat) (2 ^ 32 - 1) := by
  unfold candidates
  split
  · rename_i nexthop lsp hnexthop hlsp
    rw [hnexthop, hlsp, List.mem_map]
    simp only [Option.some.injEq, exists_eq_left']
    constructor
    · rintro ⟨reach, hreach, rfl⟩
      exact ⟨rfl, rfl, reach, hreach, rfl, toNat_saturatingAdd _ _⟩
    · rintro ⟨hadvertiser, rfl, reach, hreach, hnetwork, hmetric⟩
      refine ⟨reach, hreach, ?_⟩
      rw [← toNat_saturatingAdd] at hmetric
      rw [hnetwork, hadvertiser, ← UInt32.toNat_inj.1 hmetric]
  · rename_i hmissing
    constructor
    · exact fun h => absurd h List.not_mem_nil
    · rintro ⟨-, hnexthop, lsp, hlsp, -⟩
      exact absurd hlsp (hmissing _ lsp hnexthop)

/-- No network that is offered has host bits. -/
theorem IsCandidate.hostFree (h : IsCandidate topology database route) :
    route.network.HostFree := by
  obtain ⟨-, -, -, -, -, -, reach, -, hnetwork, -⟩ := h
  rw [← hnetwork]
  exact reach.network.hostFree_normalize

/-- The networks that the router itself advertises. -/
theorem mem_connected {network : Ipv4.Network} :
    network ∈ connected systemId database ↔ IsConnected systemId database network := by
  unfold connected IsConnected
  cases database.router? systemId with
  | none => simp
  | some lsp => simp

/-- A router of the tree is found under its key. -/
theorem Keyed.find?_eq (h : Keyed topology) {vertex : Vertex} (hvertex : vertex ∈ topology.values) :
    topology.find? vertex.systemId.key = some vertex := by
  obtain ⟨entry, hentry, rfl⟩ := List.mem_map.1 hvertex
  have hfound := h.valid.find?_eq_some_iff.2 hentry
  rw [← h.filed entry.1 entry.2 hfound]
  exact hfound

/-- The routers of the tree come in the order of their system IDs. -/
theorem Keyed.pairwise_values (h : Keyed topology) :
    topology.values.Pairwise fun a b => a.systemId < b.systemId := by
  have hkey : ∀ entry ∈ topology.toList, entry.1 = entry.2.systemId.key := fun entry hentry =>
    h.filed entry.1 entry.2 (h.valid.find?_eq_some_iff.2 hentry)
  unfold Avl.Map.values
  rw [List.pairwise_map]
  refine h.valid.ascending.imp_of_mem fun {a b} ha hb hlt => ?_
  rw [← SystemId.key_lt_key_iff, ← hkey a ha, ← hkey b hb]
  exact hlt

/-- So do the routes that they offer. -/
theorem Keyed.pairwise_candidates (h : Keyed topology) (database : Database) :
    (topology.values.flatMap (candidates database)).Pairwise fun a b =>
      ¬b.advertiser < a.advertiser := by
  rw [List.pairwise_flatMap]
  constructor
  · -- All routes of one router have the same advertiser.
    intro vertex _
    refine List.pairwise_of_forall_mem_list fun a ha b hb => ?_
    rw [← (mem_candidates.1 ha).1, ← (mem_candidates.1 hb).1]
    exact SystemId.lt_irrefl vertex.systemId
  · refine h.pairwise_values.imp fun {u v} hlt a ha b hb => ?_
    rw [← (mem_candidates.1 ha).1, ← (mem_candidates.1 hb).1]
    exact SystemId.lt_asymm hlt

/-- A router offers all of its routes over one next hop. -/
theorem Keyed.nexthop_eq (h : Keyed topology) {a b : Route}
    (ha : IsCandidate topology database a) (hb : IsCandidate topology database b)
    (hsame : a.advertiser = b.advertiser) : a.nexthop = b.nexthop := by
  obtain ⟨u, hu, hua, hunexthop, -⟩ := ha
  obtain ⟨v, hv, hvb, hvnexthop, -⟩ := hb
  have hvertex := h.find?_eq hu
  rw [hua, hsame, ← hvb, h.find?_eq hv] at hvertex
  rw [Option.some.inj hvertex, hunexthop] at hvnexthop
  exact Option.some.inj hvnexthop

/-! ### The routes of a router -/

/-- There is a route to a network exactly if the network has no host bits, some router of the tree
offers a route to it and the router itself does not advertise it. The route is the selected one, and
it is filed under its own network. -/
theorem compute_selects (systemId : SystemId) {topology : Avl.Map Vertex} (h : Keyed topology)
    (database : Database) (network : Ipv4.Network) :
    ((∃ route, (compute systemId topology database).find? network = some route) ↔
        network.HostFree ∧
          (∃ route, IsCandidate topology database route ∧ route.network = network) ∧
          ¬IsConnected systemId database network) ∧
      ∀ route, (compute systemId topology database).find? network = some route ↔
        ¬IsConnected systemId database network ∧
          Selected (IsCandidate topology database) network route := by
  let offered := (topology.values.flatMap (candidates database)).filter fun route =>
    !(connected systemId database).contains route.network
  have hmem (route : Route) : route ∈ offered ↔
      IsCandidate topology database route ∧ ¬IsConnected systemId database route.network := by
    rw [List.mem_filter, ← mem_connected, List.mem_flatMap]
    simp only [mem_candidates, IsCandidate, Bool.not_eq_true', List.contains_eq_mem,
      decide_eq_false_iff_not]
  have hcompute : Selects (compute systemId topology database) offered network :=
    selects_foldl network ((h.pairwise_candidates database).filter _)
  -- The routes to a network that is not connected are all taken in.
  have hselected (route : Route) (hconnected : ¬IsConnected systemId database network) :
      Selected (· ∈ offered) network route ↔
        Selected (IsCandidate topology database) network route :=
    selected_congr fun other hnetwork =>
      (hmem other).trans (and_iff_left (hnetwork ▸ hconnected))
  have hexists (hconnected : ¬IsConnected systemId database network) {route : Route}
      (hroute : IsCandidate topology database route) (hnetwork : route.network = network) :
      ∃ found, (compute systemId topology database).find? network = some found := by
    refine Option.ne_none_iff_exists'.1 fun hnone => hcompute.1 hnone route ?_ hnetwork
    exact (hmem route).2 ⟨hroute, hnetwork ▸ hconnected⟩
  have hfound (route : Route) (hroute : (compute systemId topology database).find? network =
      some route) : ¬IsConnected systemId database network ∧
        Selected (IsCandidate topology database) network route := by
    have hroute := hcompute.2 route hroute
    have hconnected := ((hmem route).1 hroute.offered).2
    rw [hroute.network_eq] at hconnected
    exact ⟨hconnected, (hselected route hconnected).1 hroute⟩
  refine ⟨⟨?_, ?_⟩, fun route => ⟨hfound route, ?_⟩⟩
  · rintro ⟨route, hroute⟩
    obtain ⟨hconnected, hroute⟩ := hfound route hroute
    have hfree := hroute.offered.hostFree
    rw [hroute.network_eq] at hfree
    exact ⟨hfree, ⟨route, hroute.offered, hroute.network_eq⟩, hconnected⟩
  · rintro ⟨-, ⟨route, hroute, hnetwork⟩, hconnected⟩
    exact hexists hconnected hroute hnetwork
  · rintro ⟨hconnected, hroute⟩
    obtain ⟨found, hfind⟩ := hexists hconnected hroute.offered hroute.network_eq
    have heq := (hfound found hfind).2.eq (fun _ _ => h.nexthop_eq) hroute
    rw [hfind, heq]

/-! ### Two neighbors that advertise one network -/

/-- The neighbor with the system ID 3 was found first, and that with the system ID 2 is equally
near. -/
def fork : Avl.Map Vertex :=
  .ofList ([⟨⟨0, 0, 0, 0, 0, 1⟩, 0, none⟩,
    ⟨⟨0, 0, 0, 0, 0, 3⟩, 10, some ⟨"right", ⟨0, 0, 0, 0, 0, 3⟩, none⟩⟩,
    ⟨⟨0, 0, 0, 0, 0, 2⟩, 10, some ⟨"left", ⟨0, 0, 0, 0, 0, 2⟩, none⟩⟩].map fun vertex : Vertex =>
      (vertex.systemId.key, vertex))

/-- Both neighbors advertise `10.0.0.0/12` with host bits set, and one of them twice. The router
itself and one neighbor advertise `192.168.0.0/20`. -/
def forkDatabase : Database :=
  let short : Fin 33 := ⟨12, by decide⟩
  let long : Fin 33 := ⟨20, by decide⟩
  let lsp (system : UInt8) (prefixes : List Reach) : Lsp :=
    .originate .lspL1 1200 (.ofSystem ⟨0, 0, 0, 0, 0, system⟩) 1 .isType1 [.prefixes prefixes]
  .ofList ([lsp 1 [⟨⟨⟨0xc0a80000⟩, long⟩, 10⟩],
    lsp 2 [⟨⟨⟨0x0a000001⟩, short⟩, 90⟩, ⟨⟨⟨0xc0a80001⟩, long⟩, 10⟩, ⟨⟨⟨0x0a0000ff⟩, short⟩, 20⟩],
    lsp 3 [⟨⟨⟨0x0a010000⟩, short⟩, 20⟩]].map fun lsp => (lsp.key, lsp))

theorem compute_selects_fork : Keyed fork ∧
    ¬IsConnected ⟨0, 0, 0, 0, 0, 1⟩ forkDatabase ⟨⟨0x0a000000⟩, 12⟩ ∧
    Selected (IsCandidate fork forkDatabase) ⟨⟨0x0a000000⟩, 12⟩
      ⟨⟨⟨0x0a000000⟩, 12⟩, 30, ⟨0, 0, 0, 0, 0, 2⟩, ⟨"left", ⟨0, 0, 0, 0, 0, 2⟩, none⟩⟩ := by
  have hvalid : fork.Valid := Avl.Map.valid_ofList _
  have hentries : ∀ entry ∈ fork.toList, entry.1 = entry.2.systemId.key := by decide +kernel
  have h : Keyed fork :=
    ⟨hvalid, fun key vertex hvertex => hentries (key, vertex) (hvalid.find?_eq_some_iff.1 hvertex)⟩
  exact ⟨h, ((compute_selects ⟨0, 0, 0, 0, 0, 1⟩ h forkDatabase ⟨⟨0x0a000000⟩, 12⟩).2 _).1
    (by decide +kernel)⟩

end Routes

end LinkState
