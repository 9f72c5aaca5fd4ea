import Mathlib.Logic.Relation
import LinkState.Proofs.Filing
import LinkState.Proofs.Routing.Nexthops
import LinkState.Proofs.Wire.Splitting

/-!
# Forwarding from router to router

Every router computes a tree of its own, from the metrics of its own links and the LSPs of the
others. If the database holds the LSPs that the routers build of their links, then the two agree: a
path that leaves a router along its LSP leaves it over one of its links (`leads_iff`). What is left
of a path behind its last visit to a router is therefore a path from that router
(`reaches_of_advertisedPath`), and it costs no more. So the next hop towards a destination is nearer
to it than the router itself, by the metric of the link between the two (`nearer_nexthop`), and
following the next hops leads there (`forwarding_loopFree`).
-/

namespace LinkState

/-- Routers, each with its system ID and its links. -/
structure Domain (ι : Type u) where
  systemId : ι → SystemId
  links : ι → List Link
  systemId_inj : ∀ {i j}, systemId i = systemId j → i = j

namespace Domain

variable {ι : Type u} {domain : Domain ι} {database : Database}

/-- A database that holds, of the LSPs that count in routing, those that the routers build of their
links and no others. -/
structure Describes (domain : Domain ι) (database : Database) : Prop where
  own : ∀ i, ∃ seqno lifetime, database.router? (domain.systemId i) =
    some (Lsp.ofLinks (domain.systemId i) (domain.links i) seqno lifetime)
  only : ∀ systemId lsp, database.router? systemId = some lsp → ∃ i, domain.systemId i = systemId

/-- The tree of a router. -/
def tree (domain : Domain ι) (database : Database) (i : ι) : Except Fault (Avl.Map Vertex) :=
  shortestPaths (domain.systemId i) (domain.links i) database

/-- A router sends what is for `destination` on to its next hop. -/
def Forwards (domain : Domain ι) (database : Database) (destination a b : SystemId) : Prop :=
  ∃ i path vertex nexthop, domain.systemId i = a ∧ domain.tree database i = .ok path ∧
    path.find? destination.key = some vertex ∧ vertex.nexthop = some nexthop ∧
    nexthop.systemId = b

/-- A router has computed a tree, and it has an entry for `destination` that is nearer than a
distance. -/
def Nearer (domain : Domain ι) (database : Database) (destination : SystemId) (distance : UInt32)
    (i : ι) : Prop :=
  ∃ path vertex, domain.tree database i = .ok path ∧
    path.find? destination.key = some vertex ∧ vertex.distance < distance

/-- A router's LSP leads where its links lead. -/
theorem Describes.leads_iff (h : domain.Describes database) {i : ι} {b : SystemId} {cost : Nat} :
    Leads database (domain.systemId i) b cost ↔ ∃ link ∈ domain.links i,
      link.adjacency.upNeighbor? = some b ∧ link.adjacency.metric.toNat = cost := by
  obtain ⟨seqno, lifetime, hlsp⟩ := h.own i
  unfold Leads
  rw [hlsp]
  simp only [Option.some.injEq, exists_eq_left', Lsp.neighbors_ofLinks, List.mem_filterMap,
    Option.map_eq_some_iff]
  constructor
  · rintro ⟨neighbor, ⟨link, hlink, systemId, hup, rfl⟩, rfl, rfl⟩
    exact ⟨link, hlink, hup, rfl⟩
  · rintro ⟨link, hlink, hup, rfl⟩
    exact ⟨_, ⟨link, hlink, b, hup, rfl⟩, rfl, rfl⟩

/-- Only routers of the domain lead anywhere. -/
theorem Describes.exists_router (h : domain.Describes database) {root a b : SystemId} {cost : Nat}
    (hpath : AdvertisedPath root database a b cost) (hne : b ≠ a) :
    ∃ i, domain.systemId i = a := by
  induction hpath with
  | refl => exact absurd rfl hne
  | @step b c m n _ hleads _ ih =>
    by_cases heq : b = a
    · obtain ⟨lsp, hlsp, -⟩ := hleads
      exact h.only a lsp (heq ▸ hlsp)
    · exact ih heq

/-- A path from a router to another one, as the LSPs tell it, is behind its last visit to the router
a path from the router itself. -/
theorem Describes.reaches_of_advertisedPath (h : domain.Describes database) {root b : SystemId}
    {i : ι} {cost : Nat} (hpath : AdvertisedPath root database (domain.systemId i) b cost)
    (hne : b ≠ domain.systemId i) :
    ∃ less ≤ cost, Reaches (domain.systemId i) (domain.links i) database b less := by
  induction hpath with
  | refl => exact absurd rfl hne
  | @step b c m n _ hleads _ ih =>
    by_cases heq : b = domain.systemId i
    · -- The last step leaves the router over one of its links.
      rw [heq] at hleads
      obtain ⟨link, hlink, hup, rfl⟩ := h.leads_iff.1 hleads
      exact ⟨_, Nat.le_add_left _ m, link, hlink, c, 0, hup, .refl hne, rfl⟩
    · obtain ⟨less, hle, link, hlink, first, rest, hup, hrest, rfl⟩ := ih heq
      refine ⟨_, Nat.add_le_add_right hle n, link, hlink, first, rest + n, hup, ?_, ?_⟩
      · exact hrest.step hleads hne
      · exact Nat.add_assoc _ _ _

/-- Every router has a tree, and it is the tree of the shortest paths. -/
theorem Describes.exists_tree (h : domain.Describes database) (i : ι) :
    ∃ path, domain.tree database i = .ok path ∧
      IsShortestPathTree (domain.systemId i) (domain.links i) database path := by
  obtain ⟨seqno, lifetime, hlsp⟩ := h.own i
  have htree : ∃ path, domain.tree database i = .ok path := by
    unfold tree shortestPaths
    rw [hlsp]
    exact ⟨_, rfl⟩
  obtain ⟨path, hpath⟩ := htree
  obtain ⟨search, rfl, hinvariant, hempty⟩ := exists_search hpath
  exact ⟨search.path, hpath, isShortestPathTree hinvariant hempty⟩

/-- The next hop towards a destination is the destination or a router that is nearer to it, if the
link to it has a metric and the distance is not cut off. -/
theorem Describes.nearer_nexthop (h : domain.Describes database) {root : SystemId}
    {links : List Link} {vertex : Vertex} {nexthop : Nexthop} {link : Link}
    (hhop : IsFirstHop root links database vertex nexthop link)
    (hmetric : 1 ≤ link.adjacency.metric.toNat) (hbelow : vertex.distance.toNat < 2 ^ 32 - 1) :
    nexthop.systemId = vertex.systemId ∨ ∃ n, domain.systemId n = nexthop.systemId ∧
      domain.Nearer database vertex.systemId vertex.distance n := by
  obtain ⟨rest, ⟨hpath, -⟩, hdistance⟩ := hhop.shortest
  by_cases hself : nexthop.systemId = vertex.systemId
  · exact Or.inl hself
  obtain ⟨n, hn⟩ := h.exists_router hpath (Ne.symm hself)
  rw [← hn] at hpath hself
  obtain ⟨less, hless, hreaches⟩ := h.reaches_of_advertisedPath hpath (Ne.symm hself)
  obtain ⟨path, htree, hshortest⟩ := h.exists_tree n
  have hsome := (hshortest.isSome_iff vertex.systemId).2 (Or.inr ⟨less, hreaches⟩)
  obtain ⟨nearer, hnearer⟩ := Option.isSome_iff_exists.1 hsome
  have hsystem := SystemId.key_inj (hshortest.filed _ nearer hnearer)
  obtain ⟨least, hleast, hleastDistance⟩ :=
    hshortest.distance_eq _ nearer hnearer (hsystem ▸ Ne.symm hself)
  rw [← hsystem] at hleast
  have hle : least ≤ less := hleast.2 hreaches
  refine Or.inr ⟨n, hn, path, nearer, htree, hnearer, ?_⟩
  -- The link to the next hop is what the next hop saves.
  rw [UInt32.lt_iff_toNat_lt]
  omega

/-- The entry of a router for a destination has a next hop, which is the destination or a router
that is nearer to it. -/
theorem Describes.exists_nexthop (h : domain.Describes database)
    (hmetric : ∀ i, ∀ link ∈ domain.links i, link.adjacency.isUp → 1 ≤ link.adjacency.metric)
    {i : ι} {path : Avl.Map Vertex} (htree : domain.tree database i = .ok path)
    {destination : SystemId} {vertex : Vertex} (hne : destination ≠ domain.systemId i)
    (hvertex : path.find? destination.key = some vertex)
    (hbelow : vertex.distance.toNat < 2 ^ 32 - 1) :
    ∃ nexthop, vertex.nexthop = some nexthop ∧ (nexthop.systemId = destination ∨
      ∃ n, domain.systemId n = nexthop.systemId ∧
        domain.Nearer database destination vertex.distance n) := by
  obtain ⟨search, rfl, hinvariant, hempty⟩ := exists_search htree
  have hsystem := SystemId.key_inj (hinvariant.path_filed _ vertex hvertex)
  subst hsystem
  obtain ⟨nexthop, link, hnexthop, hhop⟩ :=
    isFirstHop_of_settled hinvariant hempty hvertex hne
  have hup : link.adjacency.isUp := Adjacency.isUp_of_upNeighbor? hhop.neighbor_eq
  have hpositive := UInt32.le_iff_toNat_le.1 (hmetric i link hhop.mem hup)
  exact ⟨nexthop, hnexthop, h.nearer_nexthop hhop hpositive hbelow⟩

/-- Following the next hops from a router leads to the destination. -/
theorem Describes.reaches_destination (h : domain.Describes database)
    (hmetric : ∀ i, ∀ link ∈ domain.links i, link.adjacency.isUp → 1 ≤ link.adjacency.metric)
    {i : ι} {path : Avl.Map Vertex} (htree : domain.tree database i = .ok path)
    {destination : SystemId} {vertex : Vertex} (hne : destination ≠ domain.systemId i)
    (hvertex : path.find? destination.key = some vertex)
    (hbelow : vertex.distance.toNat < 2 ^ 32 - 1) :
    Relation.TransGen (domain.Forwards database destination) (domain.systemId i) destination := by
  -- The induction is on the distance, which every next hop makes smaller.
  induction hdistance : vertex.distance.toNat using Nat.strongRecOn generalizing i path vertex with
  | ind distance ih =>
    obtain ⟨nexthop, hnexthop, hcases⟩ := h.exists_nexthop hmetric htree hne hvertex hbelow
    have hforwards : domain.Forwards database destination (domain.systemId i) nexthop.systemId :=
      ⟨i, path, vertex, nexthop, rfl, htree, hvertex, hnexthop, rfl⟩
    by_cases harrived : nexthop.systemId = destination
    · exact .single (harrived ▸ hforwards)
    · obtain ⟨n, hn, path', vertex', htree', hvertex', hnearer⟩ := hcases.resolve_left harrived
      have hlt := UInt32.lt_iff_toNat_lt.1 hnearer
      rw [← hn] at hforwards harrived
      have hrest := ih vertex'.distance.toNat (by omega) htree' (Ne.symm harrived) hvertex'
        (by omega) rfl
      exact .head hforwards hrest

/-- Every router has a tree. If the metrics of all links that are up are positive, then each of its
next hops towards a destination that is not too far away is the destination itself or a router that
is nearer to it, and following the next hops leads there. -/
theorem forwarding_loopFree (h : domain.Describes database)
    (hmetric : ∀ i, ∀ link ∈ domain.links i, link.adjacency.isUp → 1 ≤ link.adjacency.metric)
    (r : ι) :
    ∃ path, domain.tree database r = .ok path ∧ ∀ destination vertex,
      destination ≠ domain.systemId r → path.find? destination.key = some vertex →
      vertex.distance.toNat < 2 ^ 32 - 1 →
      (∃ nexthop, vertex.nexthop = some nexthop ∧ (nexthop.systemId = destination ∨
        ∃ n, domain.systemId n = nexthop.systemId ∧
          domain.Nearer database destination vertex.distance n)) ∧
      Relation.TransGen (domain.Forwards database destination) (domain.systemId r) destination := by
  obtain ⟨path, htree, -⟩ := h.exists_tree r
  refine ⟨path, htree, fun destination vertex hne hvertex hbelow => ⟨?_, ?_⟩⟩
  · exact h.exists_nexthop hmetric htree hne hvertex hbelow
  · exact h.reaches_destination hmetric htree hne hvertex hbelow

/-- The three routers of the triangle. -/
def triangle : Domain (Fin 3) where
  systemId := Triangle.systemId
  links := Triangle.links
  systemId_inj {i j} h := by
    revert i j
    decide

/-- The database of the triangle describes its routers. -/
theorem describes_triangle : triangle.Describes Triangle.database where
  own i := ⟨1, 1200, by revert i; decide +kernel⟩
  only systemId lsp h := by
    have hkeys : Triangle.database.keys = ((List.finRange 3).map Triangle.systemId).map
        fun systemId => (LspId.ofSystem systemId).key := by decide +kernel
    obtain ⟨i, -, hi⟩ := List.mem_map.1 (Database.mem_of_router?_eq_some hkeys h)
    exact ⟨i, hi⟩

/-- From the first router of the triangle the way to the third one leads over the second one, which
is nearer to it. -/
theorem forwarding_loopFree_triangle :
    triangle.Describes Triangle.database ∧
      (∀ i, ∀ link ∈ triangle.links i, link.adjacency.isUp → 1 ≤ link.adjacency.metric) ∧
      ∃ path vertex, triangle.tree Triangle.database 0 = .ok path ∧
        path.find? (Triangle.systemId 2).key = some vertex ∧ vertex.distance = 2 ∧
        (∃ nexthop, vertex.nexthop = some nexthop ∧ (nexthop.systemId = Triangle.systemId 2 ∨
          ∃ n, triangle.systemId n = nexthop.systemId ∧
            triangle.Nearer Triangle.database (Triangle.systemId 2) vertex.distance n)) ∧
        Relation.TransGen (triangle.Forwards Triangle.database (Triangle.systemId 2))
          (Triangle.systemId 0) (Triangle.systemId 2) := by
  have hmetric : ∀ i, ∀ link ∈ triangle.links i,
      link.adjacency.isUp → 1 ≤ link.adjacency.metric := by decide
  obtain ⟨path, htree, hall⟩ := forwarding_loopFree describes_triangle hmetric 0
  have hvertex : path.find? (Triangle.systemId 2).key =
      some ⟨Triangle.systemId 2, 2, some ⟨"east", Triangle.systemId 1, none⟩⟩ := by
    rw [← Except.ok.inj htree]
    decide +kernel
  exact ⟨describes_triangle, hmetric, path, _, htree, hvertex, rfl,
    hall _ _ (by decide) hvertex (by decide)⟩

end Domain

end LinkState
