import LinkState.Proofs.Routing.ShortestPaths

/-!
# Next hops are first hops of shortest paths

The search keeps with every router the link over which its path leaves the root. Since the whole
path is a shortest one, so is what is left of it behind that link (`isFirstHop_of_settled`): going
on from the neighbor there is no cheaper way to the router, save where the distance is cut off at
the largest metric and more than one way is as good. A tree that was computed is that of a finished
search (`exists_search`), so all its next hops are of this kind (`isFirstHop_shortestPaths`).
-/

namespace LinkState

section

variable {root : SystemId} {links : List Link} {database : Database} {search : Search}

/-- A next hop is the first hop of a shortest path to a vertex: it names a link that is up and the
neighbor at its other end, and the distance of the vertex is the metric of that link and the least
cost of going on from the neighbor without visiting the root, cut off at the largest metric. -/
structure IsFirstHop (root : SystemId) (links : List Link) (database : Database) (vertex : Vertex)
    (nexthop : Nexthop) (link : Link) : Prop where
  mem : link ∈ links
  name_eq : link.name = nexthop.link
  neighbor_eq : link.adjacency.upNeighbor? = some nexthop.systemId
  address_eq : link.adjacency.neighborIp = nexthop.address
  ne_root : nexthop.systemId ≠ root
  shortest : ∃ rest,
    IsLeast {cost | AdvertisedPath root database nexthop.systemId vertex.systemId cost} rest ∧
      vertex.distance.toNat = min (2 ^ 32 - 1) (link.adjacency.metric.toNat + rest)

/-- A path that never visits the root does not start there. -/
theorem AdvertisedPath.start_ne_root {a b : SystemId} {cost : Nat}
    (h : AdvertisedPath root database a b cost) : a ≠ root := by
  induction h with
  | refl h => exact h
  | step _ _ _ ih => exact ih

/-- With TENT empty, the next hop of a settled router is the first hop of a shortest path. -/
theorem isFirstHop_of_settled (h : Invariant root links database search)
    (hempty : search.tent.entries = []) {vertex : Vertex}
    (hvertex : search.path.find? vertex.systemId.key = some vertex)
    (hroot : vertex.systemId ≠ root) :
    ∃ nexthop link, vertex.nexthop = some nexthop ∧
      IsFirstHop root links database vertex nexthop link := by
  obtain ⟨link, hlink, first, hfirst, hnexthop, rest, hpath, hdistance⟩ :=
    h.attained vertex (Or.inl hvertex) hroot
  obtain ⟨hneighbor, hmetric, hhop⟩ := ofLink?_eq_some_iff.1 hfirst
  classical
  obtain ⟨least, hleast⟩ : ∃ least, IsLeast {cost |
      AdvertisedPath root database first.systemId vertex.systemId cost} least :=
    ⟨_, Nat.isLeast_find ⟨rest, hpath⟩⟩
  -- The cheapest way on from the neighbor is a path from the root too, so that the vertex is no
  -- farther away than that path is long.
  have hreaches : Reaches root links database vertex.systemId
      (link.adjacency.metric.toNat + least) :=
    ⟨link, hlink, first.systemId, least, hneighbor, hleast.1, rfl⟩
  obtain ⟨settled, hsettled, -, hbound⟩ := settled_of_reaches h hempty hreaches
  have hsame : settled = vertex := Option.some.inj (hsettled.symm.trans hvertex)
  have hle : least ≤ rest := hleast.2 hpath
  have hlt := vertex.distance.toNat_lt
  refine ⟨_, link, hnexthop.trans hhop, hlink, rfl, hneighbor, rfl, hpath.start_ne_root, least,
    hleast, ?_⟩
  rw [hsame] at hbound
  rw [hmetric] at hdistance
  omega

/-- A tree is computed if the root has an LSP, and it is what the search has put on PATH. -/
theorem shortestPaths_eq_ok_iff {path : Avl.Map Vertex} :
    shortestPaths root links database = .ok path ↔ (database.router? root).isSome ∧
      ((Search.start root links).run database (namedNeighbors links database)).path = path := by
  unfold shortestPaths
  cases database.router? root with
  | none => simp
  | some lsp => simp

/-- A tree that was computed is that of a search that keeps the invariant and has no candidates
left. -/
theorem exists_search {path : Avl.Map Vertex} (h : shortestPaths root links database = .ok path) :
    ∃ search : Search, search.path = path ∧ Invariant root links database search ∧
      search.tent.entries = [] :=
  ⟨_, (shortestPaths_eq_ok_iff.1 h).2, invariant_run_start root links database⟩

/-- The root of a computed tree has no next hop, and every other router has one, which is the first
hop of a shortest path to it. -/
theorem isFirstHop_shortestPaths {path : Avl.Map Vertex}
    (h : shortestPaths root links database = .ok path) :
    path.find? root.key = some ⟨root, 0, none⟩ ∧
      ∀ key vertex, path.find? key = some vertex → key ≠ root.key →
        key = vertex.systemId.key ∧ ∃ nexthop link, vertex.nexthop = some nexthop ∧
          IsFirstHop root links database vertex nexthop link := by
  obtain ⟨search, rfl, hinvariant, hempty⟩ := exists_search h
  refine ⟨hinvariant.root_settled, fun key vertex hvertex hroot => ?_⟩
  have hkey := hinvariant.path_filed key vertex hvertex
  have hne : vertex.systemId ≠ root := fun heq => hroot (hkey.trans (congrArg SystemId.key heq))
  exact ⟨hkey, isFirstHop_of_settled hinvariant hempty (hkey ▸ hvertex) hne⟩

end

/-! ### Three routers in a triangle -/

namespace Triangle

/-- The routers have system IDs 1, 2 and 3. -/
def systemId (i : Fin 3) : SystemId := ⟨0, 0, 0, 0, 0, UInt8.ofNat (i.val + 1)⟩

/-- A link that is up. -/
def up (name : String) (neighbor : Fin 3) (metric : UInt32) : Link :=
  { Link.ofConfig ⟨name, 10, none, []⟩ with
    adjacency := ⟨.up, some (systemId neighbor), metric, none, none⟩ }

/-- The direct way from the first router to the third one costs more than the way over the second
one. -/
def links : Fin 3 → List Link
  | 0 => [up "direct" 2 5, up "east" 1 1]
  | 1 => [up "west" 0 1, up "east" 2 1]
  | 2 => [up "direct" 0 5, up "west" 1 1]

/-- The LSPs of the three routers. -/
def database : Database :=
  (List.finRange 3).foldl (fun database i =>
    database.store (Lsp.ofLinks (systemId i) (links i) 1 1200)) .empty

/-- The first candidate for the third router, over the direct link, is superseded. -/
theorem isFirstHop_shortestPaths_direct :
    ∃ path, shortestPaths (systemId 0) (links 0) database = .ok path ∧
      path.find? (systemId 2).key =
        some ⟨systemId 2, 2, some ⟨"east", systemId 1, none⟩⟩ ∧
      path.find? (systemId 0).key = some ⟨systemId 0, 0, none⟩ ∧
      ∀ key vertex, path.find? key = some vertex → key ≠ (systemId 0).key →
        key = vertex.systemId.key ∧ ∃ nexthop link, vertex.nexthop = some nexthop ∧
          IsFirstHop (systemId 0) (links 0) database vertex nexthop link := by
  have h : shortestPaths (systemId 0) (links 0) database =
      .ok ((Search.start (systemId 0) (links 0)).run database
        (namedNeighbors (links 0) database)).path := rfl
  exact ⟨_, h, by decide +kernel, isFirstHop_shortestPaths h⟩

end Triangle

end LinkState
