import LinkState.Proofs.Filing
import LinkState.Proofs.Routing.Cheapest
import LinkState.Proofs.Routing.Selection

/-!
# Which LSPs have an influence on routing

The search looks up the LSP of a router only when it settles that router, and the routes are made of
the LSPs of the routers on the tree. Which LSPs are looked up is thus an outcome of the search, but
a database in which all of these are the same leads through the same moves to the same tree
(`shortestPaths_congr_tree`) and to the same routes (`Routes.compute_congr_tree`). The other LSPs
have no influence (`routing_unaffected`): those of routers that cannot be reached, and all that do
not stand for a router, which are those of pseudonodes and those with further fragments.
-/

namespace LinkState

/-- With another database a router computes the same tree and the same routes. -/
structure Unaffected (root : SystemId) (links : List Link) (database : Database)
    (path : Avl.Map Vertex) (other : Database) : Prop where
  tree_eq : shortestPaths root links other = .ok path
  routes_eq : Routes.compute root path other = Routes.compute root path database

section

variable {root : SystemId} {links : List Link} {database other : Database}
  {path : Avl.Map Vertex}

/-- The tree depends on the LSPs of the routers that are on it. -/
theorem shortestPaths_congr_tree (h : shortestPaths root links database = .ok path)
    (hsame : ∀ systemId, (path.find? systemId.key).isSome →
      other.router? systemId = database.router? systemId) :
    shortestPaths root links other = .ok path := by
  obtain ⟨hown, rfl⟩ := shortestPaths_eq_ok_iff.1 h
  obtain ⟨hinvariant, -⟩ := invariant_run_start root links database
  have hroot : other.router? root = database.router? root :=
    hsame root (by rw [hinvariant.root_settled]; rfl)
  have hfinished : (Search.start root links).run database (namedNeighbors links database) =
      (Search.start root links).run other (namedNeighbors links other) :=
    Search.finished_eq fun vertex hvertex neighbor => by
      have hlsp := hsame vertex.systemId (by rw [hvertex]; rfl)
      unfold Database.leastMetric?
      rw [hlsp]
  exact shortestPaths_eq_ok_iff.2 ⟨hroot ▸ hown, congrArg Search.path hfinished.symm⟩

/-- The routes depend on the LSPs of the routers on the tree and on that of the router itself. -/
theorem Routes.compute_congr_tree {systemId : SystemId}
    (hroot : other.router? systemId = database.router? systemId)
    (hsame : ∀ vertex ∈ path.values,
      other.router? vertex.systemId = database.router? vertex.systemId) :
    compute systemId path other = compute systemId path database := by
  have hcandidates : path.values.flatMap (candidates other) =
      path.values.flatMap (candidates database) :=
    List.flatMap_congr fun vertex hvertex => by
      unfold candidates
      rw [hsame vertex hvertex]
  unfold compute connected
  rw [hroot, hcandidates]

/-- A database that holds the same LSPs for the routers on the tree leads to the same tree and the
same routes. In particular this is so if it differs only in LSPs of pseudonodes, with further
fragments, or of routers that are not on the tree. -/
theorem routing_unaffected (h : shortestPaths root links database = .ok path) :
    (∀ other : Database, (∀ systemId, (path.find? systemId.key).isSome →
        other.router? systemId = database.router? systemId) →
      Unaffected root links database path other) ∧
    ∀ other : Database, (∀ id, other.lsp? id ≠ database.lsp? id →
        id.pseudonode ≠ 0 ∨ id.fragment ≠ 0 ∨ path.find? id.systemId.key = none) →
      Unaffected root links database path other := by
  obtain ⟨search, rfl, hinvariant, -⟩ := exists_search h
  have hkeyed : Routes.Keyed search.path := ⟨hinvariant.path_valid, hinvariant.path_filed⟩
  have hrouters (other : Database) (hsame : ∀ systemId, (search.path.find? systemId.key).isSome →
      other.router? systemId = database.router? systemId) :
      Unaffected root links database search.path other :=
    ⟨shortestPaths_congr_tree h hsame,
      Routes.compute_congr_tree (hsame root (by rw [hinvariant.root_settled]; rfl))
        fun vertex hvertex => hsame vertex.systemId (by rw [hkeyed.find?_eq hvertex]; rfl)⟩
  refine ⟨hrouters, fun other hdiffers => hrouters other fun systemId hsome => ?_⟩
  -- The LSP of a router on the tree is none of those in which the databases may differ.
  by_contra hne
  rcases hdiffers (.ofSystem systemId) hne with hpseudonode | hfragment | hnone
  · exact hpseudonode rfl
  · exact hfragment rfl
  · rw [show (LspId.ofSystem systemId).systemId = systemId from rfl] at hnone
    rw [hnone] at hsome
    cases hsome

end

/-! ### Noise in the database of the triangle -/

namespace Triangle

/-- LSPs without influence on the first router. A router that nobody advertises claims to be next to
everybody and to a prefix, and so do a pseudonode and a further fragment of each router. -/
def noise : List Lsp :=
  let lsp (id : LspId) : Lsp := .originate .lspL1 1200 id 7 .isType1
    [.neighbors 0 ((List.finRange 3).map fun i => ⟨0, systemId i, 0⟩),
      .prefixes [⟨⟨⟨0x0a000000⟩, Fin.last 32⟩, 0⟩]]
  lsp (.ofSystem ⟨0, 0, 0, 0, 0, 9⟩) ::
    (List.finRange 3).flatMap fun i => [lsp ⟨systemId i, 1, 0⟩, lsp ⟨systemId i, 0, 1⟩]

/-- The database of the triangle with the noise in it. -/
def noisy : Database := noise.foldl Database.store database

theorem routing_unaffected_noise :
    ∃ path, shortestPaths (systemId 0) (links 0) database = .ok path ∧
      database.keys.length = 3 ∧ noisy.keys.length = 10 ∧
      Unaffected (systemId 0) (links 0) database path noisy := by
  have h : shortestPaths (systemId 0) (links 0) database =
      .ok ((Search.start (systemId 0) (links 0)).run database
        (namedNeighbors (links 0) database)).path := rfl
  have hkeys : ((Search.start (systemId 0) (links 0)).run database
      (namedNeighbors (links 0) database)).path.keys =
        ((List.finRange 3).map systemId).map SystemId.key := by decide +kernel
  have hsame : ∀ i, noisy.router? (systemId i) = database.router? (systemId i) := by
    decide +kernel
  refine ⟨_, h, by decide +kernel, by decide +kernel,
    (routing_unaffected h).1 noisy fun router hrouter => ?_⟩
  obtain ⟨vertex, hvertex⟩ := Option.isSome_iff_exists.1 hrouter
  have hmem := Avl.Map.mem_keys_of_find? hvertex
  rw [hkeys, List.map_map] at hmem
  obtain ⟨i, -, hi⟩ := List.mem_map.1 hmem
  rw [← SystemId.key_inj hi]
  exact hsame i

end Triangle

end LinkState
