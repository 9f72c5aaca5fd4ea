import Mathlib.Order.Nat
import LinkState.Proofs.Routing.Search

/-!
# The search computes shortest paths

Once TENT is empty, everything that PATH and TENT cover is on PATH. So the last router of a path
from the root is there, by induction along the path, and no farther away than the path is long
(`settled_of_reaches`). Since the distance of a settled router is the length of some path, it is the
least one, cut off at the largest metric (`isShortestPathTree`).
-/

namespace LinkState

open Search (ofLink? ofNeighbor)

/-- A finished search: the settled routers are the root and those that can be reached, and each has
the least cost of a path as its distance, cut off at the largest metric. -/
structure IsShortestPathTree (root : SystemId) (links : List Link) (database : Database)
    (path : Avl.Map Vertex) : Prop where
  valid : path.Valid
  /-- Every vertex is found under the key of its own router. -/
  filed : ∀ key vertex, path.find? key = some vertex → key = vertex.systemId.key
  root_settled : path.find? root.key = some ⟨root, 0, none⟩
  isSome_iff : ∀ systemId, (path.find? systemId.key).isSome ↔
    systemId = root ∨ ∃ cost, Reaches root links database systemId cost
  distance_eq : ∀ key vertex, path.find? key = some vertex → vertex.systemId ≠ root →
    ∃ cost, IsLeast {cost | Reaches root links database vertex.systemId cost} cost ∧
      vertex.distance.toNat = min (2 ^ 32 - 1) cost

variable {root : SystemId} {links : List Link} {database : Database} {search : Search}

/-- The distance of a vertex is the cost of a path, cut off at the largest metric. -/
theorem Attained.exists_reaches {vertex : Vertex} (h : Attained root links database vertex) :
    ∃ cost, Reaches root links database vertex.systemId cost ∧
      vertex.distance.toNat = min (2 ^ 32 - 1) cost := by
  obtain ⟨link, hlink, first, hfirst, -, rest, hpath, hdistance⟩ := h
  obtain ⟨hneighbor, hmetric, -⟩ := ofLink?_eq_some_iff.1 hfirst
  refine ⟨link.adjacency.metric.toNat + rest,
    ⟨link, hlink, first.systemId, rest, hneighbor, hpath, rfl⟩, ?_⟩
  rw [hdistance, hmetric, Nat.min_comm]

/-- With TENT empty, whatever is covered is on PATH. -/
theorem settled_of_covers (hempty : search.tent.entries = []) {vertex : Vertex}
    (h : search.Covers vertex) : ∃ other, search.path.find? vertex.systemId.key = some other ∧
      other.systemId = vertex.systemId ∧ other.distance ≤ vertex.distance := by
  obtain ⟨other, hother | hother, hsystem, hle⟩ := h
  · exact ⟨other, hsystem ▸ hother, hsystem, hle⟩
  · unfold Table.values at hother
    rw [hempty] at hother
    exact absurd hother List.not_mem_nil

/-- With TENT empty, the last router of a path is on PATH, no farther away than the path is long. -/
theorem settled_of_reaches (h : Invariant root links database search)
    (hempty : search.tent.entries = []) {systemId : SystemId} {cost : Nat}
    (hreaches : Reaches root links database systemId cost) :
    ∃ vertex, search.path.find? systemId.key = some vertex ∧ vertex.systemId = systemId ∧
      vertex.distance.toNat ≤ cost := by
  obtain ⟨link, hlink, neighbor, rest, hneighbor, hpath, rfl⟩ := hreaches
  -- The induction goes along the path, away from the root.
  induction hpath with
  | refl hroot =>
    have hfirst : ofLink? link = some ⟨neighbor, link.adjacency.metric,
        some ⟨link.name, neighbor, link.adjacency.neighborIp⟩⟩ :=
      ofLink?_eq_some_iff.2 ⟨hneighbor, rfl, rfl⟩
    obtain ⟨vertex, hvertex, hsystem, hle⟩ :=
      settled_of_covers hempty (h.links_covered link hlink _ hfirst)
    exact ⟨vertex, hvertex, hsystem, UInt32.le_iff_toNat_le.1 hle⟩
  | @step b c m n hpath hleads hroot ih =>
    obtain ⟨vertex, hvertex, rfl, hle⟩ := ih
    obtain ⟨lsp, hlsp, advertised, hadvertised, rfl, rfl⟩ := hleads
    have hcovered :=
      h.neighbors_covered vertex hvertex hpath.ne_root lsp hlsp advertised hadvertised
    obtain ⟨next, hnext, hsystem, hle'⟩ := settled_of_covers hempty hcovered
    refine ⟨next, hnext, hsystem, ?_⟩
    -- What is cut off makes the distance only smaller.
    have hsum := toNat_saturatingAdd vertex.distance advertised.metric
    have hle' : next.distance.toNat ≤ (saturatingAdd vertex.distance advertised.metric).toNat :=
      UInt32.le_iff_toNat_le.1 hle'
    omega

/-- A search that keeps the invariant and has no candidates left is finished. -/
theorem isShortestPathTree (h : Invariant root links database search)
    (hempty : search.tent.entries = []) :
    IsShortestPathTree root links database search.path := by
  have hreaches : ∀ key vertex, search.path.find? key = some vertex → vertex.systemId ≠ root →
      ∃ cost, Reaches root links database vertex.systemId cost ∧
        vertex.distance.toNat = min (2 ^ 32 - 1) cost := by
    intro key vertex hvertex hroot
    have hkey := h.path_filed key vertex hvertex
    exact (h.attained vertex (Or.inl (hkey ▸ hvertex)) hroot).exists_reaches
  refine ⟨h.path_valid, h.path_filed, h.root_settled, fun systemId => ?_,
    fun key vertex hvertex hroot => ?_⟩
  · constructor
    · intro hsome
      obtain ⟨vertex, hvertex⟩ := Option.isSome_iff_exists.1 hsome
      have hsystem := SystemId.key_inj (h.path_filed _ vertex hvertex)
      -- A settled router other than the root has attained its distance on some path.
      by_cases hroot : vertex.systemId = root
      · exact Or.inl (hsystem.trans hroot)
      · obtain ⟨cost, hcost, -⟩ := hreaches _ vertex hvertex hroot
        exact Or.inr ⟨cost, hsystem ▸ hcost⟩
    · rintro (rfl | ⟨cost, hcost⟩)
      · rw [h.root_settled]
        rfl
      · obtain ⟨vertex, hvertex, -⟩ := settled_of_reaches h hempty hcost
        rw [hvertex]
        rfl
  · obtain ⟨cost, hcost, hdistance⟩ := hreaches key vertex hvertex hroot
    classical
    have hleast := Nat.isLeast_find ⟨cost, hcost⟩
    refine ⟨_, hleast, ?_⟩
    -- The attained cost may be larger than the least one only if both are cut off.
    have hle : Nat.find ⟨cost, hcost⟩ ≤ cost := hleast.2 hcost
    obtain ⟨other, hother, -, hbound⟩ := settled_of_reaches h hempty hleast.1
    rw [h.path_filed key vertex hvertex, hother] at hvertex
    cases hvertex
    omega

/-- Without an LSP of the root there is no tree. With one, the moves that are made empty TENT, and
the result is the tree of the shortest paths from the root. -/
theorem isShortestPathTree_shortestPaths (root : SystemId) (links : List Link)
    (database : Database) :
    match database.router? root with
    | none => shortestPaths root links database = .error (.rootNotFound root)
    | some _ =>
      let search := (Search.start root links).run database (namedNeighbors links database)
      search.tent.entries = [] ∧ shortestPaths root links database = .ok search.path ∧
        IsShortestPathTree root links database search.path := by
  have hresult : shortestPaths root links database = match database.router? root with
      | none => .error (.rootNotFound root)
      | some _ =>
        .ok ((Search.start root links).run database (namedNeighbors links database)).path := rfl
  -- The number of moves is that of the named routers, of which each move settles one.
  have hmoves : (Search.start root links).unsettled (namedSystems links database) ≤
      namedNeighbors links database := by
    have hlength : (namedSystems links database).length = namedNeighbors links database := by
      unfold namedSystems namedNeighbors
      rw [List.length_append, List.length_map, List.length_map]
    exact hlength ▸ List.countP_le_length
  obtain ⟨hinvariant, hempty⟩ := invariant_run (fun _ h => h.mem_namedSystems)
    (invariant_start root links database) hmoves
  cases hroot : database.router? root with
  | none => rw [hresult, hroot]
  | some lsp =>
    refine ⟨hempty, ?_, isShortestPathTree hinvariant hempty⟩
    rw [hresult, hroot]

end LinkState
