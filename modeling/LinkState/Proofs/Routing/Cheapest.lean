import LinkState.Proofs.Filing
import LinkState.Proofs.Routing.Candidates
import LinkState.Proofs.Routing.Nexthops

/-!
# Only the cheapest entry for a neighbor matters

An LSP may advertise a neighbor any number of times, in any TLVs and in any order. All candidates
that it gives for the neighbor have the next hop of the advertising router, so that the nearest of
them leaves behind the same as the whole row does, whatever was there before (`foldl_toward`). That
one is told by the least metric. So a move of the search depends on the LSP of the settled router
only through its least metrics (`Search.step_eq`), and by the invariant so does the run, on the LSPs
of the routers that it settles (`Invariant.run_eq`).

The number of moves that the search is given differs between two databases, since repetitions count.
Either number empties TENT, and with TENT empty further moves change nothing
(`Search.run_eq_of_le`).
-/

namespace LinkState

open Search (ofNeighbor)

/-- The least metric with which an LSP advertises a neighbor. -/
def Lsp.leastMetric? (lsp : Lsp) (neighbor : SystemId) : Option UInt32 :=
  ((lsp.neighbors.filter (·.systemId = neighbor)).map (·.metric)).min?

/-- The least metric with which the LSP of one router advertises another one. -/
def Database.leastMetric? (database : Database) (router neighbor : SystemId) : Option UInt32 :=
  (database.router? router).bind (·.leastMetric? neighbor)

/-- The candidate that a settled router gives if it advertises another one with a metric. -/
def Vertex.toward (vertex : Vertex) (neighbor : SystemId) (metric : UInt32) : Vertex :=
  ofNeighbor vertex ⟨metric, neighbor, 0⟩

section

variable {root : SystemId} {links : List Link} {database other : Database} {search : Search}
  {tent : Tent} {moves : Nat}

/-! ### The offers of one router -/

/-- A smaller metric gives a candidate that is at least as near. -/
theorem distance_toward_le (vertex : Vertex) (neighbor : SystemId) {metric larger : UInt32}
    (h : metric ≤ larger) :
    (vertex.toward neighbor metric).distance ≤ (vertex.toward neighbor larger).distance := by
  have hle := UInt32.le_iff_toNat_le.1 h
  change saturatingAdd vertex.distance metric ≤ saturatingAdd vertex.distance larger
  rw [UInt32.le_iff_toNat_le, toNat_saturatingAdd, toNat_saturatingAdd]
  omega

/-- Of two offers of one router for another one, that with the smaller metric matters. -/
theorem nearer_toward_toward (vertex : Vertex) (neighbor : SystemId) (first second : UInt32)
    (present : Option Vertex) :
    (vertex.toward neighbor second).nearer (some ((vertex.toward neighbor first).nearer present)) =
      (vertex.toward neighbor (min first second)).nearer present := by
  rcases UInt32.le_total first second with hle | hge
  · have hmin : min first second = first := if_pos hle
    rw [hmin]
    exact Vertex.nearer_nearer_of_le (distance_toward_le vertex neighbor hle)
  · have hmin : min first second = second := by
      change (if first ≤ second then first else second) = second
      split
      · exact UInt32.le_antisymm ‹_› hge
      · rfl
    rw [hmin]
    -- The candidates of one router for another one differ in their distances only.
    exact Vertex.nearer_nearer_of_ge (distance_toward_le vertex neighbor hge)
      fun hdistance => congrArg (Vertex.mk neighbor · vertex.nexthop) hdistance

/-- Of a row of offers of one router for another one, that with the least metric matters. -/
theorem foldl_toward (vertex : Vertex) (neighbor : SystemId) (metrics : List UInt32)
    (present : Option Vertex) :
    (metrics.map (vertex.toward neighbor)).foldl
        (fun present offered => some (offered.nearer present)) present =
      metrics.min?.elim present fun metric =>
        some ((vertex.toward neighbor metric).nearer present) := by
  cases metrics with
  | nil => rfl
  | cons metric metrics =>
    rw [List.map_cons, List.foldl_cons, List.min?_cons', Option.elim_some]
    -- The least metric so far stands for the offers so far.
    induction metrics generalizing metric with
    | nil => rfl
    | cons next metrics ih =>
      rw [List.map_cons, List.foldl_cons, List.foldl_cons, nearer_toward_toward, ih]

/-- What the offers of a settled router leave as the candidate of another one. -/
theorem Tent.vertex?_neighbors (h : tent.WellFormed) (path : Avl.Map Vertex) (vertex : Vertex)
    (neighbor : SystemId) :
    ((((database.router? vertex.systemId).elim [] Lsp.neighbors).map (ofNeighbor vertex)).foldl
        (Search.offer path) tent).vertex? neighbor =
      if path.contains neighbor.key then tent.vertex? neighbor
      else (database.leastMetric? vertex.systemId neighbor).elim (tent.vertex? neighbor)
        fun metric => some ((vertex.toward neighbor metric).nearer (tent.vertex? neighbor)) := by
  have hrow (neighbors : List Neighbor) :
      (neighbors.map (ofNeighbor vertex)).filter (·.systemId = neighbor) =
        ((neighbors.filter (·.systemId = neighbor)).map (·.metric)).map
          (vertex.toward neighbor) := by
    rw [List.filter_map, List.map_map]
    refine List.map_congr_left fun entry hentry => ?_
    have hneighbor : entry.systemId = neighbor := of_decide_eq_true (List.mem_filter.1 hentry).2
    rw [← hneighbor]
    rfl
  rw [vertex?_foldl h, hrow, foldl_toward, Database.leastMetric?]
  cases database.router? vertex.systemId with
  | none => rfl
  | some lsp => rfl

/-! ### Moves -/

/-- A move depends on the LSP of the settled router only through its least metrics. -/
theorem Search.step_eq (h : search.tent.WellFormed) {key : UInt32 × SystemId} {vertex : Vertex}
    {rest : Tent} (hpop : search.tent.popFirst? = some ((key, vertex), rest))
    (hsame : ∀ neighbor, database.leastMetric? vertex.systemId neighbor =
      other.leastMetric? vertex.systemId neighbor) :
    search.step database = search.step other := by
  have hrest : Tent.WellFormed rest := (Tent.popFirst?_least h hpop).1
  unfold Search.step
  rw [hpop]
  refine congrArg (fun tent => some (Search.mk _ tent)) ?_
  refine Tent.WellFormed.eq_of_vertex?_eq (offered_foldl hrest _).wellFormed
    (offered_foldl hrest _).wellFormed fun neighbor => ?_
  rw [Tent.vertex?_neighbors hrest, Tent.vertex?_neighbors hrest, hsame]

/-- What is on PATH stays there for the rest of the run. -/
theorem Invariant.find?_run (h : Invariant root links database search) {key : UInt64}
    {vertex : Vertex} (hvertex : search.path.find? key = some vertex) (moves : Nat) :
    (search.run database moves).path.find? key = some vertex := by
  induction moves generalizing search with
  | zero => exact hvertex
  | succ moves ih =>
    unfold Search.run
    cases hstep : search.step database with
    | none => exact hvertex
    | some next =>
      obtain ⟨settled, rest, hmove⟩ := h.exists_move hstep
      exact ih (invariant_step h hstep) (hmove.find?_of_find? h hvertex)

/-- A run depends on the LSPs of the routers that it settles, and on these only through their least
metrics. -/
theorem Invariant.run_eq (h : Invariant root links database search)
    (hsame : ∀ vertex, (search.run database moves).path.find? vertex.systemId.key = some vertex →
      ∀ neighbor, database.leastMetric? vertex.systemId neighbor =
        other.leastMetric? vertex.systemId neighbor) :
    search.run database moves = search.run other moves := by
  induction moves generalizing search with
  | zero => rfl
  | succ moves ih =>
    unfold Search.run at hsame ⊢
    cases hpop : search.tent.popFirst? with
    | none => rw [Search.step_eq_none hpop, Search.step_eq_none hpop]
    | some popped =>
      obtain ⟨next, hnext, hmove⟩ := h.exists_step hpop
      have hinvariant : Invariant root links database next := invariant_step h hnext
      rw [hnext] at hsame
      have hsettled : (next.run database moves).path.find? popped.1.2.systemId.key =
          some popped.1.2 := hinvariant.find?_run hmove.find?_vertex moves
      rw [← Search.step_eq h.tent_wellFormed hpop (hsame _ hsettled), hnext]
      exact ih hinvariant hsame

/-- With TENT empty further moves change nothing. -/
theorem Search.run_eq_of_le {more : Nat} (hempty : (search.run database moves).tent.entries = [])
    (hle : moves ≤ more) : search.run database more = search.run database moves := by
  induction moves generalizing search more with
  | zero =>
    cases more with
    | zero => rfl
    | succ more =>
      have hstep : search.step database = none := Search.step_eq_none_iff.2 hempty
      unfold Search.run
      rw [hstep]
  | succ moves ih =>
    obtain ⟨more, rfl⟩ := Nat.exists_eq_add_of_le' hle
    rw [← Nat.add_assoc] at hle ⊢
    unfold Search.run at hempty ⊢
    cases hstep : search.step database with
    | none => rfl
    | some next =>
      rw [hstep] at hempty
      exact ih hempty (Nat.le_of_succ_le_succ hle)

/-- A finished search is the same with another database that has the same least metrics for the
routers that it settles, whatever number of moves either database asks for. -/
theorem Search.finished_eq
    (hsame : ∀ vertex, ((Search.start root links).run database
        (namedNeighbors links database)).path.find? vertex.systemId.key = some vertex →
      ∀ neighbor, database.leastMetric? vertex.systemId neighbor =
        other.leastMetric? vertex.systemId neighbor) :
    (Search.start root links).run database (namedNeighbors links database) =
      (Search.start root links).run other (namedNeighbors links other) := by
  obtain ⟨-, hfinished⟩ := invariant_run_start root links database
  obtain ⟨-, hfinished'⟩ := invariant_run_start root links other
  -- Both searches are finished after as many moves as the two numbers make together.
  have hmore := Search.run_eq_of_le hfinished
    (Nat.le_add_right (namedNeighbors links database) (namedNeighbors links other))
  have hmore' := Search.run_eq_of_le hfinished'
    (Nat.le_add_left (namedNeighbors links other) (namedNeighbors links database))
  have hrun := (invariant_start root links database).run_eq (hmore.symm ▸ hsame)
  rw [← hmore, hrun, hmore']

/-! ### Two databases -/

/-- Two databases hold LSPs of the same routers, and for each of these the two LSPs advertise the
same neighbors with the same least metrics. -/
def SameCosts (database other : Database) : Prop :=
  ∀ router, Option.Rel (fun lsp lsp' => lsp.leastMetric? = lsp'.leastMetric?)
    (database.router? router) (other.router? router)

/-- The least metrics are then the same for all routers, those without an LSP included. -/
theorem SameCosts.leastMetric?_eq (h : SameCosts database other) (router neighbor : SystemId) :
    database.leastMetric? router neighbor = other.leastMetric? router neighbor := by
  have hrel := h router
  unfold Database.leastMetric?
  generalize database.router? router = lsp, other.router? router = lsp' at hrel ⊢
  cases hrel with
  | none => rfl
  | some hsame => exact congrFun hsame neighbor

/-- Two LSPs advertise the same least metrics if they do for the neighbors that either of them
names. -/
theorem Lsp.leastMetric?_eq_of_named {lsp lsp' : Lsp}
    (h : ∀ entry ∈ lsp.neighbors ++ lsp'.neighbors,
      lsp.leastMetric? entry.systemId = lsp'.leastMetric? entry.systemId) :
    lsp.leastMetric? = lsp'.leastMetric? := by
  have hunnamed {lsp : Lsp} {neighbor : SystemId}
      (hnone : ∀ entry ∈ lsp.neighbors, entry.systemId ≠ neighbor) :
      lsp.leastMetric? neighbor = none := by
    have hempty : lsp.neighbors.filter (·.systemId = neighbor) = [] :=
      List.filter_eq_nil_iff.2 fun entry hentry => by simpa using hnone entry hentry
    rw [leastMetric?, hempty]
    rfl
  funext neighbor
  by_cases hnamed : ∃ entry ∈ lsp.neighbors ++ lsp'.neighbors, entry.systemId = neighbor
  · obtain ⟨entry, hentry, rfl⟩ := hnamed
    exact h entry hentry
  · rw [hunnamed fun entry hentry heq => hnamed ⟨entry, List.mem_append_left _ hentry, heq⟩,
      hunnamed fun entry hentry heq => hnamed ⟨entry, List.mem_append_right _ hentry, heq⟩]

/-- The tree of shortest paths depends on the LSP of every router only through the least metric for
each neighbor: with the same ones, all routers are found at the same distances over the same next
hops, or there is no tree with either database. -/
theorem shortestPaths_cheapest (h : SameCosts database other) (root : SystemId)
    (links : List Link) :
    shortestPaths root links database = shortestPaths root links other := by
  have hsame : (Search.start root links).run database (namedNeighbors links database) =
      (Search.start root links).run other (namedNeighbors links other) :=
    Search.finished_eq fun vertex _ => h.leastMetric?_eq vertex.systemId
  have hroot := h root
  unfold shortestPaths
  rw [hsame]
  generalize database.router? root = lsp, other.router? root = lsp' at hroot ⊢
  cases hroot with
  | none => rfl
  | some => rfl

end

/-! ### Another triangle -/

namespace Triangle

/-- The LSP of a router that advertises every neighbor twice: first at a higher metric and as a
pseudonode, and then, behind an address and in reverse order, as it is. -/
def scatter (i : Fin 3) : Lsp :=
  let neighbors := (Lsp.ofLinks (systemId i) (links i) 1 1200).neighbors
  Lsp.originate .lspL1 1200 (.ofSystem (systemId i)) 2 .isType1
    [.neighbors 0 (neighbors.map fun entry => { entry with metric := 7, pseudonode := 1 }),
      .addresses [⟨0x0a000001⟩], .neighbors 0 neighbors.reverse]

/-- The scattered LSPs of the three routers. -/
def scattered : Database :=
  (List.finRange 3).foldl (fun database i => database.store (scatter i)) .empty

/-- The scattered LSPs have the same least metrics. -/
theorem sameCosts_scattered : SameCosts database scattered := by
  have hlsp : ∀ i, database.router? (systemId i) =
      some (Lsp.ofLinks (systemId i) (links i) 1 1200) := by decide +kernel
  have hlsp' : ∀ i, scattered.router? (systemId i) = some (scatter i) := by decide +kernel
  have hleast : ∀ i, ∀ entry ∈
      (Lsp.ofLinks (systemId i) (links i) 1 1200).neighbors ++ (scatter i).neighbors,
      (Lsp.ofLinks (systemId i) (links i) 1 1200).leastMetric? entry.systemId =
        (scatter i).leastMetric? entry.systemId := by decide +kernel
  intro router
  by_cases hrouter : router ∈ (List.finRange 3).map systemId
  · obtain ⟨i, -, rfl⟩ := List.mem_map.1 hrouter
    rw [hlsp, hlsp']
    exact .some (Lsp.leastMetric?_eq_of_named (hleast i))
  · have habsent {stored : Database} (hkeys : stored.keys = ((List.finRange 3).map systemId).map
        fun systemId => (LspId.ofSystem systemId).key) : stored.router? router = none :=
      Option.eq_none_iff_forall_ne_some.2 fun _ hlsp =>
        hrouter (Database.mem_of_router?_eq_some hkeys hlsp)
    rw [habsent (by decide +kernel), habsent (by decide +kernel)]
    exact .none

/-- The first router finds the same way to the third one with either database. -/
theorem shortestPaths_cheapest_scattered :
    SameCosts database scattered ∧ database.values ≠ scattered.values ∧
      shortestPaths (systemId 0) (links 0) database =
        shortestPaths (systemId 0) (links 0) scattered :=
  ⟨sameCosts_scattered, by decide +kernel,
    shortestPaths_cheapest sameCosts_scattered (systemId 0) (links 0)⟩

end Triangle

end LinkState
