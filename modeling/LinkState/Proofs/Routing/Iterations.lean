import Mathlib.Data.List.Dedup
import LinkState.Proofs.Routing.Cheapest

/-!
# The search, one action at a time

A move of the search is made of single actions: the first candidate is taken from TENT and put on
PATH, and then the neighbors that its LSP advertises are offered, one after the other. `Stage` is
the search between any two actions, with the offers that are still to be made. Where none is left a
move begins (`Stage.run`).

TENT and PATH fit together at every stage (`Stage.proper`), since every action keeps this
(`Proper.offer`, `Proper.pop`): TENT has one candidate for a router at most, which is filed under
its distance and its router and has no place on PATH. So an offer never takes the place of another
router's candidate (`Tent.WellFormed.roomFor`), and PATH always takes in a new router
(`Proper.inserted_of_popFirst?`). Every move settles another one of the routers that links and LSPs
name, which bounds their number by that of these routers (`Search.exists_iterations`).
-/

namespace LinkState

open Search (ofLink? ofNeighbor)

namespace Search

variable {root : SystemId} {links : List Link} {database : Database} {search next : Search}
  {pending : List Vertex}

/-! ### PATH and TENT -/

/-- PATH and TENT of a search fit together. -/
structure Proper (search : Search) : Prop where
  path_valid : search.path.Valid
  path_filed : ∀ key vertex, search.path.find? key = some vertex → key = vertex.systemId.key
  /-- Every candidate is filed under its distance and its router. -/
  tent_filed : ∀ entry ∈ search.tent.entries, entry.1 = (entry.2.distance, entry.2.systemId)
  /-- No router has two candidates. -/
  tent_nodup : (search.tent.values.map (·.systemId)).Nodup
  /-- No candidate is on PATH. -/
  apart : ∀ vertex ∈ search.tent.values, search.path.contains vertex.systemId.key = false

/-- TENT is then well formed. -/
theorem Proper.wellFormed (h : search.Proper) : search.tent.WellFormed :=
  Tent.wellFormed_iff.2 ⟨h.tent_filed, h.tent_nodup⟩

/-- An offer keeps PATH and TENT fitting together. -/
theorem Proper.offer (h : search.Proper) (vertex : Vertex) :
    Proper ⟨search.path, Search.offer search.path search.tent vertex⟩ := by
  have hoffered : Offered search.path [vertex] search.tent
      (Search.offer search.path search.tent vertex) := offered_offer h.wellFormed vertex
  obtain ⟨hfiled, hnodup⟩ := Tent.wellFormed_iff.1 hoffered.wellFormed
  refine ⟨h.path_valid, h.path_filed, hfiled, hnodup, fun other hother => ?_⟩
  rcases hoffered.origin other hother with hold | ⟨-, hpath⟩
  · exact h.apart other hold
  · exact Option.isSome_eq_false_iff.2 (Option.isNone_iff_eq_none.2 hpath)

/-- The first candidate is filed under its distance and its router and is new to PATH. -/
theorem Proper.inserted_of_popFirst? (h : search.Proper) {key : UInt32 × SystemId}
    {vertex : Vertex} {rest : Tent} (hpop : search.tent.popFirst? = some ((key, vertex), rest)) :
    key = (vertex.distance, vertex.systemId) ∧
      (search.path.insert vertex.systemId.key vertex false).2 = .inserted := by
  have hentry : (key, vertex) ∈ search.tent.entries := by
    rw [(Table.popFirst?_eq_some hpop).1]
    exact List.mem_cons_self
  -- As long as it is a candidate its router is not on PATH.
  have hnew : search.path.tree.find? vertex.systemId.key = none :=
    Option.isNone_iff_eq_none.1 (Option.isSome_eq_false_iff.1
      (h.apart vertex (List.mem_map.2 ⟨_, hentry, rfl⟩)))
  refine ⟨h.tent_filed _ hentry, ?_⟩
  change (search.path.tree.insert vertex.systemId.key vertex false).2 = .inserted
  rw [Avl.Tree.insert_snd, hnew]

/-- Putting the first candidate on PATH keeps PATH and TENT fitting together. -/
theorem Proper.pop (h : search.Proper) {key : UInt32 × SystemId} {vertex : Vertex} {rest : Tent}
    (hpop : search.tent.popFirst? = some ((key, vertex), rest)) :
    Proper ⟨(search.path.insert vertex.systemId.key vertex false).1, rest⟩ := by
  obtain ⟨hrest, hvalues, hleast⟩ := Tent.popFirst?_least h.wellFormed hpop
  obtain ⟨hfiled, hnodup⟩ := Tent.wellFormed_iff.1 hrest
  refine ⟨Avl.Map.valid_insert h.path_valid _ _ _, fun key other hother => ?_, hfiled, hnodup,
    fun other hother => ?_⟩
  · rw [Avl.Map.find?_insert h.path_valid] at hother
    split at hother
    · rename_i hplaced
      cases hother
      exact hplaced.1
    · exact h.path_filed key other hother
  · -- The other candidates are of other routers.
    have hne : other.systemId.key ≠ vertex.systemId.key :=
      fun hkey => (hleast other hother).1 (SystemId.key_inj hkey)
    have happart := h.apart other ((hvalues other).2 (Or.inr hother))
    unfold Avl.Map.contains at happart ⊢
    rw [Avl.Map.find?_insert h.path_valid, if_neg fun hplaced => hne hplaced.1]
    exact happart

/-! ### Stages -/

/-- The search between two actions, with the vertices that are still to be offered. -/
inductive Stage (root : SystemId) (links : List Link) (database : Database) :
    Search → List Vertex → Prop where
  /-- The root is on PATH, and the neighbors of the links are to be offered. -/
  | root : Stage root links database
      ⟨(Avl.Map.empty.insert root.key ⟨root, 0, none⟩ false).1, .empty⟩ (links.filterMap ofLink?)
  /-- A vertex has been offered. -/
  | offer {search : Search} {vertex : Vertex} {pending : List Vertex}
      (h : Stage root links database search (vertex :: pending)) :
      Stage root links database
        ⟨search.path, Search.offer search.path search.tent vertex⟩ pending
  /-- The first candidate has been put on PATH, and the neighbors that its LSP advertises are to be
  offered. -/
  | pop {search : Search} {key : UInt32 × SystemId} {vertex : Vertex} {rest : Tent}
      (h : Stage root links database search [])
      (hpop : search.tent.popFirst? = some ((key, vertex), rest)) :
      Stage root links database ⟨(search.path.insert vertex.systemId.key vertex false).1, rest⟩
        (((database.router? vertex.systemId).elim [] Lsp.neighbors).map (ofNeighbor vertex))

/-- PATH and TENT fit together at every stage. -/
theorem Stage.proper (h : Stage root links database search pending) : search.Proper := by
  induction h with
  | root =>
    -- The root alone is on PATH, and TENT is empty.
    refine ⟨Avl.Map.valid_insert Avl.Map.valid_empty _ _ false, fun key vertex hvertex => ?_,
      fun _ hentry => absurd hentry List.not_mem_nil, List.nodup_nil,
      fun _ hvertex => absurd hvertex List.not_mem_nil⟩
    have hfound := (find?_start root links key).symm.trans hvertex
    split at hfound
    · rename_i hkey
      cases hfound
      exact hkey
    · cases hfound
  | offer _ ih => exact ih.offer _
  | pop _ hpop ih => exact ih.pop hpop

/-- A row of offers is made one by one. -/
theorem Stage.foldl {row : List Vertex} (h : Stage root links database search (row ++ pending)) :
    Stage root links database
      ⟨search.path, row.foldl (Search.offer search.path) search.tent⟩ pending := by
  induction row generalizing search with
  | nil => exact h
  | cons vertex row ih => exact ih h.offer

/-- A move makes all offers of the settled router. -/
theorem Stage.step (h : Stage root links database search [])
    (hstep : search.step database = some next) : Stage root links database next [] := by
  unfold Search.step at hstep
  cases hpop : search.tent.popFirst? with
  | none =>
    rw [hpop] at hstep
    cases hstep
  | some popped =>
    rw [hpop] at hstep
    cases hstep
    -- The row of offers that the settled router makes is a complete one.
    have hpopped := h.pop hpop
    rw [← List.append_nil (List.map _ _)] at hpopped
    exact hpopped.foldl

/-- After any number of moves no offer is left to be made. -/
theorem Stage.run (h : Stage root links database search []) (moves : Nat) :
    Stage root links database (search.run database moves) [] := by
  induction moves generalizing search with
  | zero => exact h
  | succ moves ih =>
    unfold Search.run
    cases hstep : search.step database with
    | none => exact h
    | some next => exact ih (h.step hstep)

/-- At the start of the moves all offers of the links have been made. -/
theorem stage_start (root : SystemId) (links : List Link) (database : Database) :
    Stage root links database (Search.start root links) [] := by
  have hroot : Stage root links database _ _ := .root
  rw [← List.append_nil (List.filterMap _ _)] at hroot
  exact hroot.foldl

/-! ### The number of moves -/

/-- The search makes a certain number of moves and then no more, which is at most the number of
different routers that links and LSPs name. -/
theorem exists_iterations (root : SystemId) (links : List Link) (database : Database) :
    ∃ iterations ≤ (namedSystems links database).dedup.length, ∀ moves,
      (((Search.start root links).run database moves).step database = none ↔
        iterations ≤ moves) ∧
      (iterations ≤ moves → (Search.start root links).run database moves =
        (Search.start root links).run database iterations) := by
  have hnames : ∀ vertex, Attained root links database vertex →
      vertex.systemId ∈ (namedSystems links database).dedup :=
    fun vertex h => List.mem_dedup.2 h.mem_namedSystems
  have hfinished : ((Search.start root links).run database
      (namedSystems links database).dedup.length).step database = none :=
    step_eq_none_iff.2
      (invariant_run hnames (invariant_start root links database) List.countP_le_length).2
  have hends : ∃ moves, ((Search.start root links).run database moves).step database = none :=
    ⟨_, hfinished⟩
  -- The first number of moves that finishes the search leaves nothing to any larger one.
  have hsame {moves : Nat} (hle : Nat.find hends ≤ moves) :
      (Search.start root links).run database moves =
        (Search.start root links).run database (Nat.find hends) :=
    run_eq_of_le (step_eq_none_iff.1 (Nat.find_spec hends)) hle
  refine ⟨Nat.find hends, Nat.find_min' hends hfinished, fun moves =>
    ⟨⟨fun hnone => Nat.find_min' hends hnone, fun hle => ?_⟩, hsame⟩⟩
  rw [hsame hle]
  exact Nat.find_spec hends

/-- At every stage of a search PATH and TENT fit together, and there is room for the next offer.
Every candidate that is taken from TENT is taken from under its distance and router and is new to
PATH. As many moves are made as it takes to empty TENT, and they are at most as many as there are
different routers that up adjacencies and LSPs name. The tree is what is on PATH then, if the root
has an LSP. -/
theorem stages_proper_and_finite (root : SystemId) (links : List Link) (database : Database) :
    (∀ search pending, Stage root links database search pending →
      search.Proper ∧ (∀ vertex ∈ pending.head?, search.tent.RoomFor vertex) ∧
        ∀ key vertex rest, search.tent.popFirst? = some ((key, vertex), rest) →
          key = (vertex.distance, vertex.systemId) ∧
            (search.path.insert vertex.systemId.key vertex false).2 = .inserted) ∧
      (∀ moves, Stage root links database ((Search.start root links).run database moves) []) ∧
      ∃ iterations ≤ (namedSystems links database).dedup.length,
        (∀ moves, ((Search.start root links).run database moves).step database = none ↔
          iterations ≤ moves) ∧
        shortestPaths root links database =
          (database.router? root).elim (.error (.rootNotFound root)) fun _ =>
            .ok ((Search.start root links).run database iterations).path := by
  refine ⟨fun search pending h => ⟨h.proper, fun vertex _ => h.proper.wellFormed.roomFor vertex,
    fun key vertex rest hpop => h.proper.inserted_of_popFirst? hpop⟩,
    (stage_start root links database).run, ?_⟩
  obtain ⟨iterations, hbound, hiterations⟩ := exists_iterations root links database
  refine ⟨iterations, hbound, fun moves => (hiterations moves).1, ?_⟩
  have hsame := (hiterations (namedNeighbors links database)).2 <| by
    rw [← length_namedSystems]
    exact Nat.le_trans hbound (List.dedup_sublist _).length_le
  unfold shortestPaths
  rw [hsame]
  cases database.router? root with
  | none => rfl
  | some lsp => rfl

end Search

namespace Triangle

/-- The candidate over the direct link, which is the third router. -/
def direct : Vertex := ⟨⟨0, 0, 0, 0, 0, 3⟩, 5, some ⟨"direct", ⟨0, 0, 0, 0, 0, 3⟩, none⟩⟩

/-- The candidate over the other link, which is the second router. -/
def east : Vertex := ⟨⟨0, 0, 0, 0, 0, 2⟩, 1, some ⟨"east", ⟨0, 0, 0, 0, 0, 2⟩, none⟩⟩

/-- The second router is settled first. When it offers the third one, the candidate over the direct
link gives way, and the place of the new one is free. Three routers are named. -/
theorem stages_proper_and_finite_direct :
    (∃ rest, (Search.start (systemId 0) (links 0)).tent.popFirst? =
        some (((1, systemId 1), east), rest)) ∧
      ((Search.start (systemId 0) (links 0)).path.insert (systemId 1).key east false).2 =
        .inserted ∧
      (∃ search, Search.Stage (systemId 0) (links 0) database search
          [east.toward (systemId 2) 1] ∧
        search.tent.candidate? (systemId 2) = some ((5, systemId 2), direct) ∧
        Table.find? (search.tent.erase (5, systemId 2)) (2, systemId 2) = none) ∧
      ∃ iterations ≤ 3, ∀ moves,
        ((Search.start (systemId 0) (links 0)).run database moves).step database = none ↔
          iterations ≤ moves := by
  have hpop : (Search.start (systemId 0) (links 0)).tent.popFirst? =
      some (((1, systemId 1), east),
        ⟨[((5, systemId 2), direct)], List.pairwise_singleton _ _⟩) := by decide +kernel
  have hneighbors : ((database.router? east.systemId).elim [] Lsp.neighbors).map
      (ofNeighbor east) = [east.toward (systemId 0) 1, east.toward (systemId 2) 1] := by
    decide +kernel
  have hnamed : (namedSystems (links 0) database).dedup.length = 3 := by decide +kernel
  have hstart := Search.stage_start (systemId 0) (links 0) database
  have hstage := (hneighbors ▸ hstart.pop hpop).offer
  obtain ⟨hstages, -, iterations, hbound, hiterations, -⟩ :=
    Search.stages_proper_and_finite (systemId 0) (links 0) database
  obtain ⟨-, -, hpopped⟩ := hstages _ _ hstart
  obtain ⟨-, hroom, -⟩ := hstages _ _ hstage
  exact ⟨⟨_, hpop⟩, (hpopped _ _ _ hpop).2,
    ⟨_, hstage, by decide +kernel,
      (hroom _ rfl).place_freed _ direct (by decide +kernel)⟩,
    iterations, hnamed ▸ hbound, hiterations⟩

end Triangle

end LinkState
