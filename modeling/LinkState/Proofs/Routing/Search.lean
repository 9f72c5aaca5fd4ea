import LinkState.Proofs.Avl.Validity
import LinkState.Proofs.Keys
import LinkState.Proofs.Routing.Paths
import LinkState.Proofs.Routing.Tent

/-!
# The invariant of the search

Every router on PATH or TENT is there with the length of a path to it, and with that path's first
hop. Nobody on PATH is farther away than anybody on TENT. And whatever is one step away from the
root or from a router on PATH is on PATH or TENT too, and no farther away than that step says: PATH
and TENT cover it. This is so at the start (`invariant_start`), and a move keeps it
(`invariant_step`), because the router that it puts on PATH is a nearest candidate and its neighbors
are offered (`Move`).

Every move settles a router that was not on PATH and that a link or an LSP names, so that
`namedNeighbors` moves empty TENT (`invariant_run_start`).
-/

namespace LinkState

open Search (ofLink? ofNeighbor)

namespace Search

/-- A router is on PATH or a candidate on TENT. -/
def Has (search : Search) (vertex : Vertex) : Prop :=
  search.path.find? vertex.systemId.key = some vertex ∨ vertex ∈ search.tent.values

/-- The router of a vertex is on PATH or TENT at a distance that is no larger. -/
def Covers (search : Search) (vertex : Vertex) : Prop :=
  ∃ other, search.Has other ∧ other.systemId = vertex.systemId ∧ other.distance ≤ vertex.distance

end Search

/-- The distance of a vertex is the length of a path over the link that is its first hop. -/
def Attained (root : SystemId) (links : List Link) (database : Database) (vertex : Vertex) : Prop :=
  ∃ link ∈ links, ∃ first, ofLink? link = some first ∧ vertex.nexthop = first.nexthop ∧
    ∃ rest, AdvertisedPath root database first.systemId vertex.systemId rest ∧
      vertex.distance.toNat = min (first.distance.toNat + rest) (2 ^ 32 - 1)

/-- What is true of a search after every move. -/
structure Invariant (root : SystemId) (links : List Link) (database : Database) (search : Search) :
    Prop where
  path_valid : search.path.Valid
  path_filed : ∀ key vertex, search.path.find? key = some vertex → key = vertex.systemId.key
  root_settled : search.path.find? root.key = some ⟨root, 0, none⟩
  tent_wellFormed : search.tent.WellFormed
  /-- No candidate is on PATH. -/
  apart : ∀ vertex ∈ search.tent.values, search.path.find? vertex.systemId.key = none
  attained : ∀ vertex, search.Has vertex → vertex.systemId ≠ root →
    Attained root links database vertex
  /-- Routers are settled in the order of their distances. -/
  ascending : ∀ vertex, search.path.find? vertex.systemId.key = some vertex →
    ∀ other ∈ search.tent.values, vertex.distance ≤ other.distance
  links_covered : ∀ link ∈ links, ∀ first, ofLink? link = some first → search.Covers first
  neighbors_covered : ∀ vertex, search.path.find? vertex.systemId.key = some vertex →
    vertex.systemId ≠ root → ∀ lsp, database.router? vertex.systemId = some lsp →
      ∀ neighbor ∈ lsp.neighbors, search.Covers (ofNeighbor vertex neighbor)

variable {root : SystemId} {links : List Link} {database : Database} {search next : Search}

/-- A candidate of a link is as far away as the link's metric says. -/
theorem attained_ofLink? {link : Link} {first : Vertex} (hlink : link ∈ links)
    (hfirst : ofLink? link = some first) (hroot : first.systemId ≠ root) :
    Attained root links database first := by
  refine ⟨link, hlink, first, hfirst, rfl, 0, .refl hroot, ?_⟩
  -- A metric is a word and nothing is cut off.
  have := first.distance.toNat_lt
  omega

/-- A path to a router goes on to its advertised neighbors. -/
theorem Attained.ofNeighbor {vertex : Vertex} {lsp : Lsp} {neighbor : Neighbor}
    (h : Attained root links database vertex) (hlsp : database.router? vertex.systemId = some lsp)
    (hneighbor : neighbor ∈ lsp.neighbors) (hroot : neighbor.systemId ≠ root) :
    Attained root links database (ofNeighbor vertex neighbor) := by
  obtain ⟨link, hlink, first, hfirst, hnexthop, rest, hpath, hdistance⟩ := h
  refine ⟨link, hlink, first, hfirst, hnexthop, rest + neighbor.metric.toNat,
    hpath.step ⟨lsp, hlsp, neighbor, hneighbor, rfl, rfl⟩ hroot, ?_⟩
  change (saturatingAdd vertex.distance neighbor.metric).toNat = _
  rw [toNat_saturatingAdd, hdistance]
  omega

/-- The root is never a candidate. -/
theorem Invariant.ne_root {vertex : Vertex} (h : Invariant root links database search)
    (hvertex : vertex ∈ search.tent.values) : vertex.systemId ≠ root := by
  intro heq
  have hapart := h.apart vertex hvertex
  rw [heq, h.root_settled] at hapart
  cases hapart

/-! ### The start -/

/-- At the start only the root is on PATH. -/
theorem find?_start (root : SystemId) (links : List Link) (key : UInt64) :
    (Search.start root links).path.find? key =
      if key = root.key then some ⟨root, 0, none⟩ else none := by
  change (Avl.Map.empty.insert root.key (⟨root, 0, none⟩ : Vertex) false).1.find? key = _
  rw [Avl.Map.find?_insert Avl.Map.valid_empty]
  have hempty (key : UInt64) : (Avl.Map.empty : Avl.Map Vertex).find? key = none := rfl
  rw [hempty, hempty]
  simp only [or_true, and_true]

/-- The invariant holds at the start. -/
theorem invariant_start (root : SystemId) (links : List Link) (database : Database) :
    Invariant root links database (Search.start root links) := by
  have hfind := find?_start root links
  have hoffered : Offered (Search.start root links).path (links.filterMap ofLink?) .empty
      (Search.start root links).tent := offered_foldl Tent.wellFormed_empty _
  have honly : ∀ key vertex, (Search.start root links).path.find? key = some vertex →
      key = root.key ∧ vertex = ⟨root, 0, none⟩ := by
    intro key vertex hvertex
    rw [hfind] at hvertex
    split at hvertex
    · rename_i hkey
      exact ⟨hkey, (Option.some.inj hvertex).symm⟩
    · cases hvertex
  have hcandidate : ∀ vertex ∈ (Search.start root links).tent.values,
      (∃ link ∈ links, ofLink? link = some vertex) ∧
        (Search.start root links).path.find? vertex.systemId.key = none := by
    intro vertex hvertex
    rcases hoffered.origin vertex hvertex with hempty | ⟨hlink, hpath⟩
    · exact absurd hempty List.not_mem_nil
    · exact ⟨List.mem_filterMap.1 hlink, hpath⟩
  constructor
  case path_valid =>
    exact Avl.Map.valid_insert Avl.Map.valid_empty root.key (⟨root, 0, none⟩ : Vertex) false
  case path_filed =>
    intro key vertex hvertex
    obtain ⟨hkey, rfl⟩ := honly key vertex hvertex
    exact hkey
  case root_settled => exact (hfind root.key).trans (if_pos rfl)
  case tent_wellFormed => exact hoffered.wellFormed
  case apart => exact fun vertex hvertex => (hcandidate vertex hvertex).2
  case attained =>
    rintro vertex (hvertex | hvertex) hroot
    · obtain ⟨-, rfl⟩ := honly _ _ hvertex
      exact absurd rfl hroot
    · obtain ⟨⟨link, hlink, hfirst⟩, -⟩ := hcandidate vertex hvertex
      exact attained_ofLink? hlink hfirst hroot
  case ascending =>
    intro vertex hvertex other _
    obtain ⟨-, rfl⟩ := honly _ _ hvertex
    exact UInt32.zero_le
  case links_covered =>
    intro link hlink first hfirst
    by_cases hroot : first.systemId.key = root.key
    · -- A link may lead back to the root, which nobody is nearer to.
      refine ⟨⟨root, 0, none⟩, Or.inl ((hfind _).trans (if_pos rfl)),
        (SystemId.key_inj hroot).symm, UInt32.zero_le⟩
    · obtain ⟨other, hother, hsystem, hle⟩ := hoffered.taken first
        (List.mem_filterMap.2 ⟨link, hlink, hfirst⟩) ((hfind _).trans (if_neg hroot))
      exact ⟨other, Or.inr hother, hsystem, hle⟩
  case neighbors_covered =>
    intro vertex hvertex hroot
    obtain ⟨-, rfl⟩ := honly _ _ hvertex
    exact absurd rfl hroot

/-! ### A move -/

/-- What a move makes of a search: the nearest candidate goes to PATH, and the neighbors that its
LSP advertises are offered. -/
structure Move (database : Database) (search next : Search) (vertex : Vertex) (rest : Tent) :
    Prop where
  values_eq : ∀ other, other ∈ search.tent.values ↔ other = vertex ∨ other ∈ rest.values
  nearest : ∀ other ∈ rest.values,
    other.systemId ≠ vertex.systemId ∧ vertex.distance ≤ other.distance
  path_valid : next.path.Valid
  find?_eq : ∀ key, next.path.find? key =
    if key = vertex.systemId.key then some vertex else search.path.find? key
  offered : Offered next.path
    (((database.router? vertex.systemId).elim [] Lsp.neighbors).map (ofNeighbor vertex))
    rest next.tent

/-- As long as there is a candidate, the first one is settled. -/
theorem Invariant.exists_step (h : Invariant root links database search)
    {key : UInt32 × SystemId} {vertex : Vertex} {rest : Tent}
    (hpop : search.tent.popFirst? = some ((key, vertex), rest)) :
    ∃ next, search.step database = some next ∧ Move database search next vertex rest := by
  obtain ⟨hrest, hvalues, hleast⟩ := Tent.popFirst?_least h.tent_wellFormed hpop
  have hnew : search.path.find? vertex.systemId.key = none :=
    h.apart vertex ((hvalues vertex).2 (Or.inl rfl))
  unfold Search.step
  rw [hpop]
  refine ⟨_, rfl, hvalues, hleast, Avl.Map.valid_insert h.path_valid _ _ _, fun key => ?_,
    offered_foldl hrest _⟩
  rw [Avl.Map.find?_insert h.path_valid, hnew]
  simp only [or_true, and_true]

/-- Without a candidate there is no move. -/
theorem Search.step_eq_none (hpop : search.tent.popFirst? = none) :
    search.step database = none := by
  unfold Search.step
  rw [hpop]
  rfl

/-- There is a move exactly if there is a candidate. -/
theorem Search.step_eq_none_iff : search.step database = none ↔ search.tent.entries = [] := by
  refine ⟨fun hstep => Table.popFirst?_eq_none.1 ?_,
    fun hempty => step_eq_none (Table.popFirst?_eq_none.2 hempty)⟩
  unfold Search.step at hstep
  cases hpop : search.tent.popFirst? with
  | none => rfl
  | some popped =>
    rw [hpop] at hstep
    cases hstep

/-- A search that goes on makes a move. -/
theorem Invariant.exists_move (h : Invariant root links database search)
    (hstep : search.step database = some next) :
    ∃ vertex rest, Move database search next vertex rest := by
  cases hpop : search.tent.popFirst? with
  | none =>
    rw [Search.step_eq_none hpop] at hstep
    cases hstep
  | some popped =>
    obtain ⟨after, hafter, hmove⟩ := h.exists_step hpop
    rw [hafter] at hstep
    cases hstep
    exact ⟨_, _, hmove⟩

namespace Move

variable {vertex : Vertex} {rest : Tent}

/-- The settled vertex was a candidate. -/
theorem mem_values (hmove : Move database search next vertex rest) : vertex ∈ search.tent.values :=
  (hmove.values_eq vertex).2 (Or.inl rfl)

/-- The settled vertex is on PATH. -/
theorem find?_vertex (hmove : Move database search next vertex rest) :
    next.path.find? vertex.systemId.key = some vertex :=
  (hmove.find?_eq _).trans (if_pos rfl)

/-- What was on PATH stays there. -/
theorem find?_of_find? (hmove : Move database search next vertex rest)
    (h : Invariant root links database search) {key : UInt64} {other : Vertex}
    (hother : search.path.find? key = some other) : next.path.find? key = some other := by
  rw [hmove.find?_eq, if_neg, hother]
  -- The settled vertex was a candidate and so had no place on PATH.
  rintro rfl
  rw [h.apart vertex hmove.mem_values] at hother
  cases hother

/-- What is on PATH was there, or it is the settled vertex. -/
theorem eq_or_find? (hmove : Move database search next vertex rest) {key : UInt64} {other : Vertex}
    (hother : next.path.find? key = some other) :
    key = vertex.systemId.key ∧ other = vertex ∨ search.path.find? key = some other := by
  rw [hmove.find?_eq] at hother
  split at hother
  · rename_i hkey
    exact Or.inl ⟨hkey, (Option.some.inj hother).symm⟩
  · exact Or.inr hother

/-- A candidate was one before, or it is a neighbor of the settled vertex that is not on PATH. -/
theorem origin (hmove : Move database search next vertex rest) {other : Vertex}
    (hother : other ∈ next.tent.values) :
    other ∈ rest.values ∨ next.path.find? other.systemId.key = none ∧
      ∃ lsp, database.router? vertex.systemId = some lsp ∧
        ∃ neighbor ∈ lsp.neighbors, other = ofNeighbor vertex neighbor := by
  rcases hmove.offered.origin other hother with hrest | ⟨hoffered, hpath⟩
  · exact Or.inl hrest
  · obtain ⟨neighbor, hneighbor, rfl⟩ := List.mem_map.1 hoffered
    cases hlsp : database.router? vertex.systemId with
    | none =>
      rw [hlsp] at hneighbor
      exact absurd hneighbor List.not_mem_nil
    | some lsp =>
      rw [hlsp] at hneighbor
      exact Or.inr ⟨hpath, lsp, rfl, neighbor, hneighbor, rfl⟩

/-- What PATH and TENT covered they go on covering. -/
theorem covers (hmove : Move database search next vertex rest)
    (h : Invariant root links database search) {other : Vertex} (hother : search.Covers other) :
    next.Covers other := by
  obtain ⟨present, hpresent | hpresent, hsystem, hle⟩ := hother
  · refine ⟨present, Or.inl (hmove.find?_of_find? h hpresent), hsystem, hle⟩
  · rcases (hmove.values_eq present).1 hpresent with rfl | hrest
    · exact ⟨present, Or.inl hmove.find?_vertex, hsystem, hle⟩
    · obtain ⟨last, hlast, hsystem', hle'⟩ := hmove.offered.kept present hrest
      exact ⟨last, Or.inr hlast, hsystem'.trans hsystem, UInt32.le_trans hle' hle⟩

end Move

/-- An advertised neighbor is at least as far away as the router that advertises it. -/
theorem distance_le_ofNeighbor (vertex : Vertex) (neighbor : Neighbor) :
    vertex.distance ≤ (ofNeighbor vertex neighbor).distance := by
  have hlt := vertex.distance.toNat_lt
  change vertex.distance ≤ saturatingAdd vertex.distance neighbor.metric
  rw [UInt32.le_iff_toNat_le, toNat_saturatingAdd]
  omega

/-- A move keeps the invariant. -/
theorem invariant_step (h : Invariant root links database search)
    (hstep : search.step database = some next) : Invariant root links database next := by
  obtain ⟨vertex, rest, hmove⟩ := h.exists_move hstep
  have hvertex := hmove.mem_values
  have hroot := h.ne_root hvertex
  have hrest : ∀ other ∈ rest.values, other ∈ search.tent.values :=
    fun other hother => (hmove.values_eq other).2 (Or.inr hother)
  have hattained := h.attained vertex (Or.inr hvertex) hroot
  -- Nobody on PATH is farther away than the settled vertex.
  have hle : ∀ other, next.path.find? other.systemId.key = some other →
      other.distance ≤ vertex.distance := by
    intro other hother
    rcases hmove.eq_or_find? hother with ⟨-, rfl⟩ | hother
    · exact UInt32.le_refl _
    · exact h.ascending other hother vertex hvertex
  have hfiled : ∀ key other, next.path.find? key = some other → key = other.systemId.key := by
    intro key other hother
    rcases hmove.eq_or_find? hother with ⟨hkey, rfl⟩ | hother
    · exact hkey
    · exact h.path_filed key other hother
  constructor
  case path_valid => exact hmove.path_valid
  case path_filed => exact hfiled
  case root_settled => exact hmove.find?_of_find? h h.root_settled
  case tent_wellFormed => exact hmove.offered.wellFormed
  case apart =>
    intro other hother
    rcases hmove.origin hother with hother | ⟨hpath, -⟩
    · have hne := (hmove.nearest other hother).1
      rw [hmove.find?_eq, if_neg fun hkey => hne (SystemId.key_inj hkey)]
      exact h.apart other (hrest other hother)
    · exact hpath
  case attained =>
    rintro other (hother | hother) hne
    · rcases hmove.eq_or_find? hother with ⟨-, rfl⟩ | hother
      · exact hattained
      · exact h.attained other (Or.inl hother) hne
    · rcases hmove.origin hother with hother | ⟨-, lsp, hlsp, neighbor, hneighbor, rfl⟩
      · exact h.attained other (Or.inr (hrest other hother)) hne
      · exact hattained.ofNeighbor hlsp hneighbor hne
  case ascending =>
    intro settled hsettled other hother
    refine UInt32.le_trans (hle settled hsettled) ?_
    rcases hmove.origin hother with hother | ⟨-, lsp, hlsp, neighbor, hneighbor, rfl⟩
    · exact (hmove.nearest other hother).2
    · exact distance_le_ofNeighbor vertex neighbor
  case links_covered =>
    exact fun link hlink first hfirst => hmove.covers h (h.links_covered link hlink first hfirst)
  case neighbors_covered =>
    intro settled hsettled hne lsp hlsp neighbor hneighbor
    rcases hmove.eq_or_find? hsettled with ⟨-, rfl⟩ | hsettled
    · cases hpath : next.path.find? neighbor.systemId.key with
      | none =>
        have hoffered : ofNeighbor settled neighbor ∈
            ((database.router? settled.systemId).elim [] Lsp.neighbors).map
              (ofNeighbor settled) := by
          rw [hlsp]
          exact List.mem_map_of_mem hneighbor
        obtain ⟨other, hother, hsystem, hle⟩ := hmove.offered.taken _ hoffered hpath
        exact ⟨other, Or.inr hother, hsystem, hle⟩
      | some other =>
        -- A neighbor on PATH is no farther away than the settled vertex.
        have hsystem := SystemId.key_inj (hfiled _ other hpath)
        rw [hsystem] at hpath
        exact ⟨other, Or.inl hpath, hsystem.symm,
          UInt32.le_trans (hle other hpath) (distance_le_ofNeighbor settled neighbor)⟩
    · exact hmove.covers h (h.neighbors_covered settled hsettled hne lsp hlsp neighbor hneighbor)

/-! ### The run -/

/-- The routers that links and LSPs name as neighbors, repetitions included. -/
def namedSystems (links : List Link) (database : Database) : List SystemId :=
  (links.filterMap ofLink?).map (·.systemId) ++
    (database.values.flatMap Lsp.neighbors).map (·.systemId)

/-- They are listed as often as they are named. -/
theorem length_namedSystems (links : List Link) (database : Database) :
    (namedSystems links database).length = namedNeighbors links database := by
  simp only [namedSystems, namedNeighbors, List.length_append, List.length_map]

/-- The named routers that are not on PATH. -/
def Search.unsettled (search : Search) (names : List SystemId) : Nat :=
  names.countP fun systemId => !search.path.contains systemId.key

/-- Whoever can be reached is named. -/
theorem Attained.mem_namedSystems {vertex : Vertex} (h : Attained root links database vertex) :
    vertex.systemId ∈ namedSystems links database := by
  obtain ⟨link, hlink, first, hfirst, -, rest, hpath, -⟩ := h
  unfold namedSystems
  rw [List.mem_append, List.mem_map, List.mem_map]
  -- The last step of the path names the router.
  generalize vertex.systemId = systemId at hpath ⊢
  cases hpath with
  | refl => exact Or.inl ⟨first, List.mem_filterMap.2 ⟨link, hlink, hfirst⟩, rfl⟩
  | step _ hleads _ =>
    obtain ⟨lsp, hlsp, neighbor, hneighbor, hsystem, -⟩ := hleads
    have hvalue : lsp ∈ database.values := Avl.Map.mem_values_of_find? hlsp
    exact Or.inr ⟨neighbor, List.mem_flatMap.2 ⟨lsp, hvalue, hneighbor⟩, hsystem⟩

/-- A move settles one of the named routers. -/
theorem Move.unsettled_lt {vertex : Vertex} {rest : Tent}
    (hmove : Move database search next vertex rest) (h : Invariant root links database search)
    {names : List SystemId} (hnamed : vertex.systemId ∈ names) :
    next.unsettled names < search.unsettled names := by
  -- The names in front of the settled one and those behind it count no more than before.
  obtain ⟨before, after, rfl⟩ := List.append_of_mem hnamed
  have hmono (names : List SystemId) : next.unsettled names ≤ search.unsettled names := by
    apply List.countP_mono_left
    intro systemId _ hnext
    unfold Avl.Map.contains at hnext ⊢
    cases hfound : search.path.find? systemId.key with
    | none => rfl
    | some other =>
      rw [hmove.find?_of_find? h hfound] at hnext
      exact hnext
  have hbefore := hmono before
  have hafter := hmono after
  have hnew : search.path.contains vertex.systemId.key = false := by
    unfold Avl.Map.contains
    rw [h.apart vertex hmove.mem_values]
    rfl
  have hsettled : next.path.contains vertex.systemId.key = true := by
    unfold Avl.Map.contains
    rw [hmove.find?_vertex]
    rfl
  unfold Search.unsettled at *
  rw [List.countP_append, List.countP_append, List.countP_cons, List.countP_cons, hnew, hsettled]
  simp only [Bool.not_true, Bool.not_false, if_true, Bool.false_eq_true, if_false]
  omega

/-- As many moves as there are unsettled routers empty TENT, and they keep the invariant. -/
theorem invariant_run {names : List SystemId}
    (hnames : ∀ vertex, Attained root links database vertex → vertex.systemId ∈ names)
    {moves : Nat} (h : Invariant root links database search)
    (hmoves : search.unsettled names ≤ moves) :
    Invariant root links database (search.run database moves) ∧
      (search.run database moves).tent.entries = [] := by
  induction moves generalizing search with
  | zero =>
    refine ⟨h, List.eq_nil_iff_forall_not_mem.2 fun entry hentry => ?_⟩
    -- A candidate would be a named router that is not on PATH.
    have hvertex : entry.2 ∈ search.tent.values := List.mem_map.2 ⟨entry, hentry, rfl⟩
    have hnamed := hnames entry.2 (h.attained entry.2 (Or.inr hvertex) (h.ne_root hvertex))
    have hnone : search.path.contains entry.2.systemId.key = false := by
      unfold Avl.Map.contains
      rw [h.apart entry.2 hvertex]
      rfl
    have hpos : 0 < search.unsettled names :=
      List.countP_pos_iff.2 ⟨entry.2.systemId, hnamed, by rw [hnone]; rfl⟩
    omega
  | succ moves ih =>
    unfold Search.run
    cases hstep : search.step database with
    | none => exact ⟨h, Search.step_eq_none_iff.1 hstep⟩
    | some next =>
      obtain ⟨vertex, rest, hmove⟩ := h.exists_move hstep
      have hvertex := hmove.mem_values
      have hnamed := hnames vertex (h.attained vertex (Or.inr hvertex) (h.ne_root hvertex))
      have hlt := hmove.unsettled_lt h hnamed
      exact ih (invariant_step h hstep) (by omega)

/-- A search is finished after as many moves as links and LSPs name neighbors, since each of them
settles one of these. -/
theorem invariant_run_start (root : SystemId) (links : List Link) (database : Database) :
    Invariant root links database
        ((Search.start root links).run database (namedNeighbors links database)) ∧
      ((Search.start root links).run database (namedNeighbors links database)).tent.entries =
        [] := by
  have hmoves : (Search.start root links).unsettled (namedSystems links database) ≤
      namedNeighbors links database := by
    rw [← length_namedSystems]
    exact List.countP_le_length
  exact invariant_run (fun _ h => h.mem_namedSystems) (invariant_start root links database) hmoves

end LinkState
