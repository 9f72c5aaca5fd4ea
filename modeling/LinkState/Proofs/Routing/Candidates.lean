import LinkState.Proofs.Routing.Tent

/-!
# The candidate of a router

On a well-formed TENT a router has at most one candidate (`Tent.vertex?_eq_some_iff`), and the
candidates of all routers tell TENT (`Tent.WellFormed.eq_of_vertex?_eq`). An offer changes the
candidate of its own router only, and leaves there the nearer of the two (`Tent.vertex?_offer`). So
a row of offers comes to a fold over those for the router in question (`Tent.vertex?_foldl`), and no
other offer of the row matters.
-/

namespace LinkState

/-- The nearer one of a candidate that is there, if there is one, and a candidate that is offered.
The former stays if they are equally near. -/
def Vertex.nearer (present : Option Vertex) (offered : Vertex) : Vertex :=
  match present with
  | none => offered
  | some present => if offered.distance < present.distance then offered else present

namespace Vertex

variable {vertex other : Vertex} {present : Option Vertex}

/-- A candidate that is at least as near stays. -/
theorem nearer_eq_present (h : other.distance ≤ vertex.distance) :
    vertex.nearer (some other) = other :=
  if_neg (UInt32.not_lt.2 h)

/-- What is left is no farther away than what was offered. -/
theorem distance_nearer_le : (vertex.nearer present).distance ≤ vertex.distance := by
  cases present with
  | none => exact UInt32.le_refl _
  | some present =>
    unfold nearer
    dsimp only
    split
    · exact UInt32.le_refl _
    · exact UInt32.not_lt.1 ‹_›

/-- The farther one of two offers does not matter if it is the second one. -/
theorem nearer_nearer_of_le (h : vertex.distance ≤ other.distance) :
    other.nearer (some (vertex.nearer present)) = vertex.nearer present :=
  nearer_eq_present (UInt32.le_trans distance_nearer_le h)

/-- Nor does it if it is the first one, provided that equally near offers are the same. -/
theorem nearer_nearer_of_ge (h : other.distance ≤ vertex.distance)
    (hsame : other.distance = vertex.distance → other = vertex) :
    other.nearer (some (vertex.nearer present)) = other.nearer present := by
  have hequal (hge : ¬other.distance < vertex.distance) : other = vertex :=
    hsame (UInt32.le_antisymm h (UInt32.not_lt.1 hge))
  cases present with
  | none =>
    change (if other.distance < vertex.distance then other else vertex) = other
    split
    · rfl
    · exact (hequal ‹_›).symm
  | some present =>
    unfold nearer
    dsimp only
    by_cases hvertex : vertex.distance < present.distance
    · rw [if_pos hvertex, if_pos (UInt32.lt_of_le_of_lt h hvertex)]
      split
      · rfl
      · exact (hequal ‹_›).symm
    · rw [if_neg hvertex]

end Vertex

namespace Tent

variable {tent other : Tent} {vertex : Vertex} {systemId : SystemId}

/-- The candidate for a router. -/
def vertex? (tent : Tent) (systemId : SystemId) : Option Vertex :=
  (tent.candidate? systemId).map (·.2)

/-- The candidate for a router is the one on TENT that has its system ID. -/
theorem vertex?_eq_some_iff (h : tent.WellFormed) :
    tent.vertex? systemId = some vertex ↔ vertex ∈ tent.values ∧ vertex.systemId = systemId := by
  unfold vertex?
  constructor
  · intro hfound
    obtain ⟨⟨key, present⟩, hcandidate, rfl⟩ := Option.map_eq_some_iff.1 hfound
    obtain ⟨hentry, hsystem⟩ := mem_of_candidate?_eq_some hcandidate
    exact ⟨List.mem_map.2 ⟨_, hentry, rfl⟩, hsystem⟩
  · rintro ⟨hmem, rfl⟩
    cases hcandidate : tent.candidate? vertex.systemId with
    | none => exact absurd rfl (ne_of_candidate?_eq_none hcandidate hmem)
    | some found =>
      obtain ⟨hentry, hsystem⟩ := mem_of_candidate?_eq_some hcandidate
      have hpresent : found.2 ∈ tent.values := List.mem_map.2 ⟨_, hentry, rfl⟩
      exact congrArg some (h.unique found.2 hpresent vertex hmem hsystem)

/-- A router without a candidate is that of no candidate. -/
theorem ne_of_vertex?_eq_none (h : tent.vertex? systemId = none) (hmem : vertex ∈ tent.values) :
    vertex.systemId ≠ systemId :=
  ne_of_candidate?_eq_none (Option.map_eq_none_iff.1 h) hmem

/-- Two well-formed tables with the same candidates for all routers are the same. -/
theorem WellFormed.eq_of_vertex?_eq (h : tent.WellFormed) (hother : other.WellFormed)
    (hsame : ∀ systemId, tent.vertex? systemId = other.vertex? systemId) : tent = other := by
  -- A table holds under a key the candidate that the key is made of.
  have hfind {tent : Tent} (h : tent.WellFormed) (key : UInt32 × SystemId) (vertex : Vertex) :
      Table.find? tent key = some vertex ↔
        key = (vertex.distance, vertex.systemId) ∧ tent.vertex? vertex.systemId = some vertex := by
    rw [Table.find?_eq_some_iff, vertex?_eq_some_iff h, h.mem_values]
    constructor
    · intro hentry
      have hkey : key = (vertex.distance, vertex.systemId) := h.filed _ hentry
      exact ⟨hkey, hkey ▸ hentry, rfl⟩
    · rintro ⟨rfl, hentry, -⟩
      exact hentry
  refine Table.eq_of_find?_eq fun key => Option.ext fun vertex => ?_
  rw [hfind h, hfind hother, hsame]

/-- Filing the first candidate of a router gives it to that router. -/
theorem vertex?_file (h : tent.WellFormed) (hnew : tent.vertex? vertex.systemId = none) :
    (tent.file vertex).vertex? systemId =
      if systemId = vertex.systemId then some vertex else tent.vertex? systemId := by
  have hothers : ∀ present ∈ tent.values, present.systemId ≠ vertex.systemId :=
    fun present hpresent => ne_of_vertex?_eq_none hnew hpresent
  refine Option.ext fun found => ?_
  rw [vertex?_eq_some_iff (wellFormed_file h hothers), mem_values_file h hothers]
  split
  · rename_i hsystem
    constructor
    · rintro ⟨rfl | hold, hfound⟩
      · rfl
      · exact absurd (hfound.trans hsystem) (hothers found hold)
    · intro hfound
      cases hfound
      exact ⟨Or.inl rfl, hsystem.symm⟩
  · rename_i hsystem
    rw [vertex?_eq_some_iff h]
    refine and_congr_left fun hfound => or_iff_right ?_
    rintro rfl
    exact hsystem hfound.symm

/-- Removing a candidate takes it from its router. -/
theorem vertex?_erase (h : tent.WellFormed) {key : UInt32 × SystemId}
    (hentry : (key, vertex) ∈ tent.entries) :
    vertex? (tent.erase key) systemId =
      if systemId = vertex.systemId then none else tent.vertex? systemId := by
  refine Option.ext fun found => ?_
  rw [vertex?_eq_some_iff (wellFormed_erase h key), mem_values_erase h hentry]
  split
  · rename_i hsystem
    constructor
    · rintro ⟨⟨-, hne⟩, hfound⟩
      exact absurd (hfound.trans hsystem) hne
    · intro hfound
      cases hfound
  · rename_i hsystem
    rw [vertex?_eq_some_iff h]
    refine and_congr_left fun hfound => and_iff_left ?_
    rw [hfound]
    exact hsystem

/-- An offer leaves the nearer candidate for its router and changes nothing for the others. -/
theorem vertex?_offer (h : tent.WellFormed) (vertex : Vertex) :
    (tent.offer vertex).vertex? systemId =
      if systemId = vertex.systemId then some (vertex.nearer (tent.vertex? systemId))
      else tent.vertex? systemId := by
  unfold offer
  split
  · rename_i hnone
    have hnew : tent.vertex? vertex.systemId = none := Option.map_eq_none_iff.2 hnone
    rw [vertex?_file h hnew]
    split
    · rename_i hsystem
      rw [hsystem, hnew]
      rfl
    · rfl
  · rename_i key present hsome
    obtain ⟨hentry, hsame⟩ := mem_of_candidate?_eq_some hsome
    have hpresent : tent.vertex? vertex.systemId = some present :=
      Option.map_eq_some_iff.2 ⟨_, hsome, rfl⟩
    by_cases hnearer : vertex.distance < present.distance
    · -- The candidate that is there is removed first.
      have hremoved : vertex? (tent.erase key) vertex.systemId = none := by
        rw [vertex?_erase h hentry, if_pos hsame.symm]
      rw [if_pos hnearer, vertex?_file (wellFormed_erase h key) hremoved]
      split
      · rename_i hsystem
        rw [hsystem, hpresent]
        exact congrArg some (if_pos hnearer).symm
      · rename_i hsystem
        rw [vertex?_erase h hentry, hsame, if_neg hsystem]
    · rw [if_neg hnearer]
      split
      · rename_i hsystem
        rw [hsystem, hpresent]
        exact congrArg some (if_neg hnearer).symm
      · rfl

/-- Of a row of offers only those for the router itself come to anything, and they do unless it is
on PATH. -/
theorem vertex?_foldl (h : tent.WellFormed) (path : Avl.Map Vertex) (vertices : List Vertex) :
    (vertices.foldl (Search.offer path) tent).vertex? systemId =
      if path.contains systemId.key then tent.vertex? systemId
      else (vertices.filter (·.systemId = systemId)).foldl
        (fun present vertex => some (vertex.nearer present)) (tent.vertex? systemId) := by
  induction vertices generalizing tent with
  | nil => exact (ite_self _).symm
  | cons vertex vertices ih =>
    have hnext : (Search.offer path tent vertex).WellFormed := (offered_offer h vertex).wellFormed
    rw [List.foldl_cons, ih hnext, List.filter_cons, Search.offer]
    by_cases hsystem : vertex.systemId = systemId
    · rw [if_pos (decide_eq_true hsystem), List.foldl_cons, hsystem]
      by_cases hpath : path.contains systemId.key
      · rw [if_pos hpath, if_pos hpath, if_pos hpath]
      · rw [if_neg hpath, if_neg hpath, if_neg hpath, vertex?_offer h, if_pos hsystem.symm]
    · have hkept : (if path.contains vertex.systemId.key then tent else tent.offer vertex).vertex?
          systemId = tent.vertex? systemId := by
        split
        · rfl
        · rw [vertex?_offer h, if_neg (Ne.symm hsystem)]
      have hother : ¬decide (vertex.systemId = systemId) = true := by simpa using hsystem
      rw [if_neg hother, hkept]

end Tent

end LinkState
