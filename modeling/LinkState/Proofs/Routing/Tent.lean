import Mathlib.Data.List.Nodup
import LinkState.Routing.ShortestPath
import LinkState.Proofs.Lookup

/-!
# Candidates of a search

TENT is well formed if every candidate is filed under its distance and system ID and no router has
two. On a well-formed TENT an offer takes in a candidate exactly if it is nearer than all that are
there for its router, which then go (`mem_values_offer`), and its place is free by then
(`WellFormed.roomFor`). The first candidate is a nearest one (`popFirst?_least`). `Offered` says
what a row of offers makes of TENT: nothing comes in but what is offered, and nobody's candidate
gets farther away (`offered_foldl`).
-/

namespace LinkState

open Ranked (rank)

/-- Keys of candidates are ordered by distance first. -/
theorem distance_le_of_rank_lt {a b : UInt32 × SystemId} (h : rank a < rank b) : a.1 ≤ b.1 := by
  have hb := b.2.toNat_toOctets_lt
  change a.1.toNat * Octets.count 6 + Octets.toNat a.2.toOctets <
    b.1.toNat * Octets.count 6 + Octets.toNat b.2.toOctets at h
  rw [show Octets.count 6 = 0x1000000000000 from rfl] at h hb
  rw [UInt32.le_iff_toNat_le]
  omega

namespace Tent

/-- Every candidate is filed under its distance and system ID, and no router has two. -/
structure WellFormed (tent : Tent) : Prop where
  filed : ∀ entry ∈ tent.entries, entry.1 = (entry.2.distance, entry.2.systemId)
  unique : ∀ a ∈ tent.values, ∀ b ∈ tent.values, a.systemId = b.systemId → a = b

variable {tent : Tent} {vertex other : Vertex}

theorem wellFormed_empty : WellFormed .empty where
  filed _ h := absurd h List.not_mem_nil
  unique _ h := absurd h List.not_mem_nil

/-- TENT is well formed if all candidates are filed under their distances and routers and the
routers are different ones. -/
theorem wellFormed_iff :
    tent.WellFormed ↔ (∀ entry ∈ tent.entries, entry.1 = (entry.2.distance, entry.2.systemId)) ∧
      (tent.values.map (·.systemId)).Nodup := by
  constructor
  · intro h
    refine ⟨h.filed, List.pairwise_map.2 (List.pairwise_map.2 ?_)⟩
    refine tent.ascending.imp_of_mem fun {a b} ha hb hlt hsystem => ?_
    -- Two candidates of one router would be filed under one key.
    have hsame : a.2 = b.2 := h.unique a.2 (List.mem_map.2 ⟨a, ha, rfl⟩) b.2
      (List.mem_map.2 ⟨b, hb, rfl⟩) hsystem
    rw [h.filed a ha, h.filed b hb, hsame] at hlt
    exact Nat.lt_irrefl _ hlt
  · rintro ⟨hfiled, hnodup⟩
    exact ⟨hfiled, fun a ha b hb hsystem => List.inj_on_of_nodup_map hnodup ha hb hsystem⟩

/-- A candidate stands in a well-formed table at its own place. -/
theorem WellFormed.mem_values (h : tent.WellFormed) :
    vertex ∈ tent.values ↔ ((vertex.distance, vertex.systemId), vertex) ∈ tent.entries := by
  constructor
  · intro hvertex
    obtain ⟨entry, hentry, rfl⟩ := List.mem_map.1 hvertex
    rw [← h.filed entry hentry]
    exact hentry
  · exact fun hentry => List.mem_map.2 ⟨_, hentry, rfl⟩

/-- A candidate that is found for a router is on TENT under its own key. -/
theorem mem_of_candidate?_eq_some {systemId : SystemId} {key : UInt32 × SystemId}
    (h : tent.candidate? systemId = some (key, vertex)) :
    (key, vertex) ∈ tent.entries ∧ vertex.systemId = systemId := by
  unfold candidate? at h
  exact ⟨List.mem_of_find?_eq_some h, by simpa using List.find?_some h⟩

/-- No candidate is found for a router only if there is none. -/
theorem ne_of_candidate?_eq_none {systemId : SystemId} (h : tent.candidate? systemId = none)
    (hother : other ∈ tent.values) : other.systemId ≠ systemId := by
  unfold candidate? at h
  obtain ⟨entry, hentry, rfl⟩ := List.mem_map.1 hother
  simpa using List.find?_eq_none.1 h entry hentry

/-- Filing a candidate whose router has none adds it and keeps the others. -/
theorem mem_values_file (h : tent.WellFormed)
    (hnew : ∀ present ∈ tent.values, present.systemId ≠ vertex.systemId) :
    other ∈ (tent.file vertex).values ↔ other = vertex ∨ other ∈ tent.values := by
  unfold file Table.values
  simp only [List.mem_map, Table.mem_insert]
  constructor
  · rintro ⟨entry, rfl | ⟨hentry, -⟩, rfl⟩
    · exact Or.inl rfl
    · exact Or.inr ⟨entry, hentry, rfl⟩
  · rintro (rfl | ⟨entry, hentry, rfl⟩)
    · exact ⟨_, Or.inl rfl, rfl⟩
    · refine ⟨entry, Or.inr ⟨hentry, fun hkey => ?_⟩, rfl⟩
      rw [h.filed entry hentry] at hkey
      exact hnew entry.2 (List.mem_map.2 ⟨entry, hentry, rfl⟩) (congrArg Prod.snd hkey)

/-- Filing a candidate whose router has none keeps TENT well formed. -/
theorem wellFormed_file (h : tent.WellFormed)
    (hnew : ∀ present ∈ tent.values, present.systemId ≠ vertex.systemId) :
    (tent.file vertex).WellFormed where
  filed entry hentry := by
    rcases Table.mem_insert.1 hentry with rfl | ⟨hentry, -⟩
    · rfl
    · exact h.filed entry hentry
  unique a ha b hb hab := by
    -- The new candidate is the only one of its router, whichever of the two it is.
    rcases (mem_values_file h hnew).1 ha with hnewest | hold
    · rcases (mem_values_file h hnew).1 hb with hnewest' | hold'
      · rw [hnewest, hnewest']
      · exact absurd (hab ▸ hnewest ▸ rfl) (hnew b hold')
    · rcases (mem_values_file h hnew).1 hb with hnewest' | hold'
      · exact absurd (hab.trans (hnewest' ▸ rfl)) (hnew a hold)
      · exact h.unique a hold b hold' hab

/-- Removing a candidate keeps those of the other routers. -/
theorem mem_values_erase (h : tent.WellFormed) {present : Vertex} {key : UInt32 × SystemId}
    (hpresent : (key, present) ∈ tent.entries) :
    other ∈ Table.values (tent.erase key) ↔
      other ∈ tent.values ∧ other.systemId ≠ present.systemId := by
  have hkey : key = (present.distance, present.systemId) := h.filed _ hpresent
  have hmem : present ∈ tent.values := List.mem_map.2 ⟨_, hpresent, rfl⟩
  unfold Table.values
  simp only [List.mem_map, Table.mem_erase]
  constructor
  · rintro ⟨entry, ⟨hentry, hne⟩, rfl⟩
    refine ⟨⟨entry, hentry, rfl⟩, fun hsystem => hne ?_⟩
    -- Another entry of the same router would have the same key.
    have heq := h.unique entry.2 (List.mem_map.2 ⟨entry, hentry, rfl⟩) present hmem hsystem
    rw [h.filed entry hentry, heq, hkey]
  · rintro ⟨⟨entry, hentry, rfl⟩, hne⟩
    refine ⟨entry, ⟨hentry, fun heq => hne ?_⟩, rfl⟩
    rw [h.filed entry hentry, hkey] at heq
    exact congrArg Prod.snd heq

/-- Removing a candidate keeps TENT well formed. -/
theorem wellFormed_erase (h : tent.WellFormed) (key : UInt32 × SystemId) :
    WellFormed (tent.erase key) where
  filed entry hentry := h.filed entry (Table.mem_erase.1 hentry).1
  unique a ha b hb hab := by
    obtain ⟨entry, hentry, rfl⟩ := List.mem_map.1 ha
    obtain ⟨entry', hentry', rfl⟩ := List.mem_map.1 hb
    exact h.unique entry.2 (List.mem_map.2 ⟨entry, (Table.mem_erase.1 hentry).1, rfl⟩)
      entry'.2 (List.mem_map.2 ⟨entry', (Table.mem_erase.1 hentry').1, rfl⟩) hab

/-! ### Offers -/

/-- An offer takes in its candidate if that is nearer than all that are there for its router, and
only those go that it is nearer than. -/
theorem mem_values_offer (h : tent.WellFormed) (vertex : Vertex) :
    (tent.offer vertex).WellFormed ∧
      ∀ other, other ∈ (tent.offer vertex).values ↔
        other = vertex ∧ (∀ present ∈ tent.values, present.systemId = vertex.systemId →
            vertex.distance < present.distance) ∨
          other ∈ tent.values ∧
            (other.systemId = vertex.systemId → ¬vertex.distance < other.distance) := by
  unfold offer
  split
  · -- The router has no candidate yet.
    rename_i hnone
    have hnew := fun present (hpresent : present ∈ tent.values) =>
      ne_of_candidate?_eq_none hnone hpresent
    refine ⟨wellFormed_file h hnew, fun other => (mem_values_file h hnew).trans ?_⟩
    refine or_congr ?_ ?_
    · refine (and_iff_left fun present hpresent hsystem => ?_).symm
      exact absurd hsystem (hnew present hpresent)
    · exact ⟨fun hother => ⟨hother, fun hsystem => absurd hsystem (hnew other hother)⟩, And.left⟩
  · rename_i key present hsome
    obtain ⟨hentry, hsystem⟩ := mem_of_candidate?_eq_some hsome
    have hpresent : present ∈ tent.values := List.mem_map.2 ⟨_, hentry, rfl⟩
    have honly : ∀ other ∈ tent.values, other.systemId = vertex.systemId → other = present :=
      fun other hother heq => h.unique other hother present hpresent (heq.trans hsystem.symm)
    split
    · -- The candidate that is there is farther away and goes.
      rename_i hnearer
      have hrest : ∀ other ∈ Table.values (tent.erase key), other.systemId ≠ vertex.systemId :=
        fun other hother => hsystem ▸ ((mem_values_erase h hentry).1 hother).2
      refine ⟨wellFormed_file (wellFormed_erase h key) hrest, fun other => ?_⟩
      rw [mem_values_file (wellFormed_erase h key) hrest, mem_values_erase h hentry, hsystem]
      refine or_congr ?_ (and_congr_right fun hother => ?_)
      · refine (and_iff_left fun other hother heq => ?_).symm
        rw [honly other hother heq]
        exact hnearer
      · refine ⟨fun hne heq => absurd heq hne, fun hkept heq => ?_⟩
        have := honly other hother heq
        exact hkept heq (this ▸ hnearer)
    · -- The candidate that is there stays.
      rename_i hfarther
      refine ⟨h, fun other => ?_⟩
      constructor
      · intro hother
        refine Or.inr ⟨hother, fun heq => ?_⟩
        rw [honly other hother heq]
        exact hfarther
      · rintro (⟨-, hall⟩ | ⟨hother, -⟩)
        · exact absurd (hall present hpresent hsystem) hfarther
        · exact hother

/-- There is room for an offer: its place on TENT is free, or becomes free when the candidate that
is there for its router is removed, and the candidates of the other routers are not touched. -/
structure RoomFor (tent : Tent) (vertex : Vertex) : Prop where
  place_free : tent.candidate? vertex.systemId = none →
    tent.find? (vertex.distance, vertex.systemId) = none
  place_freed : ∀ key present, tent.candidate? vertex.systemId = some (key, present) →
    Table.find? (tent.erase key) (vertex.distance, vertex.systemId) = none
  others_stay : ∀ other, other.systemId ≠ vertex.systemId →
    (other ∈ (tent.offer vertex).values ↔ other ∈ tent.values)

/-- Where no candidate is of a router, nothing is filed under it. -/
theorem WellFormed.find?_eq_none (h : tent.WellFormed) {systemId : SystemId}
    (hnone : ∀ present ∈ tent.values, present.systemId ≠ systemId) (distance : UInt32) :
    tent.find? (distance, systemId) = none := by
  refine Option.eq_none_iff_forall_ne_some.2 fun present hpresent => ?_
  have hentry := Table.find?_eq_some_iff.1 hpresent
  have hkey : (distance, systemId) = (present.distance, present.systemId) := h.filed _ hentry
  exact hnone present (List.mem_map.2 ⟨_, hentry, rfl⟩) (congrArg Prod.snd hkey).symm

/-- On a well-formed TENT there is room for every offer. -/
theorem WellFormed.roomFor (h : tent.WellFormed) (vertex : Vertex) : tent.RoomFor vertex where
  place_free hnone :=
    h.find?_eq_none (fun _ hpresent => ne_of_candidate?_eq_none hnone hpresent) _
  place_freed key present hsome := by
    obtain ⟨hentry, hsystem⟩ := mem_of_candidate?_eq_some hsome
    exact (wellFormed_erase h key).find?_eq_none
      (fun _ hother => hsystem ▸ ((mem_values_erase h hentry).1 hother).2) _
  others_stay other hne := by
    rw [(mem_values_offer h vertex).2]
    constructor
    · rintro (⟨rfl, -⟩ | ⟨hother, -⟩)
      · exact absurd rfl hne
      · exact hother
    · exact fun hother => Or.inr ⟨hother, fun hsystem => absurd hsystem hne⟩

/-! ### The first candidate -/

/-- The first candidate is a nearest one; the others stay, and none of them is of its router. -/
theorem popFirst?_least (h : tent.WellFormed) {key : UInt32 × SystemId} {rest : Tent}
    (hpop : tent.popFirst? = some ((key, vertex), rest)) :
    rest.WellFormed ∧ (∀ other, other ∈ tent.values ↔ other = vertex ∨ other ∈ rest.values) ∧
      ∀ other ∈ rest.values,
        other.systemId ≠ vertex.systemId ∧ vertex.distance ≤ other.distance := by
  obtain ⟨hentries, hleast⟩ := Table.popFirst?_eq_some hpop
  have hfirst : (key, vertex) ∈ tent.entries := hentries ▸ List.mem_cons_self
  have hrest : ∀ entry ∈ rest.entries, entry ∈ tent.entries :=
    fun entry hentry => hentries ▸ List.mem_cons_of_mem _ hentry
  have hvalues : ∀ other, other ∈ tent.values ↔ other = vertex ∨ other ∈ rest.values := by
    intro other
    unfold Table.values
    rw [hentries, List.map_cons, List.mem_cons]
  refine ⟨⟨fun entry hentry => h.filed entry (hrest entry hentry), fun a ha b hb hab =>
    h.unique a ((hvalues a).2 (Or.inr ha)) b ((hvalues b).2 (Or.inr hb)) hab⟩, hvalues, ?_⟩
  intro other hother
  obtain ⟨entry, hentry, rfl⟩ := List.mem_map.1 hother
  have hlt : rank key < rank entry.1 := hleast entry hentry
  have hkey : key = (vertex.distance, vertex.systemId) := h.filed _ hfirst
  have hkey' : entry.1 = (entry.2.distance, entry.2.systemId) := h.filed entry (hrest entry hentry)
  constructor
  · -- Two candidates of one router would be one entry, which is not before itself.
    intro hsystem
    have heq := h.unique entry.2 ((hvalues _).2 (Or.inr hother)) vertex
      ((hvalues _).2 (Or.inl rfl)) hsystem
    rw [hkey', heq, hkey] at hlt
    exact Nat.lt_irrefl _ hlt
  · have hle := distance_le_of_rank_lt hlt
    rw [hkey, hkey'] at hle
    exact hle

end Tent

/-! ### Rows of offers -/

/-- What a row of offers makes of TENT while PATH stays as it is. -/
structure Offered (path : Avl.Map Vertex) (vertices : List Vertex) (before after : Tent) :
    Prop where
  wellFormed : after.WellFormed
  /-- What comes in was offered, and its router is not on PATH. -/
  origin : ∀ vertex ∈ after.values, vertex ∈ before.values ∨
    vertex ∈ vertices ∧ path.find? vertex.systemId.key = none
  /-- A router that had a candidate has one that is at least as near. -/
  kept : ∀ vertex ∈ before.values, ∃ other ∈ after.values,
    other.systemId = vertex.systemId ∧ other.distance ≤ vertex.distance
  /-- So has a router that was offered and is not on PATH. -/
  taken : ∀ vertex ∈ vertices, path.find? vertex.systemId.key = none →
    ∃ other ∈ after.values, other.systemId = vertex.systemId ∧ other.distance ≤ vertex.distance

/-- A single offer. -/
theorem offered_offer {path : Avl.Map Vertex} {tent : Tent} (h : tent.WellFormed)
    (vertex : Vertex) : Offered path [vertex] tent (Search.offer path tent vertex) := by
  unfold Search.offer Avl.Map.contains
  cases hpath : path.find? vertex.systemId.key with
  | some settled =>
    -- The router is on PATH, and the offer is passed over.
    refine ⟨h, fun other hother => Or.inl hother,
      fun other hother => ⟨other, hother, rfl, UInt32.le_refl _⟩, ?_⟩
    intro other hother hnone
    rw [List.mem_singleton.1 hother, hpath] at hnone
    cases hnone
  | none =>
    obtain ⟨hafter, hmem⟩ := Tent.mem_values_offer h vertex
    rw [Option.isSome_none, if_neg Bool.false_ne_true]
    refine ⟨hafter, fun other hother => ?_, fun present hpresent => ?_, fun other hother _ => ?_⟩
    · rcases (hmem other).1 hother with ⟨rfl, -⟩ | ⟨hold, -⟩
      · exact Or.inr ⟨List.mem_singleton_self _, hpath⟩
      · exact Or.inl hold
    · -- Who goes gives way to the offered candidate, which is nearer.
      by_cases hgoes : present.systemId = vertex.systemId ∧ vertex.distance < present.distance
      · obtain ⟨hsystem, hnearer⟩ := hgoes
        have hall : ∀ other ∈ tent.values, other.systemId = vertex.systemId →
            vertex.distance < other.distance := fun other hother heq => by
          rw [h.unique other hother present hpresent (heq.trans hsystem.symm)]
          exact hnearer
        exact ⟨vertex, (hmem vertex).2 (Or.inl ⟨rfl, hall⟩), hsystem.symm,
          UInt32.le_of_lt hnearer⟩
      · exact ⟨present, (hmem present).2 (Or.inr ⟨hpresent, fun hsystem hnearer =>
          hgoes ⟨hsystem, hnearer⟩⟩), rfl, UInt32.le_refl _⟩
    · rw [List.mem_singleton.1 hother]
      by_cases hfirst : ∀ present ∈ tent.values, present.systemId = vertex.systemId →
          vertex.distance < present.distance
      · exact ⟨vertex, (hmem vertex).2 (Or.inl ⟨rfl, hfirst⟩), rfl, UInt32.le_refl _⟩
      · -- A candidate that is at least as near is there and stays.
        simp only [Classical.not_forall] at hfirst
        obtain ⟨present, hpresent, hsystem, hnear⟩ := hfirst
        exact ⟨present, (hmem present).2 (Or.inr ⟨hpresent, fun _ => hnear⟩), hsystem,
          UInt32.not_lt.1 hnear⟩

/-- Two rows of offers make one. -/
theorem Offered.append {path : Avl.Map Vertex} {first second : List Vertex}
    {before between after : Tent} (hfirst : Offered path first before between)
    (hsecond : Offered path second between after) :
    Offered path (first ++ second) before after := by
  -- The second row takes away only what it replaces by something at least as near.
  have hthrough {vertex : Vertex} (h : ∃ other ∈ between.values,
      other.systemId = vertex.systemId ∧ other.distance ≤ vertex.distance) :
      ∃ other ∈ after.values, other.systemId = vertex.systemId ∧
        other.distance ≤ vertex.distance := by
    obtain ⟨other, hother, hsystem, hle⟩ := h
    obtain ⟨last, hlast, hsystem', hle'⟩ := hsecond.kept other hother
    exact ⟨last, hlast, hsystem'.trans hsystem, UInt32.le_trans hle' hle⟩
  refine ⟨hsecond.wellFormed, fun vertex hvertex => ?_, fun vertex hvertex =>
    hthrough (hfirst.kept vertex hvertex), fun vertex hvertex hpath => ?_⟩
  · rcases hsecond.origin vertex hvertex with hbetween | ⟨hoffered, hpath⟩
    · rcases hfirst.origin vertex hbetween with hbefore | ⟨hoffered, hpath⟩
      · exact Or.inl hbefore
      · exact Or.inr ⟨List.mem_append_left _ hoffered, hpath⟩
    · exact Or.inr ⟨List.mem_append_right _ hoffered, hpath⟩
  · rcases List.mem_append.1 hvertex with hvertex | hvertex
    · exact hthrough (hfirst.taken vertex hvertex hpath)
    · exact hsecond.taken vertex hvertex hpath

/-- A row of offers. -/
theorem offered_foldl {path : Avl.Map Vertex} {tent : Tent} (h : tent.WellFormed)
    (vertices : List Vertex) :
    Offered path vertices tent (vertices.foldl (Search.offer path) tent) := by
  induction vertices generalizing tent with
  | nil =>
    exact ⟨h, fun vertex hvertex => Or.inl hvertex,
      fun vertex hvertex => ⟨vertex, hvertex, rfl, UInt32.le_refl _⟩,
      fun vertex hvertex => absurd hvertex List.not_mem_nil⟩
  | cons vertex vertices ih =>
    have hfirst : Offered path [vertex] tent (Search.offer path tent vertex) :=
      offered_offer h vertex
    exact hfirst.append (ih hfirst.wellFormed)

end LinkState
