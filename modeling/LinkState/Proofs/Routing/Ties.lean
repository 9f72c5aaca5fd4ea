import Mathlib.Data.List.Induction
import LinkState.Proofs.Routing.Cheapest

/-!
# How ties are broken

Several ways to a router may be equally long. As long as every step costs something, which of them
is taken can be told from the finished tree (`TieBroken`): a link that leads straight to the router
at its distance comes before everything else, and the first such link in the order of the links.
Otherwise the router inherits its next hop, and from the first one, by distance and system ID, of
those that it could inherit it from.

The reason is that routers are settled in that order. What a settled router offers is farther away
than the router itself, so that whoever is still on TENT comes behind all of PATH
(`Ordered.ascending`). A candidate gives way only to one that is strictly nearer. So it comes from
the first one who offered it at its distance: from the first link at the start (`ordered_start`),
and later from the router that was just settled if nobody settled before could have offered as much
(`Fresh.tieBroken`). Every move keeps this (`ordered_step`), and so does a run (`ordered_run`), in
which the settled routers form a list in strictly ascending order (`Upcoming.settlingOrder`).
-/

namespace LinkState

open Search (ofLink? ofNeighbor)
open Ranked (rank)

/-- Vertices come in the order of their distances, and equally near ones in that of their system
IDs. -/
def Vertex.Before (a b : Vertex) : Prop :=
  a.distance < b.distance ∨ a.distance = b.distance ∧ a.systemId < b.systemId

/-- A link leads straight to the router of a vertex, at the distance of the vertex. -/
def Link.leadsTo (link : Link) (vertex : Vertex) : Bool :=
  link.adjacency.upNeighbor? = some vertex.systemId ∧ link.adjacency.metric = vertex.distance

/-- A vertex could have inherited its next hop from another one of the tree: that one is not the
root, and its LSP advertises the router of the vertex at the difference of the two distances. -/
structure IsParent (root : SystemId) (database : Database) (path : Avl.Map Vertex)
    (vertex parent : Vertex) : Prop where
  settled : path.find? parent.systemId.key = some parent
  ne_root : parent.systemId ≠ root
  leads : ∃ cost, Leads database parent.systemId vertex.systemId cost ∧
    vertex.distance.toNat = parent.distance.toNat + cost

/-- The next hop of a vertex is the one that the order of the links and of the vertices singles
out. -/
inductive TieBroken (root : SystemId) (links : List Link) (database : Database)
    (path : Avl.Map Vertex) (vertex : Vertex) : Prop where
  /-- It is that of the first link that leads straight to the vertex at its distance. -/
  | straight {link : Link} (hfirst : links.find? (·.leadsTo vertex) = some link)
      (hnexthop : vertex.nexthop =
        some ⟨link.name, vertex.systemId, link.adjacency.neighborIp⟩)
  /-- There is no such link, and it is that of the first one of its parents. -/
  | inherited {parent : Vertex} (hnone : links.find? (·.leadsTo vertex) = none)
      (hparent : IsParent root database path vertex parent)
      (hfirst : ∀ other, IsParent root database path vertex other →
        other = parent ∨ parent.Before other)
      (hnexthop : vertex.nexthop = parent.nexthop)

/-- The vertices of a finished tree in the order in which a search settles them: after any number of
moves, PATH holds the first vertex and as many of the others as there were moves. -/
structure SettlingOrder (root : SystemId) (links : List Link) (database : Database)
    (path : Avl.Map Vertex) (order : List Vertex) : Prop where
  find?_eq_some_iff : ∀ key vertex, path.find? key = some vertex ↔
    key = vertex.systemId.key ∧ vertex ∈ order
  find?_run : ∀ moves key vertex,
    ((Search.start root links).run database moves).path.find? key = some vertex ↔
      key = vertex.systemId.key ∧ vertex ∈ order.take (moves + 1)

section

variable {root : SystemId} {links : List Link} {database : Database} {search next : Search}
  {tent rest : Tent} {vertex other : Vertex} {key : UInt32 × SystemId}

/-! ### The order of the candidates -/

/-- The keys of candidates are ordered by distance and then system ID. -/
theorem before_iff_rank_lt : vertex.Before other ↔
    rank (vertex.distance, vertex.systemId) < rank (other.distance, other.systemId) := by
  have hvertex := vertex.systemId.toNat_toOctets_lt
  have hother := other.systemId.toNat_toOctets_lt
  change _ ↔ vertex.distance.toNat * Octets.count 6 + Octets.toNat vertex.systemId.toOctets <
    other.distance.toNat * Octets.count 6 + Octets.toNat other.systemId.toOctets
  rw [show Octets.count 6 = 0x1000000000000 from rfl] at hvertex hother ⊢
  unfold Vertex.Before
  rw [← SystemId.key_lt_key_iff, UInt64.lt_iff_toNat_lt, SystemId.toNat_key, SystemId.toNat_key,
    UInt32.lt_iff_toNat_lt, ← UInt32.toNat_inj]
  omega

theorem Vertex.Before.trans {a b c : Vertex} (hab : a.Before b) (hbc : b.Before c) :
    a.Before c := by
  rw [before_iff_rank_lt] at *
  exact Nat.lt_trans hab hbc

/-- The first candidate comes before the others. -/
theorem Tent.before_of_popFirst? (h : tent.WellFormed)
    (hpop : tent.popFirst? = some ((key, vertex), rest)) (hother : other ∈ rest.values) :
    vertex.Before other := by
  obtain ⟨hentries, hleast⟩ := Table.popFirst?_eq_some hpop
  obtain ⟨entry, hentry, rfl⟩ := List.mem_map.1 hother
  have hkey : key = (vertex.distance, vertex.systemId) :=
    h.filed (key, vertex) (hentries ▸ List.mem_cons_self)
  have hkey' : entry.1 = (entry.2.distance, entry.2.systemId) :=
    h.filed entry (hentries ▸ List.mem_cons_of_mem _ hentry)
  rw [before_iff_rank_lt, ← hkey, ← hkey']
  exact hleast entry hentry

/-- Either the candidate that was there is left, or the offered one that is strictly nearer. -/
theorem Vertex.nearer_cases (present : Option Vertex) (offered : Vertex) :
    present = some (offered.nearer present) ∨ offered.nearer present = offered ∧
      ∀ other, present = some other → offered.distance < other.distance := by
  cases present with
  | none => exact Or.inr ⟨rfl, fun _ hother => by cases hother⟩
  | some present =>
    by_cases hnearer : offered.distance < present.distance
    · exact Or.inr ⟨if_pos hnearer, fun other hother => Option.some.inj hother ▸ hnearer⟩
    · exact Or.inl (congrArg some (if_neg hnearer).symm)

/-- What a row of offers for one router leaves of nothing. -/
def Vertex.nearest? (offers : List Vertex) : Option Vertex :=
  offers.foldl (fun present offered => some (offered.nearer present)) none

theorem Vertex.nearest?_concat (offers : List Vertex) (last : Vertex) :
    nearest? (offers ++ [last]) = some (last.nearer (nearest? offers)) := by
  unfold nearest?
  rw [List.foldl_append, List.foldl_cons, List.foldl_nil]

/-- Of a row of offers the first of the nearest is left. -/
theorem Vertex.find?_of_nearest? {offers : List Vertex} {left : Vertex}
    (h : nearest? offers = some left) :
    offers.find? (·.distance = left.distance) = some left ∧
      ∀ offered ∈ offers, left.distance ≤ offered.distance := by
  induction offers using List.reverseRecOn generalizing left with
  | nil => cases h
  | append_singleton offers last ih =>
    rw [nearest?_concat] at h
    cases h
    rw [List.find?_append]
    rcases nearer_cases (nearest? offers) last with hpresent | ⟨hlast, hnearer⟩
    · obtain ⟨hfirst, hle⟩ := ih hpresent
      refine ⟨by rw [hfirst]; rfl, fun offered hoffered => ?_⟩
      rcases List.mem_append.1 hoffered with hoffered | hoffered
      · exact hle offered hoffered
      · rw [List.mem_singleton.1 hoffered]
        exact distance_nearer_le
    · -- All the offers so far are farther away than the last one.
      have hfarther : ∀ offered ∈ offers, last.distance < offered.distance := by
        intro offered hoffered
        obtain ⟨init, final, rfl⟩ := (List.eq_nil_or_concat' offers).resolve_left
          (List.ne_nil_of_mem hoffered)
        have hpresent := nearest?_concat init final
        exact UInt32.lt_of_lt_of_le (hnearer _ hpresent) ((ih hpresent).2 offered hoffered)
      have hnone : offers.find? (·.distance = last.distance) = none :=
        List.find?_eq_none.2 fun offered hoffered => by
          simpa using (UInt32.ne_of_lt (hfarther offered hoffered)).symm
      rw [hlast, hnone, Option.none_or]
      refine ⟨List.find?_cons_of_pos (decide_eq_true rfl), fun offered hoffered => ?_⟩
      rcases List.mem_append.1 hoffered with hoffered | hoffered
      · exact UInt32.le_of_lt (hfarther offered hoffered)
      · rw [List.mem_singleton.1 hoffered]
        exact UInt32.le_refl _

/-! ### What holds after every move -/

/-- What is true of a search after every move if every step costs something. Distances that are cut
off at the largest metric are left out, since they say nothing of where they come from. -/
structure Ordered (root : SystemId) (links : List Link) (database : Database) (search : Search) :
    Prop where
  /-- Whoever is settled comes before all candidates. -/
  ascending : ∀ vertex, search.path.find? vertex.systemId.key = some vertex →
    ∀ other ∈ search.tent.values, vertex.Before other
  tieBroken : ∀ vertex, search.Has vertex → vertex.systemId ≠ root →
    vertex.distance.toNat < 2 ^ 32 - 1 → TieBroken root links database search.path vertex

/-- A candidate at the start comes from the first link that leads to it at its distance. -/
theorem find?_leadsTo_start (hvertex : vertex ∈ (Search.start root links).tent.values) :
    ∃ link, links.find? (·.leadsTo vertex) = some link ∧ ofLink? link = some vertex := by
  have hrow : Offered (Search.start root links).path (links.filterMap ofLink?) .empty
      (Search.start root links).tent := offered_foldl Tent.wellFormed_empty _
  have hfound : ((links.filterMap ofLink?).foldl (Search.offer (Search.start root links).path)
      .empty).vertex? vertex.systemId = some vertex :=
    (Tent.vertex?_eq_some_iff hrow.wellFormed).2 ⟨hvertex, rfl⟩
  rw [Tent.vertex?_foldl Tent.wellFormed_empty] at hfound
  split at hfound
  · cases hfound
  · obtain ⟨hfirst, -⟩ := Vertex.find?_of_nearest? hfound
    rw [List.find?_filter, List.find?_filterMap, Option.bind_eq_some_iff] at hfirst
    obtain ⟨link, hlink, hcandidate⟩ := hfirst
    have hleads (link : Link) : ((ofLink? link).any fun first =>
        decide (first.systemId = vertex.systemId) && decide (first.distance = vertex.distance)) =
        link.leadsTo vertex := by
      unfold Link.leadsTo ofLink?
      cases link.adjacency.upNeighbor? with
      | none => simp
      | some neighbor => simp
    simp only [Bool.decide_and, Bool.decide_eq_true, hleads] at hlink
    exact ⟨link, hlink, hcandidate⟩

/-- The start, if every link that is up costs something. -/
theorem ordered_start (database : Database)
    (hlinks : ∀ link ∈ links, ∀ first, ofLink? link = some first → 0 < first.distance) :
    Ordered root links database (Search.start root links) := by
  have honly {vertex : Vertex}
      (h : (Search.start root links).path.find? vertex.systemId.key = some vertex) :
      vertex = ⟨root, 0, none⟩ := by
    rw [find?_start] at h
    split at h
    · exact (Option.some.inj h).symm
    · cases h
  constructor
  case ascending =>
    intro vertex hvertex other hother
    obtain ⟨link, hlink, hfirst⟩ := find?_leadsTo_start hother
    rw [honly hvertex]
    exact Or.inl (hlinks link (List.mem_of_find?_eq_some hlink) other hfirst)
  case tieBroken =>
    rintro vertex (hvertex | hvertex) hroot -
    · exact absurd (congrArg Vertex.systemId (honly hvertex)) hroot
    · obtain ⟨link, hlink, hfirst⟩ := find?_leadsTo_start hvertex
      exact .straight hlink (ofLink?_eq_some_iff.1 hfirst).2.2

/-! ### A move -/

/-- A metric that is the least one of an LSP is advertised there. -/
theorem leads_of_leastMetric? {router neighbor : SystemId} {metric : UInt32}
    (h : database.leastMetric? router neighbor = some metric) :
    Leads database router neighbor metric.toNat := by
  unfold Database.leastMetric? at h
  obtain ⟨lsp, hlsp, hleast⟩ := Option.bind_eq_some_iff.1 h
  obtain ⟨entry, hentry, hmetric⟩ := List.mem_map.1 (List.min?_mem hleast)
  obtain ⟨hentry, hneighbor⟩ := List.mem_filter.1 hentry
  exact ⟨lsp, hlsp, entry, hentry, of_decide_eq_true hneighbor, congrArg UInt32.toNat hmetric⟩

/-- The candidate comes from the router that was just settled, at the least metric of its LSP, and
it is nearer than what was there for its own router. -/
structure Fresh (database : Database) (settled : Vertex) (rest : Tent) (vertex : Vertex) : Prop
    where
  eq_toward : ∃ metric, database.leastMetric? settled.systemId vertex.systemId = some metric ∧
    vertex = settled.toward vertex.systemId metric
  nearer : ∀ other ∈ rest.values, other.systemId = vertex.systemId →
    vertex.distance < other.distance

/-- A candidate was one before, or it is a fresh one. -/
theorem Invariant.mem_or_fresh (h : Invariant root links database search) {settled : Vertex}
    (hpop : search.tent.popFirst? = some ((key, settled), rest))
    (hstep : search.step database = some next) (hvertex : vertex ∈ next.tent.values) :
    vertex ∈ rest.values ∨ Fresh database settled rest vertex := by
  have hrest : rest.WellFormed := (Tent.popFirst?_least h.tent_wellFormed hpop).1
  have hfound := (Tent.vertex?_eq_some_iff (invariant_step h hstep).tent_wellFormed).2
    ⟨hvertex, rfl⟩
  unfold Search.step at hstep
  rw [hpop] at hstep
  cases hstep
  dsimp only at hfound
  rw [Tent.vertex?_neighbors hrest] at hfound
  have hkept (h : rest.vertex? vertex.systemId = some vertex) : vertex ∈ rest.values :=
    ((Tent.vertex?_eq_some_iff hrest).1 h).1
  split at hfound
  · exact Or.inl (hkept hfound)
  · cases hleast : database.leastMetric? settled.systemId vertex.systemId with
    | none =>
      rw [hleast] at hfound
      exact Or.inl (hkept hfound)
    | some metric =>
      rw [hleast, Option.elim_some, Option.some.injEq] at hfound
      rcases Vertex.nearer_cases (rest.vertex? vertex.systemId)
        (settled.toward vertex.systemId metric) with hpresent | ⟨htoward, hnearer⟩
      · exact Or.inl (hkept (hpresent.trans (congrArg some hfound)))
      · rw [htoward] at hfound
        refine Or.inr ⟨⟨metric, hleast, hfound.symm⟩, fun other hother heq => ?_⟩
        rw [← hfound]
        exact hnearer other ((Tent.vertex?_eq_some_iff hrest).2 ⟨hother, heq⟩)

/-- A fresh candidate is nearer than whatever else its own router was covered by. -/
theorem Fresh.lt_of_covers {settled : Vertex} (hfresh : Fresh database settled rest vertex)
    (hmove : Move database search next settled rest) (h : Invariant root links database search)
    (hapart : next.path.find? vertex.systemId.key = none) (hcovers : search.Covers other)
    (hsystem : other.systemId = vertex.systemId) : vertex.distance < other.distance := by
  obtain ⟨present, hpresent, hsame, hle⟩ := hcovers
  have hsame := hsame.trans hsystem
  rcases hpresent with hpath | htent
  · have hnext := hmove.find?_of_find? h hpath
    rw [hsame, hapart] at hnext
    cases hnext
  · rcases (hmove.values_eq present).1 htent with rfl | hrest
    · have hnext := hmove.find?_vertex
      rw [hsame, hapart] at hnext
      cases hnext
    · exact UInt32.lt_of_lt_of_le (hfresh.nearer present hrest hsame) hle

/-- A fresh candidate has no other parent than the router that was just settled, and no link leads
straight to it at its distance. -/
theorem Fresh.tieBroken {settled : Vertex} (hfresh : Fresh database settled rest vertex)
    (hmove : Move database search next settled rest) (h : Invariant root links database search)
    (hapart : next.path.find? vertex.systemId.key = none)
    (hbelow : vertex.distance.toNat < 2 ^ 32 - 1) :
    TieBroken root links database next.path vertex := by
  obtain ⟨metric, hleast, hvertex⟩ := hfresh.eq_toward
  have hdistance : vertex.distance.toNat = settled.distance.toNat + metric.toNat := by
    have hsum : vertex.distance.toNat = (saturatingAdd settled.distance metric).toNat :=
      congrArg (fun vertex => vertex.distance.toNat) hvertex
    rw [toNat_saturatingAdd] at hsum
    omega
  have hparent : IsParent root database next.path vertex settled :=
    ⟨hmove.find?_vertex, h.ne_root hmove.mem_values, metric.toNat, leads_of_leastMetric? hleast,
      hdistance⟩
  have hnexthop : vertex.nexthop = settled.nexthop := by rw [hvertex]; rfl
  refine .inherited ?_ hparent (fun other hother => Or.inl ?_) hnexthop
  · rw [List.find?_eq_none]
    intro link hlink hleads
    obtain ⟨hneighbor, hmetric⟩ : link.adjacency.upNeighbor? = some vertex.systemId ∧
        link.adjacency.metric = vertex.distance := by simpa [Link.leadsTo] using hleads
    have hfirst : ofLink? link = some ⟨vertex.systemId, vertex.distance,
        some ⟨link.name, vertex.systemId, link.adjacency.neighborIp⟩⟩ :=
      ofLink?_eq_some_iff.2 ⟨hneighbor, hmetric.symm, rfl⟩
    have hcovers := h.links_covered link hlink _ hfirst
    exact UInt32.lt_irrefl _ (hfresh.lt_of_covers hmove h hapart hcovers rfl)
  · rcases hmove.eq_or_find? hother.settled with ⟨-, rfl⟩ | hpath
    · rfl
    · -- A parent that was settled before has offered as much before.
      obtain ⟨cost, ⟨lsp, hlsp, neighbor, hneighbor, hsystem, rfl⟩, hsum⟩ := hother.leads
      have hcovers := h.neighbors_covered other hpath hother.ne_root lsp hlsp neighbor hneighbor
      have hlt := hfresh.lt_of_covers hmove h hapart hcovers hsystem
      have hoffered := toNat_saturatingAdd other.distance neighbor.metric
      have hlt : vertex.distance.toNat < (saturatingAdd other.distance neighbor.metric).toNat :=
        UInt32.lt_iff_toNat_lt.1 hlt
      omega

/-- One more settled router that comes behind the others makes no difference. -/
theorem TieBroken.mono {settled : Vertex} (htie : TieBroken root links database search.path vertex)
    (hmove : Move database search next settled rest) (h : Invariant root links database search)
    (hordered : Ordered root links database search) :
    TieBroken root links database next.path vertex := by
  cases htie with
  | straight hfirst hnexthop => exact .straight hfirst hnexthop
  | @inherited parent hnone hparent hfirst hnexthop =>
    refine .inherited hnone ⟨hmove.find?_of_find? h hparent.settled, hparent.ne_root,
      hparent.leads⟩ (fun other hother => ?_) hnexthop
    rcases hmove.eq_or_find? hother.settled with ⟨-, rfl⟩ | hpath
    · exact Or.inr (hordered.ascending parent hparent.settled other hmove.mem_values)
    · exact hfirst other ⟨hpath, hother.ne_root, hother.leads⟩

/-- A move keeps the order if the settled router is not at the largest distance and its LSP
advertises no neighbor at no cost. -/
theorem ordered_step {settled : Vertex} (h : Invariant root links database search)
    (hordered : Ordered root links database search)
    (hpop : search.tent.popFirst? = some ((key, settled), rest))
    (hstep : search.step database = some next)
    (hmove : Move database search next settled rest)
    (hcosts : ∀ neighbor cost, Leads database settled.systemId neighbor cost → 0 < cost)
    (hbelow : settled.distance.toNat < 2 ^ 32 - 1) : Ordered root links database next := by
  have hinvariant := invariant_step h hstep
  have hbehind : ∀ vertex ∈ next.tent.values, settled.Before vertex := by
    intro vertex hvertex
    rcases h.mem_or_fresh hpop hstep hvertex with hrest | hfresh
    · exact Tent.before_of_popFirst? h.tent_wellFormed hpop hrest
    · obtain ⟨metric, hleast, heq⟩ := hfresh.eq_toward
      have hpositive := hcosts _ _ (leads_of_leastMetric? hleast)
      refine Or.inl (UInt32.lt_iff_toNat_lt.2 ?_)
      rw [heq]
      change _ < (saturatingAdd settled.distance metric).toNat
      rw [toNat_saturatingAdd]
      omega
  constructor
  case ascending =>
    intro vertex hvertex other hother
    rcases hmove.eq_or_find? hvertex with ⟨-, rfl⟩ | hpath
    · exact hbehind other hother
    · exact (hordered.ascending vertex hpath settled hmove.mem_values).trans (hbehind other hother)
  case tieBroken =>
    intro vertex hvertex hroot hbelow
    have hkept (hvertex : search.Has vertex) : TieBroken root links database next.path vertex :=
      (hordered.tieBroken vertex hvertex hroot hbelow).mono hmove h hordered
    rcases hvertex with hpath | htent
    · rcases hmove.eq_or_find? hpath with ⟨-, rfl⟩ | hpath
      · exact hkept (Or.inr hmove.mem_values)
      · exact hkept (Or.inl hpath)
    · rcases h.mem_or_fresh hpop hstep htent with hrest | hfresh
      · exact hkept (Or.inr ((hmove.values_eq vertex).2 (Or.inr hrest)))
      · exact hfresh.tieBroken hmove h (hinvariant.apart vertex htent) hbelow

/-! ### A run -/

/-- What is still to come of a search: vertices in strictly ascending order, behind all that are
settled, one of which is put on PATH by each move. -/
structure Upcoming (database : Database) (search : Search) (order : List Vertex) : Prop where
  ascending : order.Pairwise Vertex.Before
  behind : ∀ vertex, search.path.find? vertex.systemId.key = some vertex →
    ∀ later ∈ order, vertex.Before later
  find?_run : ∀ moves key vertex, (search.run database moves).path.find? key = some vertex ↔
    search.path.find? key = some vertex ∨ key = vertex.systemId.key ∧ vertex ∈ order.take moves

/-- Without a candidate nothing is to come. -/
theorem upcoming_nil (hempty : search.tent.entries = []) : Upcoming database search [] where
  ascending := .nil
  behind _ _ later hlater := absurd hlater List.not_mem_nil
  find?_run moves key vertex := by
    have hzero : (search.run database 0).tent.entries = [] := hempty
    rw [Search.run_eq_of_le hzero (Nat.zero_le moves), List.take_nil]
    simp [Search.run]

/-- The first candidate comes first. -/
theorem Upcoming.cons {settled : Vertex} {order : List Vertex}
    (hupcoming : Upcoming database next order) (h : Invariant root links database search)
    (hordered : Ordered root links database search) (hstep : search.step database = some next)
    (hmove : Move database search next settled rest) :
    Upcoming database search (settled :: order) where
  ascending := by
    refine List.pairwise_cons.2 ⟨fun later hlater => ?_, hupcoming.ascending⟩
    exact hupcoming.behind settled hmove.find?_vertex later hlater
  behind vertex hvertex later hlater := by
    rcases List.mem_cons.1 hlater with rfl | hlater
    · exact hordered.ascending vertex hvertex later hmove.mem_values
    · exact hupcoming.behind vertex (hmove.find?_of_find? h hvertex) later hlater
  find?_run moves key vertex := by
    cases moves with
    | zero => simp [Search.run]
    | succ moves =>
      have hrun : search.run database (moves + 1) = next.run database moves := by
        rw [Search.run, hstep]
      rw [hrun, hupcoming.find?_run, List.take_succ_cons, List.mem_cons]
      constructor
      · rintro (hpath | ⟨hkey, hmem⟩)
        · rcases hmove.eq_or_find? hpath with ⟨hkey, rfl⟩ | hpath
          · exact Or.inr ⟨hkey, Or.inl rfl⟩
          · exact Or.inl hpath
        · exact Or.inr ⟨hkey, Or.inr hmem⟩
      · rintro (hpath | ⟨hkey, rfl | hmem⟩)
        · exact Or.inl (hmove.find?_of_find? h hpath)
        · exact Or.inl (hkey ▸ hmove.find?_vertex)
        · exact Or.inr ⟨hkey, hmem⟩

/-- A run that empties TENT without settling anybody at the largest distance keeps the order, and
what it settles comes in this order. -/
theorem ordered_run {moves : Nat} (h : Invariant root links database search)
    (hordered : Ordered root links database search)
    (hcosts : ∀ router neighbor cost, Leads database router neighbor cost → 0 < cost)
    (hbelow : ∀ key vertex, (search.run database moves).path.find? key = some vertex →
      vertex.distance.toNat < 2 ^ 32 - 1)
    (hempty : (search.run database moves).tent.entries = []) :
    Ordered root links database (search.run database moves) ∧
      ∃ order, Upcoming database search order := by
  induction moves generalizing search with
  | zero => exact ⟨hordered, [], upcoming_nil hempty⟩
  | succ moves ih =>
    unfold Search.run at hbelow hempty ⊢
    cases hpop : search.tent.popFirst? with
    | none =>
      rw [Search.step_eq_none hpop]
      exact ⟨hordered, [], upcoming_nil (Table.popFirst?_eq_none.1 hpop)⟩
    | some popped =>
      obtain ⟨next, hnext, hmove⟩ := h.exists_step hpop
      rw [hnext] at hbelow hempty ⊢
      have hinvariant := invariant_step h hnext
      have hsettled := hbelow _ _ (hinvariant.find?_run hmove.find?_vertex moves)
      have hstep := ordered_step h hordered hpop hnext hmove (hcosts _) hsettled
      obtain ⟨hrun, order, hupcoming⟩ := ih hinvariant hstep hbelow hempty
      exact ⟨hrun, _, hupcoming.cons h hordered hnext hmove⟩

/-- The whole search settles the root and then what is to come at its start. -/
theorem Upcoming.settlingOrder {order : List Vertex} {moves : Nat}
    (h : Upcoming database (Search.start root links) order)
    (hempty : ((Search.start root links).run database moves).tent.entries = []) :
    SettlingOrder root links database ((Search.start root links).run database moves).path
      (⟨root, 0, none⟩ :: order) := by
  have hrun (moves : Nat) (key : UInt64) (vertex : Vertex) :
      ((Search.start root links).run database moves).path.find? key = some vertex ↔
        key = vertex.systemId.key ∧ vertex ∈ ⟨root, 0, none⟩ :: order.take moves := by
    rw [h.find?_run, find?_start, List.mem_cons, and_or_left]
    refine or_congr_left ?_
    split
    · rename_i hkey
      constructor
      · intro hvertex
        cases hvertex
        exact ⟨hkey, rfl⟩
      · rintro ⟨-, rfl⟩
        rfl
    · rename_i hkey
      constructor
      · intro hvertex
        cases hvertex
      · rintro ⟨rfl, rfl⟩
        exact absurd rfl hkey
  refine ⟨fun key vertex => ?_, hrun⟩
  -- More moves than there are vertices to come settle them all.
  rw [← Search.run_eq_of_le hempty (Nat.le_max_left moves order.length), hrun,
    List.take_of_length_le (Nat.le_max_right moves order.length)]

/-- If every link that is up and every advertised neighbor costs something, and nobody is at the
largest distance, then the routers of the tree are settled in the order of their distances and
system IDs, and the next hop of each of them is the one that this order and that of the links single
out. -/
theorem shortestPaths_breaksTies {path : Avl.Map Vertex}
    (h : shortestPaths root links database = .ok path)
    (hlinks : ∀ link ∈ links, link.adjacency.isUp → 1 ≤ link.adjacency.metric)
    (hcosts : ∀ router lsp, database.router? router = some lsp →
      ∀ neighbor ∈ lsp.neighbors, 1 ≤ neighbor.metric)
    (hbelow : ∀ key vertex, path.find? key = some vertex → vertex.distance.toNat ≠ 2 ^ 32 - 1) :
    (∃ order, order.Pairwise Vertex.Before ∧ SettlingOrder root links database path order) ∧
      ∀ key vertex, path.find? key = some vertex → vertex.systemId ≠ root →
        TieBroken root links database path vertex := by
  obtain ⟨-, rfl⟩ := shortestPaths_eq_ok_iff.1 h
  obtain ⟨hinvariant, hempty⟩ := invariant_run_start root links database
  have hfirst : ∀ link ∈ links, ∀ first, ofLink? link = some first → 0 < first.distance := by
    intro link hlink first hfirst
    obtain ⟨hneighbor, hmetric, -⟩ := ofLink?_eq_some_iff.1 hfirst
    have hpositive := hlinks link hlink (Adjacency.isUp_of_upNeighbor? hneighbor)
    rw [hmetric, UInt32.lt_iff_toNat_lt]
    exact UInt32.le_iff_toNat_le.1 hpositive
  have hleads : ∀ router neighbor cost, Leads database router neighbor cost → 0 < cost := by
    rintro router neighbor cost ⟨lsp, hlsp, entry, hentry, -, rfl⟩
    exact UInt32.le_iff_toNat_le.1 (hcosts router lsp hlsp entry hentry)
  have hnear {key : UInt64} {vertex : Vertex} (hvertex : ((Search.start root links).run database
      (namedNeighbors links database)).path.find? key = some vertex) :
      vertex.distance.toNat < 2 ^ 32 - 1 := by
    have hlt := vertex.distance.toNat_lt
    have hne := hbelow key vertex hvertex
    omega
  obtain ⟨hordered, order, hupcoming⟩ := ordered_run (invariant_start root links database)
    (ordered_start database hfirst) hleads (fun _ _ => hnear) hempty
  refine ⟨⟨_, ?_, hupcoming.settlingOrder hempty⟩, fun key vertex hvertex hroot => ?_⟩
  · have hstart := (invariant_start root links database).root_settled
    exact List.pairwise_cons.2 ⟨hupcoming.behind _ hstart, hupcoming.ascending⟩
  · have hkey := hinvariant.path_filed key vertex hvertex
    exact hordered.tieBroken vertex (Or.inl (hkey ▸ hvertex)) hroot (hnear hvertex)

end

/-! ### Two ways around -/

namespace Diamond

/-- The routers have system IDs 1 to 4. -/
def systemId (i : Fin 4) : SystemId := ⟨0, 0, 0, 0, 0, UInt8.ofNat (i.val + 1)⟩

/-- A link that is up. -/
def up (name : String) (neighbor : Fin 4) (metric : UInt32) : Link :=
  { Link.ofConfig ⟨name, 10, none, []⟩ with
    adjacency := ⟨.up, some (systemId neighbor), metric, none, none⟩ }

/-- The first router has a link to the third one and two links to the second one. Both of these have
a link to the fourth router. -/
def links : Fin 4 → List Link
  | 0 => [up "south" 2 1, up "north" 1 1, up "spare" 1 1]
  | 1 => [up "west" 0 1, up "spare" 0 1, up "east" 3 1]
  | 2 => [up "west" 0 1, up "east" 3 1]
  | 3 => [up "south" 2 1, up "north" 1 1]

/-- The LSPs of the four routers. -/
def database : Database :=
  (List.finRange 4).foldl (fun database i =>
    database.store (Lsp.ofLinks (systemId i) (links i) 1 1200)) .empty

/-- The way to the fourth router is that of the second one, which comes before the third one, and
its first link. -/
theorem shortestPaths_breaksTies_north :
    ∃ path, shortestPaths (systemId 0) (links 0) database = .ok path ∧
      path.find? (systemId 3).key =
        some ⟨systemId 3, 2, some ⟨"north", systemId 1, none⟩⟩ ∧
      (∃ order, order.Pairwise Vertex.Before ∧
        SettlingOrder (systemId 0) (links 0) database path order) ∧
      TieBroken (systemId 0) (links 0) database path
        ⟨systemId 3, 2, some ⟨"north", systemId 1, none⟩⟩ := by
  have h : shortestPaths (systemId 0) (links 0) database =
      .ok ((Search.start (systemId 0) (links 0)).run database
        (namedNeighbors (links 0) database)).path := rfl
  have hvertex : ((Search.start (systemId 0) (links 0)).run database
      (namedNeighbors (links 0) database)).path.find? (systemId 3).key =
        some ⟨systemId 3, 2, some ⟨"north", systemId 1, none⟩⟩ := by decide +kernel
  have hcosts : ∀ lsp ∈ database.values, ∀ neighbor ∈ lsp.neighbors, 1 ≤ neighbor.metric := by
    decide +kernel
  have hbelow : ∀ vertex ∈ ((Search.start (systemId 0) (links 0)).run database
      (namedNeighbors (links 0) database)).path.values, vertex.distance.toNat ≠ 2 ^ 32 - 1 := by
    decide +kernel
  obtain ⟨horder, hties⟩ := shortestPaths_breaksTies h (by decide)
    (fun _ lsp hlsp => hcosts lsp (Avl.Map.mem_values_of_find? hlsp))
    (fun _ vertex hvertex => hbelow vertex (Avl.Map.mem_values_of_find? hvertex))
  exact ⟨_, h, hvertex, horder, hties _ _ hvertex (by decide)⟩

end Diamond

end LinkState
