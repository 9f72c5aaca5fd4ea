import Mathlib.Algebra.Ring.Nat
import LinkState.Routing.ShortestPath

/-!
# Paths from the root

A path leaves the root over a local link whose adjacency is up and goes on along the neighbors that
LSPs advertise, without coming back to the root. Its cost is the metric of the adjacency plus those
of the advertised neighbors, and no bound is set to it; a distance is such a cost cut off at the
largest metric (`toNat_saturatingAdd`).
-/

namespace LinkState

/-- The LSP of router `a` advertises `b` as a neighbor at a cost. -/
def Leads (database : Database) (a b : SystemId) (cost : Nat) : Prop :=
  ∃ lsp, database.router? a = some lsp ∧
    ∃ neighbor ∈ lsp.neighbors, neighbor.systemId = b ∧ neighbor.metric.toNat = cost

/-- A path along advertised neighbors on which every router is another one than the root. -/
inductive AdvertisedPath (root : SystemId) (database : Database) (a : SystemId) :
    SystemId → Nat → Prop where
  | refl : a ≠ root → AdvertisedPath root database a a 0
  | step {b c : SystemId} {m n : Nat} : AdvertisedPath root database a b m →
    Leads database b c n → c ≠ root → AdvertisedPath root database a c (m + n)

/-- A path whose first step is over a link that is up. -/
def ReachesOver (root : SystemId) (database : Database) (link : Link) (systemId : SystemId)
    (cost : Nat) : Prop :=
  ∃ neighbor rest, link.adjacency.upNeighbor? = some neighbor ∧
    AdvertisedPath root database neighbor systemId rest ∧
    cost = link.adjacency.metric.toNat + rest

/-- A path from the root over one of its links. -/
def Reaches (root : SystemId) (links : List Link) (database : Database) (systemId : SystemId)
    (cost : Nat) : Prop :=
  ∃ link ∈ links, ReachesOver root database link systemId cost

/-- A path never visits the root. -/
theorem AdvertisedPath.ne_root {root a b : SystemId} {database : Database} {cost : Nat}
    (h : AdvertisedPath root database a b cost) : b ≠ root := by
  cases h with
  | refl h => exact h
  | step _ _ h => exact h

/-- Only an adjacency that is up has a neighbor in this sense. -/
theorem Adjacency.isUp_of_upNeighbor? {adjacency : Adjacency} {neighbor : SystemId}
    (h : adjacency.upNeighbor? = some neighbor) : adjacency.isUp := by
  unfold upNeighbor? at h
  split at h
  · assumption
  · cases h

/-- A link gives a candidate exactly if its adjacency is up and its neighbor known. -/
theorem ofLink?_eq_some_iff {link : Link} {first : Vertex} :
    Search.ofLink? link = some first ↔
      link.adjacency.upNeighbor? = some first.systemId ∧
        first.distance = link.adjacency.metric ∧
        first.nexthop = some ⟨link.name, first.systemId, link.adjacency.neighborIp⟩ := by
  unfold Search.ofLink?
  rw [Option.map_eq_some_iff]
  constructor
  · rintro ⟨neighbor, hneighbor, rfl⟩
    exact ⟨hneighbor, rfl, rfl⟩
  · rintro ⟨hneighbor, hdistance, hnexthop⟩
    refine ⟨first.systemId, hneighbor, ?_⟩
    rw [← hdistance, ← hnexthop]

/-- Distances add up and are cut off at the largest metric. -/
theorem toNat_saturatingAdd (a b : UInt32) :
    (saturatingAdd a b).toNat = min (a.toNat + b.toNat) (2 ^ 32 - 1) := by
  unfold saturatingAdd
  rw [UInt32.toNat_ofNat', show UInt32.size = 2 ^ 32 from rfl]
  omega

end LinkState
