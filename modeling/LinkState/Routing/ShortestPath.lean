import LinkState.Database

/-!
# Shortest paths

The search moves routers one by one from a table of candidates, TENT, to the finished tree, PATH.
TENT starts with the neighbors of the router's own links; a candidate that is moved offers the
neighbors its LSP advertises. Candidates are ordered by distance and then system ID, at most one for
each router, and an offer replaces a candidate only if it is strictly nearer. The next hop is the
first hop of the path and is inherited along it.

`Search.step` is one move. The search needs at most one move for every neighbor that the links and
the LSPs of the database name, and `shortestPaths` makes that many.
-/

namespace LinkState

/-- The first hop of a path: a link and the neighbor at its other end. -/
structure Nexthop where
  link : String
  systemId : SystemId
  address : Option Ipv4.Address
deriving DecidableEq, Repr

/-- A router on the shortest-path tree; the root has no next hop. -/
structure Vertex where
  systemId : SystemId
  distance : UInt32
  nexthop : Option Nexthop
deriving DecidableEq, Repr

/-- The sum of two metrics, or the largest metric if it is larger still. -/
def saturatingAdd (a b : UInt32) : UInt32 :=
  UInt32.ofNat (min (a.toNat + b.toNat) (UInt32.size - 1))

/-- The candidates of a search, by distance and system ID. -/
abbrev Tent := Table (UInt32 × SystemId) Vertex

namespace Tent

/-- The candidate for a router, with its key. -/
def candidate? (tent : Tent) (systemId : SystemId) : Option ((UInt32 × SystemId) × Vertex) :=
  tent.entries.find? fun entry => entry.2.systemId = systemId

/-- Files a candidate under its distance and system ID. -/
def file (tent : Tent) (vertex : Vertex) : Tent :=
  tent.insert (vertex.distance, vertex.systemId) vertex

/-- Takes in a candidate unless one for the same router is at least as near. -/
def offer (tent : Tent) (vertex : Vertex) : Tent :=
  match tent.candidate? vertex.systemId with
  | none => tent.file vertex
  | some (key, present) =>
    if vertex.distance < present.distance then Tent.file (tent.erase key) vertex else tent

end Tent

/-- The state of a search. -/
structure Search where
  path : Avl.Map Vertex
  tent : Tent

namespace Search

/-- Offers a candidate unless its router is on PATH. -/
def offer (path : Avl.Map Vertex) (tent : Tent) (vertex : Vertex) : Tent :=
  if path.contains vertex.systemId.key then tent else tent.offer vertex

/-- The candidate that a link gives, if its adjacency is up. -/
def ofLink? (link : Link) : Option Vertex :=
  link.adjacency.upNeighbor?.map fun neighbor =>
    ⟨neighbor, link.adjacency.metric, some ⟨link.name, neighbor, link.adjacency.neighborIp⟩⟩

/-- The candidate that a neighbor in the LSP of `vertex` gives. -/
def ofNeighbor (vertex : Vertex) (neighbor : Neighbor) : Vertex :=
  ⟨neighbor.systemId, saturatingAdd vertex.distance neighbor.metric, vertex.nexthop⟩

/-- The start of a search: the root is on PATH and the neighbors of its links are on TENT. -/
def start (root : SystemId) (links : List Link) : Search :=
  let path := (Avl.Map.empty.insert root.key ⟨root, 0, none⟩ false).1
  ⟨path, (links.filterMap ofLink?).foldl (offer path) .empty⟩

/-- Moves the first candidate to PATH and offers the neighbors that its LSP advertises. -/
def step (database : Database) (search : Search) : Option Search := do
  let ((_, vertex), tent) ← search.tent.popFirst?
  let path := (search.path.insert vertex.systemId.key vertex false).1
  -- A router without an LSP is a leaf of the tree.
  let neighbors := (database.router? vertex.systemId).elim [] Lsp.neighbors
  return ⟨path, (neighbors.map (ofNeighbor vertex)).foldl (offer path) tent⟩

/-- Makes up to `moves` moves, and no more once TENT is empty. -/
def run (database : Database) : (moves : Nat) → Search → Search
  | 0, search => search
  | moves + 1, search =>
    match search.step database with
    | none => search
    | some search => search.run database moves

end Search

/-- The number of neighbors that up adjacencies and LSPs name, repetitions included. -/
def namedNeighbors (links : List Link) (database : Database) : Nat :=
  (links.filterMap Search.ofLink?).length + (database.values.flatMap Lsp.neighbors).length

/-- The shortest-path tree of a router, by system ID. Without an LSP of the router itself there is
none. -/
def shortestPaths (root : SystemId) (links : List Link) (database : Database) :
    Except Fault (Avl.Map Vertex) :=
  match database.router? root with
  | none => .error (.rootNotFound root)
  | some _ =>
    .ok ((Search.start root links).run database (namedNeighbors links database)).path

end LinkState
