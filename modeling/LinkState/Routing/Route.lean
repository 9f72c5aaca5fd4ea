import LinkState.Routing.ShortestPath

/-!
# Routes

Every prefix that a router of the shortest-path tree advertises is a candidate for a route, at the
router's distance plus the metric of the prefix. Of several candidates for one network the one with
the smallest metric is taken, among equals that of the smallest system ID. Networks that the router
itself advertises are connected and need no route.
-/

namespace LinkState

/-- A route to a network. -/
structure Route where
  network : Ipv4.Network
  metric : UInt32
  advertiser : SystemId
  nexthop : Nexthop
deriving DecidableEq, Repr

/-- Routes by network. -/
abbrev Routes := Table Ipv4.Network Route

namespace Routes

/-- Takes in a route unless one to the same network is at least as near. -/
def offer (routes : Routes) (route : Route) : Routes :=
  match routes.find? route.network with
  | none => routes.insert route.network route
  | some present =>
    if present.metric ≤ route.metric then routes else routes.insert route.network route

/-- The networks that the router itself advertises. -/
def connected (systemId : SystemId) (database : Database) : List Ipv4.Network :=
  (database.router? systemId).elim [] fun lsp =>
    lsp.prefixes.map fun reach => reach.network.normalize

/-- The routes that a router of the tree offers. The root, which has no next hop, offers none. -/
def candidates (database : Database) (vertex : Vertex) : List Route :=
  match vertex.nexthop, database.router? vertex.systemId with
  | some nexthop, some lsp => lsp.prefixes.map fun reach =>
      ⟨reach.network.normalize, saturatingAdd vertex.distance reach.metric, vertex.systemId,
        nexthop⟩
  | _, _ => []

/-- The routes of a router with the given shortest-path tree. -/
def compute (systemId : SystemId) (topology : Avl.Map Vertex) (database : Database) : Routes :=
  let connected := connected systemId database
  let offered := (topology.values.flatMap (candidates database)).filter fun route =>
    !connected.contains route.network
  offered.foldl offer .empty

end Routes

end LinkState
