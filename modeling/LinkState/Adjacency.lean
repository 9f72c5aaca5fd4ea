import LinkState.SystemId
import LinkState.Ip.V4
import LinkState.Timestamp

/-!
# Adjacencies

What the neighbor handshake knows of the router at the other end of a link. The handshake itself is
not part of this library; it hands over an `Adjacency` whenever something changes.
-/

namespace LinkState

/-- How far the neighbor handshake has come. -/
inductive AdjacencyState where
  | new
  | init
  | up
deriving DecidableEq, Repr, Inhabited

/-- The name of a state. -/
def AdjacencyState.text : AdjacencyState → String
  | new => "new"
  | init => "init"
  | up => "up"

/-- The other end of a link. -/
structure Adjacency where
  state : AdjacencyState
  neighborSystemId : Option SystemId
  metric : UInt32
  neighborIp : Option Ipv4.Address
  /-- The time of the last change of state. -/
  lastChange : Option Timestamp
deriving DecidableEq, Repr

namespace Adjacency

/-- The adjacency of a link that has not heard of a neighbor. -/
def ofMetric (metric : UInt32) : Adjacency := ⟨.new, none, metric, none, none⟩

/-- The handshake has been completed. -/
def isUp (adjacency : Adjacency) : Bool := adjacency.state = .up

/-- The neighbor, once the handshake has been completed. -/
def upNeighbor? (adjacency : Adjacency) : Option SystemId :=
  if adjacency.isUp then adjacency.neighborSystemId else none

end Adjacency

end LinkState
