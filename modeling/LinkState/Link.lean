import LinkState.Event
import LinkState.Table

/-!
# Links

A link has a configuration, the adjacency with the router at its other end, and a table of flooding
flags. The flag `srm` of an LSP asks for the LSP to be sent on the link: `Link.setFlag` sets or
clears it, `Link.takeFlagged` collects and clears all that are set. `Link.prefixes` is what the link
contributes to the router's own LSP.
-/

namespace LinkState

/-- The configuration of a link. -/
structure LinkConfig where
  name : String
  metric : UInt32
  address : Option Ipv4.Network
  prefixes : List Ipv4.Network
deriving DecidableEq, Repr

/-- A link without a name, address or prefixes, of metric 10. -/
def LinkConfig.initial : LinkConfig := ⟨"", 10, none, []⟩

/-- The flooding flags of an LSP on a link. -/
structure FloodState where
  id : LspId
  /-- The LSP must be sent on the link. -/
  srm : Bool
  /-- The sequence number must be sent on the link; links of this kind never ask for it. -/
  ssn : Bool
deriving DecidableEq, Repr

/-- A link with the state kept for it. -/
structure Link where
  config : LinkConfig
  adjacency : Adjacency
  /-- Flooding flags by database key. -/
  flags : Table UInt64 FloodState
deriving DecidableEq

namespace Link

/-- The name of a link. -/
def name (link : Link) : String := link.config.name

/-- A link before anything has happened on it. -/
def ofConfig (config : LinkConfig) : Link := ⟨config, .ofMetric config.metric, .empty⟩

/-- Replaces the adjacency and gives the previous state. The time of the last change is `now` if the
state changes and stays otherwise, whatever the new adjacency says. -/
def updateAdjacency (link : Link) (now : Timestamp) (adjacency : Adjacency) :
    Traced (AdjacencyState × Link) :=
  let old := link.adjacency
  if old.state = adjacency.state then
    pure (old.state,
      { link with adjacency := { adjacency with lastChange := old.lastChange } })
  else do
    Traced.emit (.adjacencyChanged link.name old.state adjacency.state)
    return (old.state, { link with adjacency := { adjacency with lastChange := some now } })

/-- The network of the link's address, then the configured prefixes, without repetitions. -/
def prefixes (link : Link) : List Ipv4.Network :=
  ((link.config.address.map Ipv4.Network.normalize).toList ++ link.config.prefixes).eraseDups

/-- Sets or clears the flag of an LSP, making an entry for it on first sight. -/
def setFlag (link : Link) (id : LspId) (srm : Bool) : Link :=
  let state := (link.flags.find? id.key).getD ⟨id, srm, false⟩
  { link with flags := link.flags.insert id.key { state with srm := srm } }

/-- The LSPs whose flag is set, in key order. -/
def flagged (link : Link) : List LspId :=
  (link.flags.values.filter (·.srm)).map (·.id)

/-- Collects the LSPs whose flag is set and clears the flags. Nothing happens unless the adjacency
is up. -/
def takeFlagged (link : Link) : List LspId × Link :=
  if link.adjacency.isUp then
    (link.flagged, { link with flags := link.flags.map fun state => { state with srm := false } })
  else ([], link)

/-- The flags of an LSP. -/
def floodState? (link : Link) (id : LspId) : Option FloodState := link.flags.find? id.key

end Link

end LinkState
