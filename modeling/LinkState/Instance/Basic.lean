import LinkState.Channel
import LinkState.Routing.Route

/-!
# Protocol instances

An instance is the state of one router: its links, its database, the shortest-path tree and the
routes of the last run, the sequence number of its own LSP, and the channels towards the
shortest-path worker, the network and the route installer.
-/

namespace LinkState

/-- The configuration of an instance. -/
structure InstanceConfig where
  systemId : SystemId
  /-- Milliseconds between two flooding scans. -/
  floodInterval : UInt64
  /-- The lifetime of the router's own LSP, in seconds. -/
  lspLifetime : UInt16
  links : List LinkConfig
deriving DecidableEq, Repr

/-- A configuration without links, scanning every five seconds. -/
def InstanceConfig.initial : InstanceConfig := ⟨.zero, 5000, 1200, []⟩

/-- The result of the last successful shortest-path run. -/
structure Topology where
  entries : Avl.Map Vertex
  runs : UInt64
  lastRun : Option Timestamp

/-- A request for a shortest-path run. -/
structure SpfTrigger where
deriving DecidableEq, Repr

/-- A frame to be sent on a link. -/
structure Transmission where
  link : String
  data : Octets
deriving DecidableEq, Repr

/-- The state of one router. -/
structure Instance where
  config : InstanceConfig
  links : List Link
  database : Database
  topology : Topology
  routes : Routes
  /-- The sequence number of the last LSP of the router's own. -/
  seqno : UInt32
  triggers : Channel SpfTrigger
  transmissions : Channel Transmission
  installs : Channel (List Route)

namespace Instance

/-- The system ID of the router. -/
def systemId (inst : Instance) : SystemId := inst.config.systemId

/-- An instance before anything has happened. -/
def ofConfig (config : InstanceConfig) : Instance where
  config := config
  links := config.links.map .ofConfig
  database := .empty
  topology := ⟨.empty, 0, none⟩
  routes := .empty
  seqno := 0
  triggers := .empty
  transmissions := .empty
  installs := .empty

/-- Creates an instance. -/
def create (config : InstanceConfig) : Traced Instance := do
  Traced.emit (.instanceCreated config.systemId)
  return ofConfig config

/-- The position of the first link with a given name. -/
def linkIndex? (inst : Instance) (name : String) : Option Nat :=
  inst.links.findIdx? fun link => link.name = name

/-- Asks for a shortest-path run. -/
def trigger (inst : Instance) : Instance := { inst with triggers := inst.triggers.offer ⟨⟩ }

/-! ### Snapshots -/

/-- What the management interface shows of an instance. -/
structure Snapshot where
  systemId : SystemId
  adjacencies : List (String × Adjacency)
  lspIds : List LspId
  entries : List Vertex
  runs : UInt64
  lastRun : Option Timestamp
  routes : List Route

/-- The present state of an instance. -/
def snapshot (inst : Instance) : Snapshot where
  systemId := inst.systemId
  adjacencies := inst.links.map fun link => (link.name, link.adjacency)
  lspIds := inst.database.ids
  entries := inst.topology.entries.values
  runs := inst.topology.runs
  lastRun := inst.topology.lastRun
  routes := inst.routes.values

end Instance

end LinkState
