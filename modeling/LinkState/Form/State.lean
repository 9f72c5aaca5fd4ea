import LinkState.Form.Packet
import LinkState.Instance.Basic

/-!
# Forms of links, routes and snapshots

Configurations of links and instances take defaults for absent fields and refuse fields that they do
not have. The documents of adjacencies and snapshots are given with a choice of how a point in time
is shown.
-/

namespace LinkState

/-- The names of the adjacency states. -/
def AdjacencyState.named : List (String × AdjacencyState) :=
  [("new", .new), ("init", .init), ("up", .up)]

instance : Form AdjacencyState :=
  ⟨Document.nameOf AdjacencyState.named, Reader.variant AdjacencyState.named []⟩

/-- The document of an adjacency. -/
def Adjacency.document (showTime : Option Timestamp → Document) (adjacency : Adjacency) :
    Document :=
  .ofFields [
    ("state", write adjacency.state),
    ("neighbor_system_id", write adjacency.neighborSystemId),
    ("metric", write adjacency.metric),
    ("neighbor_ip", write adjacency.neighborIp),
    ("last_change", showTime adjacency.lastChange)]

instance : Form Adjacency where
  write := Adjacency.document write
  read := Fields.lenient <| Adjacency.mk <$> .field "state" read
    <*> .optional "neighbor_system_id" read <*> .field "metric" read
    <*> .optional "neighbor_ip" read <*> .optional "last_change" read

instance : Form LinkConfig where
  write config := .ofFields [
    ("name", write config.name),
    ("metric", write config.metric),
    ("address", write config.address),
    ("prefixes", write config.prefixes)]
  read :=
    let initial := LinkConfig.initial
    Fields.strict <| LinkConfig.mk <$> .default "name" read initial.name
      <*> .default "metric" read initial.metric <*> .default "address" read initial.address
      <*> .default "prefixes" read initial.prefixes

instance : Form InstanceConfig where
  write config := .ofFields [
    ("system_id", write config.systemId),
    ("flood_interval", write config.floodInterval),
    ("lsp_lifetime", write config.lspLifetime),
    ("links", write config.links)]
  read :=
    let initial := InstanceConfig.initial
    Fields.strict <| InstanceConfig.mk <$> .default "system_id" read initial.systemId
      <*> .default "flood_interval" read initial.floodInterval
      <*> .default "lsp_lifetime" read initial.lspLifetime <*> .default "links" read initial.links

instance : Form FloodState where
  write state := .ofFields [
    ("lsp_id", write state.id), ("srm", write state.srm), ("ssn", write state.ssn)]
  read := Fields.lenient <| FloodState.mk <$> .field "lsp_id" read <*> .field "srm" read
    <*> .field "ssn" read

instance : Form Nexthop where
  write nexthop := .ofFields [
    ("link", write nexthop.link),
    ("system_id", write nexthop.systemId),
    ("addr", write nexthop.address)]
  read := Fields.lenient <| Nexthop.mk <$> .field "link" read <*> .field "system_id" read
    <*> .optional "addr" read

instance : Form Vertex where
  write vertex := .ofFields [
    ("system_id", write vertex.systemId),
    ("distance", write vertex.distance),
    ("nexthop", write vertex.nexthop)]
  read := Fields.lenient <| Vertex.mk <$> .field "system_id" read <*> .field "distance" read
    <*> .optional "nexthop" read

instance : Form Route where
  write route := .ofFields [
    ("prefix", write route.network),
    ("metric", write route.metric),
    ("advertiser", write route.advertiser),
    ("nexthop", write route.nexthop)]
  read := Fields.lenient <| Route.mk <$> .field "prefix" read <*> .field "metric" read
    <*> .field "advertiser" read <*> .field "nexthop" read

instance : Form SpfTrigger := ⟨fun _ => .object [], Fields.lenient <| pure ⟨⟩⟩

/-- A frame handed to a link's worker. -/
structure LspUpdate where
  data : Octets
deriving DecidableEq, Repr

instance : Form LspUpdate where
  write update := .ofFields [("data", write update.data)]
  read := Fields.lenient <| LspUpdate.mk <$> .field "data" Octets.readForm

/-- The document of a snapshot. -/
def Instance.Snapshot.document (showTime : Option Timestamp → Document)
    (snapshot : Instance.Snapshot) : Document :=
  .ofFields [
    ("system_id", write snapshot.systemId),
    ("adjacencies", .list (snapshot.adjacencies.map fun (link, adjacency) =>
      (adjacency.document showTime).withFields [("link", write link)])),
    ("lsp_ids", write snapshot.lspIds),
    ("topology", .ofFields [
      ("entries", write snapshot.entries),
      ("run_count", .integer snapshot.runs.toNat),
      ("last_run", showTime snapshot.lastRun)]),
    ("routes", write snapshot.routes)]

end LinkState
