import Mathlib.Algebra.Ring.Nat
import Mathlib.Logic.Function.Basic
import LinkState.Proofs.Flooding.Operations

/-!
# Networks of routers

Routers are joined by links, and a link has an end at each of two routers. What a router sends on
its end of a link goes in flight to the other end, and frames in flight arrive in any order. Between
two steps of the network every router waits; in a step one of them takes over an adjacency, renews
its LSP, scans a link or receives a frame. The originated LSPs of every router are kept alongside,
and nothing that a router does depends on them.
-/

namespace LinkState

/-- The end of a link: a router and the router's own name for the link. -/
structure Port (ι : Type u) where
  router : ι
  link : String
deriving DecidableEq

/-- Routers with their configurations, and the ends of links that belong together. -/
structure Network (ι : Type u) where
  config : ι → InstanceConfig
  /-- The other end of a link. -/
  peer : Port ι → Option (Port ι)
  systemId_inj : ∀ {i j}, (config i).systemId = (config j).systemId → i = j
  peer_symm : ∀ {p q}, peer p = some q → peer q = some p
  /-- Only links that are configured have another end. -/
  configured : ∀ {p q}, peer p = some q → ∃ link ∈ (config p.router).links, link.name = p.link

namespace Network

/-- The routers of a network and what is on its way between them. -/
structure State (ι : Type u) where
  inst : ι → Instance
  /-- The LSPs that each router has originated, the oldest first. -/
  originated : ι → List Lsp
  /-- The frames in flight, each with the end of the link where it arrives. -/
  flight : List (Port ι × Octets)

variable {ι : Type u} (net : Network ι)

/-- Every router has originated fewer LSPs than there are sequence numbers, and each of them fits
its length field. -/
def State.Bounded (state : State ι) : Prop :=
  ∀ router, (state.originated router).length < 2 ^ 32 ∧
    ∀ lsp ∈ state.originated router, lsp.encode.length ≤ 65535

/-- No LSP is waiting to be sent on the link that ends at a port. -/
def State.Quiet (state : State ι) (port : Port ι) : Prop :=
  (∀ link ∈ (state.inst port.router).links, link.name = port.link → link.flagged = []) ∧
    ∀ arriving ∈ state.flight, arriving.1 ≠ port

/-- All routers are fresh, and nothing is in flight. -/
def initial : State ι where
  inst router := .ofConfig (net.config router)
  originated _ := []
  flight := []

/-- Where the frames arrive that a router sends. What is sent on a link without another end is
lost. -/
def arrivals (router : ι) (sent : List Transmission) : List (Port ι × Octets) :=
  sent.filterMap fun transmission =>
    (net.peer ⟨router, transmission.link⟩).map fun port => (port, transmission.data)

variable [DecidableEq ι]

/-- The network after an operation of one router: what the operation has sent is in flight. -/
def after (state : State ι) (router : ι) (result : Traced Instance) : State ι where
  inst := Function.update state.inst router
    { result.value with transmissions := result.value.transmissions.drained }
  originated := Function.update state.originated router
    (state.originated router ++ originations result.records)
  flight := state.flight ++ net.arrivals router result.value.transmissions.queue

/-- A step of one router. -/
inductive Action (ι : Type u) where
  /-- A router takes over an adjacency from its neighbor handshake. -/
  | changeAdjacency (router : ι) (now : Timestamp) (name : String) (adjacency : Adjacency)
  /-- A router renews its own LSP. -/
  | originate (router : ι)
  /-- A router scans the link at a position. -/
  | scan (router : ι) (position : Nat)
  /-- A frame arrives, which may be any one of those in flight. -/
  | receive (index : Nat)

/-- The network after a step. Where there is no frame in flight, none arrives. -/
def perform (state : State ι) : Action ι → State ι
  | .changeAdjacency router now name adjacency => net.after state router
      (Prod.snd <$> (state.inst router).changeAdjacency now name adjacency)
  | .originate router => net.after state router (Prod.snd <$> (state.inst router).originate)
  | .scan router position =>
    net.after state router (Prod.snd <$> (state.inst router).scan position)
  | .receive index =>
    match state.flight[index]? with
    | none => state
    | some (port, frame) =>
      net.after { state with flight := state.flight.eraseIdx index } port.router
        (Prod.snd <$> (state.inst port.router).receive port.link frame)

/-- The network after a run of steps from its initial state on. -/
def run (actions : List (Action ι)) : State ι := actions.foldl net.perform net.initial

end Network

end LinkState
