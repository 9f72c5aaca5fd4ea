import LinkState.Configuration
import LinkState.Router

/-!
# Starting a router from its configuration

Neighbors are configured, not discovered: a tunnel that names the router at its other end has its
link's adjacency up from the start. A tunnel for a link that is not configured is reported and
otherwise ignored.
-/

namespace LinkState

/-- The adjacency of a link whose tunnel names a neighbor. -/
def Tunnel.adjacency? (tunnel : Tunnel) (link : Link) : Option Adjacency :=
  tunnel.neighborSystemId.map fun neighbor =>
    ⟨.up, some neighbor, link.config.metric, tunnel.neighborAddress, none⟩

/-- Puts a tunnel into service. -/
def Router.connect (router : Router) (tunnel : Tunnel) : Traced Router :=
  match router.inst.links.find? fun link => link.name = tunnel.link with
  | none => do
    Traced.emit (.fault (.linkNotFound tunnel.link))
    return router
  | some link =>
    match tunnel.adjacency? link with
    | none => pure router
    | some adjacency => do
      let (_, router) ← router.changeAdjacency tunnel.link adjacency
      return router

/-- Starts the router of a configuration and puts its tunnels into service. -/
def Configuration.start (configuration : Configuration) : Traced Router := do
  let router ← Router.start configuration.inst
  configuration.tunnels.foldlM Router.connect router

end LinkState
