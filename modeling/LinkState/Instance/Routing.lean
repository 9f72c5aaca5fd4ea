import LinkState.Instance.Basic

/-!
# Shortest-path runs

A run computes the shortest-path tree and the routes of the present state. Routes are handed to the
installer only when they have changed. Without an LSP of the router itself a run changes nothing.
-/

namespace LinkState.Instance

/-- Takes over new routes and hands them to the installer, unless they are the present ones. -/
def updateRoutes (inst : Instance) (routes : Routes) : Traced Instance :=
  if inst.routes = routes then pure inst
  else do
    Traced.emit (.routesUpdated routes.size)
    return { inst with routes := routes, installs := inst.installs.offer routes.values }

/-- Runs the shortest-path computation at a time. -/
def runSpf (inst : Instance) (now : Timestamp) : Traced (Except Fault Unit × Instance) := do
  Traced.emit (.spfStarted inst.systemId)
  match shortestPaths inst.systemId inst.links inst.database with
  | .error fault => return (.error fault, inst)
  | .ok entries =>
    let routes := Routes.compute inst.systemId entries inst.database
    let runs := inst.topology.runs + 1
    Traced.emit (.spfFinished entries.size runs)
    let inst ← updateRoutes { inst with topology := ⟨entries, runs, some now⟩ } routes
    return (.ok (), inst)

end LinkState.Instance
