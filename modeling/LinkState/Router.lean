import LinkState.Instance.Flooding
import LinkState.Instance.Routing

/-!
# Routers

A router is an instance with its workers under a clock that moves only when it is told to. Each link
has a worker that processes the LSPs received on it and one that scans it at every multiple of the
flooding interval; one more worker runs the shortest-path computation when it was asked for. After
every operation the workers go on until all of them wait. A shut-down router has no workers any
more, but its instance still answers.
-/

namespace LinkState

/-- An instance with its workers. -/
structure Router where
  inst : Instance
  /-- Milliseconds since the start. -/
  clock : Nat
  /-- The workers have not been shut down. -/
  running : Bool

namespace Router

/-- The present time. -/
def now (router : Router) : Timestamp :=
  ⟨(router.clock / 1000 : Nat), router.clock % 1000 * 1000000⟩

/-- Milliseconds between two scans: the configured interval, but at least one. -/
def period (router : Router) : Nat := max 1 router.inst.config.floodInterval.toNat

/-- The shortest-path worker: all waiting requests are served by one run. -/
def settle (router : Router) : Traced Router :=
  if router.running ∧ !router.inst.triggers.queue.isEmpty then
    Traced.within [.spf] do
      let inst := { router.inst with triggers := router.inst.triggers.drained }
      match ← inst.runSpf router.now with
      | (.ok (), inst) => return { router with inst := inst }
      | (.error fault, inst) =>
        Traced.emit (.fault fault)
        return { router with inst := inst }
  else pure router

/-- The scanning workers: every link is scanned once. -/
def scanAll (router : Router) : Traced Router :=
  router.inst.links.zipIdx.foldlM (fun router (link, position) => do
    let (_, inst) ← Traced.within [.link link.name, .flooding] (router.inst.scan position)
    return { router with inst := inst }) router

/-- Creates an instance and starts its workers. The first scans happen at once. -/
def start (config : InstanceConfig) : Traced Router := do
  let inst ← Instance.create config
  Traced.emit .instanceStarted
  scanAll ⟨inst, 0, true⟩

/-- Takes over an adjacency from the neighbor handshake. -/
def changeAdjacency (router : Router) (name : String) (adjacency : Adjacency) :
    Traced (Except Fault Unit × Router) := do
  let (result, inst) ← router.inst.changeAdjacency router.now name adjacency
  return (result, ← settle { router with inst := inst })

/-- The worker of a link processes one frame; a frame that is refused is only reported. -/
def process (router : Router) (name : String) (frame : Octets) : Traced Router :=
  Traced.within [.link name, .lspInput] do
    match ← router.inst.receive name frame with
    | (.ok _, inst) => return { router with inst := inst }
    | (.error fault, inst) =>
      Traced.emit (.fault fault)
      return { router with inst := inst }

/-- Whether there is a worker that takes frames of a link. -/
def accepts (router : Router) (name : String) : Bool :=
  router.running && (router.inst.linkIndex? name).isSome

/-- Queues frames for their links' workers and tells which of them were queued. The workers go to
work in the order of their first frames. -/
def deliver (router : Router) (frames : List (String × Octets)) : Traced (List Bool × Router) := do
  let queued := frames.filter fun frame => router.accepts frame.1
  let names := (queued.map (·.1)).eraseDups
  -- Each worker takes its own frames in the order in which they were queued.
  let ordered := names.flatMap fun name => queued.filter fun frame => frame.1 = name
  let busy ← ordered.foldlM (fun router frame => router.process frame.1 frame.2) router
  return (frames.map fun frame => router.accepts frame.1, ← busy.settle)

/-- Moves the clock. Nothing flags an LSP between two scans of one move, so that all scans of a link
together send what the first of them sends. -/
def advance (router : Router) (milliseconds : Nat) : Traced Router :=
  let later := { router with clock := router.clock + milliseconds }
  if router.running ∧ router.clock / router.period < later.clock / router.period then later.scanAll
  else pure later

/-- Stops all workers. Nobody takes requests for shortest-path runs any more. -/
def shutdown (router : Router) : Router :=
  { router with
    running := false
    inst := { router.inst with triggers := router.inst.triggers.close } }

end Router

end LinkState
