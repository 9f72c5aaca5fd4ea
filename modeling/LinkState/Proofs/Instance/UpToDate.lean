import LinkState.Proofs.Instance.Effects

/-!
# No request for a shortest-path run is lost

The tree and the routes are computed of the database and of the adjacencies that are up. An
operation that changes one of these asks for a run, and one that does not leaves them as they are,
unless it changes how an adjacency looks that stays up (`perform_routing_cases`). The worker forgets
all waiting requests and makes one run, which brings everything up to date (`upToDate_runSpf`); if
the run fails, then for want of the router's own LSP. So the state is up to date or a request is
waiting (`Attended`), whatever happens (`Attended.perform`, `Attended.run`).
-/

namespace LinkState

/-- What the search reads of an adjacency that is up: the neighbor, the metric and the address. -/
def Adjacency.terms (adjacency : Adjacency) : Option SystemId × UInt32 × Option Ipv4.Address :=
  (adjacency.neighborSystemId, adjacency.metric, adjacency.neighborIp)

/-- A channel that takes any number of messages has one waiting after it was offered one. -/
theorem Channel.offer_of_open {α : Type u} {channel : Channel α} (hopen : channel.room = none)
    (message : α) :
    channel.offer message = { channel with queue := channel.queue ++ [message] } := by
  unfold offer send?
  rw [hopen]
  rfl

/-- The search reads nothing of the links but the candidates that they give. -/
theorem shortestPaths_congr {links links' : List Link}
    (h : links.filterMap Search.ofLink? = links'.filterMap Search.ofLink?) (root : SystemId)
    (database : Database) :
    shortestPaths root links database = shortestPaths root links' database := by
  unfold shortestPaths namedNeighbors Search.start
  rw [h]

namespace Instance

variable {inst after : Instance}

/-- The candidates that the links give are determined by how the adjacencies look that are up. -/
theorem filterMap_ofLink? (inst : Instance) :
    inst.links.filterMap Search.ofLink? =
      (inst.upLinks Adjacency.terms).filterMap fun link => do
        let (neighbor?, metric, address) ← link.2
        let neighbor ← neighbor?
        return ⟨neighbor, metric, some ⟨link.1, neighbor, address⟩⟩ := by
  unfold upLinks
  rw [List.filterMap_map]
  refine congrArg (List.filterMap · inst.links) (funext fun link => ?_)
  unfold Search.ofLink? Adjacency.upNeighbor? Adjacency.terms Function.comp
  dsimp only
  split
  · cases link.adjacency.neighborSystemId <;> rfl
  · rfl

/-- The tree and the routes are those of the present database and adjacencies, or there is no LSP of
the router itself. -/
def UpToDate (inst : Instance) : Prop :=
  inst.database.router? inst.systemId = none ∨
    shortestPaths inst.systemId inst.links inst.database = .ok inst.topology.entries ∧
      inst.routes = Routes.compute inst.systemId inst.topology.entries inst.database

/-- Two states look the same to the shortest-path computation and have the same results. -/
structure SameRouting (before after : Instance) : Prop where
  config_eq : after.config = before.config
  database_eq : after.database = before.database
  topology_eq : after.topology = before.topology
  routes_eq : after.routes = before.routes
  upLinks_eq : after.upLinks Adjacency.terms = before.upLinks Adjacency.terms

/-- States without a difference but in their flags and in what they have sent. -/
theorem SameRouting.of_bare (h : after.bare = inst.bare) : SameRouting inst after where
  config_eq := (congrArg config h :)
  database_eq := (congrArg database h :)
  topology_eq := (congrArg topology h :)
  routes_eq := (congrArg routes h :)
  upLinks_eq := by rw [← upLinks_bare, h, upLinks_bare]

/-- A state that looks the same is as up to date. -/
theorem UpToDate.of_same (h : inst.UpToDate) (hsame : SameRouting inst after) :
    after.UpToDate := by
  have hcandidates :
      after.links.filterMap Search.ofLink? = inst.links.filterMap Search.ofLink? := by
    rw [filterMap_ofLink?, filterMap_ofLink?, hsame.upLinks_eq]
  unfold UpToDate systemId at h ⊢
  rw [hsame.config_eq, hsame.database_eq, hsame.topology_eq, hsame.routes_eq,
    shortestPaths_congr hcandidates]
  exact h

/-- A shortest-path run brings the state up to date. -/
theorem upToDate_runSpf (inst : Instance) (now : Timestamp) :
    (inst.runSpf now).value.2.UpToDate := by
  have hbare := inst.bare_runSpf now
  cases hpaths : shortestPaths inst.systemId inst.links inst.database with
  | error fault =>
    -- The run fails for want of the router's own LSP only.
    have habsent : inst.database.router? inst.systemId = none := by
      unfold shortestPaths at hpaths
      split at hpaths
      · assumption
      · cases hpaths
    rw [hpaths] at hbare
    exact UpToDate.of_same (Or.inl habsent) (.of_bare hbare)
  | ok entries =>
    rw [hpaths] at hbare
    have hcomputed : UpToDate { inst with
        topology := ⟨entries, inst.topology.runs + 1, some now⟩
        routes := Routes.compute inst.systemId entries inst.database } := Or.inr ⟨hpaths, rfl⟩
    exact hcomputed.of_same (.of_bare hbare)

/-- An operation asks for a shortest-path run, or everything looks the same to the computation, or a
run is made. -/
theorem perform_routing_cases {operation : Operation}
    (hsteady : Steady inst Adjacency.terms operation) :
    (inst.perform operation).value.triggers = inst.triggers.offer ⟨⟩ ∨
      (inst.perform operation).value.triggers = inst.triggers ∧
        SameRouting inst (inst.perform operation).value ∨
      ∃ triggers now, triggers.room = inst.triggers.room ∧
        (inst.perform operation).value =
          (({ inst with triggers := triggers } : Instance).runSpf now).value.2 := by
  cases operation with
  | receive name frame =>
    rcases inst.bare_receive name frame with hbare | ⟨lsp, -, -, hbare⟩
    · exact Or.inr (Or.inl ⟨(congrArg triggers hbare :), .of_bare hbare⟩)
    · exact Or.inl (congrArg triggers hbare :)
  | originate => exact Or.inl rfl
  | changeAdjacency now name adjacency =>
    have hlooks (hnone : originations (inst.changeAdjacency now name adjacency).records = []) :=
      upLinks_perform (fun _ _ => rfl) (Traced.records_map Prod.snd _ ▸ hnone) hsteady
    rw [perform, Traced.value_map] at hlooks ⊢
    obtain ⟨taken, links, rfl, -, ⟨hvalue, hnone⟩ | ⟨hvalue, -⟩⟩ :=
      inst.changeAdjacency_cases now name adjacency
    · rw [hvalue] at hlooks ⊢
      exact Or.inr (Or.inl ⟨rfl, rfl, rfl, rfl, rfl, hlooks hnone⟩)
    · -- The adjacency has come up or gone down.
      exact Or.inl (congrArg triggers hvalue)
  | scan position =>
    have hbare := inst.bare_scan position
    exact Or.inr (Or.inl ⟨(congrArg triggers hbare :), .of_bare hbare⟩)
  | runSpf now => exact Or.inr (Or.inr ⟨inst.triggers, now, rfl, rfl⟩)
  | serve clock =>
    obtain ⟨-, ⟨-, hvalue⟩ | ⟨-, hvalue⟩⟩ := inst.serve_value clock
    · refine Or.inr (Or.inl ?_)
      rw [hvalue]
      exact ⟨rfl, .of_bare rfl⟩
    · exact Or.inr (Or.inr ⟨inst.triggers.drained, _, rfl, hvalue⟩)

/-- The state is up to date, or a request is waiting that the worker will serve. -/
structure Attended (inst : Instance) : Prop where
  room_eq : inst.triggers.room = none
  upToDate : inst.triggers.queue = [] → inst.UpToDate

/-- Before the first operation there is no LSP. -/
theorem attended_ofConfig (config : InstanceConfig) : Attended (ofConfig config) :=
  ⟨rfl, fun _ => Or.inl rfl⟩

/-- A shortest-path run uses up no requests. -/
theorem triggers_runSpf (inst : Instance) (now : Timestamp) :
    (inst.runSpf now).value.2.triggers = inst.triggers := by
  have hbare := inst.bare_runSpf now
  split at hbare <;> exact (congrArg triggers hbare :)

theorem Attended.perform (h : Attended inst) {operation : Operation}
    (hsteady : Steady inst Adjacency.terms operation) :
    Attended (inst.perform operation).value := by
  rcases perform_routing_cases hsteady with hasked | ⟨htriggers, hsame⟩ |
    ⟨triggers, now, hroom, hvalue⟩
  · rw [Channel.offer_of_open h.room_eq] at hasked
    refine ⟨hasked ▸ h.room_eq, fun hidle => ?_⟩
    rw [hasked] at hidle
    exact absurd hidle (List.append_ne_nil_of_right_ne_nil _ (List.cons_ne_nil _ _))
  · exact ⟨htriggers ▸ h.room_eq, fun hidle => (h.upToDate (htriggers ▸ hidle)).of_same hsame⟩
  · rw [hvalue]
    refine ⟨?_, fun _ => upToDate_runSpf _ now⟩
    rw [triggers_runSpf]
    exact hroom.trans h.room_eq

/-- So it is after a whole run. -/
theorem Attended.run (h : Attended inst) {operations : List Operation}
    (hsteady : Along (fun inst => Steady inst Adjacency.terms) inst operations) :
    Attended (inst.run operations).value := by
  induction operations generalizing inst with
  | nil => exact h
  | cons operation operations ih => exact ih (h.perform hsteady.1) hsteady.2

/-- Whenever no request for a shortest-path run is waiting, the tree and the routes are those of the
present database and adjacencies, or the router's own LSP is missing. -/
theorem upToDate_of_idle (config : InstanceConfig) (operations : List Operation)
    (hsteady : Along (fun inst => Steady inst Adjacency.terms) (ofConfig config) operations)
    (hidle : ((ofConfig config).run operations).value.triggers.queue = []) :
    ((ofConfig config).run operations).value.UpToDate :=
  ((attended_ofConfig config).run hsteady).upToDate hidle

/-- The handshake is completed, the neighbor's first LSP arrives, the handshake reports the same
adjacency again, and the worker serves both requests. -/
def served : List Operation :=
  [completed 10, .receive "e" introduction.encode, completed 10, .serve 5]

/-- One run for two requests finds the neighbor. -/
theorem upToDate_of_idle_served :
    Along (fun inst => Steady inst Adjacency.terms) (ofConfig single) served ∧
      ((ofConfig single).run (served.take 3)).value.triggers.queue.length = 2 ∧
      ((ofConfig single).run served).value.triggers.queue = [] ∧
      ((ofConfig single).run served).value.topology.entries.size = 2 ∧
      ((ofConfig single).run served).value.UpToDate := by
  have hsteady : Along (fun inst => Steady inst Adjacency.terms) (ofConfig single) served := by
    decide +kernel
  have hidle : ((ofConfig single).run served).value.triggers.queue = [] := by decide +kernel
  exact ⟨hsteady, by decide +kernel, hidle, by decide +kernel,
    upToDate_of_idle single served hsteady hidle⟩

end Instance

end LinkState
