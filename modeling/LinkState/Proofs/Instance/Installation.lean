import Mathlib.Data.List.Chain
import Mathlib.Data.List.Induction
import LinkState.Proofs.Instance.UpToDate

/-!
# The route installer is in step with the instance

The installer hears of the routes only when they have changed. Every computed route is filed under
its own network (`Routes.filed_compute`), so that two tables with the same routes in order are the
same table, and the installer is told of every change. Only a shortest-path run that succeeds
touches the routes, the topology or what is handed over (`perform_installs_cases`). So the routes
that were handed over last are always the present ones, and no routes are handed over twice in a row
(`InStep`, `InStep.perform`). The topology counts the runs that have succeeded
(`installer_inStep`).
-/

namespace LinkState

namespace Routes

/-- Every route is filed under its own network. -/
def Filed (routes : Routes) : Prop := ∀ entry ∈ routes.entries, entry.1 = entry.2.network

/-- A table without routes is filed. -/
theorem filed_empty : Filed .empty := fun _ h => absurd h List.not_mem_nil

/-- A route that is taken in is filed under its own network. -/
theorem Filed.offer {routes : Routes} (h : routes.Filed) (route : Route) :
    (routes.offer route).Filed := by
  have hinsert : Filed (routes.insert route.network route) := by
    intro entry hentry
    rcases Table.mem_insert.1 hentry with rfl | ⟨hentry, -⟩
    · rfl
    · exact h entry hentry
  unfold Routes.offer
  split
  · exact hinsert
  · split
    · exact h
    · exact hinsert

/-- Computed routes are filed under their own networks. -/
theorem filed_compute (systemId : SystemId) (topology : Avl.Map Vertex) (database : Database) :
    (compute systemId topology database).Filed := by
  unfold compute
  dsimp only
  exact List.foldlRecOn _ _ filed_empty fun routes h route _ => h.offer route

/-- Routes that are filed under their own networks are determined by their order. -/
theorem Filed.eq_of_values_eq {s t : Routes} (hs : s.Filed) (ht : t.Filed)
    (h : s.values = t.values) : s = t := by
  have hentries {routes : Routes} (hfiled : routes.Filed) :
      routes.entries = routes.values.map fun route => (route.network, route) := by
    have hself : ∀ entry ∈ routes.entries, (entry.2.network, entry.2) = entry :=
      fun entry hentry => Prod.ext (hfiled entry hentry).symm rfl
    unfold Table.values
    rw [List.map_map]
    exact (List.map_id routes.entries).symm.trans (List.map_congr_left hself).symm
  have hsame : s.entries = t.entries := by rw [hentries hs, hentries ht, h]
  cases s
  cases t
  cases hsame
  rfl

end Routes

namespace Instance

variable {config : InstanceConfig} {inst : Instance}

/-! ### Shortest-path runs -/

/-- The result of the shortest-path run that an operation makes, if it makes one. The worker makes
one if a request is waiting. -/
def attempt? (inst : Instance) : Operation → Option (Except Fault Unit)
  | .runSpf now => some (inst.runSpf now).value.1
  | .serve clock =>
    if inst.triggers.queue.isEmpty then none
    else
      let served : Instance := { inst with triggers := inst.triggers.drained }
      some (served.runSpf (Router.now ⟨inst, clock, true⟩)).value.1
  | _ => none

/-- The number of shortest-path runs in a row of operations that succeed. -/
def successes : Instance → List Operation → Nat
  | _, [] => 0
  | inst, operation :: operations =>
    (if (inst.attempt? operation).any Except.isOk then 1 else 0) +
      successes (inst.perform operation).value operations

/-- What the installer has to do with is left as it is. -/
structure SameInstalls (before after : Instance) : Prop where
  topology_eq : after.topology = before.topology
  routes_eq : after.routes = before.routes
  installs_eq : after.installs = before.installs

/-- A run fails for want of the router's own LSP and changes nothing, or it takes over a tree;
whether a request is waiting makes no difference. -/
theorem runSpf_cases (inst : Instance) (triggers : Channel SpfTrigger) (now : Timestamp) :
    let asked : Instance := { inst with triggers := triggers }
    ((asked.runSpf now).value.1 = .error (.rootNotFound inst.systemId) ∧
        inst.database.router? inst.systemId = none ∧ (asked.runSpf now).value.2 = asked) ∨
      ∃ entries, (asked.runSpf now).value.1 = .ok () ∧
        (inst.database.router? inst.systemId).isSome ∧
        (asked.runSpf now).value.2 = asked.withTree entries now := by
  dsimp only
  rw [runSpf_value]
  unfold shortestPaths systemId
  dsimp only
  cases hroot : inst.database.router? inst.config.systemId with
  | none => exact Or.inl ⟨rfl, rfl, rfl⟩
  | some lsp => exact Or.inr ⟨_, rfl, rfl, rfl⟩

/-- An operation takes over a tree and its routes by a run that succeeds, or it leaves the topology,
the routes and what is handed over as they are. Then it makes no run, or the run fails for want of
the router's own LSP. -/
theorem perform_installs_cases (inst : Instance) (operation : Operation) :
    (inst.attempt? operation = none ∨
        inst.attempt? operation = some (.error (.rootNotFound inst.systemId)) ∧
          inst.database.router? inst.systemId = none) ∧
        SameInstalls inst (inst.perform operation).value ∨
      ∃ entries now triggers, inst.attempt? operation = some (.ok ()) ∧
        (inst.database.router? inst.systemId).isSome ∧
        (inst.perform operation).value =
          ({ inst with triggers := triggers } : Instance).withTree entries now := by
  cases operation with
  | receive name frame =>
    refine Or.inl ⟨Or.inl rfl, ?_⟩
    rcases (inst.receive_value name frame).2 with ⟨-, hvalue, -⟩ | ⟨reading, -, -, -, -, hvalue⟩
    · rw [perform, Traced.value_map, hvalue]
      exact ⟨rfl, rfl, rfl⟩
    · rw [perform, Traced.value_map, hvalue]
      exact ⟨rfl, rfl, rfl⟩
  | originate => exact Or.inl ⟨Or.inl rfl, rfl, rfl, rfl⟩
  | changeAdjacency now name adjacency =>
    refine Or.inl ⟨Or.inl rfl, ?_⟩
    obtain ⟨taken, links, rfl, -, ⟨hvalue, -⟩ | ⟨hvalue, -⟩⟩ :=
      inst.changeAdjacency_cases now name adjacency
    · rw [perform, Traced.value_map, hvalue]
      exact ⟨rfl, rfl, rfl⟩
    · rw [perform, Traced.value_map, hvalue]
      exact ⟨rfl, rfl, rfl⟩
  | scan position =>
    refine Or.inl ⟨Or.inl rfl, ?_⟩
    rw [perform, Traced.value_map]
    cases hlink : inst.links[position]? with
    | none =>
      unfold scan
      rw [hlink]
      exact ⟨rfl, rfl, rfl⟩
    | some link =>
      rw [scan_value hlink]
      exact ⟨rfl, rfl, rfl⟩
  | runSpf now =>
    rcases inst.runSpf_cases inst.triggers now with ⟨herror, hroot, hvalue⟩ |
      ⟨entries, hok, hroot, hvalue⟩
    · refine Or.inl ⟨Or.inr ⟨congrArg some herror, hroot⟩, ?_⟩
      rw [perform, Traced.value_map]
      exact hvalue ▸ ⟨rfl, rfl, rfl⟩
    · exact Or.inr ⟨entries, now, inst.triggers, congrArg some hok, hroot, hvalue⟩
  | serve clock =>
    obtain ⟨-, ⟨hidle, hvalue⟩ | ⟨hwaiting, hvalue⟩⟩ := inst.serve_value clock
    · refine Or.inl ⟨Or.inl ?_, ?_⟩
      · rw [attempt?, hidle]
        rfl
      · rw [hvalue]
        exact ⟨rfl, rfl, rfl⟩
    · have hattempt : inst.attempt? (.serve clock) =
          some (({ inst with triggers := inst.triggers.drained } : Instance).runSpf
            (Router.now ⟨inst, clock, true⟩)).value.1 := by
        rw [attempt?, if_neg (by simpa using hwaiting)]
      rw [hattempt, hvalue]
      rcases inst.runSpf_cases inst.triggers.drained _ with ⟨herror, hroot, hsame⟩ |
        ⟨entries, hok, hroot, htree⟩
      · rw [herror, hsame]
        exact Or.inl ⟨Or.inr ⟨rfl, hroot⟩, rfl, rfl, rfl⟩
      · exact Or.inr ⟨entries, _, inst.triggers.drained, congrArg some hok, hroot, htree⟩

/-! ### In step -/

/-- The routes that were handed over last are the present ones, none if nothing was handed over, and
whatever was handed over is different from what the installer had before. -/
structure InStep (inst : Instance) : Prop where
  room_eq : inst.installs.room = none
  filed : inst.routes.Filed
  last : inst.installs.queue.getLast?.getD [] = inst.routes.values
  changing : ([] :: inst.installs.queue).IsChain (· ≠ ·)

/-- Before the first operation there are no routes. -/
theorem inStep_ofConfig (config : InstanceConfig) : InStep (ofConfig config) :=
  ⟨rfl, Routes.filed_empty, rfl, .singleton []⟩

/-- A new tree is handed over with its routes if they are others than the present ones. -/
theorem InStep.withTree (h : InStep inst) (entries : Avl.Map Vertex) (now : Timestamp) :
    InStep (inst.withTree entries now) := by
  have hfiled := Routes.filed_compute inst.systemId entries inst.database
  by_cases hsame : inst.routes = Routes.compute inst.systemId entries inst.database
  · have hinstalls : (inst.withTree entries now).installs = inst.installs := if_pos hsame
    refine ⟨?_, hfiled, ?_, ?_⟩
    · rw [hinstalls]
      exact h.room_eq
    · rw [hinstalls, h.last, hsame]
      rfl
    · rw [hinstalls]
      exact h.changing
  · -- Since the tables differ, so do the routes in order.
    have hvalues : inst.routes.values ≠
        (Routes.compute inst.systemId entries inst.database).values :=
      fun heq => hsame (h.filed.eq_of_values_eq hfiled heq)
    have hinstalls : (inst.withTree entries now).installs = { inst.installs with queue :=
        inst.installs.queue ++ [(Routes.compute inst.systemId entries inst.database).values] } :=
      (if_neg hsame).trans (Channel.offer_of_open h.room_eq _)
    refine ⟨?_, hfiled, ?_, ?_⟩
    · rw [hinstalls]
      exact h.room_eq
    · rw [hinstalls, List.getLast?_concat]
      rfl
    · rw [hinstalls, ← List.cons_append, List.isChain_append]
      refine ⟨h.changing, .singleton _, fun before hbefore after hafter => ?_⟩
      rw [List.getLast?_cons, h.last] at hbefore
      cases hbefore
      cases hafter
      exact hvalues

/-- Every operation keeps the installer in step. -/
theorem InStep.perform (h : InStep inst) (operation : Operation) :
    InStep (inst.perform operation).value := by
  rcases inst.perform_installs_cases operation with ⟨-, hsame⟩ |
    ⟨entries, now, triggers, -, -, hvalue⟩
  · exact ⟨hsame.installs_eq ▸ h.room_eq, hsame.routes_eq ▸ h.filed,
      hsame.installs_eq ▸ hsame.routes_eq ▸ h.last, hsame.installs_eq ▸ h.changing⟩
  · rw [hvalue]
    have hasked : InStep { inst with triggers := triggers } :=
      ⟨h.room_eq, h.filed, h.last, h.changing⟩
    exact hasked.withTree entries now

/-- An operation adds to the number of runs if and only if its run succeeds. -/
theorem runs_perform (inst : Instance) (operation : Operation) :
    (inst.perform operation).value.topology.runs = inst.topology.runs +
      UInt64.ofNat (if (inst.attempt? operation).any Except.isOk then 1 else 0) := by
  rcases inst.perform_installs_cases operation with ⟨hnone | ⟨hfails, -⟩, hsame⟩ |
    ⟨entries, now, triggers, hok, -, hvalue⟩
  · rw [hnone, hsame.topology_eq]
    exact (UInt64.add_zero _).symm
  · rw [hfails, hsame.topology_eq]
    exact (UInt64.add_zero _).symm
  · rw [hok, hvalue]
    rfl

/-- The topology counts the successful runs, beginning with those that it has counted already. -/
theorem runs_run (inst : Instance) (operations : List Operation) :
    (inst.run operations).value.topology.runs =
      inst.topology.runs + UInt64.ofNat (inst.successes operations) := by
  induction operations generalizing inst with
  | nil => exact (UInt64.add_zero _).symm
  | cons operation operations ih =>
    rw [run_cons, Traced.value_bind, ih, runs_perform, successes, UInt64.ofNat_add,
      UInt64.add_assoc]

/-- So the installer is in step after every run. -/
theorem inStep_run (config : InstanceConfig) (operations : List Operation) :
    InStep ((ofConfig config).run operations).value := by
  induction operations using List.reverseRecOn with
  | nil => exact inStep_ofConfig config
  | append_singleton operations operation ih =>
    rw [run_concat]
    exact ih.perform operation

/-- After every run the routes that were handed over last are the present ones in the order of their
networks, and none if nothing was handed over. Routes are never handed over twice in a row, and at
first there are some. The topology counts the shortest-path runs that have succeeded, in a 64-bit
word. A further run succeeds if the router's own LSP is stored; otherwise it fails and leaves the
topology, the routes and what was handed over as they are. -/
theorem installer_inStep (config : InstanceConfig) (operations : List Operation) :
    let inst := ((ofConfig config).run operations).value
    inst.installs.queue.getLast?.getD [] = inst.routes.values ∧
      inst.installs.queue.IsChain (· ≠ ·) ∧
      inst.installs.queue.head? ≠ some [] ∧
      inst.topology.runs = UInt64.ofNat ((ofConfig config).successes operations) ∧
      ∀ operation result, inst.attempt? operation = some result →
        result = .ok () ∧ (inst.database.router? inst.systemId).isSome ∨
          result = .error (.rootNotFound inst.systemId) ∧
            inst.database.router? inst.systemId = none ∧
            SameInstalls inst (inst.perform operation).value := by
  intro inst
  have hstep : InStep inst := inStep_run config operations
  obtain ⟨hfirst, hchanging⟩ := List.isChain_cons.1 hstep.changing
  refine ⟨hstep.last, hchanging, fun hempty => hfirst [] hempty rfl, ?_, ?_⟩
  · have hruns := runs_run (ofConfig config) operations
    exact hruns.trans (UInt64.zero_add _)
  · intro operation result hresult
    rcases inst.perform_installs_cases operation with ⟨hnone | ⟨hfails, hroot⟩, hsame⟩ |
      ⟨entries, now, triggers, hok, hroot, -⟩
    · rw [hnone] at hresult
      cases hresult
    · rw [hfails] at hresult
      cases hresult
      exact Or.inr ⟨rfl, hroot, hsame⟩
    · rw [hok] at hresult
      cases hresult
      exact Or.inl ⟨rfl, hroot⟩

end Instance

end LinkState
