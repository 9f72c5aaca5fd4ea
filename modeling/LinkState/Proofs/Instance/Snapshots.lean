import LinkState.Proofs.Instance.FloodTables
import LinkState.Proofs.Instance.Installation
import LinkState.Proofs.Routing.Nexthops
import LinkState.Proofs.Routing.Selection

/-!
# Snapshots are in the order of the IDs

The management interface lists the LSPs and the routers of the shortest-path tree as they come in
their trees, that is, by key. Keys are in the order of the IDs (`LspId.key_lt_key_iff`,
`SystemId.key_lt_key_iff`), so that both lists are in strictly ascending order as long as everything
is filed under the key of its own ID. That is so for the database (`Mirrored.run`). It is so for the
topology because only a shortest-path run replaces it (`topology_perform`), by a computed tree
(`Routes.keyed_of_shortestPaths`). So both hold after every run (`snapshot_keyOrder`).
-/

namespace LinkState

/-- The routers of a computed tree are filed under the keys of their system IDs. -/
theorem Routes.keyed_of_shortestPaths {root : SystemId} {links : List Link} {database : Database}
    {path : Avl.Map Vertex} (h : shortestPaths root links database = .ok path) : Keyed path := by
  obtain ⟨search, rfl, hinvariant, -⟩ := exists_search h
  exact ⟨hinvariant.path_valid, hinvariant.path_filed⟩

namespace Instance

variable {config : InstanceConfig} {inst : Instance}

/-- A shortest-path run leaves the tree as it is, or puts the computed one in its place. -/
theorem topology_runSpf (inst : Instance) (now : Timestamp) :
    (inst.runSpf now).value.2.topology = inst.topology ∨
      shortestPaths inst.systemId inst.links inst.database =
        .ok (inst.runSpf now).value.2.topology.entries := by
  rw [runSpf_value]
  cases shortestPaths inst.systemId inst.links inst.database with
  | error fault => exact Or.inl rfl
  | ok entries => exact Or.inr rfl

/-- So does every operation. -/
theorem topology_perform (inst : Instance) (operation : Operation) :
    (inst.perform operation).value.topology = inst.topology ∨
      shortestPaths inst.systemId inst.links inst.database =
        .ok (inst.perform operation).value.topology.entries := by
  rcases inst.perform_installs_cases operation with ⟨-, hsame⟩ | ⟨_, _, _, hattempt, -⟩
  · exact Or.inl hsame.topology_eq
  · -- Only a run and the worker make an attempt.
    cases operation with
    | runSpf now => exact inst.topology_runSpf now
    | serve clock =>
      obtain ⟨-, ⟨-, hvalue⟩ | ⟨-, hvalue⟩⟩ := inst.serve_value clock
      · exact Or.inl (congrArg topology hvalue)
      · rw [hvalue]
        exact topology_runSpf { inst with triggers := inst.triggers.drained } _
    | receive | originate | changeAdjacency | scan => cases hattempt

/-- The routers of the shortest-path tree are always filed under the keys of their system IDs. -/
theorem keyed_run (h : Routes.Keyed inst.topology.entries) (operations : List Operation) :
    Routes.Keyed (inst.run operations).value.topology.entries := by
  induction operations generalizing inst with
  | nil => exact h
  | cons operation operations ih =>
    rcases inst.topology_perform operation with hsame | hpaths
    · exact ih (hsame ▸ h)
    · exact ih (Routes.keyed_of_shortestPaths hpaths)

/-- The keys of LSP IDs are in the order of the LSP IDs, and every 64-bit number is the key of one
of them. The keys of system IDs are different ones in the order of the system IDs, and 65536 times
the key of a router is the key of its own first fragment. So after every run, whether the network
takes all frames or refuses them from some point on, the database holds under an LSP ID no LSP with
another one, and storing an LSP there leaves those with other IDs alone. A snapshot lists the LSPs
in strictly ascending order of their LSP IDs and the routers of the shortest-path tree in strictly
ascending order of their system IDs. -/
theorem snapshot_keyOrder (config : InstanceConfig) (room : Option Nat)
    (operations : List Operation) :
    ((∀ a b : LspId, a.key < b.key ↔ a < b) ∧ (∀ id : LspId, LspId.ofKey id.key = id) ∧
        ∀ key : UInt64, (LspId.ofKey key).key = key) ∧
      (Function.Injective SystemId.key ∧ (∀ a b : SystemId, a.key < b.key ↔ a < b) ∧
        ∀ systemId : SystemId,
          (LspId.ofSystem systemId).key.toNat = 65536 * systemId.key.toNat) ∧
      let inst := (({ ofConfig config with transmissions := ⟨[], room⟩ } : Instance).run
        operations).value
      (∀ id lsp, inst.database.lsp? id = some lsp → lsp.id = id) ∧
        (∀ id lsp, (Database.store inst.database lsp).lsp? id =
          if id = lsp.id then some lsp else inst.database.lsp? id) ∧
        inst.snapshot.lspIds.Pairwise (· < ·) ∧
        (inst.snapshot.entries.map (·.systemId)).Pairwise (· < ·) := by
  have hmirrored : Mirrored _ := (mirrored_ofConfig config room).run operations
  have hempty : Routes.Keyed (Avl.Map.empty : Avl.Map Vertex) :=
    ⟨Avl.Map.valid_empty, fun _ _ hvertex => by cases hvertex⟩
  have hkeyed : Routes.Keyed (({ ofConfig config with transmissions := ⟨[], room⟩ } :
      Instance).run operations).value.topology.entries := keyed_run hempty operations
  refine ⟨⟨fun _ _ => LspId.key_lt_key_iff, LspId.ofKey_key, LspId.key_ofKey⟩,
    ⟨fun _ _ => SystemId.key_inj, fun _ _ => SystemId.key_lt_key_iff, fun systemId => ?_⟩,
    fun id lsp hlsp => ?_, fun id lsp => Database.lsp?_store hmirrored.valid lsp id,
    hmirrored.filed.pairwise_ids hmirrored.valid, List.pairwise_map.2 hkeyed.pairwise_values⟩
  · rw [LspId.toNat_key_eq]
    rfl
  · exact ((hmirrored.filed.lsp?_eq_some_iff hmirrored.valid).1 hlsp).2

/-- LSPs of a farther router and of the neighbor arrive, the handshake is completed, and the worker
runs. -/
def learned : List Operation :=
  [.receive "e" (Lsp.ofLinks ⟨0, 0, 0, 0, 0, 3⟩ [] 1 1200).encode,
    .receive "e" introduction.encode, completed 10, .serve 5]

/-- The snapshot lists the three LSPs by number, whatever the order of their arrival, and the two
routers of the tree. -/
theorem snapshot_keyOrder_learned :
    let inst := (({ ofConfig single with transmissions := ⟨[], none⟩ } : Instance).run
      learned).value
    inst.snapshot.lspIds = [.ofSystem ⟨0, 0, 0, 0, 0, 1⟩, .ofSystem ⟨0, 0, 0, 0, 0, 2⟩,
        .ofSystem ⟨0, 0, 0, 0, 0, 3⟩] ∧
      inst.snapshot.entries.map (·.systemId) = [⟨0, 0, 0, 0, 0, 1⟩, ⟨0, 0, 0, 0, 0, 2⟩] ∧
      inst.database.lsp? (.ofSystem ⟨0, 0, 0, 0, 0, 2⟩) = some introduction ∧
      introduction.id = .ofSystem ⟨0, 0, 0, 0, 0, 2⟩ ∧
      inst.snapshot.lspIds.Pairwise (· < ·) ∧
      (inst.snapshot.entries.map (·.systemId)).Pairwise (· < ·) := by
  have hstored : (({ ofConfig single with transmissions := ⟨[], none⟩ } : Instance).run
      learned).value.database.lsp? (.ofSystem ⟨0, 0, 0, 0, 0, 2⟩) = some introduction := by
    decide +kernel
  obtain ⟨-, -, hown, -, hids, hsystems⟩ := snapshot_keyOrder single none learned
  exact ⟨by decide +kernel, by decide +kernel, hstored, hown _ _ hstored, hids, hsystems⟩

end Instance

end LinkState
