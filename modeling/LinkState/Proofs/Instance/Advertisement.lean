import LinkState.Proofs.Instance.Recency

/-!
# What the router's own LSP advertises

As long as no frame arrives under the router's own ID, the stored LSP of the router is the last one
that it has originated, and there is one as soon as it has originated any (`none_or_renewal`).
Nothing but an adjacency that comes up or goes down makes the router originate of its own accord, so
the links that are up are the same as when it was originated (`upLinks_run`), and if none is stored
then no link is up. The neighbors and metrics that it advertises are those of that time. They are
the present ones if no adjacency has changed its neighbor or metric while it stayed up
(`advertises_adjacencies`); a change of that kind is not advertised
(`neighbors_outdated_completed`).
-/

namespace LinkState.Instance

/-- An operation of a run from the start has originated an LSP, and none has been originated since.
-/
structure Renewal (config : InstanceConfig) (earlier : List Operation) (operation : Operation)
    (later : List Operation) (lsp : Lsp) : Prop where
  originated :
    originations (((ofConfig config).run earlier).value.perform operation).records = [lsp]
  /-- The LSP advertises the neighbors of its time. -/
  neighbors_eq : lsp.neighbors = ((ofConfig config).run (earlier ++ [operation])).value.neighbors
  last :
    originations (((ofConfig config).run (earlier ++ [operation])).value.run later).records = []

variable {config : InstanceConfig} {earlier later operations : List Operation}
  {operation : Operation} {lsp : Lsp}

/-- After the operations of a run before and behind one of them the run is at its end. -/
theorem value_run_split : ((ofConfig config).run (earlier ++ operation :: later)).value =
    (((ofConfig config).run (earlier ++ [operation])).value.run later).value := by
  rw [List.append_cons, run_append]
  rfl

/-- An LSP stays the last one if the next operation originates none. -/
theorem Renewal.concat (h : Renewal config earlier operation later lsp) {next : Operation}
    (hnone : originations
      (((ofConfig config).run (earlier ++ operation :: later)).value.perform next).records = []) :
    Renewal config earlier operation (later ++ [next]) lsp := by
  refine ⟨h.originated, h.neighbors_eq, ?_⟩
  rw [run_concat, Traced.records_bind, originations_append, h.last, List.nil_append,
    ← value_run_split]
  exact hnone

/-- As long as no frame arrives under the router's own ID, its stored LSP is the last one that it
has originated. -/
theorem none_or_renewal
    (hspared : ∀ lsp, Arrived operations lsp → lsp.id ≠ .ofSystem config.systemId) :
    ((ofConfig config).run operations).value.database.router? config.systemId = none ∧
        originations ((ofConfig config).run operations).records = [] ∨
      ∃ earlier operation later lsp, operations = earlier ++ operation :: later ∧
        Renewal config earlier operation later lsp ∧
        ((ofConfig config).run operations).value.database.router? config.systemId = some lsp := by
  induction operations using List.reverseRecOn with
  | nil => exact Or.inl ⟨rfl, rfl⟩
  | append_singleton operations next ih =>
    have hold := accounted_run config operations
    have ih := ih fun lsp harrived => hspared lsp (harrived.concat next)
    rw [run_concat, Traced.value_bind, Traced.records_bind, originations_append]
    obtain ⟨-, ⟨hnone, -, hcases⟩ | ⟨lsp, hone, hrenews⟩⟩ :=
      ((ofConfig config).run operations).value.perform_cases next
    · -- The stored LSP of the router stays, since no other one has its ID.
      have hsame : ((((ofConfig config).run operations).value.perform next).value).database.router?
          config.systemId =
          ((ofConfig config).run operations).value.database.router? config.systemId := by
        rcases hcases with hsame | ⟨lsp, haccepts⟩
        · rw [hsame]
        · have hid : lsp.id ≠ .ofSystem config.systemId := hspared lsp (haccepts.arrived operations)
          have hkey : (LspId.ofSystem config.systemId).key ≠ lsp.key :=
            fun h => hid (LspId.key_inj h).symm
          rw [haccepts.database_eq, Database.router?, Database.lsp?, Database.store,
            Avl.Map.find?_put hold.valid, if_neg hkey]
          rfl
      rw [hsame, hnone, List.append_nil]
      refine ih.imp_right ?_
      rintro ⟨earlier, operation, later, lsp, rfl, hrenewal, hstored⟩
      exact ⟨earlier, operation, later ++ [next], lsp, by simp, hrenewal.concat hnone, hstored⟩
    · refine Or.inr ⟨operations, next, [], lsp, rfl, ⟨hone, ?_, rfl⟩, ?_⟩
      · rw [run_concat]
        exact hrenews.neighbors_eq
      · have hkey : (LspId.ofSystem config.systemId).key = lsp.key := by
          rw [Lsp.key, hrenews.id_eq, systemId, hold.config_eq]
        rw [hrenews.database_eq, Database.router?, Database.lsp?, Database.store,
          Avl.Map.find?_put hold.valid, if_pos hkey]

/-- Before the first operation no link is up. -/
theorem not_isUp_of_upLinks_eq {inst : Instance}
    (h : inst.upLinks (fun _ => ()) = (ofConfig config).upLinks fun _ => ()) :
    ∀ link ∈ inst.links, link.adjacency.isUp = false := by
  intro link hlink
  cases hup : link.adjacency.isUp with
  | false => rfl
  | true =>
    have hmem : (link.name, some ()) ∈ (ofConfig config).upLinks fun _ => () := by
      rw [← h]
      exact List.mem_map.2 ⟨link, hlink, by rw [hup]; rfl⟩
    obtain ⟨fresh, hfresh, hentry⟩ := List.mem_map.1 hmem
    obtain ⟨config, -, rfl⟩ := List.mem_map.1 hfresh
    cases congrArg Prod.snd hentry

/-- As long as no frame arrives under the router's own ID, its own LSP is stored if any link is up.
It advertises the neighbors and metrics of the time when it was originated. The links that are up
are still the same, and the neighbors and metrics are so too, if no operation since has given
another neighbor or metric to an adjacency that stayed up. -/
theorem advertises_adjacencies (config : InstanceConfig) (operations : List Operation)
    (hspared : ∀ lsp, Arrived operations lsp → lsp.id ≠ .ofSystem config.systemId) :
    ((∃ link ∈ ((ofConfig config).run operations).value.links, link.adjacency.isUp) →
        ∃ lsp, ((ofConfig config).run operations).value.database.router? config.systemId =
          some lsp) ∧
      ∀ lsp, ((ofConfig config).run operations).value.database.router? config.systemId = some lsp →
        ∃ earlier operation later, operations = earlier ++ operation :: later ∧
          Renewal config earlier operation later lsp ∧
          (((ofConfig config).run operations).value.upLinks fun _ => ()) =
            (((ofConfig config).run (earlier ++ [operation])).value.upLinks fun _ => ()) ∧
          (Along (fun inst => Steady inst Adjacency.advertised?)
              ((ofConfig config).run (earlier ++ [operation])).value later →
            lsp.neighbors = ((ofConfig config).run operations).value.neighbors) := by
  have hup {inst : Instance} {operations : List Operation}
      (hnone : originations (inst.run operations).records = []) :
      ((inst.run operations).value.upLinks fun _ => ()) = inst.upLinks fun _ => () :=
    upLinks_run (fun _ _ => rfl) hnone (along_of_forall steady_const operations)
  rcases none_or_renewal hspared with ⟨habsent, hnone⟩ |
    ⟨earlier, operation, later, own, rfl, hrenewal, hstored⟩
  · -- Nothing has been originated, so no link has come up.
    refine ⟨fun ⟨link, hlink, hislinkUp⟩ => ?_, fun lsp hlsp => ?_⟩
    · rw [not_isUp_of_upLinks_eq (hup hnone) link hlink] at hislinkUp
      cases hislinkUp
    · rw [habsent] at hlsp
      cases hlsp
  · refine ⟨fun _ => ⟨own, hstored⟩, fun lsp hlsp => ?_⟩
    obtain rfl : own = lsp := Option.some.inj (hstored.symm.trans hlsp)
    refine ⟨earlier, operation, later, rfl, hrenewal, ?_, fun hsteady => ?_⟩
    · rw [value_run_split]
      exact hup hrenewal.last
    · have hlook := upLinks_run (fun _ _ => rfl) hrenewal.last hsteady
      rw [← value_run_split] at hlook
      rw [hrenewal.neighbors_eq, neighbors_eq, neighbors_eq, hlook]

/-! ### An adjacency whose metric is raised -/

/-- The handshake is completed, the neighbor's LSP arrives, and the link is scanned. -/
def meeting : List Operation := [completed 10, .receive "e" introduction.encode, .scan 0]

/-- After the meeting the router's own LSP is the one that the handshake has led to. -/
theorem advertises_adjacencies_meeting :
    (∀ lsp, Arrived meeting lsp → lsp.id ≠ .ofSystem single.systemId) ∧
      ∃ lsp,
        ((ofConfig single).run meeting).value.database.router? single.systemId = some lsp ∧
          ∃ earlier operation later, meeting = earlier ++ operation :: later ∧
            Renewal single earlier operation later lsp ∧
            (((ofConfig single).run meeting).value.upLinks fun _ => ()) =
              (((ofConfig single).run (earlier ++ [operation])).value.upLinks fun _ => ()) ∧
            (Along (fun inst => Steady inst Adjacency.advertised?)
                ((ofConfig single).run (earlier ++ [operation])).value later →
              lsp.neighbors = ((ofConfig single).run meeting).value.neighbors) := by
  have hspared (lsp : Lsp) (h : Arrived meeting lsp) : lsp.id ≠ .ofSystem single.systemId := by
    obtain ⟨name, frame, hmem, hdecode⟩ := h
    -- There is but one frame.
    simp only [meeting, completed, List.mem_cons, reduceCtorEq, Operation.receive.injEq, or_false,
      false_or, List.not_mem_nil] at hmem
    have hintroduction : Lsp.decode introduction.encode 0 = .ok introduction := by decide +kernel
    rw [hmem.2, hintroduction] at hdecode
    cases hdecode
    decide
  have hup : ∃ link ∈ ((ofConfig single).run meeting).value.links, link.adjacency.isUp := by
    decide +kernel
  have hboth := advertises_adjacencies single meeting hspared
  obtain ⟨lsp, hlsp⟩ := hboth.1 hup
  exact ⟨hspared, lsp, hlsp, hboth.2 lsp hlsp⟩

/-- A raised metric of an adjacency that is up is not advertised. -/
theorem neighbors_outdated_completed :
    (((ofConfig single).run [completed 10, completed 20]).value.database.router?
        single.systemId).map Lsp.neighbors = some [⟨10, ⟨0, 0, 0, 0, 0, 2⟩, 0⟩] ∧
      ((ofConfig single).run [completed 10, completed 20]).value.neighbors =
        [⟨20, ⟨0, 0, 0, 0, 0, 2⟩, 0⟩] := by
  decide +kernel

end LinkState.Instance
