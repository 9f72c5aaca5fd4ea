import LinkState.Proofs.Instance.Runs
import LinkState.Proofs.Wire.Splitting

/-!
# What the operations do beside flooding

Without its flooding flags and what it has sent, an instance is bare. A scan leaves the bare
instance as it is (`bare_scan`). A received frame leaves it as it is too, or stores its LSP and asks
for a shortest-path run (`bare_receive`), and a renewal stores the router's own LSP and asks for a
run (`bare_originate`). A run replaces the topology and the routes and nothing else (`bare_runSpf`),
and the worker forgets the waiting requests before it makes one (`serve_value`).

Of every operation `perform_cases` says what it does to the database: nothing, or it stores the LSP
of a frame that is more recent than the present one, or the router's own LSP with the next sequence
number. An operation that does not renew the router's own LSP leaves the adjacencies that are up as
they look (`upLinks_perform`), unless it replaces one of them by another look (`Steady`).
-/

namespace LinkState

namespace Link

variable (link : Link)

/-- A link without its flooding flags. -/
def bare : Link := { link with flags := .empty }

/-- Taking the flagged LSPs changes nothing but the flags. -/
theorem bare_takeFlagged : link.takeFlagged.2.bare = link.bare := by
  unfold takeFlagged
  split <;> rfl

/-- Flagging LSPs one after the other changes nothing but the flags. -/
theorem bare_foldl_setFlag (ids : List LspId) :
    (ids.foldl (fun link id => link.setFlag id true) link).bare = link.bare := by
  induction ids generalizing link with
  | nil => rfl
  | cons id ids ih => exact ih (link.setFlag id true)

end Link

/-- The neighbor that an LSP advertises for an adjacency that is up, if it is known. -/
def Adjacency.advertised? (adjacency : Adjacency) : Option Neighbor :=
  adjacency.neighborSystemId.map fun neighbor => ⟨adjacency.metric, neighbor, 0⟩

namespace Instance

section Views

variable {α : Type u} (inst : Instance)

/-- An instance without its flooding flags and what it has sent. -/
def bare : Instance :=
  { inst with links := inst.links.map Link.bare, transmissions := .empty, installs := .empty }

/-- The router's own LSP for the present state of its links, under the next sequence number. -/
def nextLsp : Lsp :=
  Lsp.ofLinks inst.systemId inst.links (inst.seqno + 1) inst.config.lspLifetime

/-- An instance with an LSP stored and a shortest-path run asked for. -/
def withLsp (lsp : Lsp) : Instance :=
  { inst with database := Database.store inst.database lsp }.trigger

/-- An instance with a shortest-path tree that was computed at a time and the routes of that tree,
which are handed to the installer if they have changed. -/
def withTree (entries : Avl.Map Vertex) (now : Timestamp) : Instance :=
  let routes := Routes.compute inst.systemId entries inst.database
  { inst with
    topology := ⟨entries, inst.topology.runs + 1, some now⟩
    routes := routes
    installs := if inst.routes = routes then inst.installs else inst.installs.offer routes.values }

/-- The neighbors of the links that are up, in the order of the links, each with the metric of its
adjacency. -/
def neighbors : List Neighbor :=
  inst.links.filterMap fun link =>
    link.adjacency.upNeighbor?.map fun neighbor => ⟨link.adjacency.metric, neighbor, 0⟩

/-- The names of the links, and how the adjacencies look that are up. -/
def upLinks (look : Adjacency → α) : List (String × Option α) :=
  inst.links.map fun link =>
    (link.name, if link.adjacency.isUp then some (look link.adjacency) else none)

/-- The first link with a given name. -/
def link? (name : String) : Option Link :=
  inst.linkIndex? name >>= fun position => inst.links[position]?

/-- An operation that does not change how an adjacency looks that is up before and after it. -/
def Steady (look : Adjacency → α) : Operation → Prop
  | .changeAdjacency _ name adjacency => ∀ link ∈ inst.link? name,
    link.adjacency.isUp → adjacency.isUp → look adjacency = look link.adjacency
  | _ => True

instance [DecidableEq α] (look : Adjacency → α) : DecidablePred (Steady inst look)
  | .changeAdjacency _ name adjacency => inferInstanceAs (Decidable (∀ link ∈ inst.link? name,
      link.adjacency.isUp → adjacency.isUp → look adjacency = look link.adjacency))
  | .receive .. | .originate | .scan _ | .runSpf _ | .serve _ => .isTrue trivial

end Views

variable {α : Type u} {inst : Instance}

/-! ### Flags and what has been sent -/

/-- Setting or clearing the flag of an LSP on every link changes nothing but the flags. -/
theorem map_bare_setFlag (links : List Link) (id : LspId) (chosen : Link → Bool) :
    (links.map fun link => link.setFlag id (chosen link)).map Link.bare = links.map Link.bare := by
  rw [List.map_map]
  rfl

/-- How the links look that are up has nothing to do with their flags. -/
theorem upLinks_bare (inst : Instance) (look : Adjacency → α) :
    inst.bare.upLinks look = inst.upLinks look := by
  unfold upLinks bare
  rw [List.map_map]
  rfl

/-- The neighbors have nothing to do with the flags. -/
theorem neighbors_bare (inst : Instance) : inst.bare.neighbors = inst.neighbors := by
  unfold neighbors bare
  rw [List.filterMap_map]
  rfl

/-- The names of the links have nothing to do with their flags. -/
theorem names_bare (inst : Instance) : inst.bare.names = inst.names := by
  unfold names bare
  rw [List.map_map]
  rfl

/-- The neighbors are those that are advertised for the adjacencies that are up. -/
theorem neighbors_eq :
    inst.neighbors = (inst.upLinks Adjacency.advertised?).filterMap fun link => link.2.join := by
  unfold neighbors upLinks
  rw [List.filterMap_map]
  refine congrArg (List.filterMap · inst.links) (funext fun link => ?_)
  unfold Adjacency.upNeighbor? Function.comp
  dsimp only
  split <;> rfl

/-! ### What the operations do -/

/-- A scan sends frames and changes flags. -/
theorem bare_scan (position : Nat) : (inst.scan position).value.2.bare = inst.bare := by
  cases hlink : inst.links[position]? with
  | none =>
    unfold scan
    rw [hlink]
    rfl
  | some link =>
    rw [scan_value hlink]
    unfold bare
    dsimp only
    rw [map_set_of_eq Link.bare hlink]
    exact (Link.bare_foldl_setFlag _ _).trans (Link.bare_takeFlagged link)

/-- A received frame is passed over, or its LSP is more recent than the present one and is stored.
-/
theorem bare_receive (name : String) (frame : Octets) :
    (inst.receive name frame).value.2.bare = inst.bare ∨
      ∃ lsp, Lsp.decode frame 0 = .ok lsp ∧
        (∀ present, inst.database.find? lsp.key = some present → present.seqno < lsp.seqno) ∧
        (inst.receive name frame).value.2.bare = inst.bare.withLsp lsp := by
  obtain ⟨-, ⟨-, hpassed, -⟩ | ⟨reading, -, hread, hnewer, -, hvalue⟩⟩ :=
    inst.receive_value name frame
  · exact Or.inl (by rw [hpassed])
  · refine Or.inr ⟨reading.lsp, Lsp.decode_eq_ok_iff.2 ⟨reading, hread, rfl⟩, hnewer, ?_⟩
    rw [hvalue]
    unfold bare flagElsewhere trigger withLsp
    dsimp only
    rw [map_bare_setFlag]
    rfl

/-- A renewal stores the router's own LSP under the next sequence number. -/
theorem bare_originate (inst : Instance) :
    inst.originate.value.2.bare =
      ({ inst.bare with seqno := inst.seqno + 1 } : Instance).withLsp inst.nextLsp := by
  change ((inst.storeOwnLsp.2.flagEverywhere _).trigger).bare = _
  unfold bare flagEverywhere trigger withLsp
  dsimp only
  rw [map_bare_setFlag]
  rfl

/-- A renewal is recorded with the router's own LSP. -/
theorem originations_originate : originations inst.originate.records = [inst.nextLsp] := rfl

/-- The router's own LSP advertises its neighbors. -/
theorem neighbors_nextLsp : inst.nextLsp.neighbors = inst.neighbors :=
  Lsp.neighbors_ofLinks ..

/-- A shortest-path run fails and changes nothing, or it takes over the tree and its routes. -/
theorem runSpf_value (now : Timestamp) :
    (inst.runSpf now).value = match shortestPaths inst.systemId inst.links inst.database with
      | .error fault => (.error fault, inst)
      | .ok entries => (.ok (), inst.withTree entries now) := by
  unfold runSpf
  rw [Traced.value_bind]
  cases shortestPaths inst.systemId inst.links inst.database with
  | error fault => rfl
  | ok entries =>
    dsimp only
    rw [Traced.value_bind, Traced.value_bind]
    unfold updateRoutes withTree
    dsimp only
    split
    · rename_i hsame
      rw [← hsame]
      rfl
    · rfl

/-- A shortest-path run replaces the topology and the routes, if there is a tree. -/
theorem bare_runSpf (now : Timestamp) :
    (inst.runSpf now).value.2.bare = match shortestPaths inst.systemId inst.links inst.database with
      | .error _ => inst.bare
      | .ok entries => { inst.bare with
          topology := ⟨entries, inst.topology.runs + 1, some now⟩
          routes := Routes.compute inst.systemId entries inst.database } := by
  rw [runSpf_value]
  split <;> rfl

/-- A shortest-path run originates nothing. -/
theorem originations_runSpf (now : Timestamp) : originations (inst.runSpf now).records = [] := by
  unfold runSpf
  cases shortestPaths inst.systemId inst.links inst.database with
  | error fault => rfl
  | ok entries =>
    simp only [Traced.records_bind, originations_append]
    unfold updateRoutes
    split <;> rfl

/-- The shortest-path worker waits for a request, and makes one run for all that are waiting. -/
theorem serve_value (clock : Nat) :
    originations (inst.perform (.serve clock)).records = [] ∧
      (inst.triggers.queue = [] ∧ (inst.perform (.serve clock)).value = inst ∨
        inst.triggers.queue ≠ [] ∧ (inst.perform (.serve clock)).value =
          (({ inst with triggers := inst.triggers.drained } : Instance).runSpf
            (Router.now ⟨inst, clock, true⟩)).value.2) := by
  unfold perform Router.settle
  rw [Traced.value_map, Traced.records_map]
  split
  · rename_i hwaiting
    -- Whether the run succeeds makes a difference to what is recorded only.
    rw [originations_within, Traced.records_bind, originations_append, originations_runSpf]
    refine ⟨?_, Or.inr ⟨by simpa using hwaiting, ?_⟩⟩
    · split <;> rfl
    · rw [Traced.value_within, Traced.value_bind]
      split
      · rename_i hvalue
        rw [hvalue]
        rfl
      · rename_i hvalue
        rw [hvalue]
        rfl
  · rename_i hwaiting
    refine ⟨rfl, Or.inl ⟨?_, rfl⟩⟩
    simpa using hwaiting

/-! ### What every operation does -/

/-- An LSP has arrived in a frame. -/
def Arrived (operations : List Operation) (lsp : Lsp) : Prop :=
  ∃ name frame, .receive name frame ∈ operations ∧ Lsp.decode frame 0 = .ok lsp

/-- An instance has stored the LSP of a frame, which is more recent than the present one. -/
structure Accepts (before after : Instance) (operation : Operation) (lsp : Lsp) : Prop where
  received : ∃ name frame, operation = .receive name frame ∧ Lsp.decode frame 0 = .ok lsp
  newer : ∀ present, before.database.find? lsp.key = some present → present.seqno < lsp.seqno
  database_eq : after.database = Database.store before.database lsp

/-- An instance has stored its own LSP with the next sequence number. -/
structure Renews (before after : Instance) (lsp : Lsp) : Prop where
  id_eq : lsp.id = .ofSystem before.systemId
  seqno_eq : lsp.seqno = before.seqno + 1
  neighbors_eq : lsp.neighbors = after.neighbors
  counter_eq : after.seqno = before.seqno + 1
  database_eq : after.database = Database.store before.database lsp

/-- What has arrived stays so. -/
theorem Arrived.concat {operations : List Operation} {lsp : Lsp} (h : Arrived operations lsp)
    (operation : Operation) : Arrived (operations ++ [operation]) lsp := by
  obtain ⟨name, frame, hmem, hdecode⟩ := h
  exact ⟨name, frame, List.mem_append_left _ hmem, hdecode⟩

/-- An accepted LSP has arrived. -/
theorem Accepts.arrived {after : Instance} {operation : Operation} {lsp : Lsp}
    (h : Accepts inst after operation lsp) (operations : List Operation) :
    Arrived (operations ++ [operation]) lsp := by
  obtain ⟨name, frame, rfl, hdecode⟩ := h.received
  exact ⟨name, frame, List.mem_append_right _ (List.mem_singleton_self _), hdecode⟩

/-- A renewal stores the router's own LSP. -/
theorem renews_originate (inst : Instance) :
    Renews inst inst.originate.value.2 inst.nextLsp := by
  have hbare := inst.bare_originate
  refine ⟨rfl, rfl, ?_, rfl, rfl⟩
  rw [neighbors_nextLsp, ← inst.neighbors_bare, ← inst.originate.value.2.neighbors_bare, hbare]
  rfl

/-- A shortest-path run and its worker change what they compute and the waiting requests only. -/
theorem bare_perform_of_spf {operation : Operation}
    (h : (∃ now, operation = .runSpf now) ∨ ∃ clock, operation = .serve clock) :
    originations (inst.perform operation).records = [] ∧
      ∃ triggers topology routes, (inst.perform operation).value.bare =
        { inst.bare with triggers := triggers, topology := topology, routes := routes } := by
  have hrun (triggers : Channel SpfTrigger) (now : Timestamp) : ∃ topology routes,
      (({ inst with triggers := triggers } : Instance).runSpf now).value.2.bare =
        { inst.bare with triggers := triggers, topology := topology, routes := routes } := by
    rw [bare_runSpf]
    split <;> exact ⟨_, _, rfl⟩
  rcases h with ⟨now, rfl⟩ | ⟨clock, rfl⟩
  · refine ⟨?_, inst.triggers, hrun inst.triggers now⟩
    rw [perform, Traced.records_map]
    exact originations_runSpf now
  · obtain ⟨hnone, ⟨-, hvalue⟩ | ⟨-, hvalue⟩⟩ := inst.serve_value clock
    · exact ⟨hnone, inst.triggers, inst.topology, inst.routes, by rw [hvalue]; rfl⟩
    · exact ⟨hnone, inst.triggers.drained, hvalue ▸ hrun inst.triggers.drained _⟩

/-- An operation keeps the configuration, and the database as well, or it stores an LSP there: that
of a frame, or the router's own one. -/
theorem perform_cases (inst : Instance) (operation : Operation) :
    (inst.perform operation).value.config = inst.config ∧
      (originations (inst.perform operation).records = [] ∧
          (inst.perform operation).value.seqno = inst.seqno ∧
          ((inst.perform operation).value.database = inst.database ∨
            ∃ lsp, Accepts inst (inst.perform operation).value operation lsp) ∨
        ∃ lsp, originations (inst.perform operation).records = [lsp] ∧
          Renews inst (inst.perform operation).value lsp) := by
  have hspf (hop : (∃ now, operation = .runSpf now) ∨ ∃ clock, operation = .serve clock) :
      (inst.perform operation).value.config = inst.config ∧
        originations (inst.perform operation).records = [] ∧
        (inst.perform operation).value.seqno = inst.seqno ∧
        (inst.perform operation).value.database = inst.database := by
    obtain ⟨hnone, _, _, _, hbare⟩ := bare_perform_of_spf hop
    exact ⟨(congrArg config hbare :), hnone, (congrArg seqno hbare :),
      (congrArg database hbare :)⟩
  cases operation with
  | receive name frame =>
    have hnone : originations (inst.perform (.receive name frame)).records = [] := by
      rw [perform, Traced.records_map]
      exact (inst.receive_value name frame).1
    rcases inst.bare_receive name frame with hbare | ⟨lsp, hdecode, hnewer, hbare⟩
    · exact ⟨(congrArg config hbare :), Or.inl ⟨hnone, (congrArg seqno hbare :),
        Or.inl (congrArg database hbare :)⟩⟩
    · exact ⟨(congrArg config hbare :), Or.inl ⟨hnone, (congrArg seqno hbare :),
        Or.inr ⟨lsp, ⟨name, frame, rfl, hdecode⟩, hnewer, (congrArg database hbare :)⟩⟩⟩
  | originate => exact ⟨rfl, Or.inr ⟨_, rfl, renews_originate inst⟩⟩
  | changeAdjacency now name adjacency =>
    rw [perform, Traced.records_map]
    obtain ⟨taken, links, rfl, -, ⟨hvalue, hnone⟩ | ⟨hvalue, hown⟩⟩ :=
      inst.changeAdjacency_cases now name adjacency
    · rw [Traced.value_map, hvalue]
      exact ⟨rfl, Or.inl ⟨hnone, rfl, Or.inl rfl⟩⟩
    · -- The links have been replaced before, which is nothing that a renewal speaks of.
      obtain ⟨hid, hseqno, hneighbors, hcounter, hdatabase⟩ :=
        renews_originate { inst with links := links }
      rw [Traced.value_map, hvalue, hown]
      exact ⟨rfl, Or.inr ⟨_, rfl, hid, hseqno, hneighbors, hcounter, hdatabase⟩⟩
  | scan position =>
    have hbare := inst.bare_scan position
    have hnone : originations (inst.perform (.scan position)).records = [] := by
      rw [perform, Traced.records_map]
      exact originations_scan position
    exact ⟨(congrArg config hbare :), Or.inl ⟨hnone,
      (congrArg seqno hbare :), Or.inl (congrArg database hbare :)⟩⟩
  | runSpf now =>
    obtain ⟨hconfig, hnone, hseqno, hdatabase⟩ := hspf (Or.inl ⟨now, rfl⟩)
    exact ⟨hconfig, Or.inl ⟨hnone, hseqno, Or.inl hdatabase⟩⟩
  | serve clock =>
    obtain ⟨hconfig, hnone, hseqno, hdatabase⟩ := hspf (Or.inr ⟨clock, rfl⟩)
    exact ⟨hconfig, Or.inl ⟨hnone, hseqno, Or.inl hdatabase⟩⟩

/-- No operation renames a link. -/
theorem names_perform (inst : Instance) (operation : Operation) :
    (inst.perform operation).value.names = inst.names := by
  have hbare {after : Instance} (h : after.bare.links = inst.bare.links) :
      after.names = inst.names := by
    rw [← after.names_bare, ← inst.names_bare]
    exact congrArg (List.map Link.name) h
  have horiginate (other : Instance) : other.originate.value.2.names = other.names :=
    other.originate_stores.2.1.names_eq
  have hspf (hop : (∃ now, operation = .runSpf now) ∨ ∃ clock, operation = .serve clock) :
      (inst.perform operation).value.names = inst.names := by
    obtain ⟨-, _, _, _, h⟩ := bare_perform_of_spf hop
    exact hbare (congrArg links h :)
  cases operation with
  | receive name frame =>
    rcases inst.bare_receive name frame with h | ⟨lsp, -, -, h⟩
    · exact hbare (congrArg links h :)
    · exact hbare (congrArg links h :)
  | originate => exact horiginate inst
  | changeAdjacency now name adjacency =>
    obtain ⟨taken, links, -, hidle, ⟨hvalue, -⟩ | ⟨hvalue, -⟩⟩ :=
      inst.changeAdjacency_cases now name adjacency
    · rw [perform, Traced.value_map, hvalue]
      exact hidle.names_eq
    · rw [perform, Traced.value_map, hvalue]
      exact (horiginate taken).trans hidle.names_eq
  | scan position => exact hbare (congrArg links (inst.bare_scan position) :)
  | runSpf now => exact hspf (Or.inl ⟨now, rfl⟩)
  | serve clock => exact hspf (Or.inr ⟨clock, rfl⟩)

/-- No run renames a link. -/
theorem names_run (inst : Instance) (operations : List Operation) :
    (inst.run operations).value.names = inst.names := by
  induction operations generalizing inst with
  | nil => rfl
  | cons operation operations ih =>
    calc (inst.run (operation :: operations)).value.names
        = (inst.perform operation).value.names := ih _
      _ = inst.names := names_perform inst operation

/-- The links have the names of their configurations. -/
theorem names_ofConfig (config : InstanceConfig) :
    (ofConfig config).names = config.links.map (·.name) := by
  unfold names ofConfig
  rw [List.map_map]
  rfl

/-- Which links are up is not changed by how their adjacencies look. -/
theorem steady_const (inst : Instance) (operation : Operation) :
    Steady inst (fun _ => ()) operation := by
  cases operation with
  | changeAdjacency => exact fun _ _ _ _ => rfl
  | _ => trivial

/-- An operation that does not renew the router's own LSP, nor changes how an adjacency looks that
stays up, leaves the links that are up as they look. -/
theorem upLinks_perform {look : Adjacency → α}
    (hlook : ∀ adjacency time, look { adjacency with lastChange := time } = look adjacency)
    {operation : Operation} (hnone : originations (inst.perform operation).records = [])
    (hsteady : Steady inst look operation) :
    (inst.perform operation).value.upLinks look = inst.upLinks look := by
  have hbare {after : Instance} (h : after.bare = inst.bare) :
      after.upLinks look = inst.upLinks look := by
    rw [← upLinks_bare, h, upLinks_bare]
  have hspf (hop : (∃ now, operation = .runSpf now) ∨ ∃ clock, operation = .serve clock) :
      (inst.perform operation).value.upLinks look = inst.upLinks look := by
    obtain ⟨-, _, _, _, h⟩ := bare_perform_of_spf hop
    rw [← upLinks_bare, h, ← inst.upLinks_bare]
    rfl
  cases operation with
  | receive name frame =>
    rcases inst.bare_receive name frame with h | ⟨lsp, -, -, h⟩
    · exact hbare h
    · have h : (inst.perform (.receive name frame)).value.bare = inst.bare.withLsp lsp := h
      rw [← upLinks_bare, h, ← inst.upLinks_bare]
      rfl
  | originate => cases hnone
  | changeAdjacency now name adjacency =>
    rw [perform, Traced.records_map] at hnone
    rcases inst.changeAdjacency_value now name adjacency with ⟨hvalue, -⟩ |
      ⟨position, link, taken, hindex, hlink, rfl, ⟨hup, hvalue, -⟩ | ⟨-, hown⟩⟩
    · exact congrArg (upLinks · look) hvalue
    · -- The link that is replaced is the one that the operation speaks of.
      have hnamed : inst.link? name = some link := by
        rw [link?, hindex]
        exact hlink
      obtain ⟨-, time, hlater⟩ := updateAdjacency_value link now adjacency
      refine (congrArg (upLinks · look) hvalue).trans (map_set_of_eq _ hlink ?_)
      rw [hlater]
      have hup' : ({ adjacency with lastChange := time } : Adjacency).isUp =
          link.adjacency.isUp := hup.symm
      refine Prod.ext rfl ?_
      dsimp only
      rw [hup', hlook]
      split
      · rename_i h
        rw [hsteady link hnamed h (hup ▸ h)]
      · rfl
    · -- An adjacency that comes up or goes down is advertised at once.
      rw [hown, originations_originate] at hnone
      cases hnone
  | scan position => exact hbare (inst.bare_scan position)
  | runSpf now => exact hspf (Or.inl ⟨now, rfl⟩)
  | serve clock => exact hspf (Or.inr ⟨clock, rfl⟩)

/-- So does a run of such operations. -/
theorem upLinks_run {look : Adjacency → α}
    (hlook : ∀ adjacency time, look { adjacency with lastChange := time } = look adjacency)
    {operations : List Operation} (hnone : originations (inst.run operations).records = [])
    (hsteady : Along (fun inst => Steady inst look) inst operations) :
    (inst.run operations).value.upLinks look = inst.upLinks look := by
  induction operations generalizing inst with
  | nil => rfl
  | cons operation operations ih =>
    rw [run_cons, Traced.records_bind, originations_append, List.append_eq_nil_iff] at hnone
    obtain ⟨hfirst, hrest⟩ := hnone
    calc (inst.run (operation :: operations)).value.upLinks look
        = (inst.perform operation).value.upLinks look := ih hrest hsteady.2
      _ = inst.upLinks look := upLinks_perform hlook hfirst hsteady.1

end Instance

end LinkState
