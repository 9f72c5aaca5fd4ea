import LinkState.Proofs.Flooding.Operations

/-!
# Calls that interleave

The database has a lock, and so has the table of flags of every link. A call of an operation takes
them one at a time, and thus it is a row of critical sections. The first one stores an LSP or takes
the flagged LSPs of a link; it says what the others are (`flagging`, `State.take`), and each of
these sets or clears one flag or sends one LSP. Between two sections of a call those of other calls
may run, of any number of calls and in any order. `perform` runs one section, and `run` those of a
schedule. The stored LSPs are kept alongside, and nothing that a call does depends on them. A frame
that begins a call has its LSP stored or is passed over (`perform_receive`), and a call goes on by
one section at a time (`perform_resume_cases`).

A call whose sections no other one comes between is the operation of the same name: it takes the
instance to where the operation does (`receive_alone`, `originate_alone` and `scan_alone`).
-/

namespace LinkState.Interleaving

/-- A critical section that a call in progress is still to run. -/
inductive Step where
  /-- Sets or clears the flag of an LSP on the link at a position. -/
  | flag (position : Nat) (id : LspId) (srm : Bool)
  /-- Reads an LSP from the database and sends it on the link with this position and name. -/
  | send (position : Nat) (name : String) (id : LspId)
  /-- Asks for a shortest-path run. -/
  | trigger
deriving DecidableEq

/-- An LSP that was stored. -/
structure Acceptance where
  lsp : Lsp
  /-- The link it was received on, unless it is one of the router's own. -/
  source : Option String
  /-- The positions of the links on which its flag was still to be cleared for an earlier instance
  of the LSP when it was stored. -/
  overtaken : List Nat

/-- An instance with the calls in progress on it. -/
structure State where
  inst : Instance
  /-- What is left of each call, in the order in which they were begun. -/
  calls : List (List Step)
  /-- The stored LSPs, the latest first. -/
  accepted : List Acceptance

/-- Sets or clears the flag of an LSP on the link at a position. -/
def setFlagAt (inst : Instance) (position : Nat) (id : LspId) (srm : Bool) : Instance :=
  { inst with links := inst.links.modify position fun link => link.setFlag id srm }

/-- Instead of being sent, an LSP is flagged again. -/
def Step.withdrawn : Step → Step
  | .send position _ id => .flag position id true
  | step => step

/-- Runs a section of a call, and gives what is left of the call after it. -/
def Step.perform (inst : Instance) (rest : List Step) : Step → Instance × List Step
  | .flag position id srm => (setFlagAt inst position id srm, rest)
  | .send position name id =>
    match Database.encode? inst.database id with
    | none => (inst, rest)
    | some data =>
      match inst.transmissions.send? ⟨name, data⟩ with
      | none => (inst, .flag position id true :: rest.map .withdrawn)
      | some channel => ({ inst with transmissions := channel }, rest)
  | .trigger => (inst.trigger, rest)

/-- What is left of a call that has stored an LSP: the LSP is flagged on every link but the one it
came from, where its flag is cleared. -/
def flagging (inst : Instance) (id : LspId) (source : Option String) : List Step :=
  (inst.links.zipIdx.map fun (link, position) => .flag position id (source ≠ some link.name)) ++
    [.trigger]

namespace State

/-- What the calls in progress are still to run. -/
def pending (state : State) : List Step := state.calls.flatten

/-- No call is in progress. -/
def Idle (state : State) : Prop := state.pending = []

/-- The latest stored LSP with a given key. -/
def latest? (state : State) (key : UInt64) : Option Acceptance :=
  state.accepted.find? fun acceptance => acceptance.lsp.key = key

/-- The positions of the links on which the flag of an LSP is still to be cleared. -/
def clearing (state : State) (id : LspId) : List Nat :=
  (List.range state.inst.links.length).filter fun position =>
    .flag position id false ∈ state.pending

/-- The LSP has been stored, and a call is to flag it. -/
def accept (state : State) (inst : Instance) (lsp : Lsp) (source : Option String) : State where
  inst := inst
  calls := state.calls ++ [flagging inst lsp.id source]
  accepted := ⟨lsp, source, state.clearing lsp.id⟩ :: state.accepted

/-- The flagged LSPs of a link have been taken, and a call is to send them. -/
def take (state : State) (position : Nat) (link : Link) : State where
  inst := { state.inst with links := state.inst.links.set position link.takeFlagged.2 }
  calls := state.calls ++ [link.takeFlagged.1.map (.send position link.name)]
  accepted := state.accepted

end State

/-- The choice of the section that runs next. -/
inductive Action where
  /-- The link at a position takes over an adjacency. -/
  | updateAdjacency (now : Timestamp) (position : Nat) (adjacency : Adjacency)
  /-- A call begins with a frame received on a link. -/
  | receive (name : String) (frame : Octets)
  /-- A call begins that renews the router's own LSP. -/
  | originate
  /-- A call begins that scans the link at a position. -/
  | scan (position : Nat)
  /-- A call in progress goes on. -/
  | resume (call : Nat)

/-- Runs the chosen section. -/
def perform (state : State) : Action → State
  | .updateAdjacency now position adjacency =>
    { state with inst := { state.inst with links := state.inst.links.modify position fun link =>
        (link.updateAdjacency now adjacency).value.2 } }
  | .receive name frame =>
    match state.inst.linkIndex? name, Lsp.read frame 0 with
    | some _, .ok reading =>
      match state.inst.installLsp reading.lsp with
      | (_, .stale) => state
      | (inst, _) => state.accept inst reading.lsp (some name)
    | _, _ => state
  | .originate => state.accept state.inst.storeOwnLsp.2 state.inst.storeOwnLsp.1 none
  | .scan position =>
    match state.inst.links[position]? with
    | none => state
    | some link => state.take position link
  | .resume call =>
    match state.calls[call]? with
    | some (step :: rest) => { state with
        inst := (step.perform state.inst rest).1
        calls := state.calls.set call (step.perform state.inst rest).2 }
    | _ => state

/-- A fresh instance without calls, whose frames the network takes as long as there is room. -/
def initial (config : InstanceConfig) (room : Option Nat) : State where
  inst := { Instance.ofConfig config with transmissions := ⟨[], room⟩ }
  calls := []
  accepted := []

/-- A fresh instance after the sections of a schedule. -/
def run (config : InstanceConfig) (room : Option Nat) (schedule : List Action) : State :=
  schedule.foldl perform (initial config room)

/-! ### Single sections -/

/-- A received frame is passed over, or its LSP is stored and a call is to flag it. -/
theorem perform_receive (state : State) (name : String) (frame : Octets) :
    perform state (.receive name frame) = state ∨
      ∃ lsp, perform state (.receive name frame) = state.accept
        { state.inst with database := Database.store state.inst.database lsp } lsp (some name) := by
  unfold perform
  dsimp only
  split
  · rename_i reading _ _
    have hinstall := Instance.install_cases state.inst.database reading.lsp
    rcases hresult : Database.install state.inst.database reading.lsp with ⟨database, installation⟩
    have hsplit : state.inst.installLsp reading.lsp =
        ({ state.inst with database := database }, installation) := by
      unfold Instance.installLsp
      rw [hresult]
    rw [hresult] at hinstall
    rw [hsplit]
    rcases hinstall with ⟨hstale, -⟩ | ⟨hfresh, hstore, -⟩
    · cases hstale
      exact Or.inl rfl
    · cases hstore
      cases installation with
      | stale => exact absurd rfl hfresh
      | new | newer => exact Or.inr ⟨reading.lsp, rfl⟩
  · exact Or.inl rfl

/-- A call in progress goes on by one section, if there is such a call. -/
theorem perform_resume_cases (state : State) (call : Nat) :
    perform state (.resume call) = state ∨ ∃ earlier step rest later,
      state.calls = earlier ++ (step :: rest) :: later ∧
        perform state (.resume call) = ⟨(step.perform state.inst rest).1,
          earlier ++ (step.perform state.inst rest).2 :: later, state.accepted⟩ := by
  unfold perform
  dsimp only
  split
  · rename_i step rest hcall
    obtain ⟨hlt, hget⟩ := List.getElem?_eq_some_iff.1 hcall
    refine Or.inr ⟨state.calls.take call, step, rest, state.calls.drop (call + 1), ?_, ?_⟩
    · rw [← hget, List.getElem_cons_drop, List.take_append_drop]
    · rw [List.set_eq_take_append_cons_drop, if_pos hlt]
  · exact Or.inl rfl

/-! ### A call alone -/

variable {inst : Instance} {calls : List (List Step)} {accepted : List Acceptance}

/-- A call in progress goes on by one section. -/
theorem perform_resume (earlier later : List (List Step)) (step : Step) (rest : List Step) :
    perform ⟨inst, earlier ++ (step :: rest) :: later, accepted⟩ (.resume earlier.length) =
      ⟨(step.perform inst rest).1, earlier ++ (step.perform inst rest).2 :: later, accepted⟩ := by
  have hcall : (earlier ++ (step :: rest) :: later)[earlier.length]? = some (step :: rest) :=
    List.getElem?_append_right (Nat.le_refl _) |>.trans (by rw [Nat.sub_self]; rfl)
  unfold perform
  dsimp only
  rw [hcall]
  dsimp only
  rw [List.set_append_right _ _ (Nat.le_refl _), Nat.sub_self, List.set_cons_zero]

/-- The call that was begun last is taken to its end by its own sections. -/
def Finishes (inst : Instance) (call : List Step) (after : Instance) : Prop :=
  ∀ calls accepted, ∃ count, (List.replicate count (.resume calls.length)).foldl perform
    ⟨inst, calls ++ [call], accepted⟩ = ⟨after, calls ++ [[]], accepted⟩

/-- A call without sections has finished. -/
theorem Finishes.nil (inst : Instance) : Finishes inst [] inst := fun _ _ => ⟨0, rfl⟩

/-- A call finishes if it does after its next section. -/
theorem Finishes.cons {step : Step} {rest : List Step} {after : Instance}
    (h : Finishes (step.perform inst rest).1 (step.perform inst rest).2 after) :
    Finishes inst (step :: rest) after := by
  intro calls accepted
  obtain ⟨count, hcount⟩ := h calls accepted
  refine ⟨count + 1, ?_⟩
  rw [List.replicate_succ, List.foldl_cons, perform_resume]
  exact hcount

/-- The link behind the first ones is the one that changes. -/
theorem modify_append_cons (done : List Link) (link : Link) (todo : List Link)
    (change : Link → Link) :
    (done ++ link :: todo).modify done.length change = done ++ change link :: todo := by
  induction done with
  | nil => rfl
  | cons first done ih =>
    rw [List.cons_append, List.length_cons, List.modify_succ_cons, ih, List.cons_append]

/-- Flagging an LSP on one link after the other, when some of the links are done. -/
theorem Finishes.flagging_from (id : LspId) (srm : Link → Bool) (done todo : List Link)
    (hlinks : inst.links = done ++ todo) :
    Finishes inst (((todo.zipIdx done.length).map fun (link, position) =>
        .flag position id (srm link)) ++ [.trigger])
      { inst with
        links := done ++ todo.map fun link => Link.setFlag link id (srm link) }.trigger := by
  induction todo generalizing inst done with
  | nil =>
    rw [List.map_nil, ← hlinks]
    exact .cons (.nil _)
  | cons link todo ih =>
    have hset : (setFlagAt inst done.length id (srm link)).links =
        (done ++ [link.setFlag id (srm link)]) ++ todo := by
      unfold setFlagAt
      rw [hlinks, modify_append_cons, List.append_assoc, List.singleton_append]
    have hnext := ih _ hset
    rw [List.length_append, List.length_singleton, List.append_assoc, List.singleton_append]
      at hnext
    exact .cons hnext

/-- An instance with an LSP flagged on every link but the one it came from, where its flag is
cleared. -/
def flagged (inst : Instance) (id : LspId) (source : Option String) : Instance :=
  { inst with links := inst.links.map fun link => link.setFlag id (source ≠ some link.name) }

/-- Flagging an LSP on one link after the other flags it on all of them. -/
theorem Finishes.flagging (inst : Instance) (id : LspId) (source : Option String) :
    Finishes inst (flagging inst id source) (flagged inst id source).trigger :=
  .flagging_from id (fun link => source ≠ some link.name) [] inst.links rfl

/-- Setting the flag of an LSP on a link replaces the link. -/
theorem links_setFlagAt {position : Nat} {link : Link} (hlink : inst.links[position]? = some link)
    (id : LspId) (srm : Bool) :
    (setFlagAt inst position id srm).links = inst.links.set position (link.setFlag id srm) := by
  have : Inhabited Link := ⟨link⟩
  unfold setFlagAt
  rw [List.modify_eq_set, hlink, Option.getD_some]

/-- Flagging LSPs one after the other on a link flags them all. -/
theorem Finishes.restoring {position : Nat} {link : Link} (ids : List LspId)
    (hlink : inst.links[position]? = some link) :
    Finishes inst (ids.map fun id => .flag position id true) { inst with
      links := inst.links.set position
        (ids.foldl (fun link id => link.setFlag id true) link) } := by
  obtain ⟨hlt, hget⟩ := List.getElem?_eq_some_iff.1 hlink
  induction ids generalizing inst link with
  | nil =>
    rw [List.foldl_nil, ← hget, List.set_getElem_self]
    exact .nil _
  | cons id ids ih =>
    have hset := links_setFlagAt hlink id true
    have hnext : (setFlagAt inst position id true).links[position]? =
        some (link.setFlag id true) := by
      rw [hset, List.getElem?_set_self hlt]
    obtain ⟨hlt', hget'⟩ := List.getElem?_eq_some_iff.1 hnext
    have hrest := ih hnext hlt' hget'
    rw [hset, List.set_set] at hrest
    exact .cons hrest

/-- Sending LSPs one after the other on a link sends them all, up to the first refused one, and
flags the others again. -/
theorem Finishes.sending {position : Nat} {link : Link} (ids : List LspId)
    (hlink : inst.links[position]? = some link) :
    Finishes inst (ids.map fun id => .send position link.name id) { inst with
      links := inst.links.set position
        ((Instance.sendAll inst.database link.name ids
          inst.transmissions).value.unsent.foldl (fun link id => link.setFlag id true) link)
      transmissions := (Instance.sendAll inst.database link.name ids
        inst.transmissions).value.channel } := by
  induction ids generalizing inst with
  | nil => exact .restoring [] hlink
  | cons id ids ih =>
    rw [List.map_cons]
    refine .cons ?_
    simp only [Step.perform, Instance.sendAll]
    cases Database.encode? inst.database id with
    | none => exact ih hlink
    | some data =>
      dsimp only
      cases inst.transmissions.send? ⟨link.name, data⟩ with
      | none =>
        -- The refused LSP and all that were to be sent after it are flagged again.
        have hwithdrawn : .flag position id true ::
            (ids.map fun id => .send position link.name id).map Step.withdrawn =
            (id :: ids).map fun id => .flag position id true := by
          rw [List.map_map]
          rfl
        dsimp only
        rw [hwithdrawn]
        exact .restoring (id :: ids) hlink
      | some channel =>
        have hnext : ({ inst with transmissions := channel } : Instance).links[position]? =
            some link := hlink
        exact ih hnext

/-- A call without interference: its first section is followed by all its others and no more. -/
def Alone (inst : Instance) (first : Action) (after : Instance) : Prop :=
  ∀ calls accepted, ∃ count, ((first :: List.replicate count (.resume calls.length)).foldl perform
    ⟨inst, calls, accepted⟩).inst = after

/-- A call may be over with its first section. -/
theorem alone_of_perform {first : Action}
    (h : ∀ calls accepted, perform ⟨inst, calls, accepted⟩ first = ⟨inst, calls, accepted⟩) :
    Alone inst first inst := by
  refine fun calls accepted => ⟨0, ?_⟩
  rw [List.replicate_zero, List.foldl_cons, h]
  rfl

/-- A call takes its first section and what that one has left to do. -/
theorem Finishes.alone {first : Action} {next after : Instance} {call : List Step}
    (hcall : Finishes next call after)
    (hfirst : ∀ calls accepted, ∃ accepted',
      perform ⟨inst, calls, accepted⟩ first = ⟨next, calls ++ [call], accepted'⟩) :
    Alone inst first after := by
  intro calls accepted
  obtain ⟨accepted', hstate⟩ := hfirst calls accepted
  obtain ⟨count, hcount⟩ := hcall calls accepted'
  refine ⟨count, ?_⟩
  rw [List.foldl_cons, hstate, hcount]

/-- Receiving a frame without interference. -/
theorem receive_alone (inst : Instance) (name : String) (frame : Octets) :
    Alone inst (.receive name frame) (inst.receive name frame).value.2 := by
  unfold Instance.receive
  cases hindex : inst.linkIndex? name with
  | none => exact alone_of_perform fun calls accepted => by simp only [perform, hindex]
  | some position =>
    cases hread : Lsp.read frame 0 with
    | error reason =>
      exact alone_of_perform fun calls accepted => by simp only [perform, hindex, hread]
    | ok reading =>
      simp only [Traced.value_bind]
      cases hinstall : inst.installLsp reading.lsp with
      | mk stored installation =>
        have hflags := Finishes.flagging stored reading.lsp.id (some name)
        have helsewhere : flagged stored reading.lsp.id (some name) =
            stored.flagElsewhere reading.lsp.id name := by
          simp only [flagged, Instance.flagElsewhere, ne_eq, Option.some.injEq, eq_comm]
        rw [helsewhere] at hflags
        -- A new LSP and a newer one are treated alike.
        cases installation with
        | stale =>
          exact alone_of_perform fun calls accepted => by
            simp only [perform, hindex, hread, hinstall]
        | new | newer =>
          exact hflags.alone fun calls accepted => by
            simp only [perform, hindex, hread, hinstall]
            exact ⟨_, rfl⟩

/-- Renewing the router's own LSP without interference. -/
theorem originate_alone (inst : Instance) : Alone inst .originate inst.originate.value.2 :=
  (Finishes.flagging inst.storeOwnLsp.2 inst.storeOwnLsp.1.id none).alone fun _ _ => ⟨_, rfl⟩

/-- Scanning a link without interference. -/
theorem scan_alone (inst : Instance) (position : Nat) :
    Alone inst (.scan position) (inst.scan position).value.2 := by
  cases hlink : inst.links[position]? with
  | none =>
    unfold Instance.scan
    rw [hlink]
    exact alone_of_perform fun calls accepted => by simp only [perform, hlink]
  | some link =>
    obtain ⟨hlt, -⟩ := List.getElem?_eq_some_iff.1 hlink
    have hcleared : ({ inst with
        links := inst.links.set position link.takeFlagged.2 } : Instance).links[position]? =
        some link.takeFlagged.2 := List.getElem?_set_self hlt
    have hsends := Finishes.sending link.takeFlagged.1 hcleared
    rw [Link.name_takeFlagged, List.set_set] at hsends
    rw [Instance.scan_value hlink]
    exact hsends.alone fun calls accepted => ⟨accepted, by simp only [perform, hlink, State.take]⟩

end LinkState.Interleaving
