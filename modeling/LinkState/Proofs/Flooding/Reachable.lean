import LinkState.Proofs.Filing
import LinkState.Proofs.Flooding.Overtaking
import LinkState.Proofs.Instance.Effects

/-!
# What is flagged is stored

`Reachable` describes the states in which an instance can be found, whatever calls are in progress
on it. A section of a call may run next, or something happens apart from the links and the database:
the shortest-path worker puts its results in place, or the other end of a channel takes messages or
is gone. Operations that no call comes between stay among these states (`Reachable.exists_run`).

A flag is set for an LSP only after the LSP was stored, and stored LSPs stay. So every LSP that is
flagged on a link, or that a call in progress is about, is in the database (`Backed`). Storing an
LSP and leaving it to a call to flag it keeps that (`Backed.accept`), and so do the sections that
take the flagged LSPs of a link (`Backed.take`) and those of a call in progress (`Backed.advance`).
-/

namespace LinkState.Interleaving

variable {config : InstanceConfig} {state : State} {inst after : Instance} {rest : List Step}
  {step : Step} {position : Nat} {link : Link} {lsp : Lsp} {id : LspId} {key : UInt64}

/-! ### Reachable states -/

/-- The states that an instance can be in, with calls in progress on it. -/
inductive Reachable (config : InstanceConfig) : State → Prop where
  /-- The instance is fresh. -/
  | initial (room : Option Nat) : Reachable config (initial config room)
  /-- A section of a call has run. -/
  | perform {state : State} (h : Reachable config state) (action : Action) :
    Reachable config (perform state action)
  /-- Something has happened apart from the links, the database and the sequence number. -/
  | elsewhere {state : State} (h : Reachable config state) {after : Instance}
    (hconfig : after.config = state.inst.config) (hlinks : after.links = state.inst.links)
    (hdatabase : after.database = state.inst.database) (hseqno : after.seqno = state.inst.seqno) :
    Reachable config { state with inst := after }

/-- Sections may run one after the other. -/
theorem Reachable.foldl (h : Reachable config state) (schedule : List Action) :
    Reachable config (schedule.foldl Interleaving.perform state) := by
  induction schedule generalizing state with
  | nil => exact h
  | cons action schedule ih => exact ih (h.perform action)

/-- A call may run without interference. -/
theorem Reachable.alone (h : Reachable config state) {first : Action}
    (halone : Alone state.inst first after) :
    ∃ reached, Reachable config reached ∧ reached.inst = after := by
  obtain ⟨count, hcount⟩ := halone state.calls state.accepted
  exact ⟨_, h.foldl (first :: List.replicate count (.resume state.calls.length)), hcount⟩

/-- The shortest-path worker touches neither the links nor the database. -/
theorem Reachable.runSpf (h : Reachable config state) (now : Timestamp) :
    ∃ reached, Reachable config reached ∧ reached.inst = (state.inst.runSpf now).value.2 := by
  rw [Instance.runSpf_value]
  cases shortestPaths state.inst.systemId state.inst.links state.inst.database with
  | error => exact ⟨state, h, rfl⟩
  | ok entries =>
    have hreached : Reachable config { state with inst := state.inst.withTree entries now } :=
      h.elsewhere rfl rfl rfl rfl
    exact ⟨_, hreached, rfl⟩

/-- A link may take over an adjacency. -/
theorem Reachable.updateAdjacency (h : Reachable config state) (now : Timestamp)
    (adjacency : Adjacency) (hlink : state.inst.links[position]? = some link) :
    ∃ reached, Reachable config reached ∧ reached.inst = { state.inst with
      links := state.inst.links.set position (link.updateAdjacency now adjacency).value.2 } := by
  refine ⟨_, h.perform (.updateAdjacency now position adjacency), ?_⟩
  have : Inhabited Link := ⟨link⟩
  unfold Interleaving.perform
  dsimp only
  rw [List.modify_eq_set, hlink, Option.getD_some]

/-- An operation that no call comes between is made of sections and of what happens elsewhere. -/
theorem Reachable.exists_perform (h : Reachable config state) (operation : Instance.Operation) :
    ∃ reached, Reachable config reached ∧ reached.inst = (state.inst.perform operation).value := by
  cases operation with
  | receive name frame => exact h.alone (receive_alone state.inst name frame)
  | originate => exact h.alone (originate_alone state.inst)
  | scan position => exact h.alone (scan_alone state.inst position)
  | runSpf now => exact h.runSpf now
  | changeAdjacency now name adjacency =>
    rw [Instance.perform, Traced.value_map]
    rcases state.inst.changeAdjacency_value now name adjacency with ⟨hvalue, -⟩ |
      ⟨position, link, taken, -, hlink, rfl, hcases⟩
    · exact ⟨state, h, hvalue.symm⟩
    · obtain ⟨reached, hreached, hinst⟩ := h.updateAdjacency now adjacency hlink
      rcases hcases with ⟨-, hvalue, -⟩ | ⟨hvalue, -⟩
      · exact ⟨reached, hreached, hinst.trans hvalue.symm⟩
      · rw [hvalue, ← hinst]
        exact hreached.alone (originate_alone reached.inst)
  | serve clock =>
    obtain ⟨-, ⟨-, hvalue⟩ | ⟨-, hvalue⟩⟩ := state.inst.serve_value clock
    · exact ⟨state, h, hvalue.symm⟩
    · -- The requests are gone before the run begins.
      have hdrained : Reachable config { state with
          inst := { state.inst with triggers := state.inst.triggers.drained } } :=
        h.elsewhere rfl rfl rfl rfl
      rw [hvalue]
      exact hdrained.runSpf _

/-- What a row of operations leads to is reachable. -/
theorem Reachable.exists_run (h : Reachable config state)
    (operations : List Instance.Operation) :
    ∃ reached, Reachable config reached ∧ reached.inst = (state.inst.run operations).value := by
  induction operations generalizing state with
  | nil => exact ⟨state, h, rfl⟩
  | cons operation operations ih =>
    obtain ⟨next, hnext, hinst⟩ := h.exists_perform operation
    obtain ⟨reached, hreached, hrun⟩ := ih hnext
    rw [hinst] at hrun
    exact ⟨reached, hreached, hrun⟩

/-! ### LSPs that are flagged or to be flagged -/

/-- The LSP that a section of a call is about. -/
def Step.id? : Step → Option LspId
  | .flag _ id _ => some id
  | .send _ _ id => some id
  | .trigger => none

/-- Every LSP that is flagged on a link, or that a call in progress is about, is stored. -/
structure Backed (state : State) : Prop where
  valid : state.inst.database.Valid
  filed : state.inst.FlagsFiled
  flagged : ∀ link ∈ state.inst.links, ∀ key, link.isFlagged key → key ∈ state.inst.database.keys
  pending : ∀ step ∈ state.pending, ∀ id ∈ step.id?, id.key ∈ state.inst.database.keys

/-- Nothing is flagged in a fresh instance. -/
theorem backed_initial (config : InstanceConfig) (room : Option Nat) :
    Backed (initial config room) where
  valid := Avl.Map.valid_empty
  filed link hlink := by
    obtain ⟨config, -, rfl⟩ := List.mem_map.1 hlink
    exact Link.filed_ofConfig config
  flagged link hlink key hflagged := by
    obtain ⟨config, -, rfl⟩ := List.mem_map.1 hlink
    cases hflagged
  pending _ hstep := absurd hstep List.not_mem_nil

/-- An LSP is there after it was stored. -/
theorem mem_keys_store {database : Database} (hvalid : database.Valid) (lsp : Lsp) :
    lsp.id.key ∈ (database.store lsp).keys := by
  have hstored : (database.store lsp).Valid := Avl.Map.valid_put hvalid lsp.key lsp
  rw [Database.mem_keys_iff hstored, Database.store, Avl.Map.find?_put hvalid]
  exact ⟨lsp, if_pos rfl⟩

/-- What is left to do after an LSP was stored is about this LSP. -/
theorem eq_of_mem_flagging {source : Option String} {other : LspId}
    (hstep : step ∈ flagging inst id source) (hother : other ∈ step.id?) : other = id := by
  rcases List.mem_append.1 hstep with hflag | htrigger
  · obtain ⟨_, -, rfl⟩ := List.mem_map.1 hflag
    exact (Option.some.inj hother).symm
  · rw [List.mem_singleton.1 htrigger] at hother
    cases hother

/-- Storing an LSP and leaving it to a call to flag it keeps the flagged LSPs stored. -/
theorem Backed.accept (h : Backed state) {source : Option String}
    (hdatabase : inst.database = Database.store state.inst.database lsp)
    (hlinks : inst.links = state.inst.links) : Backed (state.accept inst lsp source) where
  valid := by
    change inst.database.Valid
    rw [hdatabase]
    exact Avl.Map.valid_put h.valid lsp.key lsp
  filed link hlink := by
    change link ∈ inst.links at hlink
    rw [hlinks] at hlink
    exact h.filed link hlink
  flagged link hlink key hflagged := by
    change link ∈ inst.links at hlink
    change key ∈ inst.database.keys
    rw [hlinks] at hlink
    rw [hdatabase]
    exact Database.keys_subset_store h.valid lsp (h.flagged link hlink key hflagged)
  pending step hstep id hid := by
    change id.key ∈ inst.database.keys
    rw [hdatabase]
    rcases mem_pending_accept.1 hstep with hbefore | hthis
    · exact Database.keys_subset_store h.valid lsp (h.pending step hbefore id hid)
    · rw [eq_of_mem_flagging hthis hid]
      exact mem_keys_store h.valid lsp

/-- Taking the flagged LSPs of a link, all of which are stored, leaves a call that is about them. -/
theorem Backed.take (h : Backed state) (hlink : state.inst.links[position]? = some link) :
    Backed (state.take position link) := by
  have hmem : link ∈ state.inst.links := List.mem_of_getElem? hlink
  have hfiled : link.Filed := h.filed link hmem
  refine ⟨h.valid, fun other hother => ?_, fun other hother key hflagged => ?_,
    fun step hstep id hid => ?_⟩
  · rcases List.mem_or_eq_of_mem_set hother with hother | rfl
    · exact h.filed other hother
    · exact hfiled.takeFlagged
  · rcases List.mem_or_eq_of_mem_set hother with hother | rfl
    · exact h.flagged other hother key hflagged
    · rw [Link.isFlagged_takeFlagged, Bool.and_eq_true] at hflagged
      exact h.flagged link hmem key hflagged.2
  · rcases mem_pending_take.1 hstep with hbefore | ⟨other, hother, rfl⟩
    · exact h.pending step hbefore id hid
    · cases hid
      rw [Link.takeFlagged_fst] at hother
      split at hother
      · exact h.flagged link hmem _ ((Link.mem_flagged_iff hfiled).1 hother)
      · cases hother

/-- Taking over an adjacency changes no flag. -/
theorem Backed.updateAdjacency (h : Backed state) (now : Timestamp) (changed : Nat)
    (adjacency : Adjacency) : Backed (perform state (.updateAdjacency now changed adjacency)) := by
  refine ⟨h.valid, filed_modify h.filed fun _ hfiled => filed_updateAdjacency hfiled now adjacency,
    fun link hlink key hflagged => ?_, h.pending⟩
  obtain ⟨position, hposition⟩ := List.mem_iff_getElem?.1 hlink
  obtain ⟨old, hold, rfl⟩ := exists_of_getElem?_modify hposition
  have hbefore : old.isFlagged key := by
    unfold Link.isFlagged at hflagged ⊢
    split at hflagged
    · rw [(flags_updateAdjacency old now adjacency).2] at hflagged
      exact hflagged
    · exact hflagged
  exact h.flagged old (List.mem_of_getElem? hold) key hbefore

/-- What is left of a call is about LSPs that the call was about before. -/
theorem Step.id?_perform (inst : Instance) (rest : List Step) (step : Step) :
    ∀ left ∈ (step.perform inst rest).2, ∀ id ∈ left.id?, ∃ before ∈ step :: rest,
      id ∈ before.id? := by
  intro left hleft id hid
  have hrest (h : left ∈ rest) : ∃ before ∈ step :: rest, id ∈ before.id? :=
    ⟨left, List.mem_cons_of_mem step h, hid⟩
  cases step with
  | flag | trigger => exact hrest hleft
  | send position name sent =>
    simp only [Step.perform] at hleft
    split at hleft
    · exact hrest hleft
    · split at hleft
      · -- What is not sent is flagged again.
        rcases List.mem_cons.1 hleft with rfl | hleft
        · exact ⟨_, List.mem_cons_self, hid⟩
        · obtain ⟨before, hbefore, rfl⟩ := List.mem_map.1 hleft
          refine ⟨before, List.mem_cons_of_mem _ hbefore, ?_⟩
          cases before <;> exact hid
      · exact hrest hleft

/-- A flag that is set after a section was set before, or it is the one that the section sets. -/
theorem Step.isFlagged_links (hlink : link ∈ step.links inst) (hflagged : link.isFlagged key) :
    (∃ old ∈ inst.links, old.isFlagged key) ∨ ∃ id ∈ step.id?, id.key = key := by
  cases step with
  | flag position id srm =>
    obtain ⟨i, hi⟩ := List.mem_iff_getElem?.1 hlink
    obtain ⟨old, hold, rfl⟩ := exists_of_getElem?_modify hi
    by_cases hkey : key = id.key
    · exact Or.inr ⟨id, rfl, hkey.symm⟩
    · refine Or.inl ⟨old, List.mem_of_getElem? hold, ?_⟩
      split at hflagged
      · rw [Link.isFlagged_setFlag, if_neg hkey] at hflagged
        exact hflagged
      · exact hflagged
  | send | trigger => exact Or.inl ⟨link, hlink, hflagged⟩

/-- A section of a call in progress flags only what the call is about. -/
theorem Backed.advance {earlier later : List (List Step)} {accepted : List Acceptance}
    (h : Backed ⟨inst, earlier ++ (step :: rest) :: later, accepted⟩) :
    Backed ⟨(step.perform inst rest).1, earlier ++ (step.perform inst rest).2 :: later,
      accepted⟩ := by
  obtain ⟨hdatabase, hlinks, -⟩ := step.performs inst rest
  have hcall : ∀ before ∈ step :: rest, ∀ id ∈ before.id?, id.key ∈ inst.database.keys :=
    fun before hbefore => h.pending before (mem_pending_split.2 (Or.inl hbefore))
  refine ⟨?_, ?_, fun link hlink key hflagged => ?_, fun left hleft id hid => ?_⟩
  · exact hdatabase ▸ h.valid
  · unfold Instance.FlagsFiled
    rw [hlinks]
    exact Step.filed_links h.filed
  · dsimp only at hlink ⊢
    rw [hlinks] at hlink
    rw [hdatabase]
    rcases Step.isFlagged_links hlink hflagged with ⟨old, hold, hbefore⟩ | ⟨id, hid, rfl⟩
    · exact h.flagged old hold key hbefore
    · exact hcall step List.mem_cons_self id hid
  · dsimp only
    rw [hdatabase]
    rcases mem_pending_split.1 hleft with hmine | hothers
    · obtain ⟨before, hbefore, hid⟩ := Step.id?_perform inst rest step left hmine id hid
      exact hcall before hbefore id hid
    · exact h.pending left (mem_pending_split.2 (Or.inr hothers)) id hid

/-- Every section keeps the flagged LSPs stored. -/
theorem Backed.perform (h : Backed state) (action : Action) : Backed (perform state action) := by
  cases action with
  | updateAdjacency now position adjacency => exact h.updateAdjacency now position adjacency
  | receive name frame =>
    rcases perform_receive state name frame with hsame | ⟨lsp, haccept⟩
    · rw [hsame]
      exact h
    · rw [haccept]
      exact h.accept rfl rfl
  | originate => exact h.accept rfl rfl
  | scan position =>
    unfold Interleaving.perform
    dsimp only
    split
    · exact h
    · rename_i link hlink
      exact h.take hlink
  | resume call =>
    rcases perform_resume_cases state call with hsame | ⟨earlier, step, rest, later, hcalls, hafter⟩
    · rw [hsame]
      exact h
    · obtain ⟨inst, calls, accepted⟩ := state
      cases hcalls
      rw [hafter]
      exact h.advance

/-- In every reachable state, what is flagged is stored. -/
theorem Reachable.backed (h : Reachable config state) : Backed state := by
  induction h with
  | initial room => exact backed_initial config room
  | perform h action ih => exact ih.perform action
  | elsewhere h hconfig hlinks hdatabase hseqno ih =>
    refine ⟨?_, ?_, ?_, ?_⟩
    · exact hdatabase ▸ ih.valid
    · unfold Instance.FlagsFiled
      exact hlinks ▸ ih.filed
    · dsimp only
      rw [hlinks, hdatabase]
      exact ih.flagged
    · dsimp only
      rw [hdatabase]
      exact ih.pending

end LinkState.Interleaving
