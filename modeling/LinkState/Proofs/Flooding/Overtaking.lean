import LinkState.Proofs.Avl.Validity
import LinkState.Proofs.Flooding.Interleaving

/-!
# Which LSPs reach a link when calls interleave

A stored LSP is to be sent on every link but the one it came from. The call that has stored it sets
its flag on each of these, and a call that finds the flag set sends what is stored by then. Nothing
comes between, with one exception: if an earlier instance of the LSP was received on such a link,
and the call that received it has yet to clear the flag there when the later one is stored, then it
may clear the flag that was set for the later one. The later one has overtaken it.

`Attended` is what holds where there is no such call: no call in progress is to clear the flag, and
the flag is set, or a call is to set it or to send the LSP, or the LSP has been sent. A section that
stores an LSP makes it so (`Sound.accept`), and all others keep it so: those that take the flagged
LSPs of a link, because they are going to be sent (`Sound.take`), and those of a call in progress,
because of what they leave to do (`Step.Performs`, `Sound.advance`). When no call is in progress,
the flag is set or the LSP has been sent (`flagged_or_sent`). The exception does occur
(`neither_flagged_nor_sent`).
-/

namespace LinkState.Interleaving

variable {state : State} {inst : Instance} {rest : List Step} {step : Step} {position : Nat}
  {link : Link} {lsp : Lsp} {id : LspId} {key : UInt64}

/-! ### What a section does -/

/-- The links after a section. Only a section that sets or clears a flag changes one. -/
def Step.links (inst : Instance) : Step → List Link
  | .flag position id srm => (setFlagAt inst position id srm).links
  | _ => inst.links

/-- What a section of a call does, and what it leaves to do. -/
structure Step.Performs (inst : Instance) (rest : List Step) (step : Step) (after : Instance)
    (left : List Step) : Prop where
  database_eq : after.database = inst.database
  links_eq : after.links = step.links inst
  /-- What was sent is not taken back. -/
  queue : inst.transmissions.queue ⊆ after.transmissions.queue
  /-- A flag that is to be cleared was to be cleared before. -/
  clears : ∀ position id, .flag position id false ∈ left → .flag position id false ∈ rest
  /-- A flag that was to be set is still to be set. -/
  sets : ∀ position id, .flag position id true ∈ rest → .flag position id true ∈ left
  /-- A stored LSP that was to be sent is still to be sent, is to be flagged again, or has been
  sent. -/
  sends : ∀ position name id lsp, .send position name id ∈ step :: rest →
    inst.database.find? id.key = some lsp → .send position name id ∈ left ∨
      .flag position id true ∈ left ∨ ⟨name, lsp.encode⟩ ∈ after.transmissions.queue

/-- A message that a channel takes is put behind the others. -/
theorem queue_of_send? {α : Type} {channel after : Channel α} {message : α}
    (h : channel.send? message = some after) : after.queue = channel.queue ++ [message] := by
  unfold Channel.send? at h
  split at h
  · cases h
    rfl
  · cases h
  · cases h
    rfl

/-- A stored LSP can be read. -/
theorem encode?_of_find? {database : Database} (h : database.find? id.key = some lsp) :
    Database.encode? database id = some lsp.encode := by
  rw [Database.encode?, Database.lsp?, h]
  rfl

/-- What is flagged again instead of being sent is not cleared. -/
theorem mem_of_withdrawn (h : .flag position id false ∈ rest.map Step.withdrawn) :
    .flag position id false ∈ rest := by
  obtain ⟨step, hstep, hwithdrawn⟩ := List.mem_map.1 h
  cases step with
  | flag => exact hwithdrawn ▸ hstep
  | send | trigger => cases hwithdrawn

/-- Every section does what it may do. -/
theorem Step.performs (inst : Instance) (rest : List Step) (step : Step) :
    step.Performs inst rest (step.perform inst rest).1 (step.perform inst rest).2 := by
  cases step with
  | flag | trigger =>
    exact ⟨rfl, rfl, List.Subset.refl _, fun _ _ h => h, fun _ _ h => h,
      fun _ _ _ _ hsend _ => Or.inl ((List.mem_cons.1 hsend).resolve_left Step.noConfusion)⟩
  | send position name id =>
    simp only [Step.perform]
    cases hencode : Database.encode? inst.database id with
    | none =>
      refine ⟨rfl, rfl, List.Subset.refl _, fun _ _ h => h, fun _ _ h => h,
        fun _ _ _ lsp hmem hstored => ?_⟩
      rcases List.mem_cons.1 hmem with hthis | hrest
      · cases hthis
        rw [encode?_of_find? hstored] at hencode
        cases hencode
      · exact Or.inl hrest
    | some data =>
      dsimp only
      cases hsend : inst.transmissions.send? ⟨name, data⟩ with
      | none =>
        refine ⟨rfl, rfl, List.Subset.refl _, fun _ _ hflag => ?_, fun _ _ hflag => ?_,
          fun _ _ _ _ hmem _ => Or.inr (Or.inl ?_)⟩
        · exact mem_of_withdrawn ((List.mem_cons.1 hflag).resolve_left fun h => by cases h)
        · exact List.mem_cons_of_mem _ (List.mem_map.2 ⟨_, hflag, rfl⟩)
        · exact List.mem_map_of_mem (f := withdrawn) hmem
      | some channel =>
        have hqueue := queue_of_send? hsend
        refine ⟨rfl, rfl, ?_, fun _ _ h => h, fun _ _ h => h, fun _ _ _ lsp hmem hstored => ?_⟩
        · exact hqueue ▸ List.subset_append_left _ _
        · rcases List.mem_cons.1 hmem with hthis | hrest
          · cases hthis
            rw [encode?_of_find? hstored] at hencode
            cases hencode
            exact Or.inr (Or.inr (hqueue ▸ List.mem_append_right _ (List.mem_singleton_self _)))
          · exact Or.inl hrest

/-! ### Links that are to be sent an LSP -/

/-- An LSP is flagged on a link, or a call is to flag it or to send it there, or it was sent. -/
def State.Underway (state : State) (lsp : Lsp) (position : Nat) (link : Link) : Prop :=
  link.isFlagged lsp.key ∨ .flag position lsp.id true ∈ state.pending ∨
    .send position link.name lsp.id ∈ state.pending ∨
      ⟨link.name, lsp.encode⟩ ∈ state.inst.transmissions.queue

/-- An LSP is underway on a link, and no call is to clear its flag there. -/
def State.Attended (state : State) (lsp : Lsp) (position : Nat) (link : Link) : Prop :=
  state.Underway lsp position link ∧ .flag position lsp.id false ∉ state.pending

/-- The database holds the latest stored LSPs, and each of these is attended to on all links but the
one it came from and those where it has overtaken an earlier instance. -/
structure Sound (state : State) : Prop where
  valid : state.inst.database.Valid
  filed : state.inst.FlagsFiled
  latest : ∀ key, state.inst.database.find? key = (state.latest? key).map (·.lsp)
  attended : ∀ key acceptance position link, state.latest? key = some acceptance →
    state.inst.links[position]? = some link → acceptance.source ≠ some link.name →
      position ∉ acceptance.overtaken → state.Attended acceptance.lsp position link

/-- A fresh instance is sound. -/
theorem sound_initial (config : InstanceConfig) (room : Option Nat) :
    Sound (initial config room) where
  valid := Avl.Map.valid_empty
  filed link hlink := by
    obtain ⟨config, -, rfl⟩ := List.mem_map.1 hlink
    exact Link.filed_ofConfig config
  latest _ := rfl
  attended _ _ _ _ h := by cases h

/-- The latest stored LSP with a key has the key. -/
theorem State.key_of_latest? {acceptance : Acceptance} (h : state.latest? key = some acceptance) :
    acceptance.lsp.key = key := by
  have hkey := List.find?_some h
  exact of_decide_eq_true hkey

/-- A section that stores nothing keeps the state sound if every LSP that is attended to on a link
remains so. -/
theorem Sound.of_attended (h : Sound state) {after : State}
    (hdatabase : after.inst.database = state.inst.database)
    (haccepted : after.accepted = state.accepted) (hfiled : after.inst.FlagsFiled)
    (hattended : ∀ lsp position link, state.inst.database.find? lsp.key = some lsp →
      after.inst.links[position]? = some link → ∃ old, state.inst.links[position]? = some old ∧
        old.name = link.name ∧
        (state.Attended lsp position old → after.Attended lsp position link)) : Sound after := by
  have hlatest (key : UInt64) : after.latest? key = state.latest? key := by
    unfold State.latest?
    rw [haccepted]
  refine ⟨hdatabase ▸ h.valid, hfiled, fun key => ?_,
    fun key acceptance position link hacceptance hlink hsource hovertaken => ?_⟩
  · rw [hdatabase, hlatest]
    exact h.latest key
  · rw [hlatest] at hacceptance
    have hstored : state.inst.database.find? acceptance.lsp.key = some acceptance.lsp := by
      rw [State.key_of_latest? hacceptance, h.latest key, hacceptance]
      rfl
    obtain ⟨old, hold, hname, hkeeps⟩ := hattended acceptance.lsp position link hstored hlink
    rw [← hname] at hsource
    exact hkeeps (h.attended key acceptance position old hacceptance hold hsource hovertaken)

/-- What is underway stays so, if no flag is cleared and every call has all to do that it had. -/
theorem State.Underway.mono (h : state.Underway lsp position link) {after : State} {replaced : Link}
    (hname : replaced.name = link.name)
    (hflagged : link.isFlagged lsp.key → replaced.isFlagged lsp.key)
    (hpending : state.pending ⊆ after.pending)
    (hqueue : state.inst.transmissions.queue ⊆ after.inst.transmissions.queue) :
    after.Underway lsp position replaced := by
  unfold State.Underway
  rw [hname]
  rcases h with h | hset | hsend | hsent
  · exact Or.inl (hflagged h)
  · exact Or.inr (Or.inl (hpending hset))
  · exact Or.inr (Or.inr (Or.inl (hpending hsend)))
  · exact Or.inr (Or.inr (Or.inr (hqueue hsent)))

/-! ### Sections that begin a call -/

/-- What is left to do after an LSP was stored is to set or clear its flag on each link. -/
theorem mem_flagging {source : Option String} {srm : Bool} {other : LspId} :
    .flag position other srm ∈ flagging inst id source ↔
      other = id ∧ ∃ link, inst.links[position]? = some link ∧
        srm = decide (source ≠ some link.name) := by
  unfold flagging
  rw [List.mem_append, List.mem_singleton, List.mem_map]
  constructor
  · rintro (⟨⟨link, i⟩, hmem, heq⟩ | h)
    · cases heq
      exact ⟨rfl, link, List.mk_mem_zipIdx_iff_getElem?.1 hmem, rfl⟩
    · cases h
  · rintro ⟨rfl, link, hlink, rfl⟩
    exact Or.inl ⟨(link, position), List.mk_mem_zipIdx_iff_getElem?.2 hlink, rfl⟩

/-- The stored LSP is the latest one with its key, and the others are as before. -/
theorem latest?_accept {source : Option String} :
    (state.accept inst lsp source).latest? key =
      if key = lsp.key then some ⟨lsp, source, state.clearing lsp.id⟩ else state.latest? key := by
  unfold State.latest? State.accept
  rw [List.find?_cons]
  by_cases hkey : key = lsp.key
  · rw [if_pos hkey, decide_eq_true hkey.symm]
  · rw [if_neg hkey, decide_eq_false fun h => hkey h.symm]

/-- The call that has stored an LSP is in progress, and so are the others. -/
theorem mem_pending_accept {source : Option String} :
    step ∈ (state.accept inst lsp source).pending ↔
      step ∈ state.pending ∨ step ∈ flagging inst lsp.id source := by
  unfold State.pending State.accept
  rw [List.flatten_append, List.mem_append, List.flatten_singleton]

/-- The flag of an LSP is to be cleared on a link if and only if the position of the link is
recorded as such. -/
theorem mem_clearing (hlink : state.inst.links[position]? = some link) :
    position ∈ state.clearing id ↔ .flag position id false ∈ state.pending := by
  obtain ⟨hlt, -⟩ := List.getElem?_eq_some_iff.1 hlink
  unfold State.clearing
  rw [List.mem_filter, List.mem_range, decide_eq_true_iff]
  exact ⟨And.right, fun h => ⟨hlt, h⟩⟩

/-- Storing an LSP keeps the state sound. -/
theorem Sound.accept (h : Sound state) {source : Option String}
    (hdatabase : inst.database = Database.store state.inst.database lsp)
    (hlinks : inst.links = state.inst.links)
    (hqueue : inst.transmissions = state.inst.transmissions) :
    Sound (state.accept inst lsp source) where
  valid := by
    change inst.database.Valid
    rw [hdatabase]
    exact Avl.Map.valid_put h.valid lsp.key lsp
  filed link hlink := by
    change link ∈ inst.links at hlink
    rw [hlinks] at hlink
    exact h.filed link hlink
  latest key := by
    change inst.database.find? key = _
    rw [hdatabase, latest?_accept, Database.store, Avl.Map.find?_put h.valid, h.latest key]
    split <;> rfl
  attended key acceptance position link hacceptance hlink hsource hovertaken := by
    change inst.links[position]? = some link at hlink
    have hold : state.inst.links[position]? = some link := hlinks ▸ hlink
    rw [latest?_accept] at hacceptance
    have hclear : .flag position acceptance.lsp.id false ∈ (state.accept inst lsp source).pending ↔
        .flag position acceptance.lsp.id false ∈ state.pending ∨ acceptance.lsp.id = lsp.id ∧
          source = some link.name := by
      rw [mem_pending_accept, mem_flagging, hlink]
      simp only [Option.some.injEq, exists_eq_left', false_eq_decide_iff, ne_eq, Decidable.not_not]
    unfold State.Attended
    rw [hclear]
    by_cases hkey : key = lsp.key
    · -- The call is going to flag the LSP, and no other one is to clear the flag.
      rw [if_pos hkey] at hacceptance
      cases hacceptance
      have hflag : .flag position lsp.id true ∈ flagging inst lsp.id source :=
        mem_flagging.2 ⟨rfl, link, hlink, (decide_eq_true hsource).symm⟩
      refine ⟨Or.inr (Or.inl (mem_pending_accept.2 (Or.inr hflag))), ?_⟩
      rintro (hbefore | ⟨-, hthis⟩)
      · exact hovertaken ((mem_clearing hold).2 hbefore)
      · exact hsource hthis
    · -- The call is about another LSP.
      rw [if_neg hkey] at hacceptance
      obtain ⟨hunderway, hkept⟩ :=
        h.attended key acceptance position link hacceptance hold hsource hovertaken
      have hother : acceptance.lsp.id ≠ lsp.id := fun hid => by
        have hsame : acceptance.lsp.key = lsp.key := congrArg LspId.key hid
        exact hkey ((State.key_of_latest? hacceptance).symm.trans hsame)
      refine ⟨hunderway.mono rfl id (fun _ h => mem_pending_accept.2 (Or.inl h)) ?_, ?_⟩
      · change state.inst.transmissions.queue ⊆ inst.transmissions.queue
        rw [hqueue]
        exact List.Subset.refl _
      · rintro (hbefore | ⟨hid, -⟩)
        · exact hkept hbefore
        · exact hother hid

/-- A received frame keeps the state sound. -/
theorem Sound.receive (h : Sound state) (name : String) (frame : Octets) :
    Sound (perform state (.receive name frame)) := by
  rcases perform_receive state name frame with hsame | ⟨lsp, haccept⟩
  · rw [hsame]
    exact h
  · rw [haccept]
    exact h.accept rfl rfl rfl

/-- Where one of the links has changed, each link is the changed one or what it was. -/
theorem exists_of_getElem?_modify {links : List Link} {changed : Nat} {change : Link → Link}
    (hlink : (links.modify changed change)[position]? = some link) :
    ∃ old, links[position]? = some old ∧ link = if changed = position then change old else old := by
  rw [List.getElem?_modify] at hlink
  obtain ⟨old, hold, hlink⟩ := Option.map_eq_some_iff.1 hlink
  refine ⟨old, hold, hlink.symm.trans ?_⟩
  split <;> rfl

/-- A change to one of the links keeps the flags filed if it does so for that link. -/
theorem filed_modify (h : inst.FlagsFiled) {changed : Nat} {change : Link → Link}
    (hchange : ∀ link, link.Filed → (change link).Filed) :
    ∀ link ∈ inst.links.modify changed change, link.Filed := by
  intro link hlink
  obtain ⟨position, hposition⟩ := List.mem_iff_getElem?.1 hlink
  obtain ⟨old, hold, rfl⟩ := exists_of_getElem?_modify hposition
  have hfiled := h old (List.mem_of_getElem? hold)
  split
  · exact hchange old hfiled
  · exact hfiled

/-- Taking over an adjacency keeps the name and the flags of a link. -/
theorem flags_updateAdjacency (link : Link) (now : Timestamp) (adjacency : Adjacency) :
    (link.updateAdjacency now adjacency).value.2.name = link.name ∧
      (link.updateAdjacency now adjacency).value.2.flags = link.flags := by
  unfold Link.updateAdjacency
  dsimp only
  split <;> exact ⟨rfl, rfl⟩

/-- Taking over an adjacency keeps the flags filed. -/
theorem filed_updateAdjacency (h : link.Filed) (now : Timestamp) (adjacency : Adjacency) :
    (link.updateAdjacency now adjacency).value.2.Filed := by
  unfold Link.Filed
  rw [(flags_updateAdjacency link now adjacency).2]
  exact h

/-- Taking over an adjacency keeps the state sound. -/
theorem Sound.updateAdjacency (h : Sound state) (now : Timestamp) (changed : Nat)
    (adjacency : Adjacency) : Sound (perform state (.updateAdjacency now changed adjacency)) := by
  refine h.of_attended rfl rfl ?_ fun lsp position link _ hlink => ?_
  · exact filed_modify h.filed fun link hfiled => filed_updateAdjacency hfiled now adjacency
  · obtain ⟨old, hold, hchange⟩ := exists_of_getElem?_modify hlink
    have hsame : link.name = old.name ∧ link.flags = old.flags := by
      rw [hchange]
      split
      · exact flags_updateAdjacency old now adjacency
      · exact ⟨rfl, rfl⟩
    refine ⟨old, hold, hsame.1.symm, fun ⟨hunderway, hkept⟩ => ⟨hunderway.mono hsame.1 ?_
      (List.Subset.refl _) (List.Subset.refl _), hkept⟩⟩
    unfold Link.isFlagged
    rw [hsame.2]
    exact id

/-- The LSPs that were taken are to be sent, and the other calls have all to do that they had. -/
theorem mem_pending_take : step ∈ (state.take position link).pending ↔
    step ∈ state.pending ∨ ∃ id ∈ link.takeFlagged.1, .send position link.name id = step := by
  unfold State.pending State.take
  rw [List.flatten_append, List.mem_append, List.flatten_singleton, List.mem_map]

/-- An LSP is still attended to on a link of which the flagged LSPs were taken. -/
theorem State.Attended.take_self (h : state.Attended lsp position link) (hfiled : link.Filed) :
    (state.take position link).Attended lsp position link.takeFlagged.2 := by
  obtain ⟨hunderway, hkept⟩ := h
  constructor
  · by_cases htakes : link.adjacency.isUp ∧ link.isFlagged lsp.key
    · -- The LSP is among those that were taken.
      have hid : lsp.id ∈ link.takeFlagged.1 := by
        rw [Link.takeFlagged_fst, if_pos htakes.1, Link.mem_flagged_iff hfiled]
        exact htakes.2
      refine Or.inr (Or.inr (Or.inl (mem_pending_take.2 (Or.inr ⟨lsp.id, hid, ?_⟩))))
      rw [Link.name_takeFlagged]
    · refine hunderway.mono Link.name_takeFlagged (fun hflagged => ?_)
        (fun _ h => mem_pending_take.2 (Or.inl h)) (List.Subset.refl _)
      have hdown : link.adjacency.isUp = false :=
        Bool.eq_false_iff.2 fun hup => htakes ⟨hup, hflagged⟩
      rw [Link.isFlagged_takeFlagged, hdown, hflagged]
      rfl
  · rw [mem_pending_take]
    rintro (hbefore | ⟨_, -, hsend⟩)
    · exact hkept hbefore
    · cases hsend

/-- An LSP is still attended to on a link if the flagged LSPs of another one were taken. -/
theorem State.Attended.take (h : state.Attended lsp position link) (scanned : Nat) (taken : Link) :
    (state.take scanned taken).Attended lsp position link := by
  refine ⟨h.1.mono rfl id (fun _ h => mem_pending_take.2 (Or.inl h)) (List.Subset.refl _), ?_⟩
  rw [mem_pending_take]
  rintro (hbefore | ⟨_, -, hsend⟩)
  · exact h.2 hbefore
  · cases hsend

/-- Taking the flagged LSPs of a link keeps the state sound. -/
theorem Sound.take (h : Sound state) {scanned : Nat} {taken : Link}
    (htaken : state.inst.links[scanned]? = some taken) : Sound (state.take scanned taken) := by
  have hfiled : taken.Filed := h.filed taken (List.mem_of_getElem? htaken)
  refine h.of_attended rfl rfl ?_ fun lsp position link _ hlink => ?_
  · intro link hlink
    rcases List.mem_or_eq_of_mem_set hlink with hlink | rfl
    · exact h.filed link hlink
    · exact hfiled.takeFlagged
  · change (state.inst.links.set scanned taken.takeFlagged.2)[position]? = some link at hlink
    by_cases hposition : scanned = position
    · subst hposition
      rw [List.getElem?_set_self (List.getElem?_eq_some_iff.1 htaken).1] at hlink
      cases hlink
      exact ⟨taken, htaken, Link.name_takeFlagged.symm, fun h => h.take_self hfiled⟩
    · rw [List.getElem?_set_ne hposition] at hlink
      exact ⟨link, hlink, rfl, fun h => h.take scanned taken⟩

/-! ### Calls in progress -/

/-- What is to be done is what is left of one call and what is left of the others. -/
theorem mem_pending_split {earlier later : List (List Step)} {call : List Step}
    {accepted : List Acceptance} :
    step ∈ (⟨inst, earlier ++ call :: later, accepted⟩ : State).pending ↔
      step ∈ call ∨ step ∈ (earlier ++ later).flatten := by
  unfold State.pending
  simp only [List.flatten_append, List.flatten_cons, List.mem_append]
  exact or_left_comm

/-- A section keeps the flags filed. -/
theorem Step.filed_links (h : inst.FlagsFiled) : ∀ link ∈ step.links inst, link.Filed := by
  cases step with
  | flag position id srm => exact filed_modify h fun link hfiled => hfiled.setFlag id srm
  | send | trigger => exact h

/-- On a link where a section does not clear the flag of an LSP, the LSP is flagged if it was before
or if the section sets the flag. -/
theorem Step.exists_of_links (hlink : (step.links inst)[position]? = some link) :
    ∃ old, inst.links[position]? = some old ∧ old.name = link.name ∧
      ∀ lsp : Lsp, step ≠ .flag position lsp.id false →
        old.isFlagged lsp.key ∨ step = .flag position lsp.id true → link.isFlagged lsp.key := by
  cases step with
  | flag changed id srm =>
    obtain ⟨old, hold, rfl⟩ := exists_of_getElem?_modify hlink
    refine ⟨old, hold, ?_, fun lsp hclears hflagged => ?_⟩
    · split <;> rfl
    · by_cases hthis : changed = position ∧ lsp.id = id
      · -- The section is about this very flag, and it sets it.
        obtain ⟨rfl, rfl⟩ := hthis
        cases srm with
        | false => exact absurd rfl hclears
        | true =>
          rw [if_pos rfl, Link.isFlagged_setFlag]
          exact if_pos rfl
      · have hbefore : old.isFlagged lsp.key := hflagged.resolve_right fun h => by
          cases h
          exact hthis ⟨rfl, rfl⟩
        split
        · rename_i hposition
          have hkey : lsp.key ≠ id.key := fun hkey => hthis ⟨hposition, LspId.key_inj hkey⟩
          rw [Link.isFlagged_setFlag, if_neg hkey]
          exact hbefore
        · exact hbefore
  | send | trigger => exact ⟨link, hlink, rfl, fun _ _ h => h.resolve_right Step.noConfusion⟩

/-- A section of a call in progress keeps the state sound. -/
theorem Sound.advance {earlier later : List (List Step)} {accepted : List Acceptance}
    (h : Sound ⟨inst, earlier ++ (step :: rest) :: later, accepted⟩) {after : Instance}
    {left : List Step} (hperforms : step.Performs inst rest after left) :
    Sound ⟨after, earlier ++ left :: later, accepted⟩ := by
  obtain ⟨hdatabase, hlinks, hqueue, hclears, hsets, hsends⟩ := hperforms
  refine h.of_attended hdatabase rfl ?_ fun lsp position link hstored hlink => ?_
  · change ∀ link ∈ after.links, link.Filed
    rw [hlinks]
    exact Step.filed_links h.filed
  · change after.links[position]? = some link at hlink
    rw [hlinks] at hlink
    obtain ⟨old, hold, hname, hflagged⟩ := Step.exists_of_links hlink
    refine ⟨old, hold, hname, fun ⟨hunderway, hkept⟩ => ⟨?_, fun hclear => hkept ?_⟩⟩
    · have hnot : step ≠ .flag position lsp.id false := fun heq =>
        hkept (mem_pending_split.2 (Or.inl (heq ▸ List.mem_cons_self)))
      unfold State.Underway at hunderway ⊢
      rw [hname] at hunderway
      rcases hunderway with hflag | hset | hsend | hsent
      · exact Or.inl (hflagged lsp hnot (Or.inl hflag))
      · rcases mem_pending_split.1 hset with hmine | hothers
        · rcases List.mem_cons.1 hmine with hthis | hrest
          · exact Or.inl (hflagged lsp hnot (Or.inr hthis.symm))
          · exact Or.inr (Or.inl (mem_pending_split.2 (Or.inl (hsets _ _ hrest))))
        · exact Or.inr (Or.inl (mem_pending_split.2 (Or.inr hothers)))
      · rcases mem_pending_split.1 hsend with hmine | hothers
        · rcases hsends _ _ _ _ hmine hstored with hleft | hagain | hsent
          · exact Or.inr (Or.inr (Or.inl (mem_pending_split.2 (Or.inl hleft))))
          · exact Or.inr (Or.inl (mem_pending_split.2 (Or.inl hagain)))
          · exact Or.inr (Or.inr (Or.inr hsent))
        · exact Or.inr (Or.inr (Or.inl (mem_pending_split.2 (Or.inr hothers))))
      · exact Or.inr (Or.inr (Or.inr (hqueue hsent)))
    · rw [mem_pending_split] at hclear ⊢
      exact hclear.imp_left fun hleft => List.mem_cons_of_mem _ (hclears _ _ hleft)

/-- A call in progress keeps the state sound. -/
theorem Sound.resume (h : Sound state) (call : Nat) : Sound (perform state (.resume call)) := by
  rcases perform_resume_cases state call with hsame | ⟨earlier, step, rest, later, hcalls, hafter⟩
  · rw [hsame]
    exact h
  · obtain ⟨inst, calls, accepted⟩ := state
    cases hcalls
    rw [hafter]
    exact h.advance (step.performs inst rest)

/-- Every section keeps the state sound. -/
theorem Sound.perform (h : Sound state) (action : Action) : Sound (perform state action) := by
  cases action with
  | updateAdjacency now position adjacency => exact h.updateAdjacency now position adjacency
  | receive name frame => exact h.receive name frame
  | originate => exact h.accept rfl rfl rfl
  | scan position =>
    unfold Interleaving.perform
    dsimp only
    split
    · exact h
    · rename_i hlink
      exact h.take hlink
  | resume call => exact h.resume call

/-- An instance stays sound, whatever schedule its sections follow. -/
theorem sound_run (config : InstanceConfig) (room : Option Nat) (schedule : List Action) :
    Sound (run config room schedule) := by
  unfold run
  exact List.foldlRecOn schedule Interleaving.perform (sound_initial config room)
    fun _ h action _ => h.perform action

/-- When no call is in progress, every stored LSP is flagged or has been sent on every link but the
one it came from and those where it has overtaken an earlier instance. -/
theorem flagged_or_sent {config : InstanceConfig} {room : Option Nat} {schedule : List Action}
    (hidle : (run config room schedule).Idle)
    (hstored : (run config room schedule).inst.database.find? key = some lsp) :
    ∃ acceptance, (run config room schedule).latest? key = some acceptance ∧
      acceptance.lsp = lsp ∧ ∀ position link,
        (run config room schedule).inst.links[position]? = some link →
          acceptance.source ≠ some link.name → position ∉ acceptance.overtaken →
            link.isFlagged key ∨
              ⟨link.name, lsp.encode⟩ ∈ (run config room schedule).inst.transmissions.queue := by
  have hsound := sound_run config room schedule
  generalize run config room schedule = state at *
  rw [hsound.latest key] at hstored
  obtain ⟨acceptance, hacceptance, rfl⟩ := Option.map_eq_some_iff.1 hstored
  refine ⟨acceptance, hacceptance, rfl, fun position link hlink hsource hovertaken => ?_⟩
  have hunderway :=
    (hsound.attended key acceptance position link hacceptance hlink hsource hovertaken).1
  unfold State.Underway at hunderway
  have hnone (step : Step) : step ∉ state.pending := by
    rw [hidle]
    exact List.not_mem_nil
  rw [State.key_of_latest? hacceptance] at hunderway
  exact hunderway.imp_right fun h => (h.resolve_left (hnone _)).resolve_left (hnone _)

/-! ### Two workers at one LSP -/

/-- A router with two links. -/
def twoLinks : InstanceConfig :=
  ⟨⟨0, 0, 0, 0, 0, 1⟩, 5000, 1200, [⟨"eth0", 10, none, []⟩, ⟨"eth1", 10, none, []⟩]⟩

/-- Instances of one LSP of another router. -/
def announcement (seqno : UInt32) : Lsp :=
  .originate .lspL1 1200 (.ofSystem ⟨0, 0, 0, 0, 0, 2⟩) seqno .isType1 []

/-- Two instances of an LSP arrive, the later one when the flag of the earlier one has been cleared
on the link of the earlier one, and that link is scanned while the flags are being set. -/
def interleaved : List Action :=
  [.updateAdjacency ⟨0, 0⟩ 0 ⟨.up, some ⟨0, 0, 0, 0, 0, 2⟩, 10, none, none⟩,
    .receive "eth0" (announcement 1).encode, .resume 0,
    .receive "eth1" (announcement 2).encode, .resume 0, .resume 1, .scan 0, .resume 1, .resume 2,
    .resume 1, .resume 0]

theorem flagged_or_sent_interleaved :
    (run twoLinks none interleaved).Idle ∧
      (run twoLinks none interleaved).inst.database.find? (announcement 2).key =
        some (announcement 2) ∧
      ∃ acceptance, (run twoLinks none interleaved).latest? (announcement 2).key =
          some acceptance ∧ acceptance.lsp = announcement 2 ∧ ∀ position link,
        (run twoLinks none interleaved).inst.links[position]? = some link →
          acceptance.source ≠ some link.name → position ∉ acceptance.overtaken →
            link.isFlagged (announcement 2).key ∨ ⟨link.name, (announcement 2).encode⟩ ∈
              (run twoLinks none interleaved).inst.transmissions.queue := by
  have hidle : (run twoLinks none interleaved).Idle := by
    unfold State.Idle
    decide +kernel
  have hstored : (run twoLinks none interleaved).inst.database.find? (announcement 2).key =
      some (announcement 2) := by decide +kernel
  exact ⟨hidle, hstored, flagged_or_sent hidle hstored⟩

/-- Two instances of an LSP arrive, the later one before the flag of the earlier one has been
cleared on the link of the earlier one, and it is flagged there before that. -/
def overtaking : List Action :=
  [.receive "eth0" (announcement 1).encode, .receive "eth1" (announcement 2).encode,
    .resume 1, .resume 1, .resume 1, .resume 0, .resume 0, .resume 0]

/-- The later instance of an LSP is stored, it was received on the second link, and no call is in
progress, but on the first link it is neither flagged nor has it been sent. -/
theorem neither_flagged_nor_sent :
    (run twoLinks none overtaking).Idle ∧
      (run twoLinks none overtaking).inst.database.find? (announcement 2).key =
        some (announcement 2) ∧
      ((run twoLinks none overtaking).latest? (announcement 2).key).map (·.source) =
        some (some "eth1") ∧
      ∃ link ∈ (run twoLinks none overtaking).inst.links, link.name = "eth0" ∧
        ¬(link.isFlagged (announcement 2).key ∨ ⟨link.name, (announcement 2).encode⟩ ∈
          (run twoLinks none overtaking).inst.transmissions.queue) := by
  unfold State.Idle
  decide +kernel

end LinkState.Interleaving
