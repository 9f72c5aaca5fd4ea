import LinkState.Proofs.Filing
import LinkState.Proofs.Instance.Effects

/-!
# The flags of every link mirror the database

The flags of a link are kept apart from the database, in a table of their own, but whatever stores
an LSP also makes an entry for it on every link. So every link has one entry for each stored LSP, in
the order of the database and under the same key (`Link.Mirrors`). Storing an LSP keeps that if its
flag is set or cleared on the link (`Link.Mirrors.store`), and neither clearing the flags that are
set nor restoring those of refused LSPs makes an entry or removes one (`Link.Mirrors.takeFlagged`,
`Link.Mirrors.restore`). It follows for all links of an instance, operation by operation
(`Mirrored.perform`), that a scan finds whatever is flagged in the database
(`floodTables_mirror`).
-/

namespace LinkState

/-- The flags of a link have one entry for every stored LSP, in the order of the database, each
under the key of its own LSP ID. None of them asks for the sequence number to be sent. -/
structure Link.Mirrors (link : Link) (database : Database) : Prop where
  keys_eq : link.flags.entries.map (·.1) = database.keys
  filed : link.Filed
  ssn_eq : ∀ entry ∈ link.flags.entries, entry.2.ssn = false

namespace Link

variable {link : Link} {database : Database}

/-- Whatever the flag of an LSP is set to, its sequence number is not to be sent. -/
theorem ssn_setFlag (h : ∀ entry ∈ link.flags.entries, entry.2.ssn = false) (id : LspId)
    (srm : Bool) : ∀ entry ∈ (link.setFlag id srm).flags.entries, entry.2.ssn = false := by
  intro entry hentry
  rcases Table.mem_insert.1 hentry with rfl | ⟨hentry, -⟩
  · cases hfound : link.flags.find? id.key with
    | none => rfl
    | some state => exact h (id.key, state) (Table.find?_eq_some_iff.1 hfound)
  · exact h entry hentry

/-- Storing an LSP and setting or clearing its flag makes an entry in both, or in neither. -/
theorem Mirrors.store (h : link.Mirrors database) (hvalid : database.Valid) (lsp : Lsp)
    (srm : Bool) : (link.setFlag lsp.id srm).Mirrors (database.store lsp) := by
  refine ⟨?_, h.filed.setFlag lsp.id srm, ssn_setFlag h.ssn_eq lsp.id srm⟩
  unfold Avl.Map.keys
  rw [Database.toList_store hvalid]
  exact Table.map_fst_place h.keys_eq

/-- Setting or clearing the flag of a stored LSP makes no new entry. -/
theorem Mirrors.setFlag (h : link.Mirrors database) {id : LspId} (hid : id.key ∈ database.keys)
    (srm : Bool) : (link.setFlag id srm).Mirrors database := by
  refine ⟨?_, h.filed.setFlag id srm, ssn_setFlag h.ssn_eq id srm⟩
  rw [← h.keys_eq] at hid ⊢
  exact Table.map_fst_place_of_mem link.flags.ascending hid

/-- Restoring the flags of stored LSPs makes no new entries. -/
theorem Mirrors.restore (h : link.Mirrors database) {ids : List LspId}
    (hids : ∀ id ∈ ids, id.key ∈ database.keys) :
    (ids.foldl (fun link id => link.setFlag id true) link).Mirrors database := by
  induction ids generalizing link with
  | nil => exact h
  | cons id ids ih =>
    exact ih (h.setFlag (hids id List.mem_cons_self) true)
      fun other hother => hids other (List.mem_cons_of_mem id hother)

/-- Clearing the flags that are set removes no entries. -/
theorem Mirrors.takeFlagged (h : link.Mirrors database) : link.takeFlagged.2.Mirrors database := by
  refine ⟨?_, h.filed.takeFlagged, ?_⟩
  · rw [← h.keys_eq]
    unfold Link.takeFlagged
    split
    · exact List.map_map
    · rfl
  · unfold Link.takeFlagged
    split
    · intro entry hentry
      obtain ⟨old, hold, rfl⟩ := List.mem_map.1 hentry
      exact h.ssn_eq old hold
    · exact h.ssn_eq

/-- The LSPs that are taken for sending are stored. -/
theorem Mirrors.mem_keys (h : link.Mirrors database) {id : LspId}
    (hid : id ∈ link.takeFlagged.1) : id.key ∈ database.keys := by
  rw [takeFlagged_fst] at hid
  split at hid
  · obtain ⟨state, hentry, -⟩ := isFlagged_iff.1 ((mem_flagged_iff h.filed).1 hid)
    rw [← h.keys_eq]
    exact List.mem_map.2 ⟨(id.key, state), hentry, rfl⟩
  · cases hid

/-- The entries of a link are those of the stored LSPs, in their order. -/
theorem Mirrors.ids_eq (h : link.Mirrors database) (hfiled : database.Filed) :
    link.flags.values.map (·.id) = database.ids := by
  have hkeys : (link.flags.values.map (·.id)).map LspId.key = database.ids.map LspId.key := by
    calc (link.flags.values.map (·.id)).map LspId.key
        = link.flags.entries.map (·.1) := by
          unfold Table.values
          rw [List.map_map, List.map_map]
          exact List.map_congr_left fun entry hentry => (h.filed entry hentry).symm
      _ = database.keys := h.keys_eq
      _ = database.ids.map LspId.key := hfiled.map_key_ids.symm
  exact List.map_injective_iff.2 LspId.key_injective hkeys

end Link

namespace Instance

variable {config : InstanceConfig} {inst after : Instance}

/-- The flags of every link mirror the database. -/
structure Mirrored (inst : Instance) : Prop where
  valid : inst.database.Valid
  filed : inst.database.Filed
  mirrors : ∀ link ∈ inst.links, link.Mirrors inst.database

/-- An operation that changes neither the links nor the database keeps one mirroring the other. -/
theorem Mirrored.of_eq (h : Mirrored inst) (hlinks : after.links = inst.links)
    (hdatabase : after.database = inst.database) : Mirrored after := by
  obtain ⟨hvalid, hfiled, hmirrors⟩ := h
  rw [← hdatabase] at hvalid hfiled hmirrors
  exact ⟨hvalid, hfiled, hlinks ▸ hmirrors⟩

/-- So does one that stores an LSP and sets or clears its flag on every link. -/
theorem Mirrored.store (h : Mirrored inst) {lsp : Lsp} (chosen : Link → Bool)
    (hlinks : after.links = inst.links.map fun link => link.setFlag lsp.id (chosen link))
    (hdatabase : after.database = Database.store inst.database lsp) : Mirrored after := by
  refine ⟨hdatabase ▸ Avl.Map.valid_put h.valid _ _, hdatabase ▸ h.filed.store h.valid lsp, ?_⟩
  rw [hlinks, hdatabase]
  intro link hlink
  obtain ⟨old, hold, rfl⟩ := List.mem_map.1 hlink
  exact (h.mirrors old hold).store h.valid lsp (chosen old)

/-- So does one that replaces a link by another one with as many entries. -/
theorem Mirrored.set (h : Mirrored inst) {position : Nat} {replaced : Link}
    (hreplaced : replaced.Mirrors inst.database)
    (hlinks : after.links = inst.links.set position replaced)
    (hdatabase : after.database = inst.database) : Mirrored after := by
  refine ⟨hdatabase ▸ h.valid, hdatabase ▸ h.filed, ?_⟩
  rw [hlinks, hdatabase]
  intro link hlink
  rcases List.mem_or_eq_of_mem_set hlink with hlink | rfl
  · exact h.mirrors link hlink
  · exact hreplaced

/-! ### Scanning a link -/

/-- What is refused of a row of LSPs comes from the row. -/
theorem unsent_subset (database : Database) (link : String) (ids : List LspId)
    (channel : Channel Transmission) :
    (sendAll database link ids channel).value.unsent ⊆ ids := by
  induction ids generalizing channel with
  | nil => exact List.Subset.refl _
  | cons id ids ih =>
    unfold sendAll
    split
    · exact List.subset_cons_of_subset id (ih channel)
    · split
      · exact List.Subset.refl _
      · exact List.subset_cons_of_subset id (ih _)

/-- Of LSPs that are stored, nothing is recorded but that they have been sent. -/
theorem event_sendAll {database : Database} {link : String} {ids : List LspId}
    (hstored : ∀ id ∈ ids, (Database.encode? database id).isSome)
    {channel : Channel Transmission} {record : Record}
    (hrecord : record ∈ (sendAll database link ids channel).records) :
    ∃ id, record.event = .lspFlooded link id := by
  induction ids generalizing channel with
  | nil => cases hrecord
  | cons id ids ih =>
    have hrest : ∀ other ∈ ids, (Database.encode? database other).isSome :=
      fun other hother => hstored other (List.mem_cons_of_mem id hother)
    obtain ⟨data, hdata⟩ := Option.isSome_iff_exists.1 (hstored id List.mem_cons_self)
    unfold sendAll at hrecord
    rw [hdata] at hrecord
    dsimp only at hrecord
    split at hrecord
    · cases hrecord
    · simp only [Traced.records_bind, Traced.records_pure, Traced.records_emit, List.append_nil,
        List.mem_append, List.mem_singleton] at hrecord
      rcases hrecord with rfl | hrecord
      · exact ⟨id, rfl⟩
      · exact ih hrest hrecord

/-- A scan finds all LSPs that are flagged. -/
theorem Mirrored.event_scan (h : Mirrored inst) {position : Nat} {record : Record}
    (hrecord : record ∈ (inst.scan position).records) (name : String) (id : LspId) :
    record.event ≠ .fault (.lspNotFound name id) := by
  unfold scan at hrecord
  split at hrecord
  · cases hrecord
  · rename_i link hlink
    have hmirrors := h.mirrors link (List.mem_of_getElem? hlink)
    have hstored : ∀ id ∈ link.takeFlagged.1,
        (Database.encode? inst.database id).isSome := by
      intro id hid
      obtain ⟨lsp, hlsp⟩ := (Database.mem_keys_iff h.valid).1 (hmirrors.mem_keys hid)
      unfold Database.encode? Database.lsp?
      rw [hlsp]
      rfl
    simp only [Traced.records_bind, List.mem_append] at hrecord
    rcases hrecord with hrecord | hrecord
    · obtain ⟨sent, hevent⟩ := event_sendAll hstored hrecord
      rw [hevent]
      exact Event.noConfusion
    · -- That the network has refused a frame is all that may be left to record.
      split at hrecord
      · simp only [Traced.records_bind, Traced.records_pure, Traced.records_emit, List.append_nil,
          List.mem_singleton] at hrecord
        rw [hrecord]
        intro hevent
        cases hevent
      · cases hrecord

/-- Restoring the flags of refused LSPs makes up for having cleared them. -/
theorem Mirrored.scan (h : Mirrored inst) (position : Nat) :
    Mirrored (inst.scan position).value.2 := by
  cases hlink : inst.links[position]? with
  | none =>
    unfold Instance.scan
    rw [hlink]
    exact h
  | some link =>
    have hmirrors := h.mirrors link (List.mem_of_getElem? hlink)
    have hrestored := hmirrors.takeFlagged.restore fun id hid =>
      hmirrors.mem_keys (unsent_subset inst.database link.name link.takeFlagged.1
        inst.transmissions hid)
    rw [scan_value hlink]
    exact h.set hrestored rfl rfl

/-! ### Runs -/

/-- Before the first operation there are no LSPs and no entries. -/
theorem mirrored_ofConfig (config : InstanceConfig) (room : Option Nat) :
    Mirrored { ofConfig config with transmissions := ⟨[], room⟩ } := by
  refine ⟨Avl.Map.valid_empty, fun entry h => absurd h List.not_mem_nil, ?_⟩
  intro link hlink
  obtain ⟨linkConfig, -, rfl⟩ := List.mem_map.1 hlink
  exact ⟨rfl, Link.filed_ofConfig linkConfig, fun entry h => absurd h List.not_mem_nil⟩

/-- Renewing the router's own LSP makes an entry for it on every link. -/
theorem Mirrored.originate (h : Mirrored inst) : Mirrored inst.originate.value.2 :=
  h.store (fun _ => true) rfl rfl

/-- Every operation keeps the links mirroring the database. -/
theorem Mirrored.perform (h : Mirrored inst) (operation : Operation) :
    Mirrored (inst.perform operation).value := by
  cases operation with
  | receive name frame =>
    rw [Instance.perform, Traced.value_map]
    rcases (inst.receive_value name frame).2 with ⟨-, hvalue, -⟩ | ⟨reading, -, -, -, -, hvalue⟩
    · rw [hvalue]
      exact h
    · rw [hvalue]
      exact h.store (fun link => link.name ≠ name) rfl rfl
  | originate => exact h.originate
  | changeAdjacency now name adjacency =>
    rw [Instance.perform, Traced.value_map]
    rcases inst.changeAdjacency_value now name adjacency with ⟨hvalue, -⟩ |
      ⟨position, link, taken, -, hlink, htaken, hcases⟩
    · rw [hvalue]
      exact h
    · -- Another adjacency makes no difference for the flags.
      have hmirrors := h.mirrors link (List.mem_of_getElem? hlink)
      obtain ⟨-, time, hlater⟩ := updateAdjacency_value link now adjacency
      have hsame : Link.Mirrors (link.updateAdjacency now adjacency).value.2 inst.database := by
        rw [hlater]
        exact ⟨hmirrors.keys_eq, hmirrors.filed, hmirrors.ssn_eq⟩
      have hafter : Mirrored taken := by
        rw [htaken]
        exact h.set hsame rfl rfl
      rcases hcases with ⟨-, hvalue, -⟩ | ⟨hvalue, -⟩
      · rw [hvalue]
        exact hafter
      · rw [hvalue]
        exact hafter.originate
  | scan position => exact h.scan position
  | runSpf now =>
    rw [Instance.perform, Traced.value_map, runSpf_value]
    split
    · exact h
    · exact h.of_eq rfl rfl
  | serve clock =>
    obtain ⟨-, ⟨-, hvalue⟩ | ⟨-, hvalue⟩⟩ := inst.serve_value clock
    · rw [hvalue]
      exact h
    · rw [hvalue, runSpf_value]
      split
      · exact h.of_eq rfl rfl
      · exact h.of_eq rfl rfl

/-- So does a run of operations. -/
theorem Mirrored.run (h : Mirrored inst) (operations : List Operation) :
    Mirrored (inst.run operations).value := by
  induction operations generalizing inst with
  | nil => exact h
  | cons operation operations ih => exact ih (h.perform operation)

/-- No stored LSP is removed by a run. -/
theorem Mirrored.keys_subset_run (h : Mirrored inst) (operations : List Operation) :
    inst.database.keys ⊆ (inst.run operations).value.database.keys := by
  induction operations generalizing inst with
  | nil => exact List.Subset.refl _
  | cons operation operations ih =>
    have hstep : inst.database.keys ⊆ (inst.perform operation).value.database.keys := by
      obtain ⟨-, ⟨-, -, hsame | ⟨lsp, haccepts⟩⟩ | ⟨lsp, -, hrenews⟩⟩ :=
        inst.perform_cases operation
      · rw [hsame]
        exact List.Subset.refl _
      · rw [haccepts.database_eq]
        exact Database.keys_subset_store h.valid lsp
      · rw [hrenews.database_eq]
        exact Database.keys_subset_store h.valid lsp
    exact List.Subset.trans hstep (ih (h.perform operation))

/-- After every run, whether the network takes all frames or refuses them from some point on, every
LSP is stored under its own key, and the flags of every link have one entry for each stored LSP, in
the same ascending order and under the key of its own LSP ID. No further run removes a stored LSP,
and no scan looks for an LSP that is not there. -/
theorem floodTables_mirror (config : InstanceConfig) (room : Option Nat)
    (operations : List Operation) :
    let inst := (({ ofConfig config with transmissions := ⟨[], room⟩ } : Instance).run
      operations).value
    (∀ entry ∈ inst.database.toList, entry.1 = entry.2.key) ∧
      (inst.database.ids.map LspId.key).Pairwise (· < ·) ∧
      (∀ link ∈ inst.links, link.flags.values.map (·.id) = inst.database.ids ∧
        ∀ entry ∈ link.flags.entries, entry.1 = entry.2.id.key ∧ entry.2.ssn = false) ∧
      (∀ further, inst.database.ids ⊆ (inst.run further).value.database.ids) ∧
      ∀ position, ∀ record ∈ (inst.scan position).records, ∀ name id,
        record.event ≠ .fault (.lspNotFound name id) := by
  intro inst
  have h : Mirrored inst := (mirrored_ofConfig config room).run operations
  refine ⟨h.filed, ?_, fun link hlink => ?_, fun further id hid => ?_, ?_⟩
  · rw [h.filed.map_key_ids, Avl.Map.keys, List.pairwise_map]
    exact h.valid.ascending.imp UInt64.lt_iff_toNat_lt.2
  · have hmirrors := h.mirrors link hlink
    exact ⟨hmirrors.ids_eq h.filed,
      fun entry hentry => ⟨hmirrors.filed entry hentry, hmirrors.ssn_eq entry hentry⟩⟩
  · rw [(h.run further).filed.mem_ids_iff]
    exact h.keys_subset_run further (h.filed.mem_ids_iff.1 hid)
  · exact fun position record hrecord name id => h.event_scan hrecord name id

end Instance

end LinkState
