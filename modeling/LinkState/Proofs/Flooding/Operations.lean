import LinkState.Instance.Flooding
import LinkState.Proofs.Flooding.Flags

/-!
# What the flooding operations do to an instance

An operation does one of three things to the database and the flags. It leaves them as they are
(`Idle`), it stores one LSP and sets or clears its flag on every link (`Stores`), or it sends stored
LSPs and clears the flags of these (`Sends`). A received frame leaves everything as it is or stores
the LSP that it carries (`receive_cases`); an origination stores the next LSP of the router's own
(`originate_stores`), and a new adjacency may lead to one (`changeAdjacency_cases`); a scan sends
(`scan_sends`). Only originations are recorded as such.
-/

namespace LinkState

namespace Traced

variable {α β : Type u}

@[simp] theorem value_pure (a : α) : (pure a : Traced α).value = a := rfl

@[simp] theorem records_pure (a : α) : (pure a : Traced α).records = [] := rfl

@[simp] theorem value_bind (traced : Traced α) (next : α → Traced β) :
    (traced >>= next).value = (next traced.value).value := rfl

@[simp] theorem records_bind (traced : Traced α) (next : α → Traced β) :
    (traced >>= next).records = traced.records ++ (next traced.value).records := rfl

@[simp] theorem value_map (change : α → β) (traced : Traced α) :
    (change <$> traced).value = change traced.value := rfl

@[simp] theorem records_map (change : α → β) (traced : Traced α) :
    (change <$> traced).records = traced.records :=
  List.append_nil traced.records

@[simp] theorem records_emit (event : Event) : (emit event).records = [⟨event.spans, event⟩] := rfl

end Traced

/-- The LSPs whose origination is recorded, the oldest first. -/
def originations (records : List Record) : List Lsp :=
  records.filterMap fun record =>
    match record.event with
    | .lspOriginated lsp => some lsp
    | _ => none

@[simp] theorem originations_nil : originations [] = [] := rfl

@[simp] theorem originations_append (first second : List Record) :
    originations (first ++ second) = originations first ++ originations second :=
  List.filterMap_append

namespace Instance

/-- The names of the links. -/
def names (inst : Instance) : List String := inst.links.map (·.name)

/-- An LSP must be sent on a link with the given name. -/
def Flagged (inst : Instance) (name : String) (key : UInt64) : Prop :=
  ∃ link ∈ inst.links, link.name = name ∧ link.isFlagged key

/-- On every link the flags are filed under the keys of their LSP IDs. -/
def FlagsFiled (inst : Instance) : Prop := ∀ link ∈ inst.links, link.Filed

/-- Nothing that matters for flooding has changed. -/
structure Idle (before after : Instance) : Prop where
  config_eq : after.config = before.config
  names_eq : after.names = before.names
  database_eq : after.database = before.database
  seqno_eq : after.seqno = before.seqno
  transmissions_eq : after.transmissions = before.transmissions
  flagged_iff : ∀ name key, after.Flagged name key ↔ before.Flagged name key
  filed : before.FlagsFiled → after.FlagsFiled

/-- An LSP has been stored, and it must be sent on the chosen links and on no others. -/
structure Stores (before after : Instance) (lsp : Lsp) (chosen : String → Bool) : Prop where
  config_eq : after.config = before.config
  names_eq : after.names = before.names
  database_eq : after.database = Database.store before.database lsp
  transmissions_eq : after.transmissions = before.transmissions
  flagged_iff : ∀ name key, after.Flagged name key ↔
    if key = lsp.key then name ∈ before.names ∧ chosen name else before.Flagged name key
  filed : before.FlagsFiled → after.FlagsFiled

/-- Stored LSPs have been sent. A flag of a stored LSP is cleared only after it was sent. -/
structure Sends (before after : Instance) (sent : List Transmission) : Prop where
  config_eq : after.config = before.config
  names_eq : after.names = before.names
  database_eq : after.database = before.database
  seqno_eq : after.seqno = before.seqno
  transmissions_eq : after.transmissions =
    { before.transmissions with queue := before.transmissions.queue ++ sent }
  stored : ∀ transmission ∈ sent, ∃ key lsp, before.database.find? key = some lsp ∧
    transmission.data = lsp.encode
  flagged : ∀ name key lsp, before.Flagged name key → before.database.find? key = some lsp →
    after.Flagged name key ∨ ⟨name, lsp.encode⟩ ∈ sent
  filed : before.FlagsFiled → after.FlagsFiled

variable {inst : Instance}

/-- An instance has not changed if it is the same one. -/
theorem Idle.refl (inst : Instance) : Idle inst inst :=
  ⟨rfl, rfl, rfl, rfl, rfl, fun _ _ => Iff.rfl, id⟩

/-! ### Storing an LSP -/

/-- Setting or clearing the flag of an LSP on every link leaves the flags of the others as they
are. -/
theorem flagged_map_setFlag (id : LspId) (chosen : String → Bool) (name : String) (key : UInt64) :
    (∃ link ∈ inst.links.map fun link => link.setFlag id (chosen link.name),
        link.name = name ∧ link.isFlagged key) ↔
      if key = id.key then name ∈ inst.names ∧ chosen name else inst.Flagged name key := by
  constructor
  · -- The operation renames no link.
    rintro ⟨_, hmem, hname, hflagged⟩
    obtain ⟨link, hlink, rfl⟩ := List.mem_map.1 hmem
    have hname : link.name = name := hname
    rw [Link.isFlagged_setFlag, hname] at hflagged
    split at hflagged
    · rename_i hkey
      rw [if_pos hkey]
      exact ⟨List.mem_map.2 ⟨link, hlink, hname⟩, hflagged⟩
    · rename_i hkey
      rw [if_neg hkey]
      exact ⟨link, hlink, hname, hflagged⟩
  · intro h
    have hset {link : Link} (hlink : link ∈ inst.links) (hname : link.name = name)
        (hflagged : (if key = id.key then chosen name else link.isFlagged key) = true) :
        ∃ link ∈ inst.links.map fun link => link.setFlag id (chosen link.name),
          link.name = name ∧ link.isFlagged key := by
      refine ⟨_, List.mem_map_of_mem hlink, hname, ?_⟩
      rw [Link.isFlagged_setFlag, hname]
      exact hflagged
    split at h
    · rename_i hkey
      obtain ⟨hmem, hchosen⟩ := h
      obtain ⟨link, hlink, hname⟩ := List.mem_map.1 hmem
      exact hset hlink hname (by rw [if_pos hkey]; exact hchosen)
    · rename_i hkey
      obtain ⟨link, hlink, hname, hflagged⟩ := h
      exact hset hlink hname (by rw [if_neg hkey]; exact hflagged)

/-- Storing an LSP and setting or clearing its flag on every link. -/
theorem stores_of_setFlag {after : Instance} {lsp : Lsp} {chosen : String → Bool}
    (hconfig : after.config = inst.config)
    (hdatabase : after.database = Database.store inst.database lsp)
    (htransmissions : after.transmissions = inst.transmissions)
    (hlinks : after.links = inst.links.map fun link => link.setFlag lsp.id (chosen link.name)) :
    Stores inst after lsp chosen where
  config_eq := hconfig
  names_eq := by
    unfold names
    rw [hlinks, List.map_map]
    rfl
  database_eq := hdatabase
  transmissions_eq := htransmissions
  flagged_iff name key := by
    unfold Flagged
    rw [hlinks]
    exact flagged_map_setFlag lsp.id chosen name key
  filed h link hlink := by
    rw [hlinks] at hlink
    obtain ⟨old, hold, rfl⟩ := List.mem_map.1 hlink
    exact (h old hold).setFlag _ _

/-- An origination stores the next LSP of the router's own and flags it on every link. -/
theorem originate_stores (inst : Instance) :
    inst.originate.value.1 =
        Lsp.ofLinks inst.systemId inst.links (inst.seqno + 1) inst.config.lspLifetime ∧
      Stores inst inst.originate.value.2 inst.originate.value.1 (fun _ => true) ∧
      inst.originate.value.2.seqno = inst.seqno + 1 ∧
      originations inst.originate.records = [inst.originate.value.1] :=
  ⟨rfl, stores_of_setFlag rfl rfl rfl rfl, rfl, rfl⟩

/-- A name that no link has is not found, and any other one is. -/
theorem linkIndex?_eq_none_iff {name : String} :
    inst.linkIndex? name = none ↔ name ∉ inst.names := by
  unfold linkIndex? names
  rw [List.findIdx?_eq_none_iff]
  simp only [decide_eq_false_iff_not, List.mem_map, not_exists, not_and]

/-! ### Receiving a frame -/

/-- A received LSP is stale, or it is stored and more recent than what was there. -/
theorem install_cases (database : Database) (lsp : Lsp) :
    ((Database.install database lsp).2 = .stale ∧
        ∃ present, database.find? lsp.key = some present ∧ ¬present.seqno < lsp.seqno) ∨
      (Database.install database lsp).2 ≠ .stale ∧
        (Database.install database lsp).1 = Database.store database lsp ∧
        ∀ present, database.find? lsp.key = some present → present.seqno < lsp.seqno := by
  unfold Database.install
  cases hfound : database.find? lsp.key with
  | none => exact Or.inr ⟨Installation.noConfusion, rfl, fun _ h => by cases h⟩
  | some present =>
    by_cases hnewer : present.seqno < lsp.seqno
    · refine Or.inr ?_
      dsimp only
      rw [if_pos hnewer]
      refine ⟨Installation.noConfusion, rfl, fun other h => ?_⟩
      cases h
      exact hnewer
    · refine Or.inl ?_
      dsimp only
      rw [if_neg hnewer]
      exact ⟨rfl, present, rfl, hnewer⟩

/-- A received frame is passed over, for want of its link, because it cannot be read or because its
LSP is not more recent than the stored one, or its LSP is stored, flagged on the other links and
made known to the shortest-path worker. -/
theorem receive_value (inst : Instance) (name : String) (frame : Octets) :
    originations (inst.receive name frame).records = [] ∧
      ((inst.receive name frame).value.1 ≠ .ok .installed ∧
          (inst.receive name frame).value.2 = inst ∧
          (name ∈ inst.names → ∀ reading, Lsp.read frame 0 = .ok reading →
            ∃ present, inst.database.find? reading.lsp.key = some present ∧
              ¬present.seqno < reading.lsp.seqno) ∨
        ∃ reading, name ∈ inst.names ∧ Lsp.read frame 0 = .ok reading ∧
          (∀ present, inst.database.find? reading.lsp.key = some present →
            present.seqno < reading.lsp.seqno) ∧
          (inst.receive name frame).value.1 = .ok .installed ∧
          (inst.receive name frame).value.2 =
            (({ inst with database := Database.store inst.database reading.lsp } :
              Instance).flagElsewhere reading.lsp.id name).trigger) := by
  unfold receive
  cases hindex : inst.linkIndex? name with
  | none =>
    -- No link has the name.
    have hname := linkIndex?_eq_none_iff.1 hindex
    exact ⟨rfl, Or.inl ⟨(fun h => by cases h), rfl, fun hmem => absurd hmem hname⟩⟩
  | some position =>
    have hname : name ∈ inst.names := by
      apply Decidable.byContradiction
      intro habsent
      rw [linkIndex?_eq_none_iff.2 habsent] at hindex
      cases hindex
    cases hread : Lsp.read frame 0 with
    | error reason =>
      exact ⟨rfl, Or.inl ⟨(fun h => by cases h), rfl, fun _ reading h => by cases h⟩⟩
    | ok reading =>
      have hreport : originations (reportTruncation reading.truncation).records = [] := by
        cases reading.truncation <;> rfl
      have hinstall := install_cases inst.database reading.lsp
      rcases hresult : Database.install inst.database reading.lsp with ⟨database, installation⟩
      rw [hresult] at hinstall
      have hsplit : inst.installLsp reading.lsp =
          ({ inst with database := database }, installation) := by
        unfold installLsp
        rw [hresult]
      -- A stale LSP leaves the instance as it is; a new one and a newer one are treated alike.
      rcases hinstall with ⟨hstale, present, hpresent, hnewer⟩ | ⟨hfresh, hstore, hnewer⟩
      · cases hstale
        simp only [Traced.records_bind, Traced.value_bind, hsplit, originations_append, hreport]
        refine ⟨rfl, Or.inl ⟨(fun h => by cases h), rfl, fun _ other h => ?_⟩⟩
        cases h
        exact ⟨present, hpresent, hnewer⟩
      · have hstore : database = Database.store inst.database reading.lsp := hstore
        subst hstore
        simp only [Traced.records_bind, Traced.value_bind, hsplit, originations_append, hreport]
        cases installation with
        | stale => exact absurd rfl hfresh
        | new => exact ⟨rfl, Or.inr ⟨reading, hname, rfl, hnewer, rfl, rfl⟩⟩
        | newer => exact ⟨rfl, Or.inr ⟨reading, hname, rfl, hnewer, rfl, rfl⟩⟩

/-- A received frame is passed over, or its LSP is stored and flagged on the other links. -/
theorem receive_cases (inst : Instance) (name : String) (frame : Octets) :
    originations (inst.receive name frame).records = [] ∧
      ((inst.receive name frame).value.2 = inst ∧
          (name ∈ inst.names → ∀ reading, Lsp.read frame 0 = .ok reading →
            ∃ present, inst.database.find? reading.lsp.key = some present ∧
              ¬present.seqno < reading.lsp.seqno) ∨
        ∃ reading, name ∈ inst.names ∧ Lsp.read frame 0 = .ok reading ∧
          (∀ present, inst.database.find? reading.lsp.key = some present →
            present.seqno < reading.lsp.seqno) ∧
          Stores inst (inst.receive name frame).value.2 reading.lsp (fun other => other ≠ name) ∧
          (inst.receive name frame).value.2.seqno = inst.seqno) := by
  obtain ⟨hrecords, ⟨-, hpassed⟩ | ⟨reading, hname, hread, hnewer, -, hvalue⟩⟩ :=
    inst.receive_value name frame
  · exact ⟨hrecords, Or.inl hpassed⟩
  · rw [hvalue]
    exact ⟨hrecords, Or.inr ⟨reading, hname, hread, hnewer, stores_of_setFlag rfl rfl rfl rfl, rfl⟩⟩

/-! ### Replacing a link -/

/-- With a link replaced by one that looks the same, all links look the same. -/
theorem map_set_of_eq {α : Type u} (look : Link → α) {links : List Link} {position : Nat}
    {link replaced : Link} (hlink : links[position]? = some link) (h : look replaced = look link) :
    (links.set position replaced).map look = links.map look := by
  obtain ⟨hlt, rfl⟩ := List.getElem?_eq_some_iff.1 hlink
  rw [List.map_set, h, ← List.map_set, List.set_getElem_self]

/-- With a link replaced by one of the same name, the names stay. -/
theorem names_set {position : Nat} {link replaced : Link}
    (hlink : inst.links[position]? = some link) (hname : replaced.name = link.name) :
    (inst.links.set position replaced).map Link.name = inst.names :=
  map_set_of_eq Link.name hlink hname

/-- With a link replaced, every other link is still there. -/
theorem eq_or_mem_set {position : Nat} {link other : Link} (replaced : Link)
    (hlink : inst.links[position]? = some link) (hother : other ∈ inst.links) :
    other = link ∨ other ∈ inst.links.set position replaced := by
  obtain ⟨i, hi⟩ := List.mem_iff_getElem?.1 hother
  by_cases heq : position = i
  · subst heq
    rw [hlink] at hi
    exact Or.inl (Option.some.inj hi).symm
  · refine Or.inr (List.mem_iff_getElem?.2 ⟨i, ?_⟩)
    rw [List.getElem?_set_ne heq]
    exact hi

/-- The link that replaces another one is there. -/
theorem mem_set_self {position : Nat} {link : Link} (replaced : Link)
    (hlink : inst.links[position]? = some link) : replaced ∈ inst.links.set position replaced := by
  obtain ⟨hlt, -⟩ := List.getElem?_eq_some_iff.1 hlink
  exact List.mem_set hlt replaced

/-- A link with another adjacency but the same flags makes no difference for flooding. -/
theorem idle_set {position : Nat} {link replaced : Link}
    (hlink : inst.links[position]? = some link) (hconfig : replaced.config = link.config)
    (hflags : replaced.flags = link.flags) :
    Idle inst { inst with links := inst.links.set position replaced } := by
  have hname : replaced.name = link.name := congrArg LinkConfig.name hconfig
  have hflagged (key : UInt64) : replaced.isFlagged key = link.isFlagged key := by
    unfold Link.isFlagged
    rw [hflags]
  have hmem : link ∈ inst.links := List.mem_of_getElem? hlink
  refine ⟨rfl, names_set hlink hname, rfl, rfl, rfl, fun name key => ?_, fun h other hother => ?_⟩
  · constructor
    · rintro ⟨other, hother, hother', hkey⟩
      rcases List.mem_or_eq_of_mem_set hother with hother | rfl
      · exact ⟨other, hother, hother', hkey⟩
      · exact ⟨link, hmem, hname ▸ hother', hflagged key ▸ hkey⟩
    · rintro ⟨other, hother, hother', hkey⟩
      rcases eq_or_mem_set replaced hlink hother with rfl | hother
      · exact ⟨replaced, mem_set_self replaced hlink, hname.trans hother',
          (hflagged key).trans hkey⟩
      · exact ⟨other, hother, hother', hkey⟩
  · rcases List.mem_or_eq_of_mem_set hother with hother | rfl
    · exact h other hother
    · unfold Link.Filed
      rw [hflags]
      exact h link hmem

/-- A link takes over all of an adjacency but the time of the last change. -/
theorem updateAdjacency_value (link : Link) (now : Timestamp) (adjacency : Adjacency) :
    originations (link.updateAdjacency now adjacency).records = [] ∧
      ∃ time, (link.updateAdjacency now adjacency).value = (link.adjacency.state,
        { link with adjacency := { adjacency with lastChange := time } }) := by
  unfold Link.updateAdjacency
  dsimp only
  split <;> exact ⟨rfl, _, rfl⟩

/-- The first link with a name takes over an adjacency. If the adjacency comes up or goes down by
that, the router's own LSP is renewed, and otherwise nothing else changes. -/
theorem changeAdjacency_value (inst : Instance) (now : Timestamp) (name : String)
    (adjacency : Adjacency) :
    (inst.changeAdjacency now name adjacency).value.2 = inst ∧
        originations (inst.changeAdjacency now name adjacency).records = [] ∨
      ∃ position link taken, inst.linkIndex? name = some position ∧
        inst.links[position]? = some link ∧
        taken = { inst with
          links := inst.links.set position (link.updateAdjacency now adjacency).value.2 } ∧
        (link.adjacency.isUp = adjacency.isUp ∧
            (inst.changeAdjacency now name adjacency).value.2 = taken ∧
            originations (inst.changeAdjacency now name adjacency).records = [] ∨
          (inst.changeAdjacency now name adjacency).value.2 = taken.originate.value.2 ∧
            originations (inst.changeAdjacency now name adjacency).records =
              originations taken.originate.records) := by
  unfold changeAdjacency
  split
  · exact Or.inl ⟨rfl, rfl⟩
  · rename_i position hindex
    split
    · exact Or.inl ⟨rfl, rfl⟩
    · rename_i link hlink
      obtain ⟨hrecords, time, hvalue⟩ := updateAdjacency_value link now adjacency
      refine Or.inr ⟨position, link, _, hindex, hlink, rfl, ?_⟩
      simp only [Traced.value_bind, Traced.records_bind, originations_append, hrecords, hvalue,
        List.nil_append]
      split
      · refine Or.inr ⟨rfl, ?_⟩
        simp only [Traced.records_bind, Traced.records_pure, List.append_nil]
      · rename_i hsame
        refine Or.inl ⟨?_, rfl, rfl⟩
        unfold Adjacency.isUp
        grind

/-- A new adjacency replaces links, which makes no difference for flooding, unless the router's own
LSP is renewed after it has been taken over. -/
theorem changeAdjacency_cases (inst : Instance) (now : Timestamp) (name : String)
    (adjacency : Adjacency) :
    ∃ taken links, taken = { inst with links := links } ∧ Idle inst taken ∧
      ((inst.changeAdjacency now name adjacency).value.2 = taken ∧
          originations (inst.changeAdjacency now name adjacency).records = [] ∨
        (inst.changeAdjacency now name adjacency).value.2 = taken.originate.value.2 ∧
          originations (inst.changeAdjacency now name adjacency).records =
            originations taken.originate.records) := by
  rcases inst.changeAdjacency_value now name adjacency with hnone |
    ⟨position, link, taken, -, hlink, htaken, hcases⟩
  · exact ⟨inst, inst.links, rfl, .refl inst, Or.inl hnone⟩
  · obtain ⟨-, time, hvalue⟩ := updateAdjacency_value link now adjacency
    refine ⟨taken, _, htaken, ?_, hcases.imp And.right id⟩
    rw [htaken, hvalue]
    exact idle_set hlink rfl rfl

/-! ### Scanning a link -/

/-- Sending LSPs originates nothing. -/
theorem originations_sendAll (database : Database) (link : String) (ids : List LspId)
    (channel : Channel Transmission) :
    originations (sendAll database link ids channel).records = [] := by
  induction ids generalizing channel with
  | nil => rfl
  | cons id ids ih =>
    unfold sendAll
    split
    · exact ih channel
    · split
      · rfl
      · rename_i taken _
        simp only [Traced.records_bind, Traced.records_pure, originations_append, ih taken]
        rfl

/-- A scan originates nothing. -/
theorem originations_scan (position : Nat) : originations (inst.scan position).records = [] := by
  unfold scan
  split
  · rfl
  · simp only [Traced.records_bind, originations_append, originations_sendAll]
    split <;> rfl

/-- What is sent of a row of LSPs on an open channel: all that are stored. -/
def frames (database : Database) (link : String) (ids : List LspId) : List Transmission :=
  (ids.filterMap (Database.encode? database)).map fun data => ⟨link, data⟩

/-- An open channel takes everything that is sent, and it stays open. -/
theorem sendAll_open (database : Database) (link : String) (ids : List LspId)
    {channel : Channel Transmission} (hopen : channel.room = none) :
    (sendAll database link ids channel).value.unsent = [] ∧
      (sendAll database link ids channel).value.channel =
        { channel with queue := channel.queue ++ frames database link ids } := by
  induction ids generalizing channel with
  | nil =>
    refine ⟨rfl, ?_⟩
    unfold frames
    rw [List.filterMap_nil, List.map_nil, List.append_nil]
    rfl
  | cons id ids ih =>
    unfold sendAll frames
    cases hencode : Database.encode? database id with
    | none =>
      obtain ⟨hunsent, hchannel⟩ := ih hopen
      rw [List.filterMap_cons_none hencode]
      exact ⟨hunsent, hchannel⟩
    | some data =>
      have hsend : channel.send? ⟨link, data⟩ =
          some { channel with queue := channel.queue ++ [⟨link, data⟩] } := by
        unfold Channel.send?
        rw [hopen]
      have hopen' : ({ channel with queue := channel.queue ++ [⟨link, data⟩] } :
          Channel Transmission).room = none := hopen
      obtain ⟨hunsent, hchannel⟩ := ih hopen'
      rw [List.filterMap_cons_some hencode]
      dsimp only
      rw [hsend]
      refine ⟨hunsent, ?_⟩
      change (sendAll database link ids _).value.channel = _
      rw [hchannel, frames, List.map_cons, List.append_assoc, List.singleton_append]

/-- What is sent of a row of LSPs are stored LSPs. -/
theorem exists_stored_of_mem_frames {database : Database} {link : String} {ids : List LspId}
    {transmission : Transmission} (h : transmission ∈ frames database link ids) :
    ∃ key lsp, database.find? key = some lsp ∧ transmission.data = lsp.encode := by
  obtain ⟨data, hdata, rfl⟩ := List.mem_map.1 h
  obtain ⟨id, -, hencode⟩ := List.mem_filterMap.1 hdata
  obtain ⟨lsp, hlsp, hdata⟩ := Option.map_eq_some_iff.1 hencode
  exact ⟨id.key, lsp, hlsp, hdata.symm⟩

/-- A stored LSP of the row is sent. -/
theorem mem_frames {database : Database} {link : String} {ids : List LspId} {id : LspId} {lsp : Lsp}
    (hid : id ∈ ids) (hstored : database.find? id.key = some lsp) :
    ⟨link, lsp.encode⟩ ∈ frames database link ids := by
  refine List.mem_map.2 ⟨lsp.encode, List.mem_filterMap.2 ⟨id, hid, ?_⟩, rfl⟩
  unfold Database.encode? Database.lsp?
  rw [hstored]
  rfl

/-- A scan replaces a link, by one without the flags of what has been sent on it. -/
theorem scan_value {position : Nat} {link : Link} (hlink : inst.links[position]? = some link) :
    (inst.scan position).value.2 = { inst with
      links := inst.links.set position
        ((sendAll inst.database link.name link.takeFlagged.1
          inst.transmissions).value.unsent.foldl (fun link id => link.setFlag id true)
            link.takeFlagged.2)
      transmissions := (sendAll inst.database link.name link.takeFlagged.1
        inst.transmissions).value.channel } := by
  unfold scan
  rw [hlink]
  dsimp only
  rw [Traced.value_bind]
  split <;> rfl

/-- A scan of a link on an open channel: the stored ones of the flagged LSPs are sent, and the flags
are cleared. -/
theorem scan_open {position : Nat} {link : Link} (hlink : inst.links[position]? = some link)
    (hopen : inst.transmissions.room = none) :
    (inst.scan position).value.2 = { inst with
      links := inst.links.set position link.takeFlagged.2
      transmissions := { inst.transmissions with
        queue := inst.transmissions.queue ++
          frames inst.database link.name link.takeFlagged.1 } } := by
  obtain ⟨hunsent, hchannel⟩ :=
    sendAll_open inst.database link.name link.takeFlagged.1 hopen
  rw [scan_value hlink, hunsent, hchannel]
  rfl

/-- A scan on an open channel sends the flagged LSPs of its link and clears their flags. -/
theorem scan_sends (inst : Instance) (position : Nat) (hopen : inst.transmissions.room = none)
    (hfiled : inst.FlagsFiled) :
    (∃ sent, Sends inst (inst.scan position).value.2 sent) ∧
      originations (inst.scan position).records = [] := by
  refine ⟨?_, originations_scan position⟩
  cases hlink : inst.links[position]? with
  | none =>
    unfold scan
    rw [hlink]
    refine ⟨[], rfl, rfl, rfl, rfl, ?_, fun _ h => absurd h List.not_mem_nil,
      fun name key lsp hflagged _ => Or.inl hflagged, id⟩
    change inst.transmissions = _
    rw [List.append_nil]
  | some link =>
    have hafter := scan_open hlink hopen
    have hmem : link ∈ inst.links := List.mem_of_getElem? hlink
    have hcleared : link.takeFlagged.2 ∈ inst.links.set position link.takeFlagged.2 :=
      mem_set_self link.takeFlagged.2 hlink
    refine ⟨frames inst.database link.name link.takeFlagged.1, ?_⟩
    rw [hafter]
    refine ⟨rfl, names_set hlink Link.name_takeFlagged, rfl, rfl, rfl,
      fun transmission h => exists_stored_of_mem_frames h, ?_, fun h other hother => ?_⟩
    · -- Only the flags of the scanned link can be cleared, and only if it is up.
      rintro name key lsp ⟨other, hother, hname, hflagged⟩ hstored
      rcases eq_or_mem_set link.takeFlagged.2 hlink hother with rfl | hother
      · cases hup : other.adjacency.isUp with
        | false =>
          refine Or.inl ⟨_, hcleared, Link.name_takeFlagged.trans hname, ?_⟩
          rw [Link.isFlagged_takeFlagged, hup, hflagged]
          rfl
        | true =>
          obtain ⟨state, hentry, -⟩ := Link.isFlagged_iff.1 hflagged
          have hkey : key = state.id.key := hfiled other hmem _ hentry
          have hid : state.id ∈ other.takeFlagged.1 := by
            rw [Link.takeFlagged_fst, if_pos hup, Link.mem_flagged_iff (hfiled other hmem), ← hkey]
            exact hflagged
          exact Or.inr (hname ▸ mem_frames hid (hkey ▸ hstored))
      · exact Or.inl ⟨other, hother, hname, hflagged⟩
    · rcases List.mem_or_eq_of_mem_set hother with hother | rfl
      · exact h other hother
      · exact (h link hmem).takeFlagged

end Instance

end LinkState
