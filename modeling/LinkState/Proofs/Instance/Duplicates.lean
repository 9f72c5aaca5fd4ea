import Mathlib.Data.List.Induction
import LinkState.Proofs.Flooding.Invariant
import LinkState.Proofs.Instance.FloodTables
import LinkState.Proofs.Instance.Recency
import LinkState.Proofs.Wire.Relay

/-!
# No LSP is accepted or sent twice

What has been seen of an LSP is said in pairs of a link and a sequence number: where it was accepted
under which number (`accepted`), and where it was sent under which number (`sent`). Once a link has
seen a number, the database holds that number or a greater one, and as long as it is the one that
the database holds, the LSP is not flagged on the link (`Spent`).

This is kept by everything that happens (`Orderly.perform`). An accepted LSP is more recent than all
that has been seen of it, and it is flagged on every link but the one that it came from
(`Orderly.accept`). A scan sends what is flagged, under the number that the database holds, and
clears the flags of the link (`Orderly.scan`). Since links have different names, no other link keeps
them for it (`flagged_scan`). So the numbers that are accepted increase, and so do those that are
sent on one link, and nothing is sent back on the link that it was accepted on (`flooding_once`).
-/

namespace LinkState.Instance

/-! ### What has been seen of an LSP -/

/-- The sequence number of the LSP that a frame carries, if it has the given LSP ID. -/
def carried? (id : LspId) (frame : Octets) : Option UInt32 :=
  match Lsp.decode frame 0 with
  | .ok lsp => if lsp.id = id then some lsp.seqno else none
  | .error _ => none

/-- The link on which an operation accepts an LSP with the given LSP ID, and its sequence number, if
it does. -/
def acceptance? (inst : Instance) (id : LspId) : Operation → Option (String × UInt32)
  | .receive name frame =>
    match (inst.receive name frame).value.1 with
    | .ok .installed => (carried? id frame).map fun seqno => (name, seqno)
    | _ => none
  | _ => none

/-- The links on which LSPs with the given LSP ID are accepted in a row of operations, each with the
sequence number, the earliest first. -/
def accepted (id : LspId) : Instance → List Operation → List (String × UInt32)
  | _, [] => []
  | inst, operation :: operations =>
    (inst.acceptance? id operation).toList ++ accepted id (inst.perform operation).value operations

/-- The links on which LSPs with the given LSP ID have been sent, each with the sequence number, the
earliest first. -/
def sent (inst : Instance) (id : LspId) : List (String × UInt32) :=
  inst.transmissions.queue.filterMap fun transmission =>
    (carried? id transmission.data).map fun seqno => (transmission.link, seqno)

/-- The database holds a sequence number that a link has seen, or a greater one. As long as it is
that very number, the LSP is not to be sent on the link. -/
def Spent (inst : Instance) (id : LspId) (seen : String × UInt32) : Prop :=
  ∃ present, inst.database.lsp? id = some present ∧ seen.2 ≤ present.seqno ∧
    (present.seqno = seen.2 → ¬inst.Flagged seen.1 id.key)

/-- What has been accepted of an LSP and what has been sent of it is in order, and every frame that
has been sent carries an LSP of the router's own or can be read. -/
structure Orderly (own id : LspId) (accepted : List (String × UInt32)) (inst : Instance) :
    Prop where
  room_eq : inst.transmissions.room = none
  spent : ∀ seen ∈ accepted ++ inst.sent id, inst.Spent id seen
  acceptedOnce : accepted.Pairwise fun a b => a.2 < b.2
  sentOnce : (inst.sent id).Pairwise fun a b => a.1 = b.1 → a.2 < b.2
  disjoint : accepted.Disjoint (inst.sent id)
  framed : ∀ transmission ∈ inst.transmissions.queue, ∃ lsp, transmission.data = lsp.encode ∧
    (lsp.id = own ∨ Lsp.decode transmission.data 0 = .ok lsp)

/-- Nothing has happened to an LSP, but it may no longer be flagged on a link. -/
structure Untouched (id : LspId) (before after : Instance) : Prop where
  lsp?_eq : after.database.lsp? id = before.database.lsp? id
  transmissions_eq : after.transmissions = before.transmissions
  flagged : ∀ name, after.Flagged name id.key → before.Flagged name id.key

variable {config : InstanceConfig} {inst after : Instance} {own id : LspId}
  {accepted : List (String × UInt32)} {lsp : Lsp} {name : String}

/-- The sequence number is that of the LSP that the frame carries. -/
theorem carried?_eq_some_iff {frame : Octets} {seqno : UInt32} :
    carried? id frame = some seqno ↔
      ∃ lsp, Lsp.decode frame 0 = .ok lsp ∧ lsp.id = id ∧ lsp.seqno = seqno := by
  unfold carried?
  cases Lsp.decode frame 0 with
  | error reason => exact ⟨(fun h => by cases h), fun ⟨_, h, _⟩ => by cases h⟩
  | ok lsp =>
    dsimp only
    constructor
    · intro h
      split at h
      · rename_i hid
        exact ⟨lsp, rfl, hid, Option.some.inj h⟩
      · cases h
    · rintro ⟨other, hother, rfl, rfl⟩
      cases hother
      rw [if_pos rfl]

/-- Only an LSP that is stored is accepted. -/
theorem acceptance?_of_installed {frame : Octets}
    (h : (inst.receive name frame).value.1 = .ok .installed) :
    inst.acceptance? id (.receive name frame) =
      (carried? id frame).map fun seqno => (name, seqno) := by
  rw [acceptance?, h]

/-- A frame that is passed over is not. -/
theorem acceptance?_of_not_installed {frame : Octets}
    (h : (inst.receive name frame).value.1 ≠ .ok .installed) :
    inst.acceptance? id (.receive name frame) = none := by
  rw [acceptance?]
  split
  · rename_i hinstalled
    exact absurd hinstalled h
  · rfl

/-- What the last operation accepts comes last. -/
theorem accepted_concat (inst : Instance) (operations : List Operation) (operation : Operation) :
    inst.accepted id (operations ++ [operation]) =
      inst.accepted id operations ++
        ((inst.run operations).value.acceptance? id operation).toList := by
  induction operations generalizing inst with
  | nil => exact List.append_nil _
  | cons first operations ih =>
    rw [List.cons_append, Instance.accepted, ih, Instance.accepted, List.append_assoc]
    rfl

/-! ### Operations that do not concern the LSP -/

/-- Nothing has happened if the instance is the same one. -/
theorem Untouched.refl (inst : Instance) : Untouched id inst inst := ⟨rfl, rfl, fun _ h => h⟩

/-- Nor has anything happened if nothing did in two steps. -/
theorem Untouched.trans {last : Instance} (h : Untouched id inst after)
    (hlast : Untouched id after last) : Untouched id inst last :=
  ⟨hlast.lsp?_eq.trans h.lsp?_eq, hlast.transmissions_eq.trans h.transmissions_eq,
    fun name hflagged => h.flagged name (hlast.flagged name hflagged)⟩

/-- What makes no difference for flooding makes none for an LSP. -/
theorem Idle.untouched (h : Idle inst after) : Untouched id inst after where
  lsp?_eq := by rw [h.database_eq]
  transmissions_eq := h.transmissions_eq
  flagged name := (h.flagged_iff name id.key).1

/-- Storing another LSP makes none either. -/
theorem Stores.untouched {chosen : String → Bool} (h : Stores inst after lsp chosen)
    (hvalid : inst.database.Valid) (hother : id ≠ lsp.id) : Untouched id inst after := by
  have hkey : id.key ≠ lsp.key := fun heq => hother (LspId.key_inj heq)
  refine ⟨?_, h.transmissions_eq, fun name hflagged => ?_⟩
  · rw [Database.lsp?, h.find?_eq hvalid, if_neg hkey]
    rfl
  · rw [h.flagged_iff, if_neg hkey] at hflagged
    exact hflagged

/-- What has been seen of an LSP that nothing happens to stays in order. -/
theorem Orderly.untouched (h : Orderly own id accepted inst) (hsame : Untouched id inst after) :
    Orderly own id accepted after := by
  have hsent : after.sent id = inst.sent id := by rw [sent, hsame.transmissions_eq, sent]
  refine ⟨hsame.transmissions_eq ▸ h.room_eq, fun seen hseen => ?_, h.acceptedOnce,
    hsent ▸ h.sentOnce, hsent ▸ h.disjoint, hsame.transmissions_eq ▸ h.framed⟩
  obtain ⟨present, hpresent, hle, hcleared⟩ := h.spent seen (hsent ▸ hseen)
  exact ⟨present, hsame.lsp?_eq.trans hpresent, hle,
    fun heq hflagged => hcleared heq (hsame.flagged _ hflagged)⟩

/-! ### Accepting the LSP -/

/-- A more recent LSP that is stored and not flagged on the link it came from leaves what has been
seen in order, itself included. -/
theorem Orderly.accept (h : Orderly own lsp.id accepted inst) (hvalid : inst.database.Valid)
    (hstores : Stores inst after lsp fun other => other ≠ name)
    (hnewer : ∀ present, inst.database.lsp? lsp.id = some present → present.seqno < lsp.seqno) :
    Orderly own lsp.id (accepted ++ [(name, lsp.seqno)]) after := by
  have hsent : after.sent lsp.id = inst.sent lsp.id := by
    rw [sent, hstores.transmissions_eq, sent]
  have hstored : after.database.lsp? lsp.id = some lsp :=
    (hstores.find?_eq hvalid lsp.key).trans (if_pos rfl)
  -- All that has been seen before is less recent.
  have holder : ∀ seen ∈ accepted ++ inst.sent lsp.id, seen.2 < lsp.seqno := by
    intro seen hseen
    obtain ⟨present, hpresent, hle, -⟩ := h.spent seen hseen
    exact UInt32.lt_of_le_of_lt hle (hnewer present hpresent)
  refine ⟨hstores.transmissions_eq ▸ h.room_eq, fun seen hseen => ?_, ?_, hsent ▸ h.sentOnce, ?_,
    hstores.transmissions_eq ▸ h.framed⟩
  · rw [hsent, List.append_assoc, List.mem_append, List.mem_append] at hseen
    have hcases : seen ∈ accepted ++ inst.sent lsp.id ∨ seen = (name, lsp.seqno) := by
      rw [List.mem_append]
      rcases hseen with hseen | hseen | hseen
      · exact Or.inl (Or.inl hseen)
      · exact Or.inr (List.mem_singleton.1 hseen)
      · exact Or.inl (Or.inr hseen)
    rcases hcases with hseen | rfl
    · have hlt := holder seen hseen
      exact ⟨lsp, hstored, UInt32.le_of_lt hlt,
        fun heq => absurd hlt (heq ▸ UInt32.lt_irrefl lsp.seqno)⟩
    · refine ⟨lsp, hstored, UInt32.le_refl _, fun _ hflagged => ?_⟩
      have hkey : lsp.id.key = lsp.key := rfl
      rw [hstores.flagged_iff, if_pos hkey] at hflagged
      exact of_decide_eq_true hflagged.2 rfl
  · refine List.pairwise_append.2 ⟨h.acceptedOnce, List.pairwise_singleton _ _, ?_⟩
    intro seen hseen last hlast
    rw [List.mem_singleton.1 hlast]
    exact holder seen (List.mem_append_left _ hseen)
  · rw [hsent, List.disjoint_append_left, List.singleton_disjoint]
    exact ⟨h.disjoint, fun hmem => UInt32.lt_irrefl _ (holder _ (List.mem_append_right _ hmem))⟩

/-! ### Scanning a link -/

/-- A scan on an open channel sets no flag. If the link is up, then no flag is left under its name,
since no other link has it. -/
theorem flagged_scan {position : Nat} {link : Link} (hlink : inst.links[position]? = some link)
    (hopen : inst.transmissions.room = none) :
    (∀ name key, (inst.scan position).value.2.Flagged name key → inst.Flagged name key) ∧
      (inst.names.Nodup → link.adjacency.isUp →
        ∀ key, ¬(inst.scan position).value.2.Flagged link.name key) := by
  rw [scan_open hlink hopen]
  constructor
  · rintro name key ⟨other, hother, hname, hflagged⟩
    rcases List.mem_or_eq_of_mem_set hother with hother | rfl
    · exact ⟨other, hother, hname, hflagged⟩
    · rw [Link.isFlagged_takeFlagged, Bool.and_eq_true] at hflagged
      exact ⟨link, List.mem_of_getElem? hlink, Link.name_takeFlagged.symm.trans hname, hflagged.2⟩
  · rintro hnodup hup key ⟨other, hother, hname, hflagged⟩
    obtain ⟨i, hi⟩ := List.mem_iff_getElem?.1 hother
    by_cases heq : position = i
    · subst heq
      rw [List.getElem?_set_self (List.getElem?_eq_some_iff.1 hlink).1] at hi
      cases hi
      rw [Link.isFlagged_takeFlagged, hup] at hflagged
      cases hflagged
    · -- Another link would have the same name at another position.
      rw [List.getElem?_set_ne heq] at hi
      have hnames : inst.names[position]? = inst.names[i]? := by
        unfold names
        rw [List.getElem?_map, List.getElem?_map, hlink, hi, Option.map_some, Option.map_some,
          hname]
      have hlt : position < inst.names.length :=
        List.length_map Link.name ▸ (List.getElem?_eq_some_iff.1 hlink).1
      exact heq ((List.getElem?_inj hlt hnodup).1 hnames)

/-- Of a row without repetitions there is at most one result if only one element has any. -/
theorem filterMap_cases {α β : Type u} {f : α → Option β} {a : α} {list : List α}
    (hnodup : list.Nodup) (hothers : ∀ other, other ≠ a → f other = none) :
    list.filterMap f = [] ∨ a ∈ list ∧ ∃ b, f a = some b ∧ list.filterMap f = [b] := by
  induction list with
  | nil => exact Or.inl rfl
  | cons first rest ih =>
    obtain ⟨hfirst, hrest⟩ := List.nodup_cons.1 hnodup
    by_cases heq : first = a
    · subst heq
      have hnone : rest.filterMap f = [] := List.filterMap_eq_nil_iff.2 fun other hother =>
        hothers other fun heq => hfirst (heq ▸ hother)
      cases hf : f first with
      | none => exact Or.inl (by rw [List.filterMap_cons_none hf, hnone])
      | some b =>
        exact Or.inr ⟨List.mem_cons_self, b, rfl, by rw [List.filterMap_cons_some hf, hnone]⟩
    · rw [List.filterMap_cons_none (hothers first heq)]
      exact (ih hrest).imp_right (And.imp_left (List.mem_cons_of_mem first))

/-- The octets of a stored LSP carry that LSP, under the sequence number that the database holds. -/
theorem carried?_encode? {database : Database} (hfiled : database.Filed)
    (hvalid : database.Valid) {other : LspId} {data : Octets} {seqno : UInt32}
    (hdata : Database.encode? database other = some data)
    (hcarried : carried? id data = some seqno) :
    other = id ∧ ∃ present, database.lsp? id = some present ∧ seqno = present.seqno := by
  obtain ⟨present, hpresent, rfl⟩ := Option.map_eq_some_iff.1 hdata
  obtain ⟨found, hfound, rfl, rfl⟩ := carried?_eq_some_iff.1 hcarried
  obtain ⟨hid, hseqno⟩ := Lsp.id_eq_of_decode_encode hfound
  have hother : other = found.id := by
    rw [hid]
    exact LspId.key_inj (hfiled _ (hvalid.find?_eq_some_iff.1 hpresent))
  exact ⟨hother, present, hother ▸ hpresent, hseqno⟩

/-- A scan sends nothing of an LSP, or it sends the LSP once, under the sequence number that the
database holds. The LSP is flagged on the link then, and the link is up. -/
theorem sent_scan (hmirrored : Mirrored inst) {position : Nat} {link : Link}
    (hlink : inst.links[position]? = some link) (hopen : inst.transmissions.room = none) :
    (inst.scan position).value.2.sent id = inst.sent id ∨
      ∃ present, inst.database.lsp? id = some present ∧ link.adjacency.isUp ∧
        inst.Flagged link.name id.key ∧
        (inst.scan position).value.2.sent id = inst.sent id ++ [(link.name, present.seqno)] := by
  have hmem : link ∈ inst.links := List.mem_of_getElem? hlink
  have hflags : link.Filed := (hmirrored.mirrors link hmem).filed
  let seen? (other : LspId) : Option (String × UInt32) :=
    (Database.encode? inst.database other).bind fun data =>
      (carried? id data).map fun seqno => (link.name, seqno)
  have hsent : (inst.scan position).value.2.sent id =
      inst.sent id ++ link.takeFlagged.1.filterMap seen? := by
    rw [scan_open hlink hopen, sent, List.filterMap_append, frames, List.filterMap_map,
      List.filterMap_filterMap]
    rfl
  have hseen {other : LspId} {seen : String × UInt32} (h : seen? other = some seen) :
      other = id ∧ ∃ present, inst.database.lsp? id = some present ∧
        seen = (link.name, present.seqno) := by
    obtain ⟨data, hdata, hcarried⟩ := Option.bind_eq_some_iff.1 h
    obtain ⟨seqno, hseqno, rfl⟩ := Option.map_eq_some_iff.1 hcarried
    obtain ⟨hother, present, hpresent, rfl⟩ :=
      carried?_encode? hmirrored.filed hmirrored.valid hdata hseqno
    exact ⟨hother, present, hpresent, rfl⟩
  have hothers : ∀ other, other ≠ id → seen? other = none := fun other hne =>
    Option.eq_none_iff_forall_ne_some.2 fun seen h => hne (hseen h).1
  rw [hsent, Link.takeFlagged_fst]
  split
  · rename_i hup
    rcases filterMap_cases (Link.nodup_flagged hflags) hothers with hnone |
      ⟨hflagged, seen, hsome, hone⟩
    · exact Or.inl (by rw [hnone, List.append_nil])
    · obtain ⟨-, present, hpresent, rfl⟩ := hseen hsome
      exact Or.inr ⟨present, hpresent, hup,
        ⟨link, hmem, rfl, (Link.mem_flagged_iff hflags).1 hflagged⟩, by rw [hone]⟩
  · exact Or.inl (List.append_nil _)

/-- A scan sends what is flagged and clears the flags, which leaves what has been seen of an LSP in
order. -/
theorem Orderly.scan (h : Orderly own id accepted inst) (hmirrored : Mirrored inst)
    (hnodup : inst.names.Nodup)
    (hlegible : ∀ key lsp, inst.database.find? key = some lsp →
      lsp.id = own ∨ Lsp.decode lsp.encode 0 = .ok lsp) (position : Nat) :
    Orderly own id accepted (inst.scan position).value.2 := by
  cases hlink : inst.links[position]? with
  | none =>
    unfold Instance.scan
    rw [hlink]
    exact h
  | some link =>
    have hvalue := scan_open hlink h.room_eq
    have hdatabase : (inst.scan position).value.2.database = inst.database := by rw [hvalue]
    have hroom : (inst.scan position).value.2.transmissions.room = none := by
      rw [hvalue]
      exact h.room_eq
    obtain ⟨hkept, hcleared⟩ := flagged_scan hlink h.room_eq
    have hspent {seen : String × UInt32} (hseen : inst.Spent id seen) :
        (inst.scan position).value.2.Spent id seen := by
      obtain ⟨present, hpresent, hle, hnot⟩ := hseen
      exact ⟨present, hdatabase ▸ hpresent, hle, fun heq hflagged => hnot heq (hkept _ _ hflagged)⟩
    have hframed : ∀ transmission ∈ (inst.scan position).value.2.transmissions.queue,
        ∃ lsp, transmission.data = lsp.encode ∧
          (lsp.id = own ∨ Lsp.decode transmission.data 0 = .ok lsp) := by
      rw [hvalue]
      intro transmission htransmission
      rcases List.mem_append.1 htransmission with hold | hnew
      · exact h.framed transmission hold
      · obtain ⟨key, lsp, hlsp, hdata⟩ := exists_stored_of_mem_frames hnew
        exact ⟨lsp, hdata, hdata ▸ hlegible key lsp hlsp⟩
    rcases sent_scan hmirrored hlink h.room_eq with hsent |
      ⟨present, hpresent, hup, hflagged, hsent⟩
    · exact ⟨hroom, fun seen hseen => hspent (h.spent seen (hsent ▸ hseen)), h.acceptedOnce,
        hsent ▸ h.sentOnce, hsent ▸ h.disjoint, hframed⟩
    · -- What the link has seen before is less recent, since the LSP is still flagged on it.
      have holder : ∀ seen ∈ accepted ++ inst.sent id, seen.1 = link.name →
          seen.2 < present.seqno := by
        rintro seen hseen hname
        obtain ⟨found, hfound, hle, hnot⟩ := h.spent seen hseen
        cases hpresent.symm.trans hfound
        refine UInt32.lt_of_le_of_ne hle fun heq => hnot heq.symm ?_
        rw [hname]
        exact hflagged
      have hnew : (inst.scan position).value.2.Spent id (link.name, present.seqno) :=
        ⟨present, hdatabase ▸ hpresent, UInt32.le_refl _, fun _ => hcleared hnodup hup id.key⟩
      refine ⟨hroom, fun seen hseen => ?_, h.acceptedOnce, ?_, ?_, hframed⟩
      · rw [hsent, ← List.append_assoc, List.mem_append, List.mem_singleton] at hseen
        rcases hseen with hseen | rfl
        · exact hspent (h.spent seen hseen)
        · exact hnew
      · rw [hsent]
        refine List.pairwise_append.2 ⟨h.sentOnce, List.pairwise_singleton _ _, ?_⟩
        intro seen hseen last hlast hsame
        rw [List.mem_singleton.1 hlast] at hsame ⊢
        exact holder seen (List.mem_append_right _ hseen) hsame
      · rw [hsent, List.disjoint_append_right, List.disjoint_singleton]
        exact ⟨h.disjoint, fun hmem =>
          UInt32.lt_irrefl _ (holder _ (List.mem_append_left _ hmem) rfl)⟩

/-! ### Runs -/

/-- Nothing has been seen before the first operation. -/
theorem orderly_ofConfig (config : InstanceConfig) : Orderly own id [] (ofConfig config) where
  room_eq := rfl
  spent _ h := absurd h List.not_mem_nil
  acceptedOnce := .nil
  sentOnce := .nil
  disjoint := List.disjoint_nil_left _
  framed _ h := absurd h List.not_mem_nil

/-- A shortest-path run does not concern any LSP. -/
theorem untouched_runSpf {asked : Instance} (hsame : Untouched id inst asked) (now : Timestamp) :
    Untouched id inst (asked.runSpf now).value.2 := by
  rw [runSpf_value]
  split
  · exact hsame
  · exact ⟨hsame.lsp?_eq, hsame.transmissions_eq, hsame.flagged⟩

/-- A frame that arrives is passed over, carries another LSP, or has its LSP accepted. -/
theorem Orderly.receive (h : Orderly own id accepted inst) (hvalid : inst.database.Valid)
    (name : String) (frame : Octets) :
    Orderly own id (accepted ++ (inst.acceptance? id (.receive name frame)).toList)
      (inst.receive name frame).value.2 := by
  rcases (inst.receive_value name frame).2 with ⟨hnot, hvalue, -⟩ |
    ⟨reading, -, hread, hnewer, hinstalled, hvalue⟩
  · rw [acceptance?_of_not_installed hnot, hvalue, Option.toList_none, List.append_nil]
    exact h
  · have hdecode : Lsp.decode frame 0 = .ok reading.lsp :=
      Lsp.decode_eq_ok_iff.2 ⟨reading, hread, rfl⟩
    have hstores : Stores inst (inst.receive name frame).value.2 reading.lsp
        fun other => other ≠ name := by
      rw [hvalue]
      exact stores_of_setFlag rfl rfl rfl rfl
    rw [acceptance?_of_installed hinstalled]
    by_cases hsame : reading.lsp.id = id
    · subst hsame
      rw [carried?_eq_some_iff.2 ⟨reading.lsp, hdecode, rfl, rfl⟩]
      exact h.accept hvalid hstores hnewer
    · have hnone : carried? id frame = none := by
        rw [carried?, hdecode]
        exact if_neg hsame
      rw [hnone, Option.map_none, Option.toList_none, List.append_nil]
      exact h.untouched (hstores.untouched hvalid (Ne.symm hsame))

/-- Every operation leaves what has been seen of an LSP in order that is not the router's own. -/
theorem Orderly.perform (h : Orderly (.ofSystem inst.systemId) id accepted inst)
    (hmirrored : Mirrored inst) (hnodup : inst.names.Nodup)
    (hlegible : ∀ key lsp, inst.database.find? key = some lsp →
      lsp.id = .ofSystem inst.systemId ∨ Lsp.decode lsp.encode 0 = .ok lsp)
    (hid : id ≠ .ofSystem inst.systemId) (operation : Operation) :
    Orderly (.ofSystem inst.systemId) id (accepted ++ (inst.acceptance? id operation).toList)
      (inst.perform operation).value := by
  -- Only what arrives can be accepted.
  have hquiet {after : Instance} (hsame : Untouched id inst after) :
      Orderly (.ofSystem inst.systemId) id (accepted ++ none.toList) after := by
    rw [Option.toList_none, List.append_nil]
    exact h.untouched hsame
  cases operation with
  | receive name frame => exact h.receive hmirrored.valid name frame
  | originate => exact hquiet (inst.originate_stores.2.1.untouched hmirrored.valid hid)
  | changeAdjacency now name adjacency =>
    refine hquiet ?_
    rw [Instance.perform, Traced.value_map]
    obtain ⟨taken, links, rfl, hidle, ⟨hvalue, -⟩ | ⟨hvalue, -⟩⟩ :=
      inst.changeAdjacency_cases now name adjacency
    · rw [hvalue]
      exact hidle.untouched
    · rw [hvalue]
      exact hidle.untouched.trans ((originate_stores _).2.1.untouched hmirrored.valid hid)
  | scan position =>
    have hscan := h.scan hmirrored hnodup hlegible position
    rw [← List.append_nil accepted] at hscan
    exact hscan
  | runSpf now => exact hquiet (untouched_runSpf (.refl inst) now)
  | serve clock =>
    refine hquiet ?_
    obtain ⟨-, ⟨-, hvalue⟩ | ⟨-, hvalue⟩⟩ := inst.serve_value clock
    · rw [hvalue]
      exact .refl inst
    · have hdrained : Untouched id inst { inst with triggers := inst.triggers.drained } :=
        ⟨rfl, rfl, fun _ hflagged => hflagged⟩
      rw [hvalue]
      exact untouched_runSpf hdrained _

/-- An LSP that is stored is the router's own, or it is read back from its octets. -/
theorem Accounted.legible {operations : List Operation} {originated : List Lsp}
    (h : Accounted config operations originated inst) {key : UInt64}
    (hlsp : inst.database.find? key = some lsp) :
    lsp.id = .ofSystem config.systemId ∨ Lsp.decode lsp.encode 0 = .ok lsp := by
  rcases h.stored key lsp hlsp with ⟨name, frame, -, hdecode⟩ | horiginated
  · obtain ⟨-, _, -, -, -, hagain⟩ := Lsp.encode_of_decode hdecode
    exact Or.inr hagain
  · exact Or.inl (h.own lsp horiginated).1

/-- After every run, what has been seen of an LSP that is not the router's own is in order. -/
theorem orderly_run (hnames : (config.links.map (·.name)).Nodup)
    (hid : id ≠ .ofSystem config.systemId) (operations : List Operation) :
    Orderly (.ofSystem config.systemId) id ((ofConfig config).accepted id operations)
      ((ofConfig config).run operations).value := by
  induction operations using List.reverseRecOn with
  | nil => exact orderly_ofConfig config
  | append_singleton operations operation ih =>
    have haccounted := accounted_run config operations
    have hown : config.systemId = ((ofConfig config).run operations).value.systemId :=
      congrArg InstanceConfig.systemId haccounted.config_eq.symm
    have hnodup : ((ofConfig config).run operations).value.names.Nodup := by
      rw [names_run, names_ofConfig]
      exact hnames
    have hlegible : ∀ key lsp, ((ofConfig config).run operations).value.database.find? key =
        some lsp → lsp.id = .ofSystem config.systemId ∨ Lsp.decode lsp.encode 0 = .ok lsp :=
      fun key lsp hlsp => haccounted.legible hlsp
    rw [run_concat, Traced.value_bind, accepted_concat]
    rw [hown] at ih hid hlegible ⊢
    exact ih.perform ((mirrored_ofConfig config none).run operations) hnodup hlegible hid operation

/-- In every run of a router whose links have different names, and for every LSP ID but its own, the
sequence numbers increase under which LSPs with that ID are accepted, and so do those under which
they are sent on one link. So each is accepted at most once and sent at most once on every link, and
none is sent on the link that it was accepted on. Every frame that is sent carries an LSP of the
router's own or can be read. -/
theorem flooding_once (config : InstanceConfig) (hnames : (config.links.map (·.name)).Nodup)
    (operations : List Operation) (id : LspId) (hid : id ≠ .ofSystem config.systemId) :
    let accepted := (ofConfig config).accepted id operations
    let after := ((ofConfig config).run operations).value
    accepted.Pairwise (fun a b => a.2 < b.2) ∧
      (after.sent id).Pairwise (fun a b => a.1 = b.1 → a.2 < b.2) ∧
      (accepted.map (·.2)).Nodup ∧ (after.sent id).Nodup ∧
      accepted.Disjoint (after.sent id) ∧
      ∀ transmission ∈ after.transmissions.queue, ∃ lsp, transmission.data = lsp.encode ∧
        (lsp.id = .ofSystem config.systemId ∨ Lsp.decode transmission.data 0 = .ok lsp) := by
  have h := orderly_run hnames hid operations
  intro accepted after
  refine ⟨h.acceptedOnce, h.sentOnce, List.pairwise_map.2 ?_, ?_, h.disjoint, h.framed⟩
  · exact h.acceptedOnce.imp UInt32.ne_of_lt
  · refine h.sentOnce.imp fun {a b} hlt heq => ?_
    subst heq
    exact UInt32.lt_irrefl _ (hlt rfl)

/-- Both links come up, the first LSP of the neighbor arrives on one of them and the second on the
other one, then the first LSP comes again, and the links are scanned in between. -/
def relayed : List Operation :=
  [completed 10, .changeAdjacency ⟨0, 0⟩ "f" ⟨.up, some ⟨0, 0, 0, 0, 0, 3⟩, 20, none, none⟩,
    .receive "e" introduction.encode, .scan 0, .scan 1, .receive "f" connected.encode,
    .receive "e" introduction.encode, .scan 0, .scan 1]

/-- Each of the two LSPs is sent once, on the link that it did not come from. -/
theorem flooding_once_relayed :
    let after := ((ofConfig double).run relayed).value
    let accepted := (ofConfig double).accepted introduction.id relayed
    (double.links.map (·.name)).Nodup ∧ introduction.id ≠ .ofSystem double.systemId ∧
      accepted = [("e", 1), ("f", 2)] ∧ after.sent introduction.id = [("f", 1), ("e", 2)] ∧
      accepted.Pairwise (fun a b => a.2 < b.2) ∧
      (after.sent introduction.id).Pairwise (fun a b => a.1 = b.1 → a.2 < b.2) ∧
      (accepted.map (·.2)).Nodup ∧ (after.sent introduction.id).Nodup ∧
      accepted.Disjoint (after.sent introduction.id) ∧
      ∀ transmission ∈ after.transmissions.queue, ∃ lsp, transmission.data = lsp.encode ∧
        (lsp.id = .ofSystem double.systemId ∨ Lsp.decode transmission.data 0 = .ok lsp) := by
  have hnames : (double.links.map (·.name)).Nodup := by decide
  have hid : introduction.id ≠ .ofSystem double.systemId := by decide
  exact ⟨hnames, hid, by decide +kernel, by decide +kernel,
    flooding_once double hnames relayed introduction.id hid⟩

end LinkState.Instance
