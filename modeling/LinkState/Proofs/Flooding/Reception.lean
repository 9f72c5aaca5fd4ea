import Mathlib.Data.List.Forall2
import LinkState.Proofs.Flooding.Scan
import LinkState.Proofs.Wire.Codec

/-!
# Receiving an LSP is all or nothing

An LSP that is received is accepted or it is not. `Instance.Admits` is all that an acceptance does:
one key of the database, one entry of every link and one request to the shortest-path worker. Where
the tree and the tables put these makes no difference, since only lookups are compared: the database
finds the LSP under its key and what it found before under every other one, and so does every link
with its flags (`Link.Filed.sets_setFlag`). If the LSP is not accepted, nothing happens at all
(`Instance.receive_value`), and the answer says why (`Instance.receive_refused`).

What decides is the link, the octets and the stored LSP with the same ID. In a reachable state the
database files every LSP under its own key (`Interleaving.Reachable.filed`), so that looking up the
key finds the LSP with that ID if there is one (`Interleaving.receive_allOrNothing`).
-/

namespace LinkState

/-- A message that is offered is put at the end of the queue if the receiver takes one more. -/
theorem Channel.offer_eq {α : Type u} (channel : Channel α) (message : α) :
    channel.offer message =
      if channel.room = some 0 then channel else channel.extend [message] := by
  unfold offer
  split
  · rename_i hfull
    have hrefused : ¬channel.Takes 0 := fun htakes => Nat.lt_irrefl 0 (htakes 0 hfull)
    rw [send?_of_not_takes hrefused]
    rfl
  · rename_i hroom
    have htaken : channel.Takes 0 := by
      intro room hmem
      refine Nat.pos_of_ne_zero fun hzero => hroom ?_
      rw [← hzero]
      exact hmem
    rw [send?_of_takes htaken]
    rfl

/-- A link has an entry for an LSP with the given flag, and otherwise it is what it was. -/
structure Link.Sets (before after : Link) (id : LspId) (srm : Bool) : Prop where
  config_eq : after.config = before.config
  adjacency_eq : after.adjacency = before.adjacency
  find?_self : after.flags.find? id.key =
    some ⟨id, srm, (before.floodState? id).any (·.ssn)⟩
  find?_of_ne : ∀ key ≠ id.key, after.flags.find? key = before.flags.find? key

/-- Setting or clearing the flag of an LSP does only that. -/
theorem Link.Filed.sets_setFlag {link : Link} (h : link.Filed) (id : LspId) (srm : Bool) :
    link.Sets (link.setFlag id srm) id srm where
  config_eq := rfl
  adjacency_eq := rfl
  find?_self := by
    unfold Link.setFlag floodState?
    rw [Table.find?_insert, if_pos rfl]
    cases hfound : link.flags.find? id.key with
    | none => rfl
    | some state =>
      have hid : id = state.id := LspId.key_inj (h _ (Table.find?_eq_some_iff.1 hfound))
      rw [hid]
      rfl
  find?_of_ne key hkey := by
    unfold Link.setFlag
    rw [Table.find?_insert, if_neg fun hrank => hkey (Ranked.rank_inj hrank)]

namespace Instance

/-- An LSP that came in on the link with the given name has been accepted: it is stored under its
key, it is flagged on the other links, and the shortest-path worker is asked for a run. The worker
gets exactly one more request unless it is gone. -/
structure Admits (before after : Instance) (lsp : Lsp) (name : String) : Prop where
  database_find? : ∀ key, after.database.find? key =
    if key = lsp.key then some lsp else before.database.find? key
  links_sets : List.Forall₂ (fun old new => old.Sets new lsp.id (old.name ≠ name))
    before.links after.links
  triggers_eq : after.triggers =
    if before.triggers.room = some 0 then before.triggers else before.triggers.extend [⟨⟩]
  config_eq : after.config = before.config
  topology_eq : after.topology = before.topology
  routes_eq : after.routes = before.routes
  seqno_eq : after.seqno = before.seqno
  transmissions_eq : after.transmissions = before.transmissions
  installs_eq : after.installs = before.installs

variable {inst : Instance}

/-- Storing an LSP, flagging it on the other links and asking for a run accepts it. -/
theorem admits_flagElsewhere (hvalid : inst.database.Valid) (hfiled : inst.FlagsFiled) (lsp : Lsp)
    (name : String) :
    Admits inst (({ inst with database := Database.store inst.database lsp } :
      Instance).flagElsewhere lsp.id name).trigger lsp name where
  database_find? key := Avl.Map.find?_put hvalid key
  links_sets := by
    unfold trigger flagElsewhere
    dsimp only
    rw [List.forall₂_map_right_iff, List.forall₂_same]
    exact fun link hlink => (hfiled link hlink).sets_setFlag lsp.id _
  triggers_eq := Channel.offer_eq inst.triggers ⟨⟩
  config_eq := rfl
  topology_eq := rfl
  routes_eq := rfl
  seqno_eq := rfl
  transmissions_eq := rfl
  installs_eq := rfl

/-- A frame whose LSP is not installed names no link, cannot be decoded, or is discarded. -/
theorem receive_refused {name : String} {frame : Octets}
    (h : (inst.receive name frame).value.1 ≠ .ok .installed) :
    name ∉ inst.names ∧ (inst.receive name frame).value.1 = .error (.linkNotFound name) ∨
      (∃ reason, Lsp.decode frame 0 = .error reason ∧
        (inst.receive name frame).value.1 = .error (.undecodable name reason)) ∨
      (inst.receive name frame).value.1 = .ok .discarded := by
  unfold receive at h ⊢
  cases hindex : inst.linkIndex? name with
  | none => exact Or.inl ⟨linkIndex?_eq_none_iff.1 hindex, rfl⟩
  | some position =>
    rw [hindex] at h
    cases hread : Lsp.read frame 0 with
    | error reason =>
      have hdecode : Lsp.decode frame 0 = .error reason := by
        unfold Lsp.decode
        rw [hread]
        rfl
      exact Or.inr (Or.inl ⟨reason, hdecode, rfl⟩)
    | ok reading =>
      rw [hread] at h
      simp only [Traced.value_bind] at h ⊢
      -- Whatever is not stale is installed.
      rcases hinstall : inst.installLsp reading.lsp with ⟨stored, installation⟩
      rw [hinstall] at h
      cases installation with
      | stale => exact Or.inr (Or.inr rfl)
      | new | newer => exact absurd rfl h

end Instance

namespace Interleaving

variable {config : InstanceConfig} {state : State}

/-- In every reachable state, every LSP is stored under its own key. -/
theorem Reachable.filed (h : Reachable config state) : state.inst.database.Filed := by
  induction h with
  | initial room => exact fun _ hentry => absurd hentry List.not_mem_nil
  | @perform state h action ih =>
    have hvalid := h.backed.valid
    cases action with
    | updateAdjacency now position adjacency => exact ih
    | receive name frame =>
      rcases perform_receive state name frame with hsame | ⟨lsp, haccept⟩
      · rw [hsame]
        exact ih
      · rw [haccept]
        exact ih.store hvalid lsp
    | originate => exact ih.store hvalid _
    | scan position =>
      unfold Interleaving.perform
      dsimp only
      split <;> exact ih
    | resume call =>
      rcases perform_resume_cases state call with hsame | ⟨earlier, step, rest, later, -, hafter⟩
      · rw [hsame]
        exact ih
      · rw [hafter]
        dsimp only
        rw [(step.performs state.inst rest).1]
        exact ih
  | elsewhere h hconfig hlinks hdatabase hseqno ih =>
    dsimp only
    rw [hdatabase]
    exact ih

/-- In a reachable state, an LSP that is received is installed if and only if there is a link with
the given name, the octets are those of an LSP, and the database holds no LSP with its ID or an
older one. If so, it is accepted, which changes nothing but the LSP under its key, its flag on every
link and the requests to the shortest-path worker. Otherwise nothing changes, and the answer is one
of those for a missing link, for octets that are not an LSP and for an LSP that is not newer. -/
theorem receive_allOrNothing (h : Reachable config state) (name : String) (frame : Octets) :
    ((state.inst.receive name frame).value.1 = .ok .installed ↔
        name ∈ state.inst.names ∧ ∃ lsp, Lsp.decode frame 0 = .ok lsp ∧
          ∀ present ∈ state.inst.database.values, present.id = lsp.id →
            present.seqno < lsp.seqno) ∧
      ((state.inst.receive name frame).value.1 = .ok .installed →
        ∃ lsp, Lsp.decode frame 0 = .ok lsp ∧
          Instance.Admits state.inst (state.inst.receive name frame).value.2 lsp name) ∧
      ((state.inst.receive name frame).value.1 ≠ .ok .installed →
        (state.inst.receive name frame).value.2 = state.inst ∧
          (name ∉ state.inst.names ∧
              (state.inst.receive name frame).value.1 = .error (.linkNotFound name) ∨
            (∃ reason, Lsp.decode frame 0 = .error reason ∧
              (state.inst.receive name frame).value.1 = .error (.undecodable name reason)) ∨
            (state.inst.receive name frame).value.1 = .ok .discarded)) := by
  obtain ⟨hvalid, hflags, -, -⟩ := h.backed
  -- The code looks the key up, and the LSP with the ID is what is found there.
  have hnewer_iff (lsp : Lsp) : (∀ present ∈ state.inst.database.values, present.id = lsp.id →
        present.seqno < lsp.seqno) ↔
      ∀ present, state.inst.database.find? lsp.key = some present → present.seqno < lsp.seqno := by
    refine forall_congr' fun present => ?_
    rw [← and_imp]
    exact imp_congr_left (h.filed.lsp?_eq_some_iff hvalid).symm
  rcases (state.inst.receive_value name frame).2 with ⟨hanswer, hsame, hpassed⟩ |
    ⟨reading, hname, hread, hnewer, hanswer, hvalue⟩
  · refine ⟨⟨fun hinstalled => absurd hinstalled hanswer, ?_⟩,
      fun hinstalled => absurd hinstalled hanswer,
      fun _ => ⟨hsame, Instance.receive_refused hanswer⟩⟩
    rintro ⟨hname, lsp, hdecode, hnewer⟩
    obtain ⟨reading, hread, rfl⟩ := Lsp.decode_eq_ok_iff.1 hdecode
    obtain ⟨present, hpresent, hrecent⟩ := hpassed hname reading hread
    exact absurd ((hnewer_iff _).1 hnewer present hpresent) hrecent
  · have hdecode : Lsp.decode frame 0 = .ok reading.lsp :=
      Lsp.decode_eq_ok_iff.2 ⟨reading, hread, rfl⟩
    refine ⟨⟨fun _ => ⟨hname, reading.lsp, hdecode, (hnewer_iff _).2 hnewer⟩, fun _ => hanswer⟩,
      fun _ => ⟨reading.lsp, hdecode, ?_⟩, fun hnot => absurd hanswer hnot⟩
    rw [hvalue]
    exact Instance.admits_flagElsewhere hvalid hflags reading.lsp name

/-- The waiting router holds the first LSP of its neighbor, which came in on the second link. On the
first link the second LSP of the neighbor is accepted and the first one is not. -/
theorem receive_allOrNothing_waiting :
    Reachable Instance.double waiting ∧
      (∃ lsp, Lsp.decode Instance.connected.encode 0 = .ok lsp ∧
        Instance.Admits waiting.inst
          (waiting.inst.receive "e" Instance.connected.encode).value.2 lsp "e") ∧
      (waiting.inst.receive "e" Instance.introduction.encode).value.2 = waiting.inst := by
  have hreachable : Reachable Instance.double waiting := (Reachable.initial (some 1)).foldl _
  have hnewer : (waiting.inst.receive "e" Instance.connected.encode).value.1 = .ok .installed := by
    decide +kernel
  have hsame : (waiting.inst.receive "e" Instance.introduction.encode).value.1 ≠
      .ok .installed := by
    decide +kernel
  exact ⟨hreachable, (receive_allOrNothing hreachable "e" _).2.1 hnewer,
    ((receive_allOrNothing hreachable "e" _).2.2 hsame).1⟩

end Interleaving

end LinkState
