import Mathlib.Data.Set.List
import LinkState.Proofs.Flooding.Reachable

/-!
# What a scan sends, and what it leaves flagged

A scan takes all flagged LSPs of a link before it sends the first one, and it flags them again from
the first refused one on. Sent one after the other, as many stored LSPs go out as the channel takes,
and the others come back (`Instance.sendAll_stored`). Flagging these again leaves exactly their
flags set, and every entry of the link where it was (`Link.foldl_setFlag_keepFlags`). Since what is
flagged is stored in every reachable state, no LSP is missing among those that are sent, and no flag
is lost (`Interleaving.scan_exact`).
-/

namespace LinkState

/-! ### Channels that take some messages and refuse all others -/

namespace Channel

variable {α : Type u} {channel : Channel α} {message : α}

/-- A channel takes a message that is sent after a number of others. -/
def Takes (channel : Channel α) (earlier : Nat) : Prop := ∀ room ∈ channel.room, earlier < room

/-- A channel with some more messages, for which there was room. -/
def extend (channel : Channel α) (messages : List α) : Channel α :=
  ⟨channel.queue ++ messages, channel.room.map (· - messages.length)⟩

/-- A channel without more messages is the same one. -/
theorem extend_nil : channel.extend [] = channel := by
  unfold extend
  rw [List.append_nil]
  cases channel with
  | mk queue room => cases room <;> rfl

/-- Messages may be put at the end of a channel one after the other. -/
theorem extend_extend (first second : List α) :
    (channel.extend first).extend second = channel.extend (first ++ second) := by
  unfold extend
  rw [List.append_assoc, Option.map_map, List.length_append]
  refine congrArg (Channel.mk _) (congrArg (Option.map · channel.room) (funext fun room => ?_))
  exact Nat.sub_sub room first.length second.length

/-- A message that is taken is put at the end. -/
theorem send?_of_takes (h : channel.Takes 0) :
    channel.send? message = some (channel.extend [message]) := by
  unfold send? extend
  cases hroom : channel.room with
  | none => rfl
  | some room =>
    have hpos : 0 < room := h room hroom
    obtain ⟨less, rfl⟩ := Nat.exists_eq_add_one.2 hpos
    rfl

/-- A message that is not taken is refused. -/
theorem send?_of_not_takes (h : ¬channel.Takes 0) : channel.send? message = none := by
  unfold Takes at h
  push Not at h
  obtain ⟨room, hroom, hfull⟩ := h
  have hroom : channel.room = some 0 := Nat.le_zero.1 hfull ▸ hroom
  unfold send?
  rw [hroom]

/-- After a message was taken, there is one message less before the others. -/
theorem takes_extend_singleton {earlier : Nat} :
    (channel.extend [message]).Takes earlier ↔ channel.Takes (earlier + 1) := by
  unfold Takes extend
  cases channel.room with
  | none => simp
  | some room =>
    simp only [Option.map_some, Option.mem_some_iff, forall_eq', List.length_singleton]
    omega

end Channel

/-! ### Links that keep some of their flags -/

namespace Link

variable {link : Link} {ids : List LspId} {id : LspId}

/-- A link with the flags of the given LSPs set and all others cleared. -/
def keepFlags (link : Link) (ids : List LspId) : Link :=
  { link with flags := link.flags.map fun state => { state with srm := decide (state.id ∈ ids) } }

/-- The keys of the flagged LSPs are those whose flag is set. -/
theorem mem_map_key_flagged (h : link.Filed) {key : UInt64} :
    key ∈ link.flagged.map LspId.key ↔ link.isFlagged key := by
  rw [List.mem_map]
  constructor
  · rintro ⟨id, hid, rfl⟩
    exact (mem_flagged_iff h).1 hid
  · intro hflagged
    obtain ⟨state, hentry, -⟩ := isFlagged_iff.1 hflagged
    have hkey : key = state.id.key := h _ hentry
    rw [hkey] at hflagged
    exact ⟨state.id, (mem_flagged_iff h).2 hflagged, hkey.symm⟩

/-- A flagged LSP has an entry of its own. -/
theorem find?_of_mem_flagged (h : link.Filed) (hid : id ∈ link.flagged) :
    ∃ state, link.flags.find? id.key = some state ∧ state.id = id := by
  obtain ⟨state, hentry, -⟩ := isFlagged_iff.1 ((mem_flagged_iff h).1 hid)
  exact ⟨state, Table.find?_eq_some_iff.2 hentry, LspId.key_inj (h _ hentry).symm⟩

/-- Of flagged LSPs, exactly the flags that are kept are set. -/
theorem isFlagged_keepFlags (h : link.Filed) (hids : ids ⊆ link.flagged) {key : UInt64} :
    (link.keepFlags ids).isFlagged key ↔ key ∈ ids.map LspId.key := by
  unfold keepFlags isFlagged
  rw [Table.find?_map, List.mem_map]
  constructor
  · intro hflagged
    cases hfound : link.flags.find? key with
    | none =>
      rw [hfound] at hflagged
      cases hflagged
    | some state =>
      rw [hfound] at hflagged
      exact ⟨state.id, of_decide_eq_true hflagged, (h _ (Table.find?_eq_some_iff.1 hfound)).symm⟩
  · rintro ⟨id, hid, rfl⟩
    obtain ⟨state, hfound, rfl⟩ := find?_of_mem_flagged h (hids hid)
    rw [hfound]
    exact decide_eq_true hid

/-- Taking the flagged LSPs of a link that is up clears all flags. -/
theorem takeFlagged_of_isUp (h : link.adjacency.isUp) :
    link.takeFlagged = (link.flagged, link.keepFlags []) := by
  unfold takeFlagged
  rw [if_pos h]
  rfl

/-- Flagging a flagged LSP again keeps its flag beside the others. -/
theorem setFlag_keepFlags (h : link.Filed) (hid : id ∈ link.flagged) :
    (link.keepFlags ids).setFlag id true = link.keepFlags (id :: ids) := by
  refine congrArg (Link.mk link.config link.adjacency) (Table.eq_of_find?_eq fun key => ?_)
  rw [Table.find?_insert, keepFlags, Table.find?_map, Table.find?_map, Table.find?_map]
  by_cases hkey : key = id.key
  · obtain ⟨state, hfound, rfl⟩ := find?_of_mem_flagged h hid
    rw [if_pos (congrArg Ranked.rank hkey), hkey, hfound]
    simp
  · rw [if_neg fun hrank => hkey (Ranked.rank_inj hrank)]
    cases hfound : link.flags.find? key with
    | none => rfl
    | some state =>
      -- The entry is that of another LSP.
      have hother : state.id ≠ id := by
        rintro rfl
        exact hkey (h _ (Table.find?_eq_some_iff.1 hfound))
      simp [hother]

/-- Flagging some of the flagged LSPs again leaves exactly their flags set. -/
theorem foldl_setFlag_keepFlags (h : link.Filed) (kept : List LspId) (hids : ids ⊆ link.flagged) :
    ids.foldl (fun link id => link.setFlag id true) (link.keepFlags kept) =
      link.keepFlags (ids ++ kept) := by
  induction ids generalizing kept with
  | nil => rfl
  | cons id ids ih =>
    obtain ⟨hid, hrest⟩ := List.cons_subset.1 hids
    rw [List.foldl_cons, setFlag_keepFlags h hid, ih _ hrest]
    -- The order does not matter.
    simp [keepFlags, or_left_comm]

end Link

/-! ### Sending a row of stored LSPs -/

namespace Instance

variable {inst : Instance} {position : Nat} {link : Link}

/-- Of stored LSPs that are sent one after the other, as many go out as the channel takes, and those
from the first refused one on come back. -/
theorem sendAll_stored {database : Database} (name : String) {ids : List LspId} {lsps : List Lsp}
    (hstored : ids.map database.lsp? = lsps.map some) {channel : Channel Transmission} {m : Nat}
    (htakes : ∀ earlier < ids.length, channel.Takes earlier ↔ earlier < m) :
    (sendAll database name ids channel).value = ⟨min m ids.length, ids.drop m,
      channel.extend ((lsps.take m).map fun lsp => ⟨name, lsp.encode⟩)⟩ := by
  induction ids generalizing lsps channel m with
  | nil =>
    cases lsps with
    | nil => simp [sendAll, Channel.extend_nil]
    | cons => cases hstored
  | cons id ids ih =>
    cases lsps with
    | nil => cases hstored
    | cons lsp lsps =>
      obtain ⟨hlsp, hrest⟩ := List.cons.inj hstored
      have hencode : Database.encode? database id = some lsp.encode := by
        rw [Database.encode?, hlsp]
        rfl
      unfold sendAll
      rw [hencode]
      dsimp only
      cases m with
      | zero =>
        have hrefused : ¬channel.Takes 0 := by
          rw [htakes 0 (Nat.succ_pos _)]
          exact Nat.lt_irrefl 0
        rw [Channel.send?_of_not_takes hrefused]
        simp [Channel.extend_nil]
      | succ m =>
        have htaken : channel.Takes 0 := (htakes 0 (Nat.succ_pos _)).2 (Nat.succ_pos m)
        rw [Channel.send?_of_takes htaken]
        have hnext : ∀ earlier < ids.length,
            (channel.extend [⟨name, lsp.encode⟩]).Takes earlier ↔ earlier < m := by
          intro earlier hearlier
          rw [Channel.takes_extend_singleton, htakes _ (Nat.succ_lt_succ hearlier)]
          exact Nat.succ_lt_succ_iff
        dsimp only
        rw [Traced.value_bind, Traced.value_bind, ih hrest hnext]
        simp [Channel.extend_extend]

/-- A scan of a link that is not up does nothing. -/
theorem scan_of_not_isUp (hlink : inst.links[position]? = some link) (h : ¬link.adjacency.isUp) :
    (inst.scan position).value = (0, inst) := by
  obtain ⟨hlt, hget⟩ := List.getElem?_eq_some_iff.1 hlink
  have htaken : link.takeFlagged = ([], link) := by
    unfold Link.takeFlagged
    rw [if_neg h]
  unfold scan
  rw [hlink]
  dsimp only
  rw [htaken]
  simp [sendAll, ← hget]

/-- A scan gives the number of LSPs that were sent. -/
theorem scan_sent (hlink : inst.links[position]? = some link) :
    (inst.scan position).value.1 = (sendAll inst.database link.name link.takeFlagged.1
      inst.transmissions).value.sent := by
  unfold scan
  rw [hlink]
  dsimp only
  rw [Traced.value_bind]
  split <;> rfl

/-- A scan of a link that is up, all of whose flagged LSPs are stored. -/
theorem scan_stored (hlink : inst.links[position]? = some link) (hup : link.adjacency.isUp)
    (hfiled : link.Filed) {lsps : List Lsp}
    (hstored : link.flagged.map (Database.lsp? inst.database) = lsps.map some) {m : Nat}
    (htakes : ∀ earlier < link.flagged.length, inst.transmissions.Takes earlier ↔ earlier < m) :
    (inst.scan position).value = (min m link.flagged.length, { inst with
      links := inst.links.set position (link.keepFlags (link.flagged.drop m))
      transmissions := inst.transmissions.extend
        ((lsps.take m).map fun lsp => ⟨link.name, lsp.encode⟩) }) := by
  have hsending := sendAll_stored link.name hstored htakes
  have htaken := Link.takeFlagged_of_isUp hup
  have hrestored := Link.foldl_setFlag_keepFlags hfiled [] (List.drop_subset m link.flagged)
  rw [List.append_nil] at hrestored
  refine Prod.ext ?_ ?_
  · rw [scan_sent hlink, htaken, hsending]
  · rw [scan_value hlink, htaken, hsending, hrestored]

end Instance

/-! ### Reachable states -/

namespace Interleaving

variable {config : InstanceConfig} {state : State} {position : Nat} {link : Link}

/-- What is flagged on a link is stored. -/
theorem Reachable.exists_lsps (h : Reachable config state)
    (hlink : state.inst.links[position]? = some link) :
    ∃ lsps : List Lsp, link.flagged.map (Database.lsp? state.inst.database) = lsps.map some := by
  have hbacked := h.backed
  have hmem : link ∈ state.inst.links := List.mem_of_getElem? hlink
  have hrange : link.flagged.map (Database.lsp? state.inst.database) ∈
      Set.range (List.map some) := by
    rw [Set.range_list_map]
    intro found hfound
    obtain ⟨id, hid, rfl⟩ := List.mem_map.1 hfound
    have hflagged := (Link.mem_flagged_iff (hbacked.filed link hmem)).1 hid
    obtain ⟨lsp, hlsp⟩ :=
      (Database.mem_keys_iff hbacked.valid).1 (hbacked.flagged link hmem id.key hflagged)
    exact ⟨lsp, hlsp.symm⟩
  obtain ⟨lsps, hlsps⟩ := hrange
  exact ⟨lsps, hlsps.symm⟩

/-- In a reachable state, a scan of a link that is not up does nothing. A scan of a link that is up
sends the stored LSPs whose flag is set, in the order of their keys, as many as the channel takes,
and gives their number. It leaves set exactly the flags of the others, and nothing else changes. -/
theorem scan_exact (h : Reachable config state)
    (hlink : state.inst.links[position]? = some link) {m : Nat}
    (htakes : ∀ earlier < link.flagged.length,
      state.inst.transmissions.Takes earlier ↔ earlier < m) :
    (¬link.adjacency.isUp → (state.inst.scan position).value = (0, state.inst)) ∧
      (link.adjacency.isUp →
        (link.flagged.map LspId.key).Pairwise (· < ·) ∧
        (∀ key, key ∈ link.flagged.map LspId.key ↔ link.isFlagged key) ∧
        (∀ key, (link.keepFlags (link.flagged.drop m)).isFlagged key ↔
          key ∈ (link.flagged.drop m).map LspId.key) ∧
        ∃ lsps : List Lsp, link.flagged.map (Database.lsp? state.inst.database) = lsps.map some ∧
          (state.inst.scan position).value = (min m link.flagged.length, { state.inst with
            links := state.inst.links.set position (link.keepFlags (link.flagged.drop m))
            transmissions := state.inst.transmissions.extend
              ((lsps.take m).map fun lsp => ⟨link.name, lsp.encode⟩) })) := by
  have hfiled : link.Filed := h.backed.filed link (List.mem_of_getElem? hlink)
  refine ⟨fun hdown => Instance.scan_of_not_isUp hlink hdown, fun hup => ⟨?_, ?_, ?_, ?_⟩⟩
  · exact Link.ascending_flagged hfiled
  · exact fun key => Link.mem_map_key_flagged hfiled
  · exact fun key => Link.isFlagged_keepFlags hfiled (List.drop_subset m link.flagged)
  · obtain ⟨lsps, hstored⟩ := h.exists_lsps hlink
    exact ⟨lsps, hstored, Instance.scan_stored hlink hup hfiled hstored htakes⟩

/-- The first link of a router comes up, the router floods its own LSP, and an LSP that was received
on the second link has been flagged on the first one. The network takes one more frame. -/
def waiting : State :=
  run Instance.double (some 1)
    [.updateAdjacency ⟨0, 0⟩ 0 ⟨.up, some ⟨0, 0, 0, 0, 0, 2⟩, 10, none, none⟩,
      .originate, .resume 0, .resume 0, .receive "f" Instance.introduction.encode, .resume 1]

/-- The first link of the waiting router. -/
def waitingLink : Link := waiting.inst.links.head (by decide +kernel)

theorem scan_exact_waiting :
    Reachable Instance.double waiting ∧ waiting.inst.links[0]? = some waitingLink ∧
      (∀ earlier < waitingLink.flagged.length,
        waiting.inst.transmissions.Takes earlier ↔ earlier < 1) ∧
      waitingLink.adjacency.isUp ∧
      waitingLink.flagged = [.ofSystem ⟨0, 0, 0, 0, 0, 1⟩, .ofSystem ⟨0, 0, 0, 0, 0, 2⟩] ∧
      ∃ lsp, Database.lsp? waiting.inst.database (.ofSystem ⟨0, 0, 0, 0, 0, 1⟩) = some lsp ∧
        (waiting.inst.scan 0).value = (1, { waiting.inst with
          links := waiting.inst.links.set 0 (waitingLink.keepFlags [.ofSystem ⟨0, 0, 0, 0, 0, 2⟩])
          transmissions :=
            waiting.inst.transmissions.extend [⟨waitingLink.name, lsp.encode⟩] }) := by
  have hreachable : Reachable Instance.double waiting := (Reachable.initial (some 1)).foldl _
  have hlink : waiting.inst.links[0]? = some waitingLink := by decide +kernel
  have hup : waitingLink.adjacency.isUp := by decide +kernel
  have hflagged : waitingLink.flagged =
      [.ofSystem ⟨0, 0, 0, 0, 0, 1⟩, .ofSystem ⟨0, 0, 0, 0, 0, 2⟩] := by decide +kernel
  have hroom : waiting.inst.transmissions.room = some 1 := by decide +kernel
  have htakes : ∀ earlier < waitingLink.flagged.length,
      waiting.inst.transmissions.Takes earlier ↔ earlier < 1 := by
    intro earlier _
    unfold Channel.Takes
    rw [hroom]
    exact ⟨fun h => h 1 rfl, fun h room hmem => Option.some.inj hmem ▸ h⟩
  obtain ⟨-, -, -, lsps, hlsps, hvalue⟩ := (scan_exact hreachable hlink htakes).2 hup
  rw [hflagged] at hlsps hvalue
  refine ⟨hreachable, hlink, htakes, hup, hflagged, ?_⟩
  cases lsps with
  | nil => cases hlsps
  | cons lsp lsps => exact ⟨lsp, (List.cons.inj hlsps).1, hvalue⟩

end Interleaving

end LinkState
