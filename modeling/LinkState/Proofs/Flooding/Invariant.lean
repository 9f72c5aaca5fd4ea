import LinkState.Proofs.Avl.Validity
import LinkState.Proofs.Flooding.Network
import LinkState.Proofs.Wire.Splitting

/-!
# What every step of a network keeps

Every router numbers its own LSPs without gaps (`Local`), so that an LSP ID and a sequence number
stand for one LSP in the whole network (`Sound.unique`). A stored LSP concerns the other end of
every link: either its flag is still set there, or it or a more recent one is in flight to the other
end, or the other end holds one that is at least as recent (`Sound.pending`). This is kept when a
router stores an LSP (`Sound.store`), since it flags the LSP on every link but the one it came from,
whose other end has it; when a link is scanned (`Sound.send`), since what is no longer flagged is in
flight; and when a frame arrives (`Sound.drop`), since its LSP or a more recent one is stored then.
-/

namespace LinkState

namespace Instance

/-- The database holds an LSP under a key that is at least as recent as a sequence number. -/
def Holds (inst : Instance) (key : UInt64) (seqno : UInt32) : Prop :=
  ∃ present, inst.database.find? key = some present ∧ seqno ≤ present.seqno

/-- The LSP that has been stored is found under its key, and the others are where they were. -/
theorem Stores.find?_eq {before after : Instance} {lsp : Lsp} {chosen : String → Bool}
    (h : Stores before after lsp chosen) (hvalid : before.database.Valid) (key : UInt64) :
    after.database.find? key = if key = lsp.key then some lsp else before.database.find? key := by
  rw [h.database_eq]
  exact Avl.Map.find?_put hvalid key

/-- A more recent LSP than the present one takes nothing away. -/
theorem Stores.holds {before after : Instance} {lsp : Lsp} {chosen : String → Bool}
    (h : Stores before after lsp chosen) (hvalid : before.database.Valid)
    (hnewer : ∀ present, before.database.find? lsp.key = some present → present.seqno < lsp.seqno)
    {key : UInt64} {seqno : UInt32} (hholds : before.Holds key seqno) : after.Holds key seqno := by
  obtain ⟨present, hpresent, hle⟩ := hholds
  unfold Holds
  rw [h.find?_eq hvalid]
  by_cases hkey : key = lsp.key
  · rw [if_pos hkey]
    rw [hkey] at hpresent
    exact ⟨lsp, rfl, UInt32.le_of_lt (UInt32.lt_of_le_of_lt hle (hnewer present hpresent))⟩
  · rw [if_neg hkey]
    exact ⟨present, hpresent, hle⟩

/-- The LSP that has been stored is held. -/
theorem Stores.holds_self {before after : Instance} {lsp : Lsp} {chosen : String → Bool}
    (h : Stores before after lsp chosen) (hvalid : before.database.Valid) :
    after.Holds lsp.key lsp.seqno :=
  ⟨lsp, (h.find?_eq hvalid lsp.key).trans (if_pos rfl), UInt32.le_refl _⟩

end Instance

namespace Network

/-! ### What a router knows of itself -/

/-- What is true of a router whatever the others do. -/
structure Local (config : InstanceConfig) (inst : Instance) (originated : List Lsp) : Prop where
  config_eq : inst.config = config
  names_eq : inst.names = config.links.map (·.name)
  transmissions_eq : inst.transmissions = .empty
  valid : inst.database.Valid
  filed : inst.FlagsFiled
  seqno_eq : inst.seqno = UInt32.ofNat originated.length
  /-- The LSPs of a router are numbered from one on, and they are its own. -/
  numbered : ∀ i lsp, originated[i]? = some lsp → lsp.id = .ofSystem config.systemId ∧
    lsp.seqno = UInt32.ofNat (i + 1) ∧ (lsp.encode.length ≤ 65535 → lsp.Encodable)

variable {config : InstanceConfig} {inst after : Instance} {originated : List Lsp}

/-- A fresh router has originated nothing. -/
theorem local_ofConfig (config : InstanceConfig) : Local config (.ofConfig config) [] where
  config_eq := rfl
  names_eq := by
    change (config.links.map Link.ofConfig).map Link.name = _
    rw [List.map_map]
    rfl
  transmissions_eq := rfl
  valid := Avl.Map.valid_empty
  filed link hlink := by
    obtain ⟨config, -, rfl⟩ := List.mem_map.1 hlink
    exact Link.filed_ofConfig config
  seqno_eq := rfl
  numbered _ _ h := by cases h

theorem Local.idle (h : Local config inst originated) (hidle : inst.Idle after) :
    Local config after originated where
  config_eq := hidle.config_eq.trans h.config_eq
  names_eq := hidle.names_eq.trans h.names_eq
  transmissions_eq := hidle.transmissions_eq.trans h.transmissions_eq
  valid := hidle.database_eq ▸ h.valid
  filed := hidle.filed h.filed
  seqno_eq := hidle.seqno_eq.trans h.seqno_eq
  numbered := h.numbered

/-- Storing a received LSP does not change what a router knows of itself. -/
theorem Local.store {lsp : Lsp} {chosen : String → Bool} (h : Local config inst originated)
    (hstores : inst.Stores after lsp chosen) (hseqno : after.seqno = inst.seqno) :
    Local config after originated where
  config_eq := hstores.config_eq.trans h.config_eq
  names_eq := hstores.names_eq.trans h.names_eq
  transmissions_eq := hstores.transmissions_eq.trans h.transmissions_eq
  valid := hstores.database_eq ▸ Avl.Map.valid_put h.valid _ _
  filed := hstores.filed h.filed
  seqno_eq := hseqno.trans h.seqno_eq
  numbered := h.numbered

/-- After an origination there is one more LSP of the router's own, with the next number. -/
theorem Local.originate (h : Local config inst originated) :
    Local config inst.originate.value.2 (originated ++ [inst.originate.value.1]) := by
  obtain ⟨hlsp, hstores, hseqno, -⟩ := inst.originate_stores
  have hnext : inst.seqno + 1 = UInt32.ofNat (originated.length + 1) := by
    rw [h.seqno_eq, UInt32.ofNat_add]
    rfl
  constructor
  case config_eq => exact hstores.config_eq.trans h.config_eq
  case names_eq => exact hstores.names_eq.trans h.names_eq
  case transmissions_eq => exact hstores.transmissions_eq.trans h.transmissions_eq
  case valid => exact hstores.database_eq ▸ Avl.Map.valid_put h.valid _ _
  case filed => exact hstores.filed h.filed
  case seqno_eq =>
    rw [hseqno, hnext, List.length_append]
    rfl
  case numbered =>
    intro i lsp hi
    rw [List.getElem?_append] at hi
    split at hi
    · exact h.numbered i lsp hi
    · -- The only LSP behind the old ones is the new one.
      rename_i hge
      have hzero : i - originated.length = 0 := by
        have hlt := (List.getElem?_eq_some_iff.1 hi).1
        rw [List.length_singleton] at hlt
        omega
      rw [hzero, List.getElem?_cons_zero, Option.some.injEq] at hi
      have hlength : i = originated.length := by omega
      rw [← hi, hlsp, hlength, ← hnext, ← h.config_eq]
      exact ⟨rfl, rfl, Lsp.encodable_ofLinks⟩

/-- Sending does not change what a router knows of itself, once the frames have left. -/
theorem Local.send {sent : List Transmission} (h : Local config inst originated)
    (hsends : inst.Sends after sent) :
    Local config { after with transmissions := after.transmissions.drained } originated where
  config_eq := hsends.config_eq.trans h.config_eq
  names_eq := hsends.names_eq.trans h.names_eq
  transmissions_eq := by
    change after.transmissions.drained = _
    rw [hsends.transmissions_eq, h.transmissions_eq]
    rfl
  valid := by
    change after.database.Valid
    exact hsends.database_eq ▸ h.valid
  filed := hsends.filed h.filed
  seqno_eq := hsends.seqno_eq.trans h.seqno_eq
  numbered := h.numbered

/-! ### What holds throughout a network -/

variable {ι : Type u} {net : Network ι} {state : State ι}

/-- An LSP that some router has originated. -/
def State.Known (state : State ι) (lsp : Lsp) : Prop := ∃ router, lsp ∈ state.originated router

/-- What is true of a network after every step. -/
structure Sound (net : Network ι) (state : State ι) : Prop where
  isLocal : ∀ router, Local (net.config router) (state.inst router) (state.originated router)
  known : ∀ router key lsp, (state.inst router).database.find? key = some lsp →
    key = lsp.key ∧ state.Known lsp
  /-- A frame in flight carries an LSP, and its sender holds one that is at least as recent. -/
  inFlight : ∀ port frame, (port, frame) ∈ state.flight → ∃ sender lsp,
    net.peer port = some sender ∧ state.Known lsp ∧ frame = lsp.encode ∧
      (state.inst sender.router).Holds lsp.key lsp.seqno
  /-- A stored LSP is flagged on a link, or it or a more recent one is in flight to the other end,
  or the other end holds one that is at least as recent. -/
  pending : ∀ port other, net.peer port = some other →
    ∀ key lsp, (state.inst port.router).database.find? key = some lsp →
      (state.inst port.router).Flagged port.link key ∨
        (∃ newer, state.Known newer ∧ (other, newer.encode) ∈ state.flight ∧ newer.key = key ∧
          lsp.seqno ≤ newer.seqno) ∨
        (state.inst other.router).Holds key lsp.seqno

/-- An LSP of a router was originated by that router. -/
theorem Sound.mem_originated (h : Sound net state) {router : ι} {lsp : Lsp}
    (hknown : state.Known lsp) (hid : lsp.id = .ofSystem (net.config router).systemId) :
    lsp ∈ state.originated router := by
  obtain ⟨author, hauthor⟩ := hknown
  obtain ⟨i, hi⟩ := List.mem_iff_getElem?.1 hauthor
  have hown := ((h.isLocal author).numbered i lsp hi).1
  rw [hown] at hid
  rw [← net.systemId_inj (congrArg LspId.systemId hid)]
  exact hauthor

/-- The sequence number of an LSP is its place among the LSPs of its router. -/
theorem Sound.seqno_eq (h : Sound net state) (hbounded : state.Bounded) {router : ι} {i : Nat}
    {lsp : Lsp} (hi : (state.originated router)[i]? = some lsp) : lsp.seqno.toNat = i + 1 := by
  have hlt := (List.getElem?_eq_some_iff.1 hi).1
  have hbound := (hbounded router).1
  rw [((h.isLocal router).numbered i lsp hi).2.1, UInt32.toNat_ofNat_of_lt' (by
    rw [show UInt32.size = 2 ^ 32 from rfl]
    omega)]

/-- An LSP ID and a sequence number stand for one LSP. -/
theorem Sound.unique (h : Sound net state) (hbounded : state.Bounded) {a b : Lsp}
    (ha : state.Known a) (hb : state.Known b) (hkey : a.key = b.key) (hseqno : a.seqno = b.seqno) :
    a = b := by
  -- Both are LSPs of the router whose ID they carry, with one place among these.
  obtain ⟨author, hauthor⟩ := ha
  obtain ⟨i, hi⟩ := List.mem_iff_getElem?.1 hauthor
  have hown := ((h.isLocal author).numbered i a hi).1
  have hid : b.id = a.id := (LspId.key_inj hkey).symm
  obtain ⟨j, hj⟩ := List.mem_iff_getElem?.1 (h.mem_originated hb (hid.trans hown))
  have hi' := h.seqno_eq hbounded hi
  have hj' := h.seqno_eq hbounded hj
  rw [hseqno] at hi'
  rw [show i = j by omega, hj] at hi
  exact (Option.some.inj hi).symm

/-- Every LSP that was originated is encodable. -/
theorem Sound.encodable (h : Sound net state) (hbounded : state.Bounded) {lsp : Lsp}
    (hknown : state.Known lsp) : lsp.Encodable := by
  obtain ⟨author, hauthor⟩ := hknown
  obtain ⟨i, hi⟩ := List.mem_iff_getElem?.1 hauthor
  exact ((h.isLocal author).numbered i lsp hi).2.2 ((hbounded author).2 lsp hauthor)

/-- A link that has another end is one of its router's. -/
theorem Sound.link_mem_names (h : Sound net state) {port other : Port ι}
    (hpeer : net.peer port = some other) : port.link ∈ (state.inst port.router).names := by
  obtain ⟨link, hlink, hname⟩ := net.configured hpeer
  rw [(h.isLocal port.router).names_eq]
  exact List.mem_map.2 ⟨link, hlink, hname⟩

/-- A network of fresh routers. -/
theorem sound_initial (net : Network ι) : Sound net net.initial where
  isLocal router := local_ofConfig (net.config router)
  known _ _ _ h := by cases h
  inFlight _ _ h := absurd h List.not_mem_nil
  pending _ _ _ _ _ h := by cases h

/-! ### What a step keeps -/

/-- A frame arrives, and its router holds an LSP that is at least as recent as the frame's. -/
theorem Sound.drop (h : Sound net state) {earlier later : List (Port ι × Octets)} {port : Port ι}
    {frame : Octets} (hflight : state.flight = earlier ++ (port, frame) :: later)
    (harrived : ∀ lsp, state.Known lsp → frame = lsp.encode →
      (state.inst port.router).Holds lsp.key lsp.seqno) :
    Sound net { state with flight := earlier ++ later } := by
  constructor
  case isLocal => exact h.isLocal
  case known => exact h.known
  case inFlight =>
    intro other data hother
    refine h.inFlight other data ?_
    rw [hflight]
    rcases List.mem_append.1 hother with hearlier | hlater
    · exact List.mem_append_left _ hearlier
    · exact List.mem_append_right _ (List.mem_cons_of_mem _ hlater)
  case pending =>
    intro sender other hpeer key lsp hlsp
    rcases h.pending sender other hpeer key lsp hlsp with hflag | ⟨newer, hknown, hmem, hkey, hle⟩ |
      hholds
    · exact Or.inl hflag
    · rw [hflight] at hmem
      rcases List.mem_append.1 hmem with hearlier | hmem
      · exact Or.inr (Or.inl ⟨newer, hknown, List.mem_append_left _ hearlier, hkey, hle⟩)
      · rcases List.mem_cons.1 hmem with heq | hlater
        · -- The frame that arrives is the one that was waited for.
          obtain ⟨hport, hframe⟩ := Prod.mk.inj heq
          obtain ⟨present, hpresent, hle'⟩ := harrived newer hknown hframe.symm
          refine Or.inr (Or.inr ?_)
          rw [hport, ← hkey]
          exact ⟨present, hpresent, UInt32.le_trans hle hle'⟩
        · exact Or.inr (Or.inl ⟨newer, hknown, List.mem_append_right _ hlater, hkey, hle⟩)
    · exact Or.inr (Or.inr hholds)

variable [DecidableEq ι]

/-- If one router's own state of affairs is in order after an operation, then so are all. -/
theorem Sound.isLocal_update (h : Sound net state) {router : ι} {after : Instance}
    (hafter : Local (net.config router) after (state.originated router)) (r : ι) :
    Local (net.config r) (Function.update state.inst router after r) (state.originated r) :=
  (Function.forall_update_iff state.inst fun r inst =>
    Local (net.config r) inst (state.originated r)).2 ⟨hafter, fun r _ => h.isLocal r⟩ r

/-- If one router keeps its database, then all databases stay. -/
theorem database_update {router : ι} {after : Instance}
    (hafter : after.database = (state.inst router).database) (r : ι) :
    (Function.update state.inst router after r).database = (state.inst r).database :=
  (Function.forall_update_iff state.inst fun r inst =>
    inst.database = (state.inst r).database).2 ⟨hafter, fun _ _ => rfl⟩ r

/-- An operation that makes no difference for flooding. -/
theorem Sound.idle (h : Sound net state) {router : ι} {after : Instance}
    (hidle : (state.inst router).Idle after) :
    Sound net { state with inst := Function.update state.inst router after } := by
  have hdatabase := database_update hidle.database_eq
  have hflagged : ∀ r name key, (Function.update state.inst router after r).Flagged name key ↔
      (state.inst r).Flagged name key :=
    (Function.forall_update_iff state.inst fun r inst =>
      ∀ name key, inst.Flagged name key ↔ (state.inst r).Flagged name key).2
        ⟨hidle.flagged_iff, fun _ _ _ _ => Iff.rfl⟩
  constructor
  case isLocal => exact h.isLocal_update ((h.isLocal router).idle hidle)
  all_goals simp only [Instance.Holds, hdatabase, hflagged]
  case known => exact h.known
  case inFlight => exact h.inFlight
  case pending => exact h.pending

/-- A router stores an LSP that is more recent than the present one. The other ends of the links
that it is not flagged on hold one that is at least as recent already. -/
theorem Sound.store (h : Sound net state) {router : ι} {after : Instance} {lsp : Lsp}
    {chosen : String → Bool} {originated : ι → List Lsp}
    (hlocal : ∀ r, Local (net.config r) (Function.update state.inst router after r) (originated r))
    (hgrows : ∀ r, state.originated r ⊆ originated r)
    (hstores : (state.inst router).Stores after lsp chosen)
    (hnewer : ∀ present, (state.inst router).database.find? lsp.key = some present →
      present.seqno < lsp.seqno)
    (hknown : ∃ r, lsp ∈ originated r)
    (hskipped : ∀ port other, net.peer port = some other → port.router = router →
      chosen port.link = false → (state.inst other.router).Holds lsp.key lsp.seqno) :
    Sound net ⟨Function.update state.inst router after, originated, state.flight⟩ := by
  have hvalid := (h.isLocal router).valid
  -- What is found after the operation is the stored LSP in its place, or it was there before.
  have hfind (r : ι) {key : UInt64} {present : Lsp}
      (hpresent : (Function.update state.inst router after r).database.find? key = some present) :
      r = router ∧ key = lsp.key ∧ present = lsp ∨
        (state.inst r).database.find? key = some present ∧ (r = router → key ≠ lsp.key) := by
    by_cases hr : r = router
    · rw [hr, Function.update_self, hstores.find?_eq hvalid] at hpresent
      split at hpresent
      · rename_i hkey
        exact Or.inl ⟨hr, hkey, (Option.some.inj hpresent).symm⟩
      · rename_i hkey
        exact Or.inr ⟨hr ▸ hpresent, fun _ => hkey⟩
    · rw [Function.update_of_ne hr] at hpresent
      exact Or.inr ⟨hpresent, fun heq => absurd heq hr⟩
  have hholds : ∀ r key seqno, (state.inst r).Holds key seqno →
      (Function.update state.inst router after r).Holds key seqno :=
    (Function.forall_update_iff state.inst fun r inst =>
      ∀ key seqno, (state.inst r).Holds key seqno → inst.Holds key seqno).2
        ⟨fun _ _ => hstores.holds hvalid hnewer, fun _ _ _ _ => id⟩
  have hmono {other : Lsp} (hother : state.Known other) : ∃ r, other ∈ originated r := by
    obtain ⟨r, hr⟩ := hother
    exact ⟨r, hgrows r hr⟩
  constructor
  case isLocal => exact hlocal
  case known =>
    intro r key present hpresent
    rcases hfind r hpresent with ⟨-, hkey, rfl⟩ | ⟨hold, -⟩
    · exact ⟨hkey, hknown⟩
    · obtain ⟨hkey, hpresent⟩ := h.known r key present hold
      exact ⟨hkey, hmono hpresent⟩
  case inFlight =>
    intro port frame hframe
    obtain ⟨sender, sent, hpeer, hsent, hencode, hsender⟩ := h.inFlight port frame hframe
    exact ⟨sender, sent, hpeer, hmono hsent, hencode, hholds sender.router _ _ hsender⟩
  case pending =>
    intro port other hpeer key present hpresent
    dsimp only at hpresent ⊢
    rcases hfind port.router hpresent with ⟨hr, hkey, rfl⟩ | ⟨hold, hne⟩
    · cases hchosen : chosen port.link with
      | true =>
        refine Or.inl ?_
        rw [hr, Function.update_self, hstores.flagged_iff, if_pos hkey]
        exact ⟨hr ▸ h.link_mem_names hpeer, hchosen⟩
      | false =>
        rw [hkey]
        exact Or.inr (Or.inr (hholds other.router _ _ (hskipped port other hpeer hr hchosen)))
    · rcases h.pending port other hpeer key present hold with hflag | ⟨newer, hsent, hrest⟩ | hother
      · refine Or.inl ?_
        by_cases hr : port.router = router
        · rw [hr, Function.update_self, hstores.flagged_iff, if_neg (hne hr), ← hr]
          exact hflag
        · rw [Function.update_of_ne hr]
          exact hflag
      · exact Or.inr (Or.inl ⟨newer, hmono hsent, hrest⟩)
      · exact Or.inr (Or.inr (hholds other.router _ _ hother))

/-- A router sends stored LSPs, and they are in flight. -/
theorem Sound.send (h : Sound net state) {router : ι} {after : Instance} {sent : List Transmission}
    (hsends : (state.inst router).Sends after sent) :
    Sound net ⟨Function.update state.inst router
        { after with transmissions := after.transmissions.drained },
      state.originated, state.flight ++ net.arrivals router sent⟩ := by
  have hafter : ({ after with transmissions := after.transmissions.drained } : Instance).database =
      (state.inst router).database := hsends.database_eq
  have hdatabase := database_update hafter
  constructor
  case isLocal => exact h.isLocal_update ((h.isLocal router).send hsends)
  all_goals simp only [Instance.Holds, hdatabase]
  case known => exact h.known
  case inFlight =>
    intro port frame hframe
    rcases List.mem_append.1 hframe with hold | hnew
    · exact h.inFlight port frame hold
    · -- What is sent is stored, and the sender still holds it.
      obtain ⟨transmission, htransmission, harrives⟩ := List.mem_filterMap.1 hnew
      obtain ⟨other, hpeer, heq⟩ := Option.map_eq_some_iff.1 harrives
      obtain ⟨rfl, rfl⟩ := Prod.mk.inj heq
      obtain ⟨key, lsp, hlsp, hdata⟩ := hsends.stored transmission htransmission
      obtain ⟨hkey, hknown⟩ := h.known router key lsp hlsp
      exact ⟨⟨router, transmission.link⟩, lsp, net.peer_symm hpeer, hknown, hdata, lsp,
        hkey ▸ hlsp, UInt32.le_refl _⟩
  case pending =>
    intro port other hpeer key lsp hlsp
    obtain ⟨hkey, hknown⟩ := h.known port.router key lsp hlsp
    rcases h.pending port other hpeer key lsp hlsp with hflag | ⟨newer, hnewer, hmem, hrest⟩ |
      hholds
    · by_cases hr : port.router = router
      · -- What is no longer flagged has just been sent.
        rw [hr] at hflag hlsp
        rw [hr, Function.update_self]
        rcases hsends.flagged port.link key lsp hflag hlsp with hflag | hsent
        · exact Or.inl hflag
        · refine Or.inr (Or.inl ⟨lsp, hknown, List.mem_append_right _ ?_, hkey.symm,
            UInt32.le_refl _⟩)
          refine List.mem_filterMap.2 ⟨_, hsent, ?_⟩
          rw [← hr, hpeer]
          rfl
      · rw [Function.update_of_ne hr]
        exact Or.inl hflag
    · exact Or.inr (Or.inl ⟨newer, hnewer, List.mem_append_left _ hmem, hrest⟩)
    · exact Or.inr (Or.inr hholds)

end Network

end LinkState
