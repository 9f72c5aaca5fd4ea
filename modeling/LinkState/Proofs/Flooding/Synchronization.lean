import Mathlib.Data.List.Induction
import LinkState.Proofs.Flooding.Invariant

/-!
# Flooding synchronises the databases

Each action of a router stores an LSP, sends some, or makes no difference for flooding, and so it
keeps the network sound (`Sound.perform`); a run of actions does, in whatever order they come
(`sound_run`). When no flag is set and nothing is in flight on a link, its two ends hold LSPs that
are at least as recent as each other's, and so the same ones (`synchronized`). A network of two
routers shows that a run can come to that (`synchronized_exchange`).
-/

namespace LinkState.Network

variable {ι : Type u} {net : Network ι} {state : State ι} [DecidableEq ι]

/-! ### Steps -/

/-- After an operation that sends nothing, nothing new is in flight. -/
theorem after_of_empty {router : ι} {result : Traced Instance}
    (h : result.value.transmissions = .empty) :
    net.after state router result = ⟨Function.update state.inst router result.value,
      Function.update state.originated router
        (state.originated router ++ originations result.records), state.flight⟩ := by
  have hdrained : { result.value with transmissions := result.value.transmissions.drained } =
      result.value := by
    rw [h]
    change { result.value with transmissions := Channel.empty } = _
    rw [← h]
  unfold after
  rw [hdrained, h]
  unfold arrivals Channel.empty
  rw [List.filterMap_nil, List.append_nil]

/-- After an operation that originates nothing, the originated LSPs are the same. -/
theorem update_originated {router : ι} {records : List Record} (h : originations records = []) :
    Function.update state.originated router
      (state.originated router ++ originations records) = state.originated := by
  rw [h, List.append_nil, Function.update_eq_self]

/-- A router renews its own LSP. -/
theorem Sound.originate (h : Sound net state) (hbounded : state.Bounded) (router : ι)
    (hroom : (state.originated router).length + 1 < 2 ^ 32) :
    Sound net ⟨Function.update state.inst router (state.inst router).originate.value.2,
      Function.update state.originated router
        (state.originated router ++ [(state.inst router).originate.value.1]), state.flight⟩ := by
  obtain ⟨hlsp, hstores, -, -⟩ := (state.inst router).originate_stores
  have hnext := (h.isLocal router).originate
  have hlast : (state.originated router ++ [(state.inst router).originate.value.1])[
      (state.originated router).length]? = some (state.inst router).originate.value.1 :=
    List.getElem?_concat_length
  obtain ⟨hid, hseqno, -⟩ := hnext.numbered _ _ hlast
  have hgrows : ∀ r, state.originated r ⊆ Function.update state.originated router
      (state.originated router ++ [(state.inst router).originate.value.1]) r :=
    (Function.forall_update_iff state.originated fun r lsps => state.originated r ⊆ lsps).2
      ⟨List.subset_append_left _ _, fun r _ => List.Subset.refl _⟩
  refine h.store (fun r => ?_) hgrows hstores (fun present hpresent => ?_)
    ⟨router, ?_⟩ fun _ _ _ _ hchosen => by cases hchosen
  · by_cases hr : r = router
    · rw [hr, Function.update_self, Function.update_self]
      exact hnext
    · rw [Function.update_of_ne hr, Function.update_of_ne hr]
      exact h.isLocal r
  · -- The present LSP is one of the router's own and so has a smaller number.
    obtain ⟨hkey, hknown⟩ := h.known router _ present hpresent
    have hpresentId : present.id = .ofSystem (net.config router).systemId :=
      (LspId.key_inj hkey).symm.trans hid
    obtain ⟨i, hi⟩ := List.mem_iff_getElem?.1 (h.mem_originated hknown hpresentId)
    have hlt := (List.getElem?_eq_some_iff.1 hi).1
    rw [UInt32.lt_iff_toNat_lt, h.seqno_eq hbounded hi, hseqno, UInt32.toNat_ofNat_of_lt' hroom]
    omega
  · rw [Function.update_self]
    exact List.mem_append_right _ (List.mem_singleton_self _)

/-- A frame arrives. -/
theorem Sound.receive (h : Sound net state) (hbounded : state.Bounded)
    {earlier later : List (Port ι × Octets)} {port : Port ι} {frame : Octets}
    (hflight : state.flight = earlier ++ (port, frame) :: later) :
    Sound net ⟨Function.update state.inst port.router
        ((state.inst port.router).receive port.link frame).value.2,
      state.originated, earlier ++ later⟩ := by
  have hmem : (port, frame) ∈ state.flight :=
    hflight ▸ List.mem_append_right _ List.mem_cons_self
  obtain ⟨sender, lsp, hpeer, hknown, rfl, hsender⟩ := h.inFlight port frame hmem
  have hread := (h.encodable hbounded hknown).read_self
  have hsame : ∀ other, state.Known other → lsp.encode = other.encode → other = lsp :=
    fun other hother heq => ((h.encodable hbounded hknown).encode_inj
      (h.encodable hbounded hother) heq).symm
  obtain ⟨-, ⟨hunchanged, hstale⟩ | ⟨reading, -, hreading, hnewer, hstores, hseqno⟩⟩ :=
    (state.inst port.router).receive_cases port.link lsp.encode
  · -- The frame is passed over, since the stored LSP is at least as recent.
    obtain ⟨present, hpresent, hnotNewer⟩ := hstale (h.link_mem_names hpeer) ⟨lsp, none⟩ hread
    rw [hunchanged, Function.update_eq_self]
    refine h.drop hflight fun other hother heq => ?_
    rw [hsame other hother heq]
    exact ⟨present, hpresent, UInt32.not_lt.1 hnotNewer⟩
  · -- The LSP of the frame is stored, and then the frame is no longer waited for.
    rw [hread] at hreading
    cases hreading
    have hlocal := h.isLocal_update ((h.isLocal port.router).store hstores hseqno)
    have hstored := h.store hlocal (fun r => List.Subset.refl _) hstores hnewer hknown ?_
    · refine hstored.drop hflight fun other hother heq => ?_
      rw [hsame other hother heq]
      dsimp only
      rw [Function.update_self]
      exact hstores.holds_self (h.isLocal port.router).valid
    · -- Only the link that the LSP came from is left out, and its sender holds the LSP.
      intro skipped other hother hrouter hlink
      have hname : skipped.link = port.link := by simpa using hlink
      have hport : skipped = port := by
        cases skipped
        cases port
        simp only [Port.mk.injEq]
        exact ⟨hrouter, hname⟩
      rw [hport, hpeer] at hother
      cases hother
      exact hsender

/-- What is bounded after an operation was so before. -/
theorem State.Bounded.of_after {router : ι} {result : Traced Instance}
    (h : (net.after state router result).Bounded) : state.Bounded := by
  intro r
  obtain ⟨hlength, hsize⟩ := h r
  unfold Network.after at hlength hsize
  dsimp only at hlength hsize
  by_cases hr : r = router
  · rw [hr]
    rw [hr, Function.update_self] at hlength hsize
    rw [List.length_append] at hlength
    exact ⟨by omega, fun lsp hlsp => hsize lsp (List.mem_append_left _ hlsp)⟩
  · rw [Function.update_of_ne hr] at hlength hsize
    exact ⟨hlength, hsize⟩

/-- What is bounded after a step was so before. -/
theorem State.Bounded.of_perform {action : Action ι} (h : (net.perform state action).Bounded) :
    state.Bounded := by
  cases action with
  | changeAdjacency | originate | scan => exact h.of_after
  | receive index =>
    dsimp only [Network.perform] at h
    split at h
    · exact h
    · have hbefore := h.of_after
      exact hbefore

/-- Every step keeps the network sound. -/
theorem Sound.perform (h : Sound net state) {action : Action ι}
    (hbounded : (net.perform state action).Bounded) : Sound net (net.perform state action) := by
  have hbefore := hbounded.of_perform
  cases action with
  | changeAdjacency router now name adjacency =>
    obtain ⟨taken, -, -, hidle, ⟨hvalue, hrecords⟩ | ⟨hvalue, hrecords⟩⟩ :=
      (state.inst router).changeAdjacency_cases now name adjacency
    · have hempty := ((h.isLocal router).idle hidle).transmissions_eq
      rw [Network.perform, after_of_empty (by rw [Traced.value_map, hvalue, hempty]),
        Traced.value_map, hvalue, Traced.records_map, update_originated hrecords]
      exact h.idle hidle
    · -- The adjacency is taken over first, and then the router's own LSP is renewed.
      have hself : Function.update state.inst router taken router = taken :=
        Function.update_self router taken state.inst
      obtain ⟨-, hstores, -, hown⟩ := taken.originate_stores
      have hempty := hstores.transmissions_eq.trans ((h.isLocal router).idle hidle).transmissions_eq
      rw [Network.perform, after_of_empty (by rw [Traced.value_map, hvalue, hempty]),
        Traced.value_map, hvalue, Traced.records_map, hrecords, hown] at hbounded ⊢
      have hroom := (hbounded router).1
      dsimp only at hroom
      rw [Function.update_self, List.length_append] at hroom
      have hnext := (h.idle hidle).originate hbefore router hroom
      dsimp only at hnext
      rw [hself, Function.update_idem] at hnext
      exact hnext
  | originate router =>
    obtain ⟨-, hstores, -, hrecords⟩ := (state.inst router).originate_stores
    rw [Network.perform,
      after_of_empty (hstores.transmissions_eq.trans (h.isLocal router).transmissions_eq),
      Traced.value_map, Traced.records_map, hrecords] at hbounded ⊢
    have hroom := (hbounded router).1
    dsimp only at hroom
    rw [Function.update_self, List.length_append] at hroom
    exact h.originate hbefore router hroom
  | scan router position =>
    have hlocal := h.isLocal router
    obtain ⟨⟨sent, hsends⟩, hrecords⟩ := (state.inst router).scan_sends position
      (by rw [hlocal.transmissions_eq]; rfl) hlocal.filed
    have hqueue : ((state.inst router).scan position).value.2.transmissions.queue = sent := by
      rw [hsends.transmissions_eq, hlocal.transmissions_eq]
      rfl
    rw [Network.perform]
    unfold after
    rw [Traced.value_map, Traced.records_map, update_originated hrecords, hqueue]
    exact h.send hsends
  | receive index =>
    dsimp only [Network.perform]
    split
    · exact h
    · rename_i port frame hframe
      have hlocal := h.isLocal port.router
      obtain ⟨hrecords, hcases⟩ := (state.inst port.router).receive_cases port.link frame
      have hempty : ((state.inst port.router).receive port.link frame).value.2.transmissions =
          .empty := by
        rcases hcases with ⟨hunchanged, -⟩ | ⟨_, -, -, -, hstores, -⟩
        · rw [hunchanged, hlocal.transmissions_eq]
        · rw [hstores.transmissions_eq, hlocal.transmissions_eq]
      obtain ⟨hlt, hget⟩ := List.getElem?_eq_some_iff.1 hframe
      have hflight : state.flight =
          state.flight.take index ++ (port, frame) :: state.flight.drop (index + 1) := by
        rw [← hget, List.getElem_cons_drop, List.take_append_drop]
      rw [after_of_empty hempty, Traced.value_map, Traced.records_map,
        List.eraseIdx_eq_take_drop_succ]
      dsimp only
      rw [update_originated hrecords]
      exact h.receive hbefore hflight

/-- A network that is bounded is sound, whatever has happened to it. -/
theorem sound_run {actions : List (Action ι)} (hbounded : (net.run actions).Bounded) :
    Sound net (net.run actions) := by
  induction actions using List.reverseRecOn with
  | nil => exact sound_initial net
  | append_singleton actions action ih =>
    have hrun : net.run (actions ++ [action]) = net.perform (net.run actions) action := by
      unfold run
      rw [List.foldl_append]
      rfl
    rw [hrun] at hbounded ⊢
    exact (ih hbounded.of_perform).perform hbounded

omit [DecidableEq ι] in
/-- A link on which no flag is set asks for nothing to be sent. -/
theorem State.Quiet.not_flagged {port : Port ι} (h : state.Quiet port)
    (hfiled : (state.inst port.router).FlagsFiled) (key : UInt64) :
    ¬(state.inst port.router).Flagged port.link key := by
  rintro ⟨link, hlink, hname, hflagged⟩
  obtain ⟨entry, hentry, -⟩ := Link.isFlagged_iff.1 hflagged
  have hkey : key = entry.id.key := hfiled link hlink _ hentry
  rw [hkey, ← Link.mem_flagged_iff (hfiled link hlink), h.1 link hlink hname] at hflagged
  exact absurd hflagged List.not_mem_nil

/-- After any run of a network, two routers hold the same LSPs if no flag is set at either end of a
link between them and nothing is in flight on it. -/
theorem synchronized {actions : List (Action ι)} (hbounded : (net.run actions).Bounded)
    {a b : Port ι} (hpeer : net.peer a = some b) (ha : (net.run actions).Quiet a)
    (hb : (net.run actions).Quiet b) (key : UInt64) :
    ((net.run actions).inst a.router).database.find? key =
      ((net.run actions).inst b.router).database.find? key := by
  have hsound := sound_run hbounded
  generalize net.run actions = state at *
  -- Whatever one end holds, the other end holds an LSP that is at least as recent.
  have hholds {p q : Port ι} (hpq : net.peer p = some q) (hp : state.Quiet p) (hq : state.Quiet q)
      {lsp : Lsp} (hlsp : (state.inst p.router).database.find? key = some lsp) :
      (state.inst q.router).Holds key lsp.seqno := by
    rcases hsound.pending p q hpq key lsp hlsp with hflag | ⟨newer, -, hmem, -⟩ | hholds
    · exact absurd hflag (hp.not_flagged (hsound.isLocal p.router).filed key)
    · exact absurd rfl (hq.2 _ hmem)
    · exact hholds
  have hsame {p q : Port ι} (hpq : net.peer p = some q) (hp : state.Quiet p) (hq : state.Quiet q)
      {lsp : Lsp} (hlsp : (state.inst p.router).database.find? key = some lsp) :
      (state.inst q.router).database.find? key = some lsp := by
    obtain ⟨other, hother, hle⟩ := hholds hpq hp hq hlsp
    obtain ⟨back, hback, hge⟩ := hholds (net.peer_symm hpq) hq hp hother
    rw [hlsp] at hback
    cases hback
    obtain ⟨hkey, hknown⟩ := hsound.known p.router key lsp hlsp
    obtain ⟨hkey', hknown'⟩ := hsound.known q.router key other hother
    rw [hother, hsound.unique hbounded hknown hknown' (hkey.symm.trans hkey')
      (UInt32.le_antisymm hle hge)]
  exact Option.ext fun lsp => ⟨hsame hpeer ha hb, hsame (net.peer_symm hpeer) hb ha⟩

/-! ### A network of two routers -/

/-- Two routers with system IDs 1 and 2, and a link between them. -/
def pair : Network Bool where
  config router := ⟨⟨0, 0, 0, 0, 0, if router then 2 else 1⟩, 5000, 1200, [⟨"e", 10, none, []⟩]⟩
  peer port := if port.link = "e" then some ⟨!port.router, "e"⟩ else none
  systemId_inj {i j} h := by
    revert i j
    decide
  peer_symm {p q} h := by
    obtain ⟨router, link⟩ := p
    split at h
    · rename_i hlink
      have hlink : link = "e" := hlink
      cases h
      rw [if_pos rfl, Bool.not_not, hlink]
    · cases h
  configured {p q} h := by
    split at h
    · rename_i hlink
      exact ⟨_, List.mem_singleton_self _, hlink.symm⟩
    · cases h

/-- The two routers hear of each other, scan their ends of the link, and the frames arrive. -/
def exchange : List (Action Bool) :=
  [.changeAdjacency false ⟨0, 0⟩ "e" ⟨.up, some ⟨0, 0, 0, 0, 0, 2⟩, 10, none, none⟩,
    .changeAdjacency true ⟨1, 0⟩ "e" ⟨.up, some ⟨0, 0, 0, 0, 0, 1⟩, 10, none, none⟩,
    .scan true 0, .scan false 0, .receive 1, .receive 0]

/-- After an exchange both routers hold the LSPs of both. -/
theorem synchronized_exchange :
    (pair.run exchange).Bounded ∧ pair.peer ⟨false, "e"⟩ = some ⟨true, "e"⟩ ∧
      (pair.run exchange).Quiet ⟨false, "e"⟩ ∧ (pair.run exchange).Quiet ⟨true, "e"⟩ ∧
      ((pair.run exchange).inst false).database.size = 2 ∧
      ∀ key, ((pair.run exchange).inst false).database.find? key =
        ((pair.run exchange).inst true).database.find? key := by
  have hbounded : (pair.run exchange).Bounded := by
    unfold State.Bounded
    decide +kernel
  have hquiet : (pair.run exchange).Quiet ⟨false, "e"⟩ ∧ (pair.run exchange).Quiet ⟨true, "e"⟩ := by
    unfold State.Quiet
    decide +kernel
  exact ⟨hbounded, rfl, hquiet.1, hquiet.2, by decide +kernel,
    synchronized hbounded rfl hquiet.1 hquiet.2⟩

end LinkState.Network
