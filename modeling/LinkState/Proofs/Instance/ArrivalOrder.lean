import Mathlib.Data.List.Induction
import LinkState.Proofs.Instance.FloodTables
import LinkState.Proofs.Instance.UpToDate
import LinkState.Proofs.Routing.Influence

/-!
# The order in which LSPs arrive makes no difference

An LSP that arrives is stored if it is more recent than the present one. So, after any row of frames
has arrived, the database holds under every LSP ID the most recent one of those that it held before
and those that have arrived (`Latest`, `Collected.receive`). If an LSP ID and a sequence number
stand for one LSP among the frames, there is at most one such LSP (`Latest.eq`), whatever the order
of the frames, however often each of them arrives and on whichever links.

The shape of the tree that holds the LSPs does depend on the order. But the shortest-path
computation sees nothing of it: it looks up the LSPs of routers and nothing else
(`shortestPaths_congr_tree`, `Routes.compute_congr_tree`). So the tree of shortest paths and the
routes do not depend on the order either (`routing_arrivalOrder`).
-/

namespace LinkState

/-! ### What the shortest-path computation reads of a database -/

namespace Database

variable {database other : Database}

/-- Databases with the same listing have the same LSPs for all routers. -/
theorem router?_congr (hvalid : database.Valid) (hother : other.Valid)
    (h : database.toList = other.toList) : database.router? = other.router? := by
  funext systemId
  exact Avl.Map.find?_congr hvalid hother fun value => by rw [h]

end Database

namespace Instance

/-- With an LSP of the router's own a shortest-path run succeeds, and what it computes depends on
the links, flags apart, and on the listing of the database. -/
theorem runSpf_congr {inst other : Instance} (hvalid : inst.database.Valid)
    (hother : other.database.Valid) (hlisting : inst.database.toList = other.database.toList)
    (hid : inst.systemId = other.systemId)
    (hlinks : inst.bare.links = other.bare.links)
    (hown : (inst.database.router? inst.systemId).isSome) (now now' : Timestamp) :
    ∃ entries, (inst.runSpf now).value = (.ok (), inst.withTree entries now) ∧
      (other.runSpf now').value = (.ok (), other.withTree entries now') ∧
      Routes.compute inst.systemId entries inst.database =
        Routes.compute other.systemId entries other.database := by
  have hrouter (systemId : SystemId) :
      other.database.router? systemId = inst.database.router? systemId :=
    congrFun (Database.router?_congr hvalid hother hlisting).symm systemId
  have hlooks : inst.upLinks Adjacency.terms = other.upLinks Adjacency.terms := by
    rw [← inst.upLinks_bare, ← other.upLinks_bare, upLinks, upLinks, hlinks]
  have hcandidates :
      inst.links.filterMap Search.ofLink? = other.links.filterMap Search.ofLink? := by
    rw [filterMap_ofLink?, filterMap_ofLink?, hlooks]
  obtain ⟨path, htree⟩ : ∃ path,
      shortestPaths inst.systemId inst.links inst.database = .ok path :=
    ⟨_, shortestPaths_eq_ok_iff.2 ⟨hown, rfl⟩⟩
  have htree' := shortestPaths_congr_tree htree fun systemId _ => hrouter systemId
  rw [shortestPaths_congr hcandidates, hid] at htree'
  rw [runSpf_value, runSpf_value, htree, htree']
  refine ⟨path, rfl, rfl, ?_⟩
  rw [← hid]
  exact (Routes.compute_congr_tree (hrouter _) fun vertex _ => hrouter vertex.systemId).symm

/-! ### The most recent LSPs -/

/-- An LSP was stored under an LSP ID before, or it has arrived under it in one of the frames. -/
def Offered (before : Database) (frames : List Octets) (id : LspId) (lsp : Lsp) : Prop :=
  before.lsp? id = some lsp ∨ ∃ frame ∈ frames, Lsp.decode frame 0 = .ok lsp ∧ lsp.id = id

/-- The most recent LSP of those that were stored under an LSP ID before or have arrived. One that
was stored before gives way only to a more recent one. -/
structure Latest (before : Database) (frames : List Octets) (id : LspId) (lsp : Lsp) : Prop where
  offered : Offered before frames id lsp
  newest : ∀ other, Offered before frames id other → other.seqno ≤ lsp.seqno
  kept : ∀ present, before.lsp? id = some present → lsp.seqno ≤ present.seqno → lsp = present

/-- An LSP ID and a sequence number stand for one LSP among the frames. -/
def Consistent (frames : List Octets) : Prop :=
  ∀ frame ∈ frames, ∀ frame' ∈ frames, ∀ lsp lsp', Lsp.decode frame 0 = .ok lsp →
    Lsp.decode frame' 0 = .ok lsp' → lsp.id = lsp'.id → lsp.seqno = lsp'.seqno → lsp = lsp'

instance : DecidablePred Consistent := fun frames =>
  decidable_of_iff (∀ frame ∈ frames, ∀ frame' ∈ frames, ∀ lsp ∈ (Lsp.decode frame 0).toOption,
      ∀ lsp' ∈ (Lsp.decode frame' 0).toOption,
        lsp.id = lsp'.id → lsp.seqno = lsp'.seqno → lsp = lsp') <| by
    have hmem (frame : Octets) (lsp : Lsp) :
        lsp ∈ (Lsp.decode frame 0).toOption ↔ Lsp.decode frame 0 = .ok lsp := by
      cases Lsp.decode frame 0 <;> simp [Except.toOption]
    unfold Consistent
    simp only [hmem]
    grind

/-- A database holds the most recent LSPs of those that another one held before and those that have
arrived. -/
structure Collected (before : Database) (frames : List Octets) (after : Database) : Prop where
  valid : after.Valid
  latest : ∀ id lsp, after.lsp? id = some lsp → Latest before frames id lsp
  stored : ∀ id lsp, Offered before frames id lsp → ∃ present, after.lsp? id = some present

variable {inst : Instance} {before after : Database} {frames frames' : List Octets} {id : LspId}
  {lsp other : Lsp}

/-- With another frame, its LSP is the only one that may be new. -/
theorem offered_concat {frame : Octets} : Offered before (frames ++ [frame]) id lsp ↔
    Offered before frames id lsp ∨ Lsp.decode frame 0 = .ok lsp ∧ lsp.id = id := by
  unfold Offered
  simp only [List.mem_append, List.mem_singleton, or_and_right, exists_or, exists_eq_left,
    or_assoc]

/-- What has been offered stays so if more frames arrive. -/
theorem Offered.mono (h : Offered before frames id lsp) (hframes : frames ⊆ frames') :
    Offered before frames' id lsp :=
  h.imp_right fun ⟨frame, hframe, hlsp⟩ => ⟨frame, hframes hframe, hlsp⟩

/-- Only which frames have arrived matters for the most recent LSP. -/
theorem latest_congr (hframes : ∀ frame, frame ∈ frames ↔ frame ∈ frames') :
    Latest before frames id lsp ↔ Latest before frames' id lsp := by
  have himp {one two : List Octets} (hsame : ∀ frame, frame ∈ one ↔ frame ∈ two)
      (h : Latest before one id lsp) : Latest before two id lsp :=
    ⟨h.offered.mono fun frame => (hsame frame).1,
      fun other hother => h.newest other (hother.mono fun frame => (hsame frame).2), h.kept⟩
  exact ⟨himp hframes, himp fun frame => (hframes frame).symm⟩

/-- There is at most one most recent LSP. -/
theorem Latest.eq (hconsistent : Consistent frames) (h : Latest before frames id lsp)
    (hother : Latest before frames id other) : lsp = other := by
  have hle : lsp.seqno ≤ other.seqno := hother.newest lsp h.offered
  have hge : other.seqno ≤ lsp.seqno := h.newest other hother.offered
  rcases h.offered with hstored | ⟨frame, hframe, hdecode, hid⟩
  · exact (hother.kept lsp hstored hge).symm
  · rcases hother.offered with hstored | ⟨frame', hframe', hdecode', hid'⟩
    · exact h.kept other hstored hle
    · exact hconsistent frame hframe frame' hframe' lsp other hdecode hdecode'
        (hid.trans hid'.symm) (UInt32.le_antisymm hle hge)

/-- Before anything has arrived, the database holds what it held before. -/
theorem collected_nil (hvalid : before.Valid) : Collected before [] before := by
  have hstored {id : LspId} {lsp : Lsp} (h : Offered before [] id lsp) :
      before.lsp? id = some lsp :=
    h.resolve_right fun ⟨_, hframe, _⟩ => List.not_mem_nil hframe
  refine ⟨hvalid, fun id lsp hlsp => ⟨Or.inl hlsp, fun other hother => ?_, ?_⟩,
    fun id lsp hlsp => ⟨lsp, hstored hlsp⟩⟩
  · have heq : lsp = other := Option.some.inj (hlsp.symm.trans (hstored hother))
    rw [heq]
    exact UInt32.le_refl _
  · intro present hpresent _
    exact Option.some.inj (hlsp.symm.trans hpresent)

/-- The LSPs that are held are the most recent ones. -/
theorem Collected.lsp?_eq_some_iff (h : Collected before frames after)
    (hconsistent : Consistent frames) :
    after.lsp? id = some lsp ↔ Latest before frames id lsp := by
  refine ⟨h.latest id lsp, fun hlatest => ?_⟩
  obtain ⟨present, hpresent⟩ := h.stored id lsp hlatest.offered
  rw [hpresent, (h.latest id present hpresent).eq hconsistent hlatest]

/-- A frame that carries no LSP, or one that is not more recent than the present one, makes no
difference. -/
theorem Collected.pass (h : Collected before frames after) {frame : Octets}
    (hstale : ∀ lsp, Lsp.decode frame 0 = .ok lsp →
      ∃ present, after.lsp? lsp.id = some present ∧ lsp.seqno ≤ present.seqno) :
    Collected before (frames ++ [frame]) after := by
  refine ⟨h.valid, fun id lsp hlsp => ?_, fun id lsp hlsp => ?_⟩
  · have hlatest := h.latest id lsp hlsp
    refine ⟨offered_concat.2 (Or.inl hlatest.offered), fun other hother => ?_, hlatest.kept⟩
    rcases offered_concat.1 hother with hother | ⟨hdecode, rfl⟩
    · exact hlatest.newest other hother
    · obtain ⟨present, hpresent, hle⟩ := hstale other hdecode
      have heq : present = lsp := Option.some.inj (hpresent.symm.trans hlsp)
      exact heq ▸ hle
  · rcases offered_concat.1 hlsp with hlsp | ⟨hdecode, rfl⟩
    · exact h.stored id lsp hlsp
    · obtain ⟨present, hpresent, -⟩ := hstale lsp hdecode
      exact ⟨present, hpresent⟩

/-- An LSP that is more recent than the present one takes its place. -/
theorem Collected.store (h : Collected before frames after) {frame : Octets}
    (hdecode : Lsp.decode frame 0 = .ok lsp)
    (hnewer : ∀ present, after.lsp? lsp.id = some present → present.seqno < lsp.seqno) :
    Collected before (frames ++ [frame]) (after.store lsp) := by
  have hlookup (id : LspId) :
      (after.store lsp).lsp? id = if id = lsp.id then some lsp else after.lsp? id := by
    unfold Database.lsp? Database.store Lsp.key
    rw [Avl.Map.find?_put h.valid]
    exact if_congr ⟨LspId.key_inj, congrArg LspId.key⟩ rfl rfl
  have harrived {other : Lsp} (hother : Lsp.decode frame 0 = .ok other) : other = lsp :=
    Except.ok.inj (hother.symm.trans hdecode)
  -- Whatever has been offered under its ID before is less recent.
  have holder : ∀ other, Offered before frames lsp.id other → other.seqno < lsp.seqno := by
    intro other hother
    obtain ⟨present, hpresent⟩ := h.stored lsp.id other hother
    exact UInt32.lt_of_le_of_lt ((h.latest lsp.id present hpresent).newest other hother)
      (hnewer present hpresent)
  refine ⟨Avl.Map.valid_put h.valid _ _, fun id found hfound => ?_, fun id found hfound => ?_⟩
  · rw [hlookup] at hfound
    split at hfound
    · rename_i hid
      cases hfound
      subst hid
      refine ⟨offered_concat.2 (Or.inr ⟨hdecode, rfl⟩), fun other hother => ?_, ?_⟩
      · rcases offered_concat.1 hother with hother | ⟨hother, -⟩
        · exact UInt32.le_of_lt (holder other hother)
        · rw [harrived hother]
          exact UInt32.le_refl _
      · intro present hpresent hle
        exact absurd (holder present (Or.inl hpresent)) (UInt32.not_lt.2 hle)
    · rename_i hid
      have hlatest := h.latest id found hfound
      refine ⟨offered_concat.2 (Or.inl hlatest.offered), fun other hother => ?_, hlatest.kept⟩
      rcases offered_concat.1 hother with hother | ⟨hother, hsame⟩
      · exact hlatest.newest other hother
      · rw [harrived hother] at hsame
        exact absurd hsame.symm hid
  · rw [hlookup]
    split
    · exact ⟨lsp, rfl⟩
    · rename_i hid
      rcases offered_concat.1 hfound with hfound | ⟨hfound, hsame⟩
      · exact h.stored id found hfound
      · rw [harrived hfound] at hsame
        exact absurd hsame.symm hid

/-- A frame that arrives on a link of the router is taken into account. -/
theorem Collected.receive (h : Collected before frames inst.database) {name : String}
    (hname : name ∈ inst.names) (frame : Octets) :
    Collected before (frames ++ [frame]) (inst.receive name frame).value.2.database := by
  rcases (inst.receive_value name frame).2 with ⟨-, hvalue, hstale⟩ |
    ⟨reading, -, hread, hnewer, -, hvalue⟩
  · rw [hvalue]
    refine h.pass fun lsp hdecode => ?_
    obtain ⟨reading, hread, rfl⟩ := Lsp.decode_eq_ok_iff.1 hdecode
    obtain ⟨present, hpresent, hnot⟩ := hstale hname reading hread
    exact ⟨present, hpresent, UInt32.not_lt.1 hnot⟩
  · rw [hvalue]
    exact h.store (Lsp.decode_eq_ok_iff.2 ⟨reading, hread, rfl⟩) hnewer

/-! ### Rows of frames -/

/-- Frames arrive one after the other, each on the link it is given with. -/
def arrivals (deliveries : List (String × Octets)) : List Operation :=
  deliveries.map fun delivery => .receive delivery.1 delivery.2

/-- After a row of frames has arrived, the database holds the most recent LSPs. -/
theorem collected_arrivals (hvalid : inst.database.Valid) (deliveries : List (String × Octets))
    (hnames : ∀ delivery ∈ deliveries, delivery.1 ∈ inst.names) :
    Collected inst.database (deliveries.map (·.2))
      (inst.run (arrivals deliveries)).value.database := by
  induction deliveries using List.reverseRecOn with
  | nil => exact collected_nil hvalid
  | append_singleton deliveries delivery ih =>
    have hrow := ih fun other hother => hnames other (List.mem_append_left _ hother)
    have hname : delivery.1 ∈ (inst.run (arrivals deliveries)).value.names := by
      rw [names_run]
      exact hnames delivery (List.mem_append_right _ (List.mem_singleton_self _))
    have hlast := hrow.receive hname delivery.2
    rw [arrivals, List.map_append, List.map_append, List.map_singleton, List.map_singleton,
      run_concat]
    exact hlast

/-- Frames that arrive change neither the configuration nor the links, flags apart. -/
theorem bare_arrivals (inst : Instance) (deliveries : List (String × Octets)) :
    (inst.run (arrivals deliveries)).value.config = inst.config ∧
      (inst.run (arrivals deliveries)).value.bare.links = inst.bare.links := by
  induction deliveries generalizing inst with
  | nil => exact ⟨rfl, rfl⟩
  | cons delivery deliveries ih =>
    obtain ⟨hconfig, hlinks⟩ := ih (inst.receive delivery.1 delivery.2).value.2
    rcases inst.bare_receive delivery.1 delivery.2 with hbare | ⟨lsp, -, -, hbare⟩
    · exact ⟨hconfig.trans (congrArg config hbare :), hlinks.trans (congrArg links hbare :)⟩
    · exact ⟨hconfig.trans (congrArg config hbare :), hlinks.trans (congrArg links hbare :)⟩

/-- Two rows of the same frames lead to the same listing of the database. -/
theorem Mirrored.toList_arrivals (h : Mirrored inst) {first second : List (String × Octets)}
    (hfirst : ∀ delivery ∈ first, delivery.1 ∈ inst.names)
    (hsecond : ∀ delivery ∈ second, delivery.1 ∈ inst.names)
    (hframes : ∀ frame, frame ∈ first.map (·.2) ↔ frame ∈ second.map (·.2))
    (hconsistent : Consistent (first.map (·.2))) :
    (inst.run (arrivals first)).value.database.toList =
      (inst.run (arrivals second)).value.database.toList := by
  have hconsistent' : Consistent (second.map (·.2)) := fun frame hframe frame' hframe' =>
    hconsistent frame ((hframes frame).2 hframe) frame' ((hframes frame').2 hframe')
  have hcollected := collected_arrivals h.valid first hfirst
  have hcollected' := collected_arrivals h.valid second hsecond
  refine (h.run (arrivals first)).filed.toList_eq (h.run (arrivals second)).filed hcollected.valid
    hcollected'.valid fun id => ?_
  apply Option.ext
  intro lsp
  rw [hcollected.lsp?_eq_some_iff hconsistent, hcollected'.lsp?_eq_some_iff hconsistent']
  exact latest_congr hframes

/-- The router's own LSP may be replaced by what arrives, but it does not go away. -/
theorem isSome_router?_arrivals (hvalid : inst.database.Valid)
    (hown : (inst.database.router? inst.systemId).isSome) {deliveries : List (String × Octets)}
    (hnames : ∀ delivery ∈ deliveries, delivery.1 ∈ inst.names) :
    ((inst.run (arrivals deliveries)).value.database.router?
      (inst.run (arrivals deliveries)).value.systemId).isSome := by
  obtain ⟨own, hlsp⟩ := Option.isSome_iff_exists.1 hown
  obtain ⟨present, hpresent⟩ :=
    (collected_arrivals hvalid deliveries hnames).stored _ own (Or.inl hlsp)
  unfold systemId at hpresent ⊢
  rw [(inst.bare_arrivals deliveries).1]
  exact Option.isSome_iff_exists.2 ⟨present, hpresent⟩

/-- Two rows of the same frames, in any order, with any repetitions and on any links of the router,
lead to the same routing, if an LSP ID and a sequence number stand for one LSP among them. In any
state that a router reaches with an LSP of its own, the database then holds under every LSP ID the
most recent one of those stored before and those that have arrived, a shortest-path run succeeds,
and its tree, the next hops and the routes are the same. -/
theorem routing_arrivalOrder (config : InstanceConfig) (room : Option Nat)
    (operations : List Operation) (inst : Instance)
    (hinst : inst = (({ ofConfig config with transmissions := ⟨[], room⟩ } : Instance).run
      operations).value)
    (hown : (inst.database.router? inst.systemId).isSome)
    (first second : List (String × Octets))
    (hfirst : ∀ delivery ∈ first, delivery.1 ∈ config.links.map (·.name))
    (hsecond : ∀ delivery ∈ second, delivery.1 ∈ config.links.map (·.name))
    (hframes : ∀ frame, frame ∈ first.map (·.2) ↔ frame ∈ second.map (·.2))
    (hconsistent : Consistent (first.map (·.2))) (now now' : Timestamp) :
    let one := ((inst.run (arrivals first)).value.runSpf now).value
    let other := ((inst.run (arrivals second)).value.runSpf now').value
    one.1 = .ok () ∧ other.1 = .ok () ∧
      (∀ id lsp, one.2.database.lsp? id = some lsp ↔
        Latest inst.database (first.map (·.2)) id lsp) ∧
      one.2.database.toList = other.2.database.toList ∧
      one.2.topology.entries = other.2.topology.entries ∧
      one.2.routes = other.2.routes := by
  have hmirrored : Mirrored inst := hinst ▸ (mirrored_ofConfig config room).run operations
  have hnames : inst.names = config.links.map (·.name) := by
    rw [hinst, names_run]
    exact names_ofConfig config
  rw [← hnames] at hfirst hsecond
  have hcollected := collected_arrivals hmirrored.valid first hfirst
  have hlisting := hmirrored.toList_arrivals hfirst hsecond hframes hconsistent
  obtain ⟨hconfig, hlinks⟩ := inst.bare_arrivals first
  obtain ⟨hconfig', hlinks'⟩ := inst.bare_arrivals second
  have hstored := isSome_router?_arrivals hmirrored.valid hown hfirst
  obtain ⟨entries, hvalue, hvalue', hroutes⟩ := runSpf_congr hcollected.valid
    (hmirrored.run (arrivals second)).valid hlisting
    (congrArg InstanceConfig.systemId (hconfig.trans hconfig'.symm))
    (hlinks.trans hlinks'.symm) hstored now now'
  intro one other
  have hone : one = (.ok (), (inst.run (arrivals first)).value.withTree entries now) := hvalue
  have hother : other = (.ok (), (inst.run (arrivals second)).value.withTree entries now') :=
    hvalue'
  rw [hone, hother]
  exact ⟨rfl, rfl, fun id lsp => hcollected.lsp?_eq_some_iff hconsistent, hlisting, rfl, hroutes⟩

/-- The LSPs of the neighbor arrive in their order, with noise between them. -/
def inOrder : List (String × Octets) :=
  [("e", introduction.encode), ("f", [1, 2, 3]), ("e", connected.encode)]

/-- The second LSP overtakes the first one, and arrives on both links. -/
def overtaken : List (String × Octets) :=
  [("f", connected.encode), ("e", introduction.encode), ("e", connected.encode), ("e", [1, 2, 3])]

theorem routing_arrivalOrder_overtaken :
    let inst := (({ ofConfig double with transmissions := ⟨[], none⟩ } : Instance).run
      [completed 10]).value
    let one := ((inst.run (arrivals inOrder)).value.runSpf ⟨1, 0⟩).value
    let other := ((inst.run (arrivals overtaken)).value.runSpf ⟨2, 0⟩).value
    (inst.database.router? inst.systemId).isSome ∧
      (∀ delivery ∈ inOrder, delivery.1 ∈ double.links.map (·.name)) ∧
      (∀ delivery ∈ overtaken, delivery.1 ∈ double.links.map (·.name)) ∧
      (∀ frame, frame ∈ inOrder.map (·.2) ↔ frame ∈ overtaken.map (·.2)) ∧
      Consistent (inOrder.map (·.2)) ∧ one.2.routes.size = 1 ∧
      one.1 = .ok () ∧ other.1 = .ok () ∧
      (∀ id lsp, one.2.database.lsp? id = some lsp ↔
        Latest inst.database (inOrder.map (·.2)) id lsp) ∧
      one.2.database.toList = other.2.database.toList ∧
      one.2.topology.entries = other.2.topology.entries ∧
      one.2.routes = other.2.routes := by
  intro inst one other
  have hown : (inst.database.router? inst.systemId).isSome := by decide +kernel
  have hfirst : ∀ delivery ∈ inOrder, delivery.1 ∈ double.links.map (·.name) := by decide +kernel
  have hsecond : ∀ delivery ∈ overtaken, delivery.1 ∈ double.links.map (·.name) := by
    decide +kernel
  have hframes (frame : Octets) : frame ∈ inOrder.map (·.2) ↔ frame ∈ overtaken.map (·.2) := by
    have hsub : inOrder.map (·.2) ⊆ overtaken.map (·.2) := by decide +kernel
    have hsub' : overtaken.map (·.2) ⊆ inOrder.map (·.2) := by decide +kernel
    exact ⟨fun h => hsub h, fun h => hsub' h⟩
  have hconsistent : Consistent (inOrder.map (·.2)) := by decide +kernel
  exact ⟨hown, hfirst, hsecond, hframes, hconsistent, by decide +kernel,
    routing_arrivalOrder double none [completed 10] inst rfl hown inOrder overtaken hfirst hsecond
      hframes hconsistent ⟨1, 0⟩ ⟨2, 0⟩⟩

end Instance

end LinkState
