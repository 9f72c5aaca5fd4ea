import Mathlib.Data.List.Induction
import LinkState.Proofs.Avl.Validity
import LinkState.Proofs.Instance.Effects
import LinkState.Proofs.Keys

/-!
# Which LSPs replace which

The stored LSPs of an instance are accounted for (`Accounted`): each has arrived in a frame, or it
is one of the router's own, which are numbered by their count. Every operation keeps that
(`Accounted.perform`), so it is true after every run (`accounted_run`).

A received LSP replaces less recent ones only. The router's own LSP is stored without question,
under the next number of the router. That number is greater than the numbers of all its earlier
LSPs, but it knows nothing of an LSP that came from elsewhere under the router's own ID. Such an
LSP, and no other, may be replaced by one with a smaller sequence number (`recent_or_renewed`).
-/

namespace LinkState

/-- What is found after an LSP has been stored is that LSP, or it was there before. -/
theorem Database.eq_or_find?_of_store {database : Database} (hvalid : database.Valid)
    {lsp found : Lsp} {key : UInt64} (h : (database.store lsp).find? key = some found) :
    key = lsp.key ∧ found = lsp ∨ database.find? key = some found := by
  rw [store, Avl.Map.find?_put hvalid] at h
  split at h
  · rename_i hkey
    exact Or.inl ⟨hkey, (Option.some.inj h).symm⟩
  · exact Or.inr h

namespace Instance

/-- What is true of an instance after a row of operations in which it has originated its LSPs. -/
structure Accounted (config : InstanceConfig) (operations : List Operation) (originated : List Lsp)
    (inst : Instance) : Prop where
  config_eq : inst.config = config
  valid : inst.database.Valid
  seqno_eq : inst.seqno = UInt32.ofNat originated.length
  /-- No LSP of the router's own has a number beyond their count. -/
  own : ∀ lsp ∈ originated,
    lsp.id = .ofSystem config.systemId ∧ lsp.seqno.toNat ≤ originated.length
  /-- An LSP is stored under its own key. -/
  filed : ∀ key lsp, inst.database.find? key = some lsp → key = lsp.key
  stored : ∀ key lsp, inst.database.find? key = some lsp → Arrived operations lsp ∨ lsp ∈ originated

variable {config : InstanceConfig} {operations : List Operation} {originated : List Lsp}
  {inst after : Instance} {lsp : Lsp}

/-- Nothing is stored before the first operation. -/
theorem accounted_ofConfig (config : InstanceConfig) :
    Accounted config [] [] (ofConfig config) where
  config_eq := rfl
  valid := Avl.Map.valid_empty
  seqno_eq := rfl
  own _ h := absurd h List.not_mem_nil
  filed _ _ h := by cases h
  stored _ _ h := by cases h

/-- The next number of the router's own is the count of its LSPs with the next one. -/
theorem Accounted.seqno_succ (h : Accounted config operations originated inst) :
    inst.seqno + 1 = UInt32.ofNat (originated.length + 1) := by
  rw [h.seqno_eq, UInt32.ofNat_add]
  rfl

/-- An LSP that is itself accounted for leaves everything so when it is stored. -/
theorem Accounted.store (h : Accounted config operations originated inst)
    (hconfig : after.config = inst.config)
    (hdatabase : after.database = Database.store inst.database lsp) {operations' : List Operation}
    {originated' : List Lsp} (hseqno : after.seqno = UInt32.ofNat originated'.length)
    (hown : ∀ lsp ∈ originated',
      lsp.id = .ofSystem config.systemId ∧ lsp.seqno.toNat ≤ originated'.length)
    (hlsp : Arrived operations' lsp ∨ lsp ∈ originated')
    (hmore : ∀ lsp, Arrived operations lsp ∨ lsp ∈ originated →
      Arrived operations' lsp ∨ lsp ∈ originated') :
    Accounted config operations' originated' after where
  config_eq := hconfig.trans h.config_eq
  valid := hdatabase ▸ Avl.Map.valid_put h.valid _ _
  seqno_eq := hseqno
  own := hown
  filed key found hfound := by
    rw [hdatabase] at hfound
    rcases Database.eq_or_find?_of_store h.valid hfound with ⟨hkey, rfl⟩ | hfound
    · exact hkey
    · exact h.filed key found hfound
  stored key found hfound := by
    rw [hdatabase] at hfound
    rcases Database.eq_or_find?_of_store h.valid hfound with ⟨-, rfl⟩ | hfound
    · exact hlsp
    · exact hmore found (h.stored key found hfound)

/-- The router's own LSPs go on being numbered by their count. -/
theorem Accounted.own_concat (h : Accounted config operations originated inst)
    (hrenews : Renews inst after lsp) : ∀ other ∈ originated ++ [lsp],
      other.id = .ofSystem config.systemId ∧
        other.seqno.toNat ≤ (originated ++ [lsp]).length := by
  intro other hother
  rw [List.length_append, List.length_singleton]
  rcases List.mem_append.1 hother with hother | hother
  · obtain ⟨hid, hle⟩ := h.own other hother
    exact ⟨hid, Nat.le_succ_of_le hle⟩
  · cases List.mem_singleton.1 hother
    refine ⟨h.config_eq ▸ hrenews.id_eq, ?_⟩
    rw [hrenews.seqno_eq, h.seqno_succ, UInt32.toNat_ofNat']
    exact Nat.mod_le _ _

/-- An operation leaves everything accounted for. -/
theorem Accounted.perform (h : Accounted config operations originated inst)
    (operation : Operation) :
    Accounted config (operations ++ [operation])
      (originated ++ originations (inst.perform operation).records)
      (inst.perform operation).value := by
  have hmore (lsp : Lsp) (hlsp : Arrived operations lsp ∨ lsp ∈ originated) :
      Arrived (operations ++ [operation]) lsp ∨ lsp ∈ originated :=
    hlsp.imp_left fun harrived => harrived.concat operation
  obtain ⟨hconfig, ⟨hnone, hseqno, hsame | ⟨lsp, haccepts⟩⟩ | ⟨lsp, hone, hrenews⟩⟩ :=
    inst.perform_cases operation
  · -- The database is as it was.
    rw [hnone, List.append_nil]
    exact ⟨hconfig.trans h.config_eq, hsame ▸ h.valid, hseqno.trans h.seqno_eq, h.own,
      hsame ▸ h.filed, hsame ▸ fun key lsp hlsp => hmore lsp (h.stored key lsp hlsp)⟩
  · -- The LSP of a frame is stored.
    rw [hnone, List.append_nil]
    exact h.store hconfig haccepts.database_eq (hseqno.trans h.seqno_eq) h.own
      (Or.inl (haccepts.arrived operations)) hmore
  · -- The router's own LSP is stored under the next number.
    rw [hone]
    have hseqno : (inst.perform operation).value.seqno =
        UInt32.ofNat (originated ++ [lsp]).length := by
      rw [hrenews.counter_eq, h.seqno_succ, List.length_append, List.length_singleton]
    exact h.store hconfig hrenews.database_eq hseqno (h.own_concat hrenews)
      (Or.inr (List.mem_append_right _ (List.mem_singleton_self _)))
      fun other hother => (hmore other hother).imp_right (List.mem_append_left _)

/-- After every run everything is accounted for. -/
theorem accounted_run (config : InstanceConfig) (operations : List Operation) :
    Accounted config operations (originations ((ofConfig config).run operations).records)
      ((ofConfig config).run operations).value := by
  induction operations using List.reverseRecOn with
  | nil => exact accounted_ofConfig config
  | append_singleton operations operation ih =>
    rw [run_concat, Traced.records_bind, originations_append]
    exact ih.perform operation

/-- An operation leaves a stored LSP in place or replaces it by a more recent one, unless it is an
LSP from elsewhere under the router's own ID, which the router's own LSP replaces. -/
theorem Accounted.exists_next (h : Accounted config operations originated inst)
    {operation : Operation} {id : LspId} (hlsp : inst.database.lsp? id = some lsp)
    (hfew : (originated ++ originations (inst.perform operation).records).length < 2 ^ 32) :
    ∃ next, (inst.perform operation).value.database.lsp? id = some next ∧
      (lsp.seqno ≤ next.seqno ∨
        id = .ofSystem config.systemId ∧ Arrived operations lsp ∧
          originations (inst.perform operation).records = [next] ∧
          next.seqno.toNat = (originated ++ [next]).length) := by
  have hid : id = lsp.id := LspId.key_inj (h.filed id.key lsp hlsp)
  obtain ⟨-, ⟨-, -, hsame | ⟨next, haccepts⟩⟩ | ⟨next, hone, hrenews⟩⟩ :=
    inst.perform_cases operation
  · exact ⟨lsp, hsame ▸ hlsp, Or.inl (UInt32.le_refl _)⟩
  · rw [haccepts.database_eq, Database.lsp?, Database.store, Avl.Map.find?_put h.valid]
    split
    · rename_i hkey
      exact ⟨next, rfl, Or.inl (UInt32.le_of_lt (haccepts.newer lsp (hkey ▸ hlsp)))⟩
    · exact ⟨lsp, hlsp, Or.inl (UInt32.le_refl _)⟩
  · rw [hone] at hfew ⊢
    have hlength : (originated ++ [next]).length = originated.length + 1 := List.length_append
    have hseqno : next.seqno.toNat = originated.length + 1 := by
      rw [hrenews.seqno_eq, h.seqno_succ]
      exact UInt32.toNat_ofNat_of_lt' (hlength ▸ hfew)
    rw [hrenews.database_eq, Database.lsp?, Database.store, Avl.Map.find?_put h.valid]
    split
    · rename_i hkey
      have hown : id = .ofSystem config.systemId := by
        rw [LspId.key_inj hkey, hrenews.id_eq]
        exact congrArg (fun config => LspId.ofSystem config.systemId) h.config_eq
      refine ⟨next, rfl, ?_⟩
      rcases h.stored id.key lsp hlsp with harrived | hmem
      · exact Or.inr ⟨hown, harrived, rfl, hseqno.trans hlength.symm⟩
      · -- The router's own number is greater than those of all its earlier LSPs.
        have hle := (h.own lsp hmem).2
        rw [UInt32.le_iff_toNat_le]
        omega
    · exact ⟨lsp, hlsp, Or.inl (UInt32.le_refl _)⟩

/-- The sequence number that is stored under an LSP ID never decreases from one operation of a run
to the next, as long as the router's own numbers have not wrapped around. The one exception is an
LSP that has arrived under the router's own ID: the router's own LSP replaces it, whose number is
the count of the LSPs that the router has originated. -/
theorem recent_or_renewed (config : InstanceConfig) (operations : List Operation)
    (operation : Operation) (id : LspId) (lsp : Lsp)
    (hlsp : ((ofConfig config).run operations).value.database.lsp? id = some lsp)
    (hfew : (originations ((ofConfig config).run (operations ++ [operation])).records).length <
      2 ^ 32) :
    ∃ next,
      ((ofConfig config).run (operations ++ [operation])).value.database.lsp? id = some next ∧
        (lsp.seqno ≤ next.seqno ∨
          id = .ofSystem config.systemId ∧ Arrived operations lsp ∧
            originations (((ofConfig config).run operations).value.perform operation).records =
              [next] ∧
            next.seqno.toNat = (originations
              ((ofConfig config).run (operations ++ [operation])).records).length) := by
  rw [run_concat, Traced.records_bind, originations_append] at hfew ⊢
  rw [Traced.value_bind]
  obtain ⟨next, hnext, hcases⟩ := (accounted_run config operations).exists_next hlsp hfew
  refine ⟨next, hnext, hcases.imp_right ?_⟩
  rintro ⟨hid, harrived, hone, hseqno⟩
  exact ⟨hid, harrived, hone, hone ▸ hseqno⟩

/-! ### A router that starts again -/

/-- The LSP that the router has originated before, the fifth one. -/
def former : Lsp := Lsp.ofLinks single.systemId [] 5 1200

/-- A neighbor sends the former LSP back. -/
def sentBack : Operation := .receive "e" former.encode

/-- The first LSP since the start replaces the former one. -/
theorem recent_or_renewed_restarted :
    ((ofConfig single).run [sentBack]).value.database.lsp? former.id = some former ∧
      (originations ((ofConfig single).run ([sentBack] ++ [.originate])).records).length <
        2 ^ 32 ∧
      ∃ next,
        ((ofConfig single).run ([sentBack] ++ [.originate])).value.database.lsp? former.id =
            some next ∧
          (former.seqno ≤ next.seqno ∨
            former.id = .ofSystem single.systemId ∧ Arrived [sentBack] former ∧
              originations
                  (((ofConfig single).run [sentBack]).value.perform .originate).records =
                [next] ∧
              next.seqno.toNat = (originations
                ((ofConfig single).run ([sentBack] ++ [.originate])).records).length) := by
  have hstored : ((ofConfig single).run [sentBack]).value.database.lsp? former.id =
      some former := by
    decide +kernel
  have hfew : (originations
      ((ofConfig single).run ([sentBack] ++ [.originate])).records).length < 2 ^ 32 := by
    decide +kernel
  exact ⟨hstored, hfew, recent_or_renewed single [sentBack] .originate former.id former hstored
    hfew⟩

/-- The number that is stored decreases from five to one by that. -/
theorem seqno_decreases_restarted :
    (((ofConfig single).run [sentBack]).value.database.lsp? former.id).map Lsp.seqno = some 5 ∧
      (((ofConfig single).run [sentBack, .originate]).value.database.lsp? former.id).map
        Lsp.seqno = some 1 ∧
      (originations ((ofConfig single).run [sentBack, .originate]).records).length = 1 := by
  decide +kernel

end Instance

end LinkState
