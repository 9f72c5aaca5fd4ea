import Mathlib.Data.List.Basic
import LinkState.Database
import LinkState.Proofs.Avl.Validity
import LinkState.Proofs.Keys

/-!
# Filing LSPs in the database

Every LSP that is stored is filed under its own key (`Filed.store`), and nothing that is stored is
removed (`keys_subset_store`). Since different LSP IDs have different keys, the keys of a database
say which LSPs it holds (`Filed.mem_ids_iff`), and they are listed in the order of their IDs
(`Filed.pairwise_ids`). A lookup gives the stored LSP that has the ID (`Filed.lsp?_eq_some_iff`),
storing an LSP changes the answer for its own ID only (`lsp?_store`), and two databases that give
the same answers for all LSP IDs hold the same LSPs in the same order (`Filed.toList_eq`), however
their trees are shaped.
-/

namespace LinkState

/-- Different LSP IDs have different keys. -/
theorem LspId.key_injective : Function.Injective LspId.key := fun _ _ => LspId.key_inj

namespace Database

variable {database : Database}

/-- Every LSP is stored under its own key. -/
def Filed (database : Database) : Prop := ∀ entry ∈ database.toList, entry.1 = entry.2.key

/-- An LSP that is stored is placed under its key. -/
theorem toList_store (hvalid : database.Valid) (lsp : Lsp) :
    (database.store lsp).toList = Table.place lsp.key lsp database.toList := by
  unfold store Avl.Map.put
  rw [Avl.Map.toList_insert hvalid, if_pos (Or.inl rfl)]

/-- After an LSP is stored, every LSP is under its own key. -/
theorem Filed.store (h : database.Filed) (hvalid : database.Valid) (lsp : Lsp) :
    (database.store lsp).Filed := by
  intro entry hentry
  rw [toList_store hvalid, Table.mem_place hvalid.ascending] at hentry
  rcases hentry with rfl | ⟨hentry, -⟩
  · rfl
  · exact h entry hentry

/-- A key is one of those in the database if an LSP is found under it. -/
theorem mem_keys_iff (hvalid : database.Valid) {key : UInt64} :
    key ∈ database.keys ↔ ∃ lsp, database.find? key = some lsp := by
  unfold Avl.Map.keys
  simp only [List.mem_map, hvalid.find?_eq_some_iff]
  constructor
  · rintro ⟨entry, hentry, rfl⟩
    exact ⟨entry.2, hentry⟩
  · rintro ⟨lsp, hlsp⟩
    exact ⟨(key, lsp), hlsp, rfl⟩

/-- The keys of the stored LSPs are those in the database. -/
theorem Filed.map_key_ids (h : database.Filed) : database.ids.map LspId.key = database.keys := by
  unfold ids Avl.Map.keys Avl.Map.values
  rw [List.map_map, List.map_map]
  exact List.map_congr_left fun entry hentry => (h entry hentry).symm

/-- The IDs of the stored LSPs are in strictly ascending order. -/
theorem Filed.pairwise_ids (h : database.Filed) (hvalid : database.Valid) :
    database.ids.Pairwise (· < ·) := by
  have hkeys : (database.ids.map LspId.key).Pairwise (· < ·) := by
    rw [h.map_key_ids, Avl.Map.keys, List.pairwise_map]
    exact hvalid.ascending.imp UInt64.lt_iff_toNat_lt.2
  exact (List.pairwise_map.1 hkeys).imp LspId.key_lt_key_iff.1

/-- The IDs of the stored LSPs are those whose keys are in the database. -/
theorem Filed.mem_ids_iff (h : database.Filed) {id : LspId} :
    id ∈ database.ids ↔ id.key ∈ database.keys := by
  rw [← h.map_key_ids]
  exact (List.mem_map_of_injective LspId.key_injective).symm

/-- What is found under an LSP ID is the stored LSP that has it. -/
theorem Filed.lsp?_eq_some_iff (h : database.Filed) (hvalid : database.Valid) {id : LspId}
    {lsp : Lsp} : database.lsp? id = some lsp ↔ lsp ∈ database.values ∧ lsp.id = id := by
  unfold lsp? Avl.Map.values
  rw [hvalid.find?_eq_some_iff, List.mem_map]
  constructor
  · intro hmem
    exact ⟨⟨_, hmem, rfl⟩, (LspId.key_inj (h _ hmem)).symm⟩
  · rintro ⟨⟨entry, hmem, rfl⟩, rfl⟩
    have hkey : entry = (entry.2.key, entry.2) := Prod.ext (h entry hmem) rfl
    rw [hkey] at hmem
    exact hmem

/-- Storing an LSP changes what is found under its own ID and nothing else. -/
theorem lsp?_store (hvalid : database.Valid) (lsp : Lsp) (id : LspId) :
    (database.store lsp).lsp? id = if id = lsp.id then some lsp else database.lsp? id := by
  unfold lsp? store
  rw [Avl.Map.find?_put hvalid]
  exact if_congr LspId.key_injective.eq_iff rfl rfl

/-- Where all LSPs are filed under the keys of routers, no other router has one. -/
theorem mem_of_router?_eq_some {systems : List SystemId}
    (hkeys : database.keys = systems.map fun systemId => (LspId.ofSystem systemId).key)
    {systemId : SystemId} {lsp : Lsp} (h : database.router? systemId = some lsp) :
    systemId ∈ systems := by
  have hmem : (LspId.ofSystem systemId).key ∈ database.keys := Avl.Map.mem_keys_of_find? h
  rw [hkeys] at hmem
  obtain ⟨other, hother, hkey⟩ := List.mem_map.1 hmem
  have hsame : other = systemId := congrArg LspId.systemId (LspId.key_inj hkey)
  exact hsame ▸ hother

/-- Storing an LSP removes no key. -/
theorem keys_subset_store (hvalid : database.Valid) (lsp : Lsp) :
    database.keys ⊆ (database.store lsp).keys := by
  intro key hkey
  obtain ⟨found, hfound⟩ := (mem_keys_iff hvalid).1 hkey
  have hstored : (database.store lsp).Valid := Avl.Map.valid_put hvalid lsp.key lsp
  rw [mem_keys_iff hstored, store, Avl.Map.find?_put hvalid]
  split
  · exact ⟨lsp, rfl⟩
  · exact ⟨found, hfound⟩

/-- Databases that find the same LSP under every ID hold the same LSPs in the same order. -/
theorem Filed.toList_eq {other : Database} (h : database.Filed) (hother : other.Filed)
    (hvalid : database.Valid) (hvalid' : other.Valid)
    (hsame : ∀ id, database.lsp? id = other.lsp? id) : database.toList = other.toList := by
  have hsubset {s t : Database} (hs : s.Filed) (hvalid : s.Valid) (hvalid' : t.Valid)
      (hsame : ∀ id, s.lsp? id = t.lsp? id) : ∀ entry ∈ s.toList, entry ∈ t.toList := by
    intro entry hentry
    have hkey : entry = (entry.2.id.key, entry.2) := Prod.ext (hs entry hentry) rfl
    rw [hkey] at hentry ⊢
    exact hvalid'.find?_eq_some_iff.1 ((hsame entry.2.id).symm.trans
      (hvalid.find?_eq_some_iff.2 hentry))
  refine Table.entries_unique hvalid.ascending hvalid'.ascending fun entry => ⟨?_, ?_⟩
  · exact hsubset h hvalid hvalid' hsame entry
  · exact hsubset hother hvalid' hvalid (fun id => (hsame id).symm) entry

end Database

end LinkState
