import LinkState.Link
import LinkState.Proofs.Keys
import LinkState.Proofs.Lookup

/-!
# Flooding flags of a link

Of the flags of a link only two operations touch any: `setFlag` sets or clears the one of an LSP and
leaves the others (`isFlagged_setFlag`), and `takeFlagged` clears all of them if the adjacency is up
(`isFlagged_takeFlagged`) and gives the LSPs whose flag was set (`mem_flagged_iff`). Both keep every
entry under the key of its own LSP ID (`Filed`).
-/

namespace LinkState.Link

/-- Whether an LSP must be sent on a link. -/
def isFlagged (link : Link) (key : UInt64) : Bool := (link.flags.find? key).any (·.srm)

/-- Every entry is filed under the key of its own LSP ID. -/
def Filed (link : Link) : Prop := ∀ entry ∈ link.flags.entries, entry.1 = entry.2.id.key

variable {link : Link} {key : UInt64} {id : LspId}

/-- A new link has no entries. -/
theorem filed_ofConfig (config : LinkConfig) : (ofConfig config).Filed :=
  fun _ h => absurd h List.not_mem_nil

/-- Setting or clearing the flag of an LSP leaves the others as they are. -/
theorem isFlagged_setFlag (srm : Bool) :
    (link.setFlag id srm).isFlagged key = if key = id.key then srm else link.isFlagged key := by
  unfold isFlagged setFlag
  rw [Table.find?_insert]
  by_cases hkey : key = id.key
  · rw [if_pos (congrArg Ranked.rank hkey), if_pos hkey]
    rfl
  · rw [if_neg fun hrank => hkey (Ranked.rank_inj hrank), if_neg hkey]

/-- Setting or clearing a flag files it under the key of its LSP ID. -/
theorem Filed.setFlag (h : link.Filed) (id : LspId) (srm : Bool) : (link.setFlag id srm).Filed := by
  intro entry hentry
  rcases Table.mem_insert.1 hentry with rfl | ⟨hentry, -⟩
  · cases hfound : link.flags.find? id.key with
    | none => rfl
    | some state => exact h (id.key, state) (Table.find?_eq_some_iff.1 hfound)
  · exact h entry hentry

/-- The flag of an LSP is set if and only if there is an entry for it that says so. -/
theorem isFlagged_iff :
    link.isFlagged key ↔ ∃ state, (key, state) ∈ link.flags.entries ∧ state.srm := by
  unfold isFlagged
  simp only [Option.any_eq_true, Table.find?_eq_some_iff]

/-- The flagged LSPs are those whose flag is set. -/
theorem mem_flagged_iff (h : link.Filed) : id ∈ link.flagged ↔ link.isFlagged id.key := by
  unfold flagged Table.values
  rw [isFlagged_iff, List.mem_map]
  constructor
  · rintro ⟨state, hstate, rfl⟩
    obtain ⟨hvalue, hsrm⟩ := List.mem_filter.1 hstate
    obtain ⟨entry, hentry, rfl⟩ := List.mem_map.1 hvalue
    exact ⟨entry.2, h entry hentry ▸ hentry, hsrm⟩
  · rintro ⟨state, hentry, hsrm⟩
    have hid : id = state.id := LspId.key_inj (h _ hentry)
    exact ⟨state, List.mem_filter.2 ⟨List.mem_map.2 ⟨_, hentry, rfl⟩, hsrm⟩, hid.symm⟩

/-- The flagged LSPs are in key order. -/
theorem ascending_flagged (h : link.Filed) : (link.flagged.map LspId.key).Pairwise (· < ·) := by
  unfold flagged Table.values
  rw [List.map_map, List.pairwise_map]
  refine List.Pairwise.filter _ (List.pairwise_map.2 ?_)
  refine link.flags.ascending.imp_of_mem fun {a b} ha hb hlt => ?_
  have hkeys : a.1 < b.1 := UInt64.lt_iff_toNat_lt.2 hlt
  rw [h a ha, h b hb] at hkeys
  exact hkeys

/-- No LSP is flagged twice. -/
theorem nodup_flagged (h : link.Filed) : link.flagged.Nodup := by
  refine (List.pairwise_map.1 (ascending_flagged h)).imp fun {a b} hlt heq => ?_
  rw [heq] at hlt
  exact UInt64.lt_irrefl _ hlt

/-- A link that is up has its flags cleared, any other one keeps them. -/
theorem isFlagged_takeFlagged :
    link.takeFlagged.2.isFlagged key = (!link.adjacency.isUp && link.isFlagged key) := by
  unfold takeFlagged
  split
  · rename_i hup
    unfold isFlagged
    rw [Table.find?_map, hup]
    cases link.flags.find? key <;> rfl
  · rename_i hdown
    rw [Bool.eq_false_iff.2 hdown]
    rfl

/-- A link that is up gives the flagged LSPs, any other one none. -/
theorem takeFlagged_fst :
    link.takeFlagged.1 = if link.adjacency.isUp then link.flagged else [] := by
  unfold takeFlagged
  split <;> rfl

/-- Clearing all flags keeps the entries where they are. -/
theorem Filed.takeFlagged (h : link.Filed) : link.takeFlagged.2.Filed := by
  unfold Link.takeFlagged
  split
  · intro entry hentry
    obtain ⟨old, hold, rfl⟩ := List.mem_map.1 hentry
    exact h old hold
  · exact h

/-- Neither operation renames the link. -/
theorem name_takeFlagged : link.takeFlagged.2.name = link.name := by
  unfold takeFlagged
  split <;> rfl

end LinkState.Link
