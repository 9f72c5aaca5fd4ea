import LinkState.Proofs.Avl.Balance
import LinkState.Proofs.Avl.Entries

/-!
# Valid maps

A map is valid if its tree is a balanced search tree and its size is the number of nodes. The map
without entries is valid and every operation keeps it so. On a valid map a lookup after an operation
is a matter of the key alone: `find?_insert`, `find?_put`, `find?_erase` and `find?_modify` are all
that the database and the shortest-path search need to know of the tree.
-/

namespace LinkState.Avl.Map

open Ranked (rank)

variable {α : Type u} {map : Map α} {key : UInt64} {value : α}

/-- The invariant of the maps that the operations build. -/
structure Valid (map : Map α) : Prop where
  /-- Keys are smaller on the left of every node and larger on its right. -/
  ordered : map.tree.Ordered
  /-- Every node keeps its own height, and its children are nearly equally high, so that its balance
  is `-1`, `0` or `1` (`Tree.Balanced.balance_le`). -/
  balanced : map.tree.Balanced
  /-- The size counts the nodes. -/
  size_eq : map.size = map.tree.count

theorem valid_empty : (empty : Map α).Valid := ⟨trivial, trivial, rfl⟩

/-- Insertion keeps a map valid. -/
theorem valid_insert (h : map.Valid) (key : UInt64) (value : α) (overwrite : Bool) :
    (map.insert key value overwrite).1.Valid := by
  refine ⟨Tree.ordered_insert h.ordered overwrite, Tree.balanced_insert key value overwrite
    h.balanced, ?_⟩
  rw [insert, Tree.count_insert, h.size_eq]

/-- Putting a value under a key keeps a map valid. -/
theorem valid_put (h : map.Valid) (key : UInt64) (value : α) : (map.put key value).Valid :=
  valid_insert h key value true

/-- Removal keeps a map valid. -/
theorem valid_erase (h : map.Valid) (key : UInt64) : (map.erase key).1.Valid := by
  refine ⟨Tree.ordered_erase h.ordered, Tree.balanced_erase key h.balanced, ?_⟩
  rw [erase, Tree.count_erase, h.size_eq]

/-- Changing a value keeps a map valid. -/
theorem valid_modify (h : map.Valid) (key : UInt64) (change : α → α) :
    (map.modify key change).Valid :=
  ⟨Tree.ordered_modify h.ordered change, Tree.balanced_modify key change h.balanced,
    h.size_eq.trans (Tree.count_modify change).symm⟩

/-- The map of a list of entries is valid. -/
theorem valid_ofList (entries : List (UInt64 × α)) : (ofList entries).Valid := by
  rw [ofList]
  refine List.foldlRecOn entries _ valid_empty fun map h entry _ => ?_
  exact valid_put h entry.1 entry.2

/-! ### Lookups after an operation -/

/-- The value that is found under a key is the one in the listing. -/
theorem Valid.find?_eq_some_iff (h : map.Valid) :
    map.find? key = some value ↔ (key, value) ∈ map.toList :=
  h.ordered.find?_eq_some_iff

/-- A key with a value is one of the keys. -/
theorem mem_keys_of_find? (h : map.find? key = some value) : key ∈ map.keys :=
  List.mem_map.2 ⟨_, Tree.mem_toList_of_find? h, rfl⟩

/-- A value that is found is one of the values. -/
theorem mem_values_of_find? (h : map.find? key = some value) : value ∈ map.values :=
  List.mem_map.2 ⟨_, Tree.mem_toList_of_find? h, rfl⟩

/-- The entries are listed in strictly ascending key order. -/
theorem Valid.ascending (h : map.Valid) :
    map.toList.Pairwise fun a b => rank a.1 < rank b.1 :=
  Tree.ordered_iff.1 h.ordered

/-- Two valid maps agree on a key if the same values are listed under it. -/
theorem find?_congr {s t : Map α} (hs : s.Valid) (ht : t.Valid) {key key' : UInt64}
    (h : ∀ value, (key, value) ∈ s.toList ↔ (key', value) ∈ t.toList) :
    s.find? key = t.find? key' := by
  apply Option.ext
  intro value
  rw [hs.find?_eq_some_iff, ht.find?_eq_some_iff]
  exact h value

/-- An insertion places its entry in the listing, unless it is to keep a present one. -/
theorem toList_insert (h : map.Valid) (overwrite : Bool) :
    (map.insert key value overwrite).1.toList =
      if overwrite ∨ map.find? key = none then Table.place key value map.toList else map.toList :=
  Tree.toList_insert h.ordered overwrite

/-- A removal takes the entry with the key out of the listing. -/
theorem toList_erase (h : map.Valid) :
    (map.erase key).1.toList = map.toList.filter fun entry => entry.1 ≠ key :=
  Tree.toList_erase h.ordered

/-- The inserted value is found under its key unless a present one was to be kept; other keys keep
theirs. -/
theorem find?_insert (h : map.Valid) (overwrite : Bool) (key' : UInt64) :
    (map.insert key value overwrite).1.find? key' =
      if key' = key ∧ (overwrite ∨ map.find? key = none) then some value else map.find? key' := by
  have hinsert := valid_insert h key value overwrite
  by_cases hplaced : overwrite ∨ map.find? key = none
  · -- The entry stands under its key alone, and the others are those that were there.
    have hmem {entry : UInt64 × α} : entry ∈ (map.insert key value overwrite).1.toList ↔
        entry = (key, value) ∨ entry ∈ map.toList ∧ entry.1 ≠ key := by
      rw [toList_insert h, if_pos hplaced]
      exact Table.mem_place h.ascending
    split
    · rename_i hkey
      rw [hinsert.find?_eq_some_iff, hkey.1]
      exact hmem.2 (Or.inl rfl)
    · rename_i hkey
      have hne : key' ≠ key := fun heq => hkey ⟨heq, hplaced⟩
      refine find?_congr hinsert h fun value' => hmem.trans ?_
      exact ⟨fun h => (h.resolve_left fun heq => hne (congrArg Prod.fst heq)).1,
        fun h => Or.inr ⟨h, hne⟩⟩
  · -- A present value is kept, and so is the listing.
    rw [if_neg fun hboth => hplaced hboth.2]
    refine find?_congr hinsert h fun value' => ?_
    rw [toList_insert h, if_neg hplaced]

/-- A value that was put under a key is found there, and other keys keep theirs. -/
theorem find?_put (h : map.Valid) (key' : UInt64) :
    (map.put key value).find? key' = if key' = key then some value else map.find? key' := by
  rw [put, find?_insert h]
  simp only [true_or, and_true]

/-- After a removal nothing is found under the key, and other keys keep their values. -/
theorem find?_erase (h : map.Valid) (key' : UInt64) :
    (map.erase key).1.find? key' = if key' = key then none else map.find? key' := by
  have herase := valid_erase h key
  split
  · rename_i hkey
    apply Option.eq_none_iff_forall_ne_some.2
    intro value hfound
    rw [herase.find?_eq_some_iff, toList_erase h, List.mem_filter] at hfound
    exact of_decide_eq_true hfound.2 hkey
  · rename_i hkey
    refine find?_congr herase h fun value => ?_
    rw [toList_erase h, List.mem_filter]
    exact ⟨And.left, fun hmem => ⟨hmem, decide_eq_true hkey⟩⟩

/-- A change reaches the value under the key and no other one. -/
theorem find?_modify (change : α → α) (key' : UInt64) :
    (map.modify key change).find? key' =
      if key' = key then (map.find? key').map change else map.find? key' :=
  Tree.find?_modify change

end LinkState.Avl.Map
