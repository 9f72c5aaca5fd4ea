import LinkState.Proofs.Avl.FiniteMap

/-!
# Operations that keep the structure of a tree

Insertion and removal compute the height and the balance of every node on the way back up, also if
they have changed nothing below. On a balanced tree that gives every node back as it was
(`Balanced.rebalance_eq`, `Balanced.rebalanceInserted_eq`): the heights are exact already, and no
child is too tall. So removing an absent key gives the same tree (`Balanced.erase_eq`), and
inserting a present key is at most a change of the value under it (`Balanced.insert_eq`).

`Tree.changeAt` says what such a change is: the same nodes with the same keys and heights, one of
them with another value. `modify` goes down the path to the key only, and in a search tree no other
node has that key (`Ordered.modify_eq`).
-/

namespace LinkState.Avl

variable {α : Type u}

namespace Tree

variable {left right tree : Tree α} {key key' : UInt64} {value : α} {height : Nat}

/-- The same nodes with the same keys and heights, each with a value that its key and its value
determine. -/
def mapValues (change : UInt64 → α → α) : Tree α → Tree α
  | nil => nil
  | node left key value height right =>
    node (left.mapValues change) key (change key value) height (right.mapValues change)

/-- The same tree with another value under one key. -/
def changeAt (tree : Tree α) (key : UInt64) (change : α → α) : Tree α :=
  tree.mapValues fun key' value => if key' = key then change value else value

/-! ### Nothing to repair -/

/-- A new node over the children of a balanced one has the height that is kept already. -/
theorem Balanced.join_eq (h : (node left key value height right).Balanced) :
    join left key value right = node left key value height right := by
  obtain ⟨hl, hr, hheight, -, -⟩ := h
  rw [join, hl.height_eq, hr.height_eq, hheight]

/-- Restoring the balance of a balanced node gives it back. -/
theorem Balanced.rebalance_eq (h : (node left key value height right).Balanced) :
    rebalance left key value right = node left key value height right := by
  have hjoin : join left key value right = node left key value height right := h.join_eq
  obtain ⟨hl, hr, -, hlr, hrl⟩ := h
  rw [rebalance_eq_join hl hr hlr hrl, hjoin]

/-- No key asks a balanced node for a rotation. -/
theorem Balanced.rebalanceInserted_eq (h : (node left key' value height right).Balanced)
    (key : UInt64) :
    rebalanceInserted key left key' value right = node left key' value height right := by
  have hrebalance : rebalance left key' value right = node left key' value height right :=
    h.rebalance_eq
  obtain ⟨hl, hr, -, hlr, hrl⟩ := h
  have hleft : right.depth + 1 < left.depth → left.LeansTo key := fun htall => by omega
  have hright : left.depth + 1 < right.depth → right.LeansTo key := fun htall => by omega
  rw [rebalanceInserted_eq_rebalance hl hr hleft hright, hrebalance]

/-! ### The operations -/

/-- Removing a key that is absent gives back the same tree. -/
theorem Balanced.erase_eq (h : tree.Balanced) (habsent : tree.find? key = none) :
    tree.erase key = (tree, none) := by
  induction tree with
  | nil => rfl
  | node left key' value' height right ihl ihr =>
    rw [find?] at habsent
    unfold erase
    split
    · rename_i hlt
      rw [if_pos hlt] at habsent
      rw [ihl h.1 habsent]
      exact congrArg (·, none) h.rebalance_eq
    · rename_i hlt
      rw [if_neg hlt] at habsent
      split
      · rename_i hgt
        rw [if_pos hgt] at habsent
        rw [ihr h.2.1 habsent]
        exact congrArg (·, none) h.rebalance_eq
      · rename_i hgt
        rw [if_neg hgt] at habsent
        exact absurd habsent (Option.some_ne_none value')

/-- Inserting under a key that is present changes its value if that is asked for, and gives back the
same tree otherwise. -/
theorem Balanced.insert_eq (h : tree.Balanced) {present : α}
    (hpresent : tree.find? key = some present) (value : α) (overwrite : Bool) :
    tree.insert key value overwrite =
      if overwrite then (tree.modify key fun _ => value, .replaced) else (tree, .unchanged) := by
  induction tree with
  | nil => exact absurd hpresent (Option.some_ne_none present).symm
  | node left key' value' height right ihl ihr =>
    -- The node is balanced also after the change, which leaves its height as it is.
    have hchanged := balanced_modify key (fun _ => value) h
    rw [find?] at hpresent
    rw [modify] at hchanged ⊢
    rw [insert]
    split
    · rename_i hlt
      rw [if_pos hlt] at hpresent hchanged
      rw [ihl h.1 hpresent]
      cases overwrite with
      | true => exact congrArg (·, Insertion.replaced) (hchanged.rebalanceInserted_eq key)
      | false => exact congrArg (·, Insertion.unchanged) (h.rebalanceInserted_eq key)
    · rename_i hlt
      rw [if_neg hlt] at hpresent hchanged
      split
      · rename_i hgt
        rw [if_pos hgt] at hpresent hchanged
        rw [ihr h.2.1 hpresent]
        cases overwrite with
        | true => exact congrArg (·, Insertion.replaced) (hchanged.rebalanceInserted_eq key)
        | false => exact congrArg (·, Insertion.unchanged) (h.rebalanceInserted_eq key)
      · rfl

/-- A change under a key that no node has changes nothing. -/
theorem changeAt_eq_self (change : α → α) (h : ∀ entry ∈ tree.toList, entry.1 ≠ key) :
    tree.changeAt key change = tree := by
  induction tree with
  | nil => rfl
  | node left key' value' height right ihl ihr =>
    rw [toList, List.forall_mem_append, List.forall_mem_cons] at h
    obtain ⟨hleft, hroot, hright⟩ := h
    have hl : left.changeAt key change = left := ihl hleft
    have hr : right.changeAt key change = right := ihr hright
    change node (left.changeAt key change) key' (if key' = key then change value' else value')
      height (right.changeAt key change) = _
    rw [hl, hr, if_neg hroot]

/-- In a search tree the node that the path ends at is the only one with the key. -/
theorem Ordered.modify_eq (h : tree.Ordered) (key : UInt64) (change : α → α) :
    tree.modify key change = tree.changeAt key change := by
  induction tree with
  | nil => rfl
  | node left key' value' height right ihl ihr =>
    obtain ⟨hl, hr, hleft, hright⟩ := h
    change _ = node (left.changeAt key change) key' (if key' = key then change value' else value')
      height (right.changeAt key change)
    rw [modify]
    -- The side on which the key does not belong has no node with it.
    split
    · rename_i hlt
      have hrest : right.changeAt key change = right := changeAt_eq_self change fun entry hmem =>
        (UInt64.ne_of_lt (UInt64.lt_trans hlt (hright entry hmem))).symm
      rw [ihl hl, hrest, if_neg (UInt64.ne_of_lt hlt).symm]
    · rename_i hlt
      have hrest (hle : key' ≤ key) : left.changeAt key change = left :=
        changeAt_eq_self change fun entry hmem =>
          UInt64.ne_of_lt (UInt64.lt_of_lt_of_le (hleft entry hmem) hle)
      split
      · rename_i hgt
        rw [ihr hr, hrest (UInt64.le_of_lt hgt), if_neg (UInt64.ne_of_lt hgt)]
      · rename_i hgt
        obtain rfl := eq_of_not_lt hlt hgt
        have hrest' : right.changeAt key change = right := changeAt_eq_self change fun entry hmem =>
          (UInt64.ne_of_lt (hright entry hmem)).symm
        rw [hrest (UInt64.le_refl key), hrest', if_pos rfl]

end Tree

/-- The same map with another value under one key. -/
def Map.changeAt (map : Map α) (key : UInt64) (change : α → α) : Map α :=
  { map with tree := map.tree.changeAt key change }

/-- Whatever was asked of a map that started without entries, an operation that is not to change its
tree keeps every node, its height and the size: the removal of an absent key and the insertion under
a present one that is not to replace its value change nothing at all, and an insertion that replaces
it or a change in place changes the value under that key alone. -/
theorem keeps_structure (requests : List (Request α)) (key : UInt64) :
    ((Map.served requests).find? key = none →
        (Map.served requests).erase key = (Map.served requests, none)) ∧
      (∀ present, (Map.served requests).find? key = some present → ∀ value,
        (Map.served requests).insert key value false = (Map.served requests, .unchanged) ∧
          (Map.served requests).insert key value true =
            ((Map.served requests).changeAt key fun _ => value, .replaced)) ∧
      ∀ change, (Map.served requests).modify key change =
        (Map.served requests).changeAt key change := by
  obtain ⟨hordered, hbalanced, -⟩ := Map.valid_served requests
  generalize Map.served requests = map at hordered hbalanced
  have hmodify (change : α → α) : map.modify key change = map.changeAt key change := by
    rw [Map.modify, Map.changeAt, hordered.modify_eq]
  refine ⟨fun habsent => ?_, fun present hpresent value => ⟨?_, ?_⟩, hmodify⟩
  · rw [Map.erase, hbalanced.erase_eq habsent]
    rfl
  · rw [Map.insert, hbalanced.insert_eq hpresent]
    rfl
  · rw [← hmodify, Map.insert, hbalanced.insert_eq hpresent]
    rfl

/-- In a tree whose nodes lean to the left all the way down, the removal of the absent key 8 and the
insertion under the present key 7 end at the bottom on the right and rotate nothing. -/
theorem keeps_structure_leaning :
    let map := Map.served ([5, 3, 6, 2, 4, 7, 1].map fun key => Request.insert key key.toNat false)
    map.erase 8 = (map, none) ∧ map.insert 7 0 false = (map, .unchanged) ∧
      map.insert 7 0 true = (map.changeAt 7 fun _ => 0, .replaced) := by
  intro map
  have habsent : map.find? 8 = none := by decide
  have hpresent : map.find? 7 = some 7 := by decide
  have herase : map.erase 8 = (map, none) := (keeps_structure _ 8).1 habsent
  exact ⟨herase, (keeps_structure _ 7).2.1 7 hpresent 0⟩

end LinkState.Avl
