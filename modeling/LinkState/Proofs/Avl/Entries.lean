import LinkState.Avl.Map
import LinkState.Proofs.Lookup

/-!
# The entries of search trees

A search tree is judged by its entries from left to right. `Tree.Ordered` is the order of a search
tree, node by node, and `ordered_iff` says that it is the ascending order of the entries. Rotations
move no entry (`toList_rotateRight`, `toList_rebalance`), so that the operations are known by what
they do to the list: insertion places an entry (`toList_insert`), removal filters one out
(`toList_erase`), and a lookup finds the entry that is there (`find?_eq_some_iff`). All three look
only along the path to the key, which decides their answers on any tree (`insert_snd`, `erase_snd`,
`find?_modify`).
-/

namespace LinkState.Avl.Tree

open Ranked (rank)
open Table (place)

variable {α : Type u} {left right tree : Tree α} {key : UInt64} {value : α}

/-- A key that belongs on neither side of a node is the node's. -/
theorem eq_of_not_lt {a b : UInt64} (hlt : ¬a < b) (hgt : ¬b < a) : a = b :=
  UInt64.le_antisymm (UInt64.not_lt.1 hgt) (UInt64.not_lt.1 hlt)

/-- The keys of a search tree: smaller on the left of every node and larger on its right. -/
def Ordered : Tree α → Prop
  | nil => True
  | node left key _ _ right =>
    left.Ordered ∧ right.Ordered ∧ (∀ entry ∈ left.toList, entry.1 < key) ∧
      ∀ entry ∈ right.toList, key < entry.1

/-- A tree is a search tree exactly if its entries are in strictly ascending key order. -/
theorem ordered_iff :
    tree.Ordered ↔ tree.toList.Pairwise fun a b => rank a.1 < rank b.1 := by
  induction tree with
  | nil => exact ⟨fun _ => .nil, fun _ => trivial⟩
  | node left key value height right ihl ihr =>
    rw [Ordered, toList, ihl, ihr, List.pairwise_append, List.pairwise_cons]
    constructor
    · rintro ⟨hl, hr, hleft, hright⟩
      refine ⟨hl, ⟨fun b hb => hright b hb, hr⟩, fun a ha b hb => ?_⟩
      have ha : rank a.1 < rank key := hleft a ha
      rcases List.mem_cons.1 hb with rfl | hb
      · exact ha
      · have hb : rank key < rank b.1 := hright b hb
        exact Nat.lt_trans ha hb
    · rintro ⟨hl, ⟨hright, hr⟩, hcross⟩
      exact ⟨hl, hr, fun a ha => hcross a ha (key, value) List.mem_cons_self, hright⟩

/-- The number of nodes is the number of entries. -/
theorem length_toList : tree.toList.length = tree.count := by
  induction tree with
  | nil => rfl
  | node left key value height right ihl ihr =>
    rw [toList, List.length_append, List.length_cons, ihl, ihr, count]
    omega

/-! ### Rotations -/

@[simp] theorem toList_join :
    (join left key value right).toList = left.toList ++ (key, value) :: right.toList := rfl

@[simp] theorem toList_rotateRight (tree : Tree α) : tree.rotateRight.toList = tree.toList := by
  cases tree with
  | nil => rfl
  | node left y w height c =>
    cases left with
    | nil => rfl
    | node a x v height' b =>
      rw [rotateRight, toList_join, toList_join, toList, toList, List.append_assoc]
      rfl

@[simp] theorem toList_rotateLeft (tree : Tree α) : tree.rotateLeft.toList = tree.toList := by
  cases tree with
  | nil => rfl
  | node a x v height right =>
    cases right with
    | nil => rfl
    | node b y w height' c =>
      rw [rotateLeft, toList_join, toList_join, toList, toList, List.append_assoc]
      rfl

@[simp] theorem toList_rebalance :
    (rebalance left key value right).toList = left.toList ++ (key, value) :: right.toList := by
  unfold rebalance
  dsimp only
  split
  · split
    · rw [toList_rotateRight, toList_join, toList_rotateLeft]
    · rw [toList_rotateRight, toList_join]
  · split
    · split
      · rw [toList_rotateLeft, toList_join, toList_rotateRight]
      · rw [toList_rotateLeft, toList_join]
    · rw [toList_join]

@[simp] theorem toList_rebalanceInserted {key' : UInt64} :
    (rebalanceInserted key left key' value right).toList =
      left.toList ++ (key', value) :: right.toList := by
  unfold rebalanceInserted
  dsimp only
  split
  · split
    · rw [toList_join]
    · split
      · rw [toList_rotateRight, toList_join, toList_rotateLeft]
      · rw [toList_rotateRight, toList_join]
  · split
    · split
      · rw [toList_join]
      · split
        · rw [toList_rotateLeft, toList_join, toList_rotateRight]
        · rw [toList_rotateLeft, toList_join]
    · rw [toList_join]

/-- Rebalancing keeps the number of nodes. -/
theorem count_rebalance :
    (rebalance left key value right).count = left.count + 1 + right.count := by
  rw [← length_toList, toList_rebalance, List.length_append, List.length_cons, length_toList,
    length_toList]
  omega

/-- Rebalancing after an insertion keeps the number of nodes. -/
theorem count_rebalanceInserted {key' : UInt64} :
    (rebalanceInserted key left key' value right).count = left.count + 1 + right.count := by
  rw [← length_toList, toList_rebalanceInserted, List.length_append, List.length_cons,
    length_toList, length_toList]
  omega

/-! ### Lookup -/

/-- What is found under a key is an entry of the tree. -/
theorem mem_toList_of_find? (h : tree.find? key = some value) : (key, value) ∈ tree.toList := by
  induction tree with
  | nil => exact absurd h (Option.some_ne_none value).symm
  | node left key' value' height right ihl ihr =>
    rw [toList, List.mem_append, List.mem_cons]
    rw [find?] at h
    split at h
    · exact Or.inl (ihl h)
    · split at h
      · exact Or.inr (Or.inr (ihr h))
      · rename_i hlt hgt
        rw [eq_of_not_lt hlt hgt, Option.some.inj h]
        exact Or.inr (Or.inl rfl)

/-- In a search tree every entry is found. -/
theorem Ordered.find?_eq_some_iff (h : tree.Ordered) :
    tree.find? key = some value ↔ (key, value) ∈ tree.toList := by
  refine ⟨mem_toList_of_find?, fun hmem => ?_⟩
  induction tree with
  | nil => exact absurd hmem List.not_mem_nil
  | node left key' value' height right ihl ihr =>
    obtain ⟨hl, hr, hleft, hright⟩ := h
    rw [toList, List.mem_append, List.mem_cons] at hmem
    rw [find?]
    rcases hmem with hmem | heq | hmem
    · rw [if_pos (hleft _ hmem)]
      exact ihl hl hmem
    · obtain ⟨rfl, rfl⟩ := Prod.mk.inj heq
      rw [if_neg (UInt64.lt_irrefl _), if_neg (UInt64.lt_irrefl _)]
    · have hkey : key' < key := hright _ hmem
      rw [if_neg (UInt64.lt_asymm hkey), if_pos hkey]
      exact ihr hr hmem

/-! ### Insertion -/

/-- The path to the key decides what an insertion does. -/
theorem insert_snd (overwrite : Bool) :
    (tree.insert key value overwrite).2 =
      match tree.find? key with
      | none => .inserted
      | some _ => if overwrite then .replaced else .unchanged := by
  induction tree with
  | nil => rfl
  | node left key' value' height right ihl ihr =>
    rw [insert, find?]
    split
    · exact ihl
    · split
      · exact ihr
      · split <;> rfl

/-- An insertion places its entry among the others, unless it is to keep a present one. -/
theorem toList_insert (h : tree.Ordered) (overwrite : Bool) :
    (tree.insert key value overwrite).1.toList =
      if overwrite ∨ tree.find? key = none then place key value tree.toList else tree.toList := by
  induction tree with
  | nil => rw [insert, find?, if_pos (Or.inr rfl)]; rfl
  | node left key' value' height right ihl ihr =>
    obtain ⟨hl, hr, hleft, hright⟩ := h
    rw [insert, find?, toList]
    split
    · -- The place is in front of the node and of everything behind it.
      rename_i hkey
      rw [toList_rebalanceInserted, ihl hl]
      split
      · rw [Table.place_append_of_lt hkey]
      · rfl
    · split
      · -- The place is behind the node and everything in front of it.
        rename_i hkey
        rw [toList_rebalanceInserted, ihr hr]
        split
        · rw [Table.place_append fun entry hentry =>
            Nat.lt_trans (hleft entry hentry) (show rank key' < rank key from hkey),
            place, if_neg (show ¬rank key < rank key' from UInt64.lt_asymm hkey),
            if_pos (show rank key' < rank key from hkey)]
        · rfl
      · -- The key is here, so that a value is replaced or kept and no node is added.
        rename_i hlt hgt
        obtain rfl := eq_of_not_lt hlt hgt
        cases overwrite with
        | true =>
          rw [if_pos rfl, if_pos (Or.inl rfl), Table.place_append hleft, place,
            if_neg (Nat.lt_irrefl (rank key)), if_neg (Nat.lt_irrefl (rank key))]
          rfl
        | false =>
          rw [if_neg Bool.false_ne_true, if_neg]
          · rfl
          · rintro (hfalse | hnone)
            · exact Bool.false_ne_true hfalse
            · exact Option.some_ne_none _ hnone

/-- Insertion keeps a search tree. -/
theorem ordered_insert (h : tree.Ordered) (overwrite : Bool) :
    (tree.insert key value overwrite).1.Ordered := by
  rw [ordered_iff, toList_insert h]
  split
  · exact Table.ascending_place key value (ordered_iff.1 h)
  · exact ordered_iff.1 h

/-- The number of nodes grows by one exactly if a node was added. -/
theorem count_insert (overwrite : Bool) :
    (tree.insert key value overwrite).1.count =
      if (tree.insert key value overwrite).2 = .inserted then tree.count + 1 else tree.count := by
  induction tree with
  | nil => rfl
  | node left key' value' height right ihl ihr =>
    rw [insert]
    split
    · dsimp only
      rw [count_rebalanceInserted, ihl, count]
      split <;> omega
    · split
      · dsimp only
        rw [count_rebalanceInserted, ihr, count]
        split <;> omega
      · split <;> rfl

/-! ### Removal -/

/-- Taking out the leftmost entry takes out the first one. -/
theorem toList_removeLeast (left : Tree α) (key : UInt64) (value : α) (right : Tree α) :
    (removeLeast left key value right).1 :: (removeLeast left key value right).2.toList =
      left.toList ++ (key, value) :: right.toList := by
  induction left generalizing key value right with
  | nil => rfl
  | node left' key' value' height' right' ihl =>
    rw [removeLeast]
    dsimp only
    rw [toList_rebalance, toList, ← ihl, List.cons_append]

/-- Taking out the leftmost entry takes out one node. -/
theorem count_removeLeast :
    (removeLeast left key value right).2.count = left.count + right.count := by
  have hlength := congrArg List.length (toList_removeLeast left key value right)
  rw [List.length_cons, List.length_append, List.length_cons, length_toList, length_toList,
    length_toList] at hlength
  omega

/-- The path to the key decides what a removal gives. -/
theorem erase_snd (tree : Tree α) : (tree.erase key).2 = tree.find? key := by
  induction tree with
  | nil => rfl
  | node left key' value' height right ihl ihr =>
    unfold erase
    rw [find?]
    split
    · exact ihl
    · split
      · exact ihr
      · split <;> rfl

/-- A removal takes out the entry with the key. -/
theorem toList_erase (h : tree.Ordered) :
    (tree.erase key).1.toList = tree.toList.filter fun entry => entry.1 ≠ key := by
  induction tree with
  | nil => rfl
  | node left key' value' height right ihl ihr =>
    obtain ⟨hl, hr, hleft, hright⟩ := h
    -- The filter finds nothing on the side on which the key does not belong.
    have hkeepLeft (hkey : ¬key < key') :
        left.toList.filter (fun entry => entry.1 ≠ key) = left.toList :=
      List.filter_eq_self.2 fun entry hentry => decide_eq_true fun heq =>
        hkey (heq ▸ hleft entry hentry)
    have hkeepRight (hkey : ¬key' < key) :
        right.toList.filter (fun entry => entry.1 ≠ key) = right.toList :=
      List.filter_eq_self.2 fun entry hentry => decide_eq_true fun heq =>
        hkey (heq ▸ hright entry hentry)
    unfold erase
    rw [toList, List.filter_append, List.filter_cons]
    split
    · rename_i hkey
      rw [toList_rebalance, ihl hl, hkeepRight (UInt64.lt_asymm hkey),
        if_pos (decide_eq_true (UInt64.ne_of_lt hkey).symm)]
    · split
      · rename_i hkey
        rw [toList_rebalance, ihr hr, hkeepLeft (UInt64.lt_asymm hkey),
          if_pos (decide_eq_true (UInt64.ne_of_lt hkey))]
      · -- The key is here and on neither side. The successor is the first entry on the right.
        rename_i hlt hgt
        rw [hkeepLeft hlt, hkeepRight hgt, if_neg (by simp [eq_of_not_lt hgt hlt])]
        split
        · exact (List.append_nil _).symm
        · rfl
        · dsimp only
          rw [toList_rebalance, toList_removeLeast, toList]

/-- Removal keeps a search tree. -/
theorem ordered_erase (h : tree.Ordered) : (tree.erase key).1.Ordered := by
  rw [ordered_iff, toList_erase h]
  exact (ordered_iff.1 h).filter _

/-- The number of nodes falls by one exactly if a value is given. -/
theorem count_erase (tree : Tree α) :
    (tree.erase key).1.count =
      if (tree.erase key).2.isSome then tree.count - 1 else tree.count := by
  -- A part from which a value was taken has a node to lose, so that the subtraction is exact.
  have hpositive {tree : Tree α} (hsome : (tree.erase key).2.isSome) : 0 < tree.count := by
    cases tree with
    | nil => exact absurd hsome Bool.false_ne_true
    | node => rw [count]; omega
  induction tree with
  | nil => rfl
  | node left key' value' height right ihl ihr =>
    unfold erase
    split
    · dsimp only
      rw [count_rebalance, ihl, count]
      split
      · have := hpositive ‹_›; omega
      · rfl
    · split
      · dsimp only
        rw [count_rebalance, ihr, count]
        split
        · have := hpositive ‹_›; omega
        · rfl
      · rw [count]
        split
        · change left.count = left.count + 1 + 0 - 1; omega
        · change right.count = 0 + 1 + right.count - 1; omega
        · dsimp only
          rw [count_rebalance, count_removeLeast, count, Option.isSome_some, if_pos rfl]
          omega

/-! ### Change of a value -/

/-- A change reaches the value under the key and no other one. -/
theorem find?_modify (change : α → α) {key' : UInt64} :
    (tree.modify key change).find? key' =
      if key' = key then (tree.find? key').map change else tree.find? key' := by
  induction tree with
  | nil => rw [modify, find?]; split <;> rfl
  | node left key'' value'' height right ihl ihr =>
    rw [modify, find?]
    -- The two paths part where the changed key and the looked-up one belong on different sides.
    by_cases hkey : key < key''
    · rw [if_pos hkey, find?, ihl]
      by_cases hlt : key' < key''
      · rw [if_pos hlt, if_pos hlt]
      · have hne : key' ≠ key := by rintro rfl; exact hlt hkey
        rw [if_neg hlt, if_neg hlt, if_neg hne]
    · rw [if_neg hkey]
      by_cases hkey' : key'' < key
      · rw [if_pos hkey', find?, ihr]
        by_cases hlt : key' < key''
        · have hne : key' ≠ key := by rintro rfl; exact hkey hlt
          rw [if_pos hlt, if_pos hlt, if_neg hne]
        · rw [if_neg hlt, if_neg hlt]
          by_cases hgt : key'' < key'
          · rw [if_pos hgt, if_pos hgt]
          · have hne : key' ≠ key := by rintro rfl; exact hgt hkey'
            rw [if_neg hgt, if_neg hgt, if_neg hne]
      · obtain rfl := eq_of_not_lt hkey hkey'
        rw [if_neg hkey', find?]
        by_cases hlt : key' < key
        · rw [if_pos hlt, if_pos hlt, if_neg (UInt64.ne_of_lt hlt)]
        · rw [if_neg hlt, if_neg hlt]
          by_cases hgt : key < key'
          · rw [if_pos hgt, if_pos hgt, if_neg (UInt64.ne_of_lt hgt).symm]
          · rw [if_neg hgt, if_neg hgt, if_pos (eq_of_not_lt hlt hgt)]
            rfl

/-- The keys of the entries stay. -/
theorem keys_modify (change : α → α) :
    (tree.modify key change).toList.map (·.1) = tree.toList.map (·.1) := by
  induction tree with
  | nil => rfl
  | node left key' value' height right ihl ihr =>
    rw [modify]
    split
    · rw [toList, toList, List.map_append, List.map_append, ihl]
    · split
      · rw [toList, toList, List.map_append, List.map_append, List.map_cons, List.map_cons, ihr]
      · rw [toList, toList, List.map_append, List.map_append]
        rfl

/-- A change of a value keeps a search tree. -/
theorem ordered_modify (h : tree.Ordered) (change : α → α) :
    (tree.modify key change).Ordered := by
  rw [ordered_iff, ← List.pairwise_map (f := Prod.fst) (R := fun a b => rank a < rank b),
    keys_modify, List.pairwise_map]
  exact ordered_iff.1 h

/-- A change of a value keeps the number of nodes. -/
theorem count_modify (change : α → α) : (tree.modify key change).count = tree.count := by
  rw [← length_toList, ← length_toList, ← List.length_map Prod.fst, keys_modify, List.length_map]

end LinkState.Avl.Tree
