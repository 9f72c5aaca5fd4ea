import LinkState.Avl.Cursor
import LinkState.Proofs.Avl.Balance
import LinkState.Proofs.Avl.Entries

/-!
# The traversal with a stack is the in-order traversal

A cursor stands for the entries it has still to give: those of the tree it visits next, then for
every node on its stack the node's entry and the entries of its right part. The descent along a left
spine does not change them (`flatMap_descend`), and a call gives the first of them and keeps the
rest (`next_fst`, `remaining_next`). So the calls on a tree's cursor give the tree's entries from
left to right, each once, and then nothing more, whatever the shape of the tree (`calls_inOrder`).
The descent itself is a loop, which ends because every round goes on with a part of the tree
(`descends_descend`).
-/

namespace LinkState.Avl.Cursor

variable {α : Type u}

/-- The entries of a node whose left part has been visited. -/
def pending (node : Pending α) : List (UInt64 × α) := node.entry :: node.right.toList

/-- The entries that a cursor has still to give. -/
def remaining (cursor : Cursor α) : List (UInt64 × α) :=
  cursor.current.toList ++ cursor.stack.flatMap pending

/-- The descent puts the entries of a tree on the stack, in front of those that are there. -/
theorem flatMap_descend (stack : List (Pending α)) (tree : Tree α) :
    (descend stack tree).flatMap pending = tree.toList ++ stack.flatMap pending := by
  induction tree generalizing stack with
  | nil => rfl
  | node left key value height right ihl ihr =>
    rw [descend, ihl, Tree.toList, List.append_assoc, List.flatMap_cons]
    rfl

/-- A call gives the first of the remaining entries. -/
theorem next_fst (cursor : Cursor α) : cursor.next.1 = cursor.remaining.head? := by
  rw [remaining, ← flatMap_descend, next]
  split
  · rename_i hstack
    rw [hstack]; rfl
  · rename_i node stack hstack
    rw [hstack, List.flatMap_cons]; rfl

/-- A call keeps the remaining entries but the first. -/
theorem remaining_next (cursor : Cursor α) : cursor.next.2.remaining = cursor.remaining.tail := by
  change _ = (cursor.current.toList ++ cursor.stack.flatMap pending).tail
  rw [← flatMap_descend, next]
  split
  · rename_i hstack
    rw [hstack]; rfl
  · rename_i node stack hstack
    rw [hstack, List.flatMap_cons]; rfl

/-- The next calls give the first of the remaining entries, one each. -/
theorem take_eq (n : Nat) (cursor : Cursor α) : cursor.take n = cursor.remaining.take n := by
  induction n generalizing cursor with
  | zero => rfl
  | succ n ih =>
    have hfirst := next_fst cursor
    have hrest := remaining_next cursor
    rw [take]
    split
    · rename_i hnext
      rw [hnext] at hfirst
      rw [List.head?_eq_none_iff.1 hfirst.symm, List.take_nil]
    · rename_i entry after hnext
      rw [hnext] at hfirst hrest
      obtain ⟨tail, hentries⟩ := List.head?_eq_some_iff.1 hfirst.symm
      rw [hentries, List.tail_cons] at hrest
      rw [hentries, List.take_succ_cons, ih, hrest]

/-- The first calls on a tree's cursor give the first entries of the tree. -/
theorem take_cursor (n : Nat) (tree : Tree α) : tree.cursor.take n = tree.toList.take n := by
  rw [take_eq, remaining, Tree.cursor, List.flatMap_nil, List.append_nil]

/-! ### One call after the other -/

/-- The position after a number of calls. -/
def after (cursor : Cursor α) : (calls : Nat) → Cursor α
  | 0 => cursor
  | calls + 1 => (cursor.after calls).next.2

/-- Every call takes one of the remaining entries away. -/
theorem remaining_after (cursor : Cursor α) (calls : Nat) :
    (cursor.after calls).remaining = cursor.remaining.drop calls := by
  induction calls with
  | zero => rfl
  | succ calls ih => rw [after, remaining_next, ih, List.tail_drop]

/-- With nothing remaining a call gives nothing, and the traversal is at its end. -/
theorem next_of_remaining_eq_nil {cursor : Cursor α} (h : cursor.remaining = []) :
    cursor.next = (none, ⟨[], .nil⟩) := by
  -- A node on the stack would have its own entry still to give.
  have hstack : descend cursor.stack cursor.current = [] := by
    rw [remaining, ← flatMap_descend, List.flatMap_eq_nil_iff] at h
    exact List.eq_nil_iff_forall_not_mem.2 fun node hnode => List.cons_ne_nil _ _ (h node hnode)
  rw [next, hstack]

/-! ### The descent -/

/-- One round of the descent: the current node goes on the stack and its left part comes next.
Without a node the descent is over. -/
def push? (cursor : Cursor α) : Option (Cursor α) :=
  match cursor.current with
  | .nil => none
  | .node left key value _ right => some ⟨⟨(key, value), right⟩ :: cursor.stack, left⟩

/-- A descent is over after a number of rounds and ends at a position. -/
inductive Descends : (rounds : Nat) → Cursor α → Cursor α → Prop where
  | over {cursor : Cursor α} (h : cursor.push? = none) : Descends 0 cursor cursor
  | round {rounds : Nat} {cursor next last : Cursor α} (h : cursor.push? = some next)
    (hrest : Descends rounds next last) : Descends (rounds + 1) cursor last

/-- A descent ends after no more rounds than the tree is high, with its left spine on the stack. -/
theorem descends_descend (stack : List (Pending α)) (tree : Tree α) :
    ∃ rounds ≤ tree.depth, Descends rounds ⟨stack, tree⟩ ⟨descend stack tree, .nil⟩ := by
  induction tree generalizing stack with
  | nil => exact ⟨0, Nat.le_refl 0, .over rfl⟩
  | node left key value height right ihl =>
    obtain ⟨rounds, hrounds, hdescends⟩ := ihl (⟨(key, value), right⟩ :: stack)
    refine ⟨rounds + 1, ?_, .round rfl hdescends⟩
    rw [Tree.depth]
    omega

/-- Of the calls on the cursor of a tree, whatever its shape, each gives the entry at its own place
in the listing from left to right. So the calls for which there are nodes give every entry once, and
all further ones give nothing. The descent that a call begins with is always over after no more
rounds than the current tree is high. -/
theorem calls_inOrder (tree : Tree α) :
    (∀ calls, (tree.cursor.after calls).next.1 = tree.toList[calls]?) ∧
      (List.range tree.count).map (fun calls => (tree.cursor.after calls).next.1) =
        tree.toList.map some ∧
      (∀ more, (tree.cursor.after (tree.count + more)).next = (none, ⟨[], .nil⟩)) ∧
      ∀ cursor : Cursor α, ∃ rounds ≤ cursor.current.depth,
        Descends rounds cursor ⟨descend cursor.stack cursor.current, .nil⟩ := by
  have hremaining (calls : Nat) : (tree.cursor.after calls).remaining = tree.toList.drop calls := by
    rw [remaining_after, remaining, Tree.cursor, List.flatMap_nil, List.append_nil]
  have hcall (calls : Nat) : (tree.cursor.after calls).next.1 = tree.toList[calls]? := by
    rw [next_fst, hremaining, List.head?_drop]
  refine ⟨hcall, ?_, fun more => next_of_remaining_eq_nil ?_, fun cursor =>
    descends_descend cursor.stack cursor.current⟩
  · rw [← Tree.length_toList]
    refine List.ext_getElem (by simp only [List.length_map, List.length_range]) ?_
    intro place _ hplace
    rw [List.length_map] at hplace
    rw [List.getElem_map, List.getElem_map, List.getElem_range, hcall,
      List.getElem?_eq_getElem hplace]
  · rw [hremaining, List.drop_eq_nil_iff, Tree.length_toList]
    exact Nat.le_add_right tree.count more

end LinkState.Avl.Cursor
