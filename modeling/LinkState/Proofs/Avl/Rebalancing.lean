import LinkState.Proofs.Avl.Validity

/-!
# The inserted key and the balance select the same rotations

On the way back up from an insertion every ancestor of the inserted node has its balance restored.
Insertion asks the inserted key which rotation to make, removal the balance of the taller child.
`insertBy` is insertion with the rule left open, and in a balanced tree it makes no difference which
of the two it is given (`Balanced.insertBy_rebalance`): a child that has become too tall has grown
on the side on which the key belongs, and leans there.

`ancestors` are the nodes that are put together again. One that is rotated is thereby as high as it
was before the insertion (`Grown.rotated_left`, `Grown.rotated_right`), so that nothing has to be
repaired above it. Hence at most one of them is (`RotatedOnce`).
-/

namespace LinkState.Avl.Tree

variable {α : Type u} {left right tree grown : Tree α} {key key' : UInt64} {value : α}
  {height : Nat}

/-- Insertion that puts every ancestor of the inserted node together again by a rule. The rule is
given the inserted key first. -/
def insertBy (rule : UInt64 → Tree α → UInt64 → α → Tree α → Tree α) (key : UInt64) (value : α)
    (overwrite : Bool) : Tree α → Tree α × Insertion
  | nil => (node nil key value 1 nil, .inserted)
  | node left key' value' height right =>
    if key < key' then
      let (left, insertion) := left.insertBy rule key value overwrite
      (rule key left key' value' right, insertion)
    else if key' < key then
      let (right, insertion) := right.insertBy rule key value overwrite
      (rule key left key' value' right, insertion)
    else if overwrite then (node left key' value height right, .replaced)
    else (node left key' value' height right, .unchanged)

/-- A node on the way back up from an insertion: one of its parts has been inserted into. -/
structure Ancestor (α : Type u) where
  left : Tree α
  key : UInt64
  value : α
  right : Tree α

/-- An ancestor is rotated if it becomes something else than a node over its two parts. -/
def Ancestor.Rotated (ancestor : Ancestor α) (inserted : UInt64) : Prop :=
  rebalanceInserted inserted ancestor.left ancestor.key ancestor.value ancestor.right ≠
    join ancestor.left ancestor.key ancestor.value ancestor.right

instance [DecidableEq α] (ancestor : Ancestor α) (inserted : UInt64) :
    Decidable (ancestor.Rotated inserted) :=
  inferInstanceAs (Decidable (_ ≠ _))

/-- The ancestors that an insertion puts together again, the root first. -/
def ancestors (key : UInt64) (value : α) (overwrite : Bool) : Tree α → List (Ancestor α)
  | nil => []
  | node left key' value' _ right =>
    if key < key' then
      ⟨(left.insert key value overwrite).1, key', value', right⟩ ::
        left.ancestors key value overwrite
    else if key' < key then
      ⟨left, key', value', (right.insert key value overwrite).1⟩ ::
        right.ancestors key value overwrite
    else []

/-! ### One rule and the other -/

/-- Insertion follows the rule that asks the inserted key. -/
theorem insert_eq_insertBy (key : UInt64) (value : α) (overwrite : Bool) (tree : Tree α) :
    tree.insert key value overwrite = tree.insertBy rebalanceInserted key value overwrite := by
  induction tree with
  | nil => rfl
  | node left key' value' height right ihl ihr => rw [insert, insertBy, ihl, ihr]

/-- In a balanced tree an insertion that asks the balance gives the same. -/
theorem Balanced.insertBy_rebalance (h : tree.Balanced) (key : UInt64) (value : α)
    (overwrite : Bool) :
    tree.insertBy rebalanceInserted key value overwrite =
      tree.insertBy (fun _ => rebalance) key value overwrite := by
  induction tree with
  | nil => rfl
  | node left key' value' height right ihl ihr =>
    rw [insertBy, insertBy, ← ihl h.1, ← ihr h.2.1, ← insert_eq_insertBy, ← insert_eq_insertBy]
    split
    · have hgrown := grown_insert key value overwrite h.1
      exact congrArg (·, _) (hgrown.rebalance_left h)
    · split
      · have hgrown := grown_insert key value overwrite h.2.1
        exact congrArg (·, _) (hgrown.rebalance_right h)
      · rfl

/-! ### One rotation -/

/-- A node whose left part has not become taller is not rotated and keeps its height. -/
theorem Grown.kept_left (hgrown : Grown key left grown)
    (h : (node left key' value height right).Balanced) (hsame : grown.depth = left.depth) :
    rebalanceInserted key grown key' value right = join grown key' value right ∧
      (rebalanceInserted key grown key' value right).depth =
        (node left key' value height right).depth := by
  have hrebalance := hgrown.rebalance_left h
  obtain ⟨-, hr, -, hlr, hrl⟩ := h
  rw [hrebalance, rebalance_eq_join hgrown.balanced hr (by omega) (by omega), depth_join, hsame]
  exact ⟨rfl, rfl⟩

/-- A node whose right part has not become taller is not rotated and keeps its height. -/
theorem Grown.kept_right (hgrown : Grown key right grown)
    (h : (node left key' value height right).Balanced) (hsame : grown.depth = right.depth) :
    rebalanceInserted key left key' value grown = join left key' value grown ∧
      (rebalanceInserted key left key' value grown).depth =
        (node left key' value height right).depth := by
  have hrebalance := hgrown.rebalance_right h
  obtain ⟨hl, -, -, hlr, hrl⟩ := h
  rw [hrebalance, rebalance_eq_join hl hgrown.balanced (by omega) (by omega), depth_join, hsame]
  exact ⟨rfl, rfl⟩

/-- A node that is rotated because its left part has grown keeps its height. -/
theorem Grown.rotated_left (hgrown : Grown key left grown)
    (h : (node left key' value height right).Balanced)
    (hrotated : rebalanceInserted key grown key' value right ≠ join grown key' value right) :
    (rebalanceInserted key grown key' value right).depth =
      (node left key' value height right).depth := by
  have hdepth := hgrown.depth_le
  rw [hgrown.rebalance_left h] at hrotated ⊢
  obtain ⟨-, hr, -, hlr, hrl⟩ := h
  -- Only a part that has become too tall makes the node rotate.
  have htall : grown.depth = right.depth + 2 := Decidable.byContradiction fun hne =>
    hrotated (rebalance_eq_join hgrown.balanced hr (by omega) (by omega))
  have hlean := hgrown.leansTo hlr (by omega)
  rw [(balanced_rebalance_left key' value hgrown.balanced hr htall).2, if_neg hlean.balance_ne,
    Tree.depth]
  omega

/-- A node that is rotated because its right part has grown keeps its height. -/
theorem Grown.rotated_right (hgrown : Grown key right grown)
    (h : (node left key' value height right).Balanced)
    (hrotated : rebalanceInserted key left key' value grown ≠ join left key' value grown) :
    (rebalanceInserted key left key' value grown).depth =
      (node left key' value height right).depth := by
  have hdepth := hgrown.depth_le
  rw [hgrown.rebalance_right h] at hrotated ⊢
  obtain ⟨hl, -, -, hlr, hrl⟩ := h
  -- Only a part that has become too tall makes the node rotate.
  have htall : grown.depth = left.depth + 2 := Decidable.byContradiction fun hne =>
    hrotated (rebalance_eq_join hl hgrown.balanced (by omega) (by omega))
  have hlean := hgrown.leansTo hrl (by omega)
  rw [(balanced_rebalance_right key' value hl hgrown.balanced htall).2, if_neg hlean.balance_ne,
    Tree.depth]
  omega

/-- Of the ancestors of an inserted node at most one is rotated, and then the tree is as high as
before. -/
structure RotatedOnce (key : UInt64) (ancestors : List (Ancestor α)) (before after : Tree α) :
    Prop where
  once : ancestors.Pairwise fun above below => ¬(above.Rotated key ∧ below.Rotated key)
  depth_eq : (∃ ancestor ∈ ancestors, ancestor.Rotated key) → after.depth = before.depth

/-- One more ancestor, which keeps its height if its part does, and also if it is rotated. -/
theorem RotatedOnce.cons {ancestors : List (Ancestor α)} {part after before : Tree α}
    {ancestor : Ancestor α} (h : RotatedOnce key ancestors part grown)
    (hkept : grown.depth = part.depth → ¬ancestor.Rotated key ∧ after.depth = before.depth)
    (hrotated : ancestor.Rotated key → after.depth = before.depth) :
    RotatedOnce key (ancestor :: ancestors) before after where
  once := by
    -- A rotation below has left the part as high as it was.
    refine List.pairwise_cons.2 ⟨fun below hbelow hboth => ?_, h.once⟩
    exact (hkept (h.depth_eq ⟨below, hbelow, hboth.2⟩)).1 hboth.1
  depth_eq := by
    rintro ⟨found, hfound, hfoundRotated⟩
    rcases List.mem_cons.1 hfound with rfl | hbelow
    · exact hrotated hfoundRotated
    · exact (hkept (h.depth_eq ⟨found, hbelow, hfoundRotated⟩)).2

/-- An insertion into a balanced tree rotates at most one ancestor. -/
theorem Balanced.rotatedOnce (h : tree.Balanced) (key : UInt64) (value : α) (overwrite : Bool) :
    RotatedOnce key (tree.ancestors key value overwrite) tree
      (tree.insert key value overwrite).1 := by
  have hnone (before after : Tree α) : RotatedOnce key [] before after :=
    ⟨.nil, fun hrotated => absurd hrotated (by simp)⟩
  induction tree with
  | nil => exact hnone _ _
  | node left key' value' height right ihl ihr =>
    rw [ancestors, insert]
    split
    · have hgrown := grown_insert key value overwrite h.1
      refine (ihl h.1).cons (fun hsame => ?_) (hgrown.rotated_left h)
      obtain ⟨hjoin, hdepth⟩ := hgrown.kept_left h hsame
      exact ⟨fun hrotated => hrotated hjoin, hdepth⟩
    · split
      · have hgrown := grown_insert key value overwrite h.2.1
        refine (ihr h.2.1).cons (fun hsame => ?_) (hgrown.rotated_right h)
        obtain ⟨hjoin, hdepth⟩ := hgrown.kept_right h hsame
        exact ⟨fun hrotated => hrotated hjoin, hdepth⟩
      · exact hnone _ _

/-- Into a balanced tree, an insertion that restores the balance of all ancestors by the inserted
key gives what one gives that asks the balance of their children. At most one of the ancestors is
rotated, and the tree is as high as before or by one higher. -/
theorem insertion_rules_agree (h : tree.Balanced) (key : UInt64) (value : α) (overwrite : Bool) :
    tree.insert key value overwrite = tree.insertBy (fun _ => rebalance) key value overwrite ∧
      (tree.ancestors key value overwrite).Pairwise
        (fun above below => ¬(above.Rotated key ∧ below.Rotated key)) ∧
      ((tree.insert key value overwrite).1.height = tree.height ∨
        (tree.insert key value overwrite).1.height = tree.height + 1) := by
  have hgrown := grown_insert key value overwrite h
  refine ⟨?_, (h.rotatedOnce key value overwrite).once, ?_⟩
  · rw [insert_eq_insertBy, h.insertBy_rebalance]
  · rw [hgrown.balanced.height_eq, h.height_eq]
    exact hgrown.depth.imp_right And.left

/-- The key 35 goes past the left child 30 of the root 50. Of the three ancestors the root is
rotated, and the inner grandchild 40 takes its place. -/
theorem insertion_rules_agree_inner :
    let tree := (Map.ofList ([50, 30, 60, 20, 40].map fun key => (key, ()))).tree
    tree.Balanced ∧
      (tree.insert 35 () false).1 =
        node (node (node nil 20 () 1 nil) 30 () 2 (node nil 35 () 1 nil)) 40 () 3
          (node nil 50 () 2 (node nil 60 () 1 nil)) ∧
      (tree.ancestors 35 () false).map (fun ancestor => decide (ancestor.Rotated 35)) =
        [true, false, false] ∧
      tree.insert 35 () false = tree.insertBy (fun _ => rebalance) 35 () false ∧
      (tree.ancestors 35 () false).Pairwise
        (fun above below => ¬(above.Rotated 35 ∧ below.Rotated 35)) ∧
      ((tree.insert 35 () false).1.height = tree.height ∨
        (tree.insert 35 () false).1.height = tree.height + 1) := by
  intro tree
  have hbalanced : tree.Balanced := (Map.valid_ofList _).balanced
  exact ⟨hbalanced, by decide, by decide, insertion_rules_agree hbalanced 35 () false⟩

end LinkState.Avl.Tree
