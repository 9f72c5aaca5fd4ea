import LinkState.Avl.Map

/-!
# Insertion and removal keep the balance

`Tree.Balanced` says of every node that the height it keeps is the height of the tree below it, and
that the heights of its children differ by at most one. The operations restore both on the way up
from the key.

One rotation repairs a node whose left child is too tall: `balanced_rotateRight` if that child leans
outwards or not at all, `balanced_rotateRight_inner` if it leans inwards. `rebalance` asks the
taller child which of them applies, and what it does on the right is the mirror image
(`mirror_rebalance`) of what it does on the left; `balanced_rebalance` covers both, and removal
needs no more. After an insertion the inserted key answers instead, and
`rebalanceInserted_eq_rebalance` shows that this is the same as soon as a child that has grown leans
towards the key (`LeansTo`). That is what `grown_insert` carries up the path, together with the fact
that the height grows by at most one.
-/

namespace LinkState.Avl.Tree

variable {α : Type u} {left right : Tree α} {key : UInt64} {value : α}

/-- The height of a tree, counted along its longest path. -/
def depth : Tree α → Nat
  | nil => 0
  | node left _ _ _ right => 1 + max left.depth right.depth

/-- Every node keeps its own height, and the heights of its children differ by at most one. -/
def Balanced : Tree α → Prop
  | nil => True
  | node left _ _ height right =>
    left.Balanced ∧ right.Balanced ∧ height = 1 + max left.depth right.depth ∧
      left.depth ≤ right.depth + 1 ∧ right.depth ≤ left.depth + 1

/-- The height that the root of a balanced tree keeps is the height of the tree. -/
theorem Balanced.height_eq {tree : Tree α} (h : tree.Balanced) : tree.height = tree.depth := by
  cases tree with
  | nil => rfl
  | node => exact h.2.2.1

/-- The balance of a node is the difference of its children's heights. -/
theorem Balanced.balance_node {height : Nat}
    (h : (node left key value height right).Balanced) :
    (node left key value height right).balance = left.depth - right.depth := by
  rw [balance, h.1.height_eq, h.2.1.height_eq]

/-- The balance factors of a balanced tree are `-1`, `0` and `1`. -/
theorem Balanced.balance_le {tree : Tree α} (h : tree.Balanced) :
    -1 ≤ tree.balance ∧ tree.balance ≤ 1 := by
  cases tree with
  | nil => rw [balance]; omega
  | node =>
    rw [h.balance_node]
    obtain ⟨-, -, -, hl, hr⟩ := h
    omega

@[simp] theorem depth_join : (join left key value right).depth = 1 + max left.depth right.depth :=
  rfl

/-- A node over balanced children of nearly the same height is balanced. -/
theorem balanced_join (hl : left.Balanced) (hr : right.Balanced)
    (hlr : left.depth ≤ right.depth + 1) (hrl : right.depth ≤ left.depth + 1) :
    (join left key value right).Balanced := by
  refine ⟨hl, hr, ?_, hlr, hrl⟩
  rw [hl.height_eq, hr.height_eq]

/-- The balance of a new node is the difference of its children's heights. -/
theorem balance_join (key : UInt64) (value : α) (hl : left.Balanced) (hr : right.Balanced) :
    (join left key value right).balance = left.depth - right.depth := by
  rw [join, balance, hl.height_eq, hr.height_eq]

/-! ### Rotations -/

/-- A left child that is too tall and does not lean inwards is rotated to the root. The tree has
then the height of that child, or one more if the child did not lean at all. -/
theorem balanced_rotateRight (key : UInt64) (value : α) (hl : left.Balanced) (hr : right.Balanced)
    (hdepth : left.depth = right.depth + 2) (hlean : 0 ≤ left.balance) :
    (rotateRight (join left key value right)).Balanced ∧
      (rotateRight (join left key value right)).depth =
        if left.balance = 0 then left.depth + 1 else left.depth := by
  cases left with
  | nil => rw [depth] at hdepth; omega
  | node outer key' value' height inner =>
    rw [hl.balance_node] at hlean ⊢
    obtain ⟨ho, hi, -, hoi, hio⟩ := hl
    rw [depth] at hdepth ⊢
    refine ⟨balanced_join ho (balanced_join hi hr (by omega) (by omega)) ?_ ?_, ?_⟩
    · rw [depth_join]; omega
    · rw [depth_join]; omega
    · change 1 + max outer.depth (join inner key value right).depth = _
      rw [depth_join]; split <;> omega

/-- A left child that is too tall and leans inwards is rotated itself first. The tree has then the
height of that child. -/
theorem balanced_rotateRight_inner (key : UInt64) (value : α) (hl : left.Balanced)
    (hr : right.Balanced) (hdepth : left.depth = right.depth + 2) (hlean : left.balance < 0) :
    (rotateRight (join left.rotateLeft key value right)).Balanced ∧
      (rotateRight (join left.rotateLeft key value right)).depth = left.depth := by
  cases left with
  | nil => rw [depth] at hdepth; omega
  | node outer key' value' height inner =>
    rw [hl.balance_node] at hlean
    obtain ⟨ho, hi, -, hoi, hio⟩ := hl
    rw [depth] at hdepth ⊢
    cases inner with
    | nil => rw [depth] at hlean; omega
    | node a key'' value'' height' b =>
      obtain ⟨ha, hb, -, hab, hba⟩ := hi
      rw [depth] at hdepth hlean hio hoi ⊢
      refine ⟨balanced_join (balanced_join ho ha (by omega) (by omega))
        (balanced_join hb hr (by omega) (by omega)) ?_ ?_, ?_⟩
      · rw [depth_join, depth_join]; omega
      · rw [depth_join, depth_join]; omega
      · change 1 + max (join outer key' value' a).depth (join b key value right).depth = _
        rw [depth_join, depth_join]; omega

/-! ### The mirror image

What holds of the right side holds of the left one by symmetry. -/

/-- A tree with all left and right parts exchanged. -/
def mirror : Tree α → Tree α
  | nil => nil
  | node left key value height right => node right.mirror key value height left.mirror

@[simp] theorem height_mirror (tree : Tree α) : tree.mirror.height = tree.height := by
  cases tree <;> rfl

@[simp] theorem depth_mirror (tree : Tree α) : tree.mirror.depth = tree.depth := by
  induction tree with
  | nil => rfl
  | node left key value height right ihl ihr => rw [mirror, depth, depth, ihl, ihr, Nat.max_comm]

@[simp] theorem balance_mirror (tree : Tree α) : tree.mirror.balance = -tree.balance := by
  cases tree with
  | nil => rfl
  | node => rw [mirror, balance, balance, height_mirror, height_mirror]; omega

/-- The mirror image of a balanced tree is balanced. -/
theorem balanced_mirror {tree : Tree α} : tree.mirror.Balanced ↔ tree.Balanced := by
  induction tree with
  | nil => exact Iff.rfl
  | node left key value height right ihl ihr =>
    rw [mirror, Balanced, Balanced, ihl, ihr, depth_mirror, depth_mirror, Nat.max_comm]
    constructor
    · rintro ⟨hr, hl, hheight, hrl, hlr⟩
      exact ⟨hl, hr, hheight, hlr, hrl⟩
    · rintro ⟨hl, hr, hheight, hlr, hrl⟩
      exact ⟨hr, hl, hheight, hrl, hlr⟩

@[simp] theorem mirror_join :
    (join left key value right).mirror = join right.mirror key value left.mirror := by
  rw [join, join, mirror, height_mirror, height_mirror, Nat.max_comm]

@[simp] theorem mirror_rotateLeft (tree : Tree α) :
    tree.rotateLeft.mirror = tree.mirror.rotateRight := by
  cases tree with
  | nil => rfl
  | node a x v height right =>
    cases right with
    | nil => rfl
    | node b y w height' c => rw [rotateLeft, mirror_join, mirror_join]; rfl

@[simp] theorem mirror_rotateRight (tree : Tree α) :
    tree.rotateRight.mirror = tree.mirror.rotateLeft := by
  cases tree with
  | nil => rfl
  | node left y w height c =>
    cases left with
    | nil => rfl
    | node a x v height' b => rw [rotateRight, mirror_join, mirror_join]; rfl

/-! ### Rebalancing -/

/-- Nothing is rotated if the heights of the children differ by at most one. -/
theorem rebalance_eq_join (hl : left.Balanced) (hr : right.Balanced)
    (hlr : left.depth ≤ right.depth + 1) (hrl : right.depth ≤ left.depth + 1) :
    rebalance left key value right = join left key value right := by
  have hjoin : (join left key value right).Balanced := balanced_join hl hr hlr hrl
  have hbalance : -1 ≤ (join left key value right).balance ∧
      (join left key value right).balance ≤ 1 := hjoin.balance_le
  unfold rebalance
  dsimp only
  rw [if_neg (by omega), if_neg (by omega)]

/-- One rotation repairs a node whose left child is too tall; the tree is then as tall as that
child, or by one taller if the child did not lean. -/
theorem balanced_rebalance_left (key : UInt64) (value : α) (hl : left.Balanced)
    (hr : right.Balanced) (hdepth : left.depth = right.depth + 2) :
    (rebalance left key value right).Balanced ∧
      (rebalance left key value right).depth =
        if left.balance = 0 then left.depth + 1 else left.depth := by
  have hbalance := balance_join key value hl hr
  unfold rebalance
  dsimp only
  rw [if_pos (by omega)]
  split
  · rename_i hlean
    obtain ⟨hbal, hdep⟩ :=
      balanced_rotateRight_inner key value hl hr hdepth hlean
    rw [hdep, if_neg (by omega)]
    exact ⟨hbal, rfl⟩
  · exact balanced_rotateRight key value hl hr hdepth (by omega)

@[simp] theorem mirror_rebalance :
    (rebalance left key value right).mirror = rebalance right.mirror key value left.mirror := by
  have hbalance : (join right.mirror key value left.mirror).balance =
      -(join left key value right).balance := by rw [← mirror_join, balance_mirror]
  unfold rebalance
  dsimp only
  rw [hbalance, balance_mirror, balance_mirror]
  generalize (join left key value right).balance = b
  by_cases hleft : 1 < b
  · rw [if_pos hleft, if_neg (show ¬1 < -b by omega), if_pos (show -b < -1 by omega)]
    by_cases hlean : left.balance < 0
    · rw [if_pos hlean, if_pos (show 0 < -left.balance by omega), mirror_rotateRight, mirror_join,
        mirror_rotateLeft]
    · rw [if_neg hlean, if_neg (show ¬0 < -left.balance by omega), mirror_rotateRight, mirror_join]
  · rw [if_neg hleft, if_neg (show ¬-b < -1 by omega)]
    by_cases hright : b < -1
    · rw [if_pos hright, if_pos (show 1 < -b by omega)]
      by_cases hlean : 0 < right.balance
      · rw [if_pos hlean, if_pos (show -right.balance < 0 by omega), mirror_rotateLeft, mirror_join,
          mirror_rotateRight]
      · rw [if_neg hlean, if_neg (show ¬-right.balance < 0 by omega), mirror_rotateLeft,
          mirror_join]
    · rw [if_neg hright, if_neg (show ¬1 < -b by omega), mirror_join]

/-- One rotation repairs a node whose right child is too tall. -/
theorem balanced_rebalance_right (key : UInt64) (value : α) (hl : left.Balanced)
    (hr : right.Balanced) (hdepth : right.depth = left.depth + 2) :
    (rebalance left key value right).Balanced ∧
      (rebalance left key value right).depth =
        if right.balance = 0 then right.depth + 1 else right.depth := by
  have h := balanced_rebalance_left key value (balanced_mirror.2 hr)
    (balanced_mirror.2 hl) (by rw [depth_mirror, depth_mirror, hdepth])
  rw [← mirror_rebalance, balanced_mirror, depth_mirror, depth_mirror, balance_mirror] at h
  simpa only [Int.neg_eq_zero] using h

/-- Rebalancing balances a node whose children differ by at most two. The tree is then as tall as
the taller child or by one taller, and it is taller if nothing was to be repaired. -/
theorem balanced_rebalance (key : UInt64) (value : α) (hl : left.Balanced) (hr : right.Balanced)
    (hlr : left.depth ≤ right.depth + 2) (hrl : right.depth ≤ left.depth + 2) :
    (rebalance left key value right).Balanced ∧
      max left.depth right.depth ≤ (rebalance left key value right).depth ∧
      (rebalance left key value right).depth ≤ 1 + max left.depth right.depth ∧
      (left.depth ≤ right.depth + 1 → right.depth ≤ left.depth + 1 →
        (rebalance left key value right).depth = 1 + max left.depth right.depth) := by
  by_cases hleft : left.depth = right.depth + 2
  · obtain ⟨hbal, hdep⟩ := balanced_rebalance_left key value hl hr hleft
    refine ⟨hbal, ?_⟩
    rw [hdep]; split <;> omega
  · by_cases hright : right.depth = left.depth + 2
    · obtain ⟨hbal, hdep⟩ := balanced_rebalance_right key value hl hr hright
      refine ⟨hbal, ?_⟩
      rw [hdep]; split <;> omega
    · rw [rebalance_eq_join hl hr (by omega) (by omega), depth_join]
      exact ⟨balanced_join hl hr (by omega) (by omega), by omega, by omega, fun _ _ => rfl⟩

/-! ### Insertion -/

/-- The tree is taller on the side on which a key belongs. -/
def LeansTo (key : UInt64) : Tree α → Prop
  | nil => False
  | tree@(node _ key' _ _ _) =>
    (key < key' ∧ tree.balance = 1) ∨ (key' < key ∧ tree.balance = -1)

/-- A tree that leans towards a key is not even. -/
theorem LeansTo.balance_ne {tree : Tree α} (h : tree.LeansTo key) : tree.balance ≠ 0 := by
  cases tree with
  | nil => exact h.elim
  | node => rcases h with ⟨-, h⟩ | ⟨-, h⟩ <;> omega

/-- If a child that has become too tall leans towards the inserted key, then the key selects the
same rotation as the child's balance. -/
theorem rebalanceInserted_eq_rebalance {key' : UInt64} (hl : left.Balanced) (hr : right.Balanced)
    (hleft : right.depth + 1 < left.depth → left.LeansTo key)
    (hright : left.depth + 1 < right.depth → right.LeansTo key) :
    rebalanceInserted key left key' value right = rebalance left key' value right := by
  have hbalance := balance_join key' value hl hr
  unfold rebalanceInserted rebalance
  dsimp only
  split
  · have hlean := hleft (by omega)
    cases left with
    | nil => exact hlean.elim
    | node a x v height b =>
      dsimp only
      rcases hlean with ⟨hkey, hlean⟩ | ⟨hkey, hlean⟩
      · rw [if_neg (UInt64.lt_asymm hkey), if_neg (by omega)]
      · rw [if_pos hkey, if_pos (by omega)]
  · split
    · have hlean := hright (by omega)
      cases right with
      | nil => exact hlean.elim
      | node a x v height b =>
        dsimp only
        rcases hlean with ⟨hkey, hlean⟩ | ⟨hkey, hlean⟩
        · rw [if_pos hkey, if_pos (by omega)]
        · rw [if_neg (UInt64.lt_asymm hkey), if_neg (by omega)]
    · rfl

/-- What an insertion under `key` makes of a subtree: a balanced tree that has kept its height, or
has grown by one and leans towards the key unless it was empty. -/
structure Grown (key : UInt64) (before after : Tree α) : Prop where
  balanced : after.Balanced
  depth : after.depth = before.depth ∨
    after.depth = before.depth + 1 ∧ (before = nil ∨ after.LeansTo key)

/-- A part that is too tall after it has grown leans towards the key. -/
theorem Grown.leansTo {before after : Tree α} (h : Grown key before after) {n : Nat}
    (hbefore : before.depth ≤ n + 1) (hafter : n + 1 < after.depth) : after.LeansTo key := by
  rcases h.depth with hsame | ⟨hmore, hempty | hlean⟩
  · omega
  · rw [hempty, Tree.depth] at hmore; omega
  · exact hlean

/-- A part that has grown is not lower than before and at most by one taller. -/
theorem Grown.depth_le {before after : Tree α} (h : Grown key before after) :
    before.depth ≤ after.depth ∧ after.depth ≤ before.depth + 1 := by
  rcases h.depth with hsame | ⟨hmore, -⟩ <;> omega

/-- When the left part of a node has grown, its balance selects what the inserted key selects. -/
theorem Grown.rebalance_left {key' : UInt64} {height : Nat} {grown : Tree α}
    (hgrown : Grown key left grown) (h : (node left key' value height right).Balanced) :
    rebalanceInserted key grown key' value right = rebalance grown key' value right := by
  obtain ⟨-, hr, -, hlr, hrl⟩ := h
  have hdepth := hgrown.depth_le
  exact rebalanceInserted_eq_rebalance hgrown.balanced hr (hgrown.leansTo hlr)
    fun htall => by omega

/-- When the right part of a node has grown, its balance selects what the inserted key selects. -/
theorem Grown.rebalance_right {key' : UInt64} {height : Nat} {grown : Tree α}
    (hgrown : Grown key right grown) (h : (node left key' value height right).Balanced) :
    rebalanceInserted key left key' value grown = rebalance left key' value grown := by
  obtain ⟨hl, -, -, hlr, hrl⟩ := h
  have hdepth := hgrown.depth_le
  exact rebalanceInserted_eq_rebalance hl hgrown.balanced (fun htall => by omega)
    (hgrown.leansTo hrl)

/-- When the left part of a node has grown, rebalancing completes the growth of the node. -/
theorem Grown.node_left {key' : UInt64} {height : Nat} {grown : Tree α}
    (hgrown : Grown key left grown) (h : (node left key' value height right).Balanced)
    (hkey : key < key') :
    Grown key (node left key' value height right)
      (rebalanceInserted key grown key' value right) := by
  rw [hgrown.rebalance_left h]
  obtain ⟨hl, hr, -, hlr, hrl⟩ := h
  have hbal := hgrown.balanced
  have hdepth := hgrown.depth_le
  by_cases htall : grown.depth = right.depth + 2
  · -- One rotation takes back the growth.
    have hlean := hgrown.leansTo hlr (by omega)
    obtain ⟨hrebalanced, hdep⟩ :=
      balanced_rebalance_left key' value hbal hr htall
    rw [if_neg hlean.balance_ne] at hdep
    refine ⟨hrebalanced, Or.inl ?_⟩
    rw [hdep, Tree.depth]; omega
  · -- Nothing is rotated, and the node leans to the left if it has grown.
    have hbalance := balance_join key' value hbal hr
    rw [rebalance_eq_join hbal hr (by omega) (by omega)]
    refine ⟨balanced_join hbal hr (by omega) (by omega), ?_⟩
    rw [depth_join, Tree.depth]
    by_cases hsame : grown.depth ≤ max left.depth right.depth
    · exact Or.inl (by omega)
    · exact Or.inr ⟨by omega, Or.inr (Or.inl ⟨hkey, by rw [← join, hbalance]; omega⟩)⟩

/-- When the right part of a node has grown, rebalancing completes the growth of the node. -/
theorem Grown.node_right {key' : UInt64} {height : Nat} {grown : Tree α}
    (hgrown : Grown key right grown) (h : (node left key' value height right).Balanced)
    (hkey : key' < key) :
    Grown key (node left key' value height right)
      (rebalanceInserted key left key' value grown) := by
  rw [hgrown.rebalance_right h]
  obtain ⟨hl, hr, -, hlr, hrl⟩ := h
  have hbal := hgrown.balanced
  have hdepth := hgrown.depth_le
  by_cases htall : grown.depth = left.depth + 2
  · -- One rotation takes back the growth.
    have hlean := hgrown.leansTo hrl (by omega)
    obtain ⟨hrebalanced, hdep⟩ :=
      balanced_rebalance_right key' value hl hbal htall
    rw [if_neg hlean.balance_ne] at hdep
    refine ⟨hrebalanced, Or.inl ?_⟩
    rw [hdep, Tree.depth]; omega
  · -- Nothing is rotated, and the node leans to the right if it has grown.
    have hbalance := balance_join key' value hl hbal
    rw [rebalance_eq_join hl hbal (by omega) (by omega)]
    refine ⟨balanced_join hl hbal (by omega) (by omega), ?_⟩
    rw [depth_join, Tree.depth]
    by_cases hsame : grown.depth ≤ max left.depth right.depth
    · exact Or.inl (by omega)
    · exact Or.inr ⟨by omega, Or.inr (Or.inr ⟨hkey, by rw [← join, hbalance]; omega⟩)⟩

/-- An insertion leaves every subtree on its path balanced and at most by one taller. -/
theorem grown_insert (key : UInt64) (value : α) (overwrite : Bool) {tree : Tree α}
    (h : tree.Balanced) : Grown key tree (tree.insert key value overwrite).1 := by
  induction tree with
  | nil =>
    have hleaf : (node nil key value 1 nil).Balanced :=
      ⟨trivial, trivial, rfl, Nat.le_succ 0, Nat.le_succ 0⟩
    exact ⟨hleaf, Or.inr ⟨rfl, Or.inl rfl⟩⟩
  | node left key' value' height right ihl ihr =>
    rw [insert]
    split
    · rename_i hkey
      exact (ihl h.1).node_left h hkey
    · split
      · rename_i hkey
        exact (ihr h.2.1).node_right h hkey
      · -- The key is here, and the node changes at most its value.
        split
        · exact ⟨h, Or.inl rfl⟩
        · exact ⟨h, Or.inl rfl⟩

/-- Insertion keeps a tree balanced. -/
theorem balanced_insert (key : UInt64) (value : α) (overwrite : Bool) {tree : Tree α}
    (h : tree.Balanced) : (tree.insert key value overwrite).1.Balanced :=
  (grown_insert key value overwrite h).balanced

/-! ### Removal -/

/-- What a removal makes of a subtree: a balanced tree that has kept its height or lost one. -/
structure Shrunk (before after : Tree α) : Prop where
  balanced : after.Balanced
  le : after.depth ≤ before.depth
  ge : before.depth ≤ after.depth + 1

/-- When the left part of a node has shrunk, rebalancing completes the loss of the node. -/
theorem Shrunk.node_left {key' : UInt64} {value' : α} {height : Nat} {shrunk : Tree α}
    (hshrunk : Shrunk left shrunk) (h : (node left key value height right).Balanced) :
    Shrunk (node left key value height right) (rebalance shrunk key' value' right) := by
  obtain ⟨hl, hr, -, hlr, hrl⟩ := h
  obtain ⟨hbal, hle, hge⟩ := hshrunk
  obtain ⟨hrebalanced, hleast, hmost, hsame⟩ :=
    balanced_rebalance key' value' hbal hr (by omega) (by omega)
  refine ⟨hrebalanced, ?_, ?_⟩
  · rw [Tree.depth]; omega
  · rw [Tree.depth]; omega

/-- When the right part of a node has shrunk, rebalancing completes the loss of the node. -/
theorem Shrunk.node_right {key' : UInt64} {value' : α} {height : Nat} {shrunk : Tree α}
    (hshrunk : Shrunk right shrunk) (h : (node left key value height right).Balanced) :
    Shrunk (node left key value height right) (rebalance left key' value' shrunk) := by
  obtain ⟨hl, hr, -, hlr, hrl⟩ := h
  obtain ⟨hbal, hle, hge⟩ := hshrunk
  obtain ⟨hrebalanced, hleast, hmost, hsame⟩ :=
    balanced_rebalance key' value' hl hbal (by omega) (by omega)
  refine ⟨hrebalanced, ?_, ?_⟩
  · rw [Tree.depth]; omega
  · rw [Tree.depth]; omega

/-- A node without a right child may give way to its left child. -/
theorem shrunk_left {height : Nat} (h : (node left key value height nil).Balanced) :
    Shrunk (node left key value height nil) left := by
  obtain ⟨hl, -, -, hlr, -⟩ := h
  rw [depth.eq_1] at hlr
  refine ⟨hl, ?_, ?_⟩ <;> rw [depth, depth.eq_1] <;> omega

/-- A node without a left child may give way to its right child. -/
theorem shrunk_right {height : Nat} (h : (node nil key value height right).Balanced) :
    Shrunk (node nil key value height right) right := by
  obtain ⟨-, hr, -, -, hrl⟩ := h
  rw [depth.eq_1] at hrl
  refine ⟨hr, ?_, ?_⟩ <;> rw [depth, depth.eq_1] <;> omega

/-- Taking the leftmost entry out of a tree leaves a balanced tree that is at most by one lower. -/
theorem shrunk_removeLeast {height : Nat} (h : (node left key value height right).Balanced) :
    Shrunk (node left key value height right) (removeLeast left key value right).2 := by
  induction left generalizing key value height right with
  | nil => exact shrunk_right h
  | node left' key' value' height' right' ihl =>
    rw [removeLeast]
    exact (ihl h.1).node_left h

/-- Removing a key leaves a balanced tree that is at most by one lower. -/
theorem shrunk_erase (key : UInt64) {tree : Tree α} (h : tree.Balanced) :
    Shrunk tree (tree.erase key).1 := by
  induction tree with
  | nil => exact ⟨h, Nat.le_refl _, Nat.le_succ _⟩
  | node left key' value' height right ihl ihr =>
    unfold erase
    split
    · exact (ihl h.1).node_left h
    · split
      · exact (ihr h.2.1).node_right h
      · -- The key is here: a single child moves up, of two children the successor does.
        split
        · exact shrunk_left h
        · exact shrunk_right h
        · exact (shrunk_removeLeast h.2.1).node_right h

/-- Removal keeps a tree balanced. -/
theorem balanced_erase (key : UInt64) {tree : Tree α} (h : tree.Balanced) :
    (tree.erase key).1.Balanced :=
  (shrunk_erase key h).balanced

/-! ### Change of a value -/

@[simp] theorem depth_modify (key : UInt64) (change : α → α) (tree : Tree α) :
    (tree.modify key change).depth = tree.depth := by
  induction tree with
  | nil => rfl
  | node left key' value' height right ihl ihr =>
    rw [modify]
    split
    · rw [depth, depth, ihl]
    · split
      · rw [depth, depth, ihr]
      · rfl

/-- Changing a value keeps a tree balanced. -/
theorem balanced_modify (key : UInt64) (change : α → α) {tree : Tree α} (h : tree.Balanced) :
    (tree.modify key change).Balanced := by
  induction tree with
  | nil => exact h
  | node left key' value' height right ihl ihr =>
    obtain ⟨hl, hr, hheight, hlr, hrl⟩ := h
    rw [modify]
    split
    · refine ⟨ihl hl, hr, ?_, ?_, ?_⟩ <;> rw [depth_modify] <;> assumption
    · split
      · refine ⟨hl, ihr hr, ?_, ?_, ?_⟩ <;> rw [depth_modify] <;> assumption
      · exact ⟨hl, hr, hheight, hlr, hrl⟩

end LinkState.Avl.Tree
