import Mathlib.Data.Nat.Fib.Basic
import Mathlib.Tactic.NormNum.NatFib
import LinkState.Proofs.Avl.FiniteMap

/-!
# The height of an AVL tree is logarithmic

A balanced tree whose height is `h` has children of heights `h - 1` and at least `h - 2`, so that
the least number of nodes grows with the Fibonacci numbers (`Balanced.fib_le`). A map with fewer
than `2^64` entries is therefore lower than 93.

The operations with a question mark compute heights and differences of heights in signed 32-bit
words and give nothing if one of them does not fit. `Low` bounds the heights that the nodes of a
tree keep. A node that is built over two low trees is higher by one, a rotation builds two nodes,
and restoring the balance builds no more than five above one another. So on a balanced tree that is
not extremely high nothing is lost on the way up from the key (`insert32?_eq`, `erase32?_eq`), and
no map that fits a memory has such a tree (`logarithmic_height`).
-/

namespace LinkState.Avl

variable {α : Type u}

namespace Tree

variable {left right tree : Tree α} {key : UInt64} {value : α} {bound : Nat}

/-- A balanced tree has at least as many nodes as the sparsest one of its height. -/
theorem Balanced.fib_le (h : tree.Balanced) : Nat.fib (tree.depth + 2) ≤ tree.count + 1 := by
  induction tree with
  | nil => exact Nat.le_refl 1
  | node left key value height right ihl ihr =>
    obtain ⟨hl, hr, -, hlr, hrl⟩ := h
    have hleft : Nat.fib (left.depth + 2) ≤ left.count + 1 := ihl hl
    have hright : Nat.fib (right.depth + 2) ≤ right.count + 1 := ihr hr
    have hsplit (n : Nat) : Nat.fib (1 + n + 2) = Nat.fib (n + 2) + Nat.fib (n + 1) := by
      rw [show 1 + n + 2 = n + 1 + 2 by omega, Nat.fib_add_two, Nat.add_comm]
    -- The taller child counts in full, and the other one is lower by one at most.
    rw [depth, count, hsplit]
    rcases Nat.le_total left.depth right.depth with hle | hle
    · have hlower : Nat.fib (right.depth + 1) ≤ Nat.fib (left.depth + 2) :=
        Nat.fib_mono (by omega)
      rw [Nat.max_eq_right hle]
      omega
    · have hlower : Nat.fib (left.depth + 1) ≤ Nat.fib (right.depth + 2) :=
        Nat.fib_mono (by omega)
      rw [Nat.max_eq_left hle]
      omega

/-- A balanced tree with fewer than `2^64` nodes is lower than 93. -/
theorem Balanced.depth_lt (h : tree.Balanced) (hcount : tree.count < 2 ^ 64) : tree.depth < 93 := by
  have hnodes : Nat.fib (tree.depth + 2) ≤ tree.count + 1 := h.fib_le
  have hlarge : 2 ^ 64 < Nat.fib 95 := by norm_num
  by_contra hhigh
  have hmono : Nat.fib 95 ≤ Nat.fib (tree.depth + 2) := Nat.fib_mono (by omega)
  omega

/-! ### Heights in 32-bit words -/

/-- A number that fits a signed 32-bit word. -/
def word32? (n : Int) : Option Int := if -2 ^ 31 ≤ n ∧ n < 2 ^ 31 then some n else none

/-- A node whose height is computed in words. -/
def join32? (left : Tree α) (key : UInt64) (value : α) (right : Tree α) : Option (Tree α) :=
  (word32? (1 + max left.height right.height)).map fun height =>
    node left key value height.toNat right

/-- The balance of a tree, computed in words. -/
def balance32? : Tree α → Option Int
  | nil => some 0
  | node left _ _ _ right => word32? (left.height - right.height)

/-- `rotateRight`, computed in words. -/
def rotateRight32? : Tree α → Option (Tree α)
  | node (node a x v _ b) y w _ c => do join32? a x v (← join32? b y w c)
  | tree => some tree

/-- `rotateLeft`, computed in words. -/
def rotateLeft32? : Tree α → Option (Tree α)
  | node a x v _ (node b y w _ c) => do join32? (← join32? a x v b) y w c
  | tree => some tree

/-- The rotation of a left child that leans inwards and then of its parent, computed in words. -/
def rotateInnerRight32? (left : Tree α) (key : UInt64) (value : α) (right : Tree α) :
    Option (Tree α) := do
  rotateRight32? (← join32? (← left.rotateLeft32?) key value right)

/-- The rotation of a right child that leans inwards and then of its parent, computed in words. -/
def rotateInnerLeft32? (left : Tree α) (key : UInt64) (value : α) (right : Tree α) :
    Option (Tree α) := do
  rotateLeft32? (← join32? left key value (← right.rotateRight32?))

/-- `rebalanceInserted`, computed in words. -/
def rebalanceInserted32? (key : UInt64) (left : Tree α) (key' : UInt64) (value : α)
    (right : Tree α) : Option (Tree α) := do
  let tree ← join32? left key' value right
  tree.balance32?.bind fun balance =>
    if 1 < balance then
      match left with
      | nil => some tree
      | node _ leftKey _ _ _ =>
        if leftKey < key then rotateInnerRight32? left key' value right else tree.rotateRight32?
    else if balance < -1 then
      match right with
      | nil => some tree
      | node _ rightKey _ _ _ =>
        if key < rightKey then rotateInnerLeft32? left key' value right else tree.rotateLeft32?
    else some tree

/-- `rebalance`, computed in words. -/
def rebalance32? (left : Tree α) (key : UInt64) (value : α) (right : Tree α) :
    Option (Tree α) := do
  let tree ← join32? left key value right
  tree.balance32?.bind fun balance =>
    if 1 < balance then
      left.balance32?.bind fun lean =>
        if lean < 0 then rotateInnerRight32? left key value right else tree.rotateRight32?
    else if balance < -1 then
      right.balance32?.bind fun lean =>
        if 0 < lean then rotateInnerLeft32? left key value right else tree.rotateLeft32?
    else some tree

/-- `insert`, computed in words. -/
def insert32? (key : UInt64) (value : α) (overwrite : Bool) : Tree α → Option (Tree α × Insertion)
  | nil => some (node nil key value 1 nil, .inserted)
  | node left key' value' height right =>
    if key < key' then do
      let grown ← left.insert32? key value overwrite
      return (← rebalanceInserted32? key grown.1 key' value' right, grown.2)
    else if key' < key then do
      let grown ← right.insert32? key value overwrite
      return (← rebalanceInserted32? key left key' value' grown.1, grown.2)
    else if overwrite then some (node left key' value height right, .replaced)
    else some (node left key' value' height right, .unchanged)

/-- `removeLeast`, computed in words. -/
def removeLeast32? (left : Tree α) (key : UInt64) (value : α) (right : Tree α) :
    Option ((UInt64 × α) × Tree α) :=
  match left with
  | nil => some ((key, value), right)
  | node left' key' value' _ right' => do
    let rest ← removeLeast32? left' key' value' right'
    return (rest.1, ← rebalance32? rest.2 key value right)

/-- `erase`, computed in words. -/
def erase32? (key : UInt64) : Tree α → Option (Tree α × Option α)
  | nil => some (nil, none)
  | node left key' value' _ right =>
    if key < key' then do
      let shrunk ← left.erase32? key
      return (← rebalance32? shrunk.1 key' value' right, shrunk.2)
    else if key' < key then do
      let shrunk ← right.erase32? key
      return (← rebalance32? left key' value' shrunk.1, shrunk.2)
    else match left, right with
      | left, nil => some (left, some value')
      | nil, right => some (right, some value')
      | left, node left' key'' value'' _ right' => do
        let rest ← removeLeast32? left' key'' value'' right'
        return (← rebalance32? left rest.1.1 rest.1.2 rest.2, some value')

/-! ### Low trees -/

/-- No node of a tree keeps a height above a bound. -/
def Low (bound : Nat) : Tree α → Prop
  | nil => True
  | node left _ _ height right => left.Low bound ∧ right.Low bound ∧ height ≤ bound

theorem Low.height_le (h : tree.Low bound) : tree.height ≤ bound := by
  cases tree with
  | nil => exact Nat.zero_le bound
  | node => exact h.2.2

theorem Low.mono (h : tree.Low bound) {larger : Nat} (hle : bound ≤ larger) : tree.Low larger := by
  induction tree with
  | nil => trivial
  | node left key value height right ihl ihr =>
    exact ⟨ihl h.1, ihr h.2.1, Nat.le_trans h.2.2 hle⟩

/-- No node of a balanced tree keeps a larger height than the root. -/
theorem Balanced.low (h : tree.Balanced) : tree.Low tree.depth := by
  induction tree with
  | nil => trivial
  | node left key value height right ihl ihr =>
    obtain ⟨hl, hr, hheight, -, -⟩ := h
    rw [depth]
    exact ⟨(ihl hl).mono (by omega), (ihr hr).mono (by omega), Nat.le_of_eq hheight⟩

/-- A node over low trees is higher than they are by one at most. -/
theorem Low.join (hl : left.Low bound) (hr : right.Low bound) (key : UInt64) (value : α) :
    (join left key value right).Low (bound + 1) := by
  have hleft : left.height ≤ bound := hl.height_le
  have hright : right.height ≤ bound := hr.height_le
  exact ⟨hl.mono (Nat.le_succ bound), hr.mono (Nat.le_succ bound), by omega⟩

/-- A rotation builds one node above another. -/
theorem Low.rotateRight (h : tree.Low bound) : tree.rotateRight.Low (bound + 2) := by
  cases tree with
  | nil => trivial
  | node left y w height c =>
    cases left with
    | nil => exact h.mono (by omega)
    | node a x v height' b =>
      obtain ⟨⟨ha, hb, -⟩, hc, -⟩ := h
      exact (ha.mono (Nat.le_succ bound)).join (hb.join hc y w) x v

theorem Low.rotateLeft (h : tree.Low bound) : tree.rotateLeft.Low (bound + 2) := by
  cases tree with
  | nil => trivial
  | node a x v height right =>
    cases right with
    | nil => exact h.mono (by omega)
    | node b y w height' c =>
      obtain ⟨ha, ⟨hb, hc, -⟩, -⟩ := h
      exact (ha.join hb x v).join (hc.mono (Nat.le_succ bound)) y w

/-! ### Nothing is lost on low trees -/

theorem word32?_eq {n : Int} (hlow : -2 ^ 31 ≤ n) (hhigh : n < 2 ^ 31) : word32? n = some n :=
  if_pos ⟨hlow, hhigh⟩

theorem Low.join32?_eq (hl : left.Low bound) (hr : right.Low bound) (key : UInt64) (value : α)
    (hbound : bound + 1 < 2 ^ 31) :
    join32? left key value right = some (Tree.join left key value right) := by
  have hleft : left.height ≤ bound := hl.height_le
  have hright : right.height ≤ bound := hr.height_le
  have hheight : (1 + (max left.height right.height : Nat) : Int).toNat =
      1 + max left.height right.height := by omega
  rw [join32?, word32?_eq (by omega) (by omega), Option.map_some, hheight, Tree.join]

theorem Low.balance32?_eq (h : tree.Low bound) (hbound : bound < 2 ^ 31) :
    tree.balance32? = some tree.balance := by
  cases tree with
  | nil => rfl
  | node left key value height right =>
    have hleft : left.height ≤ bound := h.1.height_le
    have hright : right.height ≤ bound := h.2.1.height_le
    exact word32?_eq (by omega) (by omega)

theorem Low.rotateRight32?_eq (h : tree.Low bound) (hbound : bound + 2 < 2 ^ 31) :
    tree.rotateRight32? = some tree.rotateRight := by
  cases tree with
  | nil => rfl
  | node left y w height c =>
    cases left with
    | nil => rfl
    | node a x v height' b =>
      obtain ⟨⟨ha, hb, -⟩, hc, -⟩ := h
      have ha : a.Low (bound + 1) := ha.mono (Nat.le_succ bound)
      rw [rotateRight32?, hb.join32?_eq hc y w (by omega), Option.bind_eq_bind, Option.bind_some,
        ha.join32?_eq (hb.join hc y w) x v (by omega), Tree.rotateRight]

theorem Low.rotateLeft32?_eq (h : tree.Low bound) (hbound : bound + 2 < 2 ^ 31) :
    tree.rotateLeft32? = some tree.rotateLeft := by
  cases tree with
  | nil => rfl
  | node a x v height right =>
    cases right with
    | nil => rfl
    | node b y w height' c =>
      obtain ⟨ha, ⟨hb, hc, -⟩, -⟩ := h
      have hc : c.Low (bound + 1) := hc.mono (Nat.le_succ bound)
      rw [rotateLeft32?, ha.join32?_eq hb x v (by omega), Option.bind_eq_bind, Option.bind_some,
        (ha.join hb x v).join32?_eq hc y w (by omega), Tree.rotateLeft]

theorem Low.rotateInnerRight32?_eq (hl : left.Low bound) (hr : right.Low bound) (key : UInt64)
    (value : α) (hbound : bound + 5 < 2 ^ 31) :
    rotateInnerRight32? left key value right =
      some (Tree.join left.rotateLeft key value right).rotateRight := by
  have hrotated : left.rotateLeft.Low (bound + 2) := hl.rotateLeft
  have hr : right.Low (bound + 2) := hr.mono (by omega)
  rw [rotateInnerRight32?, hl.rotateLeft32?_eq (by omega), Option.bind_eq_bind, Option.bind_some,
    hrotated.join32?_eq hr key value (by omega), Option.bind_some,
    (hrotated.join hr key value).rotateRight32?_eq (by omega)]

theorem Low.rotateInnerLeft32?_eq (hl : left.Low bound) (hr : right.Low bound) (key : UInt64)
    (value : α) (hbound : bound + 5 < 2 ^ 31) :
    rotateInnerLeft32? left key value right =
      some (Tree.join left key value right.rotateRight).rotateLeft := by
  have hrotated : right.rotateRight.Low (bound + 2) := hr.rotateRight
  have hl : left.Low (bound + 2) := hl.mono (by omega)
  rw [rotateInnerLeft32?, hr.rotateRight32?_eq (by omega), Option.bind_eq_bind, Option.bind_some,
    hl.join32?_eq hrotated key value (by omega), Option.bind_some,
    (hl.join hrotated key value).rotateLeft32?_eq (by omega)]

theorem Low.rebalance32?_eq (hl : left.Low bound) (hr : right.Low bound) (key : UInt64) (value : α)
    (hbound : bound + 5 < 2 ^ 31) :
    rebalance32? left key value right = some (rebalance left key value right) := by
  have htree : (Tree.join left key value right).Low (bound + 1) := hl.join hr key value
  rw [rebalance32?, hl.join32?_eq hr key value (by omega), Option.bind_eq_bind, Option.bind_some,
    htree.balance32?_eq (by omega), Option.bind_some, hl.balance32?_eq (by omega), Option.bind_some,
    hr.balance32?_eq (by omega), Option.bind_some, hl.rotateInnerRight32?_eq hr key value hbound,
    hl.rotateInnerLeft32?_eq hr key value hbound, htree.rotateRight32?_eq (by omega),
    htree.rotateLeft32?_eq (by omega)]
  unfold rebalance
  dsimp only
  simp only [apply_ite some]

theorem Low.rebalanceInserted32?_eq (hl : left.Low bound) (hr : right.Low bound)
    (key key' : UInt64) (value : α) (hbound : bound + 5 < 2 ^ 31) :
    rebalanceInserted32? key left key' value right =
      some (rebalanceInserted key left key' value right) := by
  have htree : (Tree.join left key' value right).Low (bound + 1) := hl.join hr key' value
  have hinnerRight := hl.rotateInnerRight32?_eq hr key' value hbound
  have hinnerLeft := hl.rotateInnerLeft32?_eq hr key' value hbound
  rw [rebalanceInserted32?, hl.join32?_eq hr key' value (by omega), Option.bind_eq_bind,
    Option.bind_some, htree.balance32?_eq (by omega), Option.bind_some,
    htree.rotateRight32?_eq (by omega), htree.rotateLeft32?_eq (by omega)]
  unfold rebalanceInserted
  dsimp only
  -- The keys of the children select the rotations.
  split
  · cases left with
    | nil => rfl
    | node => dsimp only; rw [hinnerRight, apply_ite some]
  · split
    · cases right with
      | nil => rfl
      | node => dsimp only; rw [hinnerLeft, apply_ite some]
    · rfl

/-- A subtree that has grown is higher by one at most. -/
theorem Grown.low {before after : Tree α} (h : Grown key before after) :
    after.Low (before.depth + 1) := by
  have hdepth : after.depth = before.depth ∨ after.depth = before.depth + 1 :=
    h.depth.imp_right And.left
  exact h.balanced.low.mono (by omega)

/-- A subtree that has shrunk is no higher. -/
theorem Shrunk.low {before after : Tree α} (h : Shrunk before after) : after.Low before.depth :=
  h.balanced.low.mono h.le

/-- On the way up from an insertion nothing is lost. -/
theorem insert32?_eq (key : UInt64) (value : α) (overwrite : Bool) (h : tree.Balanced)
    (hbound : tree.depth + 5 < 2 ^ 31) :
    tree.insert32? key value overwrite = some (tree.insert key value overwrite) := by
  induction tree with
  | nil => rfl
  | node left key' value' height right ihl ihr =>
    obtain ⟨hleft, hright, -⟩ := h.low
    have hgrownLeft := (grown_insert key value overwrite h.1).low
    have hgrownRight := (grown_insert key value overwrite h.2.1).low
    rw [depth] at hbound hleft hright
    rw [insert32?, insert]
    split
    · rw [ihl h.1 (by omega), Option.bind_eq_bind, Option.bind_some,
        (hgrownLeft.mono (by omega)).rebalanceInserted32?_eq hright key key' value' hbound]
      rfl
    · split
      · rw [ihr h.2.1 (by omega), Option.bind_eq_bind, Option.bind_some,
          hleft.rebalanceInserted32?_eq (hgrownRight.mono (by omega)) key key' value' hbound]
        rfl
      · exact (apply_ite some (overwrite = true) _ _).symm

/-- On the way up from the leftmost node nothing is lost. -/
theorem removeLeast32?_eq {height : Nat} (h : (node left key value height right).Balanced)
    (hbound : (node left key value height right).depth + 5 < 2 ^ 31) :
    removeLeast32? left key value right = some (removeLeast left key value right) := by
  induction left generalizing key value height right with
  | nil => rfl
  | node left' key' value' height' right' ihl =>
    obtain ⟨hleft, hright, -⟩ := h.low
    have hshrunk := (shrunk_removeLeast h.1).low
    rw [depth] at hbound hright
    rw [removeLeast32?, removeLeast, ihl h.1 (by omega), Option.bind_eq_bind, Option.bind_some,
      (hshrunk.mono (by omega)).rebalance32?_eq hright key value hbound]
    rfl

/-- On the way up from a removal nothing is lost. -/
theorem erase32?_eq (key : UInt64) (h : tree.Balanced) (hbound : tree.depth + 5 < 2 ^ 31) :
    tree.erase32? key = some (tree.erase key) := by
  induction tree with
  | nil => rfl
  | node left key' value' height right ihl ihr =>
    obtain ⟨hleft, hright, -⟩ := h.low
    have hshrunkLeft := (shrunk_erase key h.1).low
    have hshrunkRight := (shrunk_erase key h.2.1).low
    rw [depth] at hbound hleft hright
    unfold erase32? erase
    split
    · rw [ihl h.1 (by omega), Option.bind_eq_bind, Option.bind_some,
        (hshrunkLeft.mono (by omega)).rebalance32?_eq hright key' value' hbound]
      rfl
    · split
      · rw [ihr h.2.1 (by omega), Option.bind_eq_bind, Option.bind_some,
          hleft.rebalance32?_eq (hshrunkRight.mono (by omega)) key' value' hbound]
        rfl
      · -- Only a node with two children is built anew, over its successor.
        cases right with
        | nil => rfl
        | node left' key'' value'' height' right' =>
          cases left with
          | nil => rfl
          | node =>
            have hnext := (shrunk_removeLeast h.2.1).low
            dsimp only
            rw [removeLeast32?_eq h.2.1 (by omega), Option.bind_eq_bind, Option.bind_some,
              hleft.rebalance32?_eq (hnext.mono (by omega)) _ _ hbound]
            rfl

end Tree

/-- Whatever is asked of a map that starts without entries, its height `h` is such that it holds
`F (h + 2) - 1` entries or more. With fewer than `2^64` entries no node is as high as 93, and the
next insertion or removal computes no height and no difference of heights that a signed 32-bit word
does not hold. -/
theorem logarithmic_height (requests : List (Request α)) :
    Nat.fib ((Map.served requests).height + 2) - 1 ≤ (Map.served requests).size ∧
      ((Map.served requests).size < 2 ^ 64 →
        (Map.served requests).height < 93 ∧ (Map.served requests).tree.Low 92 ∧
          (∀ key value overwrite, (Map.served requests).tree.insert32? key value overwrite =
            some ((Map.served requests).tree.insert key value overwrite)) ∧
          ∀ key, (Map.served requests).tree.erase32? key =
            some ((Map.served requests).tree.erase key)) := by
  obtain ⟨-, hbalanced, hsize⟩ := Map.valid_served requests
  have hheight : (Map.served requests).height = (Map.served requests).tree.depth :=
    hbalanced.height_eq
  rw [hheight, hsize]
  refine ⟨Nat.sub_le_of_le_add hbalanced.fib_le, fun hcount => ?_⟩
  have hdepth : (Map.served requests).tree.depth < 93 := hbalanced.depth_lt hcount
  have hlow : (Map.served requests).tree.Low 92 := hbalanced.low.mono (by omega)
  exact ⟨hdepth, hlow,
    fun key value overwrite => Tree.insert32?_eq key value overwrite hbalanced (by omega),
    fun key => Tree.erase32?_eq key hbalanced (by omega)⟩

/-- The sparsest tree of height four has seven nodes, and the removal of its last key, which rotates
the root, computes in words what it computes without bounds. -/
theorem logarithmic_height_sparsest :
    let requests := [5, 3, 6, 2, 4, 7, 1].map fun key => Request.insert key () false
    (Map.served requests).size = Nat.fib (4 + 2) - 1 ∧ (Map.served requests).height = 4 ∧
      (Map.served requests).tree.erase32? 7 = some ((Map.served requests).tree.erase 7) := by
  intro requests
  have hsize : (Map.served requests).size = Nat.fib (4 + 2) - 1 := by decide
  have hbound : (Map.served requests).size < 2 ^ 64 := by rw [hsize]; decide
  obtain ⟨-, -, -, herase⟩ := (logarithmic_height requests).2 hbound
  exact ⟨hsize, by decide, herase 7⟩

end LinkState.Avl
