import LinkState.Octets

/-!
# AVL trees

Search trees over 64-bit keys whose nodes keep their height. Insertion and removal walk down to the
key and restore the balance of every node on the way back up: after an insertion the inserted key
tells which grandchild has grown, after a removal the balance of the taller child selects the
rotation. `Tree.toList` is the in-order view that all operations are judged by.
-/

namespace LinkState.Avl

/-- A search tree; every node keeps the height of the tree below it. -/
inductive Tree (α : Type u) where
  | nil
  | node (left : Tree α) (key : UInt64) (value : α) (height : Nat) (right : Tree α)
deriving DecidableEq, Repr

/-- What an insertion did. -/
inductive Insertion where
  /-- The key was absent and a node was added. -/
  | inserted
  /-- The key was present and its value was replaced. -/
  | replaced
  /-- The key was present and its value was kept. -/
  | unchanged
deriving DecidableEq, Repr

namespace Tree

variable {α : Type u}

/-! ### Views -/

/-- The height that the root keeps. -/
def height : Tree α → Nat
  | nil => 0
  | node _ _ _ height _ => height

/-- The number of nodes. -/
def count : Tree α → Nat
  | nil => 0
  | node left _ _ _ right => left.count + 1 + right.count

/-- The entries from left to right. -/
def toList : Tree α → List (UInt64 × α)
  | nil => []
  | node left key value _ right => left.toList ++ (key, value) :: right.toList

/-- The value under a key, found by walking down. -/
def find? (tree : Tree α) (key : UInt64) : Option α :=
  match tree with
  | nil => none
  | node left key' value _ right =>
    if key < key' then left.find? key
    else if key' < key then right.find? key
    else some value

/-- The shape as text: a dot for no node, otherwise left part, key, height and right part. -/
def shape : Tree α → String
  | nil => "."
  | node left key _ height right =>
    "(" ++ left.shape ++ " " ++ toString key.toNat ++ ":" ++ toString height ++ " " ++
      right.shape ++ ")"

/-! ### Balance -/

/-- A node whose height is computed from its parts. -/
def join (left : Tree α) (key : UInt64) (value : α) (right : Tree α) : Tree α :=
  node left key value (1 + max left.height right.height) right

/-- The height of the left part less that of the right part. -/
def balance : Tree α → Int
  | nil => 0
  | node left _ _ _ right => left.height - right.height

/-- The left child becomes the root; without one nothing changes. -/
def rotateRight : Tree α → Tree α
  | node (node a x v _ b) y w _ c => join a x v (join b y w c)
  | tree => tree

/-- The right child becomes the root; without one nothing changes. -/
def rotateLeft : Tree α → Tree α
  | node a x v _ (node b y w _ c) => join (join a x v b) y w c
  | tree => tree

/-- Restores the balance after `key` was inserted below: it tells which grandchild has grown. -/
def rebalanceInserted (key : UInt64) (left : Tree α) (key' : UInt64) (value : α)
    (right : Tree α) : Tree α :=
  let tree := join left key' value right
  if 1 < tree.balance then
    match left with
    | nil => tree
    -- The inner grandchild has grown exactly if the key went past the left child.
    | node _ leftKey _ _ _ =>
      if leftKey < key then rotateRight (join left.rotateLeft key' value right)
      else rotateRight tree
  else if tree.balance < -1 then
    match right with
    | nil => tree
    | node _ rightKey _ _ _ =>
      if key < rightKey then rotateLeft (join left key' value right.rotateRight)
      else rotateLeft tree
  else tree

/-- Restores the balance after a removal below: the taller child's own balance selects the
rotation. -/
def rebalance (left : Tree α) (key : UInt64) (value : α) (right : Tree α) : Tree α :=
  let tree := join left key value right
  if 1 < tree.balance then
    if left.balance < 0 then rotateRight (join left.rotateLeft key value right)
    else rotateRight tree
  else if tree.balance < -1 then
    if 0 < right.balance then rotateLeft (join left key value right.rotateRight)
    else rotateLeft tree
  else tree

/-! ### Operations -/

/-- Puts a value under a key. If the key is present its value is replaced only on request, and the
node stays as it is otherwise. -/
def insert (key : UInt64) (value : α) (overwrite : Bool) : Tree α → Tree α × Insertion
  | nil => (node nil key value 1 nil, .inserted)
  | node left key' value' height right =>
    if key < key' then
      let (left, insertion) := left.insert key value overwrite
      (rebalanceInserted key left key' value' right, insertion)
    else if key' < key then
      let (right, insertion) := right.insert key value overwrite
      (rebalanceInserted key left key' value' right, insertion)
    else if overwrite then (node left key' value height right, .replaced)
    else (node left key' value' height right, .unchanged)

/-- Removes the leftmost entry of the tree with the given root and gives it with the rest. -/
def removeLeast (left : Tree α) (key : UInt64) (value : α) (right : Tree α) :
    (UInt64 × α) × Tree α :=
  match left with
  | nil => ((key, value), right)
  | node left' key' value' _ right' =>
    let (least, left) := removeLeast left' key' value' right'
    (least, rebalance left key value right)

/-- Removes a key and gives the value that was under it. A node with two children is replaced by its
successor in key order. -/
def erase (key : UInt64) : Tree α → Tree α × Option α
  | nil => (nil, none)
  | node left key' value' _ right =>
    if key < key' then
      let (left, removed) := left.erase key
      (rebalance left key' value' right, removed)
    else if key' < key then
      let (right, removed) := right.erase key
      (rebalance left key' value' right, removed)
    -- The key is here: a single child moves up, of two children the successor does.
    else match left, right with
      | left, nil => (left, some value')
      | nil, right => (right, some value')
      | left, node left' key'' value'' _ right' =>
        let (next, right) := removeLeast left' key'' value'' right'
        (rebalance left next.1 next.2 right, some value')

/-- Changes the value under a key, if there is one, and nothing else. -/
def modify (key : UInt64) (change : α → α) : Tree α → Tree α
  | nil => nil
  | node left key' value height right =>
    if key < key' then node (left.modify key change) key' value height right
    else if key' < key then node left key' value height (right.modify key change)
    else node left key' (change value) height right

end Tree

end LinkState.Avl
