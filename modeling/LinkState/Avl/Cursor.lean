import LinkState.Avl.Tree

/-!
# In-order traversal with a stack

A cursor holds the tree to be visited next and the nodes whose left part is being visited. A call of
`Cursor.next` goes down the left spine, gives the node it ends at and turns to that node's right
part.
-/

namespace LinkState.Avl

variable {α : Type u}

/-- A node whose left part is being visited: its entry and its right part. -/
structure Pending (α : Type u) where
  entry : UInt64 × α
  right : Tree α

/-- A position in a traversal. -/
structure Cursor (α : Type u) where
  stack : List (Pending α)
  current : Tree α

/-- The position in front of a tree's first entry. -/
def Tree.cursor (tree : Tree α) : Cursor α := ⟨[], tree⟩

namespace Cursor

/-- Puts the nodes of the left spine of a tree on a stack, the root first. -/
def descend (stack : List (Pending α)) : Tree α → List (Pending α)
  | .nil => stack
  | .node left key value _ right => descend (⟨(key, value), right⟩ :: stack) left

/-- The next entry and the position behind it; at the end there is no entry. -/
def next (cursor : Cursor α) : Option (UInt64 × α) × Cursor α :=
  match descend cursor.stack cursor.current with
  | [] => (none, ⟨[], .nil⟩)
  | node :: stack => (some node.entry, ⟨stack, node.right⟩)

/-- The entries that the next `n` calls give. -/
def take : (n : Nat) → Cursor α → List (UInt64 × α)
  | 0, _ => []
  | n + 1, cursor =>
    match cursor.next with
    | (none, _) => []
    | (some entry, cursor) => entry :: take n cursor

end Cursor

end LinkState.Avl
