import LinkState.Avl.Tree

/-!
# Ordered maps over 64-bit keys

An AVL tree with a count of its entries. The link-state database and the shortest-path tree are such
maps.
-/

namespace LinkState.Avl

/-- An ordered map from 64-bit keys. -/
structure Map (α : Type u) where
  tree : Tree α
  size : Nat
deriving DecidableEq, Repr

namespace Map

variable {α : Type u}

/-- The map without entries. -/
def empty : Map α := ⟨.nil, 0⟩

instance : Inhabited (Map α) := ⟨empty⟩

/-- Puts a value under a key; a present value is replaced only on request. -/
def insert (map : Map α) (key : UInt64) (value : α) (overwrite : Bool) : Map α × Insertion :=
  let (tree, insertion) := map.tree.insert key value overwrite
  (⟨tree, if insertion = .inserted then map.size + 1 else map.size⟩, insertion)

/-- Puts a value under a key, replacing a present one. -/
def put (map : Map α) (key : UInt64) (value : α) : Map α := (map.insert key value true).1

/-- Removes a key and gives the value that was under it. -/
def erase (map : Map α) (key : UInt64) : Map α × Option α :=
  let (tree, removed) := map.tree.erase key
  (⟨tree, if removed.isSome then map.size - 1 else map.size⟩, removed)

/-- Changes the value under a key, if there is one. -/
def modify (map : Map α) (key : UInt64) (change : α → α) : Map α :=
  { map with tree := map.tree.modify key change }

/-- The value under a key. -/
def find? (map : Map α) (key : UInt64) : Option α := map.tree.find? key

/-- Whether there is a value under a key. -/
def contains (map : Map α) (key : UInt64) : Bool := (map.find? key).isSome

/-- The entries in key order. -/
def toList (map : Map α) : List (UInt64 × α) := map.tree.toList

/-- The keys in order. -/
def keys (map : Map α) : List UInt64 := map.toList.map (·.1)

/-- The values in key order. -/
def values (map : Map α) : List α := map.toList.map (·.2)

/-- Whether the map has no entries. -/
def isEmpty (map : Map α) : Bool := map.size = 0

/-- The height of the tree. -/
def height (map : Map α) : Nat := map.tree.height

/-- The map of a list of entries; of several values under one key the last one stays. -/
def ofList (entries : List (UInt64 × α)) : Map α :=
  entries.foldl (fun map entry => map.put entry.1 entry.2) empty

end Map

end LinkState.Avl
