import LinkState.Avl.Map
import LinkState.Link

/-!
# The link-state database

The database files LSPs under their keys. A received LSP is installed only if it is more recent than
what is there; an LSP of the router itself is stored without question. `Lsp.ofLinks` is the router's
own LSP for the present state of its links.
-/

namespace LinkState

/-- LSPs filed under their keys. -/
abbrev Database := Avl.Map Lsp

/-- What became of an LSP offered to the database. -/
inductive Installation where
  /-- No LSP with its ID was there. -/
  | new
  /-- It replaced an LSP with a smaller sequence number. -/
  | newer
  /-- The LSP that is there is at least as recent. -/
  | stale
deriving DecidableEq, Repr

namespace Database

/-- Stores an LSP, replacing one with the same ID. -/
def store (database : Database) (lsp : Lsp) : Database := database.put lsp.key lsp

/-- Stores a received LSP if it is more recent than the one with the same ID. -/
def install (database : Database) (lsp : Lsp) : Database × Installation :=
  match database.find? lsp.key with
  | none => (database.store lsp, .new)
  | some present =>
    if present.seqno < lsp.seqno then (database.store lsp, .newer) else (database, .stale)

/-- The LSP with a given ID. -/
def lsp? (database : Database) (id : LspId) : Option Lsp := database.find? id.key

/-- The octets of the LSP with a given ID. -/
def encode? (database : Database) (id : LspId) : Option Octets := (database.lsp? id).map Lsp.encode

/-- The IDs of all LSPs, in key order. -/
def ids (database : Database) : List LspId := database.values.map (·.id)

/-- The LSP that stands for a router in routing: its own first fragment. -/
def router? (database : Database) (systemId : SystemId) : Option Lsp :=
  database.lsp? (.ofSystem systemId)

end Database

/-- The LSP of a router with the given links. Neighbors come from the links whose adjacency is up,
addresses and prefixes from every link. -/
def Lsp.ofLinks (systemId : SystemId) (links : List Link) (seqno : UInt32) (lifetime : UInt16) :
    Lsp :=
  let neighbors := links.filterMap fun link =>
    link.adjacency.upNeighbor?.map fun neighbor => ⟨link.adjacency.metric, neighbor, 0⟩
  let addresses := links.filterMap fun link => link.config.address.map (·.address)
  let prefixes := links.flatMap fun link =>
    link.prefixes.map fun network => ⟨network, link.config.metric⟩
  Lsp.originate .lspL1 lifetime (.ofSystem systemId) seqno .isType1
    (Tlv.body neighbors addresses prefixes)

end LinkState
