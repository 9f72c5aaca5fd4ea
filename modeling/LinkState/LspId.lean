import LinkState.SystemId

/-!
# LSP IDs

An LSP is named by its router's system ID, a pseudonode octet and a fragment octet. The eight octets
read as one number are the key under which the link-state database files the LSP; `LspId.ofKey`
turns a key back into its LSP ID.
-/

namespace LinkState

/-- The identifier of an LSP. -/
structure LspId where
  systemId : SystemId
  pseudonode : UInt8
  fragment : UInt8
deriving DecidableEq, Repr, Inhabited

namespace LspId

/-- The LSP ID of a router's own first fragment. -/
def ofSystem (systemId : SystemId) : LspId := ⟨systemId, 0, 0⟩

/-- The eight octets, in order. -/
def toOctets (id : LspId) : Octets := id.systemId.toOctets ++ [id.pseudonode, id.fragment]

/-- The LSP ID of eight octets. -/
def ofOctets? : Octets → Option LspId
  | [a, b, c, d, e, f, pseudonode, fragment] => some ⟨⟨a, b, c, d, e, f⟩, pseudonode, fragment⟩
  | _ => none

/-- The octets read as one 64-bit number: the key of the LSP in the database. -/
def key (id : LspId) : UInt64 := UInt64.ofNat (Octets.toNat id.toOctets)

/-- The LSP ID with a given key. -/
def ofKey (key : UInt64) : LspId :=
  let octet (place : Nat) : UInt8 := UInt8.ofNat (key.toNat / Octets.count place)
  ⟨⟨octet 7, octet 6, octet 5, octet 4, octet 3, octet 2⟩, octet 1, octet 0⟩

/-- LSP IDs are ordered by system ID, then pseudonode, then fragment. -/
instance : LT LspId := ⟨fun a b =>
  a.systemId < b.systemId ∨ a.systemId = b.systemId ∧
    (a.pseudonode < b.pseudonode ∨ a.pseudonode = b.pseudonode ∧ a.fragment < b.fragment)⟩

instance (a b : LspId) : Decidable (a < b) :=
  inferInstanceAs (Decidable (a.systemId < b.systemId ∨ a.systemId = b.systemId ∧
    (a.pseudonode < b.pseudonode ∨ a.pseudonode = b.pseudonode ∧ a.fragment < b.fragment)))

/-- The text of an LSP ID: the system ID, a dot, the pseudonode, a dash and the fragment. -/
def text (id : LspId) : String :=
  String.ofList (id.systemId.toChars ++
    '.' :: (Hex.ofOctet id.pseudonode ++ '-' :: Hex.ofOctet id.fragment))

end LspId

end LinkState
