import LinkState.SystemId
import LinkState.Ip.V4

/-!
# TLVs

The body of an LSP is a sequence of records, each a type octet, a length octet and a value. Three
types are understood: neighbors, IPv4 prefixes and interface addresses. A value of these types is a
row of entries of one size (after one reserved octet for neighbors); a record of another type, or
whose value has not the layout of its type, is kept verbatim as `Tlv.unknown`.
-/

namespace LinkState

/-- A neighbor that an LSP advertises, with the metric of the way to it. -/
structure Neighbor where
  metric : UInt32
  systemId : SystemId
  pseudonode : UInt8
deriving DecidableEq, Repr

/-- A prefix that an LSP advertises, with the metric of the way to it. -/
structure Reach where
  network : Ipv4.Network
  metric : UInt32
deriving DecidableEq, Repr

/-- The record types that are understood. -/
inductive TlvType where
  | neighbors
  | prefixes
  | addresses
deriving DecidableEq, Repr

namespace TlvType

/-- The type octet. -/
def code : TlvType → UInt8
  | neighbors => 2
  | prefixes => 128
  | addresses => 132

/-- The type with a given octet. -/
def ofCode? (code : UInt8) : Option TlvType :=
  [neighbors, prefixes, addresses].find? fun type => type.code = code

/-- The octets of a value in front of its entries. -/
def fixedSize : TlvType → Nat
  | neighbors => 1
  | prefixes => 0
  | addresses => 0

/-- The octets of an entry. -/
def entrySize : TlvType → Nat
  | neighbors => 11
  | prefixes => 12
  | addresses => 4

/-- The entries that one record holds, since its length octet counts up to 255. -/
def capacity (type : TlvType) : Nat := (255 - type.fixedSize) / type.entrySize

theorem entrySize_pos (type : TlvType) : 0 < type.entrySize := by cases type <;> decide

theorem capacity_pos (type : TlvType) : 0 < type.capacity := by cases type <;> decide

end TlvType

/-- A record of an LSP. -/
inductive Tlv where
  | neighbors (reserved : UInt8) (entries : List Neighbor)
  | prefixes (entries : List Reach)
  | addresses (entries : List Ipv4.Address)
  /-- A record kept verbatim. -/
  | unknown (type : UInt8) (length : UInt8) (value : Octets)
deriving DecidableEq, Repr

/-! ### Entries -/

/-- Metric, system ID and pseudonode. -/
def Neighbor.encode (entry : Neighbor) : Octets :=
  Octets.ofWord32 entry.metric ++ entry.systemId.toOctets ++ [entry.pseudonode]

/-- A row of neighbors and nothing after it. -/
def Neighbor.decodeRow? : Octets → Option (List Neighbor)
  | [] => some []
  | m0 :: m1 :: m2 :: m3 :: s0 :: s1 :: s2 :: s3 :: s4 :: s5 :: pseudonode :: rest => do
    let entry : Neighbor := ⟨Octets.word32 m0 m1 m2 m3, ⟨s0, s1, s2, s3, s4, s5⟩, pseudonode⟩
    return entry :: (← Neighbor.decodeRow? rest)
  | _ => none

/-- Address, mask and metric. -/
def Reach.encode (entry : Reach) : Octets :=
  entry.network.address.toOctets ++ entry.network.mask.toOctets ++ Octets.ofWord32 entry.metric

/-- A row of prefixes and nothing after it; every mask has to be contiguous. -/
def Reach.decodeRow? : Octets → Option (List Reach)
  | [] => some []
  | a0 :: a1 :: a2 :: a3 :: k0 :: k1 :: k2 :: k3 :: m0 :: m1 :: m2 :: m3 :: rest => do
    let network ← Ipv4.Network.ofMask? (.ofOctets a0 a1 a2 a3) (.ofOctets k0 k1 k2 k3)
    return ⟨network, Octets.word32 m0 m1 m2 m3⟩ :: (← Reach.decodeRow? rest)
  | _ => none

/-- A row of addresses and nothing after it. -/
def Ipv4.Address.decodeRow? : Octets → Option (List Ipv4.Address)
  | [] => some []
  | a :: b :: c :: d :: rest => do return .ofOctets a b c d :: (← Ipv4.Address.decodeRow? rest)
  | _ => none

/-! ### Records -/

namespace Tlv

/-- The type octet of a record. -/
def code : Tlv → UInt8
  | neighbors .. => TlvType.neighbors.code
  | prefixes .. => TlvType.prefixes.code
  | addresses .. => TlvType.addresses.code
  | unknown type .. => type

/-- The size that a record announces, its two header octets included. -/
def size : Tlv → Nat
  | neighbors _ entries => 2 + 1 + entries.length * TlvType.neighbors.entrySize
  | prefixes entries => 2 + entries.length * TlvType.prefixes.entrySize
  | addresses entries => 2 + entries.length * TlvType.addresses.entrySize
  | unknown _ length _ => 2 + length.toNat

/-- A record without a value. -/
def isEmpty (tlv : Tlv) : Bool := tlv.size = 2

/-- The number of entries of a record that is understood. -/
def entryCount : Tlv → Nat
  | neighbors _ entries => entries.length
  | prefixes entries => entries.length
  | addresses entries => entries.length
  | unknown .. => 0

/-- A value with its type octet and its size, modulo 256, in front. -/
def encodeValue (code : UInt8) (value : Octets) : Octets :=
  code :: UInt8.ofNat value.length :: value

/-- The octets of a record. The length octet of a verbatim record is written as it stands. -/
def encode : Tlv → Octets
  | neighbors reserved entries =>
    encodeValue TlvType.neighbors.code (reserved :: entries.flatMap Neighbor.encode)
  | prefixes entries => encodeValue TlvType.prefixes.code (entries.flatMap Reach.encode)
  | addresses entries =>
    encodeValue TlvType.addresses.code (entries.flatMap Ipv4.Address.toOctets)
  | unknown type length value => type :: length :: value

/-- The record of a type and a value with the layout of that type. -/
def ofValue? : TlvType → Octets → Option Tlv
  | .neighbors, [] => none
  | .neighbors, reserved :: row => (Neighbor.decodeRow? row).map (neighbors reserved)
  | .prefixes, row => (Reach.decodeRow? row).map prefixes
  | .addresses, row => (Ipv4.Address.decodeRow? row).map addresses

/-- The record with the given type octet, length octet and value. -/
def ofRecord (type length : UInt8) (value : Octets) : Tlv :=
  (TlvType.ofCode? type >>= (ofValue? · value)).getD (unknown type length value)

/-- A record whose length reaches past the end of the body. -/
structure Truncation where
  type : UInt8
  length : UInt8
  /-- The octets that are left after the record's header. -/
  remaining : Nat
deriving DecidableEq, Repr

/-- What reading a body yields. -/
structure Scan where
  tlvs : List Tlv
  /-- The octets left over: none, or a lone last one. -/
  rest : Octets
  /-- The record that ended the reading early. -/
  truncation : Option Truncation
deriving DecidableEq, Repr

/-- Reads whole records until fewer than two octets are left. A record that reaches past the end
takes all that is left and ends the reading. -/
def decodeAll : Octets → Scan
  | type :: length :: rest =>
    -- Only a record that reaches past the end stops the scan.
    if length.toNat ≤ rest.length then
      let scan := decodeAll (rest.drop length.toNat)
      { scan with tlvs := ofRecord type length (rest.take length.toNat) :: scan.tlvs }
    else ⟨[], [], some ⟨type, length, rest.length⟩⟩
  | rest => ⟨[], rest, none⟩
termination_by octets => octets.length
decreasing_by simp only [List.length_drop, List.length_cons]; omega

end Tlv

/-! ### Splitting entries over records -/

/-- Consecutive groups of `size` elements (at least one); only the last may be shorter. -/
def chunks {α : Type u} (size : Nat) : List α → List (List α)
  | [] => []
  | a :: rest => (a :: rest.take (size - 1)) :: chunks size (rest.drop (size - 1))
termination_by list => list.length
decreasing_by simp only [List.length_drop, List.length_cons]; omega

namespace Tlv

/-- As many neighbor records as the entries need. -/
def splitNeighbors (entries : List Neighbor) : List Tlv :=
  (chunks TlvType.neighbors.capacity entries).map (neighbors 0)

/-- As many prefix records as the entries need. -/
def splitPrefixes (entries : List Reach) : List Tlv :=
  (chunks TlvType.prefixes.capacity entries).map prefixes

/-- As many address records as the entries need. -/
def splitAddresses (entries : List Ipv4.Address) : List Tlv :=
  (chunks TlvType.addresses.capacity entries).map addresses

/-- The body of an originated LSP: neighbors first, then addresses, then prefixes. -/
def body (neighbors : List Neighbor) (addresses : List Ipv4.Address) (prefixes : List Reach) :
    List Tlv :=
  splitNeighbors neighbors ++ splitAddresses addresses ++ splitPrefixes prefixes

end Tlv

end LinkState
