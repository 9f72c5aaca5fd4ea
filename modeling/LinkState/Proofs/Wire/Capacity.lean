import LinkState.Proofs.Wire.Relay
import LinkState.Proofs.Wire.Splitting

/-!
# How much one LSP can carry

Entries are split over as many records as they need (`length_chunks`), so that the size of a
router's own LSP follows from the numbers of its neighbors, addresses and prefixes (`size_ofLinks`).
No length octet of a record wraps around, but the length field of the LSP does if the size is beyond
it: the LSP is then read as another one, or not at all (`decode_ofLinks_iff`,
`decode_encode_of_wrapped`).
-/

namespace LinkState

open Octets

/-- As many groups as the elements need. -/
theorem length_chunks {α : Type u} {size : Nat} (hsize : 0 < size) (list : List α) :
    (chunks size list).length = (list.length + size - 1) / size := by
  induction list using chunks.induct size with
  | case1 =>
    rw [chunks, List.length_nil, Nat.div_eq_of_lt (by rw [List.length_nil]; omega)]
  | case2 first rest ih =>
    have hsucc : ((first :: rest).length + size - 1) / size = rest.length / size + 1 := by
      rw [List.length_cons, Nat.add_right_comm, Nat.add_sub_cancel, Nat.add_div_right _ hsize]
    rw [chunks, List.length_cons, ih, List.length_drop, hsucc]
    -- The last group may be smaller than the others.
    by_cases hlast : rest.length < size - 1
    · rw [Nat.div_eq_of_lt (by omega), Nat.div_eq_of_lt (by omega)]
    · congr 2
      omega

namespace Tlv

/-- The octets of the records that a number of entries of a type take. -/
def splitSize (type : TlvType) (count : Nat) : Nat :=
  (count + type.capacity - 1) / type.capacity * (2 + type.fixedSize) + count * type.entrySize

/-- The records of a row of entries have the size that their number takes. -/
theorem sum_size_chunks {α : Type u} {type : TlvType} {record : List α → Tlv}
    (hrecord : ∀ entries, (record entries).size =
      2 + type.fixedSize + entries.length * type.entrySize) (entries : List α) :
    (((chunks type.capacity entries).map record).map size).sum = splitSize type entries.length := by
  have hsum (groups : List (List α)) : ((groups.map record).map size).sum =
      groups.length * (2 + type.fixedSize) + groups.flatten.length * type.entrySize := by
    induction groups with
    | nil => simp
    | cons group groups ih =>
      simp only [List.map_cons, List.sum_cons, List.flatten_cons, List.length_cons,
        List.length_append, Nat.add_mul, ih, hrecord]
      omega
  rw [hsum, flatten_chunks, length_chunks type.capacity_pos, splitSize]

/-- The records of an originated LSP have the size that the numbers of their entries take. -/
theorem sum_size_body (neighbors : List Neighbor) (addresses : List Ipv4.Address)
    (prefixes : List Reach) :
    ((body neighbors addresses prefixes).map size).sum =
      splitSize .neighbors neighbors.length + splitSize .addresses addresses.length +
        splitSize .prefixes prefixes.length := by
  unfold body splitNeighbors splitAddresses splitPrefixes
  rw [List.map_append, List.map_append, List.sum_append, List.sum_append,
    sum_size_chunks fun _ => rfl, sum_size_chunks fun _ => rfl, sum_size_chunks fun _ => rfl]

end Tlv

namespace Lsp

/-- The size of the LSP of a router with the given links. -/
def sizeOfLinks (links : List Link) : Nat :=
  fixedSize +
    (Tlv.splitSize .neighbors (links.filterMap fun link => link.adjacency.upNeighbor?).length +
      Tlv.splitSize .addresses (links.filterMap fun link => link.config.address).length +
      Tlv.splitSize .prefixes (links.flatMap Link.prefixes).length)

/-- The size of a router's own LSP follows from the numbers of its entries. -/
theorem size_ofLinks (systemId : SystemId) (links : List Link) (seqno : UInt32)
    (lifetime : UInt16) :
    (ofLinks systemId links seqno lifetime).size = sizeOfLinks links := by
  unfold sizeOfLinks
  change fixedSize + ((Tlv.body _ _ _).map Tlv.size).sum = _
  -- An entry counts for one whatever it says.
  rw [Tlv.sum_size_body]
  simp only [List.length_filterMap_eq_countP, Option.isSome_map, List.length_flatMap,
    List.length_map]

/-- If the size of an LSP wraps around to less than the fixed part, then the LSP is refused by
everyone who receives it. -/
theorem decode_encode_of_wrapped {lsp : Lsp} (hisLsp : lsp.header.type.isLsp)
    (hcanonical : ∀ tlv ∈ lsp.tlvs, tlv.Canonical) (h : lsp.size % 65536 < fixedSize) :
    decode lsp.encode 0 = .error (.invalidPduLength (UInt16.ofNat lsp.size)) := by
  have hfield : (UInt16.ofNat lsp.size).toNat < fixedSize := by
    rw [UInt16.toNat_ofNat']
    exact h
  unfold decode read
  rw [List.drop_zero, encode_eq_fields hcanonical, Header.decode_encode]
  change (·.lsp) <$> (if lsp.header.type.isLsp then readBody lsp.header _ else _) = _
  rw [if_pos hisLsp, readBody_fields, if_pos hfield]
  rfl

/-- A router's own LSP is read back from its octets if and only if its size fits the length field.
-/
theorem decode_ofLinks_iff (systemId : SystemId) (links : List Link) (seqno : UInt32)
    (lifetime : UInt16) :
    decode (ofLinks systemId links seqno lifetime).encode 0 =
        .ok (ofLinks systemId links seqno lifetime) ↔ sizeOfLinks links ≤ 65535 := by
  rw [← size_ofLinks systemId links seqno lifetime]
  constructor
  · exact fun h => (encodable_of_decode h).size_le
  · intro h
    have hlength : (ofLinks systemId links seqno lifetime).encode.length ≤ 65535 := by
      rw [length_encode canonical_ofLinks]
      exact h
    have hencodable := encodable_ofLinks hlength
    rw [decode, hencodable.read_self]
    rfl

/-! ### A router with too many prefixes -/

/-- A link with as many prefixes as one record holds. -/
def crowdedLink : Link :=
  .ofConfig ⟨"e", 10, none, (List.range 21).map fun i => ⟨⟨UInt32.ofNat (0x0a000000 + 256 * i)⟩,
    ⟨24, by decide⟩⟩⟩

/-- Two hundred and fifty-eight such links. -/
def crowded : List Link := List.replicate 258 crowdedLink

/-- The LSP of the crowded router. -/
def crowdedLsp : Lsp := ofLinks ⟨0x22, 0x22, 0x22, 0x22, 0x22, 0x22⟩ crowded 1 1200

/-- The LSP of the crowded router has 65559 octets, of which the length field has lost all but
23. -/
theorem decode_crowdedLsp : sizeOfLinks crowded = 65559 ∧
    decode crowdedLsp.encode 0 = .error (.invalidPduLength 23) := by
  have hsize : sizeOfLinks crowded = 65559 := by
    have hprefixes : crowdedLink.prefixes.length = 21 := by decide +kernel
    have hneighbors : crowdedLink.adjacency.upNeighbor? = none := rfl
    have haddresses : crowdedLink.config.address = none := rfl
    unfold sizeOfLinks crowded
    simp only [List.length_filterMap_eq_countP, List.length_flatMap, List.map_replicate,
      List.sum_replicate_nat, List.countP_replicate, hprefixes, hneighbors, haddresses]
    rfl
  have hwrapped : crowdedLsp.size = 65559 := (size_ofLinks _ _ _ _).trans hsize
  have hcanonical : ∀ tlv ∈ crowdedLsp.tlvs, tlv.Canonical := canonical_ofLinks
  refine ⟨hsize, ?_⟩
  rw [decode_encode_of_wrapped rfl hcanonical (hwrapped ▸ by decide), hwrapped]
  rfl

end Lsp

end LinkState
