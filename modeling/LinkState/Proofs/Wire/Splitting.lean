import LinkState.Database
import LinkState.Proofs.Wire.Codec

/-!
# What a router originates can be sent

Entries are split into groups that fit one record each (`length_le_of_mem_chunks`), so that the
records of a router's own LSP are canonical, however many links it has (`canonical_body`). The LSP
is then encodable as soon as its octets fit the length field (`encodable_ofLinks`). No entry is lost
in the groups (`flatten_chunks`), and who reads the entries of one kind passes over the records of
the others (`flatMap_records_eq_nil`), so that the LSP advertises the neighbor of every link that is
up (`neighbors_ofLinks`).
-/

namespace LinkState

/-- Every group has at most the size that was asked for. -/
theorem length_le_of_mem_chunks {α : Type u} {size : Nat} (hsize : 0 < size) {list chunk : List α}
    (h : chunk ∈ chunks size list) : chunk.length ≤ size := by
  induction list using chunks.induct size with
  | case1 =>
    rw [chunks] at h
    exact absurd h List.not_mem_nil
  | case2 first rest ih =>
    rw [chunks] at h
    rcases List.mem_cons.1 h with rfl | h
    · rw [List.length_cons, List.length_take]
      omega
    · exact ih h

/-- The groups put together are the list. -/
theorem flatten_chunks {α : Type u} (size : Nat) (list : List α) :
    (chunks size list).flatten = list := by
  induction list using chunks.induct size with
  | case1 => rw [chunks, List.flatten_nil]
  | case2 first rest ih =>
    rw [chunks, List.flatten_cons, ih, List.cons_append, List.take_append_drop]

namespace Tlv

/-- A row of entries is split into canonical records. -/
theorem canonical_of_mem_chunks {α : Type} (type : TlvType) (record : List α → Tlv)
    (hrecord : ∀ entries, entries.length ≤ type.capacity → (record entries).Canonical)
    {entries : List α} {tlv : Tlv} (h : tlv ∈ (chunks type.capacity entries).map record) :
    tlv.Canonical := by
  obtain ⟨chunk, hchunk, rfl⟩ := List.mem_map.1 h
  exact hrecord chunk (length_le_of_mem_chunks type.capacity_pos hchunk)

/-- The records of an originated LSP are canonical. -/
theorem canonical_body (neighbors : List Neighbor) (addresses : List Ipv4.Address)
    (prefixes : List Reach) : ∀ tlv ∈ body neighbors addresses prefixes, tlv.Canonical := by
  intro tlv h
  rcases List.mem_append.1 h with h | h
  · rcases List.mem_append.1 h with h | h
    · exact canonical_of_mem_chunks .neighbors (.neighbors 0) (fun _ h => h) h
    · exact canonical_of_mem_chunks .addresses .addresses (fun _ h => h) h
  · exact canonical_of_mem_chunks .prefixes .prefixes (fun _ h => h) h

/-- Records that have no entries of the kind that is read contribute none. -/
theorem flatMap_records_eq_nil {α β : Type} {record : List α → Tlv} {read : Tlv → List β}
    (h : ∀ row, read (record row) = []) (rows : List (List α)) :
    (rows.map record).flatMap read = [] := by
  rw [List.flatMap_eq_nil_iff]
  intro tlv htlv
  obtain ⟨row, -, rfl⟩ := List.mem_map.1 htlv
  exact h row

/-- Records of the kind that is read contribute their entries. -/
theorem flatMap_records {α : Type} {record : List α → Tlv} {read : Tlv → List α}
    (h : ∀ row, read (record row) = row) (rows : List (List α)) :
    (rows.map record).flatMap read = rows.flatten := by
  rw [List.flatMap_map, funext h, List.flatMap_id']

end Tlv

namespace Lsp

/-- The records of a router's own LSP are canonical. -/
theorem canonical_ofLinks {systemId : SystemId} {links : List Link} {seqno : UInt32}
    {lifetime : UInt16} : ∀ tlv ∈ (ofLinks systemId links seqno lifetime).tlvs, tlv.Canonical :=
  Tlv.canonical_body _ _ _

/-- A router's own LSP is encodable if its octets fit the length field. -/
theorem encodable_ofLinks {systemId : SystemId} {links : List Link} {seqno : UInt32}
    {lifetime : UInt16} (h : (ofLinks systemId links seqno lifetime).encode.length ≤ 65535) :
    (ofLinks systemId links seqno lifetime).Encodable :=
  ⟨rfl, canonical_ofLinks, length_encode canonical_ofLinks ▸ h⟩

/-- A router advertises the neighbors of its links that are up, in the order of the links. -/
theorem neighbors_ofLinks (systemId : SystemId) (links : List Link) (seqno : UInt32)
    (lifetime : UInt16) :
    (ofLinks systemId links seqno lifetime).neighbors = links.filterMap fun link =>
      link.adjacency.upNeighbor?.map fun neighbor => ⟨link.adjacency.metric, neighbor, 0⟩ := by
  unfold ofLinks originate Tlv.body Tlv.splitNeighbors Tlv.splitAddresses Tlv.splitPrefixes
    neighbors
  -- Of the records of a body only those of neighbors have any.
  rw [List.flatMap_append, List.flatMap_append, Tlv.flatMap_records fun _ => rfl,
    Tlv.flatMap_records_eq_nil fun _ => rfl, Tlv.flatMap_records_eq_nil fun _ => rfl,
    List.append_nil, List.append_nil, flatten_chunks]

end Lsp

end LinkState
