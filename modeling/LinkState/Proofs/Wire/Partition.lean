import Mathlib.Algebra.Order.Floor.Div
import LinkState.Proofs.Wire.Capacity

/-!
# Entries are split over records without loss

A row of entries that does not fit one record is split over several. All groups but the last are as
large as one record allows (`length_of_mem_dropLast_chunks`), none is empty
(`ne_nil_of_mem_chunks`), and put together they are the row. A group that fits one record is framed
soundly: its length octet is the size of its value (`Tlv.Canonical.framed`). The three types of
entries are split in the same way (`Tlv.splitOver_chunks`), so that a router's own LSP lists what
its links contribute, one link after the other and over as many records as that takes
(`Tlv.split_lossless`).
-/

namespace LinkState

/-! ### Groups -/

/-- No group is empty. -/
theorem ne_nil_of_mem_chunks {α : Type u} {size : Nat} {list chunk : List α}
    (h : chunk ∈ chunks size list) : chunk ≠ [] := by
  induction list using chunks.induct size with
  | case1 =>
    rw [chunks] at h
    exact absurd h List.not_mem_nil
  | case2 first rest ih =>
    rw [chunks] at h
    rcases List.mem_cons.1 h with rfl | h
    · exact List.cons_ne_nil _ _
    · exact ih h

/-- All groups but the last have the size that was asked for. -/
theorem length_of_mem_dropLast_chunks {α : Type u} {size : Nat} (hsize : 0 < size)
    {list chunk : List α} (h : chunk ∈ (chunks size list).dropLast) : chunk.length = size := by
  induction list using chunks.induct size with
  | case1 =>
    rw [chunks] at h
    exact absurd h List.not_mem_nil
  | case2 first rest ih =>
    rw [chunks] at h
    by_cases hlast : rest.drop (size - 1) = []
    · rw [hlast, chunks] at h
      exact absurd h List.not_mem_nil
    · -- Another group follows, so that the first one has taken all it could.
      have hnext : chunks size (rest.drop (size - 1)) ≠ [] := by
        intro hnil
        have hflatten := flatten_chunks size (rest.drop (size - 1))
        rw [hnil] at hflatten
        exact hlast hflatten.symm
      rw [List.dropLast_cons_of_ne_nil hnext] at h
      rcases List.mem_cons.1 h with rfl | h
      · have hlong : size - 1 < rest.length := by
          rw [List.drop_eq_nil_iff] at hlast
          omega
        rw [List.length_cons, List.length_take_of_le (Nat.le_of_lt hlong)]
        omega
      · exact ih h

namespace Tlv

/-! ### Records -/

/-- A record is written with its type, the size of its value and its value, and it announces the
size that it has. -/
structure Framed (tlv : Tlv) : Prop where
  exists_length : ∃ length : UInt8, tlv.encode = tlv.code :: length :: tlv.value ∧
    length.toNat = tlv.value.length
  size_eq : tlv.size = tlv.encode.length
  length_le : tlv.encode.length ≤ 2 + 255

/-- A canonical record is framed soundly. -/
theorem Canonical.framed {tlv : Tlv} (h : tlv.Canonical) : tlv.Framed := by
  obtain ⟨length, hlength, hencode, -, -⟩ := h.encode_eq
  refine ⟨⟨length, hencode, hlength⟩, (length_encode h).symm, ?_⟩
  have hlt := length.toNat_lt
  rw [hencode, List.length_cons, List.length_cons, ← hlength]
  omega

/-- Entries are split over records: there are as few of them as can hold the entries when each holds
at most the given number, all but the last are full and none is empty, and one after the other they
hold the entries in their order. Each record is framed soundly. -/
structure SplitOver {α : Type} (record : List α → Tlv) (most : Nat) (entries : List α)
    (records : List Tlv) : Prop where
  length_eq : records.length = entries.length ⌈/⌉ most
  exists_rows : ∃ rows : List (List α), records = rows.map record ∧ rows.flatten = entries ∧
    (∀ row ∈ rows, row ≠ []) ∧ ∀ row ∈ rows.dropLast, row.length = most
  framed : ∀ tlv ∈ records, tlv.Framed

/-- Entries of a type are split over records of that type. -/
theorem splitOver_chunks {α : Type} (type : TlvType) (record : List α → Tlv)
    (hrecord : ∀ row, row.length ≤ type.capacity → (record row).Canonical) (entries : List α) :
    SplitOver record type.capacity entries ((chunks type.capacity entries).map record) where
  length_eq := by
    rw [List.length_map, length_chunks type.capacity_pos, Nat.ceilDiv_eq_add_pred_div]
  exists_rows := ⟨chunks type.capacity entries, rfl, flatten_chunks _ _,
    fun _ hrow => ne_nil_of_mem_chunks hrow,
    fun _ hrow => length_of_mem_dropLast_chunks type.capacity_pos hrow⟩
  framed _ htlv := (canonical_of_mem_chunks type record hrecord htlv).framed

end Tlv

namespace Lsp

/-! ### The router's own LSP -/

/-- The addresses that an LSP advertises, over all of its TLVs. -/
def addresses (lsp : Lsp) : List Ipv4.Address :=
  lsp.tlvs.flatMap fun
    | .addresses entries => entries
    | _ => []

/-- A router advertises the prefixes of its links, each with the metric of its link, in the order of
the links. -/
theorem prefixes_ofLinks (systemId : SystemId) (links : List Link) (seqno : UInt32)
    (lifetime : UInt16) :
    (ofLinks systemId links seqno lifetime).prefixes = links.flatMap fun link =>
      link.prefixes.map fun network => ⟨network, link.config.metric⟩ := by
  unfold ofLinks originate Tlv.body Tlv.splitNeighbors Tlv.splitAddresses Tlv.splitPrefixes
    prefixes
  rw [List.flatMap_append, List.flatMap_append, Tlv.flatMap_records_eq_nil fun _ => rfl,
    Tlv.flatMap_records_eq_nil fun _ => rfl, Tlv.flatMap_records fun _ => rfl, flatten_chunks]
  rfl

/-- A router advertises the addresses of its links, in the order of the links. -/
theorem addresses_ofLinks (systemId : SystemId) (links : List Link) (seqno : UInt32)
    (lifetime : UInt16) :
    (ofLinks systemId links seqno lifetime).addresses =
      links.filterMap fun link => link.config.address.map (·.address) := by
  unfold ofLinks originate Tlv.body Tlv.splitNeighbors Tlv.splitAddresses Tlv.splitPrefixes
    addresses
  rw [List.flatMap_append, List.flatMap_append, Tlv.flatMap_records_eq_nil fun _ => rfl,
    Tlv.flatMap_records fun _ => rfl, Tlv.flatMap_records_eq_nil fun _ => rfl, flatten_chunks]
  exact List.append_nil _

end Lsp

/-- Entries of all three types are split over records without loss. So a router's own LSP
advertises, over all of its records, the neighbors of its links that are up, the prefixes of its
links with their metrics, and the addresses of its links, in the order of the links. -/
theorem Tlv.split_lossless :
    (∀ entries, SplitOver (.neighbors 0) 23 entries (splitNeighbors entries)) ∧
      (∀ entries, SplitOver .prefixes 21 entries (splitPrefixes entries)) ∧
      (∀ entries, SplitOver .addresses 63 entries (splitAddresses entries)) ∧
      ∀ systemId links seqno lifetime,
        let lsp := Lsp.ofLinks systemId links seqno lifetime
        (lsp.neighbors = links.filterMap fun link => link.adjacency.upNeighbor?.map fun neighbor =>
            ⟨link.adjacency.metric, neighbor, 0⟩) ∧
          (lsp.prefixes = links.flatMap fun link =>
            link.prefixes.map fun network => ⟨network, link.config.metric⟩) ∧
          lsp.addresses = links.filterMap fun link => link.config.address.map (·.address) := by
  refine ⟨fun entries => ?_, fun entries => ?_, fun entries => ?_, ?_⟩
  · exact splitOver_chunks .neighbors (.neighbors 0) (fun _ h => h) entries
  · exact splitOver_chunks .prefixes .prefixes (fun _ h => h) entries
  · exact splitOver_chunks .addresses .addresses (fun _ h => h) entries
  · intro systemId links seqno lifetime
    exact ⟨Lsp.neighbors_ofLinks .., Lsp.prefixes_ofLinks .., Lsp.addresses_ofLinks ..⟩

end LinkState
