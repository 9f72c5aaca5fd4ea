import LinkState.Proofs.Wire.Relay

/-!
# A record is understood if its value has the layout of its type

The entries of a row stand one after the other, so a row is one of entries if and only if it is cut
into pieces of the size of an entry and each piece is what some entry writes
(`RowReader.exists_row_iff`). So the layout of a type is a condition on the length of a value and,
for prefixes, on each of its masks (`hasLayout_neighbors_iff`, `hasLayout_prefixes_iff`,
`hasLayout_addresses_iff`). A record is read as one of a type exactly if it has the octet and the
layout of that type (`type?_ofRecord`); one bad mask is enough to keep it verbatim. A body is read
record by record until a record reaches past the end or fewer than two octets are left, and what was
read before stays (`decodeAll_reads_records`).
-/

namespace LinkState

open Octets

/-! ### Rows cut into entries -/

/-- The piece of a row that its entry at an index takes. -/
def TlvType.piece (type : TlvType) (row : Octets) (i : Nat) : Octets :=
  (row.drop (i * type.entrySize)).take type.entrySize

/-- What follows the first entry of a row has its pieces one index earlier. -/
theorem TlvType.piece_succ (type : TlvType) (row : Octets) (i : Nat) :
    type.piece row (i + 1) = type.piece (row.drop type.entrySize) i := by
  rw [piece, piece, List.drop_drop, Nat.succ_mul, Nat.add_comm]

namespace RowReader

variable {type : TlvType} {α : Type u} {encode : α → Octets}
  {decodeRow? : Octets → Option (List α)}

/-- A row is one of so many entries if and only if it has their size and each of its pieces is an
entry. -/
theorem exists_length_iff (h : RowReader type encode decodeRow?) {row : Octets} {count : Nat} :
    (∃ entries : List α, entries.length = count ∧ row = entries.flatMap encode) ↔
      row.length = count * type.entrySize ∧
        ∀ i < count, ∃ entry, encode entry = type.piece row i := by
  induction count generalizing row with
  | zero =>
    rw [Nat.zero_mul, List.length_eq_zero_iff]
    constructor
    · rintro ⟨entries, hcount, rfl⟩
      rw [List.length_eq_zero_iff.1 hcount]
      exact ⟨rfl, fun _ hi => absurd hi (Nat.not_lt_zero _)⟩
    · rintro ⟨rfl, -⟩
      exact ⟨[], rfl, rfl⟩
  | succ count ih =>
    -- The first piece is the first entry, and the pieces after it are those of the rest.
    simp only [Nat.forall_lt_succ_left, type.piece_succ]
    constructor
    · rintro ⟨entries, hcount, rfl⟩
      obtain ⟨entry, others, rfl⟩ := List.exists_cons_of_length_eq_add_one hcount
      have hrest := ih.1 ⟨others, Nat.succ.inj hcount, rfl⟩
      refine ⟨(h.length_row _).trans (hcount ▸ rfl), ⟨entry, ?_⟩, ?_⟩
      · rw [TlvType.piece, Nat.zero_mul, List.drop_zero, List.flatMap_cons,
          ← h.length_encode entry, List.take_left]
      · rw [List.flatMap_cons, ← h.length_encode entry, List.drop_left]
        exact hrest.2
    · rintro ⟨hlength, ⟨entry, hentry⟩, hpieces⟩
      rw [TlvType.piece, Nat.zero_mul, List.drop_zero] at hentry
      have hrest : (row.drop type.entrySize).length = count * type.entrySize := by
        rw [List.length_drop, hlength, Nat.succ_mul, Nat.add_sub_cancel]
      obtain ⟨others, hothers, hrow⟩ := ih.2 ⟨hrest, hpieces⟩
      refine ⟨entry :: others, congrArg (· + 1) hothers, ?_⟩
      rw [List.flatMap_cons, ← hrow, hentry, List.take_append_drop]

/-- A row is one of entries if and only if the size of an entry divides its length and each of its
pieces is an entry. -/
theorem exists_row_iff (h : RowReader type encode decodeRow?) {row : Octets} :
    (∃ entries : List α, row = entries.flatMap encode) ↔ type.entrySize ∣ row.length ∧
      ∀ i < row.length / type.entrySize, ∃ entry, encode entry = type.piece row i := by
  constructor
  · rintro ⟨entries, hrow⟩
    obtain ⟨hlength, hpieces⟩ := h.exists_length_iff.1 ⟨entries, rfl, hrow⟩
    rw [hlength, Nat.mul_div_cancel _ type.entrySize_pos]
    exact ⟨Nat.dvd_mul_left _ _, hpieces⟩
  · rintro ⟨hdvd, hpieces⟩
    obtain ⟨entries, -, hrow⟩ := h.exists_length_iff.2 ⟨(Nat.div_mul_cancel hdvd).symm, hpieces⟩
    exact ⟨entries, hrow⟩

end RowReader

/-- A piece inside a row has the size of an entry. -/
theorem TlvType.length_piece {type : TlvType} {row : Octets} {i : Nat}
    (h : i < row.length / type.entrySize) : (type.piece row i).length = type.entrySize := by
  have hend : (i + 1) * type.entrySize ≤ row.length :=
    Nat.le_trans (Nat.mul_le_mul_right _ h) (Nat.div_mul_le_self _ _)
  rw [Nat.succ_mul] at hend
  rw [piece, List.length_take_of_le]
  rw [List.length_drop]
  omega

/-! ### Layouts -/

/-- The mask of the entry at an index of a row of prefixes: of its twelve octets, the four after the
address. -/
def Reach.maskAt (row : Octets) (i : Nat) : UInt32 :=
  UInt32.ofNat (toNat ((row.drop (12 * i + 4)).take 4))

namespace TlvType

variable {value : Octets}

/-- A value is one of neighbors if and only if whole neighbors follow its first octet. -/
theorem hasLayout_neighbors_iff :
    neighbors.HasLayout value ↔ 1 ≤ value.length ∧ 11 ∣ value.length - 1 := by
  cases value with
  | nil => simp [HasLayout]
  | cons reserved row =>
    have hrow : neighbors.HasLayout (reserved :: row) ↔
        ∃ entries : List Neighbor, row = entries.flatMap Neighbor.encode := by
      simp [HasLayout]
    rw [hrow, Neighbor.rowReader.exists_row_iff, List.length_cons, Nat.add_sub_cancel]
    have hpieces : ∀ i < row.length / neighbors.entrySize,
        ∃ entry, Neighbor.encode entry = neighbors.piece row i :=
      fun i hi => Neighbor.exists_encode (length_piece hi)
    exact ⟨fun h => ⟨Nat.le_add_left 1 _, h.1⟩, fun h => ⟨h.2, hpieces⟩⟩

/-- A value is one of prefixes if and only if it consists of whole prefixes and all of their masks
are contiguous. -/
theorem hasLayout_prefixes_iff :
    prefixes.HasLayout value ↔ 12 ∣ value.length ∧
      ∀ i < value.length / 12, Ipv4.Contiguous (Reach.maskAt value i) := by
  -- The mask of an entry does not reach past the piece of the entry.
  have hpiece (i : Nat) : ((prefixes.piece value i).drop 4).take 4 =
      (value.drop (12 * i + 4)).take 4 := by
    rw [piece, List.drop_take, List.take_take, List.drop_drop, Nat.mul_comm]
    rfl
  have hmask (i : Nat) (hi : i < value.length / prefixes.entrySize) :
      (∃ entry, Reach.encode entry = prefixes.piece value i) ↔
        Ipv4.Contiguous (Reach.maskAt value i) := by
    rw [Reach.exists_encode_iff (length_piece hi), hpiece, Reach.maskAt]
  exact Reach.rowReader.exists_row_iff.trans (and_congr_right fun _ => forall₂_congr hmask)

/-- A value is one of addresses if and only if it consists of whole addresses. -/
theorem hasLayout_addresses_iff : addresses.HasLayout value ↔ 4 ∣ value.length := by
  have hpieces : ∀ i < value.length / addresses.entrySize,
      ∃ address, Ipv4.Address.toOctets address = addresses.piece value i :=
    fun i hi => Ipv4.Address.exists_toOctets (length_piece hi)
  exact Ipv4.Address.rowReader.exists_row_iff.trans (and_iff_left hpieces)

end TlvType

/-! ### The type that a record is read as -/

namespace Tlv

/-- A record is read as one of a type if and only if it has the octet and the layout of the type. -/
theorem type?_ofRecord {code length : UInt8} {value : Octets} {type : TlvType} :
    (ofRecord code length value).type? = some type ↔ type.code = code ∧ type.HasLayout value := by
  constructor
  · intro h
    unfold ofRecord at h
    cases hread : TlvType.ofCode? code >>= (ofValue? · value) with
    | none =>
      rw [hread] at h
      cases h
    | some tlv =>
      rw [hread, Option.getD_some] at h
      obtain ⟨found, hfound, htlv⟩ := Option.bind_eq_some_iff.1 hread
      -- The type that was found for the octet is the one that the record is understood as.
      have hsame : found = type := by
        rw [(ofValue?_eq_some_iff.1 htlv).1] at h
        exact Option.some.inj h
      subst hsame
      exact ⟨TlvType.ofCode?_eq_some_iff.1 hfound,
        isSome_ofValue?_iff.1 (Option.isSome_of_eq_some htlv)⟩
  · rintro ⟨rfl, hlayout⟩
    obtain ⟨tlv, htlv⟩ := Option.isSome_iff_exists.1 (isSome_ofValue?_iff.2 hlayout)
    rw [ofRecord_code htlv]
    exact (ofValue?_eq_some_iff.1 htlv).1

/-- A record that is read as none of the types is kept as it stands. -/
theorem ofRecord_of_type?_eq_none {code length : UInt8} {value : Octets}
    (h : (ofRecord code length value).type? = none) :
    ofRecord code length value = unknown code length value := by
  apply ofRecord_eq_unknown
  intro type hcode hlayout
  rw [type?_ofRecord.2 ⟨hcode, hlayout⟩] at h
  cases h

end Tlv

/-! ### Bodies record by record -/

/-- A record as it stands in a body: its type octet, its length octet and its value. -/
structure RawRecord where
  code : UInt8
  length : UInt8
  /-- As many octets as the length octet says. -/
  value : Octets
  length_value : value.length = length.toNat

namespace RawRecord

/-- The octets that a record takes. -/
def octets (record : RawRecord) : Octets := record.code :: record.length :: record.value

/-- A record has the type octet and the layout of a type: for neighbors one octet and then elevens,
for prefixes twelves with contiguous masks, for addresses fours. -/
def Fits (record : RawRecord) : TlvType → Prop
  | .neighbors =>
    record.code = 2 ∧ 1 ≤ record.length.toNat ∧ 11 ∣ record.length.toNat - 1
  | .prefixes =>
    record.code = 128 ∧ 12 ∣ record.length.toNat ∧
      ∀ i < record.length.toNat / 12, Ipv4.Contiguous (Reach.maskAt record.value i)
  | .addresses => record.code = 132 ∧ 4 ∣ record.length.toNat

/-- The number of entries that the length of a record says. -/
def entryCount (record : RawRecord) : TlvType → Nat
  | .neighbors => (record.length.toNat - 1) / 11
  | .prefixes => record.length.toNat / 12
  | .addresses => record.length.toNat / 4

/-- What a record is read as. -/
structure ReadAs (record : RawRecord) (tlv : Tlv) : Prop where
  /-- It is understood as the type that it fits. -/
  type_iff : ∀ type, tlv.type? = some type ↔ record.Fits type
  /-- It has then as many entries as its length says. -/
  entryCount_eq : ∀ type, tlv.type? = some type → tlv.entryCount = record.entryCount type
  /-- The entries, one after the other, are what stands in the value. -/
  value_eq : tlv.value = record.value
  /-- Any other record is kept with its type, its length and its value. -/
  verbatim : tlv.type? = none → tlv = .unknown record.code record.length record.value

/-- A record fits a type if and only if it has its octet and its layout. -/
theorem fits_iff {record : RawRecord} {type : TlvType} :
    record.Fits type ↔ type.code = record.code ∧ type.HasLayout record.value := by
  cases type with
  | neighbors =>
    rw [TlvType.hasLayout_neighbors_iff, record.length_value, eq_comm]
    rfl
  | prefixes =>
    rw [TlvType.hasLayout_prefixes_iff, record.length_value, eq_comm]
    rfl
  | addresses =>
    rw [TlvType.hasLayout_addresses_iff, record.length_value, eq_comm]
    rfl

/-- A record is read as what it fits. -/
theorem readAs_ofRecord (record : RawRecord) :
    record.ReadAs (Tlv.ofRecord record.code record.length record.value) where
  type_iff type := Tlv.type?_ofRecord.trans fits_iff.symm
  entryCount_eq type htype := by
    have hvalue := (Tlv.canonical_ofRecord record.code record.length_value).2.2
    have hlength := Tlv.length_value_of_type? htype
    rw [hvalue, record.length_value] at hlength
    cases type <;> simp only [TlvType.fixedSize, TlvType.entrySize, entryCount] at hlength ⊢ <;>
      omega
  value_eq := (Tlv.canonical_ofRecord record.code record.length_value).2.2
  verbatim := Tlv.ofRecord_of_type?_eq_none

end RawRecord

namespace Tlv

/-- What stands behind the last whole record of a body, and what a scan has left of it: fewer than
two octets, which stay, or a record that reaches past the end, of which nothing stays. -/
def EndsWith (scan : Scan) (tail : Octets) : Prop :=
  (tail.length < 2 ∧ scan.rest = tail ∧ scan.truncation = none) ∨
  ∃ code length remaining, tail = code :: length :: remaining ∧
    remaining.length < length.toNat ∧ scan.rest = [] ∧
    scan.truncation = some ⟨code, length, remaining.length⟩

/-- A body is its whole records and a tail in which no further one starts; each of the records is
read as what it fits, in their order, and nothing else is read. -/
theorem decodeAll_reads_records (body : Octets) :
    ∃ (records : List RawRecord) (tail : Octets),
      body = records.flatMap RawRecord.octets ++ tail ∧ EndsWith (decodeAll body) tail ∧
        List.Forall₂ RawRecord.ReadAs records (decodeAll body).tlvs := by
  -- The scan takes one record after the other, and where it stops the tail begins.
  induction body using decodeAll.induct with
  | case1 code length rest hle ih =>
    obtain ⟨records, tail, hrest, hends, hreads⟩ := ih
    have hlength : (rest.take length.toNat).length = length.toNat := List.length_take_of_le hle
    let first : RawRecord := ⟨code, length, rest.take length.toNat, hlength⟩
    rw [decodeAll, if_pos hle]
    refine ⟨first :: records, tail, ?_, hends, .cons first.readAs_ofRecord hreads⟩
    rw [List.flatMap_cons, List.append_assoc, ← hrest]
    exact congrArg (code :: length :: ·) (List.take_append_drop _ rest).symm
  | case2 code length rest hlt =>
    rw [decodeAll, if_neg hlt]
    exact ⟨[], _, rfl, .inr ⟨code, length, rest, rfl, Nat.lt_of_not_le hlt, rfl, rfl⟩, .nil⟩
  | case3 rest hshort =>
    rw [decodeAll.eq_2 rest hshort]
    have hlength : rest.length < 2 := by
      rcases rest with _ | ⟨code, _ | ⟨length, tail⟩⟩
      · exact Nat.two_pos
      · exact Nat.one_lt_two
      · exact absurd rfl (hshort code length tail)
    exact ⟨[], rest, rfl, .inl ⟨hlength, rfl, rfl⟩, .nil⟩

-- The second mask is not contiguous, so that both prefixes are kept with it, and an octet is left.
example : decodeAll [128, 24, 10, 0, 0, 0, 255, 0, 0, 0, 0, 0, 0, 1, 10, 1, 0, 0, 255, 0, 255, 0,
      0, 0, 0, 1, 2] =
    ⟨[.unknown 128 24 [10, 0, 0, 0, 255, 0, 0, 0, 0, 0, 0, 1, 10, 1, 0, 0, 255, 0, 255, 0, 0, 0, 0,
      1]], [2], none⟩ := by cbv

end Tlv

end LinkState
