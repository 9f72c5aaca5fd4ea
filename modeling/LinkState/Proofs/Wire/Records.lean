import Mathlib.Algebra.Ring.Nat
import LinkState.Wire.Tlv
import LinkState.Proofs.Wire.Words

/-!
# Records are read back from what is written

Every eleven octets are a neighbor and every four an address, while twelve octets are a prefix if
and only if their mask is contiguous (`Reach.exists_encode_iff`). The three kinds of entries are
read in rows, and a row is read if and only if it is what its entries write
(`RowReader.eq_some_iff`). So a value is read as a record of a type exactly if it has the layout of
that type (`isSome_ofValue?_iff`), and then as the one record of the type that writes it
(`ofValue?_eq_some_iff`).

A record is canonical if its entries fit one record and, when it is kept verbatim, its value has not
the layout of its type. A canonical record has the size that it announces (`length_encode`) and is
read back from the front of a body (`decodeAll_encode_append`); so is a body of canonical records
(`decodeAll_flatMap_encode`).
-/

namespace LinkState

open Octets

/-! ### Rows of entries -/

/-- A reader of rows of entries of a type: it ends with the row, and in front of the end it takes
off what one entry writes or fails. -/
structure RowReader (type : TlvType) {α : Type u} (encode : α → Octets)
    (decodeRow? : Octets → Option (List α)) : Prop where
  length_encode : ∀ entry, (encode entry).length = type.entrySize
  nil : decodeRow? [] = some []
  append : ∀ entry rest, decodeRow? (encode entry ++ rest) = (decodeRow? rest).map (entry :: ·)
  exists_entry : ∀ row, (decodeRow? row).isSome → row ≠ [] →
    ∃ entry rest, row = encode entry ++ rest

namespace RowReader

variable {type : TlvType} {α : Type u} {encode : α → Octets}
  {decodeRow? : Octets → Option (List α)} {entries : List α}

/-- A row has the size of its entries. -/
theorem length_row (h : RowReader type encode decodeRow?) (entries : List α) :
    (entries.flatMap encode).length = entries.length * type.entrySize := by
  induction entries with
  | nil => rw [List.flatMap_nil, List.length_nil, List.length_nil, Nat.zero_mul]
  | cons entry entries ih =>
    rw [List.flatMap_cons, List.length_append, h.length_encode, ih, List.length_cons, Nat.succ_mul,
      Nat.add_comm]

/-- A row is read if and only if its entries write it. -/
theorem eq_some_iff (h : RowReader type encode decodeRow?) {row : Octets} :
    decodeRow? row = some entries ↔ row = entries.flatMap encode := by
  constructor
  · intro hrow
    -- The induction is on the length of the row, since every entry takes octets off it.
    induction hlength : row.length using Nat.strongRecOn generalizing row entries with
    | ind length ih =>
      by_cases hnil : row = []
      · rw [hnil, h.nil] at hrow
        rw [hnil, ← Option.some.inj hrow, List.flatMap_nil]
      · obtain ⟨entry, rest, rfl⟩ := h.exists_entry row (Option.isSome_of_eq_some hrow) hnil
        rw [h.append] at hrow
        obtain ⟨others, hothers, rfl⟩ := Option.map_eq_some_iff.1 hrow
        have hshorter : rest.length < length := by
          have hpos := type.entrySize_pos
          rw [← hlength, List.length_append, h.length_encode]
          omega
        rw [List.flatMap_cons, ← ih rest.length hshorter hothers rfl]
  · rintro rfl
    induction entries with
    | nil => exact h.nil
    | cons entry entries ih => rw [List.flatMap_cons, h.append, ih]; rfl

end RowReader

/-! ### Octets of one entry -/

/-- Every eleven octets are a neighbor. -/
theorem Neighbor.exists_encode {octets : Octets} (h : octets.length = 11) :
    ∃ entry, encode entry = octets := by
  match octets, h with
  | [m0, m1, m2, m3, s0, s1, s2, s3, s4, s5, pseudonode], _ =>
    refine ⟨⟨word32 m0 m1 m2 m3, ⟨s0, s1, s2, s3, s4, s5⟩, pseudonode⟩, ?_⟩
    rw [encode, ofWord32_eq_iff.2 rfl]
    rfl

/-- Every four octets are an address. -/
theorem Ipv4.Address.exists_toOctets {octets : Octets} (h : octets.length = 4) :
    ∃ address, toOctets address = octets := by
  match octets, h with
  | [a, b, c, d], _ => exact ⟨⟨word32 a b c d⟩, ofWord32_eq_iff.2 rfl⟩

/-- Twelve octets are a prefix if and only if their mask is contiguous. -/
theorem Reach.exists_encode_iff {octets : Octets} (h : octets.length = 12) :
    (∃ entry, encode entry = octets) ↔
      Ipv4.Contiguous (UInt32.ofNat (toNat ((octets.drop 4).take 4))) := by
  match octets, h with
  | [a0, a1, a2, a3, k0, k1, k2, k3, m0, m1, m2, m3], _ =>
    change _ ↔ Ipv4.Contiguous (word32 k0 k1 k2 k3)
    rw [Ipv4.contiguous_iff]
    constructor
    · rintro ⟨⟨⟨_, length⟩, _⟩, hentry⟩
      have hmask : ofWord32 (Ipv4.maskOfLength length) = [k0, k1, k2, k3] :=
        congrArg (fun octets => (octets.drop 4).take 4) hentry
      exact ⟨length, ofWord32_eq_iff.1 hmask⟩
    · rintro ⟨length, hmask⟩
      refine ⟨⟨⟨⟨word32 a0 a1 a2 a3⟩, length⟩, word32 m0 m1 m2 m3⟩, ?_⟩
      rw [encode, Ipv4.Address.toOctets, Ipv4.Address.toOctets, Ipv4.Network.mask, hmask,
        ofWord32_eq_iff.2 rfl, ofWord32_eq_iff.2 rfl, ofWord32_eq_iff.2 rfl]
      rfl

/-! ### The three kinds of rows -/

/-- Neighbors are read in rows. -/
theorem Neighbor.rowReader : RowReader .neighbors encode decodeRow? where
  length_encode _ := rfl
  nil := rfl
  append entry rest := by
    -- With the metric in four octets the entry shows the eleven that the reader takes off.
    obtain ⟨a, b, c, d, hoctets, hmetric⟩ := exists_word32 entry.metric
    rw [encode, hoctets]
    change decodeRow? (a :: b :: c :: d :: _ :: _ :: _ :: _ :: _ :: _ :: _ :: rest) = _
    rw [decodeRow?, ← hmetric]
    cases decodeRow? rest <;> rfl
  exists_entry row h hnil := by
    unfold decodeRow? at h
    split at h
    · exact absurd rfl hnil
    · rename_i m0 m1 m2 m3 s0 s1 s2 s3 s4 s5 pseudonode rest
      obtain ⟨entry, hentry⟩ := exists_encode
        (rfl : [m0, m1, m2, m3, s0, s1, s2, s3, s4, s5, pseudonode].length = 11)
      refine ⟨entry, rest, ?_⟩
      rw [hentry]
      rfl
    · cases h

/-- Prefixes are read in rows. -/
theorem Reach.rowReader : RowReader .prefixes encode decodeRow? where
  length_encode _ := rfl
  nil := rfl
  append entry rest := by
    obtain ⟨a0, a1, a2, a3, haddress, hnetwork⟩ := exists_word32 entry.network.address.word
    obtain ⟨k0, k1, k2, k3, hmask, hlength⟩ := exists_word32 entry.network.mask.word
    obtain ⟨m0, m1, m2, m3, hoctets, hmetric⟩ := exists_word32 entry.metric
    -- The mask is contiguous, so that the network is read back with its host bits.
    have hread : Ipv4.Network.ofMask? (.ofOctets a0 a1 a2 a3) (.ofOctets k0 k1 k2 k3) =
        some entry.network := by
      unfold Ipv4.Network.ofMask? Ipv4.Address.ofOctets
      rw [← hnetwork, ← hlength, Ipv4.Network.mask, Ipv4.lengthOfMask?_maskOfLength]
      rfl
    rw [encode, Ipv4.Address.toOctets, Ipv4.Address.toOctets, haddress, hmask, hoctets]
    change decodeRow? (a0 :: a1 :: a2 :: a3 :: k0 :: k1 :: k2 :: k3 :: m0 :: m1 :: m2 :: m3 ::
      rest) = _
    rw [decodeRow?, hread, ← hmetric]
    cases decodeRow? rest <;> rfl
  exists_entry row h hnil := by
    unfold decodeRow? at h
    split at h
    · exact absurd rfl hnil
    · rename_i a0 a1 a2 a3 k0 k1 k2 k3 m0 m1 m2 m3 rest
      -- A row is read only if the mask is that of a length.
      obtain ⟨entries, hentries⟩ := Option.isSome_iff_exists.1 h
      obtain ⟨network, hnetwork, -⟩ := Option.bind_eq_some_iff.1 hentries
      obtain ⟨length, hlength, -⟩ := Option.map_eq_some_iff.1 hnetwork
      have hmask : Ipv4.Contiguous (word32 k0 k1 k2 k3) :=
        Ipv4.contiguous_iff.2 ⟨length, Ipv4.lengthOfMask?_eq_some_iff.1 hlength⟩
      obtain ⟨entry, hentry⟩ := (exists_encode_iff
        (rfl : [a0, a1, a2, a3, k0, k1, k2, k3, m0, m1, m2, m3].length = 12)).2 hmask
      refine ⟨entry, rest, ?_⟩
      rw [hentry]
      rfl
    · cases h

/-- Addresses are read in rows. -/
theorem Ipv4.Address.rowReader : RowReader .addresses toOctets decodeRow? where
  length_encode _ := rfl
  nil := rfl
  append address rest := by
    obtain ⟨a, b, c, d, hoctets, hword⟩ := exists_word32 address.word
    rw [toOctets, hoctets]
    change decodeRow? (a :: b :: c :: d :: rest) = _
    rw [decodeRow?, ofOctets, ← hword]
    cases decodeRow? rest <;> rfl
  exists_entry row h hnil := by
    unfold decodeRow? at h
    split at h
    · exact absurd rfl hnil
    · rename_i a b c d rest
      obtain ⟨address, haddress⟩ := exists_toOctets (rfl : [a, b, c, d].length = 4)
      refine ⟨address, rest, ?_⟩
      rw [haddress]
      rfl
    · cases h

/-! ### Values of records -/

/-- A type is found by its octet. -/
theorem TlvType.ofCode?_eq_some_iff {code : UInt8} {type : TlvType} :
    ofCode? code = some type ↔ type.code = code := by
  constructor
  · intro h
    unfold ofCode? at h
    simpa using List.find?_some h
  · rintro rfl
    cases type <;> rfl

/-- A value has the layout of a type: the fixed part and a row of entries. -/
def TlvType.HasLayout : TlvType → Octets → Prop
  | neighbors, value =>
    ∃ reserved, ∃ entries : List Neighbor, value = reserved :: entries.flatMap Neighbor.encode
  | prefixes, value => ∃ entries : List Reach, value = entries.flatMap Reach.encode
  | addresses, value => ∃ entries : List Ipv4.Address, value = entries.flatMap Ipv4.Address.toOctets

/-- One record holds entries if and only if their size fits the length octet. -/
theorem TlvType.le_capacity_iff {type : TlvType} {count : Nat} :
    count ≤ type.capacity ↔ type.fixedSize + count * type.entrySize ≤ 255 := by
  have hfixed : type.fixedSize ≤ 255 := by cases type <;> decide
  unfold TlvType.capacity
  rw [Nat.le_div_iff_mul_le type.entrySize_pos]
  omega

namespace Tlv

/-- The octets of a record after its type and its length. -/
def value : Tlv → Octets
  | neighbors reserved entries => reserved :: entries.flatMap Neighbor.encode
  | prefixes entries => entries.flatMap Reach.encode
  | addresses entries => entries.flatMap Ipv4.Address.toOctets
  | unknown _ _ value => value

/-- A record that stands for itself: it has at most as many entries as one record holds (23
neighbors, 21 prefixes, 63 addresses), and if it is kept verbatim, then its length is that of its
value, and the value has not the layout of its type. -/
def Canonical : Tlv → Prop
  | neighbors _ entries => entries.length ≤ TlvType.neighbors.capacity
  | prefixes entries => entries.length ≤ TlvType.prefixes.capacity
  | addresses entries => entries.length ≤ TlvType.addresses.capacity
  | unknown code length value =>
    length.toNat = value.length ∧ ∀ type : TlvType, type.code = code → ¬type.HasLayout value

example : TlvType.neighbors.capacity = 23 ∧ TlvType.prefixes.capacity = 21 ∧
    TlvType.addresses.capacity = 63 := by decide

/-- The type that a record is understood as; none if it is kept verbatim. -/
def type? : Tlv → Option TlvType
  | neighbors .. => some .neighbors
  | prefixes .. => some .prefixes
  | addresses .. => some .addresses
  | unknown .. => none

section Understood

variable {tlv : Tlv} {type : TlvType}

/-- An understood record has the octet of its type. -/
theorem code_of_type? (h : tlv.type? = some type) : tlv.code = type.code := by
  cases tlv <;> cases h <;> rfl

/-- An understood record writes its value. -/
theorem encode_of_type? (h : tlv.type? = some type) :
    tlv.encode = encodeValue type.code tlv.value := by
  cases tlv <;> cases h <;> rfl

/-- An understood record is canonical if and only if one record holds its entries. -/
theorem canonical_iff_of_type? (h : tlv.type? = some type) :
    tlv.Canonical ↔ tlv.entryCount ≤ type.capacity := by
  cases tlv <;> cases h <;> exact Iff.rfl

/-- The value of an understood record has the size of its entries. -/
theorem length_value_of_type? (h : tlv.type? = some type) :
    tlv.value.length = type.fixedSize + tlv.entryCount * type.entrySize := by
  cases tlv with
  | neighbors reserved entries =>
    cases h
    rw [value, List.length_cons, Neighbor.rowReader.length_row, Nat.add_comm]
    rfl
  | prefixes entries =>
    cases h
    rw [value, Reach.rowReader.length_row]
    exact (Nat.zero_add _).symm
  | addresses entries =>
    cases h
    rw [value, Ipv4.Address.rowReader.length_row]
    exact (Nat.zero_add _).symm
  | unknown => cases h

/-- An understood record announces its two header octets and its value. -/
theorem size_of_type? (h : tlv.type? = some type) : tlv.size = 2 + tlv.value.length := by
  rw [length_value_of_type? h]
  cases tlv with
  | neighbors reserved entries =>
    cases h
    exact Nat.add_assoc 2 1 _
  | prefixes entries =>
    cases h
    exact congrArg (2 + ·) (Nat.zero_add _).symm
  | addresses entries =>
    cases h
    exact congrArg (2 + ·) (Nat.zero_add _).symm
  | unknown => cases h

/-- A value is read as a record of a type if and only if the record is one of the type and has the
value. -/
theorem ofValue?_eq_some_iff {value : Octets} :
    ofValue? type value = some tlv ↔ tlv.type? = some type ∧ tlv.value = value := by
  constructor
  · intro h
    unfold ofValue? at h
    split at h
    · cases h
    · obtain ⟨entries, hentries, rfl⟩ := Option.map_eq_some_iff.1 h
      exact ⟨rfl, congrArg _ (Neighbor.rowReader.eq_some_iff.1 hentries).symm⟩
    · obtain ⟨entries, hentries, rfl⟩ := Option.map_eq_some_iff.1 h
      exact ⟨rfl, (Reach.rowReader.eq_some_iff.1 hentries).symm⟩
    · obtain ⟨entries, hentries, rfl⟩ := Option.map_eq_some_iff.1 h
      exact ⟨rfl, (Ipv4.Address.rowReader.eq_some_iff.1 hentries).symm⟩
  · rintro ⟨htype, rfl⟩
    cases tlv with
    | neighbors reserved entries =>
      cases htype
      exact congrArg (Option.map _) (Neighbor.rowReader.eq_some_iff.2 rfl)
    | prefixes entries =>
      cases htype
      exact congrArg (Option.map _) (Reach.rowReader.eq_some_iff.2 rfl)
    | addresses entries =>
      cases htype
      exact congrArg (Option.map _) (Ipv4.Address.rowReader.eq_some_iff.2 rfl)
    | unknown => cases htype

end Understood

/-- A value is read as a record of a type if and only if it has the layout of the type. -/
theorem isSome_ofValue?_iff {type : TlvType} {value : Octets} :
    (ofValue? type value).isSome ↔ type.HasLayout value := by
  have hrow {α : Type} {type : TlvType} {encode : α → Octets}
      {decodeRow? : Octets → Option (List α)} (h : RowReader type encode decodeRow?)
      (row : Octets) :
      (decodeRow? row).isSome ↔ ∃ entries : List α, row = entries.flatMap encode := by
    rw [Option.isSome_iff_exists]
    exact exists_congr fun entries => h.eq_some_iff
  unfold ofValue? TlvType.HasLayout
  cases type with
  | neighbors =>
    cases value with
    | nil => simp
    | cons reserved row =>
      rw [Option.isSome_map, hrow Neighbor.rowReader]
      simp
  | prefixes => rw [Option.isSome_map, hrow Reach.rowReader]
  | addresses => rw [Option.isSome_map, hrow Ipv4.Address.rowReader]

instance (type : TlvType) (value : Octets) : Decidable (type.HasLayout value) :=
  decidable_of_iff _ isSome_ofValue?_iff

instance : (tlv : Tlv) → Decidable tlv.Canonical
  | neighbors _ entries =>
    inferInstanceAs (Decidable (entries.length ≤ TlvType.neighbors.capacity))
  | prefixes entries => inferInstanceAs (Decidable (entries.length ≤ TlvType.prefixes.capacity))
  | addresses entries => inferInstanceAs (Decidable (entries.length ≤ TlvType.addresses.capacity))
  | unknown code length value =>
    -- The quantifier over the types runs through three of them.
    have hall : (∀ type ∈ [TlvType.neighbors, .prefixes, .addresses],
        type.code = code → ¬type.HasLayout value) ↔
          ∀ type : TlvType, type.code = code → ¬type.HasLayout value :=
      forall_congr' fun type => by cases type <;> simp
    decidable_of_iff _ (and_congr_right fun _ => hall)

/-- A record of a known type is read back from its type and its value. -/
theorem ofRecord_code {tlv : Tlv} {type : TlvType} {length : UInt8} {value : Octets}
    (h : ofValue? type value = some tlv) : ofRecord type.code length value = tlv := by
  unfold ofRecord
  rw [TlvType.ofCode?_eq_some_iff.2 rfl, Option.bind_eq_bind, Option.bind_some, h, Option.getD_some]

/-- A record is kept verbatim if its value has not the layout of its type. -/
theorem ofRecord_eq_unknown {code length : UInt8} {value : Octets}
    (h : ∀ type : TlvType, type.code = code → ¬type.HasLayout value) :
    ofRecord code length value = unknown code length value := by
  unfold ofRecord
  cases htype : TlvType.ofCode? code with
  | none => rfl
  | some type =>
    have hnone : ofValue? type value = none := by
      rw [← Option.not_isSome_iff_eq_none, isSome_ofValue?_iff]
      exact h type (TlvType.ofCode?_eq_some_iff.1 htype)
    rw [Option.bind_eq_bind, Option.bind_some, hnone, Option.getD_none]

/-- A canonical record writes its type, the length of its value and its value, and it is read back
from these. -/
theorem Canonical.encode_eq {tlv : Tlv} (h : tlv.Canonical) :
    ∃ length : UInt8, length.toNat = tlv.value.length ∧
      tlv.encode = tlv.code :: length :: tlv.value ∧ tlv.size = 2 + tlv.value.length ∧
      ofRecord tlv.code length tlv.value = tlv := by
  cases htype : tlv.type? with
  | some type =>
    -- The entries of an understood record fit one record, so that its length octet does not wrap.
    have hle := TlvType.le_capacity_iff.1 ((canonical_iff_of_type? htype).1 h)
    rw [← length_value_of_type? htype] at hle
    have hlength : (UInt8.ofNat tlv.value.length).toNat = tlv.value.length := by
      rw [UInt8.toNat_ofNat', Nat.mod_eq_of_lt (by omega)]
    have hread : ofValue? type tlv.value = some tlv := ofValue?_eq_some_iff.2 ⟨htype, rfl⟩
    rw [code_of_type? htype]
    exact ⟨_, hlength, encode_of_type? htype, size_of_type? htype, ofRecord_code hread⟩
  | none =>
    cases tlv with
    | unknown code length value =>
      obtain ⟨hlength, hlayout⟩ := h
      exact ⟨length, hlength, rfl, congrArg (2 + ·) hlength, ofRecord_eq_unknown hlayout⟩
    | _ => cases htype

/-! ### Bodies -/

/-- A canonical record has the size that it announces. -/
theorem length_encode {tlv : Tlv} (h : tlv.Canonical) : tlv.encode.length = tlv.size := by
  obtain ⟨length, -, hencode, hsize, -⟩ := h.encode_eq
  rw [hencode, hsize, List.length_cons, List.length_cons]
  omega

/-- A canonical record is read back from the front of a body. -/
theorem decodeAll_encode_append {tlv : Tlv} (h : tlv.Canonical) (rest : Octets) :
    decodeAll (tlv.encode ++ rest) =
      { decodeAll rest with tlvs := tlv :: (decodeAll rest).tlvs } := by
  obtain ⟨length, hlength, hencode, -, hrecord⟩ := h.encode_eq
  -- The length octet cuts the value off where the rest starts.
  rw [hencode, List.cons_append, List.cons_append, decodeAll, hlength,
    if_pos (by rw [List.length_append]; omega), List.take_left, List.drop_left, hrecord]

/-- A body of canonical records is read back to its end. -/
theorem decodeAll_flatMap_encode {tlvs : List Tlv} (h : ∀ tlv ∈ tlvs, tlv.Canonical) :
    decodeAll (tlvs.flatMap encode) = ⟨tlvs, [], none⟩ := by
  induction tlvs with
  | nil => rw [List.flatMap_nil, decodeAll]; simp
  | cons tlv tlvs ih =>
    obtain ⟨htlv, htlvs⟩ := List.forall_mem_cons.1 h
    rw [List.flatMap_cons, decodeAll_encode_append htlv, ih htlvs]

/-- A body of canonical records has the size that they announce. -/
theorem length_flatMap_encode {tlvs : List Tlv} (h : ∀ tlv ∈ tlvs, tlv.Canonical) :
    (tlvs.flatMap encode).length = (tlvs.map size).sum := by
  induction tlvs with
  | nil => rfl
  | cons tlv tlvs ih =>
    obtain ⟨htlv, htlvs⟩ := List.forall_mem_cons.1 h
    rw [List.flatMap_cons, List.length_append, length_encode htlv, ih htlvs, List.map_cons,
      List.sum_cons]

end Tlv

end LinkState
