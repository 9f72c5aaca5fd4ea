import LinkState.Proofs.Wire.Codec

/-!
# A relayed LSP keeps its octets

A router sends on what it has read, and the checksum has to cover the same octets as before. Of a
body the reader keeps the longest part, from the start on, that is a row of whole records
(`isWholePart_decodeAll`), and each record is written again as it stood (`encode_ofRecord`): an
understood one because its entries write the value that they were read from
(`ofValue?_eq_some_iff`), any other one because it is kept verbatim. All of them are canonical
(`canonical_ofRecord`). The fixed part is read field by field and nothing of it is lost
(`exists_fields`), save the size of the fixed part, the reserved bits of the type octet and the
length field, which the writer computes. So an LSP that was read is encodable, and its octets are
those of the frame up to the last whole record (`encode_of_decode`).
-/

namespace LinkState

open Octets

/-- The five bits of the type octet that are the code. -/
theorem PduType.codeOfOctet_eq_and (octet : UInt8) : codeOfOctet octet = octet &&& 0x1f := by
  apply UInt8.toNat_inj.1
  have hmask : octet.toNat &&& 0x1f = octet.toNat % 32 := Nat.and_two_pow_sub_one_eq_mod _ 5
  have hlt := octet.toNat_lt
  rw [codeOfOctet, UInt8.toNat_and, UInt8.toNat_ofNat', show (0x1f : UInt8).toNat = 0x1f from rfl,
    hmask]
  omega

namespace Tlv

/-! ### Records are written as they stood -/

/-- A record is canonical if its value has the length that its length octet says. -/
theorem canonical_ofRecord (code : UInt8) {length : UInt8} {value : Octets}
    (h : value.length = length.toNat) :
    (ofRecord code length value).Canonical ∧ (ofRecord code length value).code = code ∧
      (ofRecord code length value).value = value := by
  have hlt := length.toNat_lt
  unfold ofRecord
  cases hread : TlvType.ofCode? code >>= (ofValue? · value) with
  | some tlv =>
    obtain ⟨type, hfound, htlv⟩ := Option.bind_eq_some_iff.1 hread
    obtain ⟨htype, hvalue⟩ := ofValue?_eq_some_iff.1 htlv
    have hcode := (code_of_type? htype).trans (TlvType.ofCode?_eq_some_iff.1 hfound)
    have hcount : tlv.entryCount ≤ type.capacity := by
      rw [TlvType.le_capacity_iff, ← length_value_of_type? htype, hvalue]
      omega
    exact ⟨(canonical_iff_of_type? htype).2 hcount, hcode, hvalue⟩
  | none =>
    refine ⟨⟨h.symm, fun type hcode hlayout => ?_⟩, rfl, rfl⟩
    -- A value with the layout of its type would have been read.
    rw [TlvType.ofCode?_eq_some_iff.2 hcode, Option.bind_eq_bind, Option.bind_some] at hread
    have hsome := isSome_ofValue?_iff.2 hlayout
    rw [hread] at hsome
    cases hsome

/-- A record is written as it stood. -/
theorem encode_ofRecord {code length : UInt8} {value : Octets} (h : value.length = length.toNat) :
    (ofRecord code length value).encode = code :: length :: value := by
  obtain ⟨hcanonical, hcode, hvalue⟩ := canonical_ofRecord code h
  obtain ⟨written, hwritten, hencode, -⟩ := hcanonical.encode_eq
  have hlength : written = length := by
    apply UInt8.toNat_inj.1
    rw [hwritten, hvalue, h]
  rw [hencode, hcode, hvalue, hlength]

/-! ### Whole records -/

/-- A row of whole records, each a type octet, a length octet and as many octets as that says. -/
inductive WholeRecords : Octets → Prop where
  | nil : WholeRecords []
  | cons {code length : UInt8} {value rest : Octets} : value.length = length.toNat →
    WholeRecords rest → WholeRecords (code :: length :: (value ++ rest))

/-- The longest part of a body, from its start on, that is a row of whole records. -/
structure IsWholePart (body whole : Octets) : Prop where
  initial : whole <+: body
  records : WholeRecords whole
  longest : ∀ other, other <+: body → WholeRecords other → other.length ≤ whole.length

/-- What a body keeps in front of a first record is that record and what the rest keeps. -/
theorem IsWholePart.cons {rest whole : Octets} (h : IsWholePart rest whole) (code : UInt8)
    {length : UInt8} {value : Octets} (hlength : value.length = length.toNat) :
    IsWholePart (code :: length :: (value ++ rest)) (code :: length :: (value ++ whole)) where
  initial := by
    have hrest : value ++ whole <+: value ++ rest :=
      (List.prefix_append_right_inj value).2 h.initial
    exact (List.prefix_cons_inj code).2 ((List.prefix_cons_inj length).2 hrest)
  records := .cons hlength h.records
  longest other hinitial hrecords := by
    cases hrecords with
    | nil => exact Nat.zero_le _
    | @cons _ _ value' rest' hlength' hrest' =>
      -- The first record of any other row is this one, and what follows it is a row of the rest.
      have hinitial := (List.cons_prefix_cons.1 hinitial).2
      obtain ⟨rfl, tail, htail⟩ := List.cons_prefix_cons.1 hinitial
      rw [List.append_assoc] at htail
      obtain ⟨rfl, hrest⟩ := List.append_inj htail (hlength'.trans hlength.symm)
      have hle := h.longest rest' ⟨tail, hrest⟩ hrest'
      simp only [List.length_cons, List.length_append]
      omega

/-- Nothing is kept of a body that does not start with a whole record. -/
theorem isWholePart_nil {body : Octets}
    (h : ∀ code length rest, body = code :: length :: rest → rest.length < length.toNat) :
    IsWholePart body [] where
  initial := List.nil_prefix
  records := .nil
  longest other hinitial hrecords := by
    cases hrecords with
    | nil => exact Nat.le_refl _
    | @cons code length value rest hlength _ =>
      obtain ⟨tail, htail⟩ := hinitial
      have hlt := h code length (value ++ rest ++ tail) htail.symm
      simp only [List.length_append] at hlt
      omega

/-- The records that are read of a body are canonical, and they write its whole part. -/
theorem isWholePart_decodeAll (body : Octets) :
    (∀ tlv ∈ (decodeAll body).tlvs, tlv.Canonical) ∧
      IsWholePart body ((decodeAll body).tlvs.flatMap encode) := by
  induction body using decodeAll.induct with
  | case1 code length rest hle ih =>
    obtain ⟨hcanonical, hwhole⟩ := ih
    have hlength : (rest.take length.toNat).length = length.toNat := List.length_take_of_le hle
    rw [decodeAll, if_pos hle]
    refine ⟨List.forall_mem_cons.2 ⟨(canonical_ofRecord code hlength).1, hcanonical⟩, ?_⟩
    have hfirst := hwhole.cons code hlength
    rw [List.take_append_drop] at hfirst
    rw [List.flatMap_cons, encode_ofRecord hlength]
    exact hfirst
  | case2 code length rest hlt =>
    rw [decodeAll, if_neg hlt]
    refine ⟨fun _ h => absurd h List.not_mem_nil, isWholePart_nil fun _ _ _ heq => ?_⟩
    cases heq
    omega
  | case3 rest hshort =>
    rw [decodeAll.eq_2 rest hshort]
    refine ⟨fun _ h => absurd h List.not_mem_nil, isWholePart_nil fun code length tail heq => ?_⟩
    exact absurd heq (hshort code length tail)

end Tlv

/-! ### The fixed part is read field by field -/

/-- A header that is read stands in front of the rest. -/
theorem Header.eq_of_decode {frame rest : Octets} {header : Header}
    (h : decode frame = .ok (header, rest)) :
    ∃ fixed type, header.type.code = PduType.codeOfOctet type ∧
      frame = discriminator :: fixed :: header.protoExt :: header.idLen :: type ::
        header.version :: header.reserved :: header.maxAreaAddrs :: rest := by
  unfold decode at h
  split at h
  · rename_i start fixed protoExt idLen type version reserved maxAreaAddrs rest'
    split at h
    · cases h
    · rename_i hstart
      split at h
      · rename_i known hknown
        cases h
        refine ⟨fixed, type, PduType.ofCode?_eq_some_iff.1 hknown, ?_⟩
        rw [Decidable.not_not.1 hstart]
      · cases h
  · cases h

namespace Lsp

/-- The fixed part that is read stands in front of the body, of which the length field says how much
belongs to the LSP. -/
theorem eq_of_readBody {header : Header} {rest : Octets} {reading : Reading}
    (h : readBody header rest = .ok reading) :
    ∃ (length : UInt16) (body : Octets), fixedSize ≤ length.toNat ∧ reading.lsp.header = header ∧
      reading.lsp.tlvs = (Tlv.decodeAll (body.take (length.toNat - fixedSize))).tlvs ∧
      rest = ofWord16 length ++ ofWord16 reading.lsp.lifetime ++ (reading.lsp.id.toOctets ++
        ofWord32 reading.lsp.seqno ++ ofWord16 reading.lsp.checksum ++ [reading.lsp.flags.bits] ++
        body) := by
  unfold readBody at h
  split at h
  · rename_i l0 l1 t0 t1 i0 i1 i2 i3 i4 i5 i6 i7 s0 s1 s2 s3 c0 c1 flags body
    dsimp only at h
    split at h
    · cases h
    · rename_i hlength
      cases h
      refine ⟨word16 l0 l1, body, Nat.not_lt.1 hlength, rfl, rfl, ?_⟩
      rw [ofWord16_eq_iff.2 rfl, ofWord16_eq_iff.2 rfl, ofWord32_eq_iff.2 rfl,
        ofWord16_eq_iff.2 rfl]
      rfl
  · cases h

/-- The fixed part of a frame that is read holds the fields of the LSP, and the length field bounds
the body that its records are read from. -/
theorem exists_fields {frame : Octets} {lsp : Lsp} (h : decode frame 0 = .ok lsp) :
    ∃ (fixed type : UInt8) (length : UInt16) (body : Octets),
      lsp.header.type.isLsp ∧ lsp.header.type.code = PduType.codeOfOctet type ∧
        fixedSize ≤ length.toNat ∧
        lsp.tlvs = (Tlv.decodeAll (body.take (length.toNat - fixedSize))).tlvs ∧
        frame = discriminator :: fixed :: lsp.header.protoExt :: lsp.header.idLen :: type ::
          lsp.header.version :: lsp.header.reserved :: lsp.header.maxAreaAddrs ::
          (ofWord16 length ++ ofWord16 lsp.lifetime ++ (lsp.id.toOctets ++ ofWord32 lsp.seqno ++
            ofWord16 lsp.checksum ++ [lsp.flags.bits] ++ body)) := by
  unfold decode read at h
  rw [List.drop_zero] at h
  cases hheader : Header.decode frame with
  | error reason =>
    rw [hheader] at h
    cases h
  | ok result =>
    obtain ⟨header, rest⟩ := result
    obtain ⟨fixed, type, hcode, hframe⟩ := Header.eq_of_decode hheader
    rw [hheader] at h
    change (·.lsp) <$> (if header.type.isLsp then readBody header rest else _) = _ at h
    split at h
    · rename_i hisLsp
      cases hbody : readBody header rest with
      | error reason =>
        rw [hbody] at h
        cases h
      | ok reading =>
        rw [hbody] at h
        cases h
        obtain ⟨length, body, hlength, rfl, htlvs, hrest⟩ := eq_of_readBody hbody
        exact ⟨fixed, type, length, body, hisLsp, hcode, hlength, htlvs, hrest ▸ hframe⟩
    · cases h

/-! ### What is sent on -/

/-- The octets that are sent on of a frame whose whole records are given: the size of the fixed part
is written anew, the reserved bits of the type octet are cleared, and the length field says the
size. Everything else of the fixed part stays. -/
def relayed (frame whole : Octets) : Octets :=
  ((frame.take 8).set 1 27).modify 4 (· &&& 0x1f) ++ ofNat 2 (27 + whole.length) ++
    (frame.take 27).drop 10 ++ whole

/-- An LSP that was read is encodable. -/
theorem encodable_of_decode {frame : Octets} {lsp : Lsp} (h : decode frame 0 = .ok lsp) :
    lsp.Encodable := by
  obtain ⟨fixed, type, length, body, hisLsp, -, hlength, htlvs, -⟩ := exists_fields h
  obtain ⟨hcanonical, hwhole⟩ :=
    Tlv.isWholePart_decodeAll (body.take (length.toNat - fixedSize))
  rw [← htlvs] at hcanonical hwhole
  refine ⟨hisLsp, hcanonical, ?_⟩
  -- The records come from a part of the frame that the length field counts.
  have hle : (lsp.tlvs.flatMap Tlv.encode).length ≤ length.toNat - fixedSize :=
    Nat.le_trans hwhole.initial.length_le (List.length_take_le _ _)
  have hlt := length.toNat_lt
  rw [Tlv.length_flatMap_encode hcanonical] at hle
  unfold size
  omega

/-- An LSP is sent on with the octets of the frame that it was read from, up to the last whole
record that the length field and the end of the frame leave, and it is read again as the same
LSP. -/
theorem encode_of_decode {frame : Octets} {lsp : Lsp} (h : decode frame 0 = .ok lsp) :
    27 ≤ frame.length ∧ ∃ whole,
      Tlv.IsWholePart ((frame.take (toNat ((frame.drop 8).take 2))).drop 27) whole ∧
        lsp.encode = relayed frame whole ∧ toNat ((lsp.encode.drop 8).take 2) = 27 + whole.length ∧
        decode lsp.encode 0 = .ok lsp := by
  obtain ⟨fixed, type, length, body, -, hcode, -, htlvs, hframe⟩ := exists_fields h
  obtain ⟨hcanonical, hwhole⟩ :=
    Tlv.isWholePart_decodeAll (body.take (length.toNat - fixedSize))
  rw [← htlvs] at hcanonical hwhole
  have hencodable := encodable_of_decode h
  have hsize : lsp.size = 27 + (lsp.tlvs.flatMap Tlv.encode).length := by
    rw [Tlv.length_flatMap_encode hcanonical]
    rfl
  -- With every word in octets, the parts of the frame can be read off.
  obtain ⟨l0, l1, hlength, -⟩ := exists_word16 length
  obtain ⟨t0, t1, hlifetime, -⟩ := exists_word16 lsp.lifetime
  obtain ⟨s0, s1, s2, s3, hseqno, -⟩ := exists_word32 lsp.seqno
  obtain ⟨c0, c1, hchecksum, -⟩ := exists_word16 lsp.checksum
  have hfield : toNat ((frame.drop 8).take 2) = length.toNat := by
    rw [← toNat_ofWord16, hframe, hlength]
    rfl
  have hbody : frame.drop 27 = body := by
    rw [hframe, hlength, hlifetime, hseqno, hchecksum]
    rfl
  have hheader : ((frame.take 8).set 1 27).modify 4 (· &&& 0x1f) = lsp.header.encode 27 := by
    rw [Header.encode, hcode, PduType.codeOfOctet_eq_and, hframe]
    rfl
  have hfixed : (frame.take 27).drop 10 = ofWord16 lsp.lifetime ++ (lsp.id.toOctets ++
      ofWord32 lsp.seqno ++ ofWord16 lsp.checksum ++ [lsp.flags.bits]) := by
    rw [hframe, hlength, hlifetime, hseqno, hchecksum]
    rfl
  have hword : ofWord16 (UInt16.ofNat (uncoveredSize + lsp.covered.length)) =
      ofNat 2 (27 + (lsp.tlvs.flatMap Tlv.encode).length) := by
    rw [ofWord16, hencodable.length_field, hsize]
  refine ⟨?_, lsp.tlvs.flatMap Tlv.encode, ?_, ?_, ?_, ?_⟩
  · rw [hframe, hlength, hlifetime, hseqno, hchecksum]
    exact Nat.le_add_left 27 body.length
  · rw [hfield, List.drop_take, hbody]
    exact hwhole
  · rw [relayed, hheader, hfixed, encode, hword, covered]
    simp only [List.append_assoc]
    rfl
  · have hplace : (lsp.encode.drop 8).take 2 =
        ofWord16 (UInt16.ofNat (uncoveredSize + lsp.covered.length)) := rfl
    rw [hplace, toNat_ofWord16, hencodable.length_field, hsize]
  · rw [decode, hencodable.read_self]
    rfl

/-- A frame with reserved bits in the type octet and padding. Its records are an address record of
three octets, a prefix whose mask is not contiguous, a neighbor record without entries, and one that
reaches past the length field. -/
def irregular : Octets :=
  [0x83, 0, 1, 6, 0x72, 1, 0, 3, 0, 52, 4, 176, 0x19, 0x21, 0x68, 0, 0x10, 1, 2, 3, 0, 0, 0, 9,
    0xbe, 0xef, 0xff, 132, 3, 10, 0, 0, 128, 12, 10, 0, 0, 7, 255, 0, 255, 0, 0, 0, 0, 1, 2, 1, 7,
    200, 9, 1, 200, 0]

/-- The LSP of the irregular frame. -/
def irregularLsp : Lsp where
  header := ⟨1, 6, .lspL1, 1, 0, 3⟩
  lifetime := 1200
  id := ⟨⟨0x19, 0x21, 0x68, 0, 0x10, 1⟩, 2, 3⟩
  seqno := 9
  checksum := 0xbeef
  flags := ⟨0xff⟩
  tlvs := [.unknown 132 3 [10, 0, 0], .unknown 128 12 [10, 0, 0, 7, 255, 0, 255, 0, 0, 0, 0, 1],
    .neighbors 7 []]

theorem encode_of_decode_irregular : decode irregular 0 = .ok irregularLsp ∧
    27 ≤ irregular.length ∧ ∃ whole,
      Tlv.IsWholePart ((irregular.take (toNat ((irregular.drop 8).take 2))).drop 27) whole ∧
        irregularLsp.encode = relayed irregular whole ∧
        toNat ((irregularLsp.encode.drop 8).take 2) = 27 + whole.length ∧
        decode irregularLsp.encode 0 = .ok irregularLsp := by
  have h : decode irregular 0 = .ok irregularLsp := by cbv
  exact ⟨h, encode_of_decode h⟩

end Lsp

end LinkState
