import LinkState.Lsp.Basic
import LinkState.Proofs.Wire.Records

/-!
# An LSP is read back from its frame

A header is read back from in front of a PDU (`Header.decode_encode`), and what stands behind it is
read field by field (`readBody_fields`): the length field bounds the body, and nothing else of it is
kept. An LSP is encodable if its records are canonical and the length field can hold its size. The
length field of an encodable LSP is then its size, so that exactly its records are read, whatever
stands in front of it and however the frame is padded (`read_encode`), and no two encodable LSPs
have the same octets (`encode_inj`).
-/

namespace LinkState

open Octets

/-- A header is read back from in front of a PDU. -/
theorem Header.decode_encode (header : Header) (fixed : UInt8) (rest : Octets) :
    decode (header.encode fixed ++ rest) = .ok (header, rest) := by
  -- The codes fit the five bits that the reader keeps of the octet.
  have hcode : PduType.codeOfOctet header.type.code = header.type.code := by
    cases header.type <;> rfl
  change decode (discriminator :: fixed :: _ :: _ :: header.type.code :: _ :: _ :: _ :: rest) = _
  rw [decode, if_neg (not_not_intro rfl), hcode, PduType.ofCode?_code]

namespace Lsp

/-- The size of an LSP: its fixed part and its records. -/
def size (lsp : Lsp) : Nat := fixedSize + (lsp.tlvs.map Tlv.size).sum

/-- An LSP that can be sent: its header has an LSP type, its records are canonical, and its size
fits the length field. -/
structure Encodable (lsp : Lsp) : Prop where
  isLsp : lsp.header.type.isLsp
  canonical : ∀ tlv ∈ lsp.tlvs, tlv.Canonical
  size_le : lsp.size ≤ 65535

/-- The fixed part is read field by field, and the length field bounds the body, unless it does not
even count the fixed part. -/
theorem readBody_fields (header : Header) (length lifetime : UInt16) (id : LspId) (seqno : UInt32)
    (checksum : UInt16) (flags : LspFlags) (rest : Octets) :
    readBody header (ofWord16 length ++ ofWord16 lifetime ++
        (id.toOctets ++ ofWord32 seqno ++ ofWord16 checksum ++ [flags.bits] ++ rest)) =
      if length.toNat < fixedSize then .error (.invalidPduLength length)
      else .ok ⟨⟨header, lifetime, id, seqno, checksum, flags,
        (Tlv.decodeAll (rest.take (length.toNat - fixedSize))).tlvs⟩,
        (Tlv.decodeAll (rest.take (length.toNat - fixedSize))).truncation⟩ := by
  obtain ⟨l0, l1, hlength, hlengthWord⟩ := exists_word16 length
  obtain ⟨t0, t1, hlifetime, hlifetimeWord⟩ := exists_word16 lifetime
  obtain ⟨s0, s1, s2, s3, hseqno, hseqnoWord⟩ := exists_word32 seqno
  obtain ⟨c0, c1, hchecksum, hchecksumWord⟩ := exists_word16 checksum
  rw [hlength, hlifetime, hseqno, hchecksum]
  -- With every word in octets, the fixed part has the form that is read.
  change readBody header (l0 :: l1 :: t0 :: t1 :: _ :: _ :: _ :: _ :: _ :: _ :: _ :: _ ::
    s0 :: s1 :: s2 :: s3 :: c0 :: c1 :: flags.bits :: rest) = _
  rw [readBody, ← hlengthWord, ← hlifetimeWord, ← hseqnoWord, ← hchecksumWord]

/-- The part of an LSP that the checksum covers has the size that is left for it. -/
theorem length_covered {lsp : Lsp} (h : ∀ tlv ∈ lsp.tlvs, tlv.Canonical) :
    uncoveredSize + lsp.covered.length = lsp.size := by
  have hbody := Tlv.length_flatMap_encode h
  unfold covered size ofWord32 ofWord16
  simp only [List.length_append, length_ofNat, hbody]
  change 12 + (8 + 4 + 2 + 1 + _) = 27 + _
  omega

/-- An LSP of canonical records has the size of its fixed part and its records. -/
theorem length_encode {lsp : Lsp} (h : ∀ tlv ∈ lsp.tlvs, tlv.Canonical) :
    lsp.encode.length = lsp.size := by
  rw [← length_covered h]
  unfold encode ofWord16
  simp only [List.length_append, length_ofNat]
  rfl

/-- The octets of an LSP of canonical records, field by field. The length field has the size. -/
theorem encode_eq_fields {lsp : Lsp} (h : ∀ tlv ∈ lsp.tlvs, tlv.Canonical) :
    lsp.encode = lsp.header.encode (UInt8.ofNat fixedSize) ++
      (ofWord16 (UInt16.ofNat lsp.size) ++ ofWord16 lsp.lifetime ++
        (lsp.id.toOctets ++ ofWord32 lsp.seqno ++ ofWord16 lsp.checksum ++ [lsp.flags.bits] ++
          lsp.tlvs.flatMap Tlv.encode)) := by
  rw [encode, length_covered h, covered]
  simp only [List.append_assoc]

/-- The length field of an encodable LSP holds its size. -/
theorem Encodable.length_field {lsp : Lsp} (h : lsp.Encodable) :
    (UInt16.ofNat (uncoveredSize + lsp.covered.length)).toNat = lsp.size := by
  have hle := h.size_le
  rw [length_covered h.canonical, UInt16.toNat_ofNat', Nat.mod_eq_of_lt (by omega)]

/-- An encodable LSP is read back from its place in a frame, and its body to the end. -/
theorem Encodable.read_encode {lsp : Lsp} (h : lsp.Encodable) (pre pad : Octets) :
    read (pre ++ lsp.encode ++ pad) pre.length = .ok ⟨lsp, none⟩ := by
  have hfield : (UInt16.ofNat lsp.size).toNat = lsp.size :=
    length_covered h.canonical ▸ h.length_field
  have hfixed : fixedSize ≤ lsp.size := Nat.le_add_right _ _
  have hframe : (pre ++ lsp.encode ++ pad).drop pre.length =
      lsp.header.encode (UInt8.ofNat fixedSize) ++
        (ofWord16 (UInt16.ofNat lsp.size) ++ ofWord16 lsp.lifetime ++
          (lsp.id.toOctets ++ ofWord32 lsp.seqno ++ ofWord16 lsp.checksum ++ [lsp.flags.bits] ++
            (lsp.tlvs.flatMap Tlv.encode ++ pad))) := by
    rw [List.append_assoc, List.drop_left, encode_eq_fields h.canonical]
    simp only [List.append_assoc]
  -- The length field cuts the body off where the padding starts.
  have hbody : (lsp.tlvs.flatMap Tlv.encode ++ pad).take (lsp.size - fixedSize) =
      lsp.tlvs.flatMap Tlv.encode := by
    rw [size, Nat.add_sub_cancel_left, ← Tlv.length_flatMap_encode h.canonical, List.take_left]
  unfold read
  rw [hframe, Header.decode_encode]
  change (if lsp.header.type.isLsp then readBody lsp.header _ else _) = _
  rw [if_pos h.isLsp, readBody_fields, hfield, if_neg (Nat.not_lt.2 hfixed), hbody,
    Tlv.decodeAll_flatMap_encode h.canonical]

/-- Decoding gives the LSP that is read, and forgets what ended the reading. -/
theorem decode_eq_ok_iff {frame : Octets} {offset : Nat} {lsp : Lsp} :
    decode frame offset = .ok lsp ↔
      ∃ reading, read frame offset = .ok reading ∧ reading.lsp = lsp := by
  unfold decode
  cases read frame offset with
  | error reason => exact ⟨(fun h => by cases h), fun ⟨_, h, _⟩ => by cases h⟩
  | ok reading =>
    constructor
    · intro h
      exact ⟨reading, rfl, Except.ok.inj h⟩
    · rintro ⟨other, hother, rfl⟩
      cases hother
      rfl

/-- Whatever is read of the octets of an LSP, even of one that is too large for the length field,
has its LSP ID and its sequence number. -/
theorem id_eq_of_decode_encode {lsp found : Lsp} (h : decode lsp.encode 0 = .ok found) :
    found.id = lsp.id ∧ found.seqno = lsp.seqno := by
  obtain ⟨reading, hread, rfl⟩ := decode_eq_ok_iff.1 h
  unfold read encode covered at hread
  rw [List.drop_zero, List.append_assoc, List.append_assoc, Header.decode_encode] at hread
  change (if lsp.header.type.isLsp then readBody lsp.header _ else _) = _ at hread
  rw [← List.append_assoc, readBody_fields] at hread
  split at hread
  · split at hread
    · cases hread
    · cases hread
      exact ⟨rfl, rfl⟩
  · cases hread

/-- An encodable LSP is read back from its own octets. -/
theorem Encodable.read_self {lsp : Lsp} (h : lsp.Encodable) :
    read lsp.encode 0 = .ok ⟨lsp, none⟩ := by
  have hread := h.read_encode [] []
  rw [List.nil_append, List.append_nil] at hread
  exact hread

/-- Encodable LSPs with the same octets are equal. -/
theorem Encodable.encode_inj {a b : Lsp} (ha : a.Encodable) (hb : b.Encodable)
    (h : a.encode = b.encode) : a = b := by
  have hread := ha.read_self
  rw [h, hb.read_self] at hread
  exact (congrArg Reading.lsp (Except.ok.inj hread)).symm

/-- The encoding of an encodable LSP has the size of the LSP, its length field holds that size, and
the LSP is read back from it, whatever stands in front of it or after it in the frame. -/
theorem encode_faithful {lsp : Lsp} (h : lsp.Encodable) :
    lsp.encode.length = lsp.size ∧ toNat ((lsp.encode.drop 8).take 2) = lsp.size ∧
      ∀ pre pad, decode (pre ++ lsp.encode ++ pad) pre.length = .ok lsp := by
  refine ⟨length_encode h.canonical, ?_, fun pre pad => ?_⟩
  · -- The length field stands behind the header.
    have hplace : (lsp.encode.drop 8).take 2 =
        ofWord16 (UInt16.ofNat (uncoveredSize + lsp.covered.length)) := rfl
    rw [hplace, toNat_ofWord16, h.length_field]
  · rw [decode, h.read_encode]
    rfl

/-- An LSP with a record of every kind, one of neighbors without entries and one that is kept
verbatim because the value is too short for its type. -/
def mixed : Lsp where
  header := ⟨7, 6, .lspL2, 5, 4, 3⟩
  lifetime := 1200
  id := ⟨⟨0x19, 0x21, 0x68, 0x00, 0x10, 0x01⟩, 2, 3⟩
  seqno := 0x80000001
  checksum := 0xbeef
  flags := ⟨0xff⟩
  tlvs := [.neighbors 9 [], .unknown 128 3 [1, 2, 3], .neighbors 0 [⟨10, .zero, 1⟩],
    .prefixes [⟨⟨⟨0x0a00000b⟩, ⟨8, by decide⟩⟩, 20⟩], .addresses [⟨0xc0a80101⟩], .unknown 200 0 []]

theorem encode_faithful_mixed : mixed.Encodable ∧ mixed.encode.length = mixed.size ∧
    toNat ((mixed.encode.drop 8).take 2) = mixed.size ∧
    ∀ pre pad, decode (pre ++ mixed.encode ++ pad) pre.length = .ok mixed := by
  have h : mixed.Encodable := ⟨rfl, by decide, by decide⟩
  exact ⟨h, encode_faithful h⟩

end Lsp

end LinkState
