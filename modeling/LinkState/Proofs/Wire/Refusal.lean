import LinkState.Proofs.Wire.Relay

/-!
# Which frames are refused, and why

The reader looks at a PDU in six steps, and the first one that fails names the reason: eight octets
of header, the discriminator, a type that is known, a type that is an LSP, the whole fixed part, and
a length field that counts at least the fixed part. `Lsp.refusal?` says this of the octets alone.
The steps are spread over the reader of the header, which looks at all of the PDU, and that of the
fixed part, which looks at what the header has left (`reason?_readBody`). Nothing else is refused,
whatever stands in the body (`reason?_read`, `decode_refused_iff`).
-/

namespace LinkState

open Octets

namespace PduType

/-- No type is found under a code that is not one of the nine. -/
theorem ofCode?_eq_none_iff {code : UInt8} : ofCode? code = none ↔ code ∉ all.map PduType.code := by
  unfold ofCode?
  simp

/-- The codes of the types that carry an LSP. -/
theorem isLsp_iff {type : PduType} :
    type.isLsp ↔ type.code = lspL1.code ∨ type.code = lspL2.code := by
  cases type <;> decide

end PduType

/-! ### Reasons -/

/-- The reason for which something is refused, if it is refused. -/
def reason? {α : Type} : Except DecodeError α → Option DecodeError
  | .error reason => some reason
  | .ok _ => none

theorem reason?_eq_some_iff {α : Type} {result : Except DecodeError α} {reason : DecodeError} :
    reason? result = some reason ↔ result = .error reason := by
  cases result <;> simp [reason?]

theorem reason?_eq_none_iff {α : Type} {result : Except DecodeError α} :
    reason? result = none ↔ ∃ a, result = .ok a := by
  cases result <;> simp [reason?]

theorem reason?_map {α β : Type} (f : α → β) (result : Except DecodeError α) :
    reason? (f <$> result) = reason? result := by
  cases result <;> rfl

namespace Lsp

/-- The reader of the fixed part needs all of its octets, and only the length field can be wrong. -/
theorem reason?_readBody (header : Header) (rest : Octets) :
    reason? (readBody header rest) =
      if rest.length < 19 then some .incompletePdu
      else if toNat (rest.take 2) < 27 then
        some (.invalidPduLength (UInt16.ofNat (toNat (rest.take 2))))
      else none := by
  rcases Nat.lt_or_ge rest.length 19 with hshort | hlong
  · rw [if_pos hshort]
    unfold readBody
    split
    · simp only [List.length_cons] at hshort
      omega
    · rfl
  · rw [if_neg (Nat.not_lt.2 hlong)]
    obtain ⟨l0, l1, t0, t1, i0, i1, i2, i3, i4, i5, i6, i7, s0, s1, s2, s3, c0, c1, flags, body,
        rfl⟩ : ∃ l0 l1 t0 t1 i0 i1 i2 i3 i4 i5 i6 i7 s0 s1 s2 s3 c0 c1 flags body,
          rest = l0 :: l1 :: t0 :: t1 :: i0 :: i1 :: i2 :: i3 :: i4 :: i5 :: i6 :: i7 :: s0 :: s1 ::
            s2 :: s3 :: c0 :: c1 :: flags :: body :=
      ⟨rest[0], rest[1], rest[2], rest[3], rest[4], rest[5], rest[6], rest[7], rest[8], rest[9],
        rest[10], rest[11], rest[12], rest[13], rest[14], rest[15], rest[16], rest[17], rest[18],
        rest.drop 19, by simp only [List.getElem_cons_drop, List.drop_zero]⟩
    change reason? (if (word16 l0 l1).toNat < 27 then _ else _) =
      if toNat [l0, l1] < 27 then _ else _
    rw [toNat_word16]
    split <;> rfl

/-- The reason for which the reader refuses a PDU, if it refuses it. -/
def refusal? (pdu : Octets) : Option DecodeError :=
  let code := pdu.getD 4 0 &&& 0x1f
  let length := toNat ((pdu.drop 8).take 2)
  if pdu.length < 8 then some .incompletePdu
  else if pdu.getD 0 0 ≠ 0x83 then some (.invalidDiscriminator (pdu.getD 0 0))
  else if code ∉ PduType.all.map PduType.code then some (.unknownPduType code)
  else if code ≠ PduType.lspL1.code ∧ code ≠ PduType.lspL2.code then some (.unexpectedPduType code)
  else if pdu.length < 27 then some .incompletePdu
  else if length < 27 then some (.invalidPduLength (UInt16.ofNat length))
  else none

example : PduType.all.map PduType.code = [15, 16, 17, 18, 20, 24, 25, 26, 27] := by decide

/-- The steps behind the first one, for a PDU with all octets of a header. -/
theorem refusal?_cons (start fixed protoExt idLen octet version reserved areas : UInt8)
    (rest : Octets) :
    refusal? (start :: fixed :: protoExt :: idLen :: octet :: version :: reserved :: areas ::
        rest) =
      let code := PduType.codeOfOctet octet
      if start ≠ discriminator then some (.invalidDiscriminator start)
      else if code ∉ PduType.all.map PduType.code then some (.unknownPduType code)
      else if code ≠ PduType.lspL1.code ∧ code ≠ PduType.lspL2.code then
        some (.unexpectedPduType code)
      else if rest.length < 19 then some .incompletePdu
      else if toNat (rest.take 2) < 27 then
        some (.invalidPduLength (UInt16.ofNat (toNat (rest.take 2))))
      else none := by
  have hheader : ¬rest.length + 8 < 8 := by omega
  have hsize : rest.length + 8 < 27 ↔ rest.length < 19 := by omega
  rw [PduType.codeOfOctet_eq_and, ← if_congr hsize rfl rfl]
  change (if rest.length + 8 < 8 then some .incompletePdu else _) = _
  rw [if_neg hheader]
  rfl

/-- What the reader refuses is decided by the six steps. -/
theorem reason?_read (frame : Octets) (offset : Nat) :
    reason? (read frame offset) = refusal? (frame.drop offset) := by
  unfold read
  generalize frame.drop offset = pdu
  rcases Nat.lt_or_ge pdu.length 8 with hshort | hlong
  · have hrefusal : refusal? pdu = some .incompletePdu := if_pos hshort
    rw [hrefusal]
    unfold Header.decode
    split
    · simp only [List.length_cons] at hshort
      omega
    · rfl
  · obtain ⟨start, fixed, protoExt, idLen, octet, version, reserved, areas, rest, rfl⟩ :
        ∃ start fixed protoExt idLen octet version reserved areas rest,
          pdu = start :: fixed :: protoExt :: idLen :: octet :: version :: reserved :: areas ::
            rest :=
      ⟨pdu[0], pdu[1], pdu[2], pdu[3], pdu[4], pdu[5], pdu[6], pdu[7], pdu.drop 8,
        by simp only [List.getElem_cons_drop, List.drop_zero]⟩
    rw [refusal?_cons]
    unfold Header.decode
    dsimp only
    split
    · rfl
    · cases htype : PduType.ofCode? (PduType.codeOfOctet octet) with
      | none =>
        rw [if_pos (PduType.ofCode?_eq_none_iff.1 htype)]
        rfl
      | some type =>
        have hcode := PduType.ofCode?_eq_some_iff.1 htype
        have hknown : type.code ∈ PduType.all.map PduType.code := by cases type <;> decide
        rw [← hcode, if_neg (not_not_intro hknown)]
        change reason? (if type.isLsp then readBody _ rest else _) = _
        by_cases hlsp : type.isLsp
        · have hbody : ¬(type.code ≠ PduType.lspL1.code ∧ type.code ≠ PduType.lspL2.code) := by
            rw [← not_or]
            exact not_not_intro (PduType.isLsp_iff.1 hlsp)
          rw [if_pos hlsp, if_neg hbody, reason?_readBody]
        · have hother : type.code ≠ PduType.lspL1.code ∧ type.code ≠ PduType.lspL2.code :=
            not_or.1 fun h => hlsp (PduType.isLsp_iff.2 h)
          rw [if_neg hlsp, if_pos hother]
          rfl

/-- The reader refuses a PDU, at its place in a frame, for the reason that the first failing step
names, and it accepts every PDU at which no step fails. -/
theorem decode_refused_iff (frame : Octets) (offset : Nat) :
    (∀ reason, decode frame offset = .error reason ↔
        refusal? (frame.drop offset) = some reason) ∧
      ((∃ lsp, decode frame offset = .ok lsp) ↔ refusal? (frame.drop offset) = none) := by
  have hdecode : reason? (decode frame offset) = refusal? (frame.drop offset) :=
    (reason?_map _ _).trans (reason?_read frame offset)
  rw [← hdecode, reason?_eq_none_iff]
  exact ⟨fun reason => reason?_eq_some_iff.symm, Iff.rfl⟩

end Lsp

end LinkState
