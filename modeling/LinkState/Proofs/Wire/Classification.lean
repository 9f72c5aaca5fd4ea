import LinkState.Wire.Frame
import LinkState.Proofs.Wire.Refusal

/-!
# Sorting frames agrees with reading them

A frame is sorted by its discriminator and its type before anyone reads it, and only five octets
behind the outer header are wanted for that. The reader of LSPs looks at the same two octets, but it
wants a whole header first. Whatever a frame is sorted as, its PDU is handed over as it is
(`Frame.payload_of_classify`). If there is a whole header, then a frame that is not sorted is
refused by the reader for the same reason, one that is sorted as a hello is refused for its type,
and one that is sorted as an LSP can fail only by its size (`Frame.classify_cases`). So no LSP that
can be read is lost on the way to the reader (`Frame.classify_agrees`).
-/

namespace LinkState

namespace Lsp

/-- The reader of LSPs wants a whole header. -/
theorem decode_of_short {frame : Octets} {offset : Nat} (h : (frame.drop offset).length < 8) :
    decode frame offset = .error .incompletePdu := by
  rw [← reason?_eq_some_iff, decode, reason?_map, reason?_read]
  exact if_pos h

/-- The reader of the fixed part can fail only by the size of what is left. -/
theorem readBody_cases (header : Header) (rest : Octets) :
    (∃ reading, readBody header rest = .ok reading) ∨
      readBody header rest = .error .incompletePdu ∨
      ∃ length, readBody header rest = .error (.invalidPduLength length) := by
  simp only [← reason?_eq_none_iff, ← reason?_eq_some_iff, reason?_readBody]
  split
  · exact Or.inr (Or.inl rfl)
  · split
    · exact Or.inr (Or.inr ⟨_, rfl⟩)
    · exact Or.inl rfl

/-- An LSP lies in a frame where the outer header ends. -/
theorem decode_drop (frame : Octets) (offset : Nat) :
    decode (frame.drop offset) 0 = decode frame offset := by
  unfold decode read
  rw [List.drop_zero]

end Lsp

namespace Frame

/-- A frame without five octets behind the outer header is not sorted. -/
theorem classify_of_short {frame : Octets} {offset : Nat} (h : (frame.drop offset).length < 5) :
    classify frame offset = .error .incompletePdu := by
  unfold classify
  dsimp only
  split
  · rename_i hpayload
    rw [hpayload] at h
    simp only [List.length_cons] at h
    omega
  · rfl

/-- Whatever a frame is sorted as, its PDU is handed over as it is. -/
theorem payload_of_classify {frame : Octets} {offset : Nat} {sorted : Frame}
    (h : classify frame offset = .ok sorted) :
    sorted = .hello (frame.drop offset) ∨ sorted = .lsp (frame.drop offset) := by
  unfold classify at h
  dsimp only at h
  split at h
  · split at h
    · cases h
    · split at h
      · cases h
      · split at h
        · exact Or.inl (Except.ok.inj h).symm
        · split at h
          · exact Or.inr (Except.ok.inj h).symm
          · cases h
  · cases h

/-- What becomes of a frame with a whole header, and what the reader of LSPs makes of it. -/
theorem classify_cases {frame : Octets} {offset : Nat} (h : 8 ≤ (frame.drop offset).length) :
    (∃ reason, classify frame offset = .error reason ∧
        Lsp.decode frame offset = .error reason) ∨
      (classify frame offset = .ok (.hello (frame.drop offset)) ∧ Lsp.decode frame offset =
        .error (.unexpectedPduType ((frame.drop offset).getD 4 0 &&& 0x1f))) ∨
      (classify frame offset = .ok (.lsp (frame.drop offset)) ∧
        ((∃ lsp, Lsp.decode frame offset = .ok lsp) ∨
          Lsp.decode frame offset = .error .incompletePdu ∨
          ∃ length, Lsp.decode frame offset = .error (.invalidPduLength length))) := by
  unfold classify Lsp.decode Lsp.read
  generalize frame.drop offset = payload at h ⊢
  obtain ⟨start, fixed, protoExt, idLen, octet, version, reserved, areas, rest, rfl⟩ :
      ∃ start fixed protoExt idLen octet version reserved areas rest,
        payload = start :: fixed :: protoExt :: idLen :: octet :: version :: reserved :: areas ::
          rest :=
    ⟨payload[0], payload[1], payload[2], payload[3], payload[4], payload[5], payload[6], payload[7],
      payload.drop 8, by simp only [List.getElem_cons_drop, List.drop_zero]⟩
  unfold Header.decode
  dsimp only
  by_cases hstart : start ≠ discriminator
  · rw [if_pos hstart, if_pos hstart]
    exact Or.inl ⟨_, rfl, rfl⟩
  · rw [if_neg hstart, if_neg hstart]
    cases htype : PduType.ofCode? (PduType.codeOfOctet octet) with
    | none => exact Or.inl ⟨_, rfl, rfl⟩
    | some type =>
      have hcode : PduType.codeOfOctet octet = type.code :=
        (PduType.ofCode?_eq_some_iff.1 htype).symm
      have hread : (Except.ok (⟨protoExt, idLen, type, version, reserved, areas⟩, rest) >>=
          fun read : Header × Octets => if read.1.type.isLsp then Lsp.readBody read.1 read.2
            else .error (.unexpectedPduType read.1.type.code)) =
          if type.isLsp then Lsp.readBody ⟨protoExt, idLen, type, version, reserved, areas⟩ rest
          else .error (.unexpectedPduType type.code) := rfl
      rw [hcode]
      dsimp only
      rw [hread]
      by_cases hlsp : type.isLsp
      · have hhello : ¬type.isHello := by
          revert hlsp
          cases type <;> decide
        refine Or.inr (Or.inr ⟨?_, ?_⟩)
        · rw [if_neg hhello, if_pos hlsp]
        · rw [if_pos hlsp]
          rcases Lsp.readBody_cases ⟨protoExt, idLen, type, version, reserved, areas⟩ rest with
            ⟨reading, hbody⟩ | hbody | ⟨length, hbody⟩
          · rw [hbody]
            exact Or.inl ⟨_, rfl⟩
          · rw [hbody]
            exact Or.inr (Or.inl rfl)
          · rw [hbody]
            exact Or.inr (Or.inr ⟨_, rfl⟩)
      · rw [if_neg hlsp, if_neg hlsp]
        by_cases hhello : type.isHello
        · have hoctet : octet &&& 0x1f = type.code :=
            (PduType.codeOfOctet_eq_and octet).symm.trans hcode
          refine Or.inr (Or.inl ⟨if_pos hhello, ?_⟩)
          rw [← hoctet]
          rfl
        · exact Or.inl ⟨_, if_neg hhello, rfl⟩

/-- Sorting a frame and reading an LSP from it agree. An LSP that can be read is sorted as one. What
is sorted as an LSP is the PDU of the frame, and it can be read or is refused for its size. Where
fewer than five octets follow the outer header, both refuse the frame. Where at least eight follow,
a frame that is not sorted is refused by the reader for the same reason, and what is sorted as a
hello is the PDU of the frame, and the reader refuses it for its type. -/
theorem classify_agrees (frame : Octets) (offset : Nat) :
    (∀ lsp, Lsp.decode frame offset = .ok lsp →
        classify frame offset = .ok (.lsp (frame.drop offset))) ∧
      (∀ pdu, classify frame offset = .ok (.lsp pdu) → pdu = frame.drop offset ∧
        ((∃ lsp, Lsp.decode pdu 0 = .ok lsp) ∨ Lsp.decode pdu 0 = .error .incompletePdu ∨
          ∃ length, Lsp.decode pdu 0 = .error (.invalidPduLength length))) ∧
      (frame.length < offset + 5 → classify frame offset = .error .incompletePdu ∧
        Lsp.decode frame offset = .error .incompletePdu) ∧
      (offset + 8 ≤ frame.length →
        (∀ reason, classify frame offset = .error reason →
          Lsp.decode frame offset = .error reason) ∧
        ∀ pdu, classify frame offset = .ok (.hello pdu) → pdu = frame.drop offset ∧
          Lsp.decode frame offset =
            .error (.unexpectedPduType (frame.getD (offset + 4) 0 &&& 0x1f))) := by
  have hlength : (frame.drop offset).length = frame.length - offset := List.length_drop
  have hoctet : (frame.drop offset).getD 4 0 = frame.getD (offset + 4) 0 := by
    rw [List.getD_eq_getElem?_getD, List.getElem?_drop, List.getD_eq_getElem?_getD]
  refine ⟨fun lsp hread => ?_, fun pdu hsorted => ?_, fun hshort => ?_, fun hlong => ?_⟩
  · rcases Nat.lt_or_ge (frame.drop offset).length 8 with hshort | hheader
    · cases (Lsp.decode_of_short hshort).symm.trans hread
    · rcases classify_cases hheader with ⟨reason, -, hrefused⟩ | ⟨-, hrefused⟩ | ⟨hsorted, -⟩
      · cases hrefused.symm.trans hread
      · cases hrefused.symm.trans hread
      · exact hsorted
  · obtain rfl : pdu = frame.drop offset := by
      rcases payload_of_classify hsorted with heq | heq
      · cases heq
      · exact Frame.lsp.inj heq
    refine ⟨rfl, ?_⟩
    rw [Lsp.decode_drop]
    -- Five octets are enough to be sorted as an LSP, but not to be read.
    rcases Nat.lt_or_ge (frame.drop offset).length 8 with hshort | hheader
    · exact Or.inr (Or.inl (Lsp.decode_of_short hshort))
    · rcases classify_cases hheader with ⟨reason, hother, -⟩ | ⟨hother, -⟩ | ⟨-, hread⟩
      · cases hother.symm.trans hsorted
      · cases hother.symm.trans hsorted
      · exact hread
  · exact ⟨classify_of_short (by omega), Lsp.decode_of_short (by omega)⟩
  · have hheader : 8 ≤ (frame.drop offset).length := by omega
    refine ⟨fun reason hsorted => ?_, fun pdu hsorted => ?_⟩
    · rcases classify_cases hheader with ⟨other, hother, hrefused⟩ | ⟨hother, -⟩ | ⟨hother, -⟩
      · rw [hrefused, Except.error.inj (hother.symm.trans hsorted)]
      · cases hother.symm.trans hsorted
      · cases hother.symm.trans hsorted
    · rcases classify_cases hheader with ⟨other, hother, -⟩ | ⟨hother, hrefused⟩ | ⟨hother, -⟩
      · cases hother.symm.trans hsorted
      · cases hother.symm.trans hsorted
        exact ⟨rfl, hoctet ▸ hrefused⟩
      · cases hother.symm.trans hsorted

-- Five octets are enough to be sorted, but the reader wants more of them.
example : classify [0x83, 27, 1, 0, 0x32] 0 = .ok (.lsp [0x83, 27, 1, 0, 0x32]) ∧
    Lsp.decode [0x83, 27, 1, 0, 0x32] 0 = .error .incompletePdu := by decide

end Frame

end LinkState
