import LinkState.Proofs.Wire.Relay

/-!
# Frames that are cut short or padded

A frame may reach a router with octets missing at its end, or with more of them behind it. The fixed
part alone decides whether it is refused, and all fields but the records
(`Lsp.exists_decode_append`). The records are read one after the other, so that those of the front
of a body come first among those of the body (`Tlv.decodeAll_take_prefix`), and every record that
lies in the front is one of them (`Tlv.prefix_decodeAll_take`). So what is read of a frame that is
cut behind the fixed part is what was read of the whole frame, with as many of its records as the
cut has left (`Lsp.decode_take`). No record is made up of the remains of one that was cut.
-/

namespace LinkState

open Octets

namespace Tlv

/-! ### The front of a body -/

/-- Canonical records in front of a body are read back, and then what the body holds. -/
theorem decodeAll_flatMap_encode_append {tlvs : List Tlv} (h : ∀ tlv ∈ tlvs, tlv.Canonical)
    (rest : Octets) :
    decodeAll (tlvs.flatMap encode ++ rest) =
      { decodeAll rest with tlvs := tlvs ++ (decodeAll rest).tlvs } := by
  induction tlvs with
  | nil => rfl
  | cons tlv tlvs ih =>
    obtain ⟨htlv, htlvs⟩ := List.forall_mem_cons.1 h
    rw [List.flatMap_cons, List.append_assoc, decodeAll_encode_append htlv, ih htlvs]
    rfl

/-- The records of the front of a body come first among those of the body. -/
theorem decodeAll_take_prefix (body : Octets) (n : Nat) :
    (decodeAll (body.take n)).tlvs <+: (decodeAll body).tlvs := by
  obtain ⟨hcanonical, hwhole⟩ := isWholePart_decodeAll (body.take n)
  obtain ⟨tail, htail⟩ := hwhole.initial
  -- The whole records of the front stand in front of the body as well.
  have hbody : (decodeAll (body.take n)).tlvs.flatMap encode ++ (tail ++ body.drop n) = body := by
    rw [← List.append_assoc, htail, List.take_append_drop]
  have hread := decodeAll_flatMap_encode_append hcanonical (tail ++ body.drop n)
  rw [hbody] at hread
  rw [hread]
  exact List.prefix_append _ _

/-- The octets of the first records of a body stand in front of it. -/
theorem encode_prefix_of_prefix {body : Octets} {tlvs : List Tlv}
    (h : tlvs <+: (decodeAll body).tlvs) :
    (∀ tlv ∈ tlvs, tlv.Canonical) ∧ tlvs.flatMap encode <+: body := by
  obtain ⟨hcanonical, hwhole⟩ := isWholePart_decodeAll body
  obtain ⟨others, hothers⟩ := h
  rw [← hothers] at hcanonical hwhole
  refine ⟨fun tlv htlv => hcanonical tlv (List.mem_append_left others htlv), ?_⟩
  refine List.IsPrefix.trans ?_ hwhole.initial
  rw [List.flatMap_append]
  exact List.prefix_append _ _

/-- The first records of a body are read of its front if the front has room for them. -/
theorem prefix_decodeAll_take {body : Octets} {tlvs : List Tlv} {n : Nat}
    (h : tlvs <+: (decodeAll body).tlvs) (hfits : (tlvs.map size).sum ≤ n) :
    tlvs <+: (decodeAll (body.take n)).tlvs := by
  obtain ⟨hcanonical, hoctets⟩ := encode_prefix_of_prefix h
  rw [← length_flatMap_encode hcanonical] at hfits
  obtain ⟨rest, hrest⟩ := List.prefix_take_iff.2 ⟨hoctets, hfits⟩
  rw [← hrest, decodeAll_flatMap_encode_append hcanonical]
  exact List.prefix_append _ _

end Tlv

/-! ### The fixed part -/

/-- The first eight octets decide whether a header is read, and which one. -/
theorem Header.exists_decode_append {front : Octets} (h : front.length = 8) :
    (∃ reason, ∀ rest, decode (front ++ rest) = .error reason) ∨
      ∃ header, ∀ rest, decode (front ++ rest) = .ok (header, rest) := by
  match front, h with
  | [start, fixed, protoExt, idLen, octet, version, reserved, areas], _ =>
    simp only [List.cons_append, List.nil_append, decode]
    by_cases hstart : start ≠ discriminator
    · simp only [if_pos hstart]
      exact Or.inl ⟨_, fun _ => rfl⟩
    · simp only [if_neg hstart]
      cases PduType.ofCode? (PduType.codeOfOctet octet) with
      | none => exact Or.inl ⟨_, fun _ => rfl⟩
      | some type => exact Or.inr ⟨_, fun _ => rfl⟩

namespace Lsp

/-- The nineteen octets behind the header decide whether an LSP is read, and what is read of it
except for the records. Of these its length field says where they end. -/
theorem exists_readBody_append (header : Header) {front : Octets} (h : front.length = 19) :
    (∃ reason, ∀ body, readBody header (front ++ body) = .error reason) ∨
      ∃ lsp : Lsp, ∀ body, (·.lsp) <$> readBody header (front ++ body) = .ok { lsp with
        tlvs := (Tlv.decodeAll (body.take (toNat (front.take 2) - fixedSize))).tlvs } := by
  match front, h with
  | [l0, l1, t0, t1, i0, i1, i2, i3, i4, i5, i6, i7, s0, s1, s2, s3, c0, c1, flags], _ =>
    change _ ∨ ∃ lsp : Lsp, ∀ body : Octets, _ = Except.ok { lsp with
      tlvs := (Tlv.decodeAll (body.take (toNat [l0, l1] - fixedSize))).tlvs }
    simp only [List.cons_append, List.nil_append, readBody, ← toNat_word16]
    by_cases hlength : (word16 l0 l1).toNat < fixedSize
    · simp only [if_pos hlength]
      exact Or.inl ⟨_, fun _ => rfl⟩
    · simp only [if_neg hlength]
      exact Or.inr ⟨⟨_, _, _, _, _, _, []⟩, fun _ => rfl⟩

/-- The fixed part decides whether a frame is refused and why, and what is read of it except for the
records. Of these its length field says where they end. -/
theorem exists_decode_append {fixed : Octets} (h : fixed.length = fixedSize) :
    (∃ reason, ∀ body, decode (fixed ++ body) 0 = .error reason) ∨
      ∃ lsp : Lsp, ∀ body, decode (fixed ++ body) 0 = .ok { lsp with tlvs :=
        (Tlv.decodeAll (body.take (toNat ((fixed.drop 8).take 2) - fixedSize))).tlvs } := by
  have hheader : (fixed.take 8).length = 8 := List.length_take_of_le (h ▸ by decide)
  have hrest : (fixed.drop 8).length = 19 := by rw [List.length_drop, h]; rfl
  have hsplit (body : Octets) : decode (fixed ++ body) 0 = (·.lsp) <$> (do
      let read ← Header.decode (fixed.take 8 ++ (fixed.drop 8 ++ body))
      if read.1.type.isLsp then readBody read.1 read.2
      else .error (.unexpectedPduType read.1.type.code)) := by
    rw [← List.append_assoc, List.take_append_drop]
    rfl
  simp only [hsplit]
  rcases Header.exists_decode_append hheader with ⟨reason, hrefused⟩ | ⟨header, hread⟩
  · simp only [hrefused]
    exact Or.inl ⟨reason, fun _ => rfl⟩
  · simp only [hread]
    change (∃ reason, ∀ body, (·.lsp) <$> (if header.type.isLsp then readBody header _ else _) =
      Except.error reason) ∨ ∃ lsp : Lsp, ∀ body,
        (·.lsp) <$> (if header.type.isLsp then readBody header _ else _) = _
    by_cases hlsp : header.type.isLsp
    · simp only [if_pos hlsp]
      rcases exists_readBody_append header hrest with ⟨reason, hrefused⟩ | hread
      · simp only [hrefused]
        exact Or.inl ⟨reason, fun _ => rfl⟩
      · exact Or.inr hread
    · simp only [if_neg hlsp]
      exact Or.inl ⟨_, fun _ => rfl⟩

/-! ### Cutting a frame -/

/-- What is read of a frame of `octets` octets when the whole of it is read as another LSP: the same
fields, and of the records as many from the first one on as the frame has room for. -/
structure IsCut (octets : Nat) (short long : Lsp) : Prop where
  fields_eq : { short with tlvs := long.tlvs } = long
  tlvs_prefix : short.tlvs <+: long.tlvs
  size_le : short.size ≤ octets
  longest : ∀ tlvs, tlvs <+: long.tlvs → fixedSize + (tlvs.map Tlv.size).sum ≤ octets →
    tlvs <+: short.tlvs

/-- Cutting the body of an LSP cuts the LSP. -/
theorem isCut_take (lsp : Lsp) (body : Octets) {n : Nat} (hn : fixedSize ≤ n) :
    IsCut n { lsp with tlvs := (Tlv.decodeAll (body.take (n - fixedSize))).tlvs }
      { lsp with tlvs := (Tlv.decodeAll body).tlvs } where
  fields_eq := rfl
  tlvs_prefix := Tlv.decodeAll_take_prefix body _
  size_le := by
    obtain ⟨hcanonical, hoctets⟩ := Tlv.encode_prefix_of_prefix (List.prefix_refl
      (Tlv.decodeAll (body.take (n - fixedSize))).tlvs)
    have hle := Nat.le_trans hoctets.length_le (List.length_take_le _ _)
    rw [Tlv.length_flatMap_encode hcanonical] at hle
    unfold size
    dsimp only
    omega
  longest tlvs htlvs hfits := Tlv.prefix_decodeAll_take htlvs (by omega)

/-- A frame that is cut behind the fixed part is refused for the same reason as the whole one, or
both are read, and of the records those are missing that the cut has not left whole. None is missing
if the cut is not in front of where the length field says that the LSP ends. -/
theorem decode_take {frame : Octets} {n : Nat} (hfixed : 27 ≤ n) (hn : n ≤ frame.length) :
    (∃ reason, decode (frame.take n) 0 = .error reason ∧ decode frame 0 = .error reason) ∨
      ∃ short long, decode (frame.take n) 0 = .ok short ∧ decode frame 0 = .ok long ∧
        IsCut n short long ∧ (toNat ((frame.drop 8).take 2) ≤ n → short = long) := by
  -- Both frames are the fixed part and a body, and the body of the cut frame is cut.
  have hlength : (frame.take 27).length = fixedSize := List.length_take_of_le (by omega)
  have hframe : frame.take 27 ++ frame.drop 27 = frame := List.take_append_drop 27 frame
  have hcut : frame.take 27 ++ (frame.drop 27).take (n - 27) = frame.take n := by
    rw [← List.take_add, Nat.add_sub_cancel' hfixed]
  have hfield : ((frame.take 27).drop 8).take 2 = (frame.drop 8).take 2 := by
    rw [List.drop_take, List.take_take]
    rfl
  rcases exists_decode_append hlength with ⟨reason, hrefused⟩ | ⟨lsp, hread⟩
  · refine Or.inl ⟨reason, ?_, ?_⟩
    · rw [← hcut, hrefused]
    · rw [← hframe, hrefused]
  · have hshort := hread ((frame.drop 27).take (n - 27))
    have hlong := hread (frame.drop 27)
    rw [hcut, hfield] at hshort
    rw [hframe, hfield] at hlong
    generalize toNat ((frame.drop 8).take 2) = length at hshort hlong ⊢
    -- The length field bounds the body before the cut as well as after it.
    rw [List.take_take, Nat.min_comm, ← List.take_take] at hshort
    refine Or.inr ⟨_, _, hshort, hlong, isCut_take lsp _ hfixed, fun h => ?_⟩
    have hpadding : ((frame.drop 27).take (length - fixedSize)).length ≤ n - 27 :=
      Nat.le_trans (List.length_take_le _ _) (Nat.sub_le_sub_right h 27)
    rw [List.take_of_length_le hpadding]

/-- The irregular frame, cut inside its second record. -/
theorem decode_take_irregular : 27 ≤ 40 ∧ 40 ≤ irregular.length ∧
    decode irregular 0 = .ok irregularLsp ∧
    decode (irregular.take 40) 0 = .ok { irregularLsp with tlvs := [.unknown 132 3 [10, 0, 0]] } ∧
    ((∃ reason, decode (irregular.take 40) 0 = .error reason ∧
        decode irregular 0 = .error reason) ∨
      ∃ short long, decode (irregular.take 40) 0 = .ok short ∧ decode irregular 0 = .ok long ∧
        IsCut 40 short long ∧ (toNat ((irregular.drop 8).take 2) ≤ 40 → short = long)) := by
  have hfixed : 27 ≤ 40 := by decide
  have hn : 40 ≤ irregular.length := by decide
  have hlong : decode irregular 0 = .ok irregularLsp := by cbv
  have hshort : decode (irregular.take 40) 0 =
      .ok { irregularLsp with tlvs := [.unknown 132 3 [10, 0, 0]] } := by cbv
  exact ⟨hfixed, hn, hlong, hshort, decode_take hfixed hn⟩

end Lsp

end LinkState
