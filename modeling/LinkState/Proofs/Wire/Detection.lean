import LinkState.Proofs.Wire.Checksum

/-!
# Which changes the checksum detects

Since 256 is 1 modulo 255, the plain sum of an octet string and the number that it writes are the
same modulo 255 (`total_modEq`). So the plain sum shows a change of a number unless the new number
is the same modulo 255, however many of its octets change with it. The plain sum shows a change of a
single octet too, unless the new octet is the same modulo 255. In that case, which is zero in place
of 255 or 255 in place of zero, the other sum does not show it either (`isValid_replace_iff`).
-/

namespace LinkState

open Octets

namespace Checksum

/-- The number that octets write is their sum modulo 255. -/
theorem total_modEq (octets : Octets) : total octets ≡ toNat octets [MOD 255] := by
  induction octets using List.reverseRecOn with
  | nil => rfl
  | append_singleton octets last ih =>
    have hlast : total [last] = last.toNat := by simp [total]
    rw [total_append, toNat_concat, hlast]
    unfold Nat.ModEq at *
    omega

/-- A covered part is intact exactly if the two sums are multiples of 255. -/
theorem isValid_iff_modEq (octets : Octets) :
    isValid octets ↔ total octets ≡ 0 [MOD 255] ∧ weight octets ≡ 0 [MOD 255] := by
  rw [isValid_iff, ← Int.natCast_modEq_iff, ← Int.natCast_modEq_iff]
  rfl

/-- Two intact strings have the same plain sum modulo 255. -/
theorem total_modEq_total {a b : Octets} (ha : isValid a) (hb : isValid b) :
    total a ≡ total b [MOD 255] :=
  ((isValid_iff_modEq a).1 ha).1.trans ((isValid_iff_modEq b).1 hb).1.symm

/-- An octet that takes the place of another one in an intact string leaves it intact if and only if
it is the same modulo 255. -/
theorem isValid_replace_iff {before after : Octets} {old new : UInt8}
    (h : isValid (before ++ old :: after)) :
    isValid (before ++ new :: after) ↔ new.toNat ≡ old.toNat [MOD 255] := by
  have htotal (octet : UInt8) : total (before ++ octet :: after) =
      total before + total after + octet.toNat := by
    simp only [total, List.map_append, List.map_cons, List.sum_append, List.sum_cons]
    omega
  have hweight (octet : UInt8) : weight (before ++ octet :: after) =
      weight before + (after.length + 1) * total before + weight after +
        (after.length + 1) * octet.toNat := by
    rw [weight_append, weight, List.length_cons]
    ring
  constructor
  · intro hnew
    have hsums := total_modEq_total hnew h
    rw [htotal, htotal] at hsums
    exact Nat.ModEq.add_left_cancel' _ hsums
  · intro hsame
    rw [isValid_iff_modEq, htotal, hweight] at h ⊢
    -- In the other sum both octets count equally often.
    exact ⟨(hsame.add_left _).trans h.1, ((hsame.mul_left _).add_left _).trans h.2⟩

end Checksum

namespace Lsp

/-- The covered part of an LSP with another sequence number. -/
theorem covered_seqno (lsp : Lsp) (seqno : UInt32) :
    ({ lsp with seqno := seqno } : Lsp).covered =
      lsp.id.toOctets ++ (ofWord32 seqno ++
        (ofWord16 lsp.checksum ++ [lsp.flags.bits] ++ lsp.tlvs.flatMap Tlv.encode)) := by
  simp only [covered, List.append_assoc]

/-- If the checksum of an LSP is valid, it is so no longer with a sequence number that is another
one modulo 255. The checksum of an LSP that is written like it but for one octet of the covered part
is valid if and only if that octet is the same modulo 255. -/
theorem isChecksumValid_detects {lsp : Lsp} (hvalid : lsp.isChecksumValid) :
    (∀ seqno : UInt32, ¬seqno.toNat ≡ lsp.seqno.toNat [MOD 255] →
      ¬({ lsp with seqno := seqno } : Lsp).isChecksumValid) ∧
    ∀ (other : Lsp) (place : Nat) (old new : UInt8), 12 ≤ place →
      lsp.encode[place]? = some old → other.encode = lsp.encode.set place new →
      (other.isChecksumValid ↔ new.toNat ≡ old.toNat [MOD 255]) := by
  constructor
  · intro seqno hne hother
    have hsums := Checksum.total_modEq_total hother hvalid
    rw [covered_seqno, show lsp.covered = _ from covered_seqno lsp lsp.seqno] at hsums
    simp only [Checksum.total_append] at hsums
    -- Only the sequence number differs, and its octets have its number for their sum.
    have hwords := Nat.ModEq.add_right_cancel' _ (Nat.ModEq.add_left_cancel' _ hsums)
    apply hne
    calc seqno.toNat = toNat (ofWord32 seqno) := (toNat_ofWord32 seqno).symm
      _ ≡ Checksum.total (ofWord32 seqno) [MOD 255] := (Checksum.total_modEq _).symm
      _ ≡ Checksum.total (ofWord32 lsp.seqno) [MOD 255] := hwords
      _ ≡ toNat (ofWord32 lsp.seqno) [MOD 255] := Checksum.total_modEq _
      _ = lsp.seqno.toNat := toNat_ofWord32 lsp.seqno
  · intro other place old new hplace hold hother
    obtain ⟨place, rfl⟩ : ∃ rest, place = uncoveredSize + rest := Nat.exists_eq_add_of_le hplace
    -- The place is one of the covered part, which is what the check sees.
    have hold' : lsp.covered[place]? = some old := by
      rw [← drop_encode, List.getElem?_drop, hold]
    have hnew : other.covered = lsp.covered.set place new := by
      rw [← drop_encode, ← drop_encode, hother, List.drop_set, if_neg (by omega),
        Nat.add_sub_cancel_left]
    obtain ⟨hlt, hget⟩ := List.getElem?_eq_some_iff.1 hold'
    have hsplit : lsp.covered = lsp.covered.take place ++ old :: lsp.covered.drop (place + 1) := by
      rw [← hget, List.getElem_cons_drop, List.take_append_drop]
    unfold isChecksumValid at hvalid ⊢
    rw [hnew, List.set_eq_take_append_cons_drop, if_pos hlt]
    rw [hsplit] at hvalid
    exact Checksum.isValid_replace_iff hvalid

/-- The sequence number after 255 changes two octets, by one up and by 255 down. The checksum
detects it. It detects another flag as well, but not that a zero octet of the system ID became
255. -/
theorem isChecksumValid_detects_carry :
    let lsp := originate .lspL2 1200 (.ofSystem ⟨0x00, 0x21, 0x68, 0x00, 0x10, 0x01⟩) 255 ⟨1⟩
      [.neighbors 0 [⟨10, .zero, 0⟩]]
    lsp.isChecksumValid ∧ ¬({ lsp with seqno := 256 } : Lsp).isChecksumValid ∧
      ¬({ lsp with flags := ⟨2⟩ } : Lsp).isChecksumValid ∧
      ({ lsp with id := .ofSystem ⟨0xff, 0x21, 0x68, 0x00, 0x10, 0x01⟩ } :
        Lsp).isChecksumValid := by
  intro lsp
  have hvalid : lsp.isChecksumValid := by decide +kernel
  obtain ⟨hseqno, hoctet⟩ := isChecksumValid_detects hvalid
  refine ⟨hvalid, hseqno 256 (by decide), ?_, ?_⟩
  · rw [hoctet _ 26 1 2 (by decide) (by decide +kernel) (by decide +kernel)]
    decide
  · rw [hoctet _ 12 0 255 (by decide) (by decide +kernel) (by decide +kernel)]
    decide

end Lsp

end LinkState
