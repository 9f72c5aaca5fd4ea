import Mathlib.Data.Int.ModEq
import Mathlib.Data.List.Induction
import Mathlib.Tactic.Ring
import LinkState.Lsp.Basic
import LinkState.Proofs.Wire.Words

/-!
# The checksum of an originated LSP is valid

The two running sums of an octet string are, modulo 255, its plain sum and the sum in which every
octet counts once for itself and once for each octet behind it (`sums_eq`). Two check octets at a
place where zeros stood add to both sums what they count for there (`total_fill`, `weight_fill`).
They are the solution of two equations modulo 255 under which both sums vanish (`isValid_fill`), and
of all the numbers that solve them the ones from 1 to 255 are taken (`first_spec`, `second_spec`),
so that both are octets and neither is zero.

`compute32?` computes the check octets in signed 32-bit words, and gives nothing if a word is too
small for a result or an octet for a check octet. For an LSP that fits its length field nothing is
too small (`compute32?_eq`).
-/

namespace LinkState

open Octets

namespace Checksum

/-! ### The two sums -/

/-- The sum of the octets. -/
def total (octets : Octets) : Nat := (octets.map UInt8.toNat).sum

/-- The sum in which every octet counts once for itself and once for each octet behind it. -/
def weight : Octets → Nat
  | [] => 0
  | octet :: rest => (rest.length + 1) * octet.toNat + weight rest

@[simp] theorem total_append (a b : Octets) : total (a ++ b) = total a + total b := by
  simp [total]

/-- Octets that come behind a string make each of its octets count once more. -/
theorem weight_append (a b : Octets) :
    weight (a ++ b) = weight a + b.length * total a + weight b := by
  induction a with
  | nil => simp [weight, total]
  | cons octet a ih =>
    have htotal : total (octet :: a) = octet.toNat + total a := rfl
    rw [List.cons_append, weight, weight, ih, List.length_append, htotal]
    ring

/-- The running sums are the two sums modulo 255. -/
theorem sums_eq (octets : Octets) : sums octets = ⟨total octets % 255, weight octets % 255⟩ := by
  induction octets using List.reverseRecOn with
  | nil => rfl
  | append_singleton octets last ih =>
    have hsums : sums (octets ++ [last]) = (sums octets).add last := by
      rw [sums, List.foldl_append]
      rfl
    have htotal : total [last] = last.toNat := by simp [total]
    have hweight : weight [last] = last.toNat := by simp [weight]
    rw [hsums, ih, Sums.add, total_append, weight_append, htotal, hweight, List.length_singleton]
    simp only [Sums.mk.injEq]
    omega

/-- Both running sums are reduced. -/
theorem sums_lt (octets : Octets) : (sums octets).plain < 255 ∧ (sums octets).partials < 255 := by
  rw [sums_eq]
  exact ⟨Nat.mod_lt _ (by decide), Nat.mod_lt _ (by decide)⟩

/-- The running sums stand for the two sums. -/
theorem sums_modEq (octets : Octets) : ((sums octets).plain : Int) ≡ total octets [ZMOD 255] ∧
    ((sums octets).partials : Int) ≡ weight octets [ZMOD 255] := by
  rw [sums_eq]
  unfold Int.ModEq
  dsimp only
  omega

/-- A covered part is intact exactly if both of its sums vanish modulo 255. -/
theorem isValid_iff (octets : Octets) :
    isValid octets ↔
      (total octets : Int) ≡ 0 [ZMOD 255] ∧ (weight octets : Int) ≡ 0 [ZMOD 255] := by
  unfold isValid Int.ModEq
  rw [decide_eq_true_eq, sums_eq, Sums.mk.injEq]
  omega

/-- What two octets add to the plain sum where zeros stood. -/
theorem total_fill (before after : Octets) (a b : UInt8) :
    total (before ++ [a, b] ++ after) =
      total (before ++ [0, 0] ++ after) + a.toNat + b.toNat := by
  have htotal (a b : UInt8) : total [a, b] = a.toNat + b.toNat := by simp [total]
  simp only [total_append, htotal, UInt8.toNat_zero]
  omega

/-- What two octets add to the other sum where zeros stood. -/
theorem weight_fill (before after : Octets) (a b : UInt8) :
    weight (before ++ [a, b] ++ after) = weight (before ++ [0, 0] ++ after) +
      (after.length + 2) * a.toNat + (after.length + 1) * b.toNat := by
  have htotal (a b : UInt8) : total [a, b] = a.toNat + b.toNat := by simp [total]
  have hweight (a b : UInt8) : weight [a, b] = 2 * a.toNat + b.toNat := by simp [weight]
  simp only [weight_append, total_append, htotal, hweight, List.length_cons, List.length_nil,
    UInt8.toNat_zero]
  ring

/-! ### The check octets -/

/-- A remainder has the sign of the number and is the same modulo 255. -/
theorem tmod_spec (n : Int) :
    -255 < n.tmod 255 ∧ n.tmod 255 < 255 ∧ n.tmod 255 ≡ n [ZMOD 255] := by
  unfold Int.ModEq
  rw [Int.tmod_eq_emod]
  split <;> omega

/-- The first check octet is a number from 1 to 255, and it solves its equation. -/
theorem first_spec (sums : Sums) (size : Nat) :
    1 ≤ first sums size ∧ first sums size ≤ 255 ∧
      first sums size ≡ (size - 13) * sums.plain - sums.partials [ZMOD 255] := by
  have hplace : (size : Int) - position - 1 = size - 13 := by unfold position; omega
  unfold first
  rw [hplace]
  generalize ((size : Int) - 13) * sums.plain - sums.partials = n
  obtain ⟨hlow, hhigh, hmod⟩ := tmod_spec n
  unfold Int.ModEq at hmod ⊢
  dsimp only
  split <;> omega

/-- So is the second one, which makes the plain sum vanish. -/
theorem second_spec {sums : Sums} (hplain : sums.plain < 255) {x : Int} (hlow : 1 ≤ x)
    (hhigh : x ≤ 255) :
    1 ≤ second sums x ∧ second sums x ≤ 255 ∧ second sums x ≡ -sums.plain - x [ZMOD 255] := by
  unfold second Int.ModEq
  dsimp only
  split <;> omega

/-- A number from 1 to 255 is an octet other than zero. -/
theorem ofInt_spec {n : Int} (hlow : 1 ≤ n) (hhigh : n ≤ 255) :
    UInt8.ofInt n ≠ 0 ∧ ((UInt8.ofInt n).toNat : Int) = n := by
  have hoctet : ((UInt8.ofInt n).toNat : Int) = n := by
    unfold UInt8.ofInt
    rw [UInt8.toNat_ofNat']
    omega
  refine ⟨fun hzero => ?_, hoctet⟩
  rw [hzero, UInt8.toNat_zero] at hoctet
  omega

/-- The check octets solve the two equations, and neither is zero. -/
theorem compute_spec (octets : Octets) :
    ∃ a b, ofWord16 (compute octets) = [a, b] ∧ a ≠ 0 ∧ b ≠ 0 ∧
      (a.toNat : Int) ≡ (octets.length - 13) * total octets - weight octets [ZMOD 255] ∧
      (b.toNat : Int) ≡ -total octets - a.toNat [ZMOD 255] := by
  obtain ⟨hplain, hpartials⟩ := sums_modEq octets
  obtain ⟨hxlow, hxhigh, hx⟩ := first_spec (sums octets) octets.length
  obtain ⟨hylow, hyhigh, hy⟩ := second_spec (sums_lt octets).1 hxlow hxhigh
  obtain ⟨hane, ha⟩ := ofInt_spec hxlow hxhigh
  obtain ⟨hbne, hb⟩ := ofInt_spec hylow hyhigh
  refine ⟨_, _, ofWord16_eq_iff.2 rfl, hane, hbne, ?_, ?_⟩
  · rw [ha]
    exact hx.trans ((hplain.mul_left _).sub hpartials)
  · rw [hb, ha]
    exact hy.trans (hplain.neg.sub_right _)

/-- Check octets that are put where zeros stood, behind twelve octets, make both sums vanish. -/
theorem isValid_fill {before after : Octets} (hbefore : before.length = 12) {a b : UInt8}
    (h : ofWord16 (compute (before ++ [0, 0] ++ after)) = [a, b]) :
    isValid (before ++ [a, b] ++ after) := by
  obtain ⟨a', b', hcompute, -, -, ha, hb⟩ := compute_spec (before ++ [0, 0] ++ after)
  cases hcompute.symm.trans h
  rw [isValid_iff, total_fill, weight_fill]
  have hsize : (((before ++ [0, 0] ++ after).length : Int) - 13) = after.length + 1 := by
    rw [List.length_append, List.length_append, hbefore, List.length_cons, List.length_singleton]
    omega
  rw [hsize] at ha
  push_cast
  generalize (total (before ++ [0, 0] ++ after) : Int) = t at ha hb
  generalize (weight (before ++ [0, 0] ++ after) : Int) = w at ha
  generalize (a.toNat : Int) = x at ha hb
  generalize (b.toNat : Int) = y at hb
  generalize (after.length : Int) = n at ha
  constructor
  · calc t + x + y ≡ t + x + (-t - x) [ZMOD 255] := hb.add_left _
      _ = 0 := by ring
  · calc w + (n + 2) * x + (n + 1) * y
        ≡ w + (n + 2) * x + (n + 1) * (-t - x) [ZMOD 255] := (hb.mul_left _).add_left _
      _ = w - (n + 1) * t + x := by ring
      _ ≡ w - (n + 1) * t + ((n + 1) * t - w) [ZMOD 255] := ha.add_left _
      _ = 0 := by ring

/-! ### Thirty-two bits are enough -/

/-- A result that fits a signed 32-bit word. -/
def int32? (n : Int) : Option Int := if -2 ^ 31 ≤ n ∧ n < 2 ^ 31 then some n else none

/-- A number that fits an octet. -/
def octet? (n : Int) : Option UInt8 := if 0 ≤ n ∧ n ≤ 255 then some (UInt8.ofInt n) else none

theorem int32?_eq {n : Int} (hlow : -2 ^ 31 ≤ n) (hhigh : n < 2 ^ 31) : int32? n = some n :=
  if_pos ⟨hlow, hhigh⟩

/-- A computation goes on with a result that fits. -/
theorem int32?_bind {α : Type} {n : Int} (hlow : -2 ^ 31 ≤ n) (hhigh : n < 2 ^ 31)
    (next : Int → Option α) : int32? n >>= next = next n := by
  rw [int32?_eq hlow hhigh]
  rfl

theorem octet?_eq {n : Int} (hlow : 1 ≤ n) (hhigh : n ≤ 255) : octet? n = some (UInt8.ofInt n) :=
  if_pos ⟨by omega, hhigh⟩

/-- The first check octet, computed in signed 32-bit words. -/
def first32? (sums : Sums) (size : Nat) : Option Int := do
  let size ← int32? size
  let place ← int32? (size - 13)
  let product ← int32? (place * sums.plain)
  let difference ← int32? (product - sums.partials)
  let x ← int32? (difference.tmod 255)
  if x ≤ 0 then int32? (x + 255) else return x

/-- The second check octet, computed in signed 32-bit words. -/
def second32? (sums : Sums) (first : Int) : Option Int := do
  let complement ← int32? (510 - sums.plain)
  let y ← int32? (complement - first)
  if 255 < y then int32? (y - 255) else return y

/-- The check octets of a covered part whose own check octets are zero, computed in signed 32-bit
words. There are none if a word is too small for a result, or an octet for a check octet. -/
def compute32? (octets : Octets) : Option UInt16 := do
  let first ← first32? (sums octets) octets.length
  let second ← second32? (sums octets) first
  return word16 (← octet? first) (← octet? second)

/-- The words hold the results on the way to the first check octet. -/
theorem first32?_eq {sums : Sums} (hplain : sums.plain < 255) (hpartials : sums.partials < 255)
    {size : Nat} (hsize : size ≤ 65535) : first32? sums size = some (first sums size) := by
  have hplace : (size : Int) - position - 1 = size - 13 := by unfold position; omega
  -- Only the product is much larger than its factors.
  have hlow : -13 * (sums.plain : Int) ≤ (size - 13) * sums.plain :=
    Int.mul_le_mul_of_nonneg_right (by omega) (by omega)
  have hhigh : ((size : Int) - 13) * sums.plain ≤ 65522 * sums.plain :=
    Int.mul_le_mul_of_nonneg_right (by omega) (by omega)
  unfold first32? first
  rw [hplace, int32?_bind (by omega) (by omega), int32?_bind (by omega) (by omega)]
  generalize ((size : Int) - 13) * sums.plain = n at hlow hhigh ⊢
  obtain ⟨hlow, hhigh, -⟩ := tmod_spec (n - sums.partials)
  rw [int32?_bind (by omega) (by omega), int32?_bind (by omega) (by omega),
    int32?_bind (by omega) (by omega)]
  dsimp only
  split
  · exact int32?_eq (by omega) (by omega)
  · rfl

/-- The words hold the results on the way to the second check octet. -/
theorem second32?_eq {sums : Sums} (hplain : sums.plain < 255) {x : Int} (hlow : 1 ≤ x)
    (hhigh : x ≤ 255) : second32? sums x = some (second sums x) := by
  unfold second32? second
  rw [int32?_bind (by omega) (by omega), int32?_bind (by omega) (by omega)]
  dsimp only
  split
  · exact int32?_eq (by omega) (by omega)
  · rfl

/-- For a covered part that fits the length field, signed 32-bit words hold all results, and octets
hold the check octets. -/
theorem compute32?_eq {octets : Octets} (h : octets.length ≤ 65535) :
    compute32? octets = some (compute octets) := by
  obtain ⟨hplain, hpartials⟩ := sums_lt octets
  obtain ⟨hxlow, hxhigh, -⟩ := first_spec (sums octets) octets.length
  obtain ⟨hylow, hyhigh, -⟩ := second_spec hplain hxlow hxhigh
  unfold compute32?
  simp only [first32?_eq hplain hpartials h, second32?_eq hplain hxlow hxhigh,
    octet?_eq hxlow hxhigh, octet?_eq hylow hyhigh, Option.bind_eq_bind, Option.bind_some]
  rfl

end Checksum

namespace Lsp

/-- The checksum covers all but the first twelve octets. -/
theorem drop_encode (lsp : Lsp) : lsp.encode.drop uncoveredSize = lsp.covered := rfl

/-- The checksum of an originated LSP is valid, and neither of its octets is zero. For an LSP that
fits the length field it is computed without loss in signed 32-bit words, from what the checksum
covers while it is still zero. -/
theorem isChecksumValid_originate (type : PduType) (lifetime : UInt16) (id : LspId)
    (seqno : UInt32) (flags : LspFlags) (tlvs : List Tlv)
    (hsize : (originate type lifetime id seqno flags tlvs).encode.length ≤ 65535) :
    let lsp := originate type lifetime id seqno flags tlvs
    lsp.isChecksumValid ∧ (∃ a b, ofWord16 lsp.checksum = [a, b] ∧ a ≠ 0 ∧ b ≠ 0) ∧
      Checksum.compute32? (({ lsp with checksum := 0 } : Lsp).encode.drop uncoveredSize) =
        some lsp.checksum := by
  intro lsp
  let before := id.toOctets ++ ofWord32 seqno
  let after := [flags.bits] ++ tlvs.flatMap Tlv.encode
  have hbefore : before.length = 12 := by simp [before, ofWord32, LspId.toOctets, SystemId.toOctets]
  have hcovered (checksum : UInt16) : ({ lsp with checksum := checksum } : Lsp).covered =
      before ++ ofWord16 checksum ++ after := by
    unfold covered
    exact List.append_assoc _ _ _
  have hblank : ({ lsp with checksum := 0 } : Lsp).covered = before ++ [0, 0] ++ after := hcovered 0
  have hchecksum : lsp.checksum = Checksum.compute (before ++ [0, 0] ++ after) :=
    congrArg Checksum.compute hblank
  obtain ⟨a, b, hoctets, ha, hb, -⟩ := Checksum.compute_spec (before ++ [0, 0] ++ after)
  have hfilled : lsp.covered = before ++ [a, b] ++ after := by
    rw [← hoctets, ← hchecksum]
    exact hcovered lsp.checksum
  refine ⟨?_, ⟨a, b, hchecksum ▸ hoctets, ha, hb⟩, ?_⟩
  · unfold isChecksumValid
    rw [hfilled]
    exact Checksum.isValid_fill hbefore hoctets
  · rw [drop_encode, hblank, hchecksum]
    apply Checksum.compute32?_eq
    -- The zeros take as many octets as the check octets.
    have hlength : (before ++ [0, 0] ++ after).length = lsp.covered.length := by
      rw [hfilled]
      simp only [List.length_append, List.length_cons]
    rw [hlength, ← drop_encode, List.length_drop]
    exact Nat.le_trans (Nat.sub_le _ _) hsize

theorem isChecksumValid_originate_neighbors :
    let lsp := originate .lspL2 1200 (.ofSystem ⟨0x19, 0x21, 0x68, 0x00, 0x10, 0x01⟩) 0xffffffff
      ⟨0xff⟩ [.neighbors 0 [⟨10, .zero, 0⟩], .unknown 128 3 [1, 2, 3]]
    lsp.encode.length ≤ 65535 ∧ lsp.isChecksumValid ∧
      (∃ a b, ofWord16 lsp.checksum = [a, b] ∧ a ≠ 0 ∧ b ≠ 0) ∧
      Checksum.compute32? (({ lsp with checksum := 0 } : Lsp).encode.drop uncoveredSize) =
        some lsp.checksum := by
  intro lsp
  have hsize : lsp.encode.length ≤ 65535 := by decide +kernel
  exact ⟨hsize, isChecksumValid_originate _ _ _ _ _ _ hsize⟩

end Lsp

end LinkState
