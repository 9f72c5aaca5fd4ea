import Mathlib.Data.List.Induction
import Mathlib.Data.Nat.Find
import LinkState.Octets
import LinkState.Ip.V4

/-!
# Words and masks on the wire

Octets of a given count and the numbers that fit them correspond to each other (`ofNat_eq_iff`), so
that each word of a frame has one octet string (`ofWord16_eq_iff`, `ofWord32_eq_iff`); both are in
the same order (`toNat_lt_toNat_iff`). An IPv4 network is written as an address and a mask. A mask
is read if and only if it is that of a length (`lengthOfMask?_eq_some_iff`), and these 33 masks are
those whose ones stand above their zeros (`contiguous_iff`).
-/

namespace LinkState

namespace Octets

/-- The number that octets write fits their count. -/
theorem toNat_lt (octets : Octets) : toNat octets < count octets.length := by
  have hpos (width : Nat) : 0 < count width := by
    induction width with
    | zero => decide
    | succ width ih => unfold count; omega
  -- The octets are the digits of their number, which is thereby reduced to what they can hold.
  have h := toNat_ofNat octets.length (toNat octets)
  rw [ofNat_toNat] at h
  rw [h]
  exact Nat.mod_lt _ (hpos octets.length)

/-- Octet strings of one length that write the same number are equal. -/
theorem eq_of_toNat_eq {a b : Octets} (hlength : a.length = b.length) (h : toNat a = toNat b) :
    a = b := by
  rw [← ofNat_toNat a, ← ofNat_toNat b, hlength, h]

/-- Octets that follow others make them count for as much as there are strings of the followers. -/
theorem toNat_append (a b : Octets) : toNat (a ++ b) = toNat a * count b.length + toNat b := by
  induction b using List.reverseRecOn with
  | nil => rw [List.append_nil, List.length_nil, count, toNat_nil, Nat.mul_one, Nat.add_zero]
  | append_singleton b last ih =>
    rw [← List.append_assoc, toNat_concat, ih, toNat_concat, List.length_append,
      List.length_singleton, count, Nat.mul_add, Nat.mul_left_comm, Nat.add_assoc]

/-- The first octet counts for as much as there are strings of the others. -/
theorem toNat_cons (octet : UInt8) (octets : Octets) :
    toNat (octet :: octets) = octet.toNat * count octets.length + toNat octets := by
  have hfirst : toNat [octet] = octet.toNat := Nat.zero_add _
  rw [← List.singleton_append, toNat_append, hfirst]

/-- Octet strings of one length are in the order of the numbers that they write. -/
theorem toNat_lt_toNat_iff {a b : Octets} (hlength : a.length = b.length) :
    toNat a < toNat b ↔ a < b := by
  induction a generalizing b with
  | nil =>
    cases b with
    | nil => simp
    | cons => cases hlength
  | cons x a ih =>
    cases b with
    | nil => cases hlength
    | cons y b =>
      have hrest : a.length = b.length := Nat.succ.inj hlength
      -- What follows the first octets counts for less than one of them.
      have ha : toNat a < count b.length := hrest ▸ toNat_lt a
      have hb : toNat b < count b.length := toNat_lt b
      have hstep {m n : Nat} (h : m < n) :
          m * count b.length + count b.length ≤ n * count b.length :=
        Nat.succ_mul m _ ▸ Nat.mul_le_mul_right _ h
      rw [toNat_cons, toNat_cons, hrest, List.cons_lt_cons_iff, ← ih hrest,
        UInt8.lt_iff_toNat_lt, ← UInt8.toNat_inj]
      rcases Nat.lt_trichotomy x.toNat y.toNat with hlt | heq | hgt
      · have := hstep hlt
        omega
      · rw [heq]
        omega
      · have := hstep hgt
        omega

/-- Octets write a number that fits their count if and only if they are its digits. -/
theorem ofNat_eq_iff {octets : Octets} {width n : Nat} (hlength : octets.length = width)
    (h : n < count width) : ofNat width n = octets ↔ n = toNat octets := by
  constructor
  · intro heq
    rw [← heq, toNat_ofNat, Nat.mod_eq_of_lt h]
  · intro heq
    rw [heq, ← hlength, ofNat_toNat]

/-- The number of the word of two octets. -/
theorem toNat_word16 (a b : UInt8) : (word16 a b).toNat = toNat [a, b] := by
  have hlt : toNat [a, b] < 2 ^ 16 := toNat_lt [a, b]
  rw [word16, UInt16.toNat_ofNat', Nat.mod_eq_of_lt hlt]

/-- The number of the word of four octets. -/
theorem toNat_word32 (a b c d : UInt8) : (word32 a b c d).toNat = toNat [a, b, c, d] := by
  have hlt : toNat [a, b, c, d] < 2 ^ 32 := toNat_lt [a, b, c, d]
  rw [word32, UInt32.toNat_ofNat', Nat.mod_eq_of_lt hlt]

/-- Two octets write a 16-bit word if and only if reading them gives the word. -/
theorem ofWord16_eq_iff {word : UInt16} {a b : UInt8} :
    ofWord16 word = [a, b] ↔ word = word16 a b := by
  have hword : ofWord16 word = [a, b] ↔ word.toNat = toNat [a, b] :=
    ofNat_eq_iff rfl word.toNat_lt
  rw [hword, ← UInt16.toNat_inj, toNat_word16]

/-- Four octets write a 32-bit word if and only if reading them gives the word. -/
theorem ofWord32_eq_iff {word : UInt32} {a b c d : UInt8} :
    ofWord32 word = [a, b, c, d] ↔ word = word32 a b c d := by
  have hword : ofWord32 word = [a, b, c, d] ↔ word.toNat = toNat [a, b, c, d] :=
    ofNat_eq_iff rfl word.toNat_lt
  rw [hword, ← UInt32.toNat_inj, toNat_word32]

/-- The octets of a 16-bit word write its number. -/
theorem toNat_ofWord16 (word : UInt16) : toNat (ofWord16 word) = word.toNat := by
  unfold ofWord16
  rw [toNat_ofNat]
  exact Nat.mod_eq_of_lt word.toNat_lt

/-- The octets of a 32-bit word write its number. -/
theorem toNat_ofWord32 (word : UInt32) : toNat (ofWord32 word) = word.toNat := by
  unfold ofWord32
  rw [toNat_ofNat]
  exact Nat.mod_eq_of_lt word.toNat_lt

/-- Every 16-bit word is that of two octets. -/
theorem exists_word16 (word : UInt16) : ∃ a b, ofWord16 word = [a, b] ∧ word = word16 a b :=
  ⟨_, _, rfl, ofWord16_eq_iff.1 rfl⟩

/-- Every 32-bit word is that of four octets. -/
theorem exists_word32 (word : UInt32) :
    ∃ a b c d, ofWord32 word = [a, b, c, d] ∧ word = word32 a b c d :=
  ⟨_, _, _, _, rfl, ofWord32_eq_iff.1 rfl⟩

end Octets

namespace Ipv4

/-- The mask of a length is read as that length. -/
theorem lengthOfMask?_maskOfLength (length : Fin 33) :
    lengthOfMask? (maskOfLength length) = some length := by
  revert length
  decide

/-- A mask has a length if and only if it is the mask of that length. -/
theorem lengthOfMask?_eq_some_iff {mask : UInt32} {length : Fin 33} :
    lengthOfMask? mask = some length ↔ maskOfLength length = mask := by
  constructor
  · intro h
    unfold lengthOfMask? at h
    simpa using List.find?_some h
  · intro h
    rw [← h, lengthOfMask?_maskOfLength]

/-- A mask is contiguous if every bit above a set one is set. -/
def Contiguous (mask : UInt32) : Prop :=
  ∀ i j, i < j → j < 32 → mask.toNat.testBit i → mask.toNat.testBit j

/-- The mask of a length has the ones of that many highest bits. -/
theorem testBit_maskOfLength (length : Fin 33) (i : Nat) :
    (maskOfLength length).toNat.testBit i = (decide (i < 32) && decide (32 - length.val ≤ i)) := by
  have hhost : 0 < 2 ^ (32 - length.val) := Nat.two_pow_pos _
  have hle : 2 ^ (32 - length.val) ≤ 2 ^ 32 :=
    Nat.pow_le_pow_right Nat.two_pos (Nat.sub_le 32 length.val)
  have hmask : (maskOfLength length).toNat = 2 ^ 32 - (2 ^ (32 - length.val) - 1 + 1) := by
    rw [maskOfLength, UInt32.toNat_ofNat', Nat.one_shiftLeft, Nat.sub_add_cancel hhost,
      show UInt32.size = 2 ^ 32 from rfl, Nat.mod_eq_of_lt (by omega)]
  rw [hmask, Nat.testBit_two_pow_sub_succ (by omega), Nat.testBit_two_pow_sub_one]
  simp only [← decide_not, Nat.not_lt]

/-- A mask is contiguous if and only if it is the mask of a length. -/
theorem contiguous_iff {mask : UInt32} :
    Contiguous mask ↔ ∃ length, maskOfLength length = mask := by
  constructor
  · intro h
    -- The host part ends at the lowest set bit, or at the highest bit if none is set.
    have hexists : ∃ i, i = 32 ∨ mask.toNat.testBit i := ⟨32, .inl rfl⟩
    have hlowest := Nat.find_spec hexists
    have hbelow {i : Nat} (hi : i < Nat.find hexists) := not_or.1 (Nat.find_min hexists hi)
    have hle : Nat.find hexists ≤ 32 := Nat.find_min' hexists (.inl rfl)
    generalize Nat.find hexists = lowest at hlowest hbelow hle
    refine ⟨⟨32 - lowest, by omega⟩, UInt32.toNat_inj.1 (Nat.eq_of_testBit_eq fun i => ?_)⟩
    rw [testBit_maskOfLength, Nat.sub_sub_self hle]
    by_cases hi : i < 32
    · by_cases hhost : lowest ≤ i
      · have hset : mask.toNat.testBit i := by
          rcases Nat.lt_or_eq_of_le hhost with hlt | rfl
          · exact h lowest i hlt hi (hlowest.resolve_left (by omega))
          · exact hlowest.resolve_left (by omega)
        simp [hi, hhost, hset]
      · have hclear := (hbelow (Nat.lt_of_not_le hhost)).2
        simp [hi, hhost, hclear]
    · have hlt : mask.toNat < 2 ^ i :=
        Nat.lt_of_lt_of_le mask.toNat_lt (Nat.pow_le_pow_right Nat.two_pos (Nat.le_of_not_lt hi))
      simp [hi, Nat.testBit_lt_two_pow hlt]
  · rintro ⟨length, rfl⟩ i j hlt hj hi
    rw [testBit_maskOfLength] at hi ⊢
    simp only [Bool.and_eq_true, decide_eq_true_eq] at hi ⊢
    omega

end Ipv4

end LinkState
