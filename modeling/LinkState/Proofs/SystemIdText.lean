import Mathlib.Data.Nat.Digits.Lemmas
import Mathlib.Tactic.Ring
import LinkState.Proofs.Keys

/-!
# The text of a system ID

A row of hexadecimal digits is read as the number that it writes (`nat?_eq`), and rows of the same
length that write the same number differ in the case of their letters only (`map_toLower_eq`). So
what is read from a text is known by its number alone: three groups of four digits are read as the
octets that write the same number as the twelve digits (`exists_ofChars?`), and the digits in which
these octets are written, being twelve as well, are the same but for case (`toChars_of_ofChars?`).

That nothing else is read takes more than one test. The size of a group is counted in octets, of
which a character may take up to four, and the reader of numbers admits a sign. It is the test of
each character that makes a group of size four one of four digits (`isGroup_iff`).
-/

namespace LinkState

namespace Hex

/-! ### Digits and the numbers that they write -/

/-- The hexadecimal digits of ASCII, in either case. -/
def IsDigit (c : Char) : Prop := c ∈ "0123456789abcdefABCDEF".toList

/-- What a digit counts for: its place in the row of all lower-case digits. -/
def place (c : Char) : Nat := "0123456789abcdef".toList.idxOf c.toLower

/-- The number that a row of digits writes, the first digit counting most. -/
def number (digits : List Char) : Nat := Nat.ofDigits 16 (digits.reverse.map place)

/-- What is true of the characters of the row is true of the digits. -/
@[elab_as_elim]
theorem IsDigit.of_all {p : Char → Prop} [DecidablePred p] {c : Char} (h : IsDigit c)
    (hall : "0123456789abcdefABCDEF".toList.all p) : p c :=
  of_decide_eq_true (List.all_eq_true.1 hall c h)

/-- A digit is read as the number that it counts for. -/
theorem IsDigit.value?_eq {c : Char} (h : IsDigit c) : value? c = some (place c) :=
  h.of_all (by decide)

theorem IsDigit.place_lt {c : Char} (h : IsDigit c) : place c < 16 := h.of_all (by decide)

/-- The number that a digit counts for is written with the same digit in lower case. -/
theorem IsDigit.digit_place {c : Char} (h : IsDigit c) : digit (place c) = c.toLower :=
  h.of_all (by decide)

theorem IsDigit.utf8Size_eq {c : Char} (h : IsDigit c) : c.utf8Size = 1 := h.of_all (by decide)

theorem IsDigit.ne_plus {c : Char} (h : IsDigit c) : c ≠ '+' := h.of_all (by decide)

theorem IsDigit.ne_dot {c : Char} (h : IsDigit c) : c ≠ '.' := h.of_all (by decide)

/-- The digit with which a number is written is one in lower case, and counts for the number. -/
theorem digit_spec {n : Nat} (h : n < 16) :
    IsDigit (digit n) ∧ place (digit n) = n ∧ (digit n).toLower = digit n := by
  revert n
  unfold IsDigit
  decide

/-- The digits are the characters that are read as a number. -/
theorem isSome_value?_iff {c : Char} : (value? c).isSome ↔ IsDigit c := by
  constructor
  · intro h
    -- Every character with a value is one of ASCII, and these are few enough to try them all.
    have hle {d : Char} (h : c ≤ d) : c.toNat ≤ d.toNat := h
    have hascii : c.toNat < 128 := by
      unfold value? at h
      split_ifs at h with hdigit hlower hupper
      · exact Nat.lt_of_le_of_lt (hle hdigit.2) (by decide)
      · exact Nat.lt_of_le_of_lt (hle hlower.2) (by decide)
      · exact Nat.lt_of_le_of_lt (hle hupper.2) (by decide)
      · cases h
    have hall : ∀ n < 128, (value? (Char.ofNat n)).isSome → IsDigit (Char.ofNat n) := by
      unfold IsDigit
      decide
    rw [← Char.ofNat_toNat c] at h ⊢
    exact hall c.toNat hascii h
  · intro h
    rw [h.value?_eq]
    rfl

/-- Digits that follow others make them count for sixteen times as much each. -/
theorem number_append (a b : List Char) :
    number (a ++ b) = number a * 16 ^ b.length + number b := by
  unfold number
  rw [List.reverse_append, List.map_append, Nat.ofDigits_append, List.length_map,
    List.length_reverse]
  ring

/-- The places of digits are below 16. -/
theorem places_lt {digits : List Char} (h : ∀ c ∈ digits, IsDigit c) :
    ∀ n ∈ digits.reverse.map place, n < 16 := by
  simp only [List.mem_map, List.mem_reverse]
  rintro n ⟨c, hc, rfl⟩
  exact (h c hc).place_lt

/-- A number has at least as many digits as it needs. -/
theorem number_lt {digits : List Char} (h : ∀ c ∈ digits, IsDigit c) :
    number digits < 16 ^ digits.length := by
  have hlt := Nat.ofDigits_lt_base_pow_length (by decide) (places_lt h)
  rwa [List.length_map, List.length_reverse] at hlt

/-- Rows of the same length that write the same number differ in case only. -/
theorem map_toLower_eq {a b : List Char} (hlength : a.length = b.length)
    (ha : ∀ c ∈ a, IsDigit c) (hb : ∀ c ∈ b, IsDigit c) (h : number a = number b) :
    a.map Char.toLower = b.map Char.toLower := by
  have hplaces : a.reverse.map place = b.reverse.map place :=
    Nat.ofDigits_inj_of_len_eq (by decide) (by simpa using hlength) (places_lt ha) (places_lt hb) h
  rw [List.map_reverse, List.map_reverse, List.reverse_inj] at hplaces
  have hlower {digits : List Char} (h : ∀ c ∈ digits, IsDigit c) :
      digits.map Char.toLower = (digits.map place).map digit := by
    rw [List.map_map]
    exact List.map_congr_left fun c hc => (h c hc).digit_place.symm
  rw [hlower ha, hlower hb, hplaces]

/-- A row of digits is read as the number that it writes. -/
theorem nat?_eq {digits : List Char} (hne : digits ≠ []) (h : ∀ c ∈ digits, IsDigit c) :
    nat? digits = some (number digits) := by
  have hfold : digits.foldlM (fun n c => (16 * n + ·) <$> value? c) 0 = some (number digits) := by
    clear hne
    induction digits using List.reverseRecOn with
    | nil => rfl
    | append_singleton digits last ih =>
      obtain ⟨hdigits, hlast⟩ := List.forall_mem_append.1 h
      have hvalue := (List.forall_mem_singleton.1 hlast).value?_eq
      have hnumber : number [last] = place last := by simp [number]
      rw [List.foldlM_append, ih hdigits, number_append, hnumber]
      simp [hvalue, Nat.mul_comm]
  cases digits with
  | nil => exact absurd rfl hne
  | cons => exact hfold

/-- A row of digits has no sign. It is read as the number that it writes if this is below the
bound. -/
theorem unsigned?_eq {bound : Nat} {digits : List Char} (hne : digits ≠ [])
    (h : ∀ c ∈ digits, IsDigit c) (hlt : number digits < bound) :
    unsigned? bound digits = some (number digits) := by
  unfold unsigned?
  split
  · exact absurd rfl (h '+' List.mem_cons_self).ne_plus
  · rw [nat?_eq hne h, Option.filter_some, decide_eq_true hlt, if_pos rfl]

/-- A text of digits takes one octet for each of them. -/
theorem utf8ByteSize_ofList {digits : List Char} (h : ∀ c ∈ digits, IsDigit c) :
    (String.ofList digits).utf8ByteSize = digits.length := by
  induction digits with
  | nil => rfl
  | cons c digits ih =>
    obtain ⟨hc, hdigits⟩ := List.forall_mem_cons.1 h
    rw [← List.singleton_append, String.ofList_append, String.utf8ByteSize_append, ih hdigits,
      ← String.singleton_eq_ofList, String.utf8ByteSize_singleton, hc.utf8Size_eq]
    exact Nat.add_comm 1 _

/-- An octet is written with two digits in lower case, which write its number. -/
theorem ofOctet_spec (octet : UInt8) :
    (∀ c ∈ ofOctet octet, IsDigit c) ∧ number (ofOctet octet) = octet.toNat ∧
      (ofOctet octet).map Char.toLower = ofOctet octet := by
  have hlt := octet.toNat_lt
  have hlow : digit octet.toNat = digit (octet.toNat % 16) := by
    unfold digit
    rw [Nat.mod_mod]
  obtain ⟨hdigit, hplace, hcase⟩ := digit_spec (show octet.toNat / 16 < 16 by omega)
  obtain ⟨hdigit', hplace', hcase'⟩ := digit_spec (Nat.mod_lt octet.toNat (by decide))
  rw [ofOctet, hlow]
  refine ⟨by simp [hdigit, hdigit'], ?_, by simp [hcase, hcase']⟩
  have hnumber (x y : Char) : number [x, y] = place y + 16 * place x := by
    simp [number, Nat.ofDigits_cons]
  rw [hnumber, hplace, hplace']
  omega

/-- An octet string is written with digits in lower case, which write its number. -/
theorem flatMap_ofOctet_spec (octets : Octets) :
    (∀ c ∈ octets.flatMap ofOctet, IsDigit c) ∧
      number (octets.flatMap ofOctet) = Octets.toNat octets ∧
      (octets.flatMap ofOctet).map Char.toLower = octets.flatMap ofOctet := by
  induction octets using List.reverseRecOn with
  | nil => exact ⟨by simp, rfl, rfl⟩
  | append_singleton octets last ih =>
    obtain ⟨hdigits, hnumber, hcase⟩ := ih
    obtain ⟨hdigits', hnumber', hcase'⟩ := ofOctet_spec last
    rw [List.flatMap_append, List.flatMap_singleton]
    refine ⟨List.forall_mem_append.2 ⟨hdigits, hdigits'⟩, ?_, ?_⟩
    · rw [number_append, hnumber, hnumber', Octets.toNat_concat, Nat.mul_comm]
      rfl
    · rw [List.map_append, hcase, hcase']

end Hex

namespace SystemId

/-! ### The grammar -/

/-- A group is four digits. -/
def IsGroup (chars : List Char) : Prop := chars.length = 4 ∧ ∀ c ∈ chars, Hex.IsDigit c

/-- The text of a system ID is three groups with dots between them. -/
def IsText (chars : List Char) : Prop :=
  ∃ a b c, IsGroup a ∧ IsGroup b ∧ IsGroup c ∧ chars = a ++ '.' :: (b ++ '.' :: c)

/-- A row of characters that takes four octets of UTF-8 and has only digits is a group. -/
theorem isGroup_iff {group : List Char} :
    ((String.ofList group).utf8ByteSize = 4 ∧ group.all fun c => (Hex.value? c).isSome) ↔
      IsGroup group := by
  rw [List.all_eq_true, IsGroup]
  simp only [Hex.isSome_value?_iff]
  apply and_congr_left
  intro hdigits
  rw [Hex.utf8ByteSize_ofList hdigits]

/-- A group has no dot. -/
theorem IsGroup.dot_notMem {group : List Char} (h : IsGroup group) : '.' ∉ group :=
  fun hmem => (h.2 '.' hmem).ne_dot rfl

/-- The number of a group fits a word. -/
theorem IsGroup.number_lt {group : List Char} (h : IsGroup group) :
    Hex.number group < UInt16.size := by
  have hlt := Hex.number_lt h.2
  rwa [h.1] at hlt

/-- A row of characters is read as a word if and only if it is a group that writes the word. -/
theorem ofGroup?_eq_some_iff {group : List Char} {word : UInt16} :
    ofGroup? group = some word ↔ IsGroup group ∧ word.toNat = Hex.number group := by
  unfold ofGroup?
  by_cases h : IsGroup group
  · have hne : group ≠ [] := by
      rintro rfl
      cases h.1
    rw [if_pos (isGroup_iff.2 h), Hex.unsigned?_eq hne h.2 h.number_lt, Option.map_some,
      Option.some_inj, ← UInt16.toNat_inj, UInt16.toNat_ofNat', Nat.mod_eq_of_lt h.number_lt,
      eq_comm, and_iff_right h]
  · rw [if_neg (mt isGroup_iff.1 h)]
    simp [h]

/-- Three groups with dots between them are read as octets that write the number of the digits. -/
theorem exists_ofChars? {a b c : List Char} (ha : IsGroup a) (hb : IsGroup b) (hc : IsGroup c) :
    ∃ s, ofChars? (a ++ '.' :: (b ++ '.' :: c)) = some s ∧
      Octets.toNat s.toOctets = Hex.number (a ++ b ++ c) := by
  have hsplit : (a ++ '.' :: (b ++ '.' :: c)).splitOn '.' = [a, b, c] := by
    have hdots : ∀ group ∈ [a, b, c], '.' ∉ group := by
      simp [ha.dot_notMem, hb.dot_notMem, hc.dot_notMem]
    simpa using List.splitOn_intercalate '.' hdots (by simp)
  have hword {group : List Char} (h : IsGroup group) :
      ∃ word, ofGroup? group = some word ∧ word.toNat = Hex.number group := by
    have hnumber : (UInt16.ofNat (Hex.number group)).toNat = Hex.number group := by
      rw [UInt16.toNat_ofNat', Nat.mod_eq_of_lt h.number_lt]
    exact ⟨_, ofGroup?_eq_some_iff.2 ⟨h, hnumber⟩, hnumber⟩
  obtain ⟨wa, hwa, ha'⟩ := hword ha
  obtain ⟨wb, hwb, hb'⟩ := hword hb
  obtain ⟨wc, hwc, hc'⟩ := hword hc
  unfold ofChars?
  rw [hsplit]
  simp only [hwa, hwb, hwc]
  refine ⟨_, rfl, ?_⟩
  calc Octets.toNat (Octets.ofWord16 wa ++ Octets.ofWord16 wb ++ Octets.ofWord16 wc)
    _ = (wa.toNat * 16 ^ 4 + wb.toNat) * 16 ^ 4 + wc.toNat := by
        simp only [Octets.toNat_append, Octets.toNat_ofWord16]
        rfl
    _ = Hex.number (a ++ b ++ c) := by
        rw [Hex.number_append, Hex.number_append, hb.1, hc.1, ha', hb', hc']

/-- Nothing is read but three groups with dots between them. -/
theorem isText_of_ofChars? {chars : List Char} {s : SystemId} (h : ofChars? chars = some s) :
    IsText chars := by
  unfold ofChars? at h
  split at h
  · next a b c hsplit =>
    simp only [Option.bind_eq_bind, Option.bind_eq_some_iff, ofGroup?_eq_some_iff] at h
    obtain ⟨_, ⟨ha, -⟩, _, ⟨hb, -⟩, _, ⟨hc, -⟩, -⟩ := h
    refine ⟨a, b, c, ha, hb, hc, ?_⟩
    have hjoin : ['.'].intercalate (chars.splitOn '.') = chars := List.intercalate_splitOn '.'
    rw [hsplit] at hjoin
    simpa using hjoin.symm
  · cases h

-- Both outer groups have size four, but neither a sign nor a character of two octets is a digit.
example : ofChars? "+921.6800.10é".toList = none := by decide

/-- A system ID that is read has its number from the digits of three groups. -/
theorem groups_of_ofChars? {chars : List Char} {s : SystemId} (h : ofChars? chars = some s) :
    ∃ a b c, IsGroup a ∧ IsGroup b ∧ IsGroup c ∧ chars = a ++ '.' :: (b ++ '.' :: c) ∧
      Octets.toNat s.toOctets = Hex.number (a ++ b ++ c) := by
  obtain ⟨a, b, c, ha, hb, hc, rfl⟩ := isText_of_ofChars? h
  obtain ⟨s', hs', hnumber⟩ := exists_ofChars? ha hb hc
  cases hs'.symm.trans h
  exact ⟨a, b, c, ha, hb, hc, rfl, hnumber⟩

/-- A system ID is written as three groups, whose digits are those of its octets. -/
theorem groups_toChars (s : SystemId) :
    ∃ a b c, IsGroup a ∧ IsGroup b ∧ IsGroup c ∧ s.toChars = a ++ '.' :: (b ++ '.' :: c) ∧
      a ++ b ++ c = s.toOctets.flatMap Hex.ofOctet := by
  have hgroup (x y : UInt8) : IsGroup (Hex.ofOctet x ++ Hex.ofOctet y) :=
    ⟨rfl, List.forall_mem_append.2 ⟨(Hex.ofOctet_spec x).1, (Hex.ofOctet_spec y).1⟩⟩
  exact ⟨_, _, _, hgroup s.o0 s.o1, hgroup s.o2 s.o3, hgroup s.o4 s.o5, rfl, rfl⟩

/-- A system ID is written with the digits that it was read from, in lower case. -/
theorem toChars_of_ofChars? {chars : List Char} {s : SystemId} (h : ofChars? chars = some s) :
    s.toChars = chars.map Char.toLower := by
  obtain ⟨a, b, c, ha, hb, hc, rfl, hread⟩ := groups_of_ofChars? h
  obtain ⟨x, y, z, hx, hy, hz, htext, hdigits⟩ := s.groups_toChars
  obtain ⟨hall, hnumber, hcase⟩ := Hex.flatMap_ofOctet_spec s.toOctets
  rw [← hdigits] at hall hnumber hcase
  have hlength : (x ++ y ++ z).length = (a ++ b ++ c).length := by
    simp only [List.length_append, hx.1, hy.1, hz.1, ha.1, hb.1, hc.1]
  have hlower := Hex.map_toLower_eq hlength hall
    (List.forall_mem_append.2 ⟨List.forall_mem_append.2 ⟨ha.2, hb.2⟩, hc.2⟩) (hnumber.trans hread)
  rw [hcase, List.map_append, List.map_append] at hlower
  obtain ⟨hlower, hz'⟩ := List.append_inj' hlower (by rw [List.length_map, hz.1, hc.1])
  obtain ⟨hx', hy'⟩ := List.append_inj' hlower (by rw [List.length_map, hy.1, hb.1])
  rw [htext, hx', hy', hz']
  simp

/-- The key of a system ID is the number of the digits that it was read from. -/
theorem key_of_ofChars? {chars : List Char} {s : SystemId} (h : ofChars? chars = some s) :
    s.key.toNat = Hex.number (chars.filter (· ≠ '.')) := by
  obtain ⟨a, b, c, ha, hb, hc, rfl, hread⟩ := groups_of_ofChars? h
  have hfilter {group : List Char} (h : IsGroup group) : group.filter (· ≠ '.') = group :=
    List.filter_eq_self.2 fun c hmem => decide_eq_true (h.2 c hmem).ne_dot
  rw [toNat_key, hread]
  simp only [List.filter_append, List.filter_cons, hfilter ha, hfilter hb, hfilter hc,
    List.append_assoc]
  rfl

/-- What is written is read back. -/
theorem ofChars?_toChars (s : SystemId) : ofChars? s.toChars = some s := by
  obtain ⟨a, b, c, ha, hb, hc, htext, hdigits⟩ := s.groups_toChars
  obtain ⟨s', hs', hread⟩ := exists_ofChars? ha hb hc
  have hwritten := (Hex.flatMap_ofOctet_spec s.toOctets).2.1
  have heq : s' = s := eq_of_toNat_toOctets (by rw [hread, hdigits, hwritten])
  rw [htext, hs', heq]

/-- A text is read if and only if its characters are. -/
theorem parse_eq_ok_iff {text : String} {s : SystemId} :
    parse text = .ok s ↔ ofChars? text.toList = some s := by
  unfold parse
  cases ofChars? text.toList <;> simp

/-- A text is read if and only if it is three groups of four hexadecimal digits with dots between
them. The system ID is then written as the text in lower case, and its key is the number that the
twelve digits write. A text that is not read is given back in the error. Every system ID is read
from its own text. -/
theorem parse_exactly :
    (∀ text : String, ((∃ s, parse text = .ok s) ↔ IsText text.toList) ∧
      (∀ s, parse text = .ok s → s.text = text.toLower ∧
        s.key.toNat = Hex.number (text.toList.filter (· ≠ '.'))) ∧
      ∀ error, parse text = .error error → error = ⟨text⟩) ∧
    ∀ s : SystemId, parse s.text = .ok s := by
  refine ⟨fun text => ⟨?_, ?_, ?_⟩, ?_⟩
  · simp only [parse_eq_ok_iff]
    constructor
    · rintro ⟨s, hs⟩
      exact isText_of_ofChars? hs
    · rintro ⟨a, b, c, ha, hb, hc, htext⟩
      obtain ⟨s, hs, -⟩ := exists_ofChars? ha hb hc
      exact ⟨s, htext ▸ hs⟩
  · intro s hs
    rw [parse_eq_ok_iff] at hs
    refine ⟨?_, key_of_ofChars? hs⟩
    rw [SystemId.text, toChars_of_ofChars? hs, ← String.toList_map, String.ofList_toList]
    rfl
  · intro error herror
    unfold parse at herror
    split at herror
    · cases herror
    · exact (Except.error.inj herror).symm
  · intro s
    rw [parse_eq_ok_iff, SystemId.text, String.toList_ofList]
    exact s.ofChars?_toChars

end SystemId

end LinkState
