/-!
# Octet strings

A frame is a list of octets, and every number in it is laid out most significant octet first.
`Octets.ofNat` writes a number in a given count of octets and `Octets.toNat` reads one back; of a
given width there are `Octets.count` strings. The two are inverse to each other: `toNat_ofNat` loses
what does not fit the width and nothing else, and `ofNat_toNat` gives back the octets themselves.
-/

namespace LinkState

/-- A string of octets, in transmission order. -/
abbrev Octets := List UInt8

namespace Octets

/-- The number of octet strings of a given width. -/
def count : (width : Nat) → Nat
  | 0 => 1
  | width + 1 => 256 * count width

/-- The number that the octets write, most significant octet first. -/
def toNat (octets : Octets) : Nat :=
  octets.foldl (fun n octet => 256 * n + octet.toNat) 0

/-- The last `width` base-256 digits of `n`, most significant first. -/
def ofNat : (width : Nat) → (n : Nat) → Octets
  | 0, _ => []
  | width + 1, n => ofNat width (n / 256) ++ [UInt8.ofNat n]

@[simp] theorem length_ofNat (width n : Nat) : (ofNat width n).length = width := by
  induction width generalizing n with
  | zero => rfl
  | succ width ih => simp [ofNat, ih]

@[simp] theorem toNat_nil : toNat [] = 0 := rfl

@[simp] theorem toNat_concat (octets : Octets) (octet : UInt8) :
    toNat (octets ++ [octet]) = 256 * toNat octets + octet.toNat := by
  simp [toNat]

/-- Writing a number and reading it back keeps what fits the width. -/
theorem toNat_ofNat (width n : Nat) : toNat (ofNat width n) = n % count width := by
  induction width generalizing n with
  | zero => simp [ofNat, count, Nat.mod_one]
  | succ width ih =>
    rw [ofNat, toNat_concat, ih, UInt8.toNat_ofNat', count, Nat.mod_mul]
    omega

/-- Octets are determined by their count and the number they write. -/
theorem ofNat_toNat (octets : Octets) : ofNat octets.length (toNat octets) = octets := by
  induction h : octets.length generalizing octets with
  | zero => simp [ofNat, List.eq_nil_of_length_eq_zero h]
  | succ n ih =>
    obtain ⟨init, last, rfl⟩ : ∃ init last, octets = init ++ [last] :=
      ⟨_, _, (List.dropLast_concat_getLast (List.ne_nil_of_length_eq_add_one h)).symm⟩
    have hinit : init.length = n := by simpa using h
    have hlast := last.toNat_lt
    rw [ofNat, toNat_concat, show (256 * toNat init + last.toNat) / 256 = toNat init by omega,
      ih init hinit]
    congr 2
    apply UInt8.toNat_inj.1
    rw [UInt8.toNat_ofNat']
    omega

/-! ### Words -/

/-- The two octets of a 16-bit word. -/
def ofWord16 (word : UInt16) : Octets := ofNat 2 word.toNat

/-- The four octets of a 32-bit word. -/
def ofWord32 (word : UInt32) : Octets := ofNat 4 word.toNat

/-- The 16-bit word that two octets write. -/
def word16 (a b : UInt8) : UInt16 := UInt16.ofNat (toNat [a, b])

/-- The 32-bit word that four octets write. -/
def word32 (a b c d : UInt8) : UInt32 := UInt32.ofNat (toNat [a, b, c, d])

end Octets

end LinkState
