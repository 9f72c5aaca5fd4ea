/-!
# Decimal text

Readers for rows of ASCII digits. `Decimal.nat?` reads any non-empty row, leading zeros included.
`Decimal.octet?` is the strict form used inside addresses: one to three digits, no leading zero
and at most 255. `Decimal.unsigned?` allows one plus sign in front.
-/

namespace LinkState.Decimal

/-- The value of an ASCII decimal digit. -/
def value? (c : Char) : Option Nat :=
  if '0' ≤ c ∧ c ≤ '9' then some (c.toNat - 48) else none

/-- The number that a non-empty row of digits writes. -/
def nat? : List Char → Option Nat
  | [] => none
  | digits => digits.foldlM (fun n c => (10 * n + ·) <$> value? c) 0

/-- A number of one to three digits without a leading zero, at most 255. -/
def octet? (digits : List Char) : Option UInt8 := do
  let n ← nat? digits
  if digits.length ≤ 3 ∧ (digits.length = 1 ∨ digits.head? ≠ some '0') ∧ n < 256 then
    return UInt8.ofNat n
  else none

/-- A row of digits that may follow one plus sign, below a bound. -/
def unsigned? (bound : Nat) : List Char → Option Nat
  | '+' :: digits => (nat? digits).filter (· < bound)
  | digits => (nat? digits).filter (· < bound)

end LinkState.Decimal
