import LinkState.Octets

/-!
# Hexadecimal text

Digits are written in lower case and read in either case. An octet is written with exactly two
digits, and an octet string as its octets without separators. `Hex.unsigned?` allows one plus sign
in front of a number.
-/

namespace LinkState.Hex

/-- The lower-case digit of a number below 16; larger numbers count modulo 16. -/
def digit (n : Nat) : Char :=
  let n := n % 16
  if n < 10 then Char.ofNat (48 + n) else Char.ofNat (87 + n)

/-- The value of an ASCII hexadecimal digit of either case. -/
def value? (c : Char) : Option Nat :=
  if '0' ≤ c ∧ c ≤ '9' then some (c.toNat - 48)
  else if 'a' ≤ c ∧ c ≤ 'f' then some (c.toNat - 87)
  else if 'A' ≤ c ∧ c ≤ 'F' then some (c.toNat - 55)
  else none

/-- The two digits of an octet. -/
def ofOctet (octet : UInt8) : List Char := [digit (octet.toNat / 16), digit octet.toNat]

/-- The octet that two digits write. -/
def octet? (high low : Char) : Option UInt8 := do
  return UInt8.ofNat (16 * (← value? high) + (← value? low))

/-- The digits of an octet string. -/
def encode (octets : Octets) : String := String.ofList (octets.flatMap ofOctet)

/-- The octets that pairs of digits write; none for an odd count or another character. -/
def decodeChars? : List Char → Option Octets
  | [] => some []
  | high :: low :: rest => do return (← octet? high low) :: (← decodeChars? rest)
  | [_] => none

/-- The octet string that a text of digit pairs writes. -/
def decode? (text : String) : Option Octets := decodeChars? text.toList

/-- The number that a non-empty row of digits writes. -/
def nat? : List Char → Option Nat
  | [] => none
  | digits => digits.foldlM (fun n c => (16 * n + ·) <$> value? c) 0

/-- A row of digits that may follow one plus sign, below a bound. -/
def unsigned? (bound : Nat) : List Char → Option Nat
  | '+' :: digits => (nat? digits).filter (· < bound)
  | digits => (nat? digits).filter (· < bound)

/-- The shortest row of digits that writes a number. -/
def ofNat (n : Nat) : String := String.ofList (Nat.toDigits 16 n)

end LinkState.Hex
