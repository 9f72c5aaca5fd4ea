/-!
# Blank characters

The characters with the Unicode property `White_Space`, and removal of a text's blank ends.
-/

namespace LinkState.Text

/-- The characters of the Unicode property `White_Space`. -/
def isBlank (c : Char) : Bool :=
  let n := c.toNat
  (9 ≤ n && n ≤ 13) || n == 0x20 || n == 0x85 || n == 0xA0 || n == 0x1680
    || (0x2000 ≤ n && n ≤ 0x200A) || n == 0x2028 || n == 0x2029 || n == 0x202F || n == 0x205F
    || n == 0x3000

/-- A text without the blanks at its start. -/
def trimStart (chars : List Char) : List Char := chars.dropWhile isBlank

/-- A text without the blanks at its two ends. -/
def trim (chars : List Char) : List Char := (trimStart (trimStart chars).reverse).reverse

end LinkState.Text
