import LinkState.Text.Hex
import LinkState.Text.Blank

/-!
# LSP flags

The attribute octet of an LSP. Its text names the flags that are fully set, in a fixed order, and
writes the remaining bits in hexadecimal, all joined by bars; no flags is the empty text. A text is
read part by part, blanks around a part being ignored, and the parts are united.
-/

namespace LinkState

/-- The attribute octet of an LSP; every bit is kept. -/
structure LspFlags where
  bits : UInt8
deriving DecidableEq, Repr

namespace LspFlags

/-- The flag of a level 1 router. -/
def isType1 : LspFlags := ⟨0x01⟩

/-- The named flags, in the order in which they are written. -/
def named : List (String × UInt8) :=
  [("P", 0x80), ("ATT", 0x78), ("OL", 0x04), ("IS_TYPE2", 0x02), ("IS_TYPE1", 0x01)]

/-- The text of a set of flags. -/
def text (flags : LspFlags) : String :=
  let full := named.filter fun flag => flags.bits &&& flag.2 = flag.2
  let remaining := full.foldl (fun bits flag => bits &&& ~~~flag.2) flags.bits
  let parts := full.map (·.1)
  String.intercalate " | "
    (if remaining = 0 then parts else parts ++ ["0x" ++ Hex.ofNat remaining.toNat])

/-- The bits of one part: a name, or a hexadecimal number that fits an octet and may follow a plus
sign. -/
def part? (chars : List Char) : Option UInt8 :=
  match chars with
  | '0' :: 'x' :: digits => (Hex.unsigned? UInt8.size digits).map UInt8.ofNat
  | name => (named.find? fun flag => flag.1.toList = name).map (·.2)

/-- Reads a set of flags; none for an empty part, an unknown name or a bad number. -/
def parse? (text : String) : Option LspFlags :=
  if (Text.trim text.toList).isEmpty then some ⟨0⟩
  else do
    let parts ← (text.toList.splitOn '|').mapM fun part => part? (Text.trim part)
    return ⟨parts.foldl (· ||| ·) 0⟩

end LspFlags

end LinkState
