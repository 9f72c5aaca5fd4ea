import LinkState.Document.Basic
import LinkState.Text.Decimal
import LinkState.Text.Hex

/-!
# Documents as text

`Document.compact` writes a document as JSON without blanks; only quotes, backslashes and control
characters are escaped. `Document.parse?` reads JSON. A number without fraction and exponent is an
integer if it fits a 64-bit word, signed or unsigned; negative zero is none.
-/

namespace LinkState.Document

/-! ### Writing -/

/-- A character inside quotes. -/
def escaped (c : Char) : String :=
  match c with
  | '"' => "\\\""
  | '\\' => "\\\\"
  | '\n' => "\\n"
  | '\r' => "\\r"
  | '\t' => "\\t"
  | '\x08' => "\\b"
  | '\x0c' => "\\f"
  | c =>
    if c.toNat < 0x20 then "\\u00" ++ String.ofList (Hex.ofOctet (UInt8.ofNat c.toNat))
    else String.singleton c

/-- A text in quotes. -/
def quoted (text : String) : String := "\"" ++ String.join (text.toList.map escaped) ++ "\""

mutual

/-- The JSON text of a document, without blanks. -/
def compact : Document → String
  | null => "null"
  | bool value => if value then "true" else "false"
  | integer value => toString value
  | fraction literal => literal
  | text value => quoted value
  | list items => "[" ++ String.intercalate "," (compactItems items) ++ "]"
  | object fields => "\x7b" ++ String.intercalate "," (compactFields fields) ++ "\x7d"

/-- The texts of the items of a list. -/
def compactItems : List Document → List String
  | [] => []
  | item :: items => item.compact :: compactItems items

/-- The texts of the fields of an object. -/
def compactFields : List (String × Document) → List String
  | [] => []
  | (name, value) :: fields => (quoted name ++ ":" ++ value.compact) :: compactFields fields

end

/-! ### Reading -/

/-- A text without the blanks of JSON at its start. -/
def skipBlanks (chars : List Char) : List Char :=
  chars.dropWhile fun c => c = ' ' || c = '\t' || c = '\n' || c = '\r'

/-- The number that four hexadecimal digits write. -/
def hex4? (a b c d : Char) : Option Nat := Hex.nat? [a, b, c, d]

/-- A text up to its closing quote, and what follows. -/
def quotedRest? : List Char → Option (List Char × List Char)
  | '"' :: rest => some ([], rest)
  | '\\' :: 'u' :: a :: b :: c :: d :: rest =>
    match hex4? a b c d with
    | none => none
    | some high =>
      if 0xD800 ≤ high ∧ high < 0xDC00 then
        match rest with
        | '\\' :: 'u' :: a :: b :: c :: d :: rest =>
          match hex4? a b c d with
          | none => none
          | some low =>
            if 0xDC00 ≤ low ∧ low < 0xE000 then
              (quotedRest? rest).map fun (chars, rest) =>
                (Char.ofNat (0x10000 + 0x400 * (high - 0xD800) + (low - 0xDC00)) :: chars, rest)
            else none
        | _ => none
      else if 0xDC00 ≤ high ∧ high < 0xE000 then none
      else (quotedRest? rest).map fun (chars, rest) => (Char.ofNat high :: chars, rest)
  | '\\' :: c :: rest =>
    let unescaped : Option Char :=
      match c with
      | '"' => some '"'
      | '\\' => some '\\'
      | '/' => some '/'
      | 'n' => some '\n'
      | 'r' => some '\r'
      | 't' => some '\t'
      | 'b' => some '\x08'
      | 'f' => some '\x0c'
      | _ => none
    match unescaped with
    | none => none
    | some c => (quotedRest? rest).map fun (chars, rest) => (c :: chars, rest)
  | c :: rest =>
    if c.toNat < 0x20 then none
    else (quotedRest? rest).map fun (chars, rest) => (c :: chars, rest)
  | [] => none

/-- A row of digits at the front of a text, at least one. -/
def digits? (chars : List Char) : Option (List Char × List Char) :=
  let digits := chars.takeWhile fun c => (Decimal.value? c).isSome
  if digits.isEmpty then none else some (digits, chars.drop digits.length)

/-- A fraction at the front of a text, if there is one. -/
def fractionPart? : List Char → Option (List Char × List Char)
  | '.' :: rest => (digits? rest).map fun (digits, rest) => ('.' :: digits, rest)
  | chars => some ([], chars)

/-- An exponent at the front of a text, if there is one. -/
def exponentPart? (chars : List Char) : Option (List Char × List Char) :=
  match chars with
  | e :: rest =>
    if e = 'e' ∨ e = 'E' then
      match rest with
      | sign :: digits =>
        if sign = '+' ∨ sign = '-' then
          (digits? digits).map fun (digits, rest) => (e :: sign :: digits, rest)
        else (digits? rest).map fun (digits, rest) => (e :: digits, rest)
      | [] => none
    else some ([], chars)
  | [] => some ([], [])

/-- The document of a number's parts. -/
def ofNumber (negative : Bool) (digits others : List Char) : Document :=
  let literal := String.ofList ((if negative then ['-'] else []) ++ digits ++ others)
  match others, Decimal.nat? digits with
  | [], some n =>
    if negative then
      if 0 < n ∧ 2 * n ≤ UInt64.size then integer (-n) else fraction literal
    else if n < UInt64.size then integer n else fraction literal
  | _, _ => fraction literal

/-- A number at the front of a text. A leading zero stands alone. -/
def number? (chars : List Char) : Option (Document × List Char) := do
  let (negative, chars) := match chars with
    | '-' :: rest => (true, rest)
    | chars => (false, chars)
  let (digits, rest) ← digits? chars
  if digits.head? = some '0' ∧ digits.length ≠ 1 then none
  else
    let (places, rest) ← fractionPart? rest
    let (exponent, rest) ← exponentPart? rest
    return (ofNumber negative digits (places ++ exponent), rest)

mutual

/-- A value at the front of a text. Every value takes at least one character, so that the length of
the text is fuel enough. -/
def value? : (fuel : Nat) → List Char → Option (Document × List Char)
  | 0, _ => none
  | fuel + 1, chars =>
    match skipBlanks chars with
    | 'n' :: 'u' :: 'l' :: 'l' :: rest => some (null, rest)
    | 't' :: 'r' :: 'u' :: 'e' :: rest => some (bool true, rest)
    | 'f' :: 'a' :: 'l' :: 's' :: 'e' :: rest => some (bool false, rest)
    | '"' :: rest => (quotedRest? rest).map fun (chars, rest) => (text (String.ofList chars), rest)
    | '[' :: rest =>
      match skipBlanks rest with
      | ']' :: rest => some (list [], rest)
      | rest => (items? fuel rest).map fun (items, rest) => (list items, rest)
    | '\x7b' :: rest =>
      match skipBlanks rest with
      | '\x7d' :: rest => some (object [], rest)
      | rest => (fields? fuel rest).map fun (fields, rest) => (ofFields fields, rest)
    | rest => number? rest

/-- The items of a list up to its closing bracket. -/
def items? : (fuel : Nat) → List Char → Option (List Document × List Char)
  | 0, _ => none
  | fuel + 1, chars =>
    match value? fuel chars with
    | none => none
    | some (item, rest) =>
      match skipBlanks rest with
      | ']' :: rest => some ([item], rest)
      | ',' :: rest => (items? fuel rest).map fun (items, rest) => (item :: items, rest)
      | _ => none

/-- The fields of an object up to its closing brace. -/
def fields? : (fuel : Nat) → List Char → Option (List (String × Document) × List Char)
  | 0, _ => none
  | fuel + 1, chars =>
    match skipBlanks chars with
    | '"' :: rest =>
      match quotedRest? rest with
      | none => none
      | some (name, rest) =>
        match skipBlanks rest with
        | ':' :: rest =>
          match value? fuel rest with
          | none => none
          | some (value, rest) =>
            let field := (String.ofList name, value)
            match skipBlanks rest with
            | '\x7d' :: rest => some ([field], rest)
            | ',' :: rest => (fields? fuel rest).map fun (fields, rest) => (field :: fields, rest)
            | _ => none
        | _ => none
    | _ => none

end

/-- Reads the JSON text of one document. -/
def parse? (text : String) : Option Document :=
  let chars := text.toList
  match value? (2 * chars.length + 1) chars with
  | some (document, rest) => if (skipBlanks rest).isEmpty then some document else none
  | none => none

end LinkState.Document
