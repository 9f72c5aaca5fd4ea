import LinkState.Ip.V4
import LinkState.Text.Hex

/-!
# IPv6 addresses

An address is eight 16-bit groups. Text has the groups in hexadecimal, separated by colons; one run
of zero groups may be left out between two colons, and the last two groups may be written as an IPv4
address. Writing leaves out the first longest run of at least two zero groups.

The readers here take what they need from the front of a text and give back the rest.
-/

namespace LinkState.Ipv6

/-- An IPv6 address: eight groups. -/
structure Address where
  groups : List UInt16
  length_groups : groups.length = 8
deriving DecidableEq, Repr

namespace Address

/-! ### Reading -/

/-- One to four hexadecimal digits at the front; a longer row of digits is refused. -/
def group? (chars : List Char) : Option (UInt16 × List Char) :=
  let digits := chars.takeWhile fun c => (Hex.value? c).isSome
  if digits.length ≤ 4 then
    (Hex.nat? digits).map fun n => (UInt16.ofNat n, chars.drop digits.length)
  else none

/-- An IPv4 address at the front, as two groups. -/
def embedded? (chars : List Char) : Option (List UInt16 × List Char) := do
  let digit (c : Char) : Bool := (Decimal.value? c).isSome
  let take (chars : List Char) : Option (UInt8 × List Char) := do
    let digits := chars.takeWhile digit
    return (← Decimal.octet? digits, chars.drop digits.length)
  let dot : List Char → Option (List Char)
    | '.' :: rest => some rest
    | _ => none
  let (a, rest) ← take chars
  let (b, rest) ← take (← dot rest)
  let (c, rest) ← take (← dot rest)
  let (d, rest) ← take (← dot rest)
  return ([Octets.word16 a b, Octets.word16 c d], rest)

/-- The colon in front of every group but the first. -/
def separated (first : Bool) : List Char → Option (List Char)
  | chars => if first then some chars else match chars with
    | ':' :: rest => some rest
    | _ => none

/-- Groups at the front of a text, at most `room` of them and as many as there are; the flag tells
whether they end in an embedded IPv4 address, which needs room for two groups. -/
def groupsOf : (room : Nat) → (first : Bool) → List Char → List UInt16 × Bool × List Char
  | 0, _, chars => ([], false, chars)
  | room + 1, first, chars =>
    -- An embedded address takes two groups, so the last place is not tried for one.
    match if room = 0 then none else separated first chars >>= embedded? with
    | some (pair, rest) => (pair, true, rest)
    | none =>
      match separated first chars >>= group? with
      | some (group, rest) =>
        let (groups, embedded, rest) := groupsOf room false rest
        (group :: groups, embedded, rest)
      | none => ([], false, chars)

/-- The address with the given groups at its two ends and zeros between them. -/
def ofEnds? (head tail : List UInt16) : Option Address :=
  let groups := head ++ List.replicate (8 - head.length - tail.length) 0 ++ tail
  if h : groups.length = 8 then some ⟨groups, h⟩ else none

/-- An address at the front of a text. -/
def take? (chars : List Char) : Option (Address × List Char) :=
  let (head, embedded, rest) := groupsOf 8 true chars
  if head.length = 8 then (ofEnds? head []).map (·, rest)
  else if embedded then none
  else match rest with
    | ':' :: ':' :: rest =>
      let (tail, _, rest) := groupsOf (7 - head.length) true rest
      (ofEnds? head tail).map (·, rest)
    | _ => none

/-! ### Writing -/

/-- The number of zero groups at the front. -/
def zeros (groups : List UInt16) : Nat := (groups.takeWhile (· == 0)).length

/-- Start and length of the first longest run of zero groups. -/
def longestZeros (groups : List UInt16) : Nat × Nat :=
  (List.range groups.length).foldl (fun (start, length) i =>
    let here := zeros (groups.drop i)
    if length < here then (i, here) else (start, length)) (0, 0)

/-- Groups separated by colons. -/
def joined (groups : List UInt16) : String :=
  String.intercalate ":" (groups.map fun group => Hex.ofNat group.toNat)

/-- The text of an address; one that embeds an IPv4 address ends in dotted decimal. -/
def text (address : Address) : String :=
  match address.groups with
  -- Addresses that stand for an IPv4 address are written with it.
  | [0, 0, 0, 0, 0, 0xffff, high, low] =>
    "::ffff:" ++ Ipv4.Address.text ⟨UInt32.ofNat (65536 * high.toNat + low.toNat)⟩
  | groups =>
    let (start, length) := longestZeros groups
    if 1 < length then
      joined (groups.take start) ++ "::" ++ joined (groups.drop (start + length))
    else joined groups

end Address

end LinkState.Ipv6
