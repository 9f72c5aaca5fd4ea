import LinkState.Octets

/-!
# The LSP checksum

Two running sums modulo 255 protect an LSP: the plain sum of the octets and the sum of its partial
sums. The two check octets are chosen so that both sums of the finished LSP vanish.
-/

namespace LinkState.Checksum

/-- The plain sum and the sum of the partial sums, each reduced modulo 255. -/
structure Sums where
  plain : Nat
  partials : Nat
deriving DecidableEq, Repr

/-- The sums after one more octet. -/
def Sums.add (sums : Sums) (octet : UInt8) : Sums :=
  let plain := (sums.plain + octet.toNat) % 255
  ⟨plain, (sums.partials + plain) % 255⟩

/-- The sums of an octet string. -/
def sums (octets : Octets) : Sums := octets.foldl Sums.add ⟨0, 0⟩

/-- The check octets lie this far in front of the end of an empty LSP: twelve octets of the covered
part precede them. -/
def position : Int := 12

/-- The first check octet, between 1 and 255, for octets whose own check octets are zero. -/
def first (sums : Sums) (size : Nat) : Int :=
  -- A remainder of zero is written as 255, which is the same modulo 255.
  let x := ((size - position - 1) * sums.plain - sums.partials).tmod 255
  if x ≤ 0 then x + 255 else x

/-- The second check octet, which makes the plain sum vanish. -/
def second (sums : Sums) (first : Int) : Int :=
  let y := 510 - sums.plain - first
  if 255 < y then y - 255 else y

/-- The check octets of a covered part whose own check octets are zero, as one word. -/
def compute (octets : Octets) : UInt16 :=
  let sums := sums octets
  let x := first sums octets.length
  let y := second sums x
  Octets.word16 (UInt8.ofInt x) (UInt8.ofInt y)

/-- A covered part is intact if both of its sums vanish. -/
def isValid (octets : Octets) : Bool := sums octets = ⟨0, 0⟩

end LinkState.Checksum
