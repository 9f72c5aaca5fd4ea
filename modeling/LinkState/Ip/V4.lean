import LinkState.Octets
import LinkState.Text.Decimal

/-!
# IPv4 addresses and networks

An address is a 32-bit word, written as four decimal octets. A network is an address with the length
of its network part; host bits may be set, `Network.normalize` clears them. The mask of a length has
that many leading ones, and only such contiguous masks have a length.
-/

namespace LinkState.Ipv4

/-- An IPv4 address. -/
structure Address where
  word : UInt32
deriving DecidableEq, Repr, Inhabited

namespace Address

/-- The address of four octets. -/
def ofOctets (a b c d : UInt8) : Address := ⟨Octets.word32 a b c d⟩

/-- The four octets of an address. -/
def toOctets (address : Address) : Octets := Octets.ofWord32 address.word

/-- Dotted decimal text. -/
def text (address : Address) : String :=
  String.intercalate "." (address.toOctets.map fun octet => toString octet.toNat)

/-- Reads four decimal octets without leading zeros, separated by dots. -/
def ofChars? (chars : List Char) : Option Address :=
  match chars.splitOn '.' with
  | [a, b, c, d] => do
    return ofOctets (← Decimal.octet? a) (← Decimal.octet? b) (← Decimal.octet? c)
      (← Decimal.octet? d)
  | _ => none

/-- Reads an address. -/
def parse? (text : String) : Option Address := ofChars? text.toList

end Address

/-- An address together with the length of its network part. -/
structure Network where
  address : Address
  length : Fin 33
deriving DecidableEq, Repr

/-- The word with `length` leading ones. -/
def maskOfLength (length : Fin 33) : UInt32 :=
  UInt32.ofNat (UInt32.size - 1 <<< (32 - length.val))

/-- The number of leading ones of a contiguous mask; none if a one follows a zero. -/
def lengthOfMask? (mask : UInt32) : Option (Fin 33) :=
  (List.finRange 33).find? fun length => maskOfLength length = mask

namespace Network

/-- The mask of a network. -/
def mask (network : Network) : Address := ⟨maskOfLength network.length⟩

/-- The network with its host bits cleared. -/
def normalize (network : Network) : Network :=
  let host := 1 <<< (32 - network.length.val)
  { network with address := ⟨UInt32.ofNat (network.address.word.toNat / host * host)⟩ }

/-- The network of an address and a contiguous mask. -/
def ofMask? (address mask : Address) : Option Network :=
  (lengthOfMask? mask.word).map fun length => ⟨address, length⟩

/-- The text of a network: the address, a slash and the length. -/
def text (network : Network) : String :=
  network.address.text ++ "/" ++ toString network.length.val

/-- Reads what follows the slash: a contiguous mask in dotted form, or a number up to 32. -/
def lengthOfChars? (chars : List Char) : Option (Fin 33) :=
  match Address.ofChars? chars with
  | some mask => lengthOfMask? mask.word
  | none => (Decimal.unsigned? 33 chars).map (Fin.ofNat 33)

/-- Reads a network. Without a slash the network is the single address. -/
def parse? (text : String) : Option Network :=
  match text.toList.splitOn '/' with
  | [address] => do return ⟨← Address.ofChars? address, 32⟩
  | [address, length] => do return ⟨← Address.ofChars? address, ← lengthOfChars? length⟩
  | _ => none

end Network

end LinkState.Ipv4
