import LinkState.Ip.V6

/-!
# UDP endpoints

An endpoint is an address and the number of a service at it: `127.0.0.1:7001`, or with the address
in brackets `[::1]:7001`. An IPv6 address may name its scope after a percent sign.
-/

namespace LinkState

/-- An address and the number of a service at it. -/
inductive Endpoint where
  | v4 (address : Ipv4.Address) (service : UInt16)
  | v6 (address : Ipv6.Address) (scope : UInt32) (service : UInt16)
deriving DecidableEq, Repr

namespace Endpoint

/-- The text of an endpoint; scope zero is not written. -/
def text : Endpoint → String
  | .v4 address service => address.text ++ ":" ++ toString service.toNat
  | .v6 address scope service =>
    "[" ++ address.text ++ (if scope = 0 then "" else "%" ++ toString scope.toNat) ++ "]:" ++
      toString service.toNat

/-- A service number: decimal digits, leading zeros allowed. -/
def service? (digits : List Char) : Option UInt16 :=
  ((Decimal.nat? digits).filter (· < UInt16.size)).map UInt16.ofNat

/-- What follows an IPv6 address: a scope if there is one, the closing bracket and the service. -/
def scopeAndService? : List Char → Option (UInt32 × UInt16)
  | ']' :: ':' :: digits => do return (0, ← service? digits)
  | '%' :: rest =>
    let scope := rest.takeWhile fun c => (Decimal.value? c).isSome
    match rest.drop scope.length with
    | ']' :: ':' :: digits => do
      let number ← (Decimal.nat? scope).filter (· < UInt32.size)
      return (UInt32.ofNat number, ← service? digits)
    | _ => none
  | _ => none

/-- Reads an endpoint. -/
def parse? (text : String) : Option Endpoint :=
  match text.toList with
  | '[' :: rest => do
    let (address, rest) ← Ipv6.Address.take? rest
    let (scope, service) ← scopeAndService? rest
    return .v6 address scope service
  | chars =>
    match chars.splitOn ':' with
    | [address, digits] => do return .v4 (← Ipv4.Address.ofChars? address) (← service? digits)
    | _ => none

end Endpoint

end LinkState
