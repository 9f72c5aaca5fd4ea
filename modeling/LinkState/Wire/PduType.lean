import LinkState.Octets

/-!
# PDU types and decoding errors

The nine PDU types of the protocol with their codes, and the reasons for which a frame is refused.
-/

namespace LinkState

/-- The type of a protocol data unit. -/
inductive PduType where
  | helloLanL1
  | helloLanL2
  | helloP2P
  | lspL1
  | lspL2
  | csnpL1
  | csnpL2
  | psnpL1
  | psnpL2
deriving DecidableEq, Repr

namespace PduType

/-- All types, in the order of their codes. -/
def all : List PduType :=
  [helloLanL1, helloLanL2, helloP2P, lspL1, lspL2, csnpL1, csnpL2, psnpL1, psnpL2]

/-- The code of a type in the header. -/
def code : PduType → UInt8
  | helloLanL1 => 15
  | helloLanL2 => 16
  | helloP2P => 17
  | lspL1 => 18
  | lspL2 => 20
  | csnpL1 => 24
  | csnpL2 => 25
  | psnpL1 => 26
  | psnpL2 => 27

/-- The type with a given code. -/
def ofCode? (code : UInt8) : Option PduType := all.find? fun type => type.code = code

/-- The three high bits of the type octet are reserved and not part of the code. -/
def codeOfOctet (octet : UInt8) : UInt8 := UInt8.ofNat (octet.toNat % 32)

/-- The types that carry an LSP. -/
def isLsp (type : PduType) : Bool := type = lspL1 || type = lspL2

/-- The types of the neighbor handshake. -/
def isHello (type : PduType) : Bool := type = helloLanL1 || type = helloLanL2 || type = helloP2P

/-- A code belongs to at most one type. -/
theorem ofCode?_code (type : PduType) : ofCode? type.code = some type := by
  cases type <;> rfl

/-- A type is found under its code and under no other one. -/
theorem ofCode?_eq_some_iff {code : UInt8} {type : PduType} :
    ofCode? code = some type ↔ type.code = code := by
  constructor
  · intro h
    unfold ofCode? at h
    simpa using List.find?_some h
  · rintro rfl
    exact ofCode?_code type

end PduType

/-- The reasons for which a frame is refused. -/
inductive DecodeError where
  | incompletePdu
  | invalidDiscriminator (octet : UInt8)
  | unknownPduType (code : UInt8)
  | unexpectedPduType (code : UInt8)
  | invalidPduLength (length : UInt16)
deriving DecidableEq, Repr

/-- The wording of an error. -/
def DecodeError.message : DecodeError → String
  | incompletePdu => "incomplete PDU"
  | invalidDiscriminator octet => "invalid IDRP discriminator: " ++ toString octet.toNat
  | unknownPduType code => "unknown PDU type: " ++ toString code.toNat
  | unexpectedPduType code => "unexpected PDU type: " ++ toString code.toNat
  | invalidPduLength length => "invalid PDU length: " ++ toString length.toNat

end LinkState
