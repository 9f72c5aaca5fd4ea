import LinkState.Wire.PduType

/-!
# The common header

Every PDU starts with eight octets: a fixed discriminator, the length of the fixed part, the
protocol extension, the length of system IDs, the type, the version, a reserved octet and the
maximum number of area addresses. The length of the fixed part follows from the type and is not
kept.
-/

namespace LinkState

/-- The first octet of every PDU. -/
def discriminator : UInt8 := 0x83

/-- The header fields that a PDU keeps. -/
structure Header where
  protoExt : UInt8
  idLen : UInt8
  type : PduType
  version : UInt8
  reserved : UInt8
  maxAreaAddrs : UInt8
deriving DecidableEq, Repr

namespace Header

/-- The header of a PDU that this router builds: version 1, system IDs of the usual length. -/
def ofType (type : PduType) : Header := ⟨1, 0, type, 1, 0, 0⟩

/-- Reads the header in front of a PDU and gives the octets after it. -/
def decode : Octets → Except DecodeError (Header × Octets)
  | start :: _ :: protoExt :: idLen :: type :: version :: reserved :: maxAreaAddrs :: rest =>
    if start ≠ discriminator then .error (.invalidDiscriminator start)
    else match PduType.ofCode? (PduType.codeOfOctet type) with
      | some type => .ok (⟨protoExt, idLen, type, version, reserved, maxAreaAddrs⟩, rest)
      | none => .error (.unknownPduType (PduType.codeOfOctet type))
  | _ => .error .incompletePdu

/-- The eight octets of a header whose PDU has a fixed part of `fixed` octets. -/
def encode (header : Header) (fixed : UInt8) : Octets :=
  [discriminator, fixed, header.protoExt, header.idLen, header.type.code, header.version,
    header.reserved, header.maxAreaAddrs]

end Header

end LinkState
