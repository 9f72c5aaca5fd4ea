import LinkState.Wire.Header

/-!
# Sorting inbound frames

A frame on a link is an outer header of a known length and a PDU. By the discriminator and the type,
hellos go to the neighbor handshake and LSPs to the database; every other frame is refused. Only the
first five octets of the PDU are looked at.
-/

namespace LinkState

/-- A frame with a destination. -/
inductive Frame where
  /-- Handed to the neighbor handshake. -/
  | hello (payload : Octets)
  /-- Handed to the link's LSP worker. -/
  | lsp (payload : Octets)
deriving DecidableEq, Repr

/-- Finds the destination of a frame behind `offset` octets of outer header. -/
def Frame.classify (frame : Octets) (offset : Nat) : Except DecodeError Frame :=
  let payload := frame.drop offset
  match payload with
  | start :: _ :: _ :: _ :: type :: _ =>
    let code := PduType.codeOfOctet type
    if start ≠ discriminator then .error (.invalidDiscriminator start)
    else match PduType.ofCode? code with
      | none => .error (.unknownPduType code)
      | some type =>
        if type.isHello then .ok (.hello payload)
        else if type.isLsp then .ok (.lsp payload)
        else .error (.unexpectedPduType code)
  | _ => .error .incompletePdu

end LinkState
