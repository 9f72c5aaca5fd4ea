import LinkState.LspId
import LinkState.Wire.Header
import LinkState.Wire.Tlv
import LinkState.Lsp.Flags
import LinkState.Lsp.Checksum

/-!
# Link-state PDUs

An LSP is a header, a fixed part of lifetime, LSP ID, sequence number, checksum and flags, and a
body of TLVs. `Lsp.encode` writes it, with the length field computed and the checksum as it is
stored; `Lsp.decode` reads it from a frame. The length field bounds the body: octets of the frame
past it are padding, and a length past the end of the frame counts as its end. `Lsp.originate`
builds a new LSP and computes its checksum.
-/

namespace LinkState

/-- A link-state PDU. -/
structure Lsp where
  header : Header
  lifetime : UInt16
  id : LspId
  seqno : UInt32
  checksum : UInt16
  flags : LspFlags
  tlvs : List Tlv
deriving DecidableEq, Repr

namespace Lsp

/-- The size of the header and the fixed part. -/
def fixedSize : Nat := 27

/-- The size of what the checksum leaves out: everything in front of the LSP ID. -/
def uncoveredSize : Nat := 12

/-- The key of an LSP in the database. -/
def key (lsp : Lsp) : UInt64 := lsp.id.key

/-- The neighbors that an LSP advertises, over all of its TLVs. -/
def neighbors (lsp : Lsp) : List Neighbor :=
  lsp.tlvs.flatMap fun
    | .neighbors _ entries => entries
    | _ => []

/-- The prefixes that an LSP advertises, over all of its TLVs. -/
def prefixes (lsp : Lsp) : List Reach :=
  lsp.tlvs.flatMap fun
    | .prefixes entries => entries
    | _ => []

/-! ### Writing -/

/-- The part that the checksum covers: the LSP ID and all after it. -/
def covered (lsp : Lsp) : Octets :=
  lsp.id.toOctets ++ Octets.ofWord32 lsp.seqno ++ Octets.ofWord16 lsp.checksum ++
    [lsp.flags.bits] ++ lsp.tlvs.flatMap Tlv.encode

/-- The octets of an LSP. The length field is their number modulo `2^16`. -/
def encode (lsp : Lsp) : Octets :=
  let covered := lsp.covered
  lsp.header.encode (UInt8.ofNat fixedSize) ++
    Octets.ofWord16 (UInt16.ofNat (uncoveredSize + covered.length)) ++
    Octets.ofWord16 lsp.lifetime ++ covered

/-- Both sums over the covered part vanish. -/
def isChecksumValid (lsp : Lsp) : Bool := Checksum.isValid lsp.covered

/-- A new LSP with its checksum computed. -/
def originate (type : PduType) (lifetime : UInt16) (id : LspId) (seqno : UInt32)
    (flags : LspFlags) (tlvs : List Tlv) : Lsp :=
  let lsp : Lsp := ⟨.ofType type, lifetime, id, seqno, 0, flags, tlvs⟩
  { lsp with checksum := Checksum.compute lsp.covered }

/-! ### Reading -/

/-- An LSP together with the record that ended the reading of its body early. -/
structure Reading where
  lsp : Lsp
  truncation : Option Tlv.Truncation
deriving DecidableEq, Repr

/-- Reads the fixed part and the body behind a header. -/
def readBody (header : Header) : Octets → Except DecodeError Reading
  | l0 :: l1 :: t0 :: t1 :: i0 :: i1 :: i2 :: i3 :: i4 :: i5 :: i6 :: i7 ::
      s0 :: s1 :: s2 :: s3 :: c0 :: c1 :: flags :: body =>
    -- The length counts from the start of the header.
    let length := Octets.word16 l0 l1
    if length.toNat < fixedSize then .error (.invalidPduLength length)
    else
      let scan := Tlv.decodeAll (body.take (length.toNat - fixedSize))
      .ok {
        lsp := {
          header := header
          lifetime := Octets.word16 t0 t1
          id := ⟨⟨i0, i1, i2, i3, i4, i5⟩, i6, i7⟩
          seqno := Octets.word32 s0 s1 s2 s3
          checksum := Octets.word16 c0 c1
          flags := ⟨flags⟩
          tlvs := scan.tlvs }
        truncation := scan.truncation }
  | _ => .error .incompletePdu

/-- Reads the LSP behind `offset` octets of outer header. -/
def read (frame : Octets) (offset : Nat) : Except DecodeError Reading := do
  let (header, rest) ← Header.decode (frame.drop offset)
  if header.type.isLsp then readBody header rest
  else .error (.unexpectedPduType header.type.code)

/-- The LSP behind `offset` octets of outer header. -/
def decode (frame : Octets) (offset : Nat) : Except DecodeError Lsp :=
  (·.lsp) <$> read frame offset

end Lsp

end LinkState
