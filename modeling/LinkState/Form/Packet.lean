import LinkState.Form.Basic
import LinkState.Lsp.Basic

/-!
# Forms of PDUs

PDU types, decoding errors and TLVs are variants named as below; the flags of an LSP are written as
their text.
-/

namespace LinkState

/-- The names of the PDU types. -/
def PduType.named : List (String × PduType) :=
  [("HelloLanL1", .helloLanL1), ("HelloLanL2", .helloLanL2), ("HelloP2P", .helloP2P),
    ("LspL1", .lspL1), ("LspL2", .lspL2), ("CsnpL1", .csnpL1), ("CsnpL2", .csnpL2),
    ("PsnpL1", .psnpL1), ("PsnpL2", .psnpL2)]

/-- The names of the understood TLV types. -/
def TlvType.named : List (String × TlvType) :=
  [("IsReach", .neighbors), ("Ipv4InternalReach", .prefixes), ("Ipv4Addresses", .addresses)]

/-- The document of a value that has a name. -/
def Document.nameOf [DecidableEq α] (named : List (String × α)) (value : α) : Document :=
  ((named.find? fun entry => entry.2 = value).map fun entry => .text entry.1).getD .null

instance : Form PduType := ⟨Document.nameOf PduType.named, Reader.variant PduType.named []⟩

instance : Form TlvType := ⟨Document.nameOf TlvType.named, Reader.variant TlvType.named []⟩

instance : Form LspFlags := ⟨fun flags => .text flags.text, .formatted LspFlags.parse?⟩

instance : Form DecodeError where
  write
    | .incompletePdu => .text "IncompletePdu"
    | .invalidDiscriminator octet => .object [("InvalidIrdpDiscriminator", write octet)]
    | .unknownPduType code => .object [("UnknownPduType", write code)]
    | .unexpectedPduType code => .object [("InvalidPduType", write code)]
    | .invalidPduLength length => .object [("InvalidPduLength", write length)]
  read := .variant [("IncompletePdu", .incompletePdu)] [
    ("InvalidIrdpDiscriminator", fun d => .invalidDiscriminator <$> read d),
    ("UnknownPduType", fun d => .unknownPduType <$> read d),
    ("InvalidPduType", fun d => .unexpectedPduType <$> read d),
    ("InvalidPduLength", fun d => .invalidPduLength <$> read d)]

instance : Form Header where
  write header := .ofFields [
    ("proto_ext", write header.protoExt),
    ("id_len", write header.idLen),
    ("pdu_type", write header.type),
    ("version", write header.version),
    ("reserved", write header.reserved),
    ("max_area_addrs", write header.maxAreaAddrs)]
  read := Fields.lenient <| Header.mk <$> .field "proto_ext" read <*> .field "id_len" read
    <*> .field "pdu_type" read <*> .field "version" read <*> .field "reserved" read
    <*> .field "max_area_addrs" read

instance : Form Neighbor where
  write entry := .ofFields [
    ("metric", write entry.metric),
    ("neighbor", write entry.systemId),
    ("pseudonode", write entry.pseudonode)]
  read := Fields.lenient <| Neighbor.mk <$> .field "metric" read <*> .field "neighbor" read
    <*> .field "pseudonode" read

instance : Form Reach where
  write entry := .ofFields [("prefix", write entry.network), ("metric", write entry.metric)]
  read := Fields.lenient <| Reach.mk <$> .field "prefix" read <*> .field "metric" read

instance : Form Tlv where
  write
    | .neighbors reserved entries =>
      .object [("IsReach", .ofFields [("reserved", write reserved), ("list", write entries)])]
    | .prefixes entries => .object [("Ipv4Reach", .ofFields [("list", write entries)])]
    | .addresses entries => .object [("Ipv4Addresses", .ofFields [("list", write entries)])]
    | .unknown type length value =>
      .object [("Unknown", .ofFields [
        ("tlv_type", write type), ("length", write length), ("value", write value)])]
  read := .variant [] [
    ("IsReach", Fields.lenient <| Tlv.neighbors <$> .field "reserved" read <*> .field "list" read),
    ("Ipv4Reach", Fields.lenient <| Tlv.prefixes <$> .field "list" read),
    ("Ipv4Addresses", Fields.lenient <| Tlv.addresses <$> .field "list" read),
    ("Unknown", Fields.lenient <| Tlv.unknown <$> .field "tlv_type" read <*> .field "length" read
      <*> .field "value" Octets.readForm)]

instance : Form Lsp where
  write lsp := .ofFields [
    ("hdr", write lsp.header),
    ("rem_lifetime", write lsp.lifetime),
    ("lsp_id", write lsp.id),
    ("seqno", write lsp.seqno),
    ("cksum", write lsp.checksum),
    ("flags", write lsp.flags),
    ("tlvs", write lsp.tlvs)]
  read := Fields.lenient <| Lsp.mk <$> .field "hdr" read <*> .field "rem_lifetime" read
    <*> .field "lsp_id" read <*> .field "seqno" read <*> .field "cksum" read
    <*> .field "flags" read <*> .field "tlvs" read

end LinkState
