import LinkState.Form.Packet
import LinkState.Event

/-!
# Forms of records

A record is written with its level, its message, its fields and the texts of its spans. The fields
of an event are texts, but for a received LSP, which is written in full.
-/

namespace LinkState

/-- The fields of a fault. -/
def Fault.fields : Fault → List (String × Document)
  | transport fault => [("error", .text fault.detail)]
  | linkNotFound link => [("name", .text link)]
  | lspNotFound _ id => [("lsp_id", .text id.text)]
  | outputClosed link => [("name", .text link)]
  | undecodable _ reason => [("error", .text reason.message)]
  | rootNotFound systemId => [("system_id", .text systemId.text)]

/-- The fields of an event. -/
def Event.fields : Event → List (String × Document)
  | instanceCreated systemId => [("system_id", .text systemId.text)]
  | instanceStarted => []
  | adjacencyChanged _ before after =>
    [("old_state", .text before.text), ("new_state", .text after.text)]
  | lspReceived link lsp => [("link", .text link), ("data", write lsp)]
  | tlvTruncated truncation =>
    [("tlv_type", .ofNatText truncation.type.toNat),
      ("tlv_len", .ofNatText truncation.length.toNat),
      ("remaining", .ofNatText truncation.remaining)]
  | lspInstalled link lsp => ofLsp link lsp
  | lspDiscarded link lsp => ofLsp link lsp
  | lspOriginated lsp =>
    [("lsp_id", .text lsp.id.text), ("seqno", .ofNatText lsp.seqno.toNat),
      ("tlvs", .ofNatText lsp.tlvs.length)]
  | lspFlooded link id => [("link", .text link), ("lsp_id", .text id.text)]
  | spfStarted root => [("root", .text root.text)]
  | spfFinished vertices runs =>
    [("vertices", .ofNatText vertices), ("run_count", .ofNatText runs.toNat)]
  | routesUpdated routes => [("routes", .ofNatText routes)]
  | fault reason => reason.fields
where
  /-- The link and the LSP of an event. -/
  ofLsp (link : String) (lsp : Lsp) : List (String × Document) :=
    [("link", .text link), ("lsp_id", .text lsp.id.text), ("seqno", .ofNatText lsp.seqno.toNat)]

/-- The name of a level. -/
def Level.text : Level → String
  | debug => "DEBUG"
  | warn => "WARN"

/-- The document of a record. -/
def Record.document (record : Record) : Document :=
  .ofFields [
    ("level", .text record.event.level.text),
    ("message", .text record.event.message),
    ("fields", .ofFields record.event.fields),
    ("spans", .list (record.spans.map fun span => .text span.text))]

end LinkState
