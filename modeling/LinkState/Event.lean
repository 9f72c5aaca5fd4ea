import LinkState.Adjacency
import LinkState.Fault
import LinkState.Lsp.Basic

/-!
# Events and traced results

Every operation of a router reports what it does as events. An event is recorded together with the
spans that surround it, the outermost first. `Traced` is a result with the records made on the way;
operations are written in its monad, and `Traced.within` puts a whole operation into further spans.
-/

namespace LinkState

/-- The weight of an event. -/
inductive Level where
  | debug
  | warn
deriving DecidableEq, Repr

/-- An activity that events happen within. -/
inductive Span where
  | link (name : String)
  | network
  | input
  | lspInput
  | flooding
  | spf
deriving DecidableEq, Repr

/-- The name of a span and its field, if it has one. -/
def Span.text : Span → String
  | link name => "link name=" ++ name
  | network => "network"
  | input => "input"
  | lspInput => "lsp-input"
  | flooding => "flooding"
  | spf => "spf"

/-- Something worth reporting. -/
inductive Event where
  | instanceCreated (systemId : SystemId)
  | instanceStarted
  | adjacencyChanged (link : String) (before after : AdjacencyState)
  | lspReceived (link : String) (lsp : Lsp)
  | tlvTruncated (truncation : Tlv.Truncation)
  | lspInstalled (link : String) (lsp : Lsp)
  | lspDiscarded (link : String) (lsp : Lsp)
  | lspOriginated (lsp : Lsp)
  | lspFlooded (link : String) (id : LspId)
  | spfStarted (root : SystemId)
  | spfFinished (vertices : Nat) (runs : UInt64)
  | routesUpdated (routes : Nat)
  | fault (reason : Fault)
deriving DecidableEq, Repr

namespace Event

/-- Faults are warnings. -/
def level : Event → Level
  | fault _ => .warn
  | _ => .debug

/-- The wording of an event. -/
def message : Event → String
  | instanceCreated _ => "instance created"
  | instanceStarted => "starting instance"
  | adjacencyChanged .. => "adjacency state change"
  | lspReceived .. => "PDU"
  | tlvTruncated _ => "TLV length exceeds PDU, stopping TLV parsing"
  | lspInstalled .. => "installing LSP"
  | lspDiscarded .. => "discarding LSP"
  | lspOriginated _ => "originating LSP"
  | lspFlooded .. => "flooding LSP"
  | spfStarted _ => "starting SPF computation"
  | spfFinished .. => "SPF computation finished"
  | routesUpdated _ => "route candidates updated"
  | fault reason => reason.message

/-- The spans that an event brings with it. -/
def spans : Event → List Span
  | adjacencyChanged link .. => [.link link]
  | lspReceived .. => [.network, .input]
  | fault (.lspNotFound link _) => [.link link]
  | fault (.undecodable link _) => [.link link]
  | _ => []

end Event

/-- An event and the spans around it. -/
structure Record where
  spans : List Span
  event : Event
deriving DecidableEq, Repr

/-- A result with the records made on the way, oldest first. -/
structure Traced (α : Type u) where
  value : α
  records : List Record

namespace Traced

instance : Monad Traced where
  pure value := ⟨value, []⟩
  bind traced next :=
    let rest := next traced.value
    ⟨rest.value, traced.records ++ rest.records⟩

instance : LawfulMonad Traced := .mk' Traced
  (fun traced => by cases traced; simp [Functor.map])
  (fun _ _ => by simp [bind, pure])
  (fun _ _ _ => by simp [bind])

/-- Records an event. -/
def emit (event : Event) : Traced Unit := ⟨(), [⟨event.spans, event⟩]⟩

/-- Puts all records into further spans. -/
def within (spans : List Span) (traced : Traced α) : Traced α :=
  { traced with records := traced.records.map fun record =>
      { record with spans := spans ++ record.spans } }

end Traced

end LinkState
