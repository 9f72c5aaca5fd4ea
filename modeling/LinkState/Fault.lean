import LinkState.LspId
import LinkState.Wire.PduType

/-!
# Faults

What can go wrong while the protocol runs. A fault has a message, and may have causes of its own,
which `Fault.report` adds in brackets.
-/

namespace LinkState

/-- A failed operation on a link's socket, with the system's own words. -/
inductive TransportFault where
  | socket (detail : String)
  | receive (detail : String)
  | send (detail : String)
deriving DecidableEq, Repr

namespace TransportFault

/-- What was attempted. -/
def message : TransportFault → String
  | socket _ => "failed to create socket"
  | receive _ => "failed to receive packet"
  | send _ => "failed to send packet"

/-- The system's own words. -/
def detail : TransportFault → String
  | socket detail => detail
  | receive detail => detail
  | send detail => detail

end TransportFault

/-- Something that went wrong while the protocol runs. -/
inductive Fault where
  | transport (fault : TransportFault)
  | linkNotFound (link : String)
  | lspNotFound (link : String) (id : LspId)
  /-- The receiver of outgoing frames is gone; what was not sent stays flagged. -/
  | outputClosed (link : String)
  | undecodable (link : String) (reason : DecodeError)
  /-- The database holds no LSP of the router itself. -/
  | rootNotFound (systemId : SystemId)
deriving DecidableEq, Repr

namespace Fault

/-- The wording of a fault, without its causes. -/
def message : Fault → String
  | transport fault => fault.message
  | linkNotFound _ => "link not found"
  | lspNotFound _ _ => "LSP not found in the database"
  | outputClosed _ => "output channel closed, LSPs left pending"
  | undecodable _ _ => "failed to decode packet"
  | rootNotFound _ => "local LSP not found, aborting SPF run"

/-- The causes of a fault, each the cause of the one before. -/
def causes : Fault → List String
  | transport fault => [fault.message, fault.detail]
  | undecodable _ reason => [reason.message]
  | _ => []

/-- A message with its causes in nested brackets. -/
def nested (message : String) : List String → String
  | [] => message
  | cause :: causes => message ++ " (" ++ nested cause causes ++ ")"

/-- The wording of a fault together with its causes. -/
def report (fault : Fault) : String := nested fault.message fault.causes

end Fault

end LinkState
