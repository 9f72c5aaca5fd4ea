import LinkState.Document.Text
import LinkState.Form.Record
import LinkState.Startup

/-!
# The command line

Reads a configuration from the standard input, as JSON, and runs its router for the number of
milliseconds given as the argument, or for one flooding interval. Prints what the router recorded, a
line for each record, and its final state. No input at all stands for the default configuration.
-/

namespace LinkState

/-- Reads the text of a configuration. -/
def Configuration.parse? (text : String) : Except String Configuration :=
  if (Text.trim text.toList).isEmpty then .ok .initial
  else match Document.parse? text with
    | none => .error "the configuration is not JSON"
    | some document => (Configuration.readForm document).mapError Misread.message

/-- The documents that a run of a configuration prints. -/
def Configuration.run (configuration : Configuration) (milliseconds : Option Nat) :
    List Document :=
  let traced : Traced Router := do
    let router ← configuration.start
    router.advance (milliseconds.getD router.period)
  traced.records.map Record.document ++ [traced.value.inst.snapshot.document write]

end LinkState

open LinkState in
/-- Runs the configuration on the standard input. -/
def main (arguments : List String) : IO UInt32 := do
  let text ← (← IO.getStdin).readToEnd
  match Configuration.parse? text with
  | .error message =>
    (← IO.getStderr).putStrLn ("Failed to parse configuration: " ++ message)
    return 1
  | .ok configuration =>
    let milliseconds := (arguments.head?.map String.toList).bind Decimal.nat?
    for document in configuration.run milliseconds do
      IO.println document.compact
    return 0
