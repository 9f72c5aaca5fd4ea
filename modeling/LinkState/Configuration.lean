import LinkState.Form.State

/-!
# The configuration of the daemon

Where and how to log, the protocol instance, and for every link the UDP tunnel that carries its
frames together with the neighbor that is known to be at its other end. All of it but a tunnel's
link and endpoints has defaults; fields that nothing asks for are refused everywhere.
-/

namespace LinkState

/-- How a log line is laid out. -/
inductive LogStyle where
  | compact
  | full
  | json
  | pretty
deriving DecidableEq, Repr

/-- When a new log file is begun. -/
inductive LogRotation where
  | never
  | hourly
  | daily
deriving DecidableEq, Repr

/-- What a log line shows. -/
structure LogFormat where
  style : LogStyle
  colors : Bool
  showThreadId : Bool
  showSource : Bool
deriving DecidableEq, Repr

/-- Logging to a file. -/
structure FileLogging where
  enabled : Bool
  dir : String
  name : String
  rotation : LogRotation
  format : LogFormat
deriving DecidableEq, Repr

/-- Logging to the standard output. -/
structure StdoutLogging where
  enabled : Bool
  format : LogFormat
deriving DecidableEq, Repr

/-- Where to log. -/
structure Logging where
  file : FileLogging
  stdout : StdoutLogging
deriving DecidableEq, Repr

/-- The UDP tunnel of a link. -/
structure Tunnel where
  link : String
  localEnd : Endpoint
  remoteEnd : Endpoint
  neighborSystemId : Option SystemId
  neighborAddress : Option Ipv4.Address
deriving DecidableEq, Repr

/-- The configuration of the daemon. -/
structure Configuration where
  logging : Logging
  inst : InstanceConfig
  tunnels : List Tunnel
deriving DecidableEq, Repr

/-! ### Defaults -/

/-- Full lines without colors. -/
def LogFormat.initial : LogFormat := ⟨.full, false, false, false⟩

/-- The log file is off unless it is asked for. -/
def FileLogging.initial : FileLogging :=
  ⟨false, "/var/log", "holo-lsrd.log", .never, .initial⟩

/-- The standard output is on unless it is turned off. -/
def StdoutLogging.initial : StdoutLogging := ⟨true, .initial⟩

/-- The default logging. -/
def Logging.initial : Logging := ⟨.initial, .initial⟩

/-- The configuration that counts when none is given. -/
def Configuration.initial : Configuration := ⟨.initial, .initial, []⟩

/-! ### Forms -/

/-- The names of the styles. -/
def LogStyle.named : List (String × LogStyle) :=
  [("compact", .compact), ("full", .full), ("json", .json), ("pretty", .pretty)]

/-- The names of the rotations. -/
def LogRotation.named : List (String × LogRotation) :=
  [("never", .never), ("hourly", .hourly), ("daily", .daily)]

/-- Reads a style. An empty object does for the content of a style, as null does. -/
def LogStyle.readForm : Reader LogStyle
  | .object [(name, .object [])] => Reader.variant LogStyle.named [] (.object [(name, .null)])
  | document => Reader.variant LogStyle.named [] document

instance : Form LogRotation :=
  ⟨Document.nameOf LogRotation.named, Reader.variant LogRotation.named []⟩

/-- The fields of a log format. -/
def LogFormat.fields : Fields LogFormat :=
  let initial := LogFormat.initial
  LogFormat.mk <$> .default "style" LogStyle.readForm initial.style
    <*> .default "colors" read initial.colors
    <*> .default "show_thread_id" read initial.showThreadId
    <*> .default "show_source" read initial.showSource

/-- The document of a log format. -/
def LogFormat.document (format : LogFormat) : Document :=
  .ofFields [
    ("style", Document.nameOf LogStyle.named format.style),
    ("colors", write format.colors),
    ("show_thread_id", write format.showThreadId),
    ("show_source", write format.showSource)]

/-- Reads a record whose fields stand beside those of a log format in one object. Faults of the
record's own fields are reported first, then those of the format, then other fields. -/
def LogFormat.readBeside (own : Fields (LogFormat → α)) : Reader α
  | .object entries => do
    let among (names : List String) := entries.filter fun entry => names.contains entry.1
    let record ← own.readObject false (among own.names)
    let format ← LogFormat.fields.readObject false (among LogFormat.fields.names)
    if entries.all fun entry => (own.names ++ LogFormat.fields.names).contains entry.1 then
      return record format
    else throw .unknownField
  | _ => .error .invalidType

/-- Reads the settings of the log file. -/
def FileLogging.readForm : Reader FileLogging :=
  let initial := FileLogging.initial
  LogFormat.readBeside <| FileLogging.mk <$> .default "enabled" read initial.enabled
    <*> .default "dir" read initial.dir <*> .default "name" read initial.name
    <*> .default "rotation" read initial.rotation

/-- Reads the settings of the standard output. -/
def StdoutLogging.readForm : Reader StdoutLogging :=
  LogFormat.readBeside <| StdoutLogging.mk <$> .default "enabled" read StdoutLogging.initial.enabled

/-- Reads the logging settings. -/
def Logging.readForm : Reader Logging :=
  let initial := Logging.initial
  Fields.strict <| Logging.mk <$> .default "file" FileLogging.readForm initial.file
    <*> .default "stdout" StdoutLogging.readForm initial.stdout

/-- The document of the log file's settings, with the format on its own. -/
def FileLogging.document (file : FileLogging) : Document :=
  .ofFields [
    ("enabled", write file.enabled),
    ("dir", write file.dir),
    ("name", write file.name),
    ("rotation", write file.rotation),
    ("fmt", file.format.document)]

/-- The document of the standard output's settings, with the format on its own. -/
def StdoutLogging.document (stdout : StdoutLogging) : Document :=
  .ofFields [("enabled", write stdout.enabled), ("fmt", stdout.format.document)]

instance : Form Tunnel where
  write tunnel := .ofFields [
    ("link", write tunnel.link),
    ("local", write tunnel.localEnd),
    ("remote", write tunnel.remoteEnd),
    ("neighbor_system_id", write tunnel.neighborSystemId),
    ("neighbor_addr", write tunnel.neighborAddress)]
  read := Fields.strict <| Tunnel.mk <$> .field "link" read <*> .field "local" read
    <*> .field "remote" read <*> .optional "neighbor_system_id" read
    <*> .optional "neighbor_addr" read

/-- Reads a configuration. -/
def Configuration.readForm : Reader Configuration :=
  let initial := Configuration.initial
  Fields.strict <| Configuration.mk <$> .default "logging" Logging.readForm initial.logging
    <*> .default "instance" read initial.inst <*> .default "transport" read initial.tunnels

/-- The document of a configuration, log file and standard output at the top. -/
def Configuration.document (configuration : Configuration) : Document :=
  .ofFields [
    ("file", configuration.logging.file.document),
    ("stdout", configuration.logging.stdout.document),
    ("instance", write configuration.inst),
    ("transport", write configuration.tunnels)]

end LinkState
