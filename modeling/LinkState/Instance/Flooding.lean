import LinkState.Instance.Basic

/-!
# Flooding

A received LSP that is more recent than what the database holds is flagged on every link but the one
it came from; an LSP of the router's own is flagged on every link. A scan of a link sends what is
flagged on it and clears the flags. If the network no longer takes frames, the flags of what was not
sent are set again.
-/

namespace LinkState.Instance

/-- What became of a received LSP. -/
inductive Reception where
  /-- It was stored and flagged on the other links. -/
  | installed
  /-- The database holds one that is at least as recent. -/
  | discarded
deriving DecidableEq, Repr

/-- Reports a record that ended the reading of an LSP early. -/
def reportTruncation : Option Tlv.Truncation → Traced Unit
  | none => pure ()
  | some truncation => Traced.emit (.tlvTruncated truncation)

/-- Stores a received LSP in the database. -/
def installLsp (inst : Instance) (lsp : Lsp) : Instance × Installation :=
  let (database, installation) := Database.install inst.database lsp
  ({ inst with database := database }, installation)

/-- Flags an LSP on every link but those with the given name, where the flag is cleared. -/
def flagElsewhere (inst : Instance) (id : LspId) (name : String) : Instance :=
  { inst with links := inst.links.map fun link => link.setFlag id (link.name ≠ name) }

/-- Processes a frame received on a link. -/
def receive (inst : Instance) (name : String) (frame : Octets) :
    Traced (Except Fault Reception × Instance) :=
  match inst.linkIndex? name with
  | none => pure (.error (.linkNotFound name), inst)
  | some _ =>
    match Lsp.read frame 0 with
    | .error reason => pure (.error (.undecodable name reason), inst)
    | .ok reading => do
      let lsp := reading.lsp
      reportTruncation reading.truncation
      Traced.emit (.lspReceived name lsp)
      match inst.installLsp lsp with
      | (_, .stale) =>
        Traced.emit (.lspDiscarded name lsp)
        return (.ok .discarded, inst)
      | (inst, _) =>
        Traced.emit (.lspInstalled name lsp)
        return (.ok .installed, (inst.flagElsewhere lsp.id name).trigger)

/-! ### Scanning a link -/

/-- Sending a row of LSPs: the number that was sent, the LSPs from the first refused one on, and the
channel afterwards. -/
structure Sending where
  sent : Nat
  unsent : List LspId
  channel : Channel Transmission

/-- Sends the stored LSPs with the given IDs on a link, up to the first one that is refused. -/
def sendAll (database : Database) (link : String) :
    List LspId → Channel Transmission → Traced Sending
  | [], channel => pure ⟨0, [], channel⟩
  | id :: ids, channel =>
    match Database.encode? database id with
    -- What is flagged but no longer stored is skipped.
    | none => do
      Traced.emit (.fault (.lspNotFound link id))
      sendAll database link ids channel
    | some data =>
      match channel.send? ⟨link, data⟩ with
      | none => pure ⟨0, id :: ids, channel⟩
      | some channel => do
        Traced.emit (.lspFlooded link id)
        let sending ← sendAll database link ids channel
        return { sending with sent := sending.sent + 1 }

/-- Sends what is flagged on the link at a position, and gives the number of LSPs sent. -/
def scan (inst : Instance) (position : Nat) : Traced (Nat × Instance) :=
  match inst.links[position]? with
  | none => pure (0, inst)
  | some link => do
    let (ids, cleared) := link.takeFlagged
    let sending ← sendAll inst.database link.name ids inst.transmissions
    let restored := sending.unsent.foldl (fun link id => link.setFlag id true) cleared
    if !sending.unsent.isEmpty then
      Traced.emit (.fault (.outputClosed link.name))
    return (sending.sent, { inst with
      links := inst.links.set position restored
      transmissions := sending.channel })

/-! ### The router's own LSP -/

/-- Stores the router's own LSP for the present state of its links under the next sequence number.
-/
def storeOwnLsp (inst : Instance) : Lsp × Instance :=
  let seqno := inst.seqno + 1
  let lsp := Lsp.ofLinks inst.systemId inst.links seqno inst.config.lspLifetime
  (lsp, { inst with seqno := seqno, database := Database.store inst.database lsp })

/-- Flags an LSP on every link. -/
def flagEverywhere (inst : Instance) (id : LspId) : Instance :=
  { inst with links := inst.links.map fun link => link.setFlag id true }

/-- Renews the router's own LSP. -/
def originate (inst : Instance) : Traced (Lsp × Instance) := do
  let (lsp, inst) := inst.storeOwnLsp
  Traced.emit (.lspOriginated lsp)
  return (lsp, (inst.flagEverywhere lsp.id).trigger)

/-- Takes over an adjacency from the neighbor handshake. The router's own LSP is renewed when the
adjacency comes up or goes down. -/
def changeAdjacency (inst : Instance) (now : Timestamp) (name : String) (adjacency : Adjacency) :
    Traced (Except Fault Unit × Instance) :=
  match inst.linkIndex? name with
  | none => pure (.error (.linkNotFound name), inst)
  | some position =>
    match inst.links[position]? with
    | none => pure (.error (.linkNotFound name), inst)
    | some link => do
      let (old, link) ← link.updateAdjacency now adjacency
      let inst := { inst with links := inst.links.set position link }
      -- Only an adjacency that comes up or goes down changes what the LSP says.
      if old ≠ adjacency.state ∧ (old = .up ∨ adjacency.state = .up) then
        let (_, inst) ← inst.originate
        return (.ok (), inst)
      else return (.ok (), inst)

end LinkState.Instance
