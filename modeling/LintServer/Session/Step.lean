import LintServer.Session.Run

/-!
# Steps of a session

What the editor sends, and what happens outside between its messages. A step
takes all turns that it gives rise to.
-/

namespace LintServer.Session

inductive Message where
  | opened (uri : LooseText)
  | saved (uri : LooseText)
  | closed (uri : LooseText)
  | configured (payload : Json)
  | lint (params : Json)
  | stopDaemon
  | debugStatus
  | shutdown
  | isCurrent (uri : LooseText) (sequence : Int)
  | release (gate : String)
  | exit (pid : Nat) (code : Int)
  | exitHook
  | setFolders (folders : List Json)
  | setDisk (disk : Disk)

/-- A document was opened or saved. One without a local path is only remembered. -/
def touch (s : Session) (step : Nat) (uri : LooseText) : Session :=
  let s := { s with documents := insertDocument uri s.documents }
  match Uri.toPath? uri with
  | .error e => s.finish step (.error (.host e))
  | .ok none => s.finish step (.ok .nothing)
  | .ok (some file) => s.startTask step .document uri file

/-- A document was closed: its passes show nothing any more. -/
def closeDocument (s : Session) (uri : LooseText) : Session :=
  publish { s.forget uri with documents := s.documents.filter (· != uri) } uri []

def clearAll (s : Session) (uris : List LooseText) : Session :=
  uris.foldl (fun s uri => (s.forget uri).publish uri []) s

/-- Takes over settings. A daemon that the new ones do not ask for is let go. -/
def adopt (s : Session) (new : Settings) : Session :=
  let old := s.settings
  let s := { s with
    settings := new
    linter := { s.linter with resolver := s.linter.resolver.invalidate } }
  if old.daemonEnabled && (!new.daemonEnabled || old.daemonPort != new.daemonPort) then s.stopDaemon else s

/-- The editor sent settings. Payloads that cannot be read change nothing. -/
def configure (s : Session) (step : Nat) (payload : Json) : Session :=
  match Settings.ofJson s.conditions.nesting payload with
  | .error _ => s.finish step (.ok .nothing)
  | .ok new =>
    let old := s.settings
    let s := s.adopt new
    let documents := s.conditions.order step s.documents
    if !new.lintEnabled then (s.clearAll documents).finish step (.ok .nothing)
    else if old ≠ new then s.relint step documents
    else s.finish step (.ok .nothing)

def lintCommand (s : Session) (step : Nat) (params : Json) : Session :=
  let given := parameter "uri" params
  if !given.isGiven then s.finish step (.ok (.lint .noUri))
  else
    match given with
    | .str uri =>
      match Uri.toPath? uri with
      | .error e => s.finish step (.error (.host e))
      | .ok none => s.finish step (.ok (.lint (.badUri uri)))
      | .ok (some file) => s.startTask step .command uri file
    | other =>
      match other.display s.conditions.nesting with
      | .error e => s.finish step (.error (.unshowable e))
      | .ok text => s.finish step (.ok (.lint (.badUri text)))

def daemonStatus (s : Session) : Daemon.Status :=
  s.linter.daemon.status s.linter.world

def debugReport (s : Session) : DebugReport × Session :=
  let report : DebugReport := {
    lintEnabled := s.settings.lintEnabled
    daemonEnabled := s.settings.daemonEnabled
    daemonPort := s.settings.daemonPort
    openDocuments := s.documents.length }
  let l := s.linter
  match l.resolver.effectivePath s.settings l.world with
  | (.error e, resolver, world) =>
    ({ report with fault := some e }, { s with linter := { l with resolver := resolver, world := world } })
  | (.ok path, resolver, world) =>
    let report := { report with effectivePath := some path }
    match { l with resolver := resolver, world := world }.command s.settings [] with
    | (.error e, l) => ({ report with fault := some e }, { s with linter := l })
    | (.ok command, l) =>
      let s := { s with linter := l }
      ({ report with command := some command, daemon := some s.daemonStatus }, s)

def changeWorld (s : Session) (f : World → World) : Session :=
  { s with linter := { s.linter with world := f s.linter.world } }

/-- Acts on a message, up to where the step waits. -/
def receive (s : Session) (step : Nat) : Message → Session
  | .opened uri | .saved uri => s.touch step uri
  | .closed uri => (s.closeDocument uri).finish step (.ok .nothing)
  | .configured payload => s.configure step payload
  | .lint params => s.lintCommand step params
  | .stopDaemon =>
    let s := s.stopDaemon
    s.finish step (.ok (.stopped s.daemonStatus))
  | .debugStatus =>
    let (report, s) := s.debugReport
    s.finish step (.ok (.report report))
  | .shutdown => s.stopDaemon.finish step (.ok .nothing)
  | .isCurrent uri sequence => s.finish step (.ok (.flag (s.linter.ledger.isCurrent uri sequence)))
  | .release gate => (s.reschedule (·.release gate)).finish step (.ok .nothing)
  | .exit pid code => (s.changeWorld (·.exit pid code)).finish step (.ok .nothing)
  | .exitHook => finish { s with linter := s.linter.runExitHook } step (.ok .nothing)
  | .setFolders folders => finish { s with folders := folders } step (.ok .nothing)
  | .setDisk disk => (s.changeWorld fun w => { w with disk := disk }).finish step (.ok .nothing)

/-- What a step shows: its own outcome unless it waits, and the earlier steps that ended during it. -/
structure Shown where
  outcome : Option Outcome
  finished : List (Nat × Outcome) := []

def step (s : Session) (step : Nat) (m : Message) : Shown × Session :=
  let s := (s.receive step m).run
  (⟨s.ended.lookup step, s.ended.filter (·.1 != step)⟩, { s with ended := [] })

end LintServer.Session
