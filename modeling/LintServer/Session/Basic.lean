import LintServer.Lint.Linter
import LintServer.Session.Parameter
import LintServer.Session.Reply
import LintServer.Session.Schedule
import LintServer.Settings
import LintServer.Workspace

/-!
# Sessions

A session holds the settings, the open documents and the schedule of the steps
that have not ended. A step runs until its pass waits for an arrival, and goes
on in a later turn.
-/

namespace LintServer

/-- What a session has no say in: how deep values may be nested where they are shown, and in
which order the loop of a step takes the open documents. -/
structure Session.Conditions where
  nesting : Json.Nesting := default
  order : Nat → List LooseText → List LooseText := fun _ documents => documents
  perm : ∀ step documents, (order step documents).Perm documents := by exact fun _ _ => .rfl

instance : Inhabited Session.Conditions := ⟨{}⟩

structure Session where
  conditions : Session.Conditions := default
  settings : Settings := {}
  /-- The open documents, each of them once. -/
  documents : List LooseText := []
  linter : Lint.Linter := {}
  /-- The folders of the workspace, as the editor names them. -/
  folders : List Json := []
  schedule : Session.Schedule := {}
  /-- The steps that have ended and are not shown yet, the first first. -/
  ended : List (Nat × Session.Outcome) := []

namespace Session

def insertDocument (uri : LooseText) (documents : List LooseText) : List LooseText :=
  if uri ∈ documents then documents else documents ++ [uri]

def publish (s : Session) (uri : LooseText) (ds : List Diagnostic) : Session :=
  { s with linter := s.linter.publish uri ds }

def forget (s : Session) (uri : LooseText) : Session :=
  { s with linter := s.linter.forget uri }

def stopDaemon (s : Session) : Session :=
  { s with linter := s.linter.stopDaemon }

def finish (s : Session) (step : Nat) (outcome : Outcome) : Session :=
  { s with ended := s.ended ++ [(step, outcome)] }

def reschedule (s : Session) (f : Schedule → Schedule) : Session :=
  { s with schedule := f s.schedule }

def conclude (s : Session) (uri : LooseText) (sequence : Nat) (output : Except Fault String) :
    Lint.PassEnd × Session :=
  let (e, linter) := s.linter.conclude uri sequence output
  (e, { s with linter := linter })

/-- Starts a pass over a document. A run of the tool that no gate holds back ends it. -/
def startPass (s : Session) (uri : LooseText) (file : Path) : Lint.Started × Session :=
  match Workspace.workingFolder s.folders file with
  | .error e => (.ended (.error (.host e)), s)
  | .ok folder =>
    let (started, linter) := s.linter.start s.settings uri file folder
    let s := { s with linter := linter }
    match started with
    | .waiting sequence (.tool run) =>
      if (s.schedule.gateOf (.tool run)).isSome then (started, s)
      else
        let (e, s) := s.conclude uri sequence (Tool.finish run)
        (.ended e, s)
    | _ => (started, s)

/-- A step waits for an arrival. The daemon is taken at once if it is free. -/
def suspend (s : Session) (job : Job) (arrival : Lint.Arrival) : Session :=
  match arrival with
  | .daemon c a =>
    if s.schedule.daemonTaken then s.reschedule (·.queue ⟨job, arrival⟩)
    else
      let (o, linter) := s.linter.seek c a
      { s with linter := linter.handOver o, schedule := s.schedule.takeDaemon.push (.operate job o) }
  | _ => s.reschedule (·.park ⟨job, arrival⟩)

/-- A pass that ended with a fault leaves its document without diagnostics. -/
def clearAfter (s : Session) (uri : LooseText) : Lint.PassEnd → Session
  | .error _ => s.publish uri []
  | .ok _ => s

def lintReply : Lint.PassEnd → LintReply
  | .error e => .failed e
  | .ok none => .noResult
  | .ok (some ds) => .done ds.length

/-- Lints documents one after the other. A document whose URI is faulty ends this early. -/
def relint (s : Session) (step : Nat) : List LooseText → Session
  | [] => s.finish step (.ok .nothing)
  | uri :: rest =>
    match Uri.toPath? uri with
    | .error _ => s.finish step (.ok .nothing)
    | .ok none => s.relint step rest
    | .ok (some file) =>
      match s.startPass uri file with
      | (.ended e, s) => (s.clearAfter uri e).relint step rest
      | (.waiting sequence a, s) => s.suspend ⟨step, .relint rest, uri, sequence⟩ a

def goOn (s : Session) (step : Nat) (task : Task) (uri : LooseText) (e : Lint.PassEnd) : Session :=
  let s := s.clearAfter uri e
  match task with
  | .document => s.finish step (.ok .nothing)
  | .command => s.finish step (.ok (.lint (lintReply e)))
  | .relint rest => s.relint step rest

def startTask (s : Session) (step : Nat) (task : Task) (uri : LooseText) (file : Path) : Session :=
  match s.startPass uri file with
  | (.ended e, s) => s.goOn step task uri e
  | (.waiting sequence a, s) => s.suspend ⟨step, task, uri, sequence⟩ a

end Session

end LintServer
