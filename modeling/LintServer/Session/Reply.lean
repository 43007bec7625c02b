import LintServer.Daemon.Manager
import LintServer.Fault

/-!
# Replies

What the editor is answered. Commands answer with an object; handlers of
notifications answer with nothing.
-/

namespace LintServer.Session

inductive LintReply where
  | noUri
  | badUri (shown : LooseText)
  | failed (f : Fault)
  | noResult
  | done (count : Nat)
  deriving DecidableEq, Repr

structure DebugReport where
  lintEnabled : Bool
  daemonEnabled : Bool
  daemonPort : Int
  openDocuments : Nat
  effectivePath : Option LooseText := none
  command : Option (List LooseText) := none
  daemon : Option Daemon.Status := none
  fault : Option Fault := none
  deriving DecidableEq, Repr

inductive Reply where
  | nothing
  | flag (b : Bool)
  | lint (r : LintReply)
  | stopped (s : Daemon.Status)
  | report (r : DebugReport)
  deriving DecidableEq, Repr

abbrev Outcome := Except Fault Reply

def failure (text : LooseText) : Json :=
  .obj [("success", .bool false), ("error", .str text)]

def LintReply.json : LintReply → Json
  | .noUri => failure "URI não informado"
  | .badUri shown => failure (LooseText.ofString "URI inválido: " ++ shown)
  | .failed f => failure f.message
  | .noResult => failure "Lint não produziu resultado"
  | .done count => .obj [("success", .bool true), ("count", .int count)]

def known (fields : List (LooseText × Option Json)) : List (LooseText × Json) :=
  fields.filterMap fun (name, value) => value.map fun value => (name, value)

def statusJson (s : Daemon.Status) : Json :=
  .obj [("state", .str s.state.text),
    ("pid", (s.pid.map fun pid => Json.int pid).getD .null),
    ("alive", .bool s.alive),
    ("port", (s.port.map .int).getD .null),
    ("spawn_count", .int s.spawnCount)]

def DebugReport.json (r : DebugReport) : Json :=
  .obj (known [("lint_enabled", some (.bool r.lintEnabled)),
    ("daemon_enabled", some (.bool r.daemonEnabled)),
    ("daemon_port", some (.int r.daemonPort)),
    ("open_documents", some (.int r.openDocuments)),
    ("effective_path", r.effectivePath.map .str),
    ("command", r.command.map .ofTexts),
    ("daemon", r.daemon.map statusJson),
    ("error", r.fault.map fun f => .str f.message)])

def Reply.json : Reply → Json
  | .nothing => .null
  | .flag b => .bool b
  | .lint r => r.json
  | .stopped s => .obj [("success", .bool true), ("daemon", statusJson s)]
  | .report r => .obj [("success", .bool true), ("status", r.json)]

end LintServer.Session
