import LintServer.Json.Basic
import LintServer.World.Accident

/-!
# Scripts

How the world outside behaves is told ahead: one entry for every program run,
connection, daemon start and probe.
-/

namespace LintServer

/-- A program run once. Where it has a gate, it ends only after the gate is released. -/
structure ToolRun where
  startError : Option Accident := none
  gate : Option String := none
  waitError : Option Accident := none
  stdout : List UInt8 := []
  stderr : List UInt8 := []
  code : Int := 0
  deriving DecidableEq, Repr

/-- A connection. Where it has a gate, the reply comes only after the gate is released. -/
structure Connection where
  connectError : Option Accident := none
  writeError : Option Accident := none
  drainError : Option Accident := none
  canHalfClose : Bool := true
  halfCloseError : Option Accident := none
  gate : Option String := none
  readError : Option Accident := none
  closeError : Option Accident := none
  reply : List UInt8 := []
  /-- How deep the values in the reply may be nested. -/
  nesting : Json.Nesting := default
  deriving DecidableEq, Repr

def Connection.refused : Connection :=
  { connectError := some (.system .connectionRefused "Connection refused") }

def Connection.timedOut : Connection :=
  { connectError := some (.system .timedOut "") }

inductive KillEffect where
  | exits
  | fails (kind : SystemError) (text : String)
  | lingers
  deriving DecidableEq, Repr

/-- What the operating system answers to a kill. -/
def KillEffect.answer : KillEffect → Except Accident Unit
  | .fails kind text => .error (.system kind text)
  | .exits | .lingers => .ok ()

theorem KillEffect.isSystem_of_answer {k : KillEffect} {e : Accident} (h : k.answer = .error e) :
    e.isSystem = true := by
  cases k <;> cases h
  rfl

/-- The start of a daemon. Where `exitAfter` is given, the process exits with
`code` once the server has made that many contacts with the network. -/
structure Launch where
  error : Option Accident := none
  exitAfter : Option Nat := none
  code : Int := 0
  kill : KillEffect := .exits
  deriving DecidableEq, Repr

/-- The folders of a disk, by the text of their paths, and the errors of looking at them. -/
structure Disk where
  folders : List (LooseText × List LooseText) := []
  lookErrors : List (LooseText × Accident) := []
  listErrors : List (LooseText × Accident) := []
  deriving DecidableEq, Repr

namespace Disk

def isFolder (d : Disk) (path : LooseText) : Except Accident Bool :=
  match d.lookErrors.lookup path with
  | some e => .error e
  | none => .ok (d.folders.lookup path).isSome

def list (d : Disk) (path : LooseText) : Except Accident (List LooseText) :=
  match d.listErrors.lookup path with
  | some e => .error e
  | none => .ok ((d.folders.lookup path).getD [])

end Disk

end LintServer
