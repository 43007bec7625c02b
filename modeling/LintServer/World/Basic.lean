import LintServer.World.Event
import LintServer.World.Script

/-!
# The world outside

The world holds what is still to happen, the daemons that were started, the
disk, and the log of all events. Asking it for something takes the next entry
of the matching queue; an empty queue answers with a default. It is told the
limit of an operation when that is handed over, and logs the limit told last.
-/

namespace LintServer

/-- A daemon process. `contacts` is how many more contacts it lives through. -/
structure Process where
  pid : Nat
  launch : Launch
  contacts : Option Nat
  exited : Option Int
  deriving DecidableEq, Repr

namespace Process

def start (pid : Nat) (launch : Launch) : Process where
  pid := pid
  launch := launch
  contacts := launch.exitAfter
  exited := if launch.exitAfter = some 0 then some launch.code else none

def isAlive (p : Process) : Bool :=
  p.exited.isNone

def exit (p : Process) (code : Int) : Process :=
  { p with exited := some (p.exited.getD code) }

def afterContact (p : Process) : Process :=
  match p.contacts with
  | none => p
  | some n =>
    let p := { p with contacts := some (n - 1) }
    if n ≤ 1 then p.exit p.launch.code else p

def afterKill (p : Process) : Process :=
  match p.launch.kill with
  | .exits => p.exit (-9)
  | .fails _ _ => p
  | .lingers => p

end Process

structure World where
  runs : List ToolRun := []
  connections : List Connection := []
  launches : List Launch := []
  probes : List (Except Accident Bool) := []
  processes : List Process := []
  disk : Disk := {}
  /-- The limit that was told last. -/
  limit : Option Double := none
  log : List Event := []

namespace World

def emit (w : World) (e : Event) : World :=
  { w with log := w.log ++ [e] }

def updateProcess (w : World) (pid : Nat) (f : Process → Process) : World :=
  { w with processes := w.processes.map fun p => if p.pid = pid then f p else p }

def process? (w : World) (pid : Nat) : Option Process :=
  w.processes.find? fun p => p.pid == pid

def exitCode? (w : World) (pid : Nat) : Option Int :=
  (w.process? pid).bind Process.exited

def isAlive (w : World) (pid : Nat) : Bool :=
  (w.process? pid).any Process.isAlive

def exit (w : World) (pid : Nat) (code : Int) : World :=
  w.updateProcess pid (Process.exit · code)

def contact (w : World) : World :=
  { w with processes := w.processes.map Process.afterContact }

def firstPid : Nat := 1001

def run (w : World) (command : List LooseText) (folder : Option LooseText) : ToolRun × World :=
  let w := w.emit (.run command folder)
  match w.runs with
  | [] => ({}, w)
  | r :: rest => (r, { w with runs := rest })

def tellLimit (w : World) (limit : Option Double) : World :=
  { w with limit := limit }

def connect (w : World) (endpoint : Daemon.Endpoint) : Connection × World :=
  let w := (w.emit (.connect endpoint w.limit)).contact
  match w.connections with
  | [] => (.refused, w)
  | c :: rest => (c, { w with connections := rest })

def read (w : World) : World :=
  w.emit (.read w.limit)

def probe (w : World) (endpoint : Daemon.Endpoint) : Except Accident Bool × World :=
  let w := (w.emit (.probe endpoint)).contact
  match w.probes with
  | [] => (.ok false, w)
  | p :: rest => (p, { w with probes := rest })

/-- Starts a daemon; the identifier of the new process counts the starts that succeeded. -/
def spawn (w : World) (command : List LooseText) : Except Accident Nat × World :=
  let w := w.emit (.spawn command)
  let (launch, w) := match w.launches with
    | [] => (({} : Launch), w)
    | l :: rest => (l, { w with launches := rest })
  match launch.error with
  | some e => (.error e, w)
  | none =>
    let pid := firstPid + w.processes.length
    (.ok pid, { w with processes := w.processes ++ [.start pid launch] })

def kill (w : World) (pid : Nat) : Except Accident Unit × World :=
  (((w.process? pid).map fun p => p.launch.kill.answer).getD (.ok ()),
    (w.emit (.kill pid)).updateProcess pid Process.afterKill)

theorem isSystem_of_kill {w v : World} {pid : Nat} {e : Accident} (h : w.kill pid = (.error e, v)) :
    e.isSystem = true := by
  have answer : ((w.process? pid).map fun p => p.launch.kill.answer).getD (.ok ()) = .error e :=
    congrArg Prod.fst h
  cases found : w.process? pid with
  | none =>
    rw [found] at answer
    cases answer
  | some p =>
    rw [found] at answer
    exact KillEffect.isSystem_of_answer answer

def list (w : World) (folder : LooseText) : Except Accident (List LooseText) × World :=
  (w.disk.list folder, w.emit (.list folder))

end World

end LintServer
