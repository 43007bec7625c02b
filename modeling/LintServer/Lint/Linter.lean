import LintServer.Finding.Report
import LintServer.Lint.Ledger
import LintServer.Lint.Pass
import LintServer.Path
import LintServer.Resolver
import LintServer.Tool

/-!
# Passes

A pass lints one document: it runs the tool or asks the daemon, and publishes
the diagnostics in the output. It goes on from one arrival to the next, and
other passes go on meanwhile. A pass that is no longer current when its output
comes shows nothing.
-/

namespace LintServer.Lint

structure Linter where
  resolver : Resolver := {}
  daemon : Daemon.Manager := {}
  ledger : Ledger := {}
  notifies : Bool := true
  world : World := {}

/-- How a pass ends: with what it published, with nothing, or with a fault it does not handle. -/
abbrev PassEnd := Except Fault (Option (List Diagnostic))

inductive Started where
  | ended (e : PassEnd)
  | waiting (sequence : Nat) (a : Arrival)

inductive Progress where
  | operate (o : Operation)
  | pause (a : Arrival)
  | output (output : Except Fault String)

namespace Linter

def emit (l : Linter) (e : Event) : Linter :=
  { l with world := l.world.emit e }

/-- Shows diagnostics in place of all earlier ones of the document. -/
def publish (l : Linter) (uri : LooseText) (ds : List Diagnostic) : Linter :=
  l.emit (.publish uri ds)

def forget (l : Linter) (uri : LooseText) : Linter :=
  { l with ledger := l.ledger.forget uri }

def tell (l : Linter) (f : Fault) : Linter :=
  if l.notifies then l.emit (.notify (LooseText.ofString "LuCLI lint failed: " ++ f.message)) else l

def command (s : Settings) (args : List LooseText) (l : Linter) : Except Fault (List LooseText) × Linter :=
  let (result, resolver, world) := l.resolver.command s args l.world
  (result, { l with resolver := resolver, world := world })

def startTool (s : Settings) (file folder : Path) (l : Linter) : Except Fault Arrival × Linter :=
  match l.command s (Tool.lintArguments file.text none) with
  | (.error e, l) => (.error e, l)
  | (.ok command, l) =>
    let (run, world) := Tool.start command (some folder.text) l.world
    (run.map .tool, { l with world := world })

def startAsking (s : Settings) (file folder : Path) (l : Linter) : Except Fault Arrival × Linter :=
  match l.command s s.daemonArguments with
  | (.error e, l) => (.error e, l)
  | (.ok command, l) =>
    let endpoint : Daemon.Endpoint := { port := s.daemonPort }
    let request : Daemon.Request := { argv := Tool.lintArguments file.text (some folder.text) }
    (.ok (.daemon (l.daemon.newSearch endpoint command) ⟨endpoint, request, s.socketTimeout⟩), l)

def startWork (s : Settings) (file folder : Path) (l : Linter) : Except Fault Arrival × Linter :=
  if s.daemonEnabled then l.startAsking s file folder else l.startTool s file folder

/-- Hands an operation over: the world is told its limit now. -/
def handOver (o : Operation) (l : Linter) : Linter :=
  { l with world := l.world.tellLimit (some o.limit) }

def operate (o : Operation) (l : Linter) : Arrival × Linter :=
  match o with
  | .probe c a =>
    let (k, world) := Daemon.connect c.endpoint (some o.limit) l.world
    (.probed c a k, { l with world := world })
  | .connect a =>
    let (k, world) := Daemon.connect a.endpoint (some o.limit) l.world
    (.connected a k, { l with world := world })
  | .read x _ => (.reply x, { l with world := l.world.read })

/-- The output in a response, to be read as a report; half of a surrogate pair is a mark there. -/
def responseOutput (r : Daemon.Response) : Except Fault String :=
  if r.exitCode ≠ 0 ∧ r.output = "" then .error (.tool (.silentExit r.exitCode)) else .ok r.output.text

def seek (c : Daemon.Search) (a : Ask) (l : Linter) : Operation × Linter :=
  (.probe c a, { l with daemon := l.daemon.aim c.endpoint })

/-- Goes on after a probe: with another after an interval, or with the request. -/
def judge (c : Daemon.Search) (a : Ask) (k : Connection) (l : Linter) : Progress × Linter :=
  let (found, world) := Daemon.Probe.ofConnection k l.world
  match Daemon.Manager.advance c found l.daemon world with
  | (.again d, daemon, world) => (.pause (.interval d a), { l with daemon := daemon, world := world })
  | (.ended (.ok ()), daemon, world) => (.operate (.connect a), { l with daemon := daemon, world := world })
  | (.ended (.error e), daemon, world) => (.output (.error e), { l with daemon := daemon, world := world })

def send (a : Ask) (k : Connection) (l : Linter) : Progress × Linter :=
  match Daemon.Exchange.sendOn a.endpoint a.request k l.world with
  | (.error e, world) => (.output (.error e), { l with world := world })
  | (.ok x, world) => (.operate (.read x a.limit), { l with world := world })

def proceed (a : Arrival) (l : Linter) : Progress × Linter :=
  match a with
  | .tool run => (.output (Tool.finish run), l)
  | .daemon c a =>
    let (o, l) := l.seek c a
    (.operate o, l)
  | .interval c a => (.operate (.probe c a), l)
  | .probed c a k => l.judge c a k
  | .connected a k => l.send a k
  | .reply x =>
    let (response, world) := x.finish l.world
    (.output (response.bind responseOutput), { l with world := world })

def diagnosticsOf (output : String) : Except Fault (List Diagnostic) :=
  match Report.parse output with
  | .error e => .error (.tooLong e)
  | .ok report =>
    match Diagnostic.ofFindings report.findings with
    | .error e => .error (.outOfRange e)
    | .ok ds => .ok ds

/-- Ends a pass. A fault that is expected clears the document and is told. -/
def conclude (uri : LooseText) (sequence : Nat) (output : Except Fault String) (l : Linter) : PassEnd × Linter :=
  let current := l.ledger.isCurrent uri sequence
  match output.bind diagnosticsOf with
  | .ok ds => if current then (.ok (some ds), l.publish uri ds) else (.ok none, l)
  | .error e =>
    if e.isExpected then (.ok none, if current then (l.publish uri []).tell e else l)
    else (.error e, l)

/-- Starts a pass. Where lint is disabled it only clears the document. -/
def start (s : Settings) (uri : LooseText) (file folder : Path) (l : Linter) : Started × Linter :=
  let l := l.emit (.lint uri s)
  if s.lintEnabled then
    let (sequence, ledger) := l.ledger.next uri
    match { l with ledger := ledger }.startWork s file folder with
    | (.error e, l) =>
      let (ended, l) := l.conclude uri sequence (.error e)
      (.ended ended, l)
    | (.ok a, l) => (.waiting sequence a, l)
  else
    (.ended (.ok none), (l.forget uri).publish uri [])

/-- Shuts the daemon down, which raises nothing (`Daemon.Manager.shutdown_eq`). -/
def stopDaemon (l : Linter) : Linter :=
  let (_, daemon, world) := l.daemon.shutdown l.world
  { l with daemon := daemon, world := world }

def runExitHook (l : Linter) : Linter :=
  let (_, daemon, world) := l.daemon.runHook l.world
  { l with daemon := daemon, world := world }

theorem rank_of_operate (o : Operation) (l : Linter) : (l.operate o).1.rank + 2 < o.rank := by
  cases o <;> simp [operate, Arrival.rank, Operation.rank]

theorem rank_of_judge {c : Daemon.Search} {a : Ask} {k : Connection} {l m : Linter} {o : Operation}
    (h : l.judge c a k = (.operate o, m)) : o.rank ≤ 6 := by
  simp only [judge] at h
  split at h <;> cases h
  simp [Operation.rank]

theorem rank_of_judge_pause {c : Daemon.Search} {a : Ask} {k : Connection} {l m : Linter} {b : Arrival}
    (h : l.judge c a k = (.pause b, m)) : b.rank < 4 * c.left + 6 := by
  simp only [judge] at h
  split at h <;> cases h
  have := Daemon.Manager.left_of_advance ‹_›
  simp only [Arrival.rank]
  omega

theorem rank_of_send {a : Ask} {k : Connection} {l m : Linter} {o : Operation}
    (h : l.send a k = (.operate o, m)) : o.rank ≤ 3 := by
  unfold send at h
  split at h <;> cases h
  simp [Operation.rank]

theorem rank_of_proceed {a : Arrival} {l m : Linter} {o : Operation} (h : l.proceed a = (.operate o, m)) :
    o.rank ≤ a.rank := by
  cases a with
  | tool run => cases h
  | daemon c a =>
    cases h
    simp [Operation.rank, Arrival.rank]
  | interval c a =>
    cases h
    simp [Operation.rank, Arrival.rank]
  | probed c a k => exact Nat.le_trans (rank_of_judge h) (Nat.le_add_left _ _)
  | connected a k => exact rank_of_send h
  | reply x => cases h

theorem rank_of_pause {a b : Arrival} {l m : Linter} (h : l.proceed a = (.pause b, m)) : b.rank < a.rank := by
  cases a with
  | tool run => cases h
  | daemon c a => cases h
  | interval c a => cases h
  | probed c a k => exact rank_of_judge_pause h
  | connected a k =>
    simp only [proceed, send] at h
    split at h <;> cases h
  | reply x => cases h

end Linter

end LintServer.Lint
