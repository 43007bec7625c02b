import LintServer.Daemon.Manager

/-!
# What a pass waits for

A pass goes on when something arrives: its run of the tool has ended, its turn
with the daemon has come, the interval between two probes is over, or an
operation on a connection has been carried out. The rank bounds how much a pass
still has to do.
-/

namespace LintServer.Lint

/-- A request to the daemon, and the limit for connecting and for the reply. -/
structure Ask where
  endpoint : Daemon.Endpoint
  request : Daemon.Request
  limit : Double
  deriving DecidableEq, Repr

/-- An operation that a pass hands over, to go on when it has been carried out. -/
inductive Operation where
  | probe (c : Daemon.Search) (a : Ask)
  | connect (a : Ask)
  | read (x : Daemon.Exchange) (limit : Double)
  deriving DecidableEq, Repr

/-- What a pass goes on from. -/
inductive Arrival where
  | tool (run : ToolRun)
  | daemon (c : Daemon.Search) (a : Ask)
  | interval (c : Daemon.Search) (a : Ask)
  | probed (c : Daemon.Search) (a : Ask) (k : Connection)
  | connected (a : Ask) (k : Connection)
  | reply (x : Daemon.Exchange)
  deriving DecidableEq, Repr

namespace Operation

def limit : Operation → Double
  | .probe _ _ => Daemon.Probe.defaultLimit
  | .connect a => a.limit
  | .read _ limit => limit

def ownsDaemon : Operation → Bool
  | .probe _ _ => true
  | _ => false

def rank : Operation → Nat
  | .probe c _ => 4 * c.left + 9
  | .connect _ => 6
  | .read _ _ => 3

end Operation

namespace Arrival

def ownsDaemon : Arrival → Bool
  | .daemon _ _ | .interval _ _ | .probed _ _ _ => true
  | _ => false

def gate : Arrival → Option String
  | .tool run => run.gate
  | .reply x => x.connection.gate
  | _ => none

def rank : Arrival → Nat
  | .tool _ => 0
  | .daemon c _ | .interval c _ => 4 * c.left + 9
  | .probed c _ _ => 4 * c.left + 6
  | .connected _ _ => 3
  | .reply _ => 0

end Arrival

end LintServer.Lint
