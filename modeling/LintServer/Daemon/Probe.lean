import LintServer.Daemon.Exchange

/-!
# Probes

A probe tells whether an endpoint accepts connections now. Errors of the
operating system mean that it does not; a connection that was made is closed.
-/

namespace LintServer.Daemon

/-- What a probe does to the world, and what it finds. -/
abbrev Probe := Endpoint → World → Except Fault Bool × World

namespace Probe

/-- The default limit of a probe: half a second. -/
def defaultLimit : Double := Double.ofQuotient 1 2

def ofConnection (c : Connection) (w : World) : Except Fault Bool × World :=
  match c.connectError with
  | some e => (if e.isSystem then .ok false else .error (.outside e), w)
  | none => close c (.ok true) w

def socket (limit : Option Double) : Probe := fun endpoint w =>
  let (c, w) := connect endpoint limit (w.tellLimit limit)
  ofConnection c w

def ofWorld : Probe := fun endpoint w =>
  match w.probe endpoint with
  | (.ok found, w) => (.ok found, w)
  | (.error e, w) => (.error (.outside e), w)

end Probe

end LintServer.Daemon
