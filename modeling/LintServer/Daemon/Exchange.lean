import LintServer.Daemon.Message
import LintServer.World.Basic

/-!
# Exchanges

One connection carries one request and its response. The steps on a connection
end at the first that fails; then, as after the last, it is closed once. An
error of the operating system on closing changes nothing.
-/

namespace LintServer.Daemon

def isSpent : Option Double → Bool
  | none => false
  | some x => !x.isPositive

/-- Connects, unless the limit has run out before anything begins. -/
def connect (endpoint : Endpoint) (limit : Option Double) (w : World) : Connection × World :=
  if isSpent limit then (.timedOut, w) else w.connect endpoint

def close {α : Type} (c : Connection) (outcome : Except Fault α) (w : World) : Except Fault α × World :=
  let w := w.emit .close
  match c.closeError with
  | none => (outcome, w)
  | some e => if e.isSystem then (outcome, w) else (.error (.outside e), w)

/-- A connection over which the request has been sent, waiting for the reply. -/
structure Exchange where
  endpoint : Endpoint
  connection : Connection
  deriving DecidableEq, Repr

namespace Exchange

def connectFault (endpoint : Endpoint) : Accident → Fault
  | .system .timedOut _ => .transport (.connectTimeout endpoint)
  | .system kind text => .transport (.cannotConnect endpoint (.system kind text))
  | e => .outside e

def stepFault (endpoint : Endpoint) : Accident → Fault
  | .system .timedOut _ => .transport (.replyTimeout endpoint)
  | .system kind text => .transport (.broken (.system kind text))
  | e => .outside e

def steps (c : Connection) (request : Request) : List (Event × Option Accident) :=
  [(.write (String.ofList request.line), c.writeError), (.drain, c.drainError)] ++
    (if c.canHalfClose then [(.halfClose, c.halfCloseError)] else [])

def take : List (Event × Option Accident) → World → Option Accident × World
  | [], w => (none, w)
  | (event, error) :: rest, w =>
    match error with
    | some e => (some e, w.emit event)
    | none => take rest (w.emit event)

def sendOn (endpoint : Endpoint) (request : Request) (c : Connection) (w : World) :
    Except Fault Exchange × World :=
  match c.connectError with
  | some e => (.error (connectFault endpoint e), w)
  | none =>
    match take (steps c request) w with
    | (some e, w) => close c (.error (stepFault endpoint e)) w
    | (none, w) => (.ok ⟨endpoint, c⟩, w)

def finish (x : Exchange) (w : World) : Except Fault Response × World :=
  let read : Except Fault (List UInt8) := match x.connection.readError with
    | some e => .error (stepFault x.endpoint e)
    | none => .ok x.connection.reply
  match close x.connection read w with
  | (.error e, w) => (.error e, w)
  | (.ok reply, w) => (Response.ofReply x.connection.nesting reply, w)

/-- The default limit for connecting and for the reply: thirty seconds. -/
def defaultLimit : Double := Double.ofQuotient 30 1

def send (endpoint : Endpoint) (request : Request) (limit : Option Double) (w : World) :
    Except Fault Response × World :=
  let (c, w) := connect endpoint limit (w.tellLimit limit)
  match sendOn endpoint request c w with
  | (.error e, w) => (.error e, w)
  | (.ok x, w) => x.finish (w.tellLimit limit).read

end Exchange

end LintServer.Daemon
