import LintServer.Daemon.Endpoint
import LintServer.Diagnostic
import LintServer.Json.Display
import LintServer.Json.Reader
import LintServer.Text.Quoted
import LintServer.Uri.Host
import LintServer.World.Accident

/-!
# Faults

Everything that can go wrong on the way from a document to its diagnostics. A
fault is expected when the tool, the daemon or the operating system is at fault:
then the user is told. Any other fault is a defect of the input.
-/

namespace LintServer

/-- The tool or the daemon did not start, or ended without a usable output. -/
inductive ToolFault where
  | emptyCommand
  | notFound (e : Accident)
  | cannotRun (e : Accident)
  | complaint (text : String)
  | daemonNotStarted (e : Accident)
  | silentExit (code : Int)
  deriving DecidableEq, Repr

def ToolFault.message : ToolFault → String
  | .emptyCommand => "Empty LuCLI command"
  | .notFound e => "LuCLI executable not found: " ++ e.message
  | .cannotRun e => "Failed to run LuCLI: " ++ e.message
  | .complaint text => text
  | .daemonNotStarted e => "Failed to start LuCLI daemon: " ++ e.message
  | .silentExit code => s!"LuCLI daemon exited with code {code} and no output"

inductive TransportFault where
  | connectTimeout (endpoint : Daemon.Endpoint)
  | cannotConnect (endpoint : Daemon.Endpoint) (e : Accident)
  | replyTimeout (endpoint : Daemon.Endpoint)
  | broken (e : Accident)
  deriving DecidableEq, Repr

def TransportFault.message : TransportFault → String
  | .connectTimeout endpoint => "Timed out connecting to LuCLI daemon at " ++ endpoint.text
  | .cannotConnect endpoint e => s!"Cannot connect to LuCLI daemon at {endpoint.text}: {e.message}"
  | .replyTimeout endpoint => "Timed out waiting for LuCLI daemon at " ++ endpoint.text
  | .broken e => "LuCLI daemon connection failed: " ++ e.message

inductive ReplyFlaw where
  | empty
  | notJson (flaw : Json.Flaw)
  | notObject
  | noExitCode
  | outputNotText
  deriving DecidableEq, Repr

def ReplyFlaw.summary : ReplyFlaw → String
  | .empty => "Empty response from LuCLI daemon"
  | .notJson flaw => s!"Invalid JSON from LuCLI daemon ({flaw.message})"
  | .notObject => "LuCLI daemon response is not an object"
  | .noExitCode => "LuCLI daemon response has no integer exitCode"
  | .outputNotText => "LuCLI daemon response output is not a string"

/-- The daemon broke the protocol, in the given line if there is one. -/
structure ProtocolFault where
  summary : String
  line : Option String
  deriving DecidableEq, Repr

def ProtocolFault.message (f : ProtocolFault) : String :=
  match f.line with
  | none => f.summary
  | some line => s!"{f.summary}: {Text.quote line}"

/-- The daemon did not listen after some attempts, or exited before it did. -/
structure Unavailable where
  port : Int
  attempts : Int
  exitCode : Option Int
  deriving DecidableEq, Repr

def Unavailable.message (u : Unavailable) : String :=
  match u.exitCode with
  | none => s!"LuCLI daemon did not start listening on port {u.port} after {u.attempts} attempts"
  | some code => s!"LuCLI daemon exited with code {code} before listening on port {u.port}"

inductive Fault where
  | tool (f : ToolFault)
  | transport (f : TransportFault)
  | protocol (f : ProtocolFault)
  | unavailable (u : Unavailable)
  | outside (e : Accident)
  | tooLong (e : Text.NumeralTooLong)
  | tooDeep (e : Json.TooDeep)
  | unshowable (e : Json.Unshowable)
  | outOfRange (e : OutOfRange)
  | host (e : Uri.HostFault)
  deriving DecidableEq, Repr

namespace Fault

def message : Fault → LooseText
  | .tool f => f.message
  | .transport f => f.message
  | .protocol f => f.message
  | .unavailable u => u.message
  | .outside e => e.message
  | .tooLong e => e.message
  | .tooDeep e => e.message
  | .unshowable e => e.message
  | .outOfRange e => e.message
  | .host e => e.message

/-- Whether the tool, the daemon or the operating system is at fault. -/
def isExpected : Fault → Bool
  | .tool _ | .transport _ | .protocol _ | .unavailable _ => true
  | .outside e => e.isSystem
  | .tooLong _ | .tooDeep _ | .unshowable _ | .outOfRange _ | .host _ => false

end Fault

end LintServer
