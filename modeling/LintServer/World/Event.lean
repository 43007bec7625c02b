import LintServer.Daemon.Endpoint
import LintServer.Diagnostic
import LintServer.Settings

/-!
# Events

Everything that the server asks of the world outside, everything that it shows
to the editor, and the passes that are asked for on the way.
-/

namespace LintServer

inductive Event where
  | lint (uri : LooseText) (settings : Settings)
  | run (command : List LooseText) (folder : Option LooseText)
  | connect (endpoint : Daemon.Endpoint) (limit : Option Double)
  | write (text : String)
  | drain
  | halfClose
  | read (limit : Option Double)
  | close
  | spawn (command : List LooseText)
  | kill (pid : Nat)
  | registerHook
  | sleep (interval : Double)
  | probe (endpoint : Daemon.Endpoint)
  | list (folder : LooseText)
  | publish (uri : LooseText) (diagnostics : List Diagnostic)
  | notify (text : LooseText)
  deriving DecidableEq, Repr

end LintServer
