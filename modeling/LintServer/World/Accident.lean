/-!
# Accidents

What the world outside answers a request with when it does not carry it out: an
error of the operating system, or another failure on the way to it.
-/

namespace LintServer

inductive SystemError where
  | general
  | notFound
  | notPermitted
  | connectionRefused
  | connectionReset
  | brokenPipe
  | timedOut
  deriving DecidableEq, Repr

inductive Accident where
  | system (kind : SystemError) (text : String)
  | runtime (text : String)
  | value (text : String)
  deriving DecidableEq, Repr

namespace Accident

def message : Accident → String
  | .system _ text => text
  | .runtime text => text
  | .value text => text

def isSystem : Accident → Bool
  | .system _ _ => true
  | _ => false

end Accident

end LintServer
