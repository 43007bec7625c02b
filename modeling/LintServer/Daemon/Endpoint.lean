/-!
# Endpoints

Where a daemon listens. There is one daemon for a port.
-/

namespace LintServer.Daemon

structure Endpoint where
  port : Int := 10000
  host : String := "127.0.0.1"
  deriving DecidableEq, Repr

def Endpoint.text (e : Endpoint) : String :=
  s!"{e.host}:{e.port}"

end LintServer.Daemon
