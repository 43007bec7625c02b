import LintServer.Json.Basic

/-!
# Parameters of commands

An editor sends the parameters of a command as an object, or as a list whose
first item is that object or the value itself.
-/

namespace LintServer.Session

/-- The value of a parameter, null where there is none. -/
def parameter (key : LooseText) : Json → Json
  | .obj fields => (Json.field? key fields).getD .null
  | .arr (.obj fields :: _) => (Json.field? key fields).getD .null
  | .arr (.str s :: _) => .str s
  | _ => .null

end LintServer.Session
