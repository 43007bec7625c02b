import LintServer.Uri.Local

/-!
# Workspaces

The tool works in the innermost folder of the workspace that the file lies in,
and in the folder of the file where there is none.
-/

namespace LintServer.Workspace

def paths : List Json → Except Uri.HostFault (List Path)
  | [] => .ok []
  | folder :: rest =>
    match Uri.valuePath? folder with
    | .error e => .error e
    | .ok none => paths rest
    | .ok (some path) => (paths rest).map (path :: ·)

/-- The first of the deepest paths. -/
def deepest? : List Path → Option Path
  | [] => none
  | p :: rest =>
    match deepest? rest with
    | none => some p
    | some q => some (if p.depth < q.depth then q else p)

def workingFolder (folders : List Json) (file : Path) : Except Uri.HostFault Path :=
  (paths folders).map fun ps => (deepest? (ps.filter file.isIn)).getD file.parent

theorem isOk_workingFolder (folders : List Json) (file : Path) :
    (workingFolder folders file).isOk = (paths folders).isOk := by
  unfold workingFolder
  cases paths folders <;> rfl

end LintServer.Workspace
