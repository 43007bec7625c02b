import LintServer.Fault
import LintServer.Text.Utf8
import LintServer.World.Basic

/-!
# Running the tool

The tool is run once for a pass. Its output is what it wrote to either stream;
the exit code only tells that findings were made, unless the tool did nothing
but complain.
-/

namespace LintServer.Tool

/-- What the tool is asked for: the findings of a file, and under the daemon the folder to work in. -/
def lintArguments (file : LooseText) (folder : Option LooseText) : List LooseText :=
  "lint" :: ("file=" ++ file) :: "format=tsc" :: (folder.map (LooseText.ofString "cwdOverride=" ++ ·)).toList

def faultOf : Accident → Fault
  | .system .notFound text => .tool (.notFound (.system .notFound text))
  | .system kind text => .tool (.cannotRun (.system kind text))
  | e => .outside e

/-- Starts the tool. An empty folder is none. -/
def start (command : List LooseText) (folder : Option LooseText) (w : World) : Except Fault ToolRun × World :=
  if command.isEmpty then (.error (.tool .emptyCommand), w)
  else
    let (run, w) := w.run command (folder.filter (· ≠ ""))
    match run.startError with
    | some e => (.error (faultOf e), w)
    | none => (.ok run, w)

def finish (run : ToolRun) : Except Fault String :=
  match run.waitError with
  | some e => .error (faultOf e)
  | none =>
    let stdout := Text.Utf8.decode run.stdout
    let stderr := Text.Utf8.decode run.stderr
    if run.code ≠ 0 ∧ stdout = [] ∧ stderr ≠ [] then .error (.tool (.complaint (String.ofList stderr)))
    else .ok (String.ofList (stdout ++ stderr))

def output (command : List LooseText) (folder : Option LooseText) (w : World) : Except Fault String × World :=
  match start command folder w with
  | (.error e, w) => (.error e, w)
  | (.ok run, w) => (finish run, w)

end LintServer.Tool
