import LintServer.Fault
import LintServer.Json.Display
import LintServer.Json.Writer
import LintServer.Text.Utf8

/-!
# Messages between server and daemon

A request is one line of JSON. A response is the first line of the reply; only
a line feed ends it, so other separators may stand in its texts as they are.
-/

namespace LintServer.Daemon

def clientId : String := "lucli-lsp"

structure Request where
  argv : List LooseText
  id : LooseText := clientId
  deriving DecidableEq, Repr

namespace Request

def json (r : Request) : Json :=
  .obj [("id", .str r.id), ("argv", .ofTexts r.argv)]

def line (r : Request) : List Char :=
  r.json.write .ascii ++ ['\n']

end Request

structure Response where
  exitCode : Int
  output : LooseText
  id : Option LooseText
  deriving DecidableEq, Repr

namespace Response

def flawed (line : String) (flaw : ReplyFlaw) : Except Fault Response :=
  .error (.protocol ⟨flaw.summary, some line⟩)

def idText (nesting : Json.Nesting) : Option Json → Except Json.Unshowable (Option LooseText)
  | none | some .null => .ok none
  | some value => (value.display nesting).map some

/-- Reads a line. The exit code is looked at before the output, and that before the client. -/
def ofLine (nesting : Json.Nesting) (line : String) : Except Fault Response :=
  match Json.read nesting line with
  | .error (.tooLong e) => .error (.tooLong e)
  | .error (.tooDeep e) => .error (.tooDeep e)
  | .error (.flaw f) => flawed line (.notJson f)
  | .ok (.obj fields) =>
    match Json.field? "exitCode" fields with
    | some (.int code) =>
      let answer (output : LooseText) : Except Fault Response :=
        match idText nesting (Json.field? "id" fields) with
        | .error e => .error (.unshowable e)
        | .ok id => .ok ⟨code, output, id⟩
      match Json.field? "output" fields with
      | none | some .null => answer ""
      | some (.str output) => answer output
      | some _ => flawed line .outputNotText
    | _ => flawed line .noExitCode
  | .ok _ => flawed line .notObject

/-- The first line of a reply, without the carriage returns at its end. -/
def firstLine (reply : List UInt8) : List Char :=
  Text.trimEndWhile (· == '\r') ((Text.Utf8.decode reply).takeWhile (· != '\n'))

def ofReply (nesting : Json.Nesting) (reply : List UInt8) : Except Fault Response :=
  let line := firstLine reply
  if line.all Text.isBlank then flawed (String.ofList line) .empty
  else ofLine nesting (String.ofList line)

end Response

end LintServer.Daemon
