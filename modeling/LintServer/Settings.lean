import LintServer.Json.Display
import LintServer.Text.Blank

/-!
# Settings

The editor sends its settings as a JSON value: the section itself, or an object
that holds it under `lucli`. Each setting is read at its own key, and what is
missing or not valid there leaves its default.
-/

namespace LintServer

structure Settings where
  path : LooseText := ""
  storagePath : LooseText := ""
  lintEnabled : Bool := true
  daemonEnabled : Bool := false
  daemonPort : Int := 10000
  daemonArgs : List LooseText := ["daemon", "--port", "\x7bport\x7d"]
  socketTimeout : Double := Double.ofQuotient 30 1
  deriving DecidableEq, Repr

namespace Settings

/-- What settings are not read over: a timeout beyond every double, or a refused port that
cannot be shown. -/
inductive Overflow where
  | timeout
  | port (e : Json.Unshowable)
  deriving DecidableEq, Repr

def Overflow.message : Overflow → String
  | .timeout => "int too large to convert to float"
  | .port e => e.message

/-- The fields of a value, none if it is no object. -/
def fieldsOf : Option Json → List (LooseText × Json)
  | some (.obj fields) => fields
  | _ => []

/-- The fields of the section in what the editor sent. -/
def sectionOf (payload : Json) : List (LooseText × Json) :=
  match payload with
  | .obj fields => fieldsOf (some ((Json.field? "lucli" fields).getD payload))
  | _ => []

def readFlag (default : Bool) : Option Json → Bool
  | some (.bool b) => b
  | _ => default

/-- A path is read without the blanks around it. -/
def readPath : Option Json → LooseText
  | some (.str t) => Text.trimmed t
  | _ => ""

/-- A port that is refused. What stands in its place is shown. -/
def refusePort (nesting : Json.Nesting) (default : Int) (value : Json) : Except Overflow Int :=
  match value.shown nesting.showing with
  | .ok _ => .ok default
  | .error e => .error (.port e)

def readPort (nesting : Json.Nesting) (default : Int) : Option Json → Except Overflow Int
  | some (.int n) => if 0 < n ∧ n < 65536 then .ok n else refusePort nesting default (.int n)
  | some value => refusePort nesting default value
  | none => .ok default

/-- The texts of a list that holds nothing else. -/
def texts? : List Json → Option (List LooseText)
  | [] => some []
  | .str t :: rest => (texts? rest).map (t :: ·)
  | _ => none

def readArgs (default : List LooseText) : Option Json → List LooseText
  | some (.arr items) => (texts? items).getD default
  | _ => default

/-- A timeout is a number above zero. -/
def readTimeout (default : Double) : Option Json → Except Overflow Double
  | some (.int n) =>
    if 0 < n then
      match Double.ofInt? n with
      | some x => .ok x
      | none => .error .timeout
    else .ok default
  | some (.float x) => .ok (if x.isPositive then x else default)
  | _ => .ok default

def ofJson (nesting : Json.Nesting) (payload : Json) : Except Overflow Settings :=
  let own := sectionOf payload
  let lint := fieldsOf (Json.field? "lint" own)
  let daemon := fieldsOf (Json.field? "daemon" own)
  let defaults : Settings := {}
  match readPort nesting defaults.daemonPort (Json.field? "port" daemon) with
  | .error e => .error e
  | .ok port =>
    match readTimeout defaults.socketTimeout (Json.field? "timeout" daemon) with
    | .error e => .error e
    | .ok timeout => .ok {
        path := readPath (Json.field? "path" own)
        storagePath := readPath (Json.field? "storagePath" own)
        lintEnabled := readFlag defaults.lintEnabled (Json.field? "enabled" lint)
        daemonEnabled := readFlag defaults.daemonEnabled (Json.field? "enabled" daemon)
        daemonPort := port
        daemonArgs := readArgs defaults.daemonArgs (Json.field? "args" daemon)
        socketTimeout := timeout }

/-- Puts the port in place of every `port` between braces, from the left. -/
def fillPort (port : List Symbol) : List Symbol → List Symbol
  | .char '\x7b' :: .char 'p' :: .char 'o' :: .char 'r' :: .char 't' :: .char '\x7d' :: us =>
    port ++ fillPort port us
  | u :: us => u :: fillPort port us
  | [] => []

def daemonArguments (s : Settings) : List LooseText :=
  s.daemonArgs.map fun arg => ⟨fillPort (LooseText.ofString (toString s.daemonPort)).symbols arg.symbols⟩

end Settings

end LintServer
