import LintServer.Json.Basic
import LintServer.Number.Shortest
import LintServer.Text.Numeral
import LintServer.Text.Quoted

/-!
# Values inside messages

A value is shown with its brackets, the words `None`, `True` and `False`, and
quoted texts; a text on its own is shown as it is. A value is not shown where it
is nested too deep or a whole number in it has too many digits.
-/

namespace LintServer.Json

inductive Unshowable where
  | tooDeep
  | tooLong
  deriving DecidableEq, Repr

def Unshowable.message : Unshowable → String
  | .tooDeep => "maximum recursion depth exceeded while getting the repr of an object"
  | .tooLong => s!"Exceeds the limit ({Text.NumeralTooLong.limit} digits) for integer string conversion; " ++
      "use sys.set_int_max_str_digits() to increase the limit"

def showInt (n : Int) : Except Unshowable String :=
  if (Nat.toDigits 10 n.natAbs).length ≤ Text.NumeralTooLong.limit then .ok (toString n) else .error .tooLong

mutual

/-- Shows a value in brackets and quotes, where it may be `depth` values deep. -/
def shown : Json → Nat → Except Unshowable String
  | _, 0 => .error .tooDeep
  | .null, _ + 1 => .ok "None"
  | .bool true, _ + 1 => .ok "True"
  | .bool false, _ + 1 => .ok "False"
  | .int n, _ + 1 => showInt n
  | .float x, _ + 1 => .ok (String.ofList x.shortest)
  | .str s, _ + 1 => .ok (Text.quote s)
  | .arr items, depth + 1 => (shownItems items depth).map fun texts => "[" ++ ", ".intercalate texts ++ "]"
  | .obj members, depth + 1 =>
    (shownMembers members depth).map fun texts => "\x7b" ++ ", ".intercalate texts ++ "\x7d"

def shownItems : List Json → Nat → Except Unshowable (List String)
  | [], _ => .ok []
  | item :: items, depth =>
    match shown item depth with
    | .error e => .error e
    | .ok text => (shownItems items depth).map (text :: ·)

def shownMembers : List (LooseText × Json) → Nat → Except Unshowable (List String)
  | [], _ => .ok []
  | (name, value) :: members, depth =>
    match shown value depth with
    | .error e => .error e
    | .ok text => (shownMembers members depth).map ((Text.quote name ++ ": " ++ text) :: ·)

end

def display (value : Json) (nesting : Nesting) : Except Unshowable LooseText :=
  match value with
  | .str s => .ok s
  | value => (value.shown nesting.showing).map .ofString

end LintServer.Json
