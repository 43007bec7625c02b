import LintServer.Number.Double
import LintServer.Text.Loose

/-!
# JSON values

Whole numbers and doubles are kept apart, and the fields of an object stay in
the order in which their keys first appeared.
-/

namespace LintServer

inductive Json where
  | null
  | bool (b : Bool)
  | int (n : Int)
  | float (x : Double)
  | str (s : LooseText)
  | arr (items : List Json)
  | obj (fields : List (LooseText × Json))

namespace Json

/-- How deep values may be nested where they are read and where they are shown. Messages are no
deeper than two values in each other, and what can be read can be shown. -/
structure Nesting where
  reading : Nat := 990
  showing : Nat := 990
  two_le_reading : 2 ≤ reading := by decide
  reading_le_showing : reading ≤ showing := by decide
  deriving DecidableEq, Repr

instance : Inhabited Nesting := ⟨{}⟩

instance : Inhabited Json := ⟨.null⟩

def field? (key : LooseText) (fields : List (LooseText × Json)) : Option Json :=
  fields.lookup key

def ofString (s : String) : Json := .str s

def ofTexts (ts : List LooseText) : Json := .arr (ts.map .str)

/-- Sets a field: a key that is there keeps its place, a new one comes last. -/
def setField (key : LooseText) (value : Json) : List (LooseText × Json) → List (LooseText × Json)
  | [] => [(key, value)]
  | (k, v) :: fields => if k = key then (k, value) :: fields else (k, v) :: setField key value fields

/-- The object with these members, where the last value of a key counts. -/
def ofMembers (members : List (LooseText × Json)) : Json :=
  .obj (members.foldl (fun fields m => setField m.1 m.2 fields) [])

def get? (key : LooseText) : Json → Option Json
  | .obj fields => field? key fields
  | _ => none

/-- Whether the value counts as given: not null, false, zero or empty. -/
def isGiven : Json → Bool
  | .null => false
  | .bool b => b
  | .int n => n ≠ 0
  | .float x => x.magnitude ≠ 0
  | .str s => !s.isEmpty
  | .arr items => !items.isEmpty
  | .obj fields => !fields.isEmpty

end Json

end LintServer
