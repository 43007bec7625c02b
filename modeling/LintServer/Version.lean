import LintServer.Text.Blank

/-!
# The version in a project file

The version stands in double quotes in a line of its own, which may end in blanks.
-/

namespace LintServer.Version

def unknown : String := "0.0.0"

def opening : List Char := "version = \"".toList

def endsLine (cs : List Char) : Bool :=
  (cs.dropWhile Text.isBlank).isEmpty || (cs.takeWhile Text.isBlank).contains '\n'

def atStart? (cs : List Char) : Option (List Char) :=
  if opening.isPrefixOf cs then
    let cs := cs.drop opening.length
    let version := cs.takeWhile (· != '"')
    match cs.dropWhile (· != '"') with
    | _ :: rest => if !version.isEmpty && endsLine rest then some version else none
    | [] => none
  else none

/-- The version at the head of the first line that begins with one; the head of
the text is the head of a line when `fresh`. -/
def search? (fresh : Bool) : List Char → Option (List Char)
  | [] => none
  | c :: cs =>
    match if fresh then atStart? (c :: cs) else none with
    | some version => some version
    | none => search? (c == '\n') cs

def ofText (text : String) : String :=
  ((search? true text.toList).map String.ofList).getD unknown

/-- The version that a project file tells, if there is one to read. -/
def ofFile (text : Option String) : String :=
  (text.map ofText).getD unknown

end LintServer.Version
