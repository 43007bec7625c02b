import LintServer.Finding.Basic
import LintServer.Text.Blank
import LintServer.Text.Numeral

/-!
# The line of a finding

The tool prints a finding as

    file(line,column,line,column): severity: [ code ]  message

with lines counted from one. The position is the last one in the line that the
rest of the format follows, so a file name may hold text that looks like one.
-/

namespace LintServer.Finding

/-- The four numbers of a position as they are written: line and column of the start and of the end. -/
structure Coordinates where
  startLine : List Char
  startColumn : List Char
  endLine : List Char
  endColumn : List Char
  deriving DecidableEq, Repr

structure Remark where
  coordinates : Coordinates
  severity : List Char
  code : List Char
  message : List Char
  deriving DecidableEq, Repr

def after? : List Char → List Char → Option (List Char)
  | [], cs => some cs
  | _ :: _, [] => none
  | p :: ps, c :: cs => if p = c then after? ps cs else none

def number? (close : List Char) (cs : List Char) : Option (List Char × List Char) :=
  let ds := cs.takeWhile Text.isDigit
  if ds.isEmpty then none else (after? close (cs.dropWhile Text.isDigit)).map fun rest => (ds, rest)

def coordinates? (cs : List Char) : Option (Coordinates × List Char) := do
  let cs ← after? ['('] cs
  let (startLine, cs) ← number? [','] cs
  let (startColumn, cs) ← number? [','] cs
  let (endLine, cs) ← number? [','] cs
  let (endColumn, cs) ← number? [')', ':', ' '] cs
  pure (⟨startLine, startColumn, endLine, endColumn⟩, cs)

/-- Whether a character is the letter in either case. The letter i has two more capitals and small forms. -/
def isLetter (letter c : Char) : Bool :=
  c.toLower == letter || (letter == 'i' && (c == 'İ' || c == 'ı'))

/-- Takes a word at the head, in any case. -/
def word? : List Char → List Char → Option (List Char × List Char)
  | [], cs => some ([], cs)
  | _ :: _, [] => none
  | l :: ls, c :: cs => if isLetter l c then (word? ls cs).map fun (w, rest) => (c :: w, rest) else none

def severityWords : List String := ["info", "warning", "error"]

def severity? (cs : List Char) : Option (List Char × List Char) :=
  severityWords.findSome? fun w => do
    let (word, cs) ← word? w.toList cs
    let cs ← after? [':', ' '] cs
    pure (word, cs)

def code? (cs : List Char) : Option (List Char × List Char) := do
  let cs ← after? ['[', ' '] cs
  let inside := cs.takeWhile (· != ']')
  let rest ← after? [']'] (cs.dropWhile (· != ']'))
  if inside.getLast? = some ' ' then pure (inside.dropLast, rest) else none

def message? (cs : List Char) : Option (List Char) :=
  let message := cs.dropWhile Text.isBlank
  if message.contains '\n' then none else some message

def remark? (cs : List Char) : Option Remark := do
  let (coordinates, cs) ← coordinates? cs
  let (severity, cs) ← severity? cs
  let (code, cs) ← code? cs
  let message ← message? cs
  pure ⟨coordinates, severity, code, message⟩

/-- Cuts a line behind `file`, which is given in reverse, or further on. The longest file wins. -/
def cutFrom? (file : List Char) : List Char → Option (List Char × Remark)
  | [] => none
  | c :: cs =>
    match if c = '\n' then none else cutFrom? (c :: file) cs with
    | some pieces => some pieces
    | none => if file.isEmpty then none else (remark? (c :: cs)).map fun remark => (file.reverse, remark)

/-- Cuts a line into the name of its file, which is not empty, and the remark on it. -/
def cut? (cs : List Char) : Option (List Char × Remark) :=
  cutFrom? [] cs

/-- The finding that a remark on a file stands for. Lines are counted from zero and never below it. -/
def ofRemark (file : List Char) (r : Remark) : Except Text.NumeralTooLong Finding := do
  let startLine ← Text.readNumeral r.coordinates.startLine
  let startColumn ← Text.readNumeral r.coordinates.startColumn
  let endLine ← Text.readNumeral r.coordinates.endLine
  let endColumn ← Text.readNumeral r.coordinates.endColumn
  pure {
    file := String.ofList file
    startLine := ((startLine - 1 : Nat) : Int)
    startColumn := startColumn
    endLine := ((endLine - 1 : Nat) : Int)
    endColumn := endColumn
    severity := .ofWord (String.ofList r.severity)
    code := String.ofList r.code
    message := String.ofList r.message }

/-- Reads a line; one that is not in the format has no finding. -/
def ofLine? (cs : List Char) : Except Text.NumeralTooLong (Option Finding) :=
  match cut? (Text.trimEndWhile Text.isLineEnd cs) with
  | none => .ok none
  | some (file, remark) => (ofRemark file remark).map some

def parse (line : String) : Except Text.NumeralTooLong (Option Finding) :=
  ofLine? line.toList

end LintServer.Finding
