import LintServer.Finding.Basic

/-!
# Diagnostics

What the editor shows for a finding. The editor's lines and characters go from
zero up to `2 ^ 31 - 1`; a finding outside has no diagnostic.
-/

namespace LintServer

inductive Axis where
  | line
  | character
  deriving DecidableEq, Repr

def Axis.name : Axis → String
  | .line => "line"
  | .character => "character"

structure OutOfRange where
  axis : Axis
  value : Int
  deriving DecidableEq, Repr

def positionLimit : Nat := 2147483647

def OutOfRange.message (e : OutOfRange) : String :=
  s!"Position.{e.axis.name} should be in range [0:{positionLimit}], but was {e.value}."

structure Position where
  line : Nat
  character : Nat
  deriving DecidableEq, Repr

/-- A line or character, if it is in range. -/
def checkAxis (axis : Axis) (value : Int) : Except OutOfRange Nat :=
  if 0 ≤ value ∧ value ≤ positionLimit then .ok value.toNat else .error ⟨axis, value⟩

def Position.make (line character : Int) : Except OutOfRange Position := do
  let line ← checkAxis .line line
  let character ← checkAxis .character character
  pure ⟨line, character⟩

structure Diagnostic where
  start : Position
  stop : Position
  severity : Severity
  code : Option String
  message : String
  deriving DecidableEq, Repr

namespace Diagnostic

def source : String := "lucli"

/-- The diagnostic of a finding; an empty code is no code. -/
def ofFinding (f : Finding) : Except OutOfRange Diagnostic := do
  let start ← Position.make f.startLine f.startColumn
  let stop ← Position.make f.endLine f.endColumn
  pure ⟨start, stop, f.severity, if f.code = "" then none else some f.code, f.message⟩

/-- The diagnostics of findings, in order, up to the first finding that has none. -/
def ofFindings : List Finding → Except OutOfRange (List Diagnostic)
  | [] => .ok []
  | f :: rest =>
    match ofFinding f with
    | .error e => .error e
    | .ok d => (ofFindings rest).map (d :: ·)

end Diagnostic

end LintServer
