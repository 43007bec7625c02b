import LintServer.Finding.Line

/-!
# Reports

The output of the lint tool is read line by line. Lines that are no findings
are skipped; those with more than blanks in them are counted.
-/

namespace LintServer

/-- What an output holds: its findings in order, and how many lines were skipped. -/
structure Report where
  findings : List Finding
  skipped : Nat
  deriving DecidableEq, Repr

namespace Report

def empty : Report := ⟨[], 0⟩

def append (a b : Report) : Report :=
  ⟨a.findings ++ b.findings, a.skipped + b.skipped⟩

instance : Append Report := ⟨append⟩

def ofLine (cs : List Char) : Except Text.NumeralTooLong Report :=
  let cs := Text.trimEndWhile (· == '\r') cs
  match Finding.ofLine? cs with
  | .error e => .error e
  | .ok (some finding) => .ok ⟨[finding], 0⟩
  | .ok none => .ok ⟨[], if cs.all Text.isBlank then 0 else 1⟩

def ofLines : List (List Char) → Except Text.NumeralTooLong Report
  | [] => .ok empty
  | cs :: rest =>
    match ofLine cs with
    | .error e => .error e
    | .ok first => (ofLines rest).map (first ++ ·)

def ofOutput (cs : List Char) : Except Text.NumeralTooLong Report :=
  ofLines (Text.cut '\n' cs)

def parse (output : String) : Except Text.NumeralTooLong Report :=
  ofOutput output.toList

end Report

end LintServer
