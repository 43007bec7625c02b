/-!
# Findings

A finding is one complaint of the lint tool about a place in a file. Lines and
columns count from zero.
-/

namespace LintServer

inductive Severity where
  | error
  | warning
  | information
  | hint
  deriving DecidableEq, Repr

namespace Severity

def code : Severity → Nat
  | .error => 1
  | .warning => 2
  | .information => 3
  | .hint => 4

def ofCode? (n : Int) : Option Severity :=
  [.error, .warning, .information, .hint].find? fun s => (s.code : Int) == n

/-- The severity that a word of the tool names in lower case; any other word is an error. -/
def ofWord (word : String) : Severity :=
  if word = "warning" then .warning
  else if word = "info" then .information
  else .error

end Severity

structure Finding where
  file : String
  startLine : Int
  startColumn : Int
  endLine : Int
  endColumn : Int
  severity : Severity
  code : String
  message : String
  deriving DecidableEq, Repr

end LintServer
