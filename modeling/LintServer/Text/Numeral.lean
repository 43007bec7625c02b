import LintServer.Text.Digit

/-!
# Numerals

A numeral is a run of decimal digits. Runs of more than 4300 digits, leading
zeros counted, are refused.
-/

namespace LintServer.Text

structure NumeralTooLong where
  digits : Nat
  deriving DecidableEq, Repr

namespace NumeralTooLong

def limit : Nat := 4300

def message (e : NumeralTooLong) : String :=
  s!"Exceeds the limit ({limit} digits) for integer string conversion: value has {e.digits} digits; " ++
    "use sys.set_int_max_str_digits() to increase the limit"

end NumeralTooLong

/-- The number that a run of decimal digits denotes; anything else in it counts as zero. -/
def digitsValue (ds : List Char) : Nat :=
  ds.foldl (fun n d => 10 * n + (digitValue? d).getD 0) 0

def readNumeral (ds : List Char) : Except NumeralTooLong Nat :=
  if ds.length ≤ NumeralTooLong.limit then .ok (digitsValue ds) else .error ⟨ds.length⟩

end LintServer.Text
