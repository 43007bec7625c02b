import LintServer.Text.Hex
import LintServer.Text.Loose
import LintServer.Text.Printable

/-!
# Quoted texts

A text shown inside a message stands between quotes on one line. Apostrophes are
the quotes, unless the text holds apostrophes and no double quotes. What is not
printable is written as an escape of the least width that holds its code point,
and so is half of a surrogate pair.
-/

namespace LintServer.Text

def quoteFor (t : LooseText) : Char :=
  if t.symbols.contains (.char '\'') && !t.symbols.contains (.char '"') then '"' else '\''

def pointEscape (n : Nat) : List Char :=
  if n < 0x100 then '\\' :: 'x' :: hexPadded 2 n
  else if n < 0x10000 then '\\' :: 'u' :: hexPadded 4 n
  else '\\' :: 'U' :: hexPadded 8 n

def quotedChar (q c : Char) : List Char :=
  if c = q ∨ c = '\\' then ['\\', c]
  else if c = '\t' then ['\\', 't']
  else if c = '\n' then ['\\', 'n']
  else if c = '\r' then ['\\', 'r']
  else if isPrintable c then [c]
  else pointEscape c.toNat

def quotedSymbol (q : Char) : Symbol → List Char
  | .char c => quotedChar q c
  | .half offset => pointEscape (Symbol.half offset).codePoint

def quoted (t : LooseText) : List Char :=
  let q := quoteFor t
  q :: (t.symbols.flatMap (quotedSymbol q) ++ [q])

def quote (t : LooseText) : String :=
  String.ofList (quoted t)

end LintServer.Text
