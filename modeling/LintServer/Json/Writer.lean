import LintServer.Json.Basic
import LintServer.Number.Shortest
import LintServer.Text.Hex

/-!
# Writing JSON

A value is written on one line, with one blank behind every comma and colon.
Texts are escaped to printable ASCII, characters beyond the basic plane as a
surrogate pair, or kept raw but for quotes, backslashes and control characters.
-/

namespace LintServer.Json

inductive Escaping where
  | ascii
  | raw
  deriving DecidableEq, Repr

def unitEscape (u : Nat) : List Char :=
  '\\' :: 'u' :: Text.hexPadded 4 u

def shortEscape? (c : Char) : Option Char :=
  if c = '"' ∨ c = '\\' then some c
  else if c = '\n' then some 'n'
  else if c = '\r' then some 'r'
  else if c = '\t' then some 't'
  else if c = '\x08' then some 'b'
  else if c = '\x0c' then some 'f'
  else none

/-- Whether a character with no short escape stands for itself. -/
def Escaping.keeps : Escaping → Char → Bool
  | .ascii, c => ' ' ≤ c && c ≤ '~'
  | .raw, c => ' ' ≤ c

def writeChar (e : Escaping) (c : Char) : List Char :=
  match shortEscape? c with
  | some letter => ['\\', letter]
  | none =>
    if e.keeps c then [c]
    else if c.toNat < 0x10000 then unitEscape c.toNat
    else
      let n := c.toNat - 0x10000
      unitEscape (0xD800 + n / 0x400) ++ unitEscape (0xDC00 + n % 0x400)

/-- A symbol inside a written text; a half is always escaped. -/
def writeSymbol (e : Escaping) : Symbol → List Char
  | .char c => writeChar e c
  | .half offset => unitEscape (Symbol.half offset).codePoint

def writeText (e : Escaping) (t : LooseText) : List Char :=
  '"' :: (t.symbols.flatMap (writeSymbol e) ++ ['"'])

def writeInt (n : Int) : List Char :=
  if n < 0 then '-' :: Nat.toDigits 10 n.natAbs else Nat.toDigits 10 n.natAbs

def writeFloat (x : Double) : List Char :=
  if x.isNaN then "NaN".toList
  else if x.isInfinite then (if x.isNegative then "-Infinity" else "Infinity").toList
  else x.shortest

mutual

def write (e : Escaping) : Json → List Char
  | .null => "null".toList
  | .bool true => "true".toList
  | .bool false => "false".toList
  | .int n => writeInt n
  | .float x => writeFloat x
  | .str s => writeText e s
  | .arr [] => ['[', ']']
  | .arr (item :: items) => '[' :: (write e item ++ writeItems e items)
  | .obj [] => ['{', '}']
  | .obj ((name, value) :: members) =>
    '{' :: (writeText e name ++ ':' :: ' ' :: (write e value ++ writeMembers e members))

def writeItems (e : Escaping) : List Json → List Char
  | [] => [']']
  | item :: items => ',' :: ' ' :: (write e item ++ writeItems e items)

def writeMembers (e : Escaping) : List (LooseText × Json) → List Char
  | [] => ['}']
  | (name, value) :: members =>
    ',' :: ' ' :: (writeText e name ++ ':' :: ' ' :: (write e value ++ writeMembers e members))

end

end LintServer.Json
