import LintServer.Json.Basic
import LintServer.Text.Hex
import LintServer.Text.Numeral

/-!
# Reading JSON

The reader takes the value at the head of the text and gives back the rest. It
stops at the first flaw. Besides the standard's numbers it knows `NaN`,
`Infinity` and `-Infinity`. Strings hold no character below the space, and may
hold half of a surrogate pair alone. Values are nested up to a limit.
-/

namespace LintServer.Json

inductive Flaw where
  | byteOrderMark
  | expectedValue
  | expectedName
  | expectedColon
  | expectedComma
  | unterminatedString
  | controlCharacter
  | badEscape
  | badUnicodeEscape
  | extraData
  deriving DecidableEq, Repr

def Flaw.message : Flaw → String
  | .byteOrderMark => "Unexpected UTF-8 BOM (decode using utf-8-sig)"
  | .expectedValue => "Expecting value"
  | .expectedName => "Expecting property name enclosed in double quotes"
  | .expectedColon => "Expecting ':' delimiter"
  | .expectedComma => "Expecting ',' delimiter"
  | .unterminatedString => "Unterminated string starting at"
  | .controlCharacter => "Invalid control character at"
  | .badEscape => "Invalid \\escape"
  | .badUnicodeEscape => "Invalid \\uXXXX escape"
  | .extraData => "Extra data"

inductive Compound where
  | array
  | object
  deriving DecidableEq, Repr

def Compound.name : Compound → String
  | .array => "array"
  | .object => "object"

/-- More compound values are open at once than may be. -/
structure TooDeep where
  kind : Compound
  deriving DecidableEq, Repr

def TooDeep.message (e : TooDeep) : String :=
  s!"maximum recursion depth exceeded while decoding a JSON {e.kind.name} from a unicode string"

/-- Why a text was not read: it is no JSON, holds a whole number with too many digits, or is nested too deep. -/
inductive ReadError where
  | flaw (f : Flaw)
  | tooLong (e : Text.NumeralTooLong)
  | tooDeep (e : TooDeep)
  deriving DecidableEq, Repr

/-- A reader takes what it reads off the head of a text. -/
abbrev Reading (α : Type) := Except ReadError (α × List Char)

def fails {α : Type} (f : Flaw) : Reading α :=
  .error (.flaw f)

def isSpace (c : Char) : Bool :=
  c == ' ' || c == '\t' || c == '\n' || c == '\r'

def skipSpace (cs : List Char) : List Char :=
  cs.dropWhile isSpace

/-! ## Strings -/

def escaped? (c : Char) : Option Char :=
  if c = '"' ∨ c = '\\' ∨ c = '/' then some c
  else if c = 'b' then some '\x08'
  else if c = 'f' then some '\x0c'
  else if c = 'n' then some '\n'
  else if c = 'r' then some '\r'
  else if c = 't' then some '\t'
  else none

def unit? (a b c d : Char) : Option Nat := do
  let a ← Text.hexValue? a
  let b ← Text.hexValue? b
  let c ← Text.hexValue? c
  let d ← Text.hexValue? d
  pure (((a * 16 + b) * 16 + c) * 16 + d)

def isHighSurrogate (u : Nat) : Bool := 0xD800 ≤ u && u < 0xDC00

def isLowSurrogate (u : Nat) : Bool := 0xDC00 ≤ u && u < 0xE000

def joinSurrogates (high low : Nat) : Char :=
  Char.ofNat (0x10000 + (high - 0xD800) * 0x400 + (low - 0xDC00))

def unitSymbol (u : Nat) : Symbol :=
  if isHighSurrogate u || isLowSurrogate u then .half (Fin.ofNat 0x800 (u - 0xD800)) else .char (Char.ofNat u)

/-- The low half of a surrogate pair at the head of a text that goes on behind it. -/
def pairedLow? : List Char → Option (Nat × List Char)
  | '\\' :: 'u' :: a :: b :: c :: d :: next :: cs =>
    ((unit? a b c d).filter isLowSurrogate).map fun u => (u, next :: cs)
  | _ => none

theorem length_of_pairedLow? {cs rest : List Char} {u : Nat} (h : pairedLow? cs = some (u, rest)) :
    rest.length < cs.length := by
  unfold pairedLow? at h
  split at h
  · obtain ⟨_, _, hu⟩ := Option.map_eq_some_iff.1 h
    cases hu
    simp
  · cases h

def consSymbol (x : Symbol) (reading : Reading (List Symbol)) : Reading (List Symbol) :=
  reading.map fun (s, rest) => (x :: s, rest)

def readString : List Char → Reading (List Symbol)
  | [] => fails .unterminatedString
  | c :: cs =>
    if c = '"' then .ok ([], cs)
    else if c = '\\' then
      match cs with
      | [] => fails .unterminatedString
      | 'u' :: a :: b :: c :: d :: next :: cs =>
        match unit? a b c d with
        | none => fails .badUnicodeEscape
        | some u =>
          match h : (if isHighSurrogate u then pairedLow? (next :: cs) else none) with
          | some (l, rest) =>
            have : rest.length < cs.length + 1 := by
              split at h
              · exact length_of_pairedLow? h
              · cases h
            consSymbol (.char (joinSurrogates u l)) (readString rest)
          | none => consSymbol (unitSymbol u) (readString (next :: cs))
      | 'u' :: _ => fails .badUnicodeEscape
      | e :: cs =>
        match escaped? e with
        | none => fails .badEscape
        | some x => consSymbol (.char x) (readString cs)
    else if c.toNat < 0x20 then fails .controlCharacter
    else consSymbol (.char c) (readString cs)
termination_by cs => cs.length

/-! ## Numbers -/

def spanDigits (cs : List Char) : List Char × List Char :=
  (cs.takeWhile Char.isDigit, cs.dropWhile Char.isDigit)

def fraction : List Char → List Char × List Char
  | '.' :: d :: cs => if d.isDigit then spanDigits (d :: cs) else ([], '.' :: d :: cs)
  | cs => ([], cs)

def signOf : List Char → Bool × List Char
  | '-' :: cs => (true, cs)
  | '+' :: cs => (false, cs)
  | cs => (false, cs)

def exponent? : List Char → Option (Int × List Char)
  | c :: cs =>
    if c = 'e' ∨ c = 'E' then
      let (negative, cs) := signOf cs
      let (ds, rest) := spanDigits cs
      if ds.isEmpty then none
      else
        let n := Text.digitsValue ds
        some (if negative then -n else n, rest)
    else none
  | [] => none

/-- The digits before the point: a zero alone, or a run that starts with another digit. -/
def whole? : List Char → Option (List Char × List Char)
  | '0' :: cs => some (['0'], cs)
  | c :: cs => if c.isDigit then some (spanDigits (c :: cs)) else none
  | [] => none

def decimal (negative : Bool) (whole fraction : List Char) (exponent : Int) : Double :=
  let x := Double.ofDecimal (Text.digitsValue (whole ++ fraction)) (exponent - fraction.length)
  if negative then x.neg else x

/-- Reads a number: whole unless it has a fraction or an exponent. -/
def readNumber (cs : List Char) : Reading Json :=
  let (negative, digits) := if cs.head? = some '-' then (true, cs.tail) else (false, cs)
  match whole? digits with
  | none => fails .expectedValue
  | some (ds, rest) =>
    let (fs, rest) := fraction rest
    match exponent? rest with
    | some (e, rest) => .ok (.float (decimal negative ds fs e), rest)
    | none =>
      if fs.isEmpty then
        match Text.readNumeral ds with
        | .ok n => .ok (.int (if negative then -n else n), rest)
        | .error e => .error (.tooLong e)
      else .ok (.float (decimal negative ds fs 0), rest)

/-! ## Values -/

def after? (word : String) (cs : List Char) : Option (List Char) :=
  if word.toList.isPrefixOf cs then some (cs.drop word.length) else none

def words : List (String × Json) :=
  [("null", .null), ("true", .bool true), ("false", .bool false), ("NaN", .float .nan),
   ("Infinity", .float .infinity), ("-Infinity", .float Double.infinity.neg)]

def readScalar (cs : List Char) : Reading Json :=
  match words.findSome? fun (word, value) => (after? word cs).map fun rest => (value, rest) with
  | some reading => .ok reading
  | none => readNumber cs

mutual

/-- Reads a value in which `depth` more compound values may be open. Every step down takes a unit of fuel. -/
def readValue : Nat → Nat → List Char → Reading Json
  | 0, _, _ => fails .expectedValue
  | fuel + 1, depth, cs =>
    match cs with
    | '"' :: cs => (readString cs).map fun (s, rest) => (.str ⟨s⟩, rest)
    | '{' :: cs =>
      match depth with
      | 0 => .error (.tooDeep ⟨.object⟩)
      | depth + 1 =>
        match skipSpace cs with
        | '}' :: rest => .ok (.obj [], rest)
        | cs => (readMembers fuel depth cs).map fun (members, rest) => (ofMembers members, rest)
    | '[' :: cs =>
      match depth with
      | 0 => .error (.tooDeep ⟨.array⟩)
      | depth + 1 =>
        match skipSpace cs with
        | ']' :: rest => .ok (.arr [], rest)
        | cs => (readItems fuel depth cs).map fun (items, rest) => (.arr items, rest)
    | cs => readScalar cs

def readMembers : Nat → Nat → List Char → Reading (List (LooseText × Json))
  | 0, _, _ => fails .expectedName
  | fuel + 1, depth, cs =>
    match cs with
    | '"' :: cs =>
      match readString cs with
      | .error e => .error e
      | .ok (name, cs) =>
        match skipSpace cs with
        | ':' :: cs =>
          match readValue fuel depth (skipSpace cs) with
          | .error e => .error e
          | .ok (value, cs) =>
            let member := (⟨name⟩, value)
            match skipSpace cs with
            | '}' :: rest => .ok ([member], rest)
            | ',' :: cs =>
              (readMembers fuel depth (skipSpace cs)).map fun (members, rest) => (member :: members, rest)
            | _ => fails .expectedComma
        | _ => fails .expectedColon
    | _ => fails .expectedName

def readItems : Nat → Nat → List Char → Reading (List Json)
  | 0, _, _ => fails .expectedValue
  | fuel + 1, depth, cs =>
    match readValue fuel depth cs with
    | .error e => .error e
    | .ok (item, cs) =>
      match skipSpace cs with
      | ']' :: rest => .ok ([item], rest)
      | ',' :: cs => (readItems fuel depth (skipSpace cs)).map fun (items, rest) => (item :: items, rest)
      | _ => fails .expectedComma

end

/-- Reads a text that is one value. At most two steps down are taken for a character. -/
def readText (nesting : Nesting) (cs : List Char) : Except ReadError Json :=
  if cs.head? = some '\uFEFF' then .error (.flaw .byteOrderMark)
  else
    match readValue (2 * cs.length + 2) nesting.reading (skipSpace cs) with
    | .error e => .error e
    | .ok (value, rest) => if (skipSpace rest).isEmpty then .ok value else .error (.flaw .extraData)

def read (nesting : Nesting) (s : String) : Except ReadError Json :=
  readText nesting s.toList

end LintServer.Json
