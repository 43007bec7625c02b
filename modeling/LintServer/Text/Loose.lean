/-!
# Loose texts

An escape can name half of a surrogate pair alone, which is no character. A
loose text is a text in which such halves may stand beside characters.
-/

namespace LintServer

/-- A character, or half of a surrogate pair by its distance from the first half. -/
inductive Symbol where
  | char (c : Char)
  | half (offset : Fin 0x800)
  deriving DecidableEq, Repr

namespace Symbol

def codePoint : Symbol → Nat
  | .char c => c.toNat
  | .half offset => 0xD800 + offset

/-- The character of a symbol, a replacement mark for a half. -/
def toChar : Symbol → Char
  | .char c => c
  | .half _ => '\uFFFD'

/-- Whether the symbol is a character of a kind. -/
def is (p : Char → Bool) : Symbol → Bool
  | .char c => p c
  | .half _ => false

/-- The symbol with its character changed, if it is one. -/
def map (f : Char → Char) : Symbol → Symbol
  | .char c => .char (f c)
  | .half offset => .half offset

end Symbol

structure LooseText where
  symbols : List Symbol
  deriving DecidableEq, Repr

namespace LooseText

def ofChars (cs : List Char) : LooseText := ⟨cs.map .char⟩

def ofString (s : String) : LooseText := ofChars s.toList

instance : Coe String LooseText := ⟨ofString⟩

instance : Append LooseText := ⟨fun s t => ⟨s.symbols ++ t.symbols⟩⟩

def intercalate (sep : LooseText) (ts : List LooseText) : LooseText :=
  ⟨sep.symbols.intercalate (ts.map symbols)⟩

def isEmpty (t : LooseText) : Bool := t.symbols.isEmpty

def codePoints (t : LooseText) : List Nat := t.symbols.map Symbol.codePoint

/-- The text as a string, with a replacement mark for every half. -/
def text (t : LooseText) : String := String.ofList (t.symbols.map Symbol.toChar)

@[simp] theorem text_ofString (s : String) : (ofString s).text = s := by
  simp [text, ofString, ofChars, Symbol.toChar, Function.comp_def]

theorem ofString_inj {s t : String} : ofString s = ofString t ↔ s = t :=
  ⟨fun h => by rw [← text_ofString s, h, text_ofString], fun h => h ▸ rfl⟩

@[simp] theorem symbols_ofString (s : String) : (ofString s).symbols = s.toList.map .char := rfl

@[simp] theorem symbols_append (s t : LooseText) : (s ++ t).symbols = s.symbols ++ t.symbols := rfl

theorem ext {s t : LooseText} (h : s.symbols = t.symbols) : s = t := by
  cases s
  cases t
  exact congrArg LooseText.mk h

theorem ofString_append (s t : String) : ofString (s ++ t) = ofString s ++ ofString t :=
  ext (by simp)

end LooseText

end LintServer
