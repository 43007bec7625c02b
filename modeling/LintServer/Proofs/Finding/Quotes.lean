import LintServer.Proofs.Finding.Splits
import LintServer.Proofs.Text.Numerals
import Mathlib.Data.List.Infix

/-!
# Printed lines and quotes

The tool prints what it finds as a line in the format, and the line is read back as
it was meant unless its message quotes the line of another finding (`parse_line_iff`).
The file of a line is as long as it can be, so the last quote has the position, the
severity and the code, and all that stands before it counts as the file.
-/

namespace LintServer

/-! ## Lines that the tool prints -/

namespace Severity

def word : Severity → String
  | .error => "error"
  | .warning => "warning"
  | .information => "info"
  | .hint => "hint"

variable {s : Severity} (spoken : s ≠ .hint)
include spoken

theorem word_mem : s.word ∈ ["info", "warning", "error"] := by
  cases s with
  | error => simp [word]
  | warning => simp [word]
  | information => simp [word]
  | hint => exact absurd rfl spoken

theorem ofWord_word : ofWord s.word = s := by
  cases s with
  | error => decide
  | warning => decide
  | information => decide
  | hint => exact absurd rfl spoken

end Severity

/-- What the tool has to say about a place in a file, with lines counted from one. -/
structure Notice where
  file : String
  startLine : Nat
  startColumn : Nat
  endLine : Nat
  endColumn : Nat
  severity : Severity
  code : String
  message : String

namespace Notice

/-- The line of a notice up to its message. -/
def head (n : Notice) : String :=
  n.file ++ "(" ++ toString n.startLine ++ "," ++ toString n.startColumn ++ "," ++ toString n.endLine ++ "," ++
    toString n.endColumn ++ "): " ++ n.severity.word ++ ": [ " ++ n.code ++ " ]  "

def line (n : Notice) : String :=
  n.head ++ n.message

/-- What the line of a notice is meant to be read as. -/
def finding (n : Notice) : Finding where
  file := n.file
  startLine := max 0 ((n.startLine : Int) - 1)
  startColumn := n.startColumn
  endLine := max 0 ((n.endLine : Int) - 1)
  endColumn := n.endColumn
  severity := n.severity
  code := n.code
  message := n.message

end Notice

namespace Finding

/-- A text with a position in it, such as stands behind the file of a line. -/
def HoldsPosition (cs : List Char) : Prop :=
  ∃ front c rest, Coordinates.InFormat c ∧ cs = front ++ c.text ++ rest

/-- A text that ends in the line of a finding, its file apart. -/
def Quotes (cs : List Char) : Prop :=
  ∃ front r blank, Remark.InFormat r blank ∧ cs = front ++ r.text blank

end Finding

open Finding (HoldsPosition Quotes)

/-- A notice whose parts can be told apart on its line, whatever its message says. -/
structure Notice.Printable (n : Notice) : Prop where
  named : n.file.toList ≠ []
  single : '\n' ∉ n.file.toList
  numbers : ∀ k ∈ [n.startLine, n.startColumn, n.endLine, n.endColumn],
    (Nat.toDigits 10 k).length ≤ Text.NumeralTooLong.limit
  severity : n.severity ≠ .hint
  code : ']' ∉ n.code.toList
  unplaced : ¬ HoldsPosition n.code.toList
  message : '\n' ∉ n.message.toList
  begins : n.message.toList.head?.any Text.isBlank = false
  ends : n.message.toList.getLast? ≠ some '\r'

/-! ## Where a position can begin -/

theorem append_cons_behind {α : Type} {c : α} {front text more rest : List α} (clean : c ∉ front)
    (h : front ++ text = more ++ c :: rest) : ∃ later, more = front ++ later ∧ text = later ++ c :: rest := by
  rcases List.append_eq_append_iff.1 h with ⟨later, rfl, parts⟩ | ⟨between, rfl, parts⟩
  · exact ⟨later, rfl, parts⟩
  · cases between with
    | nil => exact ⟨[], by simp, by simpa using parts.symm⟩
    | cons d between =>
      cases parts
      simp at clean

namespace Finding

namespace Coordinates

/-- The numbers of a position, without the brackets around them. -/
def numbers (c : Coordinates) : List Char :=
  c.startLine ++ ',' :: c.startColumn ++ ',' :: c.endLine ++ ',' :: c.endColumn

theorem text_eq (c : Coordinates) : c.text = '(' :: c.numbers ++ [')', ':', ' '] := by
  simp [text, numbers]

theorem InFormat.notMem_numbers {c : Coordinates} (h : c.InFormat) {mark : Char} (plain : Text.isDigit mark = false)
    (other : mark ≠ ',') : mark ∉ c.numbers := by
  have digits {ds : List Char} (numeral : Numeral ds) : mark ∉ ds := by
    intro inside
    have := numeral.2 mark inside
    simp [plain] at this
  simp [numbers, other, digits h.startLine, digits h.startColumn, digits h.endLine, digits h.endColumn]

end Coordinates

/-- The only blank in a position ends it. -/
theorem Coordinates.InFormat.last {c : Coordinates} (h : c.InFormat) {front rest : List Char}
    (cut : c.text = front ++ ' ' :: rest) : rest = [] := by
  have clean : ' ' ∉ '(' :: c.numbers ++ [')', ':'] := by
    simp [h.notMem_numbers (show Text.isDigit ' ' = false by decide)]
  have parts : ('(' :: c.numbers ++ [')', ':']) ++ [' '] = front ++ ' ' :: rest := by
    rw [← cut, Coordinates.text_eq]
    simp
  obtain ⟨later, -, ended⟩ := append_cons_behind clean parts
  cases later with
  | nil => simpa using ended.symm
  | cons d later => simp at ended

theorem holdsPosition_iff (cs : List Char) :
    HoldsPosition cs ↔ ∃ rest ∈ cs.tails, (coordinates? rest).isSome = true := by
  constructor
  · rintro ⟨front, c, rest, inFormat, rfl⟩
    refine ⟨c.text ++ rest, (List.mem_tails _ _).2 ⟨front, by simp⟩, ?_⟩
    rw [coordinates?_eq_some_iff.2 ⟨inFormat, rfl⟩]
    rfl
  · rintro ⟨rest, tail, read⟩
    obtain ⟨front, rfl⟩ := (List.mem_tails _ _).1 tail
    obtain ⟨⟨c, rest⟩, read⟩ := Option.isSome_iff_exists.1 read
    obtain ⟨inFormat, rfl⟩ := coordinates?_eq_some_iff.1 read
    exact ⟨front, c, rest, inFormat, by simp⟩

instance (cs : List Char) : Decidable (HoldsPosition cs) :=
  decidable_of_iff _ (holdsPosition_iff cs).symm

theorem quotes_iff (cs : List Char) : Quotes cs ↔ ∃ rest ∈ cs.tails, (remark? rest).isSome = true := by
  constructor
  · rintro ⟨front, r, blank, inFormat, rfl⟩
    refine ⟨r.text blank, (List.mem_tails _ _).2 ⟨front, rfl⟩, ?_⟩
    rw [remark?_text inFormat]
    rfl
  · rintro ⟨rest, tail, read⟩
    obtain ⟨front, rfl⟩ := (List.mem_tails _ _).1 tail
    obtain ⟨r, read⟩ := Option.isSome_iff_exists.1 read
    obtain ⟨blank, inFormat, rfl, -⟩ := remark?_eq_some read
    exact ⟨front, r, blank, inFormat, rfl⟩

instance (cs : List Char) : Decidable (Quotes cs) :=
  decidable_of_iff _ (quotes_iff cs).symm

namespace Remark

/-- The remark as it stands behind the file, up to its message. -/
def head (r : Remark) (blank : List Char) : List Char :=
  r.coordinates.text ++ r.severity ++ [':', ' ', '[', ' '] ++ r.code ++ [' ', ']'] ++ blank

theorem text_eq (r : Remark) (blank : List Char) : r.text blank = r.head blank ++ r.message := rfl

theorem length_head_pos (r : Remark) (blank : List Char) : 0 < (r.head blank).length := by
  rw [head, Coordinates.text_eq]
  simp

theorem exists_text (r : Remark) (blank : List Char) : ∃ rest, r.text blank = '(' :: rest :=
  ⟨_, by simp [text, Coordinates.text_eq]; rfl⟩

variable {r q : Remark} {blank blank' : List Char}

theorem InFormat.notMem_severity (h : r.InFormat blank) {mark : Char} (hm : mark ∈ [':', '(', ']', '\n']) :
    mark ∉ r.severity := by
  obtain ⟨word, known, spelled⟩ := h.severity
  exact notMem_of_spells hm known spelled

/-- No remark begins within a code that holds no position. -/
theorem not_within_code (hq : q.InFormat blank') {front inside tail : List Char}
    (unplaced : ¬ HoldsPosition (front ++ inside)) : q.text blank' ≠ inside ++ ' ' :: ']' :: tail := by
  intro h
  have parts : q.coordinates.text ++ (q.severity ++ ':' :: (' ' :: '[' :: ' ' :: (q.code ++ [' ', ']'] ++ blank' ++
      q.message))) = inside ++ ' ' :: ']' :: tail := by
    rw [← h]
    simp [text]
  have held (rest : List Char) : inside ≠ q.coordinates.text ++ rest := by
    rintro rfl
    exact unplaced ⟨front, q.coordinates, rest, hq.coordinates, by simp⟩
  rcases List.append_eq_append_iff.1 parts with ⟨rest, cut, -⟩ | ⟨rest, cut, after⟩
  · exact held rest cut
  · cases rest with
    | nil => exact held [] (by simpa using cut.symm)
    | cons c rest =>
      rw [List.cons_append] at after
      obtain ⟨rfl, word⟩ := List.cons.inj after
      -- The position ends here, so the bracket would begin the word of a severity.
      rw [hq.coordinates.last cut, List.nil_append] at word
      have bracket : ']' ∉ q.severity := hq.notMem_severity (by decide)
      obtain ⟨later, ended, colon⟩ := append_cons_behind bracket (word.symm.trans (List.nil_append _).symm)
      obtain ⟨-, rfl⟩ := List.append_eq_nil_iff.1 ended.symm
      cases colon

theorem behind_code (hq : q.InFormat blank') {code tail more : List Char} (unplaced : ¬ HoldsPosition code)
    (h : code ++ ' ' :: ']' :: tail = more ++ q.text blank') :
    ∃ later, more = code ++ ' ' :: ']' :: later ∧ tail = later ++ q.text blank' := by
  rcases List.append_eq_append_iff.1 h with ⟨behind, rfl, parts⟩ | ⟨inside, rfl, parts⟩
  · obtain ⟨rest, opens⟩ := q.exists_text blank'
    rw [opens] at parts ⊢
    have clean : '(' ∉ [' ', ']'] := by decide
    obtain ⟨later, rfl, tail⟩ := append_cons_behind clean parts
    exact ⟨later, rfl, tail⟩
  · exact absurd parts (not_within_code hq unplaced)

/-- A remark that begins behind the start of another one is quoted by it. -/
theorem behind_head (hr : r.InFormat blank) (unplaced : ¬ HoldsPosition r.code) (hq : q.InFormat blank')
    {more : List Char} (begun : more ≠ []) (h : r.text blank = more ++ q.text blank') :
    ∃ later, more = r.head blank ++ later ∧ r.message = later ++ q.text blank' := by
  obtain ⟨c, more, rfl⟩ := List.exists_cons_of_ne_nil begun
  obtain ⟨rest, opens⟩ := q.exists_text blank'
  have place := hr.coordinates.notMem_numbers (show Text.isDigit '(' = false by decide) (by decide)
  have word : '(' ∉ r.severity := hr.notMem_severity (by decide)
  have clean : '(' ∉ r.coordinates.numbers ++ [')', ':', ' '] ++ r.severity ++ [':', ' ', '[', ' '] := by
    simp [place, word]
  have clear : '(' ∉ blank := by
    intro inside
    exact absurd (hr.blank _ inside) (by decide)
  have parts : '(' :: ((r.coordinates.numbers ++ [')', ':', ' '] ++ r.severity ++ [':', ' ', '[', ' ']) ++
      (r.code ++ ' ' :: ']' :: (blank ++ r.message))) = c :: (more ++ q.text blank') := by
    have split : r.text blank = c :: (more ++ q.text blank') := h
    rw [← split]
    simp [text, Coordinates.text_eq]
  obtain ⟨rfl, inner⟩ := List.cons.inj parts
  rw [opens] at inner
  obtain ⟨more, rfl, code⟩ := append_cons_behind clean inner
  rw [← opens] at code
  obtain ⟨more, rfl, tail⟩ := behind_code hq unplaced code
  rw [opens] at tail ⊢
  obtain ⟨later, rfl, message⟩ := append_cons_behind clear tail
  exact ⟨later, by simp [head, Coordinates.text_eq], message⟩

end Remark

/-! ## The split that was meant, or a later one -/

namespace Split

variable {p q : Split} {line : List Char}

/-- A message that begins with no blank leaves no choice but that of the file. -/
theorem Chosen.eq_of_length_eq (hq : q.Chosen line) (hp : p.Fits line)
    (begins : p.remark.message.head?.any Text.isBlank = false) (length : p.file.length = q.file.length) : q = p := by
  refine hq.unique ⟨hp, fun r hr => ?_⟩
  obtain ⟨-, -, -, -, rest⟩ := hp.alike hq.toFits length
  have blank : q.blank.length ≤ p.blank.length := by
    rcases List.append_eq_append_iff.1 rest with ⟨more, parts, message⟩ | ⟨more, parts, -⟩
    · cases more with
      | nil => simp [parts]
      | cons c more =>
        have dark := hq.remark.blank c (by simp [parts])
        simp [message, dark] at begins
    · simp [parts]
  have := hq.longest r hr
  omega

/-- The chosen split of a line is the one that was meant, or it begins in its message. -/
theorem meant_or_quoted (hp : p.Fits line) (unplaced : ¬ HoldsPosition p.remark.code)
    (begins : p.remark.message.head?.any Text.isBlank = false) (hq : q.Chosen line) :
    q = p ∨ ∃ later, q.file = p.file ++ p.remark.head p.blank ++ later ∧
      p.remark.message = later ++ q.remark.text q.blank := by
  have same : p.file ++ p.remark.text p.blank = q.file ++ q.remark.text q.blank := hp.text.symm.trans hq.text
  rcases hq.longest p hp with longer | ⟨length, -⟩
  · right
    rcases List.append_eq_append_iff.1 same with ⟨more, files, parts⟩ | ⟨more, files, -⟩
    · have begun : more ≠ [] := by
        rintro rfl
        simp [files] at longer
      obtain ⟨later, rfl, message⟩ := Remark.behind_head hp.remark unplaced hq.remark begun parts
      exact ⟨later, by simp [files], message⟩
    · rw [files, List.length_append] at longer
      omega
  · exact .inl (hq.eq_of_length_eq hp begins length)

/-- A quote in the message splits the line as well, if there is no line feed in front of it. -/
theorem fits_of_quote (hp : p.Fits line) (whole : '\n' ∉ p.remark.code ++ p.blank) {front blank : List Char}
    {r : Remark} (hr : r.InFormat blank) (quoted : p.remark.message = front ++ r.text blank) :
    Fits ⟨p.file ++ p.remark.head p.blank ++ front, r, blank⟩ line := by
  have place := hp.remark.coordinates.notMem_numbers (show Text.isDigit '\n' = false by decide) (by decide)
  have word : '\n' ∉ p.remark.severity := hp.remark.notMem_severity (by decide)
  have message := hp.remark.message
  rw [quoted] at message
  refine ⟨?_, ?_, ?_, hr⟩
  · rw [hp.text, text, text, Remark.text_eq, quoted]
    simp
  · simp [hp.named]
  · simp only [List.mem_append, not_or] at whole message
    simp [Remark.head, Coordinates.text_eq, hp.single, place, word, whole, message]

end Split

theorem parse_of_chosen {line : String} {p : Split} (h : p.Chosen (Text.trimEndWhile Text.isLineEnd line.toList)) :
    parse line = (ofRemark p.file p.remark).map some := by
  rcases Split.cut?_cases (Text.trimEndWhile Text.isLineEnd line.toList) with ⟨q, chosen, cut⟩ | ⟨no, -⟩
  · rw [parse, ofLine?, cut, chosen.unique h]
  · exact absurd ⟨p, h.toFits⟩ no

end Finding

namespace Notice

/-- The pieces of the line of a notice, as they are meant. -/
def split (n : Notice) : Finding.Split where
  file := n.file.toList
  remark :=
    { coordinates :=
        ⟨Nat.toDigits 10 n.startLine, Nat.toDigits 10 n.startColumn, Nat.toDigits 10 n.endLine,
          Nat.toDigits 10 n.endColumn⟩
      severity := n.severity.word.toList
      code := n.code.toList
      message := n.message.toList }
  blank := [' ', ' ']

theorem toList_head (n : Notice) : n.head.toList = n.split.file ++ n.split.remark.head n.split.blank := by
  simp [head, split, Finding.Remark.head, Finding.Coordinates.text]

theorem toList_line (n : Notice) : n.line.toList = n.split.text := by
  rw [line, String.toList_append, toList_head, Finding.Split.text, Finding.Remark.text_eq, List.append_assoc]
  rfl

variable {n : Notice} (h : n.Printable)
include h

theorem inFormat : n.split.remark.InFormat n.split.blank := by
  have numeral (k : Nat) : Finding.Numeral (Nat.toDigits 10 k) := by
    refine ⟨Nat.toDigits_ne_nil, fun c hc => ?_⟩
    rw [Text.isDigit, Text.digitValue?_of_isDigit (Text.isDigit_toDigits k c hc)]
    rfl
  refine ⟨⟨numeral _, numeral _, numeral _, numeral _⟩, ⟨_, Severity.word_mem h.severity, ?_⟩, h.code, ?_, h.message⟩
  · exact List.forall₂_same.2 fun c _ => List.mem_cons_self
  · simp [split]
    decide

theorem trimmed_line : Text.trimEndWhile Text.isLineEnd n.line.toList = n.line.toList := by
  have last : ∃ front c, n.line.toList = front ++ [c] ∧ Text.isLineEnd c = false := by
    rcases List.eq_nil_or_concat n.message.toList with empty | ⟨front, c, message⟩
    · exact ⟨n.split.file ++ n.split.remark.head [' '], ' ', by
        simp [toList_line, Finding.Split.text, Finding.Remark.text, Finding.Remark.head, split, empty], by decide⟩
    · refine ⟨n.head.toList ++ front, c, by simp [line, message], ?_⟩
      have feed : c ≠ '\n' := by
        rintro rfl
        exact h.message (by simp [message])
      have ret : c ≠ '\r' := by
        rintro rfl
        exact h.ends (by simp [message])
      simp [Text.isLineEnd, feed, ret]
  obtain ⟨front, c, parts, plain⟩ := last
  rw [parts, Text.trimEndWhile_concat_of_neg plain]

theorem fits : n.split.Fits (Text.trimEndWhile Text.isLineEnd n.line.toList) := by
  rw [trimmed_line h]
  exact ⟨n.toList_line, h.named, h.single, inFormat h⟩

theorem finding_split : n.split.finding = n.finding := by
  have severity := Severity.ofWord_word h.severity
  rw [← Finding.Split.ofShort_eq]
  simp [Finding.ofShort, finding, split, Text.digitsValue_toDigits, severity]
  omega

/-- The chosen split of a printed line is the one that was meant, or begins with a quote. -/
theorem exists_chosen : ∃ p : Finding.Split, p.Chosen (Text.trimEndWhile Text.isLineEnd n.line.toList) ∧
    (p = n.split ∨ ∃ later, p.file = n.head.toList ++ later ∧ n.message.toList = later ++ p.remark.text p.blank) := by
  obtain ⟨p, chosen, -⟩ := Finding.Split.existsUnique_chosen.1 ⟨n.split, fits h⟩
  refine ⟨p, chosen, ?_⟩
  rcases Finding.Split.meant_or_quoted (fits h) h.unplaced h.begins chosen with meant | ⟨later, file, message⟩
  · exact .inl meant
  · exact .inr ⟨later, by rw [file, toList_head], message⟩

theorem parse_split (meant : n.split.Chosen (Text.trimEndWhile Text.isLineEnd n.line.toList)) :
    Finding.parse n.line = .ok (some n.finding) := by
  rw [Finding.parse_of_chosen meant]
  rcases Finding.ofRemark_cases n.split.file n.split.remark with ⟨-, read⟩ | ⟨long, -⟩
  · rw [read, Finding.Split.ofShort_eq, finding_split h]
    rfl
  · refine absurd (fun ds mem => ?_) long
    have numbers := h.numbers
    simp only [List.mem_cons, List.not_mem_nil, or_false, forall_eq_or_imp, forall_eq] at numbers
    simp only [split, List.mem_cons, List.not_mem_nil, or_false] at mem
    rcases mem with rfl | rfl | rfl | rfl
    · exact numbers.1
    · exact numbers.2.1
    · exact numbers.2.2.1
    · exact numbers.2.2.2

/-- A split that begins in the message has a longer file than was meant. -/
theorem finding_ne_of_quoted {p : Finding.Split} {later : List Char} (file : p.file = n.head.toList ++ later) :
    n.finding ≠ p.finding := by
  intro same
  rw [← finding_split h] at same
  have length := congrArg List.length ((Finding.Split.file_of_finding same).trans file)
  have longer := n.split.remark.length_head_pos n.split.blank
  rw [toList_head, List.length_append, List.length_append] at length
  omega

omit h in
theorem notMem_code_of_quoted {p : Finding.Split} {later line : List Char} (chosen : p.Chosen line)
    (file : p.file = n.head.toList ++ later) : '\n' ∉ n.code.toList := by
  intro inside
  have code : '\n' ∈ n.split.remark.head n.split.blank := by simp [Finding.Remark.head, split, inside]
  exact chosen.single (by simp only [file, toList_head, List.mem_append, code, or_true, true_or])

theorem not_quotes_of_meant (meant : n.split.Chosen (Text.trimEndWhile Text.isLineEnd n.line.toList))
    (whole : '\n' ∉ n.code.toList) : ¬ Quotes n.message.toList := by
  rintro ⟨front, r, blank, inFormat, quoted⟩
  have whole' : '\n' ∉ n.split.remark.code ++ n.split.blank := by
    simp [split, whole]
  have length := meant.longest _ (Finding.Split.fits_of_quote (fits h) whole' inFormat quoted)
  have longer := n.split.remark.length_head_pos n.split.blank
  simp only [List.length_append] at length
  omega

end Notice

/-- **Printing and reading back.** The line of a notice is read as it was meant exactly if its message
does not end in the line of another finding, or its code breaks the line off in front of that. Any
other finding that is read is the quoted one, and all that stands before the quote is its file. -/
theorem Notice.parse_line_iff {n : Notice} (h : n.Printable) :
    (Finding.parse n.line = .ok (some n.finding) ↔ ('\n' ∉ n.code.toList → ¬ Quotes n.message.toList)) ∧
    ∀ f, Finding.parse n.line = .ok (some f) → f ≠ n.finding →
      ∃ (front blank : List Char) (r : Finding.Remark), r.InFormat blank ∧
        n.message.toList = front ++ r.text blank ∧ f = Finding.Split.finding ⟨n.head.toList ++ front, r, blank⟩ := by
  obtain ⟨p, chosen, rfl | ⟨later, file, message⟩⟩ := n.exists_chosen h
  · have read := parse_split h chosen
    refine ⟨iff_of_true read (not_quotes_of_meant h chosen), fun f found other => ?_⟩
    rw [read] at found
    cases found
    exact absurd rfl other
  · have read : ∀ f, Finding.parse n.line = .ok (some f) → f = p.finding := by
      intro f found
      rw [Finding.parse_of_chosen chosen] at found
      rcases Finding.ofRemark_cases p.file p.remark with ⟨-, short⟩ | ⟨-, e, long⟩
      · rw [short, Finding.Split.ofShort_eq] at found
        cases found
        rfl
      · rw [long] at found
        cases found
    have whole : '\n' ∉ n.code.toList := notMem_code_of_quoted chosen file
    have other : n.finding ≠ p.finding := finding_ne_of_quoted h file
    refine ⟨iff_of_false (fun found => other (read _ found)) ?_, fun f found _ => ?_⟩
    · exact fun clean => clean whole ⟨later, p.remark, p.blank, chosen.remark, message⟩
    · rw [read f found]
      exact ⟨later, p.blank, p.remark, chosen.remark, message, by rw [← file]⟩

/-- A position at the end of a code and one in the message, which goes on as a line but for its severity. -/
theorem Notice.parse_line_iff_near_quote :
    let n : Notice := ⟨"a (1,2)", 0, 7, 12, 0, .information, "x (1,2,3,4):", "b(2,0,2,2): fatal: [ y ]  z"⟩
    n.Printable ∧ ('\n' ∉ n.code.toList → ¬ Quotes n.message.toList) ∧
      n.line = "a (1,2)(0,7,12,0): info: [ x (1,2,3,4): ]  b(2,0,2,2): fatal: [ y ]  z" ∧
      Finding.parse n.line =
        .ok (some ⟨"a (1,2)", 0, 7, 11, 0, .information, "x (1,2,3,4):", "b(2,0,2,2): fatal: [ y ]  z"⟩) := by
  intro n
  have printable : n.Printable :=
    ⟨by decide, by decide, by decide, by decide, by decide, by decide +kernel, by decide, by decide, by decide⟩
  have alone : ¬ Quotes n.message.toList := by decide +kernel
  have line : n.line = "a (1,2)(0,7,12,0): info: [ x (1,2,3,4): ]  b(2,0,2,2): fatal: [ y ]  z" := by
    rw [← String.toList_inj, Notice.toList_line]
    decide +kernel
  exact ⟨printable, fun _ => alone, line, (Notice.parse_line_iff printable).1.2 fun _ => alone⟩

/-- A quoted finding takes the line over: what comes before it counts as its file. -/
theorem Notice.quote_read :
    ¬ ∀ n : Notice, n.Printable → ¬ HoldsPosition n.file.toList → Finding.parse n.line = .ok (some n.finding) := by
  intro all
  let n : Notice := ⟨"a", 1, 0, 1, 1, .error, "x", "b(2,0,2,2): error: [ y ]  z"⟩
  have line : n.line = "a(1,0,1,1): error: [ x ]  b(2,0,2,2): error: [ y ]  z" := by
    rw [← String.toList_inj, Notice.toList_line]
    decide +kernel
  have meant := all n
    ⟨by decide, by decide, by decide, by decide, by decide, by decide +kernel, by decide, by decide, by decide⟩
    (by decide +kernel)
  have read : Finding.parse "a(1,0,1,1): error: [ x ]  b(2,0,2,2): error: [ y ]  z" =
      .ok (some ⟨"a(1,0,1,1): error: [ x ]  b", 1, 0, 1, 2, .error, "y", "z"⟩) := by
    decide +kernel
  rw [line, read] at meant
  exact absurd meant (by decide)

end LintServer
