import LintServer.Finding.Line
import Mathlib.Data.List.DropRight
import Mathlib.Data.List.Forall2

/-!
# The format of a line

What the pieces behind the file of a line may be, and how they are written. A
reader of a piece takes it from the head of a text where it stands there, and
every piece shows its own end: a number the character behind its digits, a
severity its colon, a code its bracket. So there is one way to read them all,
but for blanks at the head of a message, which may be counted to it or not
(`remark?_text`).
-/

namespace LintServer.Finding

/-! ## Words in any case -/

/-- The characters that stand for a small letter where case is ignored. -/
def spellings (letter : Char) : List Char :=
  letter :: letter.toUpper :: if letter = 'i' then ['İ', 'ı'] else []

/-- Spells out a word of small letters, each of them in any case. -/
def Spells (word : String) (cs : List Char) : Prop :=
  List.Forall₂ (fun letter c => c ∈ spellings letter) word.toList cs

theorem toNat_toLower (c : Char) :
    c.toLower.toNat = if 65 ≤ c.toNat ∧ c.toNat ≤ 90 then c.toNat + 32 else c.toNat := by
  have capital : c.val ≥ 'A'.val ∧ c.val ≤ 'Z'.val ↔ 65 ≤ c.toNat ∧ c.toNat ≤ 90 := by
    rw [ge_iff_le, UInt32.le_iff_toNat_le, UInt32.le_iff_toNat_le]
    exact Iff.rfl
  unfold Char.toLower
  split
  · next h =>
    rw [if_pos (capital.1 h)]
    show (c.val + 32).toNat = c.toNat + 32
    rw [UInt32.toNat_add]
    show (c.toNat + 32) % 2 ^ 32 = c.toNat + 32
    have := capital.1 h
    omega
  · next h => rw [if_neg fun h' => h (capital.2 h')]

theorem toNat_toUpper {c : Char} (small : 97 ≤ c.toNat ∧ c.toNat ≤ 122) : c.toUpper.toNat = c.toNat - 32 := by
  have h : c.val ≥ 'a'.val ∧ c.val ≤ 'z'.val := by
    rw [ge_iff_le, UInt32.le_iff_toNat_le, UInt32.le_iff_toNat_le]
    exact small
  unfold Char.toUpper
  rw [dif_pos h]
  show (c.val + ('A'.val - 'a'.val)).toNat = c.toNat - 32
  rw [UInt32.toNat_add]
  show (c.toNat + ('A'.val - 'a'.val).toNat) % 2 ^ 32 = c.toNat - 32
  have : ('A'.val - 'a'.val).toNat = 2 ^ 32 - 32 := by decide
  omega

theorem isLetter_iff {letter : Char} (small : 97 ≤ letter.toNat ∧ letter.toNat ≤ 122) (c : Char) :
    isLetter letter c = true ↔ c ∈ spellings letter := by
  have lower : c.toLower = letter ↔ c = letter ∨ c = letter.toUpper := by
    rw [← Char.toNat_inj, ← Char.toNat_inj, ← Char.toNat_inj, toNat_toLower, toNat_toUpper small]
    split <;> omega
  rw [isLetter, Bool.or_eq_true, beq_iff_eq, lower, spellings]
  by_cases h : letter = 'i' <;> simp [h, or_assoc]

/-! ## Pieces of a line -/

/-- A run of decimal digits that is not empty. -/
def Numeral (ds : List Char) : Prop :=
  ds ≠ [] ∧ ∀ d ∈ ds, Text.isDigit d = true

namespace Coordinates

structure InFormat (c : Coordinates) : Prop where
  startLine : Numeral c.startLine
  startColumn : Numeral c.startColumn
  endLine : Numeral c.endLine
  endColumn : Numeral c.endColumn

/-- The position as it stands behind the file. -/
def text (c : Coordinates) : List Char :=
  '(' :: c.startLine ++ ',' :: c.startColumn ++ ',' :: c.endLine ++ ',' :: c.endColumn ++ [')', ':', ' ']

end Coordinates

namespace Remark

/-- The parts of a remark are in the format, with `blank` between the code and the message. -/
structure InFormat (r : Remark) (blank : List Char) : Prop where
  coordinates : r.coordinates.InFormat
  severity : ∃ word ∈ ["info", "warning", "error"], Spells word r.severity
  code : ']' ∉ r.code
  blank : ∀ c ∈ blank, Text.isBlank c = true
  message : '\n' ∉ r.message

/-- The remark as it stands behind the file, with `blank` between the code and the message. -/
def text (r : Remark) (blank : List Char) : List Char :=
  r.coordinates.text ++ r.severity ++ [':', ' ', '[', ' '] ++ r.code ++ [' ', ']'] ++ blank ++ r.message

end Remark

/-! ## The readers of the pieces -/

theorem append_cons_iff {p : Char → Bool} {c : Char} (stop : p c = false) {cs body rest : List Char} :
    (cs.takeWhile p = body ∧ cs.dropWhile p = c :: rest) ↔ (∀ b ∈ body, p b = true) ∧ cs = body ++ c :: rest := by
  constructor
  · rintro ⟨rfl, h⟩
    exact ⟨fun b hb => List.all_eq_true.1 List.all_takeWhile b hb, by rw [← h, List.takeWhile_append_dropWhile]⟩
  · rintro ⟨inside, rfl⟩
    rw [List.takeWhile_append_of_pos inside, List.dropWhile_append_of_pos inside]
    simp [stop]

/-- A text that is free of its end is what stands in front of the first one. -/
theorem notMem_append_cons_iff {c : Char} {cs body rest : List Char} :
    (cs.takeWhile (· != c) = body ∧ cs.dropWhile (· != c) = c :: rest) ↔ c ∉ body ∧ cs = body ++ c :: rest := by
  rw [append_cons_iff (p := (· != c)) (bne_self_eq_false c)]
  refine and_congr_left fun _ => ?_
  simp only [bne_iff_ne]
  exact ⟨fun h mem => h c mem rfl, fun h b mem same => h (same ▸ mem)⟩

theorem after?_eq_some_iff {piece cs rest : List Char} : after? piece cs = some rest ↔ cs = piece ++ rest := by
  induction piece generalizing cs with
  | nil => simp [after?]
  | cons p piece ih =>
    cases cs with
    | nil => simp [after?]
    | cons c cs =>
      rw [after?]
      split
      · next h => simp [h, ih]
      · next h => simp [Ne.symm h]

theorem number?_eq_some_iff {c : Char} (stop : Text.isDigit c = false) {close cs ds rest : List Char} :
    number? (c :: close) cs = some (ds, rest) ↔ Numeral ds ∧ cs = ds ++ c :: close ++ rest := by
  have span : ds ≠ [] → ((cs.takeWhile Text.isDigit = ds ∧ cs.dropWhile Text.isDigit = c :: (close ++ rest)) ↔
      Numeral ds ∧ cs = ds ++ c :: close ++ rest) := fun given => by
    rw [append_cons_iff stop, Numeral, List.append_assoc, List.cons_append, and_iff_right given]
  unfold number?
  dsimp only
  by_cases empty : cs.takeWhile Text.isDigit = []
  · rw [empty]
    refine iff_of_false (fun h => nomatch h) fun h => ?_
    exact h.1.1 (((span h.1.1).2 h).1.symm.trans empty)
  · rw [List.isEmpty_eq_false_iff.2 empty, if_neg Bool.false_ne_true, Option.map_eq_some_iff]
    constructor
    · rintro ⟨_, h, ⟨⟩⟩
      exact (span empty).1 ⟨rfl, after?_eq_some_iff.1 h⟩
    · intro h
      obtain ⟨run, later⟩ := (span h.1.1).2 h
      exact ⟨rest, after?_eq_some_iff.2 later, by rw [run]⟩

theorem coordinates?_eq_some_iff {cs rest : List Char} {c : Coordinates} :
    coordinates? cs = some (c, rest) ↔ c.InFormat ∧ cs = c.text ++ rest := by
  simp only [coordinates?, bind, pure, Option.bind_eq_some_iff, after?_eq_some_iff, Prod.exists,
    number?_eq_some_iff (show Text.isDigit ',' = false by decide),
    number?_eq_some_iff (show Text.isDigit ')' = false by decide)]
  constructor
  · rintro ⟨_, rfl, d₁, _, ⟨h₁, rfl⟩, d₂, _, ⟨h₂, rfl⟩, d₃, _, ⟨h₃, rfl⟩, d₄, _, ⟨h₄, rfl⟩, ⟨⟩⟩
    exact ⟨⟨h₁, h₂, h₃, h₄⟩, by simp [Coordinates.text]⟩
  · rintro ⟨⟨h₁, h₂, h₃, h₄⟩, rfl⟩
    exact ⟨_, by simp [Coordinates.text], c.startLine, _, ⟨h₁, rfl⟩, c.startColumn, _, ⟨h₂, rfl⟩,
      c.endLine, _, ⟨h₃, rfl⟩, c.endColumn, _, ⟨h₄, rfl⟩, rfl⟩

theorem word?_eq_some_iff {letters cs word rest : List Char}
    (small : ∀ l ∈ letters, 97 ≤ l.toNat ∧ l.toNat ≤ 122) :
    word? letters cs = some (word, rest) ↔
      List.Forall₂ (fun letter c => c ∈ spellings letter) letters word ∧ cs = word ++ rest := by
  induction letters generalizing cs word with
  | nil =>
    simp only [word?, Option.some.injEq, Prod.mk.injEq, List.forall₂_nil_left_iff]
    constructor <;> rintro ⟨rfl, rfl⟩ <;> exact ⟨rfl, rfl⟩
  | cons l letters ih =>
    obtain ⟨here, later⟩ := List.forall_mem_cons.1 small
    rw [List.forall₂_cons_left_iff]
    cases cs with
    | nil =>
      refine iff_of_false (fun h => nomatch h) ?_
      rintro ⟨⟨c, w, -, -, rfl⟩, h⟩
      cases h
    | cons c cs =>
      rw [word?]
      by_cases fits : isLetter l c = true
      · rw [if_pos fits, Option.map_eq_some_iff]
        constructor
        · rintro ⟨⟨w, _⟩, h, ⟨⟩⟩
          obtain ⟨spelled, rfl⟩ := (ih later).1 h
          exact ⟨⟨c, w, (isLetter_iff here c).1 fits, spelled, rfl⟩, rfl⟩
        · rintro ⟨⟨_, w, -, spelled, rfl⟩, h⟩
          cases h
          exact ⟨(w, rest), (ih later).2 ⟨spelled, rfl⟩, rfl⟩
      · rw [if_neg fits]
        refine iff_of_false (fun h => nomatch h) ?_
        rintro ⟨⟨_, w, here', -, rfl⟩, h⟩
        cases h
        exact fits ((isLetter_iff here c).2 here')

theorem exists_of_mem_spelled {letters cs : List Char}
    (spelled : List.Forall₂ (fun letter c => c ∈ spellings letter) letters cs) {c : Char} (h : c ∈ cs) :
    ∃ letter ∈ letters, c ∈ spellings letter := by
  induction spelled with
  | nil => cases h
  | @cons letter _ _ _ here _ ih =>
    rcases List.mem_cons.1 h with rfl | later
    · exact ⟨letter, List.mem_cons_self, here⟩
    · obtain ⟨letter', mem, found⟩ := ih later
      exact ⟨letter', List.mem_cons_of_mem letter mem, found⟩

/-- No word of a severity is spelled with a mark of the format, so the first colon behind one ends it. -/
theorem notMem_of_spells {mark : Char} (hm : mark ∈ [':', '(', ']', '\n']) {word : String} (h : word ∈ severityWords)
    {cs : List Char} (spelled : Spells word cs) : mark ∉ cs := by
  have differs : ∀ mark ∈ [':', '(', ']', '\n'], ∀ word ∈ severityWords, ∀ letter ∈ word.toList,
      mark ∉ spellings letter := by
    simp [severityWords, spellings]
  intro inside
  obtain ⟨letter, mem, found⟩ := exists_of_mem_spelled spelled inside
  exact differs mark hm word h letter mem found

theorem findSome?_eq_some_iff_of_unique {α β : Type} {f : α → Option β} {l : List α}
    (unique : ∀ a ∈ l, ∀ b ∈ l, ∀ x y, f a = some x → f b = some y → x = y) {x : β} :
    l.findSome? f = some x ↔ ∃ a ∈ l, f a = some x := by
  refine ⟨fun h => List.exists_of_findSome?_eq_some h, fun ⟨a, mem, h⟩ => ?_⟩
  have found : (l.findSome? f).isSome := by
    rw [List.findSome?_isSome_iff]
    exact ⟨a, mem, by rw [h]; rfl⟩
  obtain ⟨y, first⟩ := Option.isSome_iff_exists.1 found
  obtain ⟨b, mem', h'⟩ := List.exists_of_findSome?_eq_some first
  rw [first, unique a mem b mem' x y h h']

theorem severity?_eq_some_iff {cs severity rest : List Char} :
    severity? cs = some (severity, rest) ↔
      (∃ word ∈ severityWords, Spells word severity) ∧ cs = severity ++ [':', ' '] ++ rest := by
  have small : ∀ word ∈ severityWords, ∀ l ∈ word.toList, 97 ≤ l.toNat ∧ l.toNat ≤ 122 := by
    simp [severityWords]
  unfold severity?
  rw [findSome?_eq_some_iff_of_unique]
  · rw [← exists_and_right]
    refine exists_congr fun word => ?_
    rw [and_assoc]
    refine and_congr_right fun mem => ?_
    simp only [bind, pure, Option.bind_eq_some_iff, Prod.exists, word?_eq_some_iff (small word mem),
      after?_eq_some_iff]
    constructor
    · rintro ⟨_, _, ⟨spelled, rfl⟩, _, rfl, ⟨⟩⟩
      exact ⟨spelled, by simp⟩
    · rintro ⟨spelled, rfl⟩
      exact ⟨severity, _, ⟨spelled, List.append_assoc ..⟩, rest, rfl, rfl⟩
  · intro one mem two mem' x y
    simp only [bind, pure, Option.bind_eq_some_iff, Prod.exists, word?_eq_some_iff (small one mem),
      word?_eq_some_iff (small two mem'), after?_eq_some_iff]
    rintro ⟨w, _, ⟨spelled, parts⟩, r, rfl, ⟨⟩⟩ ⟨w', _, ⟨spelled', parts'⟩, r', rfl, ⟨⟩⟩
    obtain ⟨rfl, later⟩ := notMem_append_cons_iff.2 ⟨notMem_of_spells (by decide) mem spelled, parts⟩
    obtain ⟨rfl, later'⟩ := notMem_append_cons_iff.2 ⟨notMem_of_spells (by decide) mem' spelled', parts'⟩
    cases later.symm.trans later'
    rfl

theorem code?_eq_some_iff {cs code rest : List Char} :
    code? cs = some (code, rest) ↔ ']' ∉ code ∧ cs = ['[', ' '] ++ code ++ [' ', ']'] ++ rest := by
  simp only [code?, bind, pure, Option.bind_eq_some_iff, after?_eq_some_iff, List.singleton_append]
  constructor
  · rintro ⟨cs, rfl, later, tail, h⟩
    split at h
    · next last =>
      cases h
      obtain ⟨clean, parts⟩ := notMem_append_cons_iff.1 ⟨rfl, tail⟩
      refine ⟨fun inside => clean (List.dropLast_subset _ inside), ?_⟩
      rw [← List.dropLast_append_getLast? ' ' last] at parts
      simpa using parts
    · cases h
  · rintro ⟨clean, rfl⟩
    have clean' : ']' ∉ code ++ [' '] := by simpa using clean
    obtain ⟨inside, later⟩ := notMem_append_cons_iff.2 ⟨clean', (rfl : code ++ [' '] ++ ']' :: rest = _)⟩
    refine ⟨code ++ [' '] ++ ']' :: rest, by simp, rest, later, ?_⟩
    rw [inside]
    simp

theorem message?_eq_some_iff {cs message : List Char} :
    message? cs = some message ↔ cs.dropWhile Text.isBlank = message ∧ '\n' ∉ message := by
  unfold message?
  dsimp only
  split
  · next h =>
    refine iff_of_false (fun h => nomatch h) ?_
    rintro ⟨rfl, clean⟩
    exact clean (List.contains_iff_mem.1 h)
  · next h =>
    rw [Option.some.injEq]
    refine ⟨fun e => ⟨e, fun inside => h (List.contains_iff_mem.2 (e ▸ inside))⟩, And.left⟩

/-- A remark in the format is read as it is written, but for blanks at the head of its message. -/
theorem remark?_text {r : Remark} {blank : List Char} (h : r.InFormat blank) :
    remark? (r.text blank) = some { r with message := r.message.dropWhile Text.isBlank } := by
  have clean : '\n' ∉ r.message.dropWhile Text.isBlank :=
    fun inside => h.message ((List.dropWhile_sublist _).subset inside)
  simp only [remark?, bind, pure, Option.bind_eq_some_iff, Prod.exists, coordinates?_eq_some_iff,
    severity?_eq_some_iff, code?_eq_some_iff, message?_eq_some_iff]
  refine ⟨r.coordinates, _, ⟨h.coordinates, ?_⟩, r.severity, _, ⟨h.severity, rfl⟩, r.code, blank ++ r.message,
    ⟨h.code, rfl⟩, _, ⟨List.dropWhile_append_of_pos h.blank, clean⟩, rfl⟩
  simp [Remark.text]

theorem remark?_eq_some {cs : List Char} {r : Remark} (h : remark? cs = some r) :
    ∃ blank : List Char, r.InFormat blank ∧ cs = r.text blank ∧ r.message.dropWhile Text.isBlank = r.message := by
  simp only [remark?, bind, pure, Option.bind_eq_some_iff, Prod.exists, coordinates?_eq_some_iff,
    severity?_eq_some_iff, code?_eq_some_iff, message?_eq_some_iff] at h
  obtain ⟨c, _, ⟨position, rfl⟩, severity, _, ⟨spelled, rfl⟩, code, rest, ⟨free, rfl⟩, _, ⟨rfl, single⟩, ⟨⟩⟩ := h
  refine ⟨rest.takeWhile Text.isBlank,
    ⟨position, spelled, free, fun c hc => List.all_eq_true.1 List.all_takeWhile c hc, single⟩, ?_, ?_⟩
  · simp [Remark.text]
  · exact List.dropWhile_idempotent _ _

end LintServer.Finding
