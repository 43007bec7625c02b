import LintServer.Proofs.Finding.Grammar
import LintServer.Proofs.Finding.Lines

/-!
# Splits of a line

A file may hold text that looks like a position, and a message may begin with
blanks. A line can therefore be split into the pieces of the format in more than
one way. The parser takes the split with the longest file and then the longest
blank run (`parse_exact`): where it cuts, a remark begins, and at no later place
does one (`cutFrom?_eq_some`).
-/

namespace LintServer.Finding

/-! ## The cut behind the file -/

/-- Nothing behind a place where the line could be cut is a remark. -/
theorem cutFrom?_eq_none {file cs : List Char} (h : cutFrom? file cs = none) {more rest : List Char}
    (parts : cs = more ++ rest) (single : '\n' ∉ more) (named : file.reverse ++ more ≠ []) : remark? rest = none := by
  induction cs generalizing file more with
  | nil =>
    obtain ⟨rfl, rfl⟩ := List.append_eq_nil_iff.1 parts.symm
    rfl
  | cons c cs ih =>
    rw [cutFrom?] at h
    split at h
    · cases h
    · next later =>
      cases more with
      | nil =>
        cases parts
        have given : file.isEmpty = false := List.isEmpty_eq_false_iff.2 (by simpa using named)
        rw [given, if_neg Bool.false_ne_true] at h
        exact Option.map_eq_none_iff.1 h
      | cons d more =>
        obtain ⟨here, behind⟩ := List.ne_and_not_mem_of_not_mem_cons single
        cases parts
        rw [if_neg here.symm] at later
        exact ih later rfl behind (by simp)

/-- A line is cut in front of a remark, and nothing behind a later place is one. -/
theorem cutFrom?_eq_some {file cs name : List Char} {r : Remark} (h : cutFrom? file cs = some (name, r)) :
    ∃ more rest : List Char, cs = more ++ rest ∧ '\n' ∉ more ∧ name = file.reverse ++ more ∧ name ≠ [] ∧
      remark? rest = some r ∧
      ∀ more' rest' : List Char, cs = more' ++ rest' → '\n' ∉ more' → more.length < more'.length →
        remark? rest' = none := by
  induction cs generalizing file with
  | nil => cases h
  | cons c cs ih =>
    rw [cutFrom?] at h
    split at h
    · next pieces found =>
      cases h
      split at found
      · cases found
      · next here =>
        obtain ⟨more, rest, rfl, single, rfl, named, read, last⟩ := ih found
        refine ⟨c :: more, rest, rfl, List.not_mem_cons_of_ne_of_not_mem (Ne.symm here) single, by simp, named,
          read, ?_⟩
        rintro (_ | ⟨d, more'⟩) rest' parts' single' longer
        · cases longer
        · exact last more' rest' (List.cons.inj parts').2 (fun inside => single' (List.mem_cons_of_mem d inside))
            (Nat.lt_of_succ_lt_succ longer)
    · next later =>
      split at h
      · cases h
      · next given =>
        obtain ⟨r, read, ⟨⟩⟩ := Option.map_eq_some_iff.1 h
        refine ⟨[], c :: cs, rfl, List.not_mem_nil, (List.append_nil _).symm, by simpa using given, read, ?_⟩
        rintro (_ | ⟨d, more'⟩) rest' parts' single' longer
        · cases longer
        · obtain ⟨here, behind⟩ := List.ne_and_not_mem_of_not_mem_cons single'
          cases parts'
          rw [if_neg here.symm] at later
          exact cutFrom?_eq_none later rfl behind (by simp)

/-! ## Splits of a line -/

/-- The pieces of a line: a file and a remark, with blanks in front of its message. -/
structure Split where
  file : List Char
  remark : Remark
  blank : List Char

namespace Split

def text (p : Split) : List Char :=
  p.file ++ p.remark.text p.blank

/-- The line can be written in the format with these pieces. -/
structure Fits (p : Split) (line : List Char) : Prop where
  text : line = p.text
  named : p.file ≠ []
  single : '\n' ∉ p.file
  remark : p.remark.InFormat p.blank

/-- The pieces fit, and of all that do they have the longest file and then the longest blank run. -/
structure Chosen (p : Split) (line : List Char) : Prop extends p.Fits line where
  longest : ∀ q : Split, q.Fits line →
    q.file.length < p.file.length ∨ q.file.length = p.file.length ∧ q.blank.length ≤ p.blank.length

/-- What the pieces of a line say, with lines counted from zero and never below it. -/
def finding (p : Split) : Finding where
  file := String.ofList p.file
  startLine := max 0 ((Text.digitsValue p.remark.coordinates.startLine : Int) - 1)
  startColumn := Text.digitsValue p.remark.coordinates.startColumn
  endLine := max 0 ((Text.digitsValue p.remark.coordinates.endLine : Int) - 1)
  endColumn := Text.digitsValue p.remark.coordinates.endColumn
  severity :=
    if p.remark.severity = "info".toList then .information
    else if p.remark.severity = "warning".toList then .warning
    else .error
  code := String.ofList p.remark.code
  message := String.ofList p.remark.message

theorem ofShort_eq (p : Split) : ofShort p.file p.remark = p.finding := by
  have line (n : Nat) : ((n - 1 : Nat) : Int) = max 0 ((n : Int) - 1) := by omega
  have named (word : String) : String.ofList p.remark.severity = word ↔ p.remark.severity = word.toList := by
    rw [← String.toList_inj, String.toList_ofList]
  rw [ofShort, finding, line, line, Severity.ofWord]
  simp only [named]
  congr 1
  by_cases info : p.remark.severity = "info".toList
  · rw [info]
    rfl
  · rw [if_neg info, if_neg info]

variable {line : List Char} {p q : Split}

theorem file_of_finding (same : p.finding = q.finding) : p.file = q.file :=
  String.ofList_injective (congrArg Finding.file same)

theorem Fits.remark? (h : p.Fits line) :
    Finding.remark? (p.remark.text p.blank) =
      some { p.remark with message := p.remark.message.dropWhile Text.isBlank } :=
  remark?_text h.remark

/-- Two ways to read a line with files of one length differ in the blank run and the message only. -/
theorem Fits.alike (hp : p.Fits line) (hq : q.Fits line) (same : p.file.length = q.file.length) :
    p.file = q.file ∧ p.remark.coordinates = q.remark.coordinates ∧ p.remark.severity = q.remark.severity ∧
      p.remark.code = q.remark.code ∧ p.blank ++ p.remark.message = q.blank ++ q.remark.message := by
  obtain ⟨file, rest⟩ := List.append_inj (hp.text.symm.trans hq.text) same
  have read := hp.remark?
  rw [rest, hq.remark?] at read
  injection read with read
  injection read with c s k
  refine ⟨file, c.symm, s.symm, k.symm, ?_⟩
  rw [Remark.text, Remark.text, c, s, k] at rest
  simpa using rest

theorem Fits.line_ne_nil (h : p.Fits line) : line ≠ [] := by
  rw [h.text, Split.text]
  simp [h.named]

/-- What stands in front of a line may be part of its file. -/
theorem Fits.prepend (h : p.Fits line) {front : List Char} (single : '\n' ∉ front) :
    Fits { p with file := front ++ p.file } (front ++ line) := by
  refine ⟨?_, ?_, ?_, h.remark⟩
  · rw [h.text, Split.text, Split.text, List.append_assoc]
  · simp [h.named]
  · simp [single, h.single]

/-- What stands behind a line may be part of its message. -/
theorem Fits.append (h : p.Fits line) {tail : List Char} (single : '\n' ∉ tail) :
    Fits { p with remark := { p.remark with message := p.remark.message ++ tail } } (line ++ tail) := by
  refine ⟨?_, h.named, h.single, h.remark.coordinates, h.remark.severity, h.remark.code, h.remark.blank, ?_⟩
  · rw [h.text, Split.text, Split.text, Remark.text, Remark.text]
    simp
  · simp [single, h.remark.message]

theorem Chosen.unique (hp : p.Chosen line) (hq : q.Chosen line) : p = q := by
  have same : p.file.length = q.file.length ∧ p.blank.length = q.blank.length := by
    have := hp.longest q hq.toFits
    have := hq.longest p hp.toFits
    omega
  obtain ⟨file, c, s, k, rest⟩ := hp.toFits.alike hq.toFits same.1
  obtain ⟨blank, message⟩ := List.append_inj rest same.2
  obtain ⟨_, ⟨_, _, _, _⟩, _⟩ := p
  obtain ⟨_, ⟨_, _, _, _⟩, _⟩ := q
  cases file; cases c; cases s; cases k; cases blank; cases message
  rfl

theorem cut?_eq_none (h : cut? line = none) : ¬ p.Fits line := by
  intro fits
  have := cutFrom?_eq_none h fits.text fits.single fits.named
  rw [fits.remark?] at this
  cases this

theorem cut?_eq_some {file : List Char} {r : Remark} (h : cut? line = some (file, r)) :
    ∃ p : Split, p.Chosen line ∧ p.file = file ∧ p.remark = r := by
  obtain ⟨file, rest, rfl, single, rfl, named, read, last⟩ := cutFrom?_eq_some h
  obtain ⟨blank, inFormat, rfl, trimmed⟩ := remark?_eq_some read
  have fits : Fits ⟨file, r, blank⟩ (file ++ r.text blank) := ⟨rfl, named, single, inFormat⟩
  refine ⟨⟨file, r, blank⟩, ⟨fits, fun q hq => ?_⟩, rfl, rfl⟩
  have bound : q.file.length ≤ file.length := by
    refine Nat.le_of_not_lt fun longer => ?_
    have none := last q.file (q.remark.text q.blank) hq.text hq.single longer
    rw [hq.remark?] at none
    cases none
  rcases Nat.lt_or_eq_of_le bound with shorter | same
  · exact .inl shorter
  · obtain ⟨-, -, -, -, rest⟩ := hq.alike fits same
    -- the message has no blank at its head, so it is a tail of the other message
    have tail : q.remark.message.dropWhile Text.isBlank = r.message := by
      rw [← List.dropWhile_append_of_pos hq.remark.blank, rest, List.dropWhile_append_of_pos inFormat.blank, trimmed]
    have lengths := congrArg List.length rest
    have shorter := List.length_dropWhile_le Text.isBlank q.remark.message
    rw [tail] at shorter
    simp only [List.length_append] at lengths
    exact .inr ⟨same, by dsimp only at lengths ⊢; omega⟩

/-- A line is cut as the chosen split says, and not at all where none fits. -/
theorem cut?_cases (line : List Char) :
    (∃ p : Split, p.Chosen line ∧ cut? line = some (p.file, p.remark)) ∨
      (¬ ∃ p : Split, p.Fits line) ∧ cut? line = none := by
  cases found : cut? line with
  | none => exact .inr ⟨fun ⟨_, h⟩ => cut?_eq_none found h, rfl⟩
  | some pieces =>
    obtain ⟨p, chosen, file, r⟩ := cut?_eq_some found
    exact .inl ⟨p, chosen, by rw [file, r]⟩

theorem existsUnique_chosen : (∃ p : Split, p.Fits line) ↔ ∃! p : Split, p.Chosen line := by
  refine ⟨fun fits => ?_, fun ⟨p, chosen, _⟩ => ⟨p, chosen.toFits⟩⟩
  rcases cut?_cases line with ⟨p, chosen, -⟩ | ⟨no, -⟩
  · exact ⟨p, chosen, fun q hq => hq.unique chosen⟩
  · exact absurd fits no

end Split

/-- **The lines that are findings.** A line, without the line ends behind it, has one split that is
chosen if it has any, and none otherwise. It has no finding if it has no split, and else that of the
chosen one, unless a number there is too long to be read. -/
theorem parse_exact (line : String) :
    let s := Text.trimEndWhile Text.isLineEnd line.toList
    (∀ f : Finding, parse line = .ok (some f) ↔ ∃ p : Split, p.Chosen s ∧ p.remark.coordinates.Short ∧ p.finding = f) ∧
    (parse line = .ok none ↔ ¬ ∃ p : Split, p.Fits s) ∧
    ((∃ e, parse line = .error e) ↔ ∃ p : Split, p.Chosen s ∧ ¬ p.remark.coordinates.Short) ∧
    ((∃ p : Split, p.Fits s) ↔ ∃! p : Split, p.Chosen s) := by
  intro s
  rcases Split.cut?_cases s with ⟨p, chosen, cut⟩ | ⟨no, cut⟩
  · have fits : ∃ p : Split, p.Fits s := ⟨p, chosen.toFits⟩
    have only {P : Split → Prop} : (∃ q : Split, q.Chosen s ∧ P q) ↔ P p := by
      constructor
      · rintro ⟨q, h, hq⟩
        exact h.unique chosen ▸ hq
      · exact fun h => ⟨p, chosen, h⟩
    have read : parse line = (ofRemark p.file p.remark).map some := by rw [parse, ofLine?, cut]
    rw [read]
    simp only [only]
    rcases ofRemark_cases p.file p.remark with ⟨short, result⟩ | ⟨long, e, result⟩
    · rw [result, p.ofShort_eq]
      refine ⟨fun f => ⟨?_, ?_⟩, iff_of_false ?_ (not_not_intro fits), iff_of_false ?_ (not_not_intro short),
        Split.existsUnique_chosen⟩
      · rintro ⟨⟩
        exact ⟨short, rfl⟩
      · rintro ⟨-, rfl⟩
        rfl
      · rintro ⟨⟩
      · rintro ⟨-, ⟨⟩⟩
    · rw [result]
      refine ⟨fun f => iff_of_false ?_ fun h => long h.1, iff_of_false ?_ (not_not_intro fits),
        iff_of_true ⟨e, rfl⟩ long, Split.existsUnique_chosen⟩
      · rintro ⟨⟩
      · rintro ⟨⟩
  · have read : parse line = .ok none := by rw [parse, ofLine?, cut]
    have unchosen {P : Split → Prop} : ¬ ∃ p : Split, p.Chosen s ∧ P p := by
      rintro ⟨p, h, -⟩
      exact no ⟨p, h.toFits⟩
    rw [read]
    refine ⟨fun f => iff_of_false ?_ unchosen, iff_of_true rfl no, iff_of_false ?_ unchosen, Split.existsUnique_chosen⟩
    · rintro ⟨⟩
    · rintro ⟨-, ⟨⟩⟩

/-- What looks like a position may belong to the file, and only words in small letters name a severity. -/
example : parse "a(1,2,3,4): info: [ x ] b(0,5,6,7): Info: [ y z ]  m\r" =
    .ok (some ⟨"a(1,2,3,4): info: [ x ] b", 0, 5, 5, 7, .error, "y z", "m"⟩) := by
  decide +kernel

end LintServer.Finding
