import LintServer.Proofs.Finding.Splits
import LintServer.Proofs.Text.Ascii

/-!
# Outputs joined line by line

Every line of an output is read on its own: it has one finding or none, and is
counted as skipped where it has none and is not blank. So the report of two
outputs on lines of their own is the one report behind the other, and no line is
lost or counted twice (`joined_output`), whatever octets the lines are made of.
-/

namespace LintServer.Report

open Finding (Split)
open Text.Utf8 (decode)

/-! ## What a line adds to a report -/

/-- The numbers of a line that is a finding can be read. -/
def Readable (line : List Char) : Prop :=
  ∀ p : Split, p.Chosen (Text.trimEndWhile Text.isLineEnd line) → p.remark.coordinates.Short

def Legible (text : List Char) : Prop :=
  ∀ line ∈ text.splitOn '\n', Readable line

theorem readable_iff (line : List Char) : Readable line ↔
    ∀ pieces ∈ Finding.cut? (Text.trimEndWhile Text.isLineEnd line), pieces.2.coordinates.Short := by
  rcases Split.cut?_cases (Text.trimEndWhile Text.isLineEnd line) with ⟨p, chosen, cut⟩ | ⟨no, cut⟩
  · rw [cut]
    refine ⟨?_, fun short q other => ?_⟩
    · rintro readable _ ⟨⟩
      exact readable p chosen
    · rw [other.unique chosen]
      exact short _ rfl
  · rw [cut]
    exact iff_of_true (fun p chosen => absurd ⟨p, chosen.toFits⟩ no) nofun

instance (c : Finding.Coordinates) : Decidable c.Short :=
  inferInstanceAs (Decidable (∀ ds ∈ [c.startLine, c.startColumn, c.endLine, c.endColumn], _ ≤ _))

instance (line : List Char) : Decidable (Readable line) :=
  decidable_of_iff _ (readable_iff line).symm

instance (text : List Char) : Decidable (Legible text) :=
  inferInstanceAs (Decidable (∀ line ∈ text.splitOn '\n', Readable line))

def hasText (line : List Char) : Bool :=
  line.any fun c => !Text.isBlank c

/-- The finding of a line, if it is one and its numbers can be read. -/
def found (line : List Char) : List Finding :=
  ((Finding.cut? (Text.trimEndWhile Text.isLineEnd line)).map fun pieces => Finding.ofShort pieces.1 pieces.2).toList

def isSkipped (line : List Char) : Bool :=
  (found line).isEmpty && hasText line

theorem found_cases (line : List Char) :
    (∃ p : Split, p.Chosen (Text.trimEndWhile Text.isLineEnd line) ∧ found line = [p.finding]) ∨
      (¬ ∃ p : Split, p.Fits (Text.trimEndWhile Text.isLineEnd line)) ∧ found line = [] := by
  unfold found
  rcases Split.cut?_cases (Text.trimEndWhile Text.isLineEnd line) with ⟨p, chosen, cut⟩ | ⟨no, cut⟩
  · exact .inl ⟨p, chosen, by simp [cut, p.ofShort_eq]⟩
  · exact .inr ⟨no, by simp [cut]⟩

theorem hasText_of_found {line : List Char} (h : found line ≠ []) : hasText line = true := by
  rcases found_cases line with ⟨p, chosen, -⟩ | ⟨-, none⟩
  · obtain ⟨tail, -, parts⟩ := Text.exists_trimEndWhile Text.isLineEnd line
    have bracket : '(' ∈ line := by
      rw [parts, chosen.text]
      simp [Split.text, Finding.Remark.text, Finding.Coordinates.text]
    exact List.any_eq_true.2 ⟨'(', bracket, by decide⟩
  · exact absurd none h

theorem length_found_add (line : List Char) :
    (found line).length + (if isSkipped line then 1 else 0) = if hasText line then 1 else 0 := by
  by_cases h : found line = []
  · simp [isSkipped, h]
  · rcases found_cases line with ⟨p, -, one⟩ | ⟨-, none⟩
    · simp [isSkipped, one, hasText_of_found h]
    · exact absurd none h

theorem all_isBlank_trimmed (line : List Char) :
    (Text.trimEndWhile (· == '\r') line).all Text.isBlank = !hasText line := by
  obtain ⟨tail, all, parts⟩ := Text.exists_trimEndWhile (· == '\r') line
  have dark : tail.all Text.isBlank = true := by
    refine List.all_eq_true.2 fun c hc => ?_
    rw [beq_iff_eq.1 (List.all_eq_true.1 all c hc)]
    decide
  have whole : line.all Text.isBlank = (Text.trimEndWhile (· == '\r') line).all Text.isBlank := by
    conv_lhs => rw [parts, List.all_append, dark, Bool.and_true]
  rw [← whole, hasText, List.all_eq_not_any_not]

theorem trimmed_returns (line : List Char) :
    Text.trimEndWhile Text.isLineEnd (Text.trimEndWhile (· == '\r') line) = Text.trimEndWhile Text.isLineEnd line :=
  Text.trimEndWhile_trimEndWhile (fun c h => by rw [Text.isLineEnd, h, Bool.true_or]) line

theorem ofLine_of_readable {line : List Char} (h : Readable line) :
    ofLine line = .ok ⟨found line, if isSkipped line then 1 else 0⟩ := by
  unfold ofLine Finding.ofLine? isSkipped found
  simp only [trimmed_returns, all_isBlank_trimmed]
  rcases Split.cut?_cases (Text.trimEndWhile Text.isLineEnd line) with ⟨p, chosen, cut⟩ | ⟨-, cut⟩
  · rcases Finding.ofRemark_cases p.file p.remark with ⟨-, read⟩ | ⟨long, -⟩
    · simp [cut, read, Except.map]
    · exact absurd (h p chosen) long
  · cases hasText line <;> simp [cut]

theorem ofLines_of_readable {lines : List (List Char)} (h : ∀ line ∈ lines, Readable line) :
    ofLines lines = .ok ⟨lines.flatMap found, lines.countP isSkipped⟩ := by
  induction lines with
  | nil => rfl
  | cons line lines ih =>
    obtain ⟨here, later⟩ := List.forall_mem_cons.1 h
    rw [ofLines, ofLine_of_readable here, ih later]
    simp [Except.map, append_eq, List.countP_cons, Nat.add_comm]

theorem ofOutput_of_legible {text : List Char} (h : Legible text) :
    ofOutput text = .ok ⟨(text.splitOn '\n').flatMap found, (text.splitOn '\n').countP isSkipped⟩ := by
  rw [ofOutput, Text.cut_eq_splitOn, ofLines_of_readable h]

/-- Every line with text in it is a finding or is skipped. -/
theorem length_flatMap_found_add (lines : List (List Char)) :
    (lines.flatMap found).length + lines.countP isSkipped = lines.countP hasText := by
  induction lines with
  | nil => rfl
  | cons line lines ih =>
    have here := length_found_add line
    simp only [List.flatMap_cons, List.length_append, List.countP_cons]
    omega

/-! ## Line ends -/

/-- A return at the end of a line changes nothing. -/
theorem trimmed_concat (line : List Char) :
    Text.trimEndWhile Text.isLineEnd (line ++ ['\r']) = Text.trimEndWhile Text.isLineEnd line :=
  Text.trimEndWhile_append_of_all (by decide) line

theorem found_concat (line : List Char) : found (line ++ ['\r']) = found line := by
  rw [found, found, trimmed_concat]

theorem isSkipped_concat (line : List Char) : isSkipped (line ++ ['\r']) = isSkipped line := by
  have dark : Text.isBlank '\r' = true := by decide
  rw [isSkipped, isSkipped, found_concat, hasText, hasText]
  simp [dark]

theorem readable_concat (line : List Char) : Readable (line ++ ['\r']) ↔ Readable line := by
  rw [Readable, Readable, trimmed_concat]

theorem lines_joined {a b sep : List UInt8} (ended : sep = [10] ∨ sep = [13, 10]) :
    ∃ before last ret, (ret = [] ∨ ret = ['\r']) ∧ (decode a).splitOn '\n' = before ++ [last] ∧
      (decode (a ++ sep ++ b)).splitOn '\n' = before ++ [last ++ ret] ++ (decode b).splitOn '\n' := by
  obtain ⟨ret, hr, text⟩ : ∃ ret, (ret = [] ∨ ret = ['\r']) ∧
      decode (a ++ sep ++ b) = decode a ++ ret ++ '\n' :: decode b := by
    rcases ended with rfl | rfl
    · exact ⟨[], .inl rfl, by simp [Text.Utf8.decode_append_of_lt (b := 10) (by decide)]⟩
    · refine ⟨['\r'], .inr rfl, ?_⟩
      simp [Text.Utf8.decode_append_of_lt (b := 13) (by decide), Text.Utf8.decode_cons_of_lt (b := 10) (by decide)]
  rcases List.eq_nil_or_concat ((decode a).splitOn '\n') with none | ⟨before, last, lines⟩
  · exact absurd none (List.splitOn_ne_nil _ _)
  · rw [List.concat_eq_append] at lines
    have single : ret.splitOn '\n' = [ret] := by
      refine List.splitOn_eq_singleton ?_
      rcases hr with rfl | rfl <;> decide
    refine ⟨before, last, ret, hr, lines, ?_⟩
    rw [text, List.splitOn_append_cons_self, Text.splitOn_append lines single]

/-- **Joined outputs.** The report of two outputs with a line end between them is the one report behind the
other. The lines of an output are its octets between line feeds, each decoded on its own, and the
findings and the skipped lines of any output are together as many as its lines that are not blank. -/
theorem joined_output {a b sep : List UInt8} (ended : sep = [10] ∨ sep = [13, 10])
    (legible : Legible (decode (a ++ sep ++ b))) :
    (∃ x y, ofOutput (decode a) = .ok x ∧ ofOutput (decode b) = .ok y ∧
      ofOutput (decode (a ++ sep ++ b)) = .ok ⟨x.findings ++ y.findings, x.skipped + y.skipped⟩) ∧
    (decode (a ++ sep ++ b)).splitOn '\n' = ((a ++ sep ++ b).splitOn 10).map decode ∧
    ∀ text, Legible text → ∃ r, ofOutput text = .ok r ∧
      r.findings.length + r.skipped = (text.splitOn '\n').countP hasText := by
  refine ⟨?_, Text.Utf8.splitOn_decode _, fun text h => ⟨_, ofOutput_of_legible h, length_flatMap_found_add _⟩⟩
  obtain ⟨before, last, ret, hr, lines, joined⟩ := lines_joined (a := a) (b := b) ended
  have same : found (last ++ ret) = found last ∧ isSkipped (last ++ ret) = isSkipped last ∧
      (Readable (last ++ ret) ↔ Readable last) := by
    rcases hr with rfl | rfl
    · simp
    · exact ⟨found_concat last, isSkipped_concat last, readable_concat last⟩
  have whole := ofOutput_of_legible legible
  unfold Legible at legible
  rw [joined] at legible whole
  simp only [List.forall_mem_append, List.forall_mem_singleton, same.2.2] at legible
  have first : Legible (decode a) := by
    unfold Legible
    rw [lines, List.forall_mem_append, List.forall_mem_singleton]
    exact legible.1
  refine ⟨_, _, ofOutput_of_legible first, ofOutput_of_legible legible.2, ?_⟩
  rw [whole, lines]
  simp only [List.flatMap_append, List.flatMap_singleton, List.countP_append, List.countP_singleton, same.1, same.2.1]

/-- The first output ends within a character, and the second begins with the octet that it lacks: each has a mark
for its part, and the line that is no finding is counted. -/
theorem joined_output_within_character :
    let a := Text.Utf8.encode "a(1,0,1,1): error: [ x ] m".toList ++ [0xE2, 0x82]
    let b := 0xAC :: Text.Utf8.encode "b(1,0,1,1): info: [ y ] n\n \r\noops".toList
    let first : Finding := ⟨"a", 0, 0, 0, 1, .error, "x", "m\uFFFD"⟩
    let second : Finding := ⟨"\uFFFDb", 0, 0, 0, 1, .information, "y", "n"⟩
    Legible (decode (a ++ [13, 10] ++ b)) ∧ ofOutput (decode a) = .ok ⟨[first], 0⟩ ∧
      ofOutput (decode b) = .ok ⟨[second], 1⟩ ∧
      ofOutput (decode (a ++ [13, 10] ++ b)) = .ok ⟨[first, second], 1⟩ ∧
      ((decode (a ++ [13, 10] ++ b)).splitOn '\n').countP hasText = 3 := by
  intro a b first second
  have legible : Legible (decode (a ++ [13, 10] ++ b)) := by decide +kernel
  have before : ofOutput (decode a) = .ok ⟨[first], 0⟩ := by decide +kernel
  have behind : ofOutput (decode b) = .ok ⟨[second], 1⟩ := by decide +kernel
  obtain ⟨⟨x, y, hx, hy, whole⟩, -, counted⟩ := joined_output (.inr rfl) legible
  cases before.symm.trans hx
  cases behind.symm.trans hy
  obtain ⟨r, read, count⟩ := counted _ legible
  cases whole.symm.trans read
  exact ⟨legible, before, behind, whole, count.symm⟩

end LintServer.Report
