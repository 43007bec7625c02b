import LintServer.Proofs.Finding.Joined
import LintServer.Tool

/-!
# The two streams of the tool

What the tool writes to its error stream is read behind what it writes to the other
one, and nothing stands between them: the last line of one and the first line of the
other are a single line. All other lines are read as they are, so the findings of
the two together are those of each exactly if that line has those of its two parts
(`streams_apart_iff`).
-/

namespace LintServer

open Text.Utf8 (decode)

namespace Report

open Finding (Split)

/-! ## Two lines that became one -/

/-- The line is read as this finding. -/
def IsFinding (line : List Char) (f : Finding) : Prop :=
  ∃ p : Split, p.Chosen (Text.trimEndWhile Text.isLineEnd line) ∧ p.finding = f

theorem found_eq_singleton_iff {line : List Char} {f : Finding} : found line = [f] ↔ IsFinding line f := by
  rcases found_cases line with ⟨p, chosen, one⟩ | ⟨no, none⟩
  · rw [one, List.singleton_inj]
    refine ⟨fun same => ⟨p, chosen, same⟩, ?_⟩
    rintro ⟨q, other, rfl⟩
    rw [other.unique chosen]
  · rw [none]
    refine iff_of_false (fun h => nomatch h) ?_
    rintro ⟨p, chosen, -⟩
    exact no ⟨p, chosen.toFits⟩

theorem found_eq_nil_iff {line : List Char} :
    found line = [] ↔ ¬ ∃ p : Split, p.Fits (Text.trimEndWhile Text.isLineEnd line) := by
  rcases found_cases line with ⟨p, chosen, one⟩ | ⟨no, none⟩
  · rw [one]
    exact iff_of_false (fun h => nomatch h) (not_not_intro ⟨p, chosen.toFits⟩)
  · exact iff_of_true none no

theorem exists_isFinding_iff {line : List Char} : (∃ f, IsFinding line f) ↔ found line ≠ [] := by
  simp only [← found_eq_singleton_iff]
  rcases found_cases line with ⟨p, -, one⟩ | ⟨-, none⟩
  · simp [one]
  · simp [none]

section
variable {last first : List Char} (single : '\n' ∉ last)
include single

/-- A finding in front of which something stands has a longer file. -/
theorem not_isFinding_of_append (given : last ≠ []) {f : Finding} (h : IsFinding (last ++ first) f) :
    ¬ IsFinding first f := by
  rintro ⟨p, chosen, rfl⟩
  obtain ⟨q, chosen', same⟩ := h
  rw [Text.trimEndWhile_append, if_neg chosen.line_ne_nil] at chosen'
  have longest := chosen'.longest _ (chosen.toFits.prepend single)
  have length := List.length_pos_iff.2 given
  simp only [Split.file_of_finding same, List.length_append] at longest
  omega

theorem found_append_ne_nil (single' : '\n' ∉ first) (h : found last ≠ [] ∨ found first ≠ []) :
    found (last ++ first) ≠ [] := by
  simp only [ne_eq, found_eq_nil_iff, not_not] at h ⊢
  rw [Text.trimEndWhile_append]
  rcases h with ⟨p, fits⟩ | ⟨p, fits⟩
  · by_cases empty : Text.trimEndWhile Text.isLineEnd first = []
    · rw [if_pos empty]
      exact ⟨p, fits⟩
    · obtain ⟨tail, -, parts⟩ := Text.exists_trimEndWhile Text.isLineEnd last
      obtain ⟨tail', -, parts'⟩ := Text.exists_trimEndWhile Text.isLineEnd first
      rw [parts, List.mem_append, not_or] at single
      rw [parts', List.mem_append, not_or] at single'
      have clean : '\n' ∉ tail ++ Text.trimEndWhile Text.isLineEnd first := by simp [single, single']
      rw [if_neg empty, parts, List.append_assoc]
      exact ⟨_, fits.append clean⟩
  · rw [if_neg fits.line_ne_nil]
    exact ⟨_, fits.prepend single⟩

theorem found_append_iff (single' : '\n' ∉ first) :
    found (last ++ first) = found last ++ found first ↔
      last = [] ∨ (¬ ∃ f, IsFinding (last ++ first) f) ∨
        (¬ ∃ f, IsFinding first f) ∧ ∃ f, IsFinding last f ∧ IsFinding (last ++ first) f := by
  constructor
  · intro same
    by_cases empty : last = []
    · exact .inl empty
    by_cases other : ∃ f, IsFinding (last ++ first) f
    · obtain ⟨f, hf⟩ := other
      rw [found_eq_singleton_iff.2 hf] at same
      rcases List.singleton_eq_append_iff.1 same with ⟨-, one⟩ | ⟨one, none⟩
      · exact absurd (found_eq_singleton_iff.1 one) (not_isFinding_of_append single empty hf)
      · refine .inr (.inr ⟨?_, f, found_eq_singleton_iff.1 one, hf⟩)
        rw [exists_isFinding_iff, none]
        simp
    · exact .inr (.inl other)
  · rintro (rfl | none | ⟨none, f, one, whole⟩)
    · have empty : found [] = [] := by decide
      rw [empty, List.nil_append, List.nil_append]
    · rw [exists_isFinding_iff, not_not] at none
      have parts := mt (found_append_ne_nil single single') (not_not_intro none)
      rw [not_or, not_not, not_not] at parts
      rw [none, parts.1, parts.2]
      rfl
    · rw [exists_isFinding_iff, not_not] at none
      rw [found_eq_singleton_iff.2 whole, found_eq_singleton_iff.2 one, none]
      rfl

end

/-! ## Lines at the ends -/

def firstLine (text : List Char) : List Char :=
  (text.splitOn '\n').head (List.splitOn_ne_nil '\n' text)

def lastLine (text : List Char) : List Char :=
  (text.splitOn '\n').getLast (List.splitOn_ne_nil '\n' text)

theorem lines_firstLine (text : List Char) : text.splitOn '\n' = firstLine text :: (text.splitOn '\n').tail :=
  (List.cons_head_tail _).symm

theorem lines_lastLine (text : List Char) : text.splitOn '\n' = (text.splitOn '\n').dropLast ++ [lastLine text] :=
  (List.dropLast_append_getLast _).symm

theorem notMem_of_mem_lines {text line : List Char} (h : line ∈ text.splitOn '\n') : '\n' ∉ line := by
  rw [← Text.cut_eq_splitOn] at h
  exact Text.notMem_of_mem_cut h

theorem notMem_firstLine (text : List Char) : '\n' ∉ firstLine text :=
  notMem_of_mem_lines (List.head_mem _)

theorem notMem_lastLine (text : List Char) : '\n' ∉ lastLine text :=
  notMem_of_mem_lines (List.getLast_mem _)

theorem found_append_nil (last : List Char) : found (last ++ []) = found last ++ found [] := by
  rw [List.append_nil, show found [] = [] by decide, List.append_nil]

end Report

namespace Tool

open Report

theorem toList_of_finish {run : ToolRun} {text : String} (h : finish run = .ok text) :
    text.toList = decode run.stdout ++ decode run.stderr := by
  unfold finish at h
  cases waited : run.waitError with
  | some e =>
    rw [waited] at h
    cases h
  | none =>
    rw [waited] at h
    dsimp only at h
    split at h
    · cases h
    · cases h
      rw [String.toList_ofList]

/-- **Findings on two streams.** Where the streams of the tool meet, the last line of its output and the
first line of its complaints are one line, and all other lines have the findings they have. So the
findings of both streams are those of each exactly if the output ends with a line end or is empty, the
line where they meet is no finding, or it is the finding that its part of the output was and its other
part was none. -/
theorem streams_apart_iff {run : ToolRun} {text : String} (returns : finish run = .ok text)
    (legible : Legible text.toList) (legibleOutput : Legible (decode run.stdout))
    (legibleComplaints : Legible (decode run.stderr)) :
    let last := lastLine (decode run.stdout)
    let first := firstLine (decode run.stderr)
    ∃ x y r, ofOutput (decode run.stdout) = .ok x ∧ ofOutput (decode run.stderr) = .ok y ∧ Report.parse text = .ok r ∧
      (∃ u v, x.findings = u ++ found last ∧ y.findings = found first ++ v ∧
        r.findings = u ++ found (last ++ first) ++ v) ∧
      (first = [] → r.findings = x.findings ++ y.findings) ∧
      (r.findings = x.findings ++ y.findings ↔
        last = [] ∨ (¬ ∃ f, IsFinding (last ++ first) f) ∨
          (¬ ∃ f, IsFinding first f) ∧ ∃ f, IsFinding last f ∧ IsFinding (last ++ first) f) := by
  intro last first
  obtain ⟨before, output⟩ : ∃ before, (decode run.stdout).splitOn '\n' = before ++ [last] := ⟨_, lines_lastLine _⟩
  obtain ⟨after, complaints⟩ : ∃ after, (decode run.stderr).splitOn '\n' = first :: after := ⟨_, lines_firstLine _⟩
  have whole : text.toList.splitOn '\n' = before ++ (last ++ first) :: after := by
    rw [toList_of_finish returns, Text.splitOn_append output complaints]
  have joint := found_append_iff (notMem_lastLine (decode run.stdout)) (notMem_firstLine (decode run.stderr))
  have apart : before.flatMap found ++ found (last ++ first) ++ after.flatMap found =
      before.flatMap found ++ found last ++ (found first ++ after.flatMap found) ↔
      found (last ++ first) = found last ++ found first := by
    rw [← List.append_assoc, List.append_left_inj, List.append_assoc, List.append_right_inj]
  refine ⟨_, _, _, ofOutput_of_legible legibleOutput, ofOutput_of_legible legibleComplaints,
    ofOutput_of_legible legible, ?_⟩
  simp only [output, complaints, whole, List.flatMap_append, List.flatMap_cons, List.flatMap_nil, List.append_nil]
  rw [← List.append_assoc, apart]
  refine ⟨⟨_, _, rfl, rfl, rfl⟩, fun empty => ?_, joint⟩
  rw [empty]
  exact found_append_nil last

/-- The streams meet within a line, which is a finding although its parts are none. -/
theorem streams_apart_iff_within_line :
    let run : ToolRun :=
      { stdout := Text.Utf8.encode "a(1,0,1,1): error: [ x ] m\nb(2,0".toList
        stderr := Text.Utf8.encode ",2,4): info: [ y ]  n\n".toList
        code := 1 }
    let text := "a(1,0,1,1): error: [ x ] m\nb(2,0,2,4): info: [ y ]  n\n"
    finish run = .ok text ∧ Legible text.toList ∧ Legible (decode run.stdout) ∧ Legible (decode run.stderr) ∧
      ∃ x y r, ofOutput (decode run.stdout) = .ok x ∧ ofOutput (decode run.stderr) = .ok y ∧
        Report.parse text = .ok r ∧ r.findings ≠ x.findings ++ y.findings := by
  intro run text
  have returns : finish run = .ok text := by decide +kernel
  have legible : Legible text.toList ∧ Legible (decode run.stdout) ∧ Legible (decode run.stderr) := by decide +kernel
  obtain ⟨x, y, r, hx, hy, hr, -, -, apart⟩ := streams_apart_iff returns legible.1 legible.2.1 legible.2.2
  refine ⟨returns, legible.1, legible.2.1, legible.2.2, x, y, r, hx, hy, hr, ?_⟩
  rw [ne_eq, apart]
  rintro (empty | none | ⟨-, f, one, -⟩)
  · exact absurd empty (by decide +kernel)
  · rw [exists_isFinding_iff] at none
    exact none (by decide +kernel)
  · have alone : found (lastLine (decode run.stdout)) = [] := by decide +kernel
    rw [← found_eq_singleton_iff, alone] at one
    cases one

/-- What stands first among the complaints goes on with the message of an output without a line end. -/
theorem complaint_in_message :
    ¬ ∀ (run : ToolRun) (text : String) (x y r : Report), finish run = .ok text → Legible text.toList →
      Legible (decode run.stdout) → Legible (decode run.stderr) → ofOutput (decode run.stdout) = .ok x →
      ofOutput (decode run.stderr) = .ok y → Report.parse text = .ok r → r.findings = x.findings ++ y.findings := by
  intro all
  have apart := all
    { stdout := Text.Utf8.encode "a(1,0,1,1): error: [ x ] m".toList, stderr := Text.Utf8.encode "oops".toList }
    "a(1,0,1,1): error: [ x ] moops" ⟨[⟨"a", 0, 0, 0, 1, .error, "x", "m"⟩], 0⟩ ⟨[], 1⟩
    ⟨[⟨"a", 0, 0, 0, 1, .error, "x", "moops"⟩], 0⟩ (by decide +kernel) (by decide +kernel) (by decide +kernel)
    (by decide +kernel) (by decide +kernel) (by decide +kernel) (by decide +kernel)
  exact absurd apart (by decide)

end Tool

end LintServer
