import LintServer.Lint.Linter
import LintServer.Proofs.Text.Cut
import Mathlib.Data.List.Basic

/-!
# Reports line by line

A report is read line by line, and so are its diagnostics. A line behind an
output that has diagnostics leaves them as they are and adds at most one, unless
it is a finding at a place that cannot be shown (`appended_iff`): then the whole
output has none.
-/

namespace LintServer

/-! ## Lines of a report -/

namespace Report

theorem append_eq (a b : Report) : a ++ b = ⟨a.findings ++ b.findings, a.skipped + b.skipped⟩ := rfl

theorem empty_append (a : Report) : empty ++ a = a := by
  rw [append_eq]
  simp [empty]

theorem append_assoc (a b c : Report) : a ++ b ++ c = a ++ (b ++ c) := by
  simp only [append_eq, List.append_assoc, Nat.add_assoc]

theorem ofLines_append (xs ys : List (List Char)) :
    ofLines (xs ++ ys) = (ofLines xs).bind fun first => (ofLines ys).map (first ++ ·) := by
  induction xs with
  | nil =>
    simp only [List.nil_append, ofLines, Except.bind, empty_append]
    cases ofLines ys <;> rfl
  | cons x xs ih =>
    rw [List.cons_append, ofLines, ofLines]
    cases ofLine x with
    | error e => rfl
    | ok first =>
      dsimp only
      rw [ih]
      cases ofLines xs with
      | error e => rfl
      | ok second =>
        cases ofLines ys with
        | error e => rfl
        | ok third => exact congrArg Except.ok (append_assoc first second third).symm

theorem ofOutput_append (a b : List Char) :
    ofOutput (a ++ '\n' :: b) = (ofOutput a).bind fun first => (ofOutput b).map (first ++ ·) := by
  rw [ofOutput, Text.cut_append, ofLines_append]
  rfl

theorem ofOutput_line {cs : List Char} (h : '\n' ∉ cs) : ofOutput cs = ofLine cs := by
  rw [ofOutput, Text.cut_of_notMem h, ofLines]
  cases ofLine cs with
  | error e => rfl
  | ok first =>
    show Except.ok (first ++ empty) = Except.ok first
    rw [append_eq]
    simp [empty]

end Report

theorem Diagnostic.ofFindings_append (xs ys : List Finding) :
    ofFindings (xs ++ ys) = (ofFindings xs).bind fun first => (ofFindings ys).map (first ++ ·) := by
  induction xs with
  | nil =>
    simp only [List.nil_append, ofFindings, Except.bind]
    cases ofFindings ys <;> rfl
  | cons x xs ih =>
    rw [List.cons_append, ofFindings, ofFindings]
    cases ofFinding x with
    | error e => rfl
    | ok first =>
      dsimp only
      rw [ih]
      cases ofFindings xs with
      | error e => rfl
      | ok second => cases ofFindings ys <;> rfl

/-! ## Places that can be shown -/

namespace Finding.Coordinates

/-- All four numbers have few enough digits to be read. -/
def Short (c : Coordinates) : Prop :=
  ∀ ds ∈ [c.startLine, c.startColumn, c.endLine, c.endColumn], ds.length ≤ Text.NumeralTooLong.limit

/-- A position that can be read and, with its lines counted from zero, lies in the editor's range. -/
structure Showable (c : Coordinates) : Prop where
  short : c.Short
  startLine : Text.digitsValue c.startLine - 1 ≤ positionLimit
  startColumn : Text.digitsValue c.startColumn ≤ positionLimit
  endLine : Text.digitsValue c.endLine - 1 ≤ positionLimit
  endColumn : Text.digitsValue c.endColumn ≤ positionLimit

end Finding.Coordinates

theorem checkAxis_ok_iff (axis : Axis) (n : Nat) : (∃ m, checkAxis axis n = .ok m) ↔ n ≤ positionLimit := by
  unfold checkAxis
  split <;> simp_all

theorem Position.make_ok_iff (line character : Nat) :
    (∃ p, Position.make line character = .ok p) ↔ line ≤ positionLimit ∧ character ≤ positionLimit := by
  rw [← checkAxis_ok_iff .line, ← checkAxis_ok_iff .character]
  simp only [Position.make, bind, Except.bind, pure, Except.pure]
  cases checkAxis .line line <;> cases checkAxis .character character <;> simp

theorem Diagnostic.ofFinding_ok_iff (f : Finding) :
    (∃ d, ofFinding f = .ok d) ↔
      (∃ p, Position.make f.startLine f.startColumn = .ok p) ∧ ∃ p, Position.make f.endLine f.endColumn = .ok p := by
  simp only [ofFinding, bind, Except.bind, pure, Except.pure]
  cases Position.make f.startLine f.startColumn <;> cases Position.make f.endLine f.endColumn <;> simp

namespace Finding

/-- The finding of a remark whose numbers can be read. -/
def ofShort (file : List Char) (r : Remark) : Finding where
  file := String.ofList file
  startLine := ((Text.digitsValue r.coordinates.startLine - 1 : Nat) : Int)
  startColumn := Text.digitsValue r.coordinates.startColumn
  endLine := ((Text.digitsValue r.coordinates.endLine - 1 : Nat) : Int)
  endColumn := Text.digitsValue r.coordinates.endColumn
  severity := .ofWord (String.ofList r.severity)
  code := String.ofList r.code
  message := String.ofList r.message

theorem ofRemark_cases (file : List Char) (r : Remark) :
    r.coordinates.Short ∧ ofRemark file r = .ok (ofShort file r) ∨
      ¬ r.coordinates.Short ∧ ∃ e, ofRemark file r = .error e := by
  unfold ofRemark Coordinates.Short
  simp only [bind, Except.bind, pure, Except.pure, List.forall_mem_cons, Text.readNumeral]
  by_cases a : r.coordinates.startLine.length ≤ Text.NumeralTooLong.limit
  · by_cases b : r.coordinates.startColumn.length ≤ Text.NumeralTooLong.limit
    · by_cases c : r.coordinates.endLine.length ≤ Text.NumeralTooLong.limit
      · by_cases d : r.coordinates.endColumn.length ≤ Text.NumeralTooLong.limit
        · simp [a, b, c, d, ofShort]
        · simp [a, b, c, d]
      · simp [a, b, c]
    · simp [a, b]
  · simp [a]

end Finding

namespace Lint.Linter

/-- The diagnostic of a remark on a file. -/
def diagnosticOf (file : List Char) (r : Finding.Remark) : Except Fault Diagnostic :=
  match Finding.ofRemark file r with
  | .error e => .error (.tooLong e)
  | .ok f => (Diagnostic.ofFinding f).mapError .outOfRange

theorem diagnosticOf_ok_iff (file : List Char) (r : Finding.Remark) :
    (∃ d, diagnosticOf file r = .ok d) ↔ r.coordinates.Showable := by
  unfold diagnosticOf
  rcases Finding.ofRemark_cases file r with ⟨short, found⟩ | ⟨long, e, found⟩
  · rw [found]
    have shown : (∃ d, (Diagnostic.ofFinding (Finding.ofShort file r)).mapError Fault.outOfRange = .ok d) ↔
        ∃ d, Diagnostic.ofFinding (Finding.ofShort file r) = .ok d := by
      cases Diagnostic.ofFinding (Finding.ofShort file r) <;> simp [Except.mapError]
    refine shown.trans ((Diagnostic.ofFinding_ok_iff _).trans ?_)
    rw [Finding.ofShort, Position.make_ok_iff, Position.make_ok_iff]
    constructor
    · rintro ⟨⟨startLine, startColumn⟩, endLine, endColumn⟩
      exact ⟨short, startLine, startColumn, endLine, endColumn⟩
    · rintro ⟨-, startLine, startColumn, endLine, endColumn⟩
      exact ⟨⟨startLine, startColumn⟩, endLine, endColumn⟩
  · rw [found]
    exact ⟨fun ⟨_, h⟩ => (nomatch h), fun h => absurd h.short long⟩

/-- The diagnostics of a line are none or that of its remark. -/
theorem diagnosticsOf_line {l : String} (single : '\n' ∉ l.toList) :
    diagnosticsOf l =
      match Finding.cut? (Text.trimEndWhile Text.isLineEnd l.toList) with
      | none => .ok []
      | some (file, r) => (diagnosticOf file r).map ([·]) := by
  have returns : ∀ c : Char, (c == '\r') = true → Text.isLineEnd c = true := fun c h => by
    rw [Text.isLineEnd, h, Bool.true_or]
  unfold diagnosticsOf
  rw [Report.parse, Report.ofOutput_line single, Report.ofLine, Finding.ofLine?,
    Text.trimEndWhile_trimEndWhile returns]
  cases Finding.cut? (Text.trimEndWhile Text.isLineEnd l.toList) with
  | none => rfl
  | some pieces =>
    obtain ⟨file, r⟩ := pieces
    dsimp only
    unfold diagnosticOf
    cases Finding.ofRemark file r with
    | error e => rfl
    | ok f =>
      simp only [Except.map, Diagnostic.ofFindings]
      cases Diagnostic.ofFinding f <;> rfl

theorem diagnosticsOf_append {t l : String} {ds : List Diagnostic} (h : diagnosticsOf t = .ok ds) :
    diagnosticsOf (t ++ "\n" ++ l) = (diagnosticsOf l).map (ds ++ ·) := by
  have parts : Report.parse (t ++ "\n" ++ l) =
      (Report.parse t).bind fun first => (Report.parse l).map (first ++ ·) := by
    have joined : (t ++ "\n" ++ l).toList = t.toList ++ '\n' :: l.toList := by
      simp
    rw [Report.parse, joined]
    exact Report.ofOutput_append t.toList l.toList
  unfold diagnosticsOf at h ⊢
  rw [parts]
  cases found : Report.parse t with
  | error e =>
    rw [found] at h
    cases h
  | ok first =>
    rw [found] at h
    dsimp only at h
    cases shown : Diagnostic.ofFindings first.findings with
    | error e =>
      rw [shown] at h
      cases h
    | ok ds' =>
      rw [shown] at h
      cases h
      cases Report.parse l with
      | error e => rfl
      | ok second =>
        simp only [Except.bind, Except.map, Report.append_eq, Diagnostic.ofFindings_append, shown]
        cases Diagnostic.ofFindings second.findings <;> rfl

/-- **A line behind an output** that has diagnostics leaves them as they are and adds at most one,
unless it is a remark at a place that cannot be shown. Then the whole output has no diagnostics. -/
theorem appended_iff {t l : String} {ds : List Diagnostic} (h : diagnosticsOf t = .ok ds)
    (single : '\n' ∉ l.toList) :
    ((∃ more : List Diagnostic, more.length ≤ 1 ∧ diagnosticsOf (t ++ "\n" ++ l) = .ok (ds ++ more)) ↔
      ∀ file r, Finding.cut? (Text.trimEndWhile Text.isLineEnd l.toList) = some (file, r) →
        r.coordinates.Showable) ∧
    ((∃ e, diagnosticsOf (t ++ "\n" ++ l) = .error e) ↔
      ∃ file r, Finding.cut? (Text.trimEndWhile Text.isLineEnd l.toList) = some (file, r) ∧
        ¬ r.coordinates.Showable) := by
  rw [diagnosticsOf_append h, diagnosticsOf_line single]
  cases Finding.cut? (Text.trimEndWhile Text.isLineEnd l.toList) with
  | none =>
    refine ⟨⟨fun _ _ _ e => (nomatch e), fun _ => ⟨[], Nat.zero_le 1, rfl⟩⟩, ⟨fun ⟨_, e⟩ => (nomatch e), ?_⟩⟩
    rintro ⟨_, _, e, -⟩
    cases e
  | some pieces =>
    obtain ⟨file, r⟩ := pieces
    simp only [Option.some.injEq, Prod.mk.injEq]
    have shown := diagnosticOf_ok_iff file r
    cases found : diagnosticOf file r with
    | ok d =>
      have fits : r.coordinates.Showable := shown.1 ⟨d, found⟩
      refine ⟨⟨?_, fun _ => ⟨[d], Nat.le_refl 1, rfl⟩⟩, ⟨fun ⟨_, e⟩ => (nomatch e), ?_⟩⟩
      · rintro - _ _ ⟨rfl, rfl⟩
        exact fits
      · rintro ⟨_, _, ⟨rfl, rfl⟩, unfit⟩
        exact absurd fits unfit
    | error e =>
      have unfit : ¬ r.coordinates.Showable := fun fits => by
        obtain ⟨d, ok⟩ := shown.2 fits
        rw [found] at ok
        cases ok
      refine ⟨⟨fun ⟨_, _, ok⟩ => (nomatch ok), fun fits => absurd (fits file r ⟨rfl, rfl⟩) unfit⟩,
        ⟨fun _ => ⟨file, r, ⟨rfl, rfl⟩, unfit⟩, fun _ => ⟨e, rfl⟩⟩⟩

/-- The line behind the output is a finding at the last places of the editor's range. -/
theorem appended_iff_second_finding :
    let t := "a(1,0,1,1): error: [ x ] m"
    let l := "b(0,2147483647,2147483648,5): Info: [ y ]  n\r"
    let first : Diagnostic := ⟨⟨0, 0⟩, ⟨0, 1⟩, .error, some "x", "m"⟩
    let second : Diagnostic := ⟨⟨0, 2147483647⟩, ⟨2147483647, 5⟩, .error, some "y", "n"⟩
    diagnosticsOf t = .ok [first] ∧ diagnosticsOf (t ++ "\n" ++ l) = .ok [first, second] ∧
      ∀ file r, Finding.cut? (Text.trimEndWhile Text.isLineEnd l.toList) = some (file, r) →
        r.coordinates.Showable := by
  intro t l first second
  have before : diagnosticsOf t = .ok [first] := by decide +kernel
  have whole : diagnosticsOf (t ++ "\n" ++ l) = .ok [first, second] := by decide +kernel
  exact ⟨before, whole, (appended_iff before (by decide)).1.1 ⟨[second], Nat.le_refl 1, whole⟩⟩

/-- One finding whose column is past the editor's range takes the diagnostics of all others away. -/
theorem others_hidden :
    ¬ ∀ (t l : String) (ds : List Diagnostic), diagnosticsOf t = .ok ds → '\n' ∉ l.toList →
      ∃ more : List Diagnostic, more.length ≤ 1 ∧ diagnosticsOf (t ++ "\n" ++ l) = .ok (ds ++ more) := by
  intro all
  obtain ⟨more, -, ok⟩ := all "a(1,0,1,1): error: [ x ] m" "a(1,0,1,2147483648): error: [ x ] m"
    [⟨⟨0, 0⟩, ⟨0, 1⟩, .error, some "x", "m"⟩] (by decide +kernel) (by decide)
  have hidden : diagnosticsOf ("a(1,0,1,1): error: [ x ] m" ++ "\n" ++ "a(1,0,1,2147483648): error: [ x ] m") =
      .error (.outOfRange ⟨.character, 2147483648⟩) := by
    decide +kernel
  rw [hidden] at ok
  cases ok

end Lint.Linter

end LintServer
