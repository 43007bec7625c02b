import LintServer.Proofs.Lint.Desk

/-!
# The sheet of a document

The desk keeps a sheet for every document: which pass over it is current, the
passes that were asked for and what was published. A pass over another document
leaves the sheet as it is.
-/

namespace LintServer.Lint

/-- What is published for a document, the first first. -/
def publications (uri : LooseText) (events : List Event) : List (List Diagnostic) :=
  events.filterMap fun
    | .publish v ds => if v = uri then some ds else none
    | _ => none

@[simp] theorem publications_append (uri : LooseText) (a b : List Event) :
    publications uri (a ++ b) = publications uri a ++ publications uri b :=
  List.filterMap_append

@[simp] theorem publications_self (uri : LooseText) (ds : List Diagnostic) :
    publications uri [.publish uri ds] = [ds] := by
  simp [publications]

theorem publications_of_ne {v uri : LooseText} (h : v ≠ uri) (ds : List Diagnostic) :
    publications uri [.publish v ds] = [] := by
  simp [publications, h]

@[simp] theorem publications_told (uri : LooseText) (notifies : Bool) (f : Fault) :
    publications uri (told notifies f) = [] := by
  cases notifies <;> rfl

namespace EndsAs
variable {notifies current : Bool} {uri : LooseText} {outcome : Except Fault (List Diagnostic)} {e : PassEnd}
  {shown : List Event}

theorem publications_of_ne (h : EndsAs notifies uri current outcome e shown) {v : LooseText} (hv : uri ≠ v) :
    publications v shown = [] := by
  cases h with
  | output ds => exact Lint.publications_of_ne hv ds
  | outputOfPast ds => rfl
  | failure f hf =>
    exact (publications_append v [.publish uri []] (told notifies f)).trans
      (by rw [Lint.publications_of_ne hv, publications_told]; rfl)
  | failureOfPast f hf => rfl
  | defect current f hf => rfl

theorem shown_of_past (h : EndsAs notifies uri false outcome e shown) : shown = [] := by
  cases h with
  | outputOfPast ds => rfl
  | failureOfPast f hf => rfl
  | defect current f hf => rfl

end EndsAs

structure Sheet where
  isCurrent : Int → Bool
  /-- The settings of the passes that were asked for, the newest first. -/
  calls : List Settings
  published : List (List Diagnostic)

/-- A sheet later on, if no finding was published meanwhile. -/
def Sheet.Blanks (a b : Sheet) : Prop :=
  ∃ lists, b.published = a.published ++ lists ∧ ∀ ds ∈ lists, ds = []

/-- A sheet later on, if no pass was asked for meanwhile and none published a finding. -/
structure Sheet.Fades (a b : Sheet) : Prop where
  calls : b.calls = a.calls
  isCurrent : ∀ n, b.isCurrent n = true → a.isCurrent n = true
  published : ∃ lists, b.published = a.published ++ lists ∧ ∀ ds ∈ lists, ds = []

/-- No pass will publish a finding, and none is shown. -/
structure Sheet.Hushed (a : Sheet) : Prop where
  isCurrent : ∀ n, a.isCurrent n = false
  published : ∀ ds ∈ a.published.getLast?, ds = []

namespace Sheet
variable {a b c : Sheet}

theorem Blanks.refl (a : Sheet) : a.Blanks a := ⟨[], (List.append_nil _).symm, by simp⟩

theorem Blanks.trans (h : a.Blanks b) (k : b.Blanks c) : a.Blanks c := by
  obtain ⟨xs, hx, ex⟩ := h
  obtain ⟨ys, hy, ey⟩ := k
  refine ⟨xs ++ ys, ?_, fun ds hd => ?_⟩
  · rw [hy, hx, List.append_assoc]
  · exact (List.mem_append.mp hd).elim (ex ds) (ey ds)

theorem Fades.refl (a : Sheet) : a.Fades a := ⟨rfl, fun _ h => h, Blanks.refl a⟩

theorem Fades.trans (h : a.Fades b) (k : b.Fades c) : a.Fades c :=
  ⟨k.calls.trans h.calls, fun n hn => h.isCurrent n (k.isCurrent n hn), Blanks.trans h.published k.published⟩

theorem Hushed.fades (h : a.Hushed) (hf : a.Fades b) : b.Hushed := by
  refine ⟨fun n => ?_, ?_⟩
  · cases hn : b.isCurrent n with
    | false => rfl
    | true => exact (hf.isCurrent n hn).symm.trans (h.isCurrent n)
  · obtain ⟨lists, hl, he⟩ := hf.published
    intro ds hd
    rcases List.eq_nil_or_concat lists with rfl | ⟨init, last, rfl⟩
    · exact h.published ds (by simpa [hl] using hd)
    · have : last = ds := by simpa [hl] using hd
      exact he ds (by simp [this])

end Sheet

namespace Desk

def sheet (d : Desk) (uri : LooseText) : Sheet :=
  ⟨d.ledger.isCurrent uri, (d.calls.filter (·.1 = uri)).map (·.2), publications uri d.shown⟩

variable (d : Desk) {uri v : LooseText}

theorem sheet_display (uri : LooseText) (events : List Event) : (d.display events).sheet uri =
    { d.sheet uri with published := (d.sheet uri).published ++ publications uri events } := by
  simp only [sheet, display, publications_append]

theorem sheet_display_of_nil {events : List Event} (h : publications uri events = []) :
    (d.display events).sheet uri = d.sheet uri := by
  rw [sheet_display, h, List.append_nil]

theorem fades_display {events : List Event} (h : ∀ ds ∈ publications uri events, ds = []) :
    (d.sheet uri).Fades ((d.display events).sheet uri) := by
  rw [sheet_display]
  exact ⟨rfl, fun _ hn => hn, publications uri events, rfl, h⟩

theorem fades_forget (uri v : LooseText) : (d.sheet uri).Fades ((d.mark (.forget v)).sheet uri) := by
  refine ⟨rfl, fun n hn => ?_, [], (List.append_nil _).symm, by simp⟩
  by_cases h : v = uri
  · subst h
    have hf : (d.ledger.forget v).isCurrent v n = true := hn
    rw [Ledger.isCurrent_forget_self] at hf
    cases hf
  · exact (Ledger.isCurrent_forget_of_ne (Ne.symm h) d.ledger n).symm.trans hn

theorem hushed_forget (uri : LooseText) :
    (((d.mark (.forget uri)).display [.publish uri []]).sheet uri).Hushed := by
  refine ⟨d.ledger.isCurrent_forget_self uri, ?_⟩
  rw [sheet_display]
  simp

theorem sheet_mark_of_ne {m : Mark} (h : m.uri ≠ uri) : (d.mark m).sheet uri = d.sheet uri := by
  have : (d.ledger.mark m).isCurrent uri = d.ledger.isCurrent uri :=
    funext (Ledger.isCurrent_mark_of_ne h d.ledger)
  simp only [sheet, mark, this]

theorem sheet_call_of_ne (h : v ≠ uri) (s : Settings) : (d.call v s).sheet uri = d.sheet uri := by
  simp only [sheet, call, List.filter_cons, h, decide_false, Bool.false_eq_true, if_false]

theorem calls_call_self (uri : LooseText) (s : Settings) :
    ((d.call uri s).sheet uri).calls = s :: (d.sheet uri).calls := by
  simp only [sheet, call, List.filter_cons, decide_true, if_true, List.map_cons]

theorem sheet_number_of_ne (h : v ≠ uri) (s : Settings) : (d.number v s).sheet uri = d.sheet uri :=
  ((d.call v s).sheet_mark_of_ne (m := .next v) h).trans (d.sheet_call_of_ne h s)

theorem sheet_clear_of_ne (h : v ≠ uri) (s : Settings) : (d.clear v s).sheet uri = d.sheet uri :=
  (sheet_display_of_nil _ (publications_of_ne h [])).trans
    (((d.call v s).sheet_mark_of_ne (m := .forget v) h).trans (d.sheet_call_of_ne h s))

end Desk

end LintServer.Lint
