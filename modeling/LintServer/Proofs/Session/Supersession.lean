import LintServer.Proofs.Session.Order

/-!
# Superseded passes

A pass is superseded when a newer one over its document is asked for, or its
document is closed or cleared. `end_of_superseded` says what its end publishes
for the document: nothing, but for an empty list after a fault that passes do not
handle themselves.
-/

namespace LintServer.Session

open Lint (Desk Ledger publications)

/-- A move after which the passes over a document before it are superseded. -/
inductive Supersedes (s : Session) (uri : LooseText) : Move → Prop
  | newer (m : Move) (h : (s.play m).callsFor uri ≠ s.callsFor uri) : Supersedes s uri m
  | closed (k : Nat) : Supersedes s uri (.receive k (.closed uri))
  | disabled (k : Nat) (payload : Json) (new : Settings) (h : Settings.ofJson s.conditions.nesting payload = .ok new)
      (hn : new.lintEnabled = false) (hu : uri ∈ s.documents) :
      Supersedes s uri (.receive k (.configured payload))

/-- What the end of a superseded pass publishes. -/
def leavings : Except Fault (List Diagnostic) → List (List Diagnostic)
  | .ok _ => []
  | .error f => if f.isExpected then [] else [[]]

section
variable (s : Session) {uri : LooseText} {n : Nat}

theorem ledger_play (m : Move) : ∃ ms, (s.play m).linter.ledger = s.linter.ledger.marks ms := by
  obtain ⟨f, hb, hs⟩ := s.play_strides m
  obtain ⟨ms, hm⟩ := hb.ledger
  obtain ⟨ns, hn⟩ := ledger_strides hs
  exact ⟨ms ++ ns, hn.trans (by rw [hm, Ledger.marks_append])⟩

theorem isPast_play (h : s.linter.ledger.IsPast uri n) (m : Move) : (s.play m).linter.ledger.IsPast uri n := by
  obtain ⟨ms, hm⟩ := s.ledger_play m
  exact hm ▸ h.marks ms

theorem isPast_playAll (h : s.linter.ledger.IsPast uri n) (ms : List Move) :
    (s.playAll ms).linter.ledger.IsPast uri n :=
  playAll_keeps (P := fun t => t.linter.ledger.IsPast uri n) (fun m _ t ht => t.isPast_play ht m) h

theorem isPast_of_asked (hn : n ≤ s.linter.ledger.counter) {m : Move}
    (h : (s.play m).callsFor uri ≠ s.callsFor uri) : (s.play m).linter.ledger.IsPast uri n := by
  have : n ≤ (s.play m).linter.ledger.counter ∧
      ((s.play m).callsFor uri = s.callsFor uri ∨ (s.play m).linter.ledger.IsPast uri n) := by
    refine play_keeps (P := fun f => n ≤ f.desk.ledger.counter ∧
      ((f.desk.sheet uri).calls = s.callsFor uri ∨ f.desk.ledger.IsPast uri n)) ?_ ?_ ⟨hn, .inl rfl⟩
    · intro f hb _
      obtain ⟨ms, hm⟩ := hb.ledger
      exact ⟨Nat.le_trans hn (hm ▸ Ledger.counter_le_marks ms _), .inl (hb.calls uri)⟩
    · rintro f g hs ⟨hc, hp⟩
      obtain ⟨ms, hm⟩ := hs.ledger
      refine ⟨Nat.le_trans hc (hm ▸ Ledger.counter_le_marks ms _), ?_⟩
      rcases hp with hp | hp
      · rcases hs.asked uri with hf | ⟨-, k, rfl, hk⟩
        · exact .inl (hf.calls.trans hp)
        · exact .inr (hk ▸ Ledger.isPast_mark_of_le hc k)
      · exact .inr (hm ▸ hp.marks ms)
  exact this.2.resolve_left h

theorem isPast_of_forgotten (hn : n ≤ s.linter.ledger.counter) {k : Nat} {m : Message} {uris : List LooseText}
    (h : (s.face.receive k m).desk = clearAway s.linter.desk uris) (hu : uri ∈ uris) :
    (s.play (.receive k m)).linter.ledger.IsPast uri n := by
  obtain ⟨f, hb, hs⟩ := s.play_strides (.receive k m)
  cases hb
  obtain ⟨ms, hm⟩ := ledger_strides hs
  have hf : (s.face.receive k m).desk.ledger.IsPast uri n := by
    rw [h, ledger_clearAway]
    exact Ledger.isPast_marks_of_mem ⟨.forget uri, List.mem_map_of_mem hu, rfl⟩ hn
  exact (hm ▸ hf.marks ms : (s.play (.receive k m)).face.desk.ledger.IsPast uri n)

theorem isPast_of_supersedes (hn : n ≤ s.linter.ledger.counter) {m : Move} (h : s.Supersedes uri m) :
    (s.play m).linter.ledger.IsPast uri n := by
  cases h with
  | newer m h => exact s.isPast_of_asked hn h
  | closed k => exact s.isPast_of_forgotten hn rfl (List.mem_singleton_self uri)
  | disabled k payload new h hd hu =>
    refine s.isPast_of_forgotten hn ?_ ((s.face.mem_inOrder k).2 hu)
    rw [s.face.receive_of_read k h]
    simp only [Face.configure, hd, Bool.false_eq_true, if_false]
    rfl

theorem published_at_end {i : Nat} {job : Job} {outcome : Except Fault (List Diagnostic)} (ho : s.face.Orderly)
    (hp : s.linter.ledger.IsPast job.uri job.sequence) (h : s.ending? i = some (job, outcome)) :
    (s.play (.turn i)).published job.uri = s.published job.uri ++ leavings outcome := by
  obtain ⟨f, hb, hs⟩ := s.play_strides (.turn i)
  cases hb with
  | turn i hi =>
    rw [h] at hi
    cases hi
  | ending i k out e shown left hi hj he =>
    rw [h] at hi
    cases hi
    rw [hp.2] at he
    have hr : (job.uri :: job.task.rest).Nodup :=
      ho.rest job (show job ∈ s.schedule.jobs from hj ▸ Multiset.mem_cons_self job left)
    have hd := congrArg Lint.Sheet.published (sheet_of_strides hs (List.nodup_cons.1 hr).1)
    refine hd.trans ?_
    simp only [Desk.sheet_display, published, List.append_assoc]
    refine congrArg (_ ++ ·) ?_
    cases he with
    | outputOfPast ds => rfl
    | failureOfPast f hf => simp [leavings, hf, afterwards, publications]
    | defect _ f hf => simp [leavings, hf, afterwards, publications]

end

/-- **Superseded passes.** Whatever supersedes a pass and whatever happens after that, the end of the
pass publishes nothing for its document after an output or an expected fault, and an empty list
after any other fault. -/
theorem end_of_superseded (conditions : Conditions) (folders : List Json) (notifies : Bool) (world : World)
    (before after : List Move) (m : Move) (job : Job) (i : Nat) (outcome : Except Fault (List Diagnostic)) :
    let s := (opening conditions folders notifies world).playAll before
    let t := (s.play m).playAll after
    job ∈ s.schedule.jobs → s.Supersedes job.uri m → t.ending? i = some (job, outcome) →
    (t.play (.turn i)).published job.uri = t.published job.uri ++ leavings outcome := by
  intro s t hj hm hi
  have hs : s.face.Orderly := orderly_playAll before (orderly_opening conditions folders notifies world)
  have ht : t.face.Orderly := orderly_playAll after (orderly_play hs m)
  have hp : (s.play m).linter.ledger.IsPast job.uri job.sequence :=
    s.isPast_of_supersedes (hs.sequence job hj) hm
  exact t.published_at_end ht (isPast_playAll _ hp after) hi

/-- The first run of the tool waits at a gate and tells of a column that no editor has. -/
def overtaking : World where
  runs := [{ gate := some "g", stdout := "a(1,0,1,2147483648): error: [ x ] m".toUTF8.toList },
    { stdout := "a(1,0,1,1): error: [ x ] m".toUTF8.toList }]

def overtaken : Job := ⟨0, .document, "file:///a", 1⟩

def unheardOf : Except Fault (List Diagnostic) := .error (.outOfRange ⟨.character, 2147483648⟩)

theorem end_of_superseded_by_save :
    let s := (opening default [] true overtaking).playAll [.receive 0 (.opened "file:///a")]
    let t := (s.play (.receive 1 (.saved "file:///a"))).playAll [.receive 2 (.release "g")]
    (t.play (.turn 0)).published "file:///a" = t.published "file:///a" ++ [[]] :=
  end_of_superseded default [] true overtaking [.receive 0 (.opened "file:///a")] [.receive 2 (.release "g")]
    (.receive 1 (.saved "file:///a")) overtaken 0 unheardOf
    (by decide +kernel) (.newer _ (by decide +kernel)) (by decide +kernel)

/-- A superseded pass is not silent at its end: here it clears what the newer one published. -/
theorem superseded_not_silent :
    ¬ ∀ (conditions : Conditions) (folders : List Json) (notifies : Bool) (world : World)
        (before after : List Move) (m : Move) (job : Job) (i : Nat) (outcome : Except Fault (List Diagnostic)),
      let s := (opening conditions folders notifies world).playAll before
      let t := (s.play m).playAll after
      job ∈ s.schedule.jobs → s.Supersedes job.uri m → t.ending? i = some (job, outcome) →
      (t.play (.turn i)).published job.uri = t.published job.uri := by
  intro h
  have := h default [] true overtaking [.receive 0 (.opened "file:///a")] [.receive 2 (.release "g")]
    (.receive 1 (.saved "file:///a")) overtaken 0 unheardOf
    (by decide +kernel) (.newer _ (by decide +kernel)) (by decide +kernel)
  exact absurd this (by decide +kernel)

end LintServer.Session
