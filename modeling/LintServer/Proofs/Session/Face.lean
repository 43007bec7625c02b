import LintServer.Proofs.Lint.Desk
import LintServer.Proofs.Session.Jobs
import LintServer.Proofs.Session.Move
import Mathlib.Logic.Relation

/-!
# The face of a session

What a session shows is decided by its settings, its open documents, the desk
of its linter and the jobs in its schedule, not by the tool or the daemon. Seen
from there a move does one thing at once (`Begins`) and then lints the documents
that it has ahead one after the other, a `Stride` for each, until none is left
or a pass waits (`play_strides`).
-/

namespace LintServer.Session

open Lint (Desk EndsAs PassEnd Started)
open Relation (ReflTransGen)

structure Face where
  conditions : Conditions
  settings : Settings
  documents : List LooseText
  folders : List Json
  desk : Desk
  jobs : Multiset Job
  /-- The documents that the current move still has to lint. -/
  ahead : List LooseText

def face (s : Session) (ahead : List LooseText := []) : Face :=
  ⟨s.conditions, s.settings, s.documents, s.folders, s.linter.desk, s.schedule.jobs, ahead⟩

/-- What is shown after a pass because of how it ended. -/
def afterwards (uri : LooseText) : PassEnd → List Event
  | .error _ => [.publish uri []]
  | .ok _ => []

/-- How a pass starts: what it comes to at once, and the desk then. -/
inductive StartsAs (settings : Settings) (folders : List Json) (uri : LooseText) (d : Desk) :
    Started → Desk → Prop
  | astray (e : Uri.HostFault) (h : Workspace.paths folders = .error e) :
      StartsAs settings folders uri d (.ended (.error (.host e))) d
  | clear (h : settings.lintEnabled = false) (hw : (Workspace.paths folders).isOk = true) :
      StartsAs settings folders uri d (.ended (.ok none)) (d.clear uri settings)
  | finish (outcome : Except Fault (List Diagnostic)) (e : PassEnd) (shown : List Event)
      (h : settings.lintEnabled = true) (he : EndsAs d.notifies uri true outcome e shown)
      (hw : (Workspace.paths folders).isOk = true) :
      StartsAs settings folders uri d (.ended e) ((d.number uri settings).display shown)
  | wait (a : Lint.Arrival) (h : settings.lintEnabled = true) (hw : (Workspace.paths folders).isOk = true) :
      StartsAs settings folders uri d (.waiting (d.ledger.counter + 1) a) (d.number uri settings)

/-- What becomes of the first document ahead. -/
inductive Stride : Face → Face → Prop
  | skip {f : Face} (uri : LooseText) (rest : List LooseText) (h : f.ahead = uri :: rest)
      (hp : Uri.toPath? uri = .ok none) : Stride f { f with ahead := rest }
  | abandon {f : Face} (uri : LooseText) (rest : List LooseText) (e : Uri.HostFault) (h : f.ahead = uri :: rest)
      (hp : Uri.toPath? uri = .error e) : Stride f { f with ahead := [] }
  | pass {f : Face} (uri : LooseText) (rest : List LooseText) (file : Path) (e : PassEnd) (d : Desk)
      (h : f.ahead = uri :: rest) (hp : Uri.toPath? uri = .ok (some file))
      (hs : StartsAs f.settings f.folders uri f.desk (.ended e) d) :
      Stride f { f with desk := d.display (afterwards uri e), ahead := rest }
  | wait {f : Face} (job : Job) (file : Path) (a : Lint.Arrival) (d : Desk)
      (h : f.ahead = job.uri :: job.task.rest) (hp : Uri.toPath? job.uri = .ok (some file))
      (hs : StartsAs f.settings f.folders job.uri f.desk (.waiting job.sequence a) d) :
      Stride f { f with desk := d, jobs := job ::ₘ f.jobs, ahead := [] }

/-! ## Messages and endings -/

/-- The document that a message asks to lint. -/
def Message.named? : Message → Option LooseText
  | .opened uri | .saved uri => some uri
  | .lint params =>
    match parameter "uri" params with
    | .str uri => if (Json.str uri).isGiven then some uri else none
    | _ => none
  | _ => none

def clearAway (d : Desk) (uris : List LooseText) : Desk :=
  uris.foldl (fun d uri => (d.mark (.forget uri)).display [.publish uri []]) d

/-- The open documents as the loop of a step takes them. -/
def Face.inOrder (f : Face) (k : Nat) : List LooseText :=
  f.conditions.order k f.documents

/-- Settings are taken over, the documents are cleared or become those to lint. -/
def Face.configure (f : Face) (k : Nat) (new : Settings) : Face :=
  { f with
    settings := new
    desk := if new.lintEnabled then f.desk else clearAway f.desk (f.inOrder k)
    ahead := if new.lintEnabled ∧ f.settings ≠ new then f.inOrder k else [] }

def Face.receive (f : Face) (k : Nat) : Message → Face
  | .opened uri | .saved uri => { f with documents := insertDocument uri f.documents, ahead := [uri] }
  | .closed uri => { f with documents := f.documents.filter (· != uri), desk := clearAway f.desk [uri] }
  | .configured payload =>
    match Settings.ofJson f.conditions.nesting payload with
    | .error _ => f
    | .ok new => f.configure k new
  | .lint params => { f with ahead := (Message.lint params).named?.toList }
  | .setFolders folders => { f with folders := folders }
  | _ => f

theorem Face.receive_of_unread {f : Face} {payload : Json} {e : Settings.Overflow} (k : Nat)
    (h : Settings.ofJson f.conditions.nesting payload = .error e) : f.receive k (.configured payload) = f := by
  simp only [Face.receive, h]

theorem Face.receive_of_read {f : Face} {payload : Json} {new : Settings} (k : Nat)
    (h : Settings.ofJson f.conditions.nesting payload = .ok new) :
    f.receive k (.configured payload) = f.configure k new := by
  simp only [Face.receive, h]

/-- The job whose pass ends in the turn at `i`, and what the pass has come to. -/
def ending? (s : Session) (i : Nat) : Option (Job × Except Fault (List Diagnostic)) :=
  match s.schedule.ready[i]? with
  | some (.goOn w 0) =>
    match (s.linter.proceed w.arrival).1 with
    | .output output => some (w.job, output.bind Lint.Linter.diagnosticsOf)
    | _ => none
  | _ => none

/-- What a move does at once. -/
inductive Begins (s : Session) : Move → Face → Prop
  | receive (k : Nat) (m : Message) : Begins s (.receive k m) (s.face.receive k m)
  | turn (i : Nat) (h : s.ending? i = none) : Begins s (.turn i) s.face
  | ending (i : Nat) (job : Job) (outcome : Except Fault (List Diagnostic)) (e : PassEnd)
      (shown : List Event) (left : Multiset Job) (h : s.ending? i = some (job, outcome))
      (hj : s.schedule.jobs = job ::ₘ left)
      (he : EndsAs s.linter.notifies job.uri (s.linter.ledger.isCurrent job.uri job.sequence) outcome e shown) :
      Begins s (.turn i) { s.face with
        desk := (s.linter.desk.display shown).display (afterwards job.uri e)
        jobs := left
        ahead := job.task.rest }
  | report : Begins s .report s.face
  | outside (world : World) : Begins s (.outside world) s.face

/-! ## Passes -/

section
variable (s : Session)

@[simp] theorem face_finish (k : Nat) (o : Outcome) (ahead : List LooseText) :
    (s.finish k o).face ahead = s.face ahead := rfl

theorem face_clearAfter (uri : LooseText) (e : PassEnd) (ahead : List LooseText) :
    (s.clearAfter uri e).face ahead =
      { s.face ahead with desk := s.linter.desk.display (afterwards uri e) } := by
  cases e with
  | ok ds => simp only [clearAfter, afterwards, Lint.Desk.display_nil, face]
  | error f =>
    simp only [clearAfter, afterwards, face, publish]
    rw [Lint.Linter.desk_publish]

theorem startPass_starts (uri : LooseText) (file : Path) :
    ∃ l, (s.startPass uri file).2 = { s with linter := l } ∧
      StartsAs s.settings s.folders uri s.linter.desk (s.startPass uri file).1 l.desk := by
  unfold startPass
  cases hw : Workspace.workingFolder s.folders file with
  | error e =>
    refine ⟨s.linter, rfl, .astray e ?_⟩
    unfold Workspace.workingFolder at hw
    cases hp : Workspace.paths s.folders <;> rw [hp] at hw <;> cases hw
    rfl
  | ok folder =>
    have readable : (Workspace.paths s.folders).isOk = true := by
      rw [← Workspace.isOk_workingFolder s.folders file, hw]
      rfl
    rcases hst : s.linter.start s.settings uri file folder with ⟨started, l⟩
    dsimp only
    rw [hst]
    cases hs : s.settings.lintEnabled with
    | false =>
      obtain ⟨h, hd⟩ := Lint.Linter.start_of_disabled hs uri file folder s.linter
      rw [hst] at h hd
      cases h
      exact ⟨l, rfl, hd ▸ .clear hs readable⟩
    | true =>
      rcases Lint.Linter.start_of_enabled hs uri file folder s.linter with
        ⟨f, e, shown, he, h, hd⟩ | ⟨a, h, hd⟩
      · rw [hst] at h hd
        cases h
        exact ⟨l, rfl, hd ▸ .finish _ e shown hs he readable⟩
      · rw [hst] at h hd
        cases h
        have waits : StartsAs s.settings s.folders uri s.linter.desk
            (.waiting (s.linter.ledger.counter + 1) a) l.desk := hd ▸ .wait a hs readable
        cases a with
        | tool run =>
          dsimp only
          split
          · exact ⟨l, rfl, waits⟩
          · obtain ⟨shown, he, hc⟩ :=
              Lint.Linter.conclude_ends uri (s.linter.ledger.counter + 1) (Tool.finish run) l
            have hl : l.ledger = (s.linter.ledger.next uri).2 := congrArg Desk.ledger hd
            have hn : l.notifies = s.linter.notifies := congrArg Desk.notifies hd
            rw [hl, hn, s.linter.ledger.isCurrent_next uri] at he
            rw [hd] at hc
            exact ⟨_, rfl, hc ▸ .finish _ _ shown hs he readable⟩
        | daemon c a => exact ⟨l, rfl, waits⟩
        | interval c a => exact ⟨l, rfl, waits⟩
        | probed c a k => exact ⟨l, rfl, waits⟩
        | connected a k => exact ⟨l, rfl, waits⟩
        | reply x => exact ⟨l, rfl, waits⟩

theorem face_suspend (job : Job) (a : Lint.Arrival) (ahead : List LooseText) :
    (s.suspend job a).face ahead = { s.face ahead with jobs := job ::ₘ s.schedule.jobs } := by
  unfold suspend
  split
  · split
    · simp only [face, reschedule, Schedule.jobs_queue]
    · rename_i c k _
      simp only [face, Lint.Linter.desk_handOver, Lint.Linter.desk_seek, Schedule.jobs_push,
        Schedule.jobs_takeDaemon, Turn.job]
  · simp only [face, reschedule, Schedule.jobs_park]

end

end LintServer.Session
