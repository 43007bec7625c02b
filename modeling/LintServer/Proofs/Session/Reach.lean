import LintServer.Proofs.Session.Progress

/-!
# Where a loop leads

A loop over documents does not ask again whether a document is open. If it leads
to a document, then some course of events outside has a pass of it publish a
finding there, and no message has to name the document for that
(`exists_finding`).
-/

namespace LintServer.Session

open Lint (Desk EndsAs Linter)

/-- The document that a move asks to lint. -/
def Move.named? : Move → Option LooseText
  | .receive _ m => m.named?
  | _ => none

theorem named?_of_passive {m : Move} (h : m.isPassive = true) : m.named? = none := by
  cases m with
  | receive k m => cases m <;> first | rfl | cases h
  | _ => rfl

/-- Nothing but empty lists was published for a document between two sessions. -/
def StaysClear (s t : Session) (uri : LooseText) : Prop :=
  ∃ lists, t.published uri = s.published uri ++ lists ∧ ∀ ds ∈ lists, ds = []

theorem StaysClear.later {s t u : Session} {uri : LooseText} (h : s.StaysClear u uri)
    (hs : s.published uri <+: t.published uri) (ht : t.published uri <+: u.published uri) :
    t.StaysClear u uri := by
  obtain ⟨lists, hl, he⟩ := h
  obtain ⟨a, ha⟩ := hs
  obtain ⟨b, hb⟩ := ht
  refine ⟨b, hb.symm, fun ds hd => he ds ?_⟩
  rw [← hb, ← ha, List.append_assoc] at hl
  exact List.append_cancel_left hl ▸ List.mem_append_right a hd

/-! ## A tool that always has a finding -/

def finding : ToolRun where
  stdout := "a(1,0,1,1): error: [ x ] m".toUTF8.toList

def flaw : Diagnostic := ⟨⟨0, 0⟩, ⟨0, 1⟩, .error, some "x", "m"⟩

theorem finish_finding : (Tool.finish finding).bind Linter.diagnosticsOf = .ok [flaw] := by
  decide +kernel

def tooled : Settings := { path := "tool" }

def tooledPayload : Json := .obj [("path", .str "tool")]

theorem ofJson_tooledPayload (nesting : Json.Nesting) : Settings.ofJson nesting tooledPayload = .ok tooled := by
  rfl

/-- The next runs of the tool all have a finding. -/
structure Finds (s : Session) (n : Nat) : Prop where
  settings : s.settings = tooled
  folders : s.folders = []
  runs : s.linter.world.runs = List.replicate n finding

theorem command_tooled (args : List LooseText) (l : Linter) :
    l.command tooled args = (.ok (LooseText.ofString "tool" :: args), l) := by
  have hp : LooseText.ofString "tool" ≠ LooseText.ofString "" := by decide
  have hc : Resolver.commandAt "tool" args = LooseText.ofString "tool" :: args := by
    have : Resolver.isArchivePath "tool" = false := by decide +kernel
    simp [Resolver.commandAt, this, hp]
  unfold Linter.command Resolver.command Resolver.effectivePath
  rw [show tooled.path = LooseText.ofString "tool" from rfl, if_pos hp]
  simp only [hc]

section
variable {run : ToolRun} {runs : List ToolRun} (he : run.startError = none)
include he

theorem start_of_runs {w : World} (h : w.runs = run :: runs) (program : LooseText) (args : List LooseText)
    (folder : Option LooseText) :
    (Tool.start (program :: args) folder w).1 = .ok run ∧
      (Tool.start (program :: args) folder w).2.runs = runs := by
  simp [Tool.start, World.run, World.emit, h, he]

theorem startWork_tooled {l : Linter} (h : l.world.runs = run :: runs) (file folder : Path) :
    (l.startWork tooled file folder).1 = .ok (.tool run) ∧
      (l.startWork tooled file folder).2.world.runs = runs := by
  have hd : tooled.daemonEnabled = false := rfl
  obtain ⟨hr, hw⟩ := start_of_runs he h "tool" (Tool.lintArguments file.text none) (some folder.text)
  unfold Linter.startWork Linter.startTool
  simp only [hd, Bool.false_eq_true, if_false, command_tooled]
  exact ⟨congrArg (Except.map Lint.Arrival.tool) hr, hw⟩

theorem start_tooled {l : Linter} (h : l.world.runs = run :: runs) (uri : LooseText) (file folder : Path) :
    ∃ m, l.start tooled uri file folder = (.waiting (l.ledger.counter + 1) (.tool run), m) ∧
      m.world.runs = runs ∧ m.desk = l.desk.number uri tooled := by
  have hl : tooled.lintEnabled = true := rfl
  obtain ⟨hr, hw⟩ := startWork_tooled he (l := l.numbered uri tooled) h file folder
  have hd := (Linter.desk_startWork tooled file folder (l.numbered uri tooled)).trans (l.desk_numbered uri tooled)
  rcases hs : (l.numbered uri tooled).startWork tooled file folder with ⟨r, m⟩
  rw [hs] at hr hw hd
  cases hr
  refine ⟨m, ?_, hw, hd⟩
  simp only [Linter.numbered, Linter.call] at hs
  unfold Linter.start
  simp only [hl, if_true, hs]
  rfl

end

theorem runs_conclude (l : Linter) (uri : LooseText) (n : Nat) (output : Except Fault String) :
    (l.conclude uri n output).2.world.runs = l.world.runs := by
  unfold Linter.conclude Linter.tell; dsimp only
  split
  · split <;> rfl
  · split
    · split
      · split <;> rfl
      · rfl
    · rfl

theorem conclude_finding {l : Linter} {uri : LooseText} {n : Nat} (h : l.ledger.isCurrent uri n = true) :
    ∃ m, l.conclude uri n (Tool.finish finding) = (.ok (some [flaw]), m) ∧ m.world.runs = l.world.runs ∧
      m.desk = l.desk.display [.publish uri [flaw]] := by
  obtain ⟨shown, he, hd⟩ := l.conclude_ends uri n (Tool.finish finding)
  have hr := runs_conclude l uri n (Tool.finish finding)
  rcases hm : l.conclude uri n (Tool.finish finding) with ⟨e, m⟩
  rw [hm] at he hd hr
  rw [h, finish_finding] at he
  cases he
  exact ⟨m, rfl, hr, hd⟩

/-! ## Loops that find something -/

theorem startPass_finds {s : Session} {n : Nat} (h : s.Finds (n + 1)) (uri : LooseText) (file : Path) :
    ∃ t : Session, s.startPass uri file = (.ended (.ok (some [flaw])), t) ∧ t.Finds n ∧
      t.linter.desk.shown = s.linter.desk.shown ++ [.publish uri [flaw]] := by
  have hw : Workspace.workingFolder s.folders file = .ok file.parent := by
    rw [h.folders]
    rfl
  have hf : finding.startError = none := rfl
  obtain ⟨l, hs, hr, hd⟩ := start_tooled hf h.runs uri file file.parent
  rw [← h.settings] at hs hd
  have current : l.ledger.isCurrent uri (s.linter.ledger.counter + 1 : Nat) = true := by
    rw [show l.ledger = (s.linter.ledger.next uri).2 from congrArg Desk.ledger hd]
    exact s.linter.ledger.isCurrent_next uri
  obtain ⟨m, hm, hk, hc⟩ := conclude_finding current
  have hg : s.schedule.gateOf (.tool finding) = none := rfl
  refine ⟨{ s with linter := m }, ?_, ⟨h.settings, h.folders, hk.trans hr⟩, ?_⟩
  · unfold startPass
    simp only [hw, hs, hg, Option.isSome_none, Bool.false_eq_true, if_false, conclude, hm]
  · rw [hd] at hc
    exact congrArg Desk.shown hc

/-- A loop that leads to a document does not leave it clear, if all passes find something. -/
theorem relint_finds {uri : LooseText} {docs : List LooseText} (h : LeadsTo uri docs) (k : Nat) :
    ∀ {s : Session} {n : Nat}, s.Finds (docs.length + n) → ¬ s.StaysClear (s.relint k docs) uri := by
  have grows (docs : List LooseText) (s : Session) : s.published uri <+: (s.relint k docs).published uri :=
    published_strides (relint_strides k docs s) uri
  induction h with
  | here file rest h =>
    rintro s n hs ⟨lists, hl, he⟩
    rw [List.length_cons, Nat.add_right_comm] at hs
    obtain ⟨t, ht, -, hd⟩ := startPass_finds hs uri file
    have hp : t.published uri = s.published uri ++ [[flaw]] := by
      simp only [published, Desk.sheet, hd, Lint.publications_append, Lint.publications_self]
    obtain ⟨more, hm⟩ := grows rest t
    have : s.relint k (uri :: rest) = t.relint k rest := by
      simp only [relint, h, ht, clearAfter]
    rw [this, ← hm, hp, List.append_assoc] at hl
    have := he [flaw] (List.append_cancel_left hl ▸ List.mem_cons_self)
    cases this
  | later v rest hv h ih =>
    intro s n hs
    rw [List.length_cons, Nat.add_right_comm] at hs
    cases hp : Uri.toPath? v with
    | error e =>
      rw [hp] at hv
      cases hv
    | ok file? =>
      cases file? with
      | none =>
        have : s.relint k (v :: rest) = s.relint k rest := by simp only [relint, hp]
        rw [this]
        exact ih (n := n + 1) hs
      | some file =>
        obtain ⟨t, ht, hf, hd⟩ := startPass_finds hs v file
        have grown : s.linter.desk.shown <+: t.linter.desk.shown := hd ▸ List.prefix_append _ _
        have : s.relint k (v :: rest) = t.relint k rest := by
          simp only [relint, hp, ht, clearAfter]
        rw [this]
        intro hc
        exact ih hf (hc.later (published_grows grown uri) (grows rest t))

/-! ## Loops that go on -/

section
variable {s : Session} {n : Nat} {rest : List LooseText} (hf : s.Finds n)
include hf

/-- A job whose pass ends goes on with its loop, under the same settings. -/
theorem advance_loop {w : Waiting} {output : Except Fault String}
    (h : (s.linter.proceed w.arrival).1 = .output output) (ht : w.job.task = .relint rest) :
    ∃ t : Session, s.advance w = t.relint w.job.step rest ∧ t.Finds n ∧
      s.linter.desk.shown <+: t.linter.desk.shown := by
  have hk := s.linter.keeps_proceed w.arrival
  have hd := Lint.Linter.desk_proceed w.arrival s.linter
  rcases hp : s.linter.proceed w.arrival with ⟨progress, l⟩
  rw [hp] at h hk hd
  cases h
  obtain ⟨shown, -, hc⟩ := l.conclude_ends w.job.uri w.job.sequence output
  have hr := runs_conclude l w.job.uri w.job.sequence output
  rcases hm : l.conclude w.job.uri w.job.sequence output with ⟨e, m⟩
  rw [hm] at hc hr
  let schedule := if w.arrival.ownsDaemon then s.schedule.freeDaemon else s.schedule
  let c : Session := { s with linter := m, schedule := schedule }
  refine ⟨c.clearAfter w.job.uri e, ?_, ?_, ?_⟩
  · simp only [advance, hp, conclude, hm, goOn, ht]
    rfl
  · have runs : m.world.runs = List.replicate n finding := hr.trans (hk.runs.trans hf.runs)
    cases e with
    | ok ds => exact ⟨hf.settings, hf.folders, runs⟩
    | error f => exact ⟨hf.settings, hf.folders, runs⟩
  · have desk : (c.clearAfter w.job.uri e).linter.desk = m.desk.display (afterwards w.job.uri e) :=
      congrArg Face.desk (c.face_clearAfter w.job.uri e [])
    rw [desk, ← hd, show m.desk = l.desk.display shown from hc]
    exact (List.prefix_append _ _).trans (List.prefix_append _ _)

theorem play_loop {i : Nat} {job : Job} {outcome : Except Fault (List Diagnostic)}
    (h : s.ending? i = some (job, outcome)) (ht : job.task = .relint rest) :
    ∃ t : Session, s.play (.turn i) = t.relint job.step rest ∧ t.Finds n ∧
      s.linter.desk.shown <+: t.linter.desk.shown := by
  unfold ending? at h
  split at h
  · rename_i w hw
    split at h
    · rename_i output ho
      cases h
      obtain ⟨t, hp, hf, hs⟩ := advance_loop (s := s.withoutTurn i) ⟨hf.settings, hf.folders, hf.runs⟩ ho ht
      exact ⟨t, by simp only [play, hw, take, hp], hf, hs⟩
    · cases h
  · cases h

end

section
variable {s : Session} {m : Move}

theorem Begins.kept_of_passive {f : Face} (h : Begins s m f) (hm : m.isPassive = true) :
    f.settings = s.settings ∧ f.folders = s.folders := by
  cases h with
  | receive k m => cases m <;> first | exact ⟨rfl, rfl⟩ | cases hm
  | _ => exact ⟨rfl, rfl⟩

theorem kept_of_passive {ms : List Move} (hm : ∀ m ∈ ms, m.isPassive = true) :
    (s.playAll ms).settings = s.settings ∧ (s.playAll ms).folders = s.folders := by
  refine playAll_keeps (P := fun t => t.settings = s.settings ∧ t.folders = s.folders) ?_ ⟨rfl, rfl⟩
  rintro m hn t ⟨ht, hf⟩
  obtain ⟨f, hb, hs⟩ := t.play_strides m
  obtain ⟨settings, -, folders⟩ := kept_of_strides hs
  obtain ⟨hset, hfol⟩ := hb.kept_of_passive (hm m hn)
  exact ⟨settings.trans (hset.trans ht), folders.trans (hfol.trans hf)⟩

end

/-- The folders are taken away and the tool is configured. -/
def tooling : List Move := [.receive 0 (.setFolders []), .receive 0 (.configured tooledPayload)]

theorem kept_of_tooling (s : Session) :
    (s.playAll tooling).settings = tooled ∧ (s.playAll tooling).folders = [] := by
  let t := s.play (.receive 0 (.setFolders []))
  obtain ⟨f, hb, hs⟩ := t.play_strides (.receive 0 (.configured tooledPayload))
  obtain ⟨settings, -, folders⟩ := kept_of_strides hs
  have hf : f = t.face.configure 0 tooled := by
    cases hb
    exact t.face.receive_of_read 0 (ofJson_tooledPayload _)
  exact ⟨settings.trans (hf ▸ rfl), folders.trans (hf ▸ rfl)⟩

theorem mem_jobs_tooling {s : Session} {job : Job} (hj : job ∈ s.schedule.jobs) :
    job ∈ (s.playAll tooling).schedule.jobs := by
  have received {t : Session} (k : Nat) (m : Message) (hj : job ∈ t.schedule.jobs) :
      job ∈ (t.play (.receive k m)).schedule.jobs := mem_jobs_play hj fun i outcome h => by cases h
  exact received 0 (.configured tooledPayload) (received 0 (.setFolders []) hj)

def withFindings (n : Nat) (w : World) : World := { w with runs := List.replicate n finding }

theorem finds_adjusted {s : Session} (hs : s.settings = tooled) (hf : s.folders = []) (n : Nat) :
    (s.adjusted (withFindings n)).Finds n := ⟨hs, hf, rfl⟩

/-- A loop that leads to a document can find something there, though no message names the document. -/
theorem exists_finding {s : Session} (hm : s.Manned) {job : Job} (hj : job ∈ s.schedule.jobs) {uri : LooseText}
    (hl : LeadsTo uri job.task.rest) :
    ∃ after, (∀ m ∈ after, m.named? = none) ∧ ¬ s.StaysClear (s.playAll after) uri := by
  obtain ⟨rest, ht⟩ : ∃ rest, job.task = .relint rest := by
    cases ht : job.task with
    | relint rest => exact ⟨rest, rfl⟩
    | document => rw [ht] at hl; cases hl
    | command => rw [ht] at hl; cases hl
  rw [ht] at hl
  have hj := mem_jobs_tooling hj
  obtain ⟨ms, i, outcome, hp, he⟩ :=
    exists_ending (withFindings rest.length) job _ (manned_playAll tooling hm) hj
  generalize hs : (s.playAll tooling).playAll ms = t at he
  have hf : (t.adjusted (withFindings rest.length)).Finds rest.length := by
    obtain ⟨settings, folders⟩ := kept_of_passive (s := s.playAll tooling) hp
    rw [hs] at settings folders
    exact finds_adjusted (settings.trans s.kept_of_tooling.1) (folders.trans s.kept_of_tooling.2) _
  obtain ⟨u, hu, hf, grown⟩ := play_loop hf he ht
  let after := tooling ++ ms ++ [.outside (withFindings rest.length t.linter.world), .turn i]
  have hr : s.playAll after = u.relint job.step rest := by
    rw [playAll_append, playAll_append, hs]
    exact hu
  refine ⟨after, fun m hm => ?_, fun hc => ?_⟩
  · rcases List.mem_append.1 hm with hm | hm
    · rcases List.mem_append.1 hm with hm | hm
      · rcases List.mem_pair.1 hm with rfl | rfl <;> rfl
      · exact named?_of_passive (hp m hm)
    · rcases List.mem_pair.1 hm with rfl | rfl <;> rfl
  · have hsu : s.published uri <+: u.published uri := by
      refine List.IsPrefix.trans ?_ (published_grows grown uri)
      have := published_playAll uri (tooling ++ ms) s
      rw [playAll_append, hs] at this
      exact this
    have hut := published_strides (relint_strides job.step rest u) uri
    exact relint_finds hl job.step (n := 0) hf ((hr ▸ hc).later hsu hut)

end LintServer.Session
