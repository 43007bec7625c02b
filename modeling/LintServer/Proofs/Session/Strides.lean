import LintServer.Proofs.Session.Face

/-!
# A move, stride by stride

Every function of a session that lints does so by strides. A move begins in one
of the ways of `Begins`, and strides bring it to its end (`play_strides`).
-/

namespace LintServer.Session

open Lint (Desk EndsAs PassEnd Started)
open Relation (ReflTransGen)

section
variable (s : Session)

theorem relint_strides (k : Nat) (docs : List LooseText) : ∀ s : Session,
    ReflTransGen Stride (s.face docs) (s.relint k docs).face := by
  induction docs with
  | nil =>
    intro s
    exact .refl
  | cons uri rest ih =>
    intro s
    unfold relint
    split
    · rename_i e hp
      exact .single (.abandon uri rest e rfl hp)
    · rename_i hp
      exact .head (.skip uri rest rfl hp) (ih s)
    · rename_i file hp
      obtain ⟨l, hl, hs⟩ := s.startPass_starts uri file
      rcases hst : s.startPass uri file with ⟨started, t⟩
      rw [hst] at hl hs
      cases hl
      cases started with
      | ended e =>
        refine .head (.pass uri rest file e l.desk rfl hp hs) ?_
        have := ih (clearAfter { s with linter := l } uri e)
        rwa [face_clearAfter] at this
      | waiting n a =>
        have : Stride (s.face (uri :: rest)) _ := .wait ⟨k, .relint rest, uri, n⟩ file a l.desk rfl hp hs
        refine .single ?_
        rwa [face_suspend]

theorem goOn_strides (k : Nat) (task : Task) (uri : LooseText) (e : PassEnd) :
    ReflTransGen Stride { s.face task.rest with desk := s.linter.desk.display (afterwards uri e) }
      (s.goOn k task uri e).face := by
  rw [← face_clearAfter]
  cases task with
  | document => exact .refl
  | command => exact .refl
  | relint rest => exact relint_strides k rest _

theorem startTask_strides (k : Nat) (task : Task) {uri : LooseText} {file : Path}
    (hp : Uri.toPath? uri = .ok (some file)) :
    ReflTransGen Stride (s.face (uri :: task.rest)) (s.startTask k task uri file).face := by
  unfold startTask
  obtain ⟨l, hl, hs⟩ := s.startPass_starts uri file
  rcases hst : s.startPass uri file with ⟨started, t⟩
  rw [hst] at hl hs
  cases hl
  cases started with
  | ended e =>
    refine .head (.pass uri task.rest file e l.desk rfl hp hs) ?_
    exact goOn_strides { s with linter := l } k task uri e
  | waiting n a =>
    have : Stride (s.face (uri :: task.rest)) _ := .wait ⟨k, task, uri, n⟩ file a l.desk rfl hp hs
    refine .single ?_
    rwa [face_suspend]

/-! ## Messages -/

theorem touch_strides (k : Nat) (uri : LooseText) :
    ReflTransGen Stride (s.face.receive k (.opened uri)) (s.touch k uri).face := by
  unfold touch Face.receive; dsimp only
  split
  · rename_i e hp
    exact .single (.abandon uri [] e rfl hp)
  · rename_i hp
    exact .single (.skip uri [] rfl hp)
  · rename_i hp
    exact startTask_strides { s with documents := insertDocument uri s.documents } k .document hp

theorem desk_clearAll (uris : List LooseText) : ∀ s : Session,
    s.clearAll uris = { s with linter := (s.clearAll uris).linter } ∧
      (s.clearAll uris).linter.desk = clearAway s.linter.desk uris := by
  induction uris with
  | nil =>
    intro s
    exact ⟨rfl, rfl⟩
  | cons uri uris ih =>
    intro s
    obtain ⟨h, hd⟩ := ih ((s.forget uri).publish uri [])
    exact ⟨h, hd.trans (congrArg (clearAway · uris) (Lint.Linter.desk_publish (s.linter.forget uri) uri []))⟩

theorem face_adopt (new : Settings) (ahead : List LooseText) :
    (s.adopt new).face ahead = { s.face ahead with settings := new } := by
  unfold adopt
  dsimp only
  split
  · simp only [face, stopDaemon, Lint.Linter.desk_stopDaemon]
    rfl
  · rfl

theorem configure_strides (k : Nat) (payload : Json) :
    ReflTransGen Stride (s.face.receive k (.configured payload)) (s.configure k payload).face := by
  have nesting : s.face.conditions.nesting = s.conditions.nesting := rfl
  unfold configure Face.receive; dsimp only
  rw [nesting]
  cases Settings.ofJson s.conditions.nesting payload with
  | error e => exact .refl
  | ok new =>
    dsimp only
    have docs : (s.adopt new).conditions.order k (s.adopt new).documents = s.face.inOrder k :=
      congrArg (Face.inOrder · k) (s.face_adopt new [])
    have desk : (s.adopt new).linter.desk = s.linter.desk := congrArg Face.desk (s.face_adopt new [])
    cases hn : new.lintEnabled with
    | false =>
      obtain ⟨h, hd⟩ := desk_clearAll (s.face.inOrder k) (s.adopt new)
      have : ((s.adopt new).clearAll (s.face.inOrder k)).face = s.face.configure k new := by
        have := congrArg (fun f => { f with desk := clearAway s.linter.desk (s.face.inOrder k) }) (s.face_adopt new [])
        rw [h]
        simp only [Face.configure, hn, Bool.false_eq_true, if_false, false_and]
        rw [face, hd, desk]
        exact this
      simp only [Bool.not_false, if_true, docs, face_finish, this]
      exact .refl
    | true =>
      have (ahead : List LooseText) (h : ahead = if s.settings ≠ new then s.face.inOrder k else []) :
          s.face.configure k new = (s.adopt new).face ahead := by
        rw [s.face_adopt new ahead, h]
        simp only [Face.configure, hn, if_true, true_and]
        rfl
      simp only [Bool.not_true, Bool.false_eq_true, if_false, docs]
      split
      · rename_i ho
        rw [this (s.face.inOrder k) (if_pos ho).symm]
        exact relint_strides k (s.face.inOrder k) _
      · rename_i ho
        rw [this [] (if_neg ho).symm, face_finish]

theorem lintCommand_strides (k : Nat) (params : Json) :
    ReflTransGen Stride (s.face.receive k (.lint params)) (s.lintCommand k params).face := by
  unfold lintCommand Face.receive Message.named?; dsimp only
  generalize parameter "uri" params = given
  cases given with
  | str uri =>
    dsimp only
    cases hg : (Json.str uri).isGiven with
    | false => exact .refl
    | true =>
      simp only [Bool.not_true, Bool.false_eq_true, if_false, if_true, Option.toList_some]
      split
      · rename_i e hp
        exact .single (.abandon uri [] e rfl hp)
      · rename_i hp
        exact .single (.skip uri [] rfl hp)
      · rename_i hp
        exact startTask_strides s k .command hp
  | _ =>
    dsimp only
    split
    · exact .refl
    · split <;> exact .refl

theorem face_debugReport : s.debugReport.2.face = s.face := by
  have hp := Resolver.hides_effectivePath s.settings s.linter.resolver s.linter.world
  unfold debugReport; dsimp only
  split
  · rename_i e resolver world h
    rw [h] at hp
    exact congrArg (fun d => { s.face with desk := d }) (Lint.Linter.desk_of_hides hp)
  · rename_i path resolver world h
    rw [h] at hp
    have hd : Lint.Linter.desk { s.linter with resolver := resolver, world := world } = s.linter.desk :=
      Lint.Linter.desk_of_hides hp
    have hc := Lint.Linter.desk_command s.settings [] { s.linter with resolver := resolver, world := world }
    split <;> rename_i hl <;> rw [hl] at hc
    · exact congrArg (fun d => { s.face with desk := d }) (hc.trans hd)
    · exact congrArg (fun d => { s.face with desk := d }) (hc.trans hd)

theorem receive_strides (k : Nat) (m : Message) :
    ReflTransGen Stride (s.face.receive k m) (s.receive k m).face := by
  -- Only a message about documents or settings changes the face.
  have plain {t : Session} (h : t.face = s.face) : ReflTransGen Stride s.face t.face := h ▸ .refl
  cases m with
  | opened uri => exact touch_strides s k uri
  | saved uri => exact touch_strides s k uri
  | closed uri =>
    have : (s.closeDocument uri).face = s.face.receive k (.closed uri) :=
      congrArg (fun d => { s.face.receive k (.closed uri) with desk := d })
        (Lint.Linter.desk_publish (s.linter.forget uri) uri [])
    exact this ▸ .refl
  | configured payload => exact configure_strides s k payload
  | lint params => exact lintCommand_strides s k params
  | stopDaemon => exact plain (congrArg (fun d => { s.face with desk := d }) s.linter.desk_stopDaemon)
  | debugStatus => exact plain s.face_debugReport
  | shutdown => exact plain (congrArg (fun d => { s.face with desk := d }) s.linter.desk_stopDaemon)
  | isCurrent uri n => exact .refl
  | release gate => exact plain (congrArg (fun j => { s.face with jobs := j }) (s.schedule.jobs_release gate))
  | exit pid code => exact .refl
  | exitHook => exact plain (congrArg (fun d => { s.face with desk := d }) s.linter.desk_runExitHook)
  | setFolders folders => exact .refl
  | setDisk disk => exact .refl

/-! ## Turns -/

theorem face_advance {w : Waiting} (h : ∀ output, (s.linter.proceed w.arrival).1 ≠ .output output) :
    (s.advance w).face = { s.face with jobs := w.job ::ₘ s.schedule.jobs } := by
  have hd := Lint.Linter.desk_proceed w.arrival s.linter
  unfold advance
  rcases hp : s.linter.proceed w.arrival with ⟨progress, l⟩
  rw [hp] at h hd
  simp only at hd
  cases progress with
  | operate o =>
    dsimp only
    split <;> simp only [face, Lint.Linter.desk_handOver, hd, Schedule.jobs_push, Schedule.jobs_freeDaemon,
      Turn.job]
  | pause a => simp only [face, hd, Schedule.jobs_push, Turn.job]
  | output output => exact absurd rfl (h output)

theorem advance_strides {w : Waiting} {output : Except Fault String}
    (h : (s.linter.proceed w.arrival).1 = .output output) :
    ∃ e shown, EndsAs s.linter.notifies w.job.uri (s.linter.ledger.isCurrent w.job.uri w.job.sequence)
        (output.bind Lint.Linter.diagnosticsOf) e shown ∧
      ReflTransGen Stride
        { s.face w.job.task.rest with
          desk := (s.linter.desk.display shown).display (afterwards w.job.uri e) }
        (s.advance w).face := by
  have hd := Lint.Linter.desk_proceed w.arrival s.linter
  unfold advance
  rcases hp : s.linter.proceed w.arrival with ⟨progress, l⟩
  rw [hp] at h hd
  cases h
  dsimp only at hd ⊢
  obtain ⟨shown, he, hc⟩ := l.conclude_ends w.job.uri w.job.sequence output
  have hl : l.ledger = s.linter.ledger := congrArg Desk.ledger hd
  have hn : l.notifies = s.linter.notifies := congrArg Desk.notifies hd
  rw [hl, hn] at he
  rw [hd] at hc
  refine ⟨_, shown, he, ?_⟩
  generalize hs : (if w.arrival.ownsDaemon then s.schedule.freeDaemon else s.schedule) = schedule
  have hj : schedule.jobs = s.schedule.jobs := by
    subst hs
    split
    · exact s.schedule.jobs_freeDaemon
    · rfl
  have := goOn_strides (conclude { s with linter := l, schedule := schedule } w.job.uri w.job.sequence output).2
    w.job.step w.job.task w.job.uri (l.conclude w.job.uri w.job.sequence output).1
  simp only [conclude, face, hc, hj] at this
  exact this

theorem play_strides (m : Move) : ∃ f, Begins s m f ∧ ReflTransGen Stride f (s.play m).face := by
  cases m with
  | receive k m => exact ⟨_, .receive k m, receive_strides s k m⟩
  | report => exact ⟨_, .report, .refl⟩
  | outside world => exact ⟨_, .outside world, .refl⟩
  | turn i =>
    unfold play; dsimp only
    cases ht : s.schedule.ready[i]? with
    | none => exact ⟨_, .turn i (by simp only [ending?, ht]), .refl⟩
    | some t =>
      have hj : s.schedule.jobs = t.job ::ₘ (s.withoutTurn i).schedule.jobs := Schedule.jobs_eraseIdx ht
      have plain (h : s.ending? i = none) (hf : ((s.withoutTurn i).take t).face =
          { (s.withoutTurn i).face with jobs := t.job ::ₘ (s.withoutTurn i).schedule.jobs }) :
          ∃ f, Begins s (.turn i) f ∧ ReflTransGen Stride f ((s.withoutTurn i).take t).face := by
        refine ⟨_, .turn i h, ?_⟩
        rw [hf, ← hj]
        exact .refl
      cases t with
      | operate job o =>
        refine plain (by simp only [ending?, ht]) ?_
        simp only [take, face, Lint.Linter.desk_operate, Schedule.jobs_park, Turn.job]
      | goOn w delay =>
        cases delay with
        | succ delay =>
          refine plain (by simp only [ending?, ht]) ?_
          simp only [take, face, reschedule, Schedule.jobs_push, Turn.job]
        | zero =>
          cases hp : (s.linter.proceed w.arrival).1 with
          | operate o =>
            refine plain (by simp only [ending?, ht, hp]) (face_advance _ fun output h => ?_)
            cases hp.symm.trans h
          | pause a =>
            refine plain (by simp only [ending?, ht, hp]) (face_advance _ fun output h => ?_)
            cases hp.symm.trans h
          | output output =>
            obtain ⟨e, shown, he, h⟩ := advance_strides (s.withoutTurn i) hp
            exact ⟨_, .ending i w.job _ e shown _ (by simp only [ending?, ht, hp]) hj he, h⟩

end

theorem strides_keep {P : Face → Prop} (stride : ∀ f g, Stride f g → P f → P g) {f g : Face}
    (hs : ReflTransGen Stride f g) (h : P f) : P g := by
  induction hs with
  | refl => exact h
  | tail _ hg ih => exact stride _ _ hg ih

/-- What every beginning and every stride keep, a move keeps. -/
theorem play_keeps {P : Face → Prop} {s : Session} {m : Move} (begins : ∀ f, Begins s m f → P s.face → P f)
    (stride : ∀ f g, Stride f g → P f → P g) (h : P s.face) : P (s.play m).face := by
  obtain ⟨f, hb, hs⟩ := s.play_strides m
  exact strides_keep stride hs (begins f hb h)

end LintServer.Session
