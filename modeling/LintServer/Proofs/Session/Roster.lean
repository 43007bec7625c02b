import LintServer.Proofs.Session.Strides

/-!
# What a step starts

The passes that were started make a roster. A step that lints documents one
after the other starts passes over those it can lint, in their order, until a
pass waits; then the job that waits has the others left (`Works`). So it is while
lint is enabled and the folders can be read (`receive_works`, `advance_works`);
otherwise a step starts nothing and waits for nothing (`idle_of_strides`).
-/

namespace LintServer

/-- The documents of the passes that were started, the first first. A pass that is asked for while
lint is disabled is not started. -/
def Lint.Desk.started (d : Desk) : List LooseText :=
  ((d.calls.filter (·.2.lintEnabled)).map (·.1)).reverse

namespace Lint.Desk

theorem started_of_calls {d d' : Desk} (h : d'.calls = d.calls) : d'.started = d.started := by
  rw [started, h, started]

theorem started_number (d : Desk) (uri : LooseText) {s : Settings} (hs : s.lintEnabled = true) :
    (d.number uri s).started = d.started ++ [uri] := by
  have calls : (d.number uri s).calls = (uri, s) :: d.calls := rfl
  simp only [started, calls, List.filter_cons, hs, if_true, List.map_cons, List.reverse_cons]

theorem started_clear (d : Desk) (uri : LooseText) {s : Settings} (hs : s.lintEnabled = false) :
    (d.clear uri s).started = d.started := by
  have calls : (d.clear uri s).calls = (uri, s) :: d.calls := rfl
  simp only [started, calls, List.filter_cons, hs, Bool.false_eq_true, if_false]

end Lint.Desk

namespace Session

open Lint (Desk PassEnd Started)
open Relation (ReflTransGen)

def roster (s : Session) : List LooseText := s.linter.desk.started

/-- Lint is enabled and the folders can be read. -/
def Serving (s : Session) : Prop := s.settings.lintEnabled = true ∧ (Workspace.paths s.folders).isOk = true

instance (s : Session) : Decidable s.Serving := inferInstanceAs (Decidable (_ = true ∧ _ = true))

def Face.Serving (f : Face) : Prop := f.settings.lintEnabled = true ∧ (Workspace.paths f.folders).isOk = true

/-- The documents that a loop lints: those with a local path before the first that cannot be read. -/
def lintable : List LooseText → List LooseText
  | [] => []
  | uri :: rest =>
    match Uri.toPath? uri with
    | .error _ => []
    | .ok none => lintable rest
    | .ok (some _) => uri :: lintable rest

theorem lintable_of_local {uri : LooseText} {file : Path} (hp : Uri.toPath? uri = .ok (some file))
    (rest : List LooseText) : lintable (uri :: rest) = [uri] ++ lintable rest := by
  rw [lintable, hp]
  rfl

theorem mem_of_lintable {uri : LooseText} {docs : List LooseText} : uri ∈ lintable docs → uri ∈ docs := by
  induction docs with
  | nil => exact id
  | cons v rest ih =>
    unfold lintable
    split
    · exact fun h => absurd h List.not_mem_nil
    · exact fun h => List.mem_cons_of_mem v (ih h)
    · intro h
      rcases List.mem_cons.1 h with rfl | h
      · exact List.mem_cons_self
      · exact List.mem_cons_of_mem v (ih h)

theorem legible_of_ok {uri : LooseText} {file? : Option Path} (hp : Uri.toPath? uri = .ok file?) :
    ∀ v ∈ [uri], (Uri.toPath? v).isOk = true := by
  intro v hv
  rw [List.mem_singleton.1 hv, hp]
  rfl

theorem lintable_append {first : List LooseText} (h : ∀ uri ∈ first, (Uri.toPath? uri).isOk = true)
    (rest : List LooseText) : lintable (first ++ rest) = lintable first ++ lintable rest := by
  induction first with
  | nil => rfl
  | cons uri first ih =>
    obtain ⟨hu, hf⟩ := List.forall_mem_cons.1 h
    rw [List.cons_append, lintable, lintable.eq_2, ih hf]
    cases hp : Uri.toPath? uri with
    | error e =>
      rw [hp] at hu
      cases hu
    | ok file? => cases file? <;> rfl

/-- What a step does that lints these documents one after the other: it starts passes over all
that it can lint, or over those among the first until one waits. -/
inductive Works (k : Nat) (docs : List LooseText) (s t : Session) : Prop
  | ends (jobs : t.schedule.jobs = s.schedule.jobs) (roster : t.roster = s.roster ++ lintable docs)
  | waits (job : Job) (first : List LooseText) (step : job.step = k)
      (jobs : t.schedule.jobs = job ::ₘ s.schedule.jobs) (split : docs = first ++ job.task.rest)
      (legible : ∀ uri ∈ first, (Uri.toPath? uri).isOk = true) (roster : t.roster = s.roster ++ lintable first)

theorem roster_of_desk {s t : Session} (h : t.linter.desk.calls = s.linter.desk.calls) : t.roster = s.roster :=
  Desk.started_of_calls h

namespace Works
variable {k : Nat} {docs rest : List LooseText} {s t u : Session}

theorem after (h : Works k rest u t) (jobs : u.schedule.jobs = s.schedule.jobs) (first : List LooseText)
    (hd : docs = first ++ rest) (legible : ∀ uri ∈ first, (Uri.toPath? uri).isOk = true) (roster : u.roster = s.roster ++ lintable first) :
    Works k docs s t := by
  subst hd
  cases h with
  | ends hj hr => exact .ends (hj.trans jobs) (by rw [hr, roster, lintable_append legible, List.append_assoc])
  | waits job more step hj split hl hr =>
    have both : ∀ uri ∈ first ++ more, (Uri.toPath? uri).isOk = true :=
      fun uri hu => (List.mem_append.1 hu).elim (legible uri) (hl uri)
    exact .waits job (first ++ more) step (jobs ▸ hj) (by rw [split, List.append_assoc]) both
      (by rw [hr, roster, lintable_append legible, List.append_assoc])

theorem of_same (h : Works k docs u t) (jobs : u.schedule.jobs = s.schedule.jobs) (roster : u.roster = s.roster) :
    Works k docs s t :=
  h.after jobs [] rfl (fun _ hv => absurd hv List.not_mem_nil) (roster.trans (List.append_nil _).symm)

theorem of_local {uri : LooseText} {file : Path} (hp : Uri.toPath? uri = .ok (some file)) (h : Works k rest u t)
    (jobs : u.schedule.jobs = s.schedule.jobs) (roster : u.roster = s.roster ++ [uri]) :
    Works k (uri :: rest) s t := by
  refine h.after jobs [uri] rfl (legible_of_ok hp) ?_
  rw [lintable_of_local hp, lintable, List.append_nil, roster]

theorem none (jobs : t.schedule.jobs = s.schedule.jobs) (roster : t.roster = s.roster) (hl : lintable docs = []) :
    Works k docs s t :=
  .ends jobs (by rw [roster, hl, List.append_nil])

end Works

namespace StartsAs
variable {settings : Settings} {folders : List Json} {uri : LooseText} {d d' : Desk} {started : Started}

theorem started_of_serving (h : StartsAs settings folders uri d started d') (hs : settings.lintEnabled = true)
    (hw : (Workspace.paths folders).isOk = true) : d'.started = d.started ++ [uri] := by
  cases h with
  | astray e he =>
    rw [he] at hw
    cases hw
  | clear hn => cases hn.symm.trans hs
  | finish => exact d.started_number uri hs
  | wait => exact d.started_number uri hs

theorem started_of_idle (h : StartsAs settings folders uri d started d')
    (hn : ¬ (settings.lintEnabled = true ∧ (Workspace.paths folders).isOk = true)) :
    d'.started = d.started ∧ ∃ e, started = .ended e := by
  cases h with
  | astray e he => exact ⟨rfl, _, rfl⟩
  | clear hs => exact ⟨d.started_clear uri hs, _, rfl⟩
  | finish outcome e shown hs he hw => exact absurd ⟨hs, hw⟩ hn
  | wait a hs hw => exact absurd ⟨hs, hw⟩ hn

end StartsAs

theorem idle_of_strides {f g : Face} (hn : ¬ f.Serving) (h : ReflTransGen Stride f g) :
    g.jobs = f.jobs ∧ g.desk.started = f.desk.started := by
  refine (strides_keep (P := fun x => ¬ x.Serving ∧ x.jobs = f.jobs ∧ x.desk.started = f.desk.started)
    ?_ h ⟨hn, rfl, rfl⟩).2
  rintro x y hxy ⟨hn, jobs, started⟩
  cases hxy with
  | skip uri rest h hp => exact ⟨hn, jobs, started⟩
  | abandon uri rest e h hp => exact ⟨hn, jobs, started⟩
  | pass uri rest file e d h hp hs => exact ⟨hn, jobs, (hs.started_of_idle hn).1.trans started⟩
  | wait job file a d h hp hs =>
    obtain ⟨-, e, he⟩ := hs.started_of_idle hn
    cases he

theorem calls_clearAway (uris : List LooseText) : ∀ d : Desk, (clearAway d uris).calls = d.calls := by
  induction uris with
  | nil =>
    intro d
    rfl
  | cons uri uris ih =>
    intro d
    exact ih ((d.mark (.forget uri)).display [.publish uri []])

theorem roster_clearAfter (s : Session) (uri : LooseText) (e : PassEnd) : (s.clearAfter uri e).roster = s.roster :=
  roster_of_desk (congrArg (fun f => f.desk.calls) (s.face_clearAfter uri e []))

section
variable {s : Session}

theorem roster_startPass (hs : s.Serving) (uri : LooseText) (file : Path) :
    ∃ l, (s.startPass uri file).2 = { s with linter := l } ∧
      roster { s with linter := l } = s.roster ++ [uri] := by
  obtain ⟨l, hl, h⟩ := s.startPass_starts uri file
  exact ⟨l, hl, h.started_of_serving hs.1 hs.2⟩

theorem suspend_works {u : Session} (job : Job) {file : Path} (hp : Uri.toPath? job.uri = .ok (some file))
    (jobs : u.schedule.jobs = s.schedule.jobs) (roster : u.roster = s.roster ++ [job.uri]) (a : Lint.Arrival) :
    Works job.step (job.uri :: job.task.rest) s (u.suspend job a) := by
  have hf := u.face_suspend job a []
  refine .waits job [job.uri] rfl ?_ rfl (legible_of_ok hp) ?_
  · exact (congrArg Face.jobs hf).trans (congrArg (job ::ₘ ·) jobs)
  · rw [lintable_of_local hp, lintable, List.append_nil, ← roster]
    exact roster_of_desk (congrArg (fun f => f.desk.calls) hf)

theorem relint_works (hs : s.Serving) (k : Nat) (docs : List LooseText) : Works k docs s (s.relint k docs) := by
  induction docs generalizing s with
  | nil => exact .none rfl rfl rfl
  | cons uri rest ih =>
    unfold relint
    split
    · rename_i e hp
      exact .none rfl rfl (by rw [lintable, hp])
    · rename_i hp
      refine (ih hs).after rfl [uri] rfl (legible_of_ok hp) ?_
      rw [lintable, hp, lintable, List.append_nil]
    · rename_i file hp
      obtain ⟨l, hl, hr⟩ := roster_startPass hs uri file
      rcases hst : s.startPass uri file with ⟨started, t⟩
      rw [hst] at hl
      cases hl
      cases started with
      | ended e =>
        refine .of_local hp (ih (s := clearAfter { s with linter := l } uri e) ?_) ?_ ?_
        · cases e <;> exact hs
        · exact congrArg Schedule.jobs (schedule_clearAfter { s with linter := l } uri e)
        · exact (roster_clearAfter _ _ _).trans hr
      | waiting n a =>
        exact suspend_works (s := s) (u := { s with linter := l }) ⟨k, .relint rest, uri, n⟩ hp rfl hr a

theorem goOn_works (hs : s.Serving) (k : Nat) (task : Task) (uri : LooseText) (e : PassEnd) :
    Works k task.rest s (s.goOn k task uri e) := by
  have jobs : (s.clearAfter uri e).schedule.jobs = s.schedule.jobs := congrArg _ (s.schedule_clearAfter uri e)
  have roster := s.roster_clearAfter uri e
  cases task with
  | document => exact .none jobs roster rfl
  | command => exact .none jobs roster rfl
  | relint rest =>
    refine (relint_works (s := s.clearAfter uri e) ?_ k rest).of_same jobs roster
    cases e <;> exact hs

theorem startTask_works (hs : s.Serving) (k : Nat) (task : Task) {uri : LooseText} {file : Path}
    (hp : Uri.toPath? uri = .ok (some file)) : Works k (uri :: task.rest) s (s.startTask k task uri file) := by
  unfold startTask
  obtain ⟨l, hl, hr⟩ := roster_startPass hs uri file
  rcases hst : s.startPass uri file with ⟨started, t⟩
  rw [hst] at hl
  cases hl
  cases started with
  | ended e => exact .of_local hp (goOn_works (s := { s with linter := l }) hs k task uri e) rfl hr
  | waiting n a => exact suspend_works (s := s) (u := { s with linter := l }) ⟨k, task, uri, n⟩ hp rfl hr a

/-! ## Messages and turns -/

theorem touch_works (hs : s.Serving) (k : Nat) (uri : LooseText) : Works k [uri] s (s.touch k uri) := by
  unfold touch; dsimp only
  split
  · rename_i e hp
    exact .none rfl rfl (by rw [lintable, hp])
  · rename_i hp
    exact .none rfl rfl (by rw [lintable, hp]; rfl)
  · rename_i hp
    exact (startTask_works (s := { s with documents := insertDocument uri s.documents }) hs k .document hp).of_same
      rfl rfl

theorem configure_works (k : Nat) (payload : Json) (hs : (s.face.receive k (.configured payload)).Serving) :
    Works k (s.face.receive k (.configured payload)).ahead s (s.configure k payload) := by
  unfold configure
  cases hp : Settings.ofJson s.conditions.nesting payload with
  | error e =>
    rw [s.face.receive_of_unread k hp]
    exact .none rfl rfl rfl
  | ok new =>
    rw [s.face.receive_of_read k hp] at hs ⊢
    have adopted := s.face_adopt new []
    have jobs : (s.adopt new).schedule.jobs = s.schedule.jobs := congrArg Face.jobs adopted
    have docs : (s.adopt new).conditions.order k (s.adopt new).documents = s.face.inOrder k :=
      congrArg (Face.inOrder · k) adopted
    have serving : (s.adopt new).Serving := (congrArg Face.Serving adopted).mpr hs
    have roster : (s.adopt new).roster = s.roster := roster_of_desk (congrArg (fun f => f.desk.calls) adopted)
    have enabled : new.lintEnabled = true := hs.1
    have settings : s.face.settings = s.settings := rfl
    simp only [enabled, Bool.not_true, Bool.false_eq_true, if_false, docs, Face.configure, true_and, settings]
    by_cases changed : s.settings = new
    · rw [if_neg (not_not.2 changed), if_neg (not_not.2 changed)]
      exact .none jobs roster rfl
    · rw [if_pos changed, if_pos changed]
      exact (relint_works serving k (s.face.inOrder k)).of_same jobs roster

theorem lintCommand_works (hs : s.Serving) (k : Nat) (params : Json) :
    Works k (s.face.receive k (.lint params)).ahead s (s.lintCommand k params) := by
  unfold lintCommand Face.receive Message.named?; dsimp only
  generalize parameter "uri" params = given
  cases given with
  | str uri =>
    dsimp only
    cases hg : (Json.str uri).isGiven with
    | false => exact .none rfl rfl rfl
    | true =>
      simp only [Bool.not_true, Bool.false_eq_true, if_false, if_true, Option.toList_some]
      split
      · rename_i e hp
        exact .none rfl rfl (by rw [lintable, hp])
      · rename_i hp
        exact .none rfl rfl (by rw [lintable, hp]; rfl)
      · rename_i hp
        exact startTask_works hs k .command hp
  | _ =>
    dsimp only
    split
    · exact .none rfl rfl rfl
    · split <;> exact .none rfl rfl rfl

theorem receive_works (k : Nat) (m : Message) (hs : (s.face.receive k m).Serving) :
    Works k (s.face.receive k m).ahead s (s.receive k m) := by
  have plain {t : Session} (h : t.face = s.face) : Works k [] s t :=
    .none (congrArg Face.jobs h) (roster_of_desk (congrArg (fun f => f.desk.calls) h)) rfl
  cases m with
  | opened uri => exact touch_works hs k uri
  | saved uri => exact touch_works hs k uri
  | closed uri =>
    have desk := Lint.Linter.desk_publish (s.linter.forget uri) uri []
    exact .none rfl (roster_of_desk (t := s.closeDocument uri) (congrArg (fun d => d.calls) desk)) rfl
  | configured payload => exact configure_works k payload hs
  | lint params => exact lintCommand_works hs k params
  | stopDaemon => exact plain (congrArg (fun d => { s.face with desk := d }) s.linter.desk_stopDaemon)
  | debugStatus => exact plain s.face_debugReport
  | shutdown => exact plain (congrArg (fun d => { s.face with desk := d }) s.linter.desk_stopDaemon)
  | isCurrent uri n => exact plain rfl
  | release gate => exact plain (congrArg (fun j => { s.face with jobs := j }) (s.schedule.jobs_release gate))
  | exit pid code => exact plain rfl
  | exitHook => exact plain (congrArg (fun d => { s.face with desk := d }) s.linter.desk_runExitHook)
  | setFolders folders => exact .none rfl rfl rfl
  | setDisk disk => exact plain rfl

theorem advance_works (hs : s.Serving) {w : Waiting} {output : Except Fault String}
    (h : (s.linter.proceed w.arrival).1 = .output output) :
    Works w.job.step w.job.task.rest s (s.advance w) := by
  have hd := Lint.Linter.desk_proceed w.arrival s.linter
  unfold advance
  rcases hp : s.linter.proceed w.arrival with ⟨progress, l⟩
  rw [hp] at h hd
  cases h
  dsimp only at hd ⊢
  generalize hf : (if w.arrival.ownsDaemon then s.schedule.freeDaemon else s.schedule) = schedule
  have jobs : schedule.jobs = s.schedule.jobs := by
    subst hf
    split
    · exact s.schedule.jobs_freeDaemon
    · rfl
  obtain ⟨shown, -, hc⟩ := l.conclude_ends w.job.uri w.job.sequence output
  have calls : (l.conclude w.job.uri w.job.sequence output).2.desk.calls = s.linter.desk.calls := by
    rw [hc, hd]
    rfl
  let t := (conclude { s with linter := l, schedule := schedule } w.job.uri w.job.sequence output).2
  exact (goOn_works (s := t) hs w.job.step w.job.task w.job.uri _).of_same jobs (roster_of_desk (t := t) calls)

end

end Session

end LintServer
