import LintServer.Proofs.Session.Order
import LintServer.Proofs.Session.Reach
import Mathlib.Data.List.Infix

/-!
# Documents that are hushed

A document is hushed if no pass over it is current and the list published for it
last, if any, is empty. While lint is disabled every open document is hushed, or
a pass over it is next that clears it (`Face.Quiet`). What becomes of the passes
that still wait does not change this.
-/

namespace LintServer.Session

open Lint (Desk Ledger PassEnd Sheet Started publications)
open Relation (ReflTransGen)

theorem hushed_clearAway {uri : LooseText} {uris : List LooseText} (hu : uri ∈ uris) :
    ∀ d : Desk, ((clearAway d uris).sheet uri).Hushed := by
  induction uris with
  | nil => cases hu
  | cons v uris ih =>
    intro d
    rcases List.mem_cons.1 hu with rfl | hu
    · exact (d.hushed_forget uri).fades (sheet_clearAway uri uris _)
    · exact ih hu _

/-! ## Passes under disabled lint -/

namespace StartsAs
variable {settings : Settings} {folders : List Json} {uri v : LooseText} {d d' : Desk} {started : Started}

theorem blanks (h : StartsAs settings folders v d started d') (hs : settings.lintEnabled = false) :
    (d.sheet uri).Blanks (d'.sheet uri) := by
  by_cases hv : v = uri
  · subst hv
    cases h with
    | astray e hp => exact .refl _
    | clear _ hw =>
      refine ⟨[[]], ?_, by simp⟩
      rw [Desk.clear, Desk.sheet_display, Lint.publications_self]
      rfl
    | finish outcome e shown he => rw [hs] at he; cases he
    | wait a he => rw [hs] at he; cases he
  · rw [h.sheet_of_ne hv]
    exact .refl _

theorem hushed (h : StartsAs settings folders v d started d')
    (hs : v = uri → (Workspace.paths folders).isOk = true → settings.lintEnabled = false)
    (hd : (d.sheet uri).Hushed ∨ v = uri ∧ (Workspace.paths folders).isOk = true) :
    (d'.sheet uri).Hushed := by
  by_cases hv : v = uri
  · subst hv
    cases h with
    | astray e hp =>
      refine hd.resolve_right ?_
      rintro ⟨-, hw⟩
      rw [hp] at hw
      cases hw
    | clear _ hw => exact (d.call v settings).hushed_forget v
    | finish outcome e shown he _ hw => rw [hs rfl hw] at he; cases he
    | wait a he hw => rw [hs rfl hw] at he; cases he
  · rw [h.sheet_of_ne hv]
    exact hd.resolve_right fun e => hv e.1

end StartsAs

/-- A pass over the document can be started: it has a local path, and the folders can be read. -/
def Face.Startable (f : Face) (uri : LooseText) : Prop :=
  (Workspace.paths f.folders).isOk = true ∧ ∃ file, Uri.toPath? uri = .ok (some file)

/-- Where no pass is to be started a document is hushed, but for one that is next to be cleared. -/
structure Face.Quiet (f : Face) : Prop where
  unstartable : ∀ uri, ¬ f.Startable uri → (f.desk.sheet uri).Hushed
  disabled : f.settings.lintEnabled = false → ∀ uri ∈ f.documents,
    (f.desk.sheet uri).Hushed ∨ f.ahead = [uri]

theorem Face.Quiet.hushed {s : Session} {uri : LooseText} (hq : s.face.Quiet) (hs : s.settings.lintEnabled = false)
    (hu : uri ∈ s.documents) : (s.linter.desk.sheet uri).Hushed := by
  refine (hq.disabled hs uri hu).resolve_right fun ha => ?_
  cases ha

namespace Stride
variable {f g : Face} {uri : LooseText}

theorem startable (h : Stride f g) : g.Startable uri ↔ f.Startable uri := by
  unfold Face.Startable
  rw [h.kept.2.2]

theorem blanks (h : Stride f g) (hs : f.settings.lintEnabled = false) :
    (f.desk.sheet uri).Blanks (g.desk.sheet uri) := by
  cases h with
  | skip v rest h hp => exact .refl _
  | abandon v rest e h hp => exact .refl _
  | pass v rest file e d h hp hst =>
    exact (hst.blanks hs).trans (d.fades_display (publications_afterwards v uri e)).published
  | wait job file a d h hp hst => exact hst.blanks hs

theorem hushed (h : Stride f g) (hs : f.Startable uri → f.settings.lintEnabled = false)
    (hd : (f.desk.sheet uri).Hushed ∨ f.Startable uri ∧ f.ahead.head? = some uri) :
    (g.desk.sheet uri).Hushed := by
  -- A document that is not linted is not the one to be cleared.
  have passed {v : LooseText} {rest : List LooseText} (h : f.ahead = v :: rest)
      (hp : ¬ ∃ file, Uri.toPath? v = .ok (some file)) : (f.desk.sheet uri).Hushed := by
    refine hd.resolve_right ?_
    rintro ⟨⟨-, hu⟩, ha⟩
    rw [h] at ha
    cases ha
    exact hp hu
  have linted {v : LooseText} {rest : List LooseText} {file : Path} {started : Started} {d : Desk}
      (h : f.ahead = v :: rest) (hp : Uri.toPath? v = .ok (some file))
      (hst : StartsAs f.settings f.folders v f.desk started d) : (d.sheet uri).Hushed := by
    refine hst.hushed (fun e hw => hs ⟨hw, file, e ▸ hp⟩) (hd.imp_right ?_)
    rintro ⟨hu, ha⟩
    rw [h] at ha
    exact ⟨Option.some.inj ha, hu.1⟩
  cases h with
  | skip v rest h hp => exact passed h (by simp [hp])
  | abandon v rest e h hp => exact passed h (by simp [hp])
  | pass v rest file e d h hp hst =>
    exact (linted h hp hst).fades (d.fades_display (publications_afterwards v uri e))
  | wait job file a d h hp hst => exact linted h hp hst

theorem quiet (h : Stride f g) (hq : f.Quiet) : g.Quiet := by
  obtain ⟨settings, docs, -⟩ := h.kept
  refine ⟨fun uri hu => ?_, fun hs uri hu => .inl ?_⟩
  · have hu : ¬ f.Startable uri := fun hf => hu (h.startable.2 hf)
    exact h.hushed (fun hf => absurd hf hu) (.inl (hq.unstartable uri hu))
  · rw [settings] at hs
    refine h.hushed (fun _ => hs) ?_
    by_cases hf : f.Startable uri
    · exact (hq.disabled hs uri (docs ▸ hu)).imp_right fun ha => ⟨hf, by rw [ha]; rfl⟩
    · exact .inl (hq.unstartable uri hf)

end Stride

/-! ## Moves -/

/-- Whether folders that a move brings can be read as before. -/
def Move.keepsReadable (readable : Bool) : Move → Bool
  | .receive _ (.setFolders folders) => (Workspace.paths folders).isOk == readable
  | _ => true

namespace Begins
variable {s : Session} {m : Move} {f : Face} {uri : LooseText}

theorem isOk_paths (h : Begins s m f) (hm : m.keepsReadable (Workspace.paths s.folders).isOk = true) :
    (Workspace.paths f.folders).isOk = (Workspace.paths s.folders).isOk := by
  cases h with
  | receive k m =>
    cases m with
    | setFolders others => exact beq_iff_eq.1 hm
    | configured payload =>
      simp only [Face.receive]
      split <;> rfl
    | _ => rfl
  | _ => rfl

theorem disabled (h : Begins s m f) (hq : s.face.Quiet) (hs : f.settings.lintEnabled = false)
    (hu : uri ∈ f.documents) : (f.desk.sheet uri).Hushed ∨ f.ahead = [uri] := by
  have quiet (hs : s.settings.lintEnabled = false) (hu : uri ∈ s.documents) : (f.desk.sheet uri).Hushed := by
    have hushed := hq.hushed hs hu
    exact hushed.fades (h.fades hushed.isCurrent)
  have touched {v : LooseText} (hs : s.settings.lintEnabled = false) (hu : uri ∈ insertDocument v s.documents) :
      (f.desk.sheet uri).Hushed ∨ [v] = [uri] := by
    rcases mem_insertDocument.1 hu with rfl | hu
    · exact .inr rfl
    · exact .inl (quiet hs hu)
  cases h with
  | receive k m =>
    cases m with
    | opened v => exact touched hs hu
    | saved v => exact touched hs hu
    | closed v => exact .inl (quiet hs (List.mem_of_mem_filter hu))
    | configured payload =>
      cases hp : Settings.ofJson s.conditions.nesting payload with
      | error e =>
        rw [s.face.receive_of_unread k hp] at quiet hs hu ⊢
        exact .inl (quiet hs hu)
      | ok new =>
        rw [s.face.receive_of_read k hp] at hs hu ⊢
        simp only [Face.configure] at hs hu ⊢
        simp only [hs, Bool.false_eq_true, if_false]
        exact .inl (hushed_clearAway ((s.face.mem_inOrder k).2 hu) _)
    | _ => exact .inl (quiet hs hu)
  | _ => exact .inl (quiet hs hu)

theorem quiet (h : Begins s m f) (hm : m.keepsReadable (Workspace.paths s.folders).isOk = true)
    (hq : s.face.Quiet) : f.Quiet := by
  refine ⟨fun uri hu => ?_, fun hs uri hu => h.disabled hq hs hu⟩
  have hu : ¬ s.face.Startable uri := by
    rintro ⟨hw, hp⟩
    exact hu ⟨(h.isOk_paths hm).trans hw, hp⟩
  have hushed := hq.unstartable uri hu
  exact hushed.fades (h.fades hushed.isCurrent)

theorem blanks (h : Begins s m f) (hq : s.face.Quiet) (hs : f.settings.lintEnabled = false)
    (hu : uri ∈ f.documents) : (s.linter.desk.sheet uri).Blanks (f.desk.sheet uri) := by
  cases h with
  | receive k m =>
    obtain ⟨uris, hd⟩ := s.face.desk_receive k m
    exact hd ▸ (sheet_clearAway uri uris s.linter.desk).published
  | ending i job outcome e shown left hi hj he =>
    -- The end of a turn changes neither settings nor documents, so the document was hushed before.
    have hushed := hq.hushed hs hu
    exact ((Begins.ending i job outcome e shown left hi hj he).fades hushed.isCurrent).published
  | _ => exact .refl _

end Begins

theorem blanks_strides {f g : Face} (h : ReflTransGen Stride f g) (hs : f.settings.lintEnabled = false)
    (uri : LooseText) : (f.desk.sheet uri).Blanks (g.desk.sheet uri) := by
  refine (strides_keep (P := fun x => x.settings.lintEnabled = false ∧ (f.desk.sheet uri).Blanks (x.desk.sheet uri))
    ?_ h ⟨hs, .refl _⟩).2
  rintro x y hxy ⟨hs, hb⟩
  exact ⟨hxy.kept.1 ▸ hs, hb.trans (hxy.blanks hs)⟩

theorem hushed_strides {f g : Face} {uri : LooseText} (h : ReflTransGen Stride f g)
    (hs : f.settings.lintEnabled = false) (hd : (f.desk.sheet uri).Hushed) : (g.desk.sheet uri).Hushed := by
  refine (strides_keep (P := fun x => x.settings.lintEnabled = false ∧ (x.desk.sheet uri).Hushed) ?_ h ⟨hs, hd⟩).2
  rintro x y hxy ⟨hs, hx⟩
  exact ⟨hxy.kept.1 ▸ hs, hxy.hushed (fun _ => hs) (.inl hx)⟩

section
variable {s : Session} {m : Move} {uri : LooseText}

theorem quiet_play (hm : m.keepsReadable (Workspace.paths s.folders).isOk = true) (hq : s.face.Quiet) :
    (s.play m).face.Quiet ∧
      (Workspace.paths (s.play m).folders).isOk = (Workspace.paths s.folders).isOk := by
  refine play_keeps (P := fun f => f.Quiet ∧
    (Workspace.paths f.folders).isOk = (Workspace.paths s.folders).isOk) ?_ ?_ ⟨hq, rfl⟩
  · rintro f hb ⟨hq, -⟩
    exact ⟨hb.quiet hm hq, hb.isOk_paths hm⟩
  · rintro f g hs ⟨hq, hf⟩
    exact ⟨hs.quiet hq, hs.kept.2.2 ▸ hf⟩

theorem staysClear_play (hq : s.face.Quiet) (hs : (s.play m).settings.lintEnabled = false)
    (hu : uri ∈ (s.play m).documents) : s.StaysClear (s.play m) uri := by
  obtain ⟨f, hb, hf⟩ := s.play_strides m
  obtain ⟨settings, docs, -⟩ := kept_of_strides hf
  have hs : f.settings.lintEnabled = false := settings ▸ hs
  exact (hb.blanks hq hs (docs ▸ hu)).trans (blanks_strides hf hs uri)

theorem hushed_play (hs : (s.play m).settings.lintEnabled = false) (hd : (s.linter.desk.sheet uri).Hushed) :
    ((s.play m).linter.desk.sheet uri).Hushed ∧ s.StaysClear (s.play m) uri := by
  obtain ⟨f, hb, hf⟩ := s.play_strides m
  have hs : f.settings.lintEnabled = false := (kept_of_strides hf).1 ▸ hs
  have fades := hb.fades hd.isCurrent
  exact ⟨hushed_strides hf hs (hd.fades fades), Sheet.Blanks.trans fades.published (blanks_strides hf hs uri)⟩

end

theorem staysClear_playAll {uri : LooseText} (ms : List Move) : ∀ {s : Session}, (s.linter.desk.sheet uri).Hushed →
    (∀ part, part <+: ms → (s.playAll part).settings.lintEnabled = false) → s.StaysClear (s.playAll ms) uri := by
  induction ms with
  | nil =>
    intro s hd hs
    exact Sheet.Blanks.refl _
  | cons m ms ih =>
    intro s hd hs
    obtain ⟨hushed, clear⟩ := hushed_play (hs [m] (by simp)) hd
    exact Sheet.Blanks.trans clear (ih hushed fun part hp => hs (m :: part) (by simpa using hp))

theorem quiet_opening (conditions : Conditions) (folders : List Json) (notifies : Bool) {world : World}
    (hw : world.log = []) : (opening conditions folders notifies world).face.Quiet := by
  refine ⟨fun uri _ => ⟨fun n => rfl, ?_⟩, fun _ uri hu => absurd hu List.not_mem_nil⟩
  have : ((opening conditions folders notifies world).linter.desk.sheet uri).published = [] := by
    simp [opening, Lint.Linter.desk, Desk.sheet, World.shown, hw, publications]
  intro ds hd
  simp [face, this] at hd

theorem quiet_playAll {ms : List Move} {s : Session} (hq : s.face.Quiet)
    (hm : ∀ m ∈ ms, m.keepsReadable (Workspace.paths s.folders).isOk = true) : (s.playAll ms).face.Quiet := by
  refine (playAll_keeps (P := fun t => t.face.Quiet ∧
    (Workspace.paths t.folders).isOk = (Workspace.paths s.folders).isOk) ?_ ⟨hq, rfl⟩).1
  rintro m hn t ⟨hq, ht⟩
  obtain ⟨quiet, folders⟩ := quiet_play (ht ▸ hm m hn) hq
  exact ⟨quiet, folders.trans ht⟩

/-- **Disabled lint.** Whatever happens in whatever order, in a session whose folders stay readable or
unreadable as they are: while lint is disabled, the last list published for an open document is empty,
the passes over it that still wait are no longer current, and neither the last move nor any moves
to come publish a finding for it. -/
theorem nothing_shown_while_disabled (conditions : Conditions) (folders : List Json) (notifies : Bool)
    (world : World) (moves : List Move) (hw : world.log = [])
    (hm : ∀ m ∈ moves, m.keepsReadable (Workspace.paths folders).isOk = true) :
    let start := opening conditions folders notifies world
    let s := start.playAll moves
    s.settings.lintEnabled = false → ∀ uri ∈ s.documents,
      (∀ ds ∈ (s.published uri).getLast?, ds = []) ∧
      (∀ job ∈ s.schedule.jobs, job.uri = uri → s.linter.ledger.isCurrent uri job.sequence = false) ∧
      (∀ before m, moves = before ++ [m] → (start.playAll before).StaysClear s uri) ∧
      ∀ more, (∀ part, part <+: more → (s.playAll part).settings.lintEnabled = false) →
        s.StaysClear (s.playAll more) uri := by
  intro start s hs uri hu
  have quiet (ms : List Move) (hn : ∀ m ∈ ms, m ∈ moves) : (start.playAll ms).face.Quiet :=
    quiet_playAll (quiet_opening conditions folders notifies hw) fun m h => hm m (hn m h)
  have hushed := (quiet moves fun m h => h).hushed hs hu
  refine ⟨hushed.published, fun job _ _ => hushed.isCurrent job.sequence, ?_,
    fun more => staysClear_playAll more hushed⟩
  rintro before m rfl
  have last : s = (start.playAll before).play m := playAll_append start before [m]
  rw [last] at hs hu ⊢
  exact staysClear_play (quiet before fun n h => List.mem_append_left [m] h) hs hu

/-- Lint is disabled while a command's pass over a document waits at a gate, and then the document is opened. -/
def disabling : List Move :=
  [.receive 0 (.lint (.obj [("uri", .str "file:///a")])),
    .receive 1 (.configured (.obj [("lint", .obj [("enabled", .bool false)])])), .receive 2 (.opened "file:///a")]

def disablingWorld : World where
  runs := [{ finding with gate := some "g" }]

theorem nothing_shown_after_disabling :
    let s := (opening default [] true disablingWorld).playAll disabling
    s.schedule.jobs ≠ 0 ∧ s.StaysClear (s.playAll [.receive 3 (.release "g"), .turn 0]) "file:///a" := by
  intro s
  refine ⟨by decide +kernel, ?_⟩
  have disabled : ∀ part ∈ List.inits [.receive 3 (.release "g"), .turn 0],
      (s.playAll part).settings.lintEnabled = false := by decide +kernel
  exact (nothing_shown_while_disabled default [] true disablingWorld disabling rfl (by decide +kernel) (by decide +kernel)
    "file:///a" (by decide +kernel)).2.2.2 _ fun part hp => disabled part ((List.mem_inits part _).2 hp)

/-- Where a pass fails for folders that cannot be read any more, an earlier one can still be current. -/
theorem shown_while_disabled_of_unreadable :
    let s := (opening default [] true disablingWorld).playAll
      [.receive 0 (.lint (.obj [("uri", .str "file:///a")])), .receive 1 (.setFolders [.str "file://[/"]),
        .receive 2 (.configured (.obj [("lint", .obj [("enabled", .bool false)])])), .receive 3 (.opened "file:///a"),
        .receive 4 (.release "g"), .turn 0]
    s.settings.lintEnabled = false ∧ s.documents = ["file:///a"] ∧ s.published "file:///a" = [[], [flaw]] := by
  decide +kernel

end LintServer.Session
