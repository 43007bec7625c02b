import LintServer.Proofs.Session.Order

/-!
# Convergence of settings

Settings change while loops over documents are under way, each with a list of
documents of its own. Every open document was last asked for with the settings
of the session or is still to come in some loop (`Face.Pursued`), so once no
loop is under way all of them were (`converged`).
-/

namespace LintServer.Session

open Lint (Desk Sheet)
open Relation (ReflTransGen)

/-- Every open document and every folder can be read as a path or as none. -/
def Legible (s : Session) : Prop :=
  (∀ uri ∈ s.documents, (Uri.toPath? uri).isOk = true) ∧ (Workspace.paths s.folders).isOk = true

instance (s : Session) : Decidable s.Legible :=
  inferInstanceAs (Decidable ((∀ uri ∈ s.documents, _ = true) ∧ _ = true))

/-- A session is legible before, between and after moves. -/
def LegibleThroughout (s : Session) : List Move → Prop
  | [] => s.Legible
  | m :: ms => s.Legible ∧ (s.play m).LegibleThroughout ms

instance decidableLegibleThroughout : ∀ (s : Session) (ms : List Move), Decidable (s.LegibleThroughout ms)
  | s, [] => inferInstanceAs (Decidable s.Legible)
  | s, m :: ms =>
    have := decidableLegibleThroughout (s.play m) ms
    inferInstanceAs (Decidable (s.Legible ∧ (s.play m).LegibleThroughout ms))

/-- The newest pass over a document has the current settings, or the document is still to come. -/
def Face.Pursued (f : Face) (uri : LooseText) : Prop :=
  (f.desk.sheet uri).calls.head? = some f.settings ∨ uri ∈ f.ahead ∨ ∃ job ∈ f.jobs, uri ∈ job.task.rest

structure Face.UpToDate (f : Face) : Prop where
  pursued : f.settings.lintEnabled = true → ∀ uri ∈ f.documents,
    ∀ file, Uri.toPath? uri = .ok (some file) → f.Pursued uri
  -- A document that cannot be read ends a loop early, so no loop may have one before others.
  ahead : f.ahead.length ≤ 1 ∨ ∀ uri ∈ f.ahead, (Uri.toPath? uri).isOk = true
  rest : ∀ job ∈ f.jobs, ∀ uri ∈ job.task.rest, (Uri.toPath? uri).isOk = true
  folders : (Workspace.paths f.folders).isOk = true

theorem legible_of_cons {uri : LooseText} {rest : List LooseText}
    (h : (uri :: rest).length ≤ 1 ∨ ∀ v ∈ uri :: rest, (Uri.toPath? v).isOk = true) :
    ∀ v ∈ rest, (Uri.toPath? v).isOk = true := by
  rcases h with h | h
  · cases rest with
    | nil =>
      intro v hv
      exact absurd hv List.not_mem_nil
    | cons v rest => simp at h
  · intro v hv
    exact h v (List.mem_cons_of_mem uri hv)

namespace Stride
variable {f g : Face} {uri : LooseText}

theorem pursued_of_ahead (h : Stride f g) (hf : f.UpToDate) {file : Path} (hl : Uri.toPath? uri = .ok (some file))
    (hu : uri ∈ f.ahead) : g.Pursued uri := by
  have asked {v : LooseText} {started : Lint.Started} {d : Desk}
      (hs : StartsAs f.settings f.folders v f.desk started d) : (d.sheet v).calls.head? = some f.settings := by
    rcases hs.asked with ⟨-, e, he⟩ | ⟨-, hc⟩
    · have := hf.folders
      rw [he] at this
      cases this
    · rw [hc]
      rfl
  cases h with
  | skip v rest h hp =>
    rcases List.mem_cons.1 (h ▸ hu) with rfl | hu
    · rw [hp] at hl
      cases hl
    · exact .inr (.inl hu)
  | abandon v rest e h hp =>
    have := hf.ahead
    rw [h] at hu this
    rcases List.mem_cons.1 hu with rfl | hu
    · rw [hp] at hl
      cases hl
    · rcases this with hn | hr
      · cases rest with
        | nil => cases hu
        | cons w rest => simp at hn
      · have := hr v List.mem_cons_self
        rw [hp] at this
        cases this
  | pass v rest file e d h hp hs =>
    rcases List.mem_cons.1 (h ▸ hu) with rfl | hu
    · refine .inl ?_
      rw [Desk.sheet_display]
      exact asked hs
    · exact .inr (.inl hu)
  | wait job file a d h hp hs =>
    rcases List.mem_cons.1 (h ▸ hu) with rfl | hu
    · exact .inl (asked hs)
    · exact .inr (.inr ⟨job, Multiset.mem_cons_self job f.jobs, hu⟩)

theorem upToDate (h : Stride f g) (hf : f.UpToDate) : g.UpToDate := by
  obtain ⟨settings, docs, folders⟩ := h.kept
  refine ⟨fun he uri hu file hl => ?_, ?_, fun job hj => ?_, folders ▸ hf.folders⟩
  · rcases hf.pursued (settings ▸ he) uri (docs ▸ hu) file hl with hc | ha | ⟨job, hj, hr⟩
    · rcases h.asked uri with hs | ⟨hs, -⟩
      · exact .inl (by rw [hs.calls, settings, hc])
      · exact .inl (by rw [hs, settings]; rfl)
    · exact h.pursued_of_ahead hf hl ha
    · exact .inr (.inr ⟨job, h.jobs_subset hj, hr⟩)
  · rcases hf.ahead with hn | hr
    · exact .inl (Nat.le_trans h.ahead_sublist.length_le hn)
    · exact .inr fun uri hu => hr uri (h.ahead_sublist.subset hu)
  · rcases h.mem_jobs hj with hj | ⟨ha, -⟩
    · exact hf.rest job hj
    · exact legible_of_cons (ha ▸ hf.ahead)

end Stride

namespace Begins
variable {s : Session} {m : Move} {f : Face}

theorem pursued_of_settings (hb : Begins s m f) (hs : f.settings = s.settings) {uri : LooseText}
    (h : s.face.Pursued uri) : f.Pursued uri := by
  have hc := hb.calls uri
  rcases h with h | h | ⟨k, hk, hr⟩
  · exact .inl (by rw [hc, hs]; exact h)
  · cases h
  · cases hb with
    | receive j m => exact .inr (.inr ⟨k, s.face.jobs_receive j m ▸ hk, hr⟩)
    | ending i job outcome e shown left hi hj he =>
      rcases Multiset.mem_cons.1 (show k ∈ job ::ₘ left from hj ▸ hk) with rfl | hk
      · exact .inr (.inl hr)
      · exact .inr (.inr ⟨k, hk, hr⟩)
    | _ => exact .inr (.inr ⟨k, hk, hr⟩)

theorem pursued_receive {k : Nat} {m : Message} (h : s.face.UpToDate)
    (he : (s.face.receive k m).settings.lintEnabled = true) {uri : LooseText}
    (hu : uri ∈ (s.face.receive k m).documents) {file : Path} (hl : Uri.toPath? uri = .ok (some file)) :
    (s.face.receive k m).Pursued uri := by
  have same (hs : (s.face.receive k m).settings = s.settings) (hd : uri ∈ s.documents) :
      (s.face.receive k m).Pursued uri :=
    (Begins.receive k m).pursued_of_settings hs
      (h.pursued (show s.settings.lintEnabled = true from hs ▸ he) uri hd file hl)
  cases m with
  | opened v =>
    rcases mem_insertDocument.1 hu with rfl | hu
    · exact .inr (.inl List.mem_cons_self)
    · exact same rfl hu
  | saved v =>
    rcases mem_insertDocument.1 hu with rfl | hu
    · exact .inr (.inl List.mem_cons_self)
    · exact same rfl hu
  | closed v => exact same rfl (List.mem_of_mem_filter hu)
  | configured payload =>
    cases hp : Settings.ofJson s.conditions.nesting payload with
    | error e =>
      rw [s.face.receive_of_unread k hp] at same hu ⊢
      exact same rfl hu
    | ok new =>
      rw [s.face.receive_of_read k hp] at same he hu ⊢
      by_cases ho : s.settings = new
      · exact same ho.symm hu
      · have : new.lintEnabled = true ∧ s.face.settings ≠ new := ⟨he, ho⟩
        have ha : (s.face.configure k new).ahead = s.face.inOrder k := if_pos this
        exact .inr (.inl (ha ▸ (s.face.mem_inOrder k).2 hu))
  | _ => exact same rfl hu

theorem upToDate (hb : Begins s m f) (h : s.face.UpToDate)
    (docs : ∀ uri ∈ s.documents, (Uri.toPath? uri).isOk = true)
    (folders : (Workspace.paths f.folders).isOk = true) : f.UpToDate := by
  cases hb with
  | receive k m =>
    have rest := s.face.jobs_receive k m ▸ h.rest
    refine ⟨fun he uri hu file hl => pursued_receive (k := k) h he hu hl, ?_, rest, folders⟩
    rcases s.ahead_receive k m with e | e <;> rw [e]
    · exact .inl (Option.length_toList_le)
    · exact .inr fun uri hu => docs uri ((s.face.mem_inOrder k).1 hu)
  | ending i job outcome e shown left hi hj he =>
    have mem : ∀ k ∈ left, k ∈ s.face.jobs := fun k hk =>
      (show k ∈ s.schedule.jobs from hj ▸ Multiset.mem_cons_of_mem hk)
    refine ⟨fun he' uri hu file hl => ?_, .inr ?_, fun k hk => h.rest k (mem k hk), folders⟩
    · have begins := Begins.ending i job outcome e shown left hi hj he
      exact begins.pursued_of_settings rfl (h.pursued he' uri hu file hl)
    · exact h.rest job (show job ∈ s.schedule.jobs from hj ▸ Multiset.mem_cons_self job left)
  | _ => exact h

end Begins

theorem upToDate_play {s : Session} {m : Move} (h : s.face.UpToDate) (hs : s.Legible) (hm : (s.play m).Legible) :
    (s.play m).face.UpToDate := by
  obtain ⟨f, hb, hf⟩ := s.play_strides m
  obtain ⟨-, -, folders⟩ := kept_of_strides hf
  exact strides_keep (fun _ _ hg h => hg.upToDate h) hf (hb.upToDate h hs.1 (folders ▸ hm.2))

theorem upToDate_playAll (ms : List Move) : ∀ {s : Session}, s.face.UpToDate → s.LegibleThroughout ms →
    (s.playAll ms).face.UpToDate := by
  induction ms with
  | nil =>
    intro s h hl
    exact h
  | cons m ms ih =>
    intro s h hl
    have hm : (s.play m).Legible := by
      cases ms with
      | nil => exact hl.2
      | cons _ _ => exact hl.2.1
    exact ih (upToDate_play h hl.1 hm) hl.2

/-- **Convergence.** In a session whose documents and folders can be read, whatever happens in whatever
order: while no loop over documents is under way and lint is enabled, the newest pass over every
open document with a local path was asked for with the current settings. -/
theorem converged (conditions : Conditions) (folders : List Json) (notifies : Bool) (world : World)
    (moves : List Move) (hl : (opening conditions folders notifies world).LegibleThroughout moves) :
    let s := (opening conditions folders notifies world).playAll moves
    s.settings.lintEnabled = true → (∀ job ∈ s.schedule.jobs, ∀ rest, job.task ≠ .relint rest) →
    ∀ uri ∈ s.documents, ∀ file, Uri.toPath? uri = .ok (some file) →
      (s.callsFor uri).head? = some s.settings := by
  intro s he hj uri hu file hp
  have opened : (opening conditions folders notifies world).face.UpToDate := by
    have legible : (opening conditions folders notifies world).Legible := by
      cases moves with
      | nil => exact hl
      | cons _ _ => exact hl.1
    refine ⟨fun _ v hv => absurd hv List.not_mem_nil, .inl (Nat.zero_le 1), fun job hj => ?_, legible.2⟩
    exact absurd hj (Multiset.notMem_zero job)
  rcases (upToDate_playAll moves opened hl).pursued he uri hu file hp with h | h | ⟨job, hm, hr⟩
  · exact h
  · cases h
  · cases ht : job.task with
    | relint rest => exact absurd ht (hj job hm rest)
    | document => rw [ht] at hr; cases hr
    | command => rw [ht] at hr; cases hr

/-- Settings change twice, and the second loop starts while the first waits for its first document. -/
def overlapping : List Move :=
  [.receive 0 (.opened "file:///a"), .receive 1 (.opened "file:///b"),
    .receive 2 (.configured (.obj [("path", .str "one")])), .receive 3 (.configured (.obj [("path", .str "two")])),
    .receive 4 (.release "g"), .turn 0, .receive 5 (.release "h"), .turn 0]

def overlapped : Session :=
  (opening default [] true { runs := [{}, {}, { gate := some "g" }, { gate := some "h" }] }).playAll overlapping

theorem converged_after_overlap :
    overlapped.settings.path = "two" ∧ (overlapped.callsFor "file:///b").head? = some overlapped.settings := by
  refine ⟨by decide +kernel, ?_⟩
  have none : overlapped.schedule.jobs = 0 := by decide +kernel
  refine converged default [] true _ overlapping (by decide +kernel) (by decide +kernel) (fun job hj => ?_) "file:///b"
    (by decide +kernel) ⟨.slash, ["b"]⟩ (by decide +kernel)
  exact absurd (none ▸ hj : job ∈ (0 : Multiset Job)) (Multiset.notMem_zero job)

end LintServer.Session
