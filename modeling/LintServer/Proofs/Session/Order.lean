import LintServer.Proofs.Session.Effect

/-!
# Order in a session

No document is open twice, no loop over documents comes to one of them twice, and
no pass has a number that was not given out yet. So it is in every session
(`orderly_playAll`).
-/

namespace LintServer.Session

open Lint (Desk Ledger)

theorem mem_insertDocument {uri v : LooseText} {ds : List LooseText} :
    v ∈ insertDocument uri ds ↔ v = uri ∨ v ∈ ds := by
  unfold insertDocument
  split
  · rename_i h
    exact ⟨.inr, fun e => e.elim (fun e => e ▸ h) id⟩
  · rw [List.mem_append, List.mem_singleton, or_comm]

theorem nodup_insertDocument (uri : LooseText) {ds : List LooseText} (h : ds.Nodup) :
    (insertDocument uri ds).Nodup := by
  unfold insertDocument
  split
  · exact h
  · rename_i new
    exact List.nodup_append.2 ⟨h, List.nodup_singleton uri, fun a ha b hb e => new (List.mem_singleton.1 hb ▸ e ▸ ha)⟩

/-- No document is twice in what is left to do, and no job has a number yet to be given out. -/
structure Face.Orderly (f : Face) : Prop where
  documents : f.documents.Nodup
  ahead : f.ahead.Nodup
  rest : ∀ job ∈ f.jobs, (job.uri :: job.task.rest).Nodup
  sequence : ∀ job ∈ f.jobs, job.sequence ≤ f.desk.ledger.counter

theorem Face.Orderly.stride {f g : Face} (h : f.Orderly) (hs : Stride f g) : g.Orderly := by
  obtain ⟨-, docs, -⟩ := hs.kept
  obtain ⟨ms, hm⟩ := hs.ledger
  refine ⟨docs ▸ h.documents, hs.ahead_sublist.nodup h.ahead, fun job hj => ?_, fun job hj => ?_⟩
  · rcases hs.mem_jobs hj with hj | ⟨ha, -⟩
    · exact h.rest job hj
    · exact ha ▸ h.ahead
  · rcases hs.mem_jobs hj with hj | ⟨-, hn⟩
    · exact Nat.le_trans (h.sequence job hj) (hm ▸ Ledger.counter_le_marks ms _)
    · exact hn

theorem orderly_receive {s : Session} (h : s.face.Orderly) (k : Nat) (m : Message) : (s.face.receive k m).Orderly := by
  refine ⟨?_, ?_, s.face.jobs_receive k m ▸ h.rest, ?_⟩
  · rcases s.face.documents_receive k m with e | ⟨uri, -, e⟩ | ⟨uri, e⟩ <;> rw [e]
    · exact h.documents
    · exact nodup_insertDocument uri h.documents
    · exact h.documents.filter _
  · rcases s.ahead_receive k m with e | e <;> rw [e]
    · cases m.named? with
      | none => exact List.nodup_nil
      | some uri => exact List.nodup_singleton uri
    · exact (s.face.perm_inOrder k).nodup_iff.2 h.documents
  · obtain ⟨uris, hd⟩ := s.face.desk_receive k m
    rw [s.face.jobs_receive, hd, ledger_clearAway]
    intro job hj
    exact Nat.le_trans (h.sequence job hj) (Ledger.counter_le_marks _ _)

theorem Begins.orderly {s : Session} {m : Move} {f : Face} (hb : Begins s m f) (h : s.face.Orderly) :
    f.Orderly := by
  cases hb with
  | receive k m => exact orderly_receive h k m
  | turn i hi => exact h
  | ending i job outcome e shown left hi hj he =>
    have mem (k : Job) (hk : k ∈ left) : k ∈ s.face.jobs :=
      (show k ∈ s.schedule.jobs from hj ▸ Multiset.mem_cons_of_mem hk)
    have hr : (job.uri :: job.task.rest).Nodup :=
      h.rest job (show job ∈ s.schedule.jobs from hj ▸ Multiset.mem_cons_self job left)
    exact ⟨h.documents, hr.of_cons, fun k hk => h.rest k (mem k hk), fun k hk => h.sequence k (mem k hk)⟩
  | report => exact h
  | outside world => exact h

theorem orderly_play {s : Session} (h : s.face.Orderly) (m : Move) : (s.play m).face.Orderly :=
  play_keeps (fun _ hb hs => hb.orderly hs) (fun _ _ hs hf => hf.stride hs) h

theorem orderly_playAll (ms : List Move) {s : Session} (h : s.face.Orderly) : (s.playAll ms).face.Orderly :=
  playAll_keeps (P := fun t => t.face.Orderly) (fun m _ _ ht => orderly_play ht m) h

theorem orderly_opening (conditions : Conditions) (folders : List Json) (notifies : Bool) (world : World) :
    (opening conditions folders notifies world).face.Orderly := by
  refine ⟨.nil, List.nodup_nil, fun job hj => ?_, fun job hj => ?_⟩
  · exact absurd hj (Multiset.notMem_zero job)
  · exact absurd hj (Multiset.notMem_zero job)

end LintServer.Session
