import LintServer.Proofs.Session.Order
import LintServer.Proofs.Session.Reach

/-!
# Closed documents

Closing a document leaves none of its passes current and takes it out of the
open documents, so afterwards only a loop over documents that was already on its
way can come to it. A document stays clear after its closing exactly if no such
loop leads to it (`clear_after_close_iff`).
-/

namespace LintServer.Session

open Lint (Desk Ledger Sheet)

/-- A document is not open, and no loop leads to it. -/
structure Face.Misses (f : Face) (uri : LooseText) : Prop where
  documents : uri ∉ f.documents
  ahead : ¬ LeadsTo uri f.ahead
  rest : ∀ job ∈ f.jobs, ¬ LeadsTo uri job.task.rest

namespace Face.Misses
variable {f g : Face} {uri : LooseText}

theorem stride (h : f.Misses uri) (hs : Stride f g) : g.Misses uri := by
  obtain ⟨-, docs, -⟩ := hs.kept
  have docs : uri ∉ g.documents := docs ▸ h.documents
  cases hs with
  | skip v rest ha hp =>
    exact ⟨docs, fun hl => h.ahead (ha ▸ .later v rest (hp ▸ rfl) hl), h.rest⟩
  | abandon v rest e ha hp => exact ⟨docs, fun hl => absurd hl.mem List.not_mem_nil, h.rest⟩
  | pass v rest file e d ha hp hs =>
    exact ⟨docs, fun hl => h.ahead (ha ▸ .later v rest (hp ▸ rfl) hl), h.rest⟩
  | wait job file a d ha hp hs =>
    refine ⟨docs, fun hl => absurd hl.mem List.not_mem_nil, fun k hk => ?_⟩
    rcases Multiset.mem_cons.1 hk with rfl | hk
    · intro hl
      exact h.ahead (ha ▸ .later k.uri k.task.rest (hp ▸ rfl) hl)
    · exact h.rest k hk

theorem receive {s : Session} {m : Message} (h : s.face.Misses uri) (hm : m.named? ≠ some uri) :
    (s.face.receive k m).Misses uri := by
  refine ⟨?_, ?_, s.face.jobs_receive k m ▸ h.rest⟩
  · rcases s.face.documents_receive k m with e | ⟨v, hv, e⟩ | ⟨v, e⟩ <;> rw [e]
    · exact h.documents
    · rw [mem_insertDocument]
      rintro (rfl | hu)
      · exact hm hv
      · exact h.documents hu
    · intro hu
      exact h.documents (List.mem_of_mem_filter hu)
  · rcases s.ahead_receive k m with e | e <;> rw [e]
    · intro hl
      exact hm (Option.mem_toList.1 hl.mem)
    · intro hl
      exact h.documents ((s.face.mem_inOrder k).1 hl.mem)

theorem begins {s : Session} {m : Move} (h : s.face.Misses uri) (hb : Begins s m f) (hm : m.named? ≠ some uri) :
    f.Misses uri := by
  cases hb with
  | receive k m => exact h.receive hm
  | turn i hi => exact h
  | ending i job outcome e shown left hi hj he =>
    refine ⟨h.documents, ?_, fun k hk => ?_⟩
    · exact h.rest job (show job ∈ s.schedule.jobs from hj ▸ Multiset.mem_cons_self job left)
    · exact h.rest k (show k ∈ s.schedule.jobs from hj ▸ Multiset.mem_cons_of_mem hk)
  | report => exact h
  | outside world => exact h

end Face.Misses

/-- Where no pass over a document is current and nothing leads to it, its sheet only fades. -/
theorem fades_playAll {uri : LooseText} {a : Sheet} (ha : ∀ n, a.isCurrent n = false) {ms : List Move}
    (hm : ∀ m ∈ ms, m.named? ≠ some uri) {s : Session} (h : s.face.Misses uri)
    (hf : a.Fades (s.linter.desk.sheet uri)) : a.Fades ((s.playAll ms).linter.desk.sheet uri) := by
  let P (f : Face) : Prop := f.Misses uri ∧ a.Fades (f.desk.sheet uri)
  refine (playAll_keeps (P := fun t => P t.face) (fun m hn t ht => play_keeps ?_ ?_ ht) ⟨h, hf⟩).2
  · rintro f hb ⟨misses, fades⟩
    refine ⟨misses.begins hb (hm m hn), fades.trans (hb.fades fun n => ?_)⟩
    rw [Bool.eq_false_iff]
    intro hc
    have := fades.isCurrent n hc
    rw [ha n] at this
    cases this
  · rintro f g hs ⟨misses, fades⟩
    exact ⟨misses.stride hs, hs.sheet_of_astray misses.ahead ▸ fades⟩

/-- **Closed documents.** After a document was closed and while no message names it, nothing but empty
lists is published for it whatever runs, exactly if no loop was suspended at the closing that
leads to the document. -/
theorem clear_after_close_iff (conditions : Conditions) (folders : List Json) (notifies : Bool) (world : World)
    (before : List Move) (k : Nat) (uri : LooseText) :
    let s := ((opening conditions folders notifies world).playAll before).play (.receive k (.closed uri))
    (∀ after, (∀ m ∈ after, m.named? ≠ some uri) → s.StaysClear (s.playAll after) uri) ↔
      ∀ job ∈ s.schedule.jobs, ¬ LeadsTo uri job.task.rest := by
  intro s
  constructor
  · intro h job hj hl
    have manned : s.Manned := manned_play (manned_playAll before (manned_opening conditions folders notifies world)) _
    obtain ⟨after, hm, hc⟩ := exists_finding manned hj hl
    refine hc (h after fun m hn => ?_)
    rw [hm m hn]
    exact (Option.some_ne_none uri).symm
  · intro h after hm
    have misses : s.face.Misses uri := by
      refine ⟨fun hu => ?_, fun hl => absurd hl.mem List.not_mem_nil, h⟩
      have := (List.mem_filter.1 hu).2
      simp at this
    have past : ∀ n, (s.linter.desk.sheet uri).isCurrent n = false := fun n =>
      Ledger.isCurrent_forget_self _ uri n
    exact (fades_playAll past hm misses (.refl _)).published

/-- Two documents are opened, and under new settings the pass over the first waits at a gate. -/
def looping : List Move :=
  [.receive 0 (.opened "file:///a"), .receive 1 (.opened "file:///b"), .receive 2 (.configured tooledPayload)]

/-- The runs of the tool: two without findings, one that waits, and one with a finding. -/
def loopingWorld : World where
  runs := [{}, {}, { gate := some "g" }, { stdout := "b(1,0,1,1): error: [ x ] m".toUTF8.toList }]

/-- A loop lints a document that was closed meanwhile. -/
theorem not_clear_after_close :
    ¬ ∀ (conditions : Conditions) (folders : List Json) (notifies : Bool) (world : World) (before : List Move)
        (k : Nat) (uri : LooseText) (after : List Move), (∀ m ∈ after, m.named? ≠ some uri) →
      let s := ((opening conditions folders notifies world).playAll before).play (.receive k (.closed uri))
      s.StaysClear (s.playAll after) uri := by
  intro h
  obtain ⟨lists, hp, he⟩ := h default [] true loopingWorld looping 3 "file:///b" [.receive 4 (.release "g"), .turn 0]
    (by decide +kernel)
  let s := ((opening default [] true loopingWorld).playAll looping).play (.receive 3 (.closed "file:///b"))
  have late : [⟨⟨0, 0⟩, ⟨0, 1⟩, .error, some "x", "m"⟩] ∈
      (s.playAll [.receive 4 (.release "g"), .turn 0]).published "file:///b" := by decide +kernel
  rw [hp] at late
  rcases List.mem_append.1 late with hm | hm
  · exact absurd hm (by decide +kernel)
  · exact List.cons_ne_nil _ _ (he _ hm)

end LintServer.Session
