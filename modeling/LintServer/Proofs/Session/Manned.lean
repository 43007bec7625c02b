import LintServer.Proofs.Session.Strides

/-!
# Who has the daemon

While the daemon is taken, a turn of the pass that has it is ready, and only then
do jobs wait for the daemon. A job at a gate waits for its last arrival. So it
is after all moves (`manned_playAll`), and a session with no ready turn has jobs
at gates only.
-/

namespace LintServer

namespace Lint

theorem Arrival.gate_of_owns {a : Arrival} (h : a.ownsDaemon = true) : a.gate = none := by
  cases a <;> first | rfl | cases h

namespace Linter

theorem owns_operate (o : Operation) (l : Linter) : (l.operate o).1.ownsDaemon = o.ownsDaemon := by
  cases o <;> simp only [operate, Arrival.ownsDaemon, Operation.ownsDaemon]

theorem owns_of_pause {a b : Arrival} {l m : Linter} (h : l.proceed a = (.pause b, m)) : b.ownsDaemon = true := by
  cases a with
  | probed c a k =>
    simp only [proceed, judge] at h
    split at h <;> cases h
    rfl
  | connected a k =>
    simp only [proceed, send] at h
    split at h <;> cases h
  | _ => cases h

/-- A pass that goes on from a gate comes to its output. -/
theorem output_of_gate {a : Arrival} {gate : String} (h : a.gate = some gate) (l : Linter) :
    ∃ output, (l.proceed a).1 = .output output := by
  cases a with
  | tool run => exact ⟨_, rfl⟩
  | reply x => exact ⟨_, rfl⟩
  | _ => cases h

end Linter

end Lint

namespace Session

def Turn.ownsDaemon : Turn → Bool
  | .operate _ o => o.ownsDaemon
  | .goOn w _ => w.arrival.ownsDaemon

/-- A schedule from which at most the turn of the pass that has the daemon is `missing`. -/
structure Schedule.Manned (missing : Bool) (s : Schedule) : Prop where
  owner : s.daemonTaken = true → missing = true ∨ ∃ t ∈ s.ready, t.ownsDaemon = true
  taken : s.queued ≠ [] → s.daemonTaken = true
  queued : ∀ w ∈ s.queued, w.arrival.ownsDaemon = true
  gated : ∀ p ∈ s.gated, p.2.arrival.gate = some p.1

namespace Schedule.Manned
variable {b : Bool} {s : Schedule} {t : Turn} {w : Waiting}

theorem push (h : s.Manned b) (ht : b = true → t.ownsDaemon = true) : (s.push t).Manned false := by
  refine ⟨fun hs => .inr ?_, h.taken, h.queued, h.gated⟩
  rcases h.owner hs with hb | ⟨u, hu, ho⟩
  · exact ⟨t, List.mem_append_right _ (List.mem_singleton_self t), ht hb⟩
  · exact ⟨u, List.mem_append_left _ hu, ho⟩

theorem park (h : s.Manned b) (hw : b = true → w.arrival.ownsDaemon = true) : (s.park w).Manned false := by
  unfold Schedule.park
  split
  · rename_i gate hg
    have hg : w.arrival.gate = some gate := (Option.filter_eq_some_iff.1 hg).1
    refine ⟨fun hs => ?_, h.taken, h.queued, fun p hp => ?_⟩
    · refine (h.owner hs).imp_left fun hb => ?_
      rw [Lint.Arrival.gate_of_owns (hw hb)] at hg
      cases hg
    · rcases List.mem_append.1 hp with hp | hp
      · exact h.gated p hp
      · cases List.mem_singleton.1 hp
        exact hg
  · exact h.push hw

theorem queue (h : s.Manned false) (hs : s.daemonTaken = true) (hw : w.arrival.ownsDaemon = true) :
    (s.queue w).Manned false := by
  refine ⟨h.owner, fun _ => hs, fun v hv => ?_, h.gated⟩
  rcases List.mem_append.1 hv with hv | hv
  · exact h.queued v hv
  · cases List.mem_singleton.1 hv
    exact hw

theorem takeDaemon (h : s.Manned false) (ht : t.ownsDaemon = true) : (s.takeDaemon.push t).Manned false :=
  ⟨fun _ => .inr ⟨t, List.mem_append_right _ (List.mem_singleton_self t), ht⟩, fun _ => rfl, h.queued, h.gated⟩

theorem freeDaemon (h : s.Manned b) : s.freeDaemon.Manned false := by
  unfold Schedule.freeDaemon
  split
  · rename_i hq
    exact ⟨fun hs => absurd hs Bool.false_ne_true, fun hn => absurd hq hn, h.queued, h.gated⟩
  · rename_i w rest hq
    have hw : w.arrival.ownsDaemon = true := h.queued w (hq ▸ List.mem_cons_self)
    have hr : Manned true { s with queued := rest } :=
      ⟨fun _ => .inl rfl, fun _ => h.taken (hq ▸ List.cons_ne_nil w rest),
        fun v hv => h.queued v (hq ▸ List.mem_cons_of_mem w hv), h.gated⟩
    exact hr.push fun _ => hw

theorem release (h : s.Manned false) (gate : String) : (s.release gate).Manned false := by
  refine ⟨fun hs => .inr ?_, h.taken, h.queued, fun p hp => h.gated p (List.mem_of_mem_filter hp)⟩
  rcases h.owner hs with hb | ⟨u, hu, ho⟩
  · cases hb
  · exact ⟨u, List.mem_append_left _ hu, ho⟩

/-- Where no turn is ready, the daemon is free. -/
theorem queued_of_idle (h : s.Manned false) (hr : s.ready = []) : s.queued = [] := by
  by_contra hq
  rcases h.owner (h.taken hq) with hb | ⟨t, ht, -⟩
  · cases hb
  · rw [hr] at ht
    cases ht

theorem eraseIdx (h : s.Manned false) {i : Nat} (ht : s.ready[i]? = some t) :
    Manned t.ownsDaemon { s with ready := s.ready.eraseIdx i } := by
  refine ⟨fun hs => ?_, h.taken, h.queued, h.gated⟩
  obtain ⟨hi, rfl⟩ := List.getElem?_eq_some_iff.1 ht
  rcases h.owner hs with hb | ⟨u, hu, ho⟩
  · cases hb
  · rcases List.mem_cons.1 ((List.getElem_cons_eraseIdx_perm hi).mem_iff.2 hu) with rfl | hu
    · exact .inl ho
    · exact .inr ⟨u, hu, ho⟩

end Schedule.Manned

def Manned (s : Session) : Prop := s.schedule.Manned false

section
variable {s : Session}

theorem manned_suspend (h : s.Manned) (job : Job) (a : Lint.Arrival) : (s.suspend job a).Manned := by
  unfold suspend
  split
  · split
    · rename_i ht
      exact h.queue ht rfl
    · exact h.takeDaemon rfl
  · exact h.park fun hb => by cases hb

theorem manned_relint (k : Nat) (docs : List LooseText) : ∀ {s : Session}, s.Manned → (s.relint k docs).Manned := by
  induction docs with
  | nil =>
    intro s h
    exact h
  | cons uri rest ih =>
    intro s h
    unfold relint
    split
    · exact h
    · exact ih h
    · have hs := schedule_startPass s uri ‹_›
      split <;> rename_i hp <;> rw [hp] at hs
      · exact ih ((schedule_clearAfter _ _ _).trans hs ▸ h : Schedule.Manned false _)
      · exact manned_suspend (hs ▸ h : Schedule.Manned false _) _ _

theorem manned_goOn (h : s.Manned) (k : Nat) (task : Task) (uri : LooseText) (e : Lint.PassEnd) :
    (s.goOn k task uri e).Manned := by
  have hc : (s.clearAfter uri e).Manned := (schedule_clearAfter s uri e ▸ h : Schedule.Manned false _)
  cases task with
  | document => exact hc
  | command => exact hc
  | relint rest => exact manned_relint k rest hc

theorem manned_startTask (h : s.Manned) (k : Nat) (task : Task) (uri : LooseText) (file : Path) :
    (s.startTask k task uri file).Manned := by
  unfold startTask
  have hs := schedule_startPass s uri file
  split <;> rename_i hp <;> rw [hp] at hs
  · exact manned_goOn (hs ▸ h : Schedule.Manned false _) k task uri _
  · exact manned_suspend (hs ▸ h : Schedule.Manned false _) _ _

theorem schedule_adopt (s : Session) (new : Settings) : (s.adopt new).schedule = s.schedule := by
  unfold adopt; dsimp only
  split <;> rfl

theorem manned_clearAll (h : s.Manned) (uris : List LooseText) : (s.clearAll uris).Manned := by
  have schedule : (s.clearAll uris).schedule = s.schedule := by rw [(desk_clearAll uris s).1]
  exact (schedule ▸ h : Schedule.Manned false (s.clearAll uris).schedule)

theorem manned_configure (h : s.Manned) (k : Nat) (payload : Json) : (s.configure k payload).Manned := by
  unfold configure
  split
  · exact h
  · rename_i new _
    have ha : (s.adopt new).Manned := (schedule_adopt s new ▸ h : Schedule.Manned false _)
    dsimp only
    split
    · exact manned_clearAll ha _
    · split
      · exact manned_relint k _ ha
      · exact ha

theorem manned_receive (h : s.Manned) (k : Nat) (m : Message) : (s.receive k m).Manned := by
  have touched (uri : LooseText) : (s.touch k uri).Manned := by
    unfold touch; dsimp only
    split
    · exact h
    · exact h
    · rename_i file _
      have hd : Manned { s with documents := insertDocument uri s.documents } := h
      exact manned_startTask hd k .document uri file
  cases m with
  | opened uri => exact touched uri
  | saved uri => exact touched uri
  | configured payload => exact manned_configure h k payload
  | lint params =>
    unfold receive lintCommand; dsimp only
    split
    · exact h
    · split
      · split
        · exact h
        · exact h
        · exact manned_startTask h k .command _ _
      · split <;> exact h
  | debugStatus =>
    have hs : s.debugReport.2.schedule = s.schedule := by
      unfold debugReport; dsimp only
      split
      · rfl
      · split <;> rfl
    exact (hs ▸ h : Schedule.Manned false s.debugReport.2.schedule)
  | release gate => exact Schedule.Manned.release h gate
  | _ => exact h

theorem manned_advance {w : Waiting} (h : s.schedule.Manned w.arrival.ownsDaemon) : (s.advance w).Manned := by
  unfold advance
  split
  · rename_i o l _
    dsimp only
    cases hw : w.arrival.ownsDaemon && !o.ownsDaemon with
    | true =>
      exact h.freeDaemon.push fun hb => by cases hb
    | false =>
      refine Schedule.Manned.push h fun hb => ?_
      rw [hb, Bool.true_and, Bool.not_eq_false'] at hw
      exact hw
  · rename_i a l hp
    exact Schedule.Manned.push h fun _ => Lint.Linter.owns_of_pause hp
  · dsimp only
    refine manned_goOn ?_ _ _ _ _
    cases hw : w.arrival.ownsDaemon with
    | true => exact h.freeDaemon
    | false =>
      rw [hw] at h
      exact h

theorem manned_play (h : s.Manned) (m : Move) : (s.play m).Manned := by
  cases m with
  | receive k m => exact manned_receive h k m
  | report => exact h
  | outside world => exact h
  | turn i =>
    unfold play; dsimp only
    split
    · rename_i t ht
      have he : (s.withoutTurn i).schedule.Manned t.ownsDaemon := Schedule.Manned.eraseIdx h ht
      cases t with
      | operate job o => exact he.park fun hb => (Lint.Linter.owns_operate o s.linter).trans hb
      | goOn w delay =>
        cases delay with
        | zero => exact manned_advance he
        | succ delay => exact he.push fun hb => hb
    · exact h

theorem manned_playAll (ms : List Move) (h : s.Manned) : (s.playAll ms).Manned :=
  playAll_keeps (P := fun t => t.Manned) (fun m _ _ ht => manned_play ht m) h

theorem manned_opening (conditions : Conditions) (folders : List Json) (notifies : Bool) (world : World) :
    (opening conditions folders notifies world).Manned :=
  ⟨fun hs => absurd hs Bool.false_ne_true, fun hn => absurd rfl hn, fun _ hw => absurd hw List.not_mem_nil,
    fun _ hp => absurd hp List.not_mem_nil⟩

end

end Session

end LintServer
