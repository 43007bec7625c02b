import LintServer.Proofs.Session.Effect
import LintServer.Proofs.Session.Manned

/-!
# Every pass can end

From every session that moves lead to, turns and releases of gates bring any
given pass to the turn in which it ends, whatever the world outside is like in
between (`exists_ending`).
-/

namespace LintServer.Session

/-- A move that no message of the editor makes. -/
def Move.isPassive : Move → Bool
  | .receive _ (.release _) => true
  | .receive _ _ => false
  | _ => true

def adjusted (s : Session) (adjust : World → World) : Session :=
  s.play (.outside (adjust s.linter.world))

theorem mem_jobs_play {s : Session} {job : Job} (hj : job ∈ s.schedule.jobs) {m : Move}
    (h : ∀ i outcome, m = .turn i → s.ending? i ≠ some (job, outcome)) : job ∈ (s.play m).schedule.jobs := by
  obtain ⟨f, hb, hs⟩ := s.play_strides m
  have hf : job ∈ f.jobs := by
    cases hb with
    | receive k m => exact s.face.jobs_receive k m ▸ hj
    | ending i k outcome e shown left hi hk he =>
      rcases Multiset.mem_cons.1 (hk ▸ hj) with rfl | hj
      · exact absurd hi (h i outcome rfl)
      · exact hj
    | _ => exact hj
  exact strides_keep (P := fun x => job ∈ x.jobs) (fun _ _ hs hj => hs.jobs_subset hj) hs hf

section
variable (adjust : World → World)

/-- The pass of a job can come to its end: right before, the world outside can be changed as wanted. -/
def CanEnd (s : Session) (job : Job) : Prop :=
  ∃ ms i outcome, (∀ m ∈ ms, m.isPassive = true) ∧
    ((s.playAll ms).adjusted adjust).ending? i = some (job, outcome)

variable {adjust}

theorem CanEnd.after {s : Session} {job : Job} (ms : List Move) (hp : ∀ m ∈ ms, m.isPassive = true)
    (h : (s.playAll ms).CanEnd adjust job) : s.CanEnd adjust job := by
  obtain ⟨ns, i, outcome, hn, he⟩ := h
  refine ⟨ms ++ ns, i, outcome, fun m hm => (List.mem_append.1 hm).elim (hp m) (hn m), ?_⟩
  rw [playAll_append]
  exact he

theorem canEnd_of_ready {w : Waiting} {gate : String} (hg : w.arrival.gate = some gate) (delay : Nat) :
    ∀ {s : Session}, .goOn w delay ∈ s.schedule.ready → s.CanEnd adjust w.job := by
  induction delay with
  | zero =>
    intro s hw
    obtain ⟨i, hi⟩ := List.mem_iff_getElem?.1 hw
    obtain ⟨output, ho⟩ := Lint.Linter.output_of_gate hg (s.adjusted adjust).linter
    refine ⟨[], i, output.bind Lint.Linter.diagnosticsOf, fun m hm => absurd hm List.not_mem_nil, ?_⟩
    have : (s.adjusted adjust).schedule.ready[i]? = some (.goOn w 0) := hi
    simp only [playAll, List.foldl_nil, ending?, this, ho]
  | succ delay ih =>
    intro s hw
    obtain ⟨i, hi⟩ := List.mem_iff_getElem?.1 hw
    refine CanEnd.after [.turn i] (by simp [Move.isPassive]) (ih ?_)
    simp only [playAll, List.foldl_cons, List.foldl_nil, play, hi, take, reschedule, Schedule.push]
    exact List.mem_append_right _ (List.mem_singleton_self _)

theorem Closer.lex {s : Schedule} {pending rank : Nat} (h : Closer s pending rank) :
    Prod.Lex (· < ·) (· < ·) (s.pending, s.rank) (pending, rank) := by
  rcases h with h | ⟨h, hr⟩
  · exact .left _ _ h
  · rcases Nat.lt_or_eq_of_le h with h | h
    · exact .left _ _ h
    · exact h ▸ .right _ hr

variable (adjust) in
theorem exists_ending (job : Job) (s : Session) (hm : s.Manned) (hj : job ∈ s.schedule.jobs) :
    s.CanEnd adjust job := by
  by_cases he : ∃ i outcome, (s.adjusted adjust).ending? i = some (job, outcome)
  · obtain ⟨i, outcome, he⟩ := he
    exact ⟨[], i, outcome, fun m hm => absurd hm List.not_mem_nil, he⟩
  · have ha : job ∈ (s.adjusted adjust).schedule.jobs := hj
    cases hr : s.schedule.ready with
    | cons t rest =>
      have hc : Closer ((s.adjusted adjust).play (.turn 0)).schedule s.schedule.pending s.schedule.rank := by
        rw [play_turn_zero (s := s.adjusted adjust) hr]
        exact closer_takeFirst (s := s.adjusted adjust) hr
      have hl := hc.lex
      refine CanEnd.after [.outside (adjust s.linter.world), .turn 0] (by simp [Move.isPassive]) ?_
      refine exists_ending job ((s.adjusted adjust).play (.turn 0)) (manned_play (manned_play hm _) _) ?_
      exact mem_jobs_play ha fun i outcome hi h => by
        cases hi
        exact he ⟨0, outcome, h⟩
    | nil =>
      -- Nothing is ready, so the daemon is free, no job waits for it, and this one is at a gate.
      have hq : s.schedule.queued = [] := hm.queued_of_idle hr
      obtain ⟨gate, w, hw, rfl⟩ : ∃ gate w, (gate, w) ∈ s.schedule.gated ∧ w.job = job := by
        simp only [Schedule.jobs, hr, hq, List.map_nil, Multiset.coe_nil, Multiset.zero_add, Multiset.add_zero,
          Multiset.mem_coe, List.mem_map] at hj
        obtain ⟨⟨gate, w⟩, hw, hj⟩ := hj
        exact ⟨gate, w, hw, hj⟩
      refine CanEnd.after [.receive 0 (.release gate)] (by simp [Move.isPassive]) ?_
      have woken : (gate, w) ∈ s.schedule.gated.filter (·.1 == gate) :=
        List.mem_filter.2 ⟨hw, beq_self_eq_true gate⟩
      refine canEnd_of_ready (hm.gated _ hw) w.delay (List.mem_append_right _ ?_)
      exact List.mem_map.2 ⟨(gate, w), woken, rfl⟩
termination_by (s.schedule.pending, s.schedule.rank)
decreasing_by exact hl

end

end LintServer.Session
