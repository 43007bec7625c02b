import LintServer.Session.Basic

/-!
# Turns of a session

A session takes its turns until none is left. Every turn brings this closer:
either fewer documents are pending, or the passes have less to do.
-/

namespace LintServer.Session

def advance (s : Session) (w : Waiting) : Session :=
  match s.linter.proceed w.arrival with
  | (.operate o, linter) =>
    let freed := w.arrival.ownsDaemon && !o.ownsDaemon
    let schedule := if freed then s.schedule.freeDaemon else s.schedule
    { s with linter := linter.handOver o, schedule := schedule.push (.operate w.job o) }
  | (.pause a, linter) =>
    { s with linter := linter, schedule := s.schedule.push (.goOn ⟨w.job, a⟩ 0) }
  | (.output output, linter) =>
    let schedule := if w.arrival.ownsDaemon then s.schedule.freeDaemon else s.schedule
    let (e, s) := { s with linter := linter, schedule := schedule }.conclude w.job.uri w.job.sequence output
    s.goOn w.job.step w.job.task w.job.uri e

def take (s : Session) : Turn → Session
  | .operate job o =>
    let (arrival, linter) := s.linter.operate o
    { s with linter := linter, schedule := s.schedule.park ⟨job, arrival⟩ }
  | .goOn w 0 => s.advance w
  | .goOn w (delay + 1) => s.reschedule (·.push (.goOn w delay))

/-! ## The schedule after a turn -/

theorem schedule_clearAfter (s : Session) (uri : LooseText) (e : Lint.PassEnd) :
    (s.clearAfter uri e).schedule = s.schedule := by
  cases e <;> rfl

theorem schedule_startPass (s : Session) (uri : LooseText) (file : Path) :
    (s.startPass uri file).2.schedule = s.schedule := by
  unfold startPass
  split
  · rfl
  · dsimp only
    split
    · split <;> rfl
    · rfl

theorem pending_suspend_le (s : Session) (job : Job) (a : Lint.Arrival) :
    (s.suspend job a).schedule.pending ≤ s.schedule.pending + job.task.pending := by
  unfold suspend
  split
  · split
    · simp [reschedule]
    · simp [Turn.pending]
  · exact Schedule.pending_park_le _ _

theorem relint_bound (step : Nat) (docs : List LooseText) : ∀ s : Session,
    (s.relint step docs).schedule = s.schedule ∨
      (s.relint step docs).schedule.pending < s.schedule.pending + docs.length := by
  induction docs with
  | nil => exact fun s => .inl rfl
  | cons uri rest ih =>
    intro s
    have later {t : Session} (h : t.schedule = s.schedule) : (t.relint step rest).schedule = s.schedule ∨
        (t.relint step rest).schedule.pending < s.schedule.pending + (uri :: rest).length := by
      rcases ih t with e | e
      · exact .inl (e.trans h)
      · rw [h] at e
        exact .inr (Nat.lt_succ_of_lt e)
    unfold relint
    split
    · exact .inl rfl
    · exact later rfl
    · have hs := schedule_startPass s uri ‹_›
      split <;> rename_i h <;> rw [h] at hs
      · exact later ((schedule_clearAfter _ _ _).trans hs)
      · refine .inr (Nat.lt_of_le_of_lt (pending_suspend_le _ _ _) ?_)
        simp only at hs
        simp [hs, Task.pending]

theorem goOn_bound (s : Session) (step : Nat) (task : Task) (uri : LooseText) (e : Lint.PassEnd) :
    (s.goOn step task uri e).schedule = s.schedule ∨
      (s.goOn step task uri e).schedule.pending < s.schedule.pending + task.pending := by
  have hs := schedule_clearAfter s uri e
  unfold goOn
  cases task with
  | document => exact .inl hs
  | command => exact .inl hs
  | relint rest =>
    have := relint_bound step rest (s.clearAfter uri e)
    rw [hs] at this
    exact this

/-- Whether a schedule is closer to its end than one with these bounds. -/
def Closer (s : Schedule) (pending rank : Nat) : Prop :=
  s.pending < pending ∨ s.pending ≤ pending ∧ s.rank < rank

theorem closer_advance (s : Session) (w : Waiting) :
    Closer (s.advance w).schedule (s.schedule.pending + w.job.task.pending) (s.schedule.rank + w.rank) := by
  unfold advance
  split
  · rename_i o linter h
    have := Lint.Linter.rank_of_proceed h
    refine .inr ⟨?_, ?_⟩
    · dsimp only
      split <;> simp [Turn.pending]
    · dsimp only
      split <;> simp [Turn.rank, Waiting.rank] <;> omega
  · rename_i a linter h
    have := Lint.Linter.rank_of_pause h
    exact .inr ⟨by simp [Turn.pending], by simp [Turn.rank, Waiting.rank]; omega⟩
  · rename_i output linter h
    dsimp only
    generalize hf : (if w.arrival.ownsDaemon then s.schedule.freeDaemon else s.schedule) = f
    have hp : f.pending = s.schedule.pending := by
      subst hf
      split <;> simp
    have hr : f.rank = s.schedule.rank := by
      subst hf
      split <;> simp
    generalize hc : conclude { s with linter := linter, schedule := f } w.job.uri w.job.sequence output = c
    have hs : c.2.schedule = f := hc ▸ rfl
    rcases goOn_bound c.2 w.job.step w.job.task w.job.uri c.1 with e | e
    · refine .inr ?_
      rw [e, hs, hp, hr]
      simp [Waiting.rank]
    · refine .inl ?_
      rwa [hs, hp] at e

theorem closer_take (s : Session) (t : Turn) :
    Closer (s.take t).schedule (s.schedule.pending + t.pending) (s.schedule.rank + t.rank) := by
  unfold take
  split
  · rename_i job o
    have := Lint.Linter.rank_of_operate o s.linter
    refine .inr ⟨Schedule.pending_park_le _ _, Nat.lt_of_le_of_lt (Schedule.rank_park_le _ _) ?_⟩
    simp only [Waiting.rank, Turn.rank]
    omega
  · exact closer_advance s _
  · exact .inr ⟨by simp [reschedule, Turn.pending], by simp [reschedule, Turn.rank]⟩

def takeFirst (s : Session) (t : Turn) (rest : List Turn) : Session :=
  (s.reschedule fun schedule => { schedule with ready := rest }).take t

theorem closer_takeFirst {s : Session} {t : Turn} {rest : List Turn} (h : s.schedule.ready = t :: rest) :
    Closer (s.takeFirst t rest).schedule s.schedule.pending s.schedule.rank := by
  have hp : s.schedule.pending = Schedule.pending { s.schedule with ready := rest } + t.pending := by
    simp [Schedule.pending, h]
    omega
  have hr : s.schedule.rank = Schedule.rank { s.schedule with ready := rest } + t.rank := by
    simp [Schedule.rank, h]
    omega
  rw [hp, hr]
  exact closer_take _ t

def run (s : Session) : Session :=
  match h : s.schedule.ready with
  | [] => s
  | t :: rest =>
    have := closer_takeFirst h
    run (s.takeFirst t rest)
termination_by (s.schedule.pending, s.schedule.rank)
decreasing_by
  rcases this with e | ⟨e, d⟩
  · exact .left _ _ e
  · rcases Nat.lt_or_eq_of_le e with e | e
    · exact .left _ _ e
    · exact e ▸ .right _ d

theorem run_of_cons {s : Session} {t : Turn} {rest : List Turn} (h : s.schedule.ready = t :: rest) :
    s.run = (s.takeFirst t rest).run := by
  rw [run]
  split <;> simp_all

@[simp] theorem ready_run (s : Session) : s.run.schedule.ready = [] := by
  fun_induction run s with
  | case1 s e => exact e
  | case2 s t rest e _ ih => exact ih

end LintServer.Session
