import LintServer.Session.Step

/-!
# Moves of a session

A step takes all its turns before the next message. Moves are finer: a message
may come between any two turns, and any turn that is ready may be the next. What
holds after all moves holds for every interleaving of the handlers, and every
step is made of moves (`exists_moves_of_step`).
-/

namespace LintServer.Session

inductive Move where
  | receive (step : Nat) (m : Message)
  | turn (i : Nat)
  /-- What has ended is shown. -/
  | report
  /-- The world outside becomes another one, with the same log. -/
  | outside (world : World)

def withoutTurn (s : Session) (i : Nat) : Session :=
  s.reschedule fun schedule => { schedule with ready := schedule.ready.eraseIdx i }

def play (s : Session) : Move → Session
  | .receive step m => s.receive step m
  | .turn i =>
    match s.schedule.ready[i]? with
    | some t => (s.withoutTurn i).take t
    | none => s
  | .report => { s with ended := [] }
  | .outside world => s.changeWorld fun w => { world with log := w.log }

def playAll (s : Session) (ms : List Move) : Session := ms.foldl play s

theorem playAll_append (s : Session) (ms ns : List Move) : s.playAll (ms ++ ns) = (s.playAll ms).playAll ns :=
  List.foldl_append

/-- What each of some moves keeps, all of them keep. -/
theorem playAll_keeps {P : Session → Prop} {ms : List Move} (move : ∀ m ∈ ms, ∀ s, P s → P (play s m)) :
    ∀ {s : Session}, P s → P (s.playAll ms) := by
  induction ms with
  | nil =>
    intro s h
    exact h
  | cons m ms ih =>
    intro s h
    obtain ⟨hm, hms⟩ := List.forall_mem_cons.1 move
    exact ih hms (hm s h)

def opening (conditions : Conditions) (folders : List Json) (notifies : Bool) (world : World) : Session :=
  { conditions := conditions, folders := folders, linter := { notifies := notifies, world := world } }

theorem play_turn_zero {s : Session} {t : Turn} {rest : List Turn} (h : s.schedule.ready = t :: rest) :
    s.play (.turn 0) = s.takeFirst t rest := by
  simp only [play, withoutTurn, takeFirst, h, List.getElem?_cons_zero, reschedule, List.eraseIdx_cons_zero]

theorem exists_turns_of_run (s : Session) : ∃ n, s.run = s.playAll (List.replicate n (.turn 0)) := by
  fun_induction run s with
  | case1 s h => exact ⟨0, rfl⟩
  | case2 s t rest h _ ih =>
    obtain ⟨n, hn⟩ := ih
    refine ⟨n + 1, ?_⟩
    rw [hn, ← play_turn_zero h]
    rfl

/-- A step is its message, turns from the head of the schedule, and a report. -/
theorem exists_moves_of_step (s : Session) (k : Nat) (m : Message) :
    ∃ n, (s.step k m).2 = s.playAll (.receive k m :: List.replicate n (.turn 0) ++ [.report]) := by
  obtain ⟨n, hn⟩ := exists_turns_of_run (s.receive k m)
  refine ⟨n, ?_⟩
  rw [playAll_append]
  simp only [step, hn]
  rfl

end LintServer.Session
