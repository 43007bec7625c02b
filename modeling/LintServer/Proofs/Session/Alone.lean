import LintServer.Proofs.Lint.Alone
import LintServer.Proofs.Session.Manned

/-!
# A session with one pass

In a session in which nothing else is ready, the turns of a pass follow each
other, and the pass ends as it does alone (`run_startTask`).
-/

namespace LintServer

open Lint (Arrival Linter Operation)

namespace Lint.Linter

/-- A pass meets no gate on its way to its output. -/
def Ungated (a : Arrival) (l : Linter) : Prop :=
  ∀ b m, Reaches a l b m → b.gate = none

theorem Ungated.gate {a : Arrival} {l : Linter} (h : Ungated a l) : a.gate = none :=
  h a l .here

theorem Ungated.operate {a : Arrival} {l m : Linter} {o : Operation} (hu : Ungated a l)
    (h : l.proceed a = (.operate o, m)) : Ungated ((m.handOver o).operate o).1 ((m.handOver o).operate o).2 :=
  fun b n next => hu b n (.operate h next)

theorem Ungated.pause {a b : Arrival} {l m : Linter} (hu : Ungated a l) (h : l.proceed a = (.pause b, m)) :
    Ungated b m :=
  fun c n next => hu c n (.pause h next)

/-- A pass that does not have the daemon does not come to have it by going on. -/
theorem owns_of_operate {a : Arrival} {l m : Linter} {o : Operation} (h : l.proceed a = (.operate o, m))
    (ho : o.ownsDaemon = true) : a.ownsDaemon = true := by
  cases a with
  | connected a k =>
    simp only [proceed, send] at h
    split at h <;> cases h
    cases ho
  | tool run => cases h
  | reply x => cases h
  | _ => rfl

theorem owns_at_pause {a b : Arrival} {l m : Linter} (h : l.proceed a = (.pause b, m)) : a.ownsDaemon = true := by
  cases a with
  | connected a k =>
    simp only [proceed, send] at h
    split at h <;> cases h
  | tool run => cases h
  | reply x => cases h
  | _ => rfl

theorem start_arrival {s : Settings} {uri : LooseText} {file folder : Path} {l : Linter} {n : Nat} {a : Arrival}
    (h : (l.start s uri file folder).1 = .waiting n a) :
    (∃ run, a = .tool run) ∨ ∃ c k, a = .daemon c k := by
  have ran {r : Except Fault ToolRun} (h : r.map Arrival.tool = .ok a) : ∃ run, a = .tool run := by
    cases r <;> cases h
    exact ⟨_, rfl⟩
  have work (m : Linter) (h : (m.startWork s file folder).1 = .ok a) :
      (∃ run, a = .tool run) ∨ ∃ c k, a = .daemon c k := by
    revert h
    unfold startWork startAsking startTool
    split
    · split
      · intro h
        cases h
      · intro h
        cases h
        exact .inr ⟨_, _, rfl⟩
    · split
      · intro h
        cases h
      · exact fun h => .inl (ran h)
  revert h
  unfold start
  dsimp only
  split
  · split <;> rename_i e <;> intro h <;> cases h
    exact work _ (congrArg Prod.fst e)
  · intro h
    cases h

end Lint.Linter

namespace Session

/-- The session with no turns but these ready, and no job waiting for the daemon. -/
def solo (s : Session) (l : Linter) (turns : List Turn) (taken : Bool) : Session :=
  { s with linter := l, schedule := { s.schedule with ready := turns, queued := [], daemonTaken := taken } }

theorem Schedule.park_of_ungated {w : Waiting} (hg : w.arrival.gate = none) (s : Schedule) :
    s.park w = s.push (.goOn w 1) := by
  rw [park, gateOf, hg, Option.filter_none]

section
variable (s : Session) (job : Job) {a : Arrival} {l m : Linter}

theorem run_solo (t : Turn) (taken : Bool) :
    (s.solo l [t] taken).run = ((s.solo l [] taken).take t).run :=
  run_of_cons rfl

theorem run_solo_operate (o : Operation) (hg : (l.operate o).1.gate = none) (taken : Bool) :
    (s.solo l [.operate job o] taken).run =
      (s.solo (l.operate o).2 [.goOn ⟨job, (l.operate o).1⟩ 0] taken).run := by
  have parked : (s.solo l [] taken).take (.operate job o) =
      s.solo (l.operate o).2 [.goOn ⟨job, (l.operate o).1⟩ 1] taken := by
    refine Eq.trans ?_ (congrArg (fun schedule => { s.solo (l.operate o).2 [] taken with schedule := schedule })
      (Schedule.park_of_ungated hg (s.solo l [] taken).schedule))
    rfl
  rw [run_solo, parked, run_solo]
  rfl

/-- The session in which the pass of the only job has come to its output. -/
def atEnd (output : Except Fault String) (l : Linter) : Session :=
  goOn (conclude (s.solo l [] false) job.uri job.sequence output).2 job.step job.task job.uri
    (conclude (s.solo l [] false) job.uri job.sequence output).1

theorem run_solo_await (h : Linter.Ungated a l) :
    (s.solo l [.goOn ⟨job, a⟩ 0] a.ownsDaemon).run = (s.atEnd job (l.await a).1 (l.await a).2).run := by
  fun_induction Linter.await a l with
  | case1 a l o m hp _ _ ih =>
    have next := h.operate hp
    have advanced : (s.solo l [] a.ownsDaemon).advance ⟨job, a⟩ =
        s.solo (m.handOver o) [.operate job o] o.ownsDaemon := by
      have hl : (s.solo l [] a.ownsDaemon).linter = l := rfl
      simp only [advance, hl, hp]
      have := Linter.owns_of_operate hp
      cases hs : a.ownsDaemon <;> cases ho : o.ownsDaemon
      · rfl
      · rw [this ho] at hs
        cases hs
      · rfl
      · rfl
    rw [run_solo, ← ih next, Linter.owns_operate, ← run_solo_operate s job o next.gate]
    exact congrArg run advanced
  | case2 a l b m hp _ ih =>
    have advanced : (s.solo l [] a.ownsDaemon).advance ⟨job, a⟩ = s.solo m [.goOn ⟨job, b⟩ 0] b.ownsDaemon := by
      have hl : (s.solo l [] a.ownsDaemon).linter = l := rfl
      simp only [advance, hl, hp]
      rw [Linter.owns_at_pause hp, Linter.owns_of_pause hp]
      rfl
    rw [run_solo, ← ih (h.pause hp)]
    exact congrArg run advanced
  | case3 a l output m hp =>
    have advanced : (s.solo l [] a.ownsDaemon).advance ⟨job, a⟩ = s.atEnd job output m := by
      have hl : (s.solo l [] a.ownsDaemon).linter = l := rfl
      simp only [advance, hl, hp]
      cases a.ownsDaemon <;> rfl
    rw [run_solo]
    exact congrArg run advanced

theorem solo_of_idle {s : Session} (ready : s.schedule.ready = []) (queued : s.schedule.queued = [])
    (free : s.schedule.daemonTaken = false) : s.solo l [] false = { s with linter := l } := by
  rw [solo, ← ready, ← queued, ← free]

/-- **A session with nothing else to do** lints a document by a pass alone. -/
theorem run_startTask {s : Session} (ready : s.schedule.ready = []) (queued : s.schedule.queued = [])
    (free : s.schedule.daemonTaken = false) {uri : LooseText} {file folder : Path}
    (hf : Workspace.workingFolder s.folders file = .ok folder)
    (ungated : ∀ n a, (s.linter.start s.settings uri file folder).1 = .waiting n a →
      Linter.Ungated a (s.linter.start s.settings uri file folder).2) (step : Nat) (task : Task) :
    (s.startTask step task uri file).run =
      (goOn { s with linter := (s.linter.lint s.settings uri file folder).2 } step task uri
        (s.linter.lint s.settings uri file folder).1).run := by
  have arrival (n : Nat) (a : Arrival) (h : (s.linter.start s.settings uri file folder).1 = .waiting n a) :=
    Linter.start_arrival h
  unfold startTask startPass Linter.lint
  rw [hf]
  dsimp only
  rcases hs : s.linter.start s.settings uri file folder with ⟨started, l⟩
  rw [hs] at ungated arrival
  cases started with
  | ended e => rfl
  | waiting n a =>
    have ungated := ungated n a rfl
    rcases arrival n a rfl with ⟨run, rfl⟩ | ⟨c, k, rfl⟩
    · have hg : s.schedule.gateOf (.tool run) = none := by
        rw [Schedule.gateOf, ungated.gate, Option.filter_none]
      have awaited : l.await (.tool run) = (Tool.finish run, l) := Linter.await_of_output rfl
      simp only [hg, Option.isSome_none, Bool.false_eq_true, if_false, awaited]
      rfl
    · have idle : s.solo l [] false = { s with linter := l } := solo_of_idle ready queued free
      have asking : (s.solo l [] true).advance ⟨⟨step, task, uri, n⟩, .daemon c k⟩ =
          suspend { s with linter := l } ⟨step, task, uri, n⟩ (.daemon c k) := by
        rw [← idle]
        rfl
      have alone := run_solo_await s ⟨step, task, uri, n⟩ ungated
      rw [run_solo] at alone
      have ended : s.atEnd ⟨step, task, uri, n⟩ (l.await (.daemon c k)).1 (l.await (.daemon c k)).2 = _ :=
        congrArg (fun t : Session => goOn (t.conclude uri n (l.await (.daemon c k)).1).2 step task uri
          (t.conclude uri n (l.await (.daemon c k)).1).1) (solo_of_idle ready queued free)
      exact (congrArg run asking.symm).trans (alone.trans (congrArg run ended))

end

end Session

end LintServer
