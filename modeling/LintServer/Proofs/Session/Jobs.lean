import LintServer.Session.Schedule
import Mathlib.Data.Multiset.AddSub
import Mathlib.Data.List.Perm.Basic

/-!
# Jobs in a schedule

A job is in the schedule once, whether its turn is ready, it waits at a gate or
it waits for the daemon. Going from one place to another keeps the jobs.
-/

namespace LintServer.Session

def Task.rest : Task → List LooseText
  | .relint rest => rest
  | _ => []

def Turn.job : Turn → Job
  | .operate job _ => job
  | .goOn w _ => w.job

namespace Schedule

def jobs (s : Schedule) : Multiset Job :=
  (s.ready.map Turn.job : Multiset Job) + (s.gated.map (·.2.job) : Multiset Job) +
    (s.queued.map (·.job) : Multiset Job)

theorem coe_map_concat {α β : Type} (f : α → β) (l : List α) (a : α) :
    ((l ++ [a]).map f : Multiset β) = f a ::ₘ (l.map f : Multiset β) := by
  rw [List.map_append]
  exact Multiset.coe_eq_coe.2 (List.perm_append_singleton (f a) (l.map f))

@[simp] theorem jobs_push (t : Turn) (s : Schedule) : (s.push t).jobs = t.job ::ₘ s.jobs := by
  simp only [jobs, push, coe_map_concat, Multiset.cons_add]

@[simp] theorem jobs_hold (gate : String) (w : Waiting) (s : Schedule) :
    (s.hold gate w).jobs = w.job ::ₘ s.jobs := by
  simp only [jobs, hold, coe_map_concat, Multiset.add_cons, Multiset.cons_add]

@[simp] theorem jobs_queue (w : Waiting) (s : Schedule) : (s.queue w).jobs = w.job ::ₘ s.jobs := by
  simp only [jobs, queue, coe_map_concat, Multiset.add_cons]

@[simp] theorem jobs_park (w : Waiting) (s : Schedule) : (s.park w).jobs = w.job ::ₘ s.jobs := by
  unfold park
  split
  · exact jobs_hold _ w s
  · exact jobs_push _ s

@[simp] theorem jobs_takeDaemon (s : Schedule) : s.takeDaemon.jobs = s.jobs := rfl

@[simp] theorem jobs_freeDaemon (s : Schedule) : s.freeDaemon.jobs = s.jobs := by
  unfold freeDaemon
  split
  · rfl
  · rename_i w rest h
    rw [jobs_push]
    simp only [jobs, h, Turn.job, List.map_cons, ← Multiset.cons_coe, Multiset.add_cons]

@[simp] theorem jobs_release (gate : String) (s : Schedule) : (s.release gate).jobs = s.jobs := by
  have h : (s.gated.map (·.2.job) : Multiset Job) =
      ((s.gated.filter (·.1 == gate)).map (·.2.job) : Multiset Job) +
        ((s.gated.filter (·.1 != gate)).map (·.2.job) : Multiset Job) := by
    rw [Multiset.coe_add, ← List.map_append]
    exact Multiset.coe_eq_coe.2 ((List.filter_append_perm _ s.gated).symm.map _)
  simp only [jobs, release, h, List.map_append, List.map_map, ← Multiset.coe_add]
  exact congrArg (· + _) (Multiset.add_assoc _ _ _)

theorem jobs_eraseIdx {s : Schedule} {i : Nat} {t : Turn} (h : s.ready[i]? = some t) :
    s.jobs = t.job ::ₘ { s with ready := s.ready.eraseIdx i }.jobs := by
  obtain ⟨hi, rfl⟩ := List.getElem?_eq_some_iff.1 h
  have hp : (s.ready.map Turn.job : Multiset Job) =
      s.ready[i].job ::ₘ ((s.ready.eraseIdx i).map Turn.job : Multiset Job) :=
    Multiset.coe_eq_coe.2 ((List.getElem_cons_eraseIdx_perm hi).symm.map _)
  simp only [jobs, hp, Multiset.cons_add]

end Schedule

end LintServer.Session
