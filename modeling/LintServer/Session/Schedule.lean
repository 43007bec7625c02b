import LintServer.Lint.Pass

/-!
# Schedules

Jobs take turns, first come first served. An operation takes three turns: one
carries it out, one notices that it was, and in the third the job goes on. An
interval between probes takes one. The daemon is handed from job to job in the
order in which they came for it.
-/

namespace LintServer.Session

/-- What is left of a step when its pass has ended. -/
inductive Task where
  | document
  | command
  | relint (rest : List LooseText)
  deriving DecidableEq, Repr

def Task.pending : Task → Nat
  | .relint rest => rest.length
  | _ => 0

/-- A step in the middle of a pass. -/
structure Job where
  step : Nat
  task : Task
  uri : LooseText
  sequence : Nat
  deriving DecidableEq, Repr

structure Waiting where
  job : Job
  arrival : Lint.Arrival
  deriving DecidableEq, Repr

/-- A turn: an operation, or a job that goes on after `delay` more turns. -/
inductive Turn where
  | operate (job : Job) (o : Lint.Operation)
  | goOn (w : Waiting) (delay : Nat)
  deriving DecidableEq, Repr

/-- The turns from the release of a gate to the one in which the job goes on. -/
def Waiting.delay (w : Waiting) : Nat :=
  match w.arrival with
  | .reply _ => 2
  | _ => 0

def Waiting.rank (w : Waiting) : Nat :=
  w.arrival.rank + 1

namespace Turn

def pending : Turn → Nat
  | .operate job _ => job.task.pending
  | .goOn w _ => w.job.task.pending

def rank : Turn → Nat
  | .operate _ o => o.rank
  | .goOn w delay => w.rank + delay

end Turn

structure Schedule where
  ready : List Turn := []
  /-- The jobs that wait at a gate, with its name. -/
  gated : List (String × Waiting) := []
  queued : List Waiting := []
  daemonTaken : Bool := false
  released : List String := []
  deriving DecidableEq, Repr

namespace Schedule

def push (t : Turn) (s : Schedule) : Schedule :=
  { s with ready := s.ready ++ [t] }

def gateOf (a : Lint.Arrival) (s : Schedule) : Option String :=
  a.gate.filter fun gate => !s.released.contains gate

def hold (gate : String) (w : Waiting) (s : Schedule) : Schedule :=
  { s with gated := s.gated ++ [(gate, w)] }

/-- A job waits for what an operation brought, if need be at its gate. -/
def park (w : Waiting) (s : Schedule) : Schedule :=
  match s.gateOf w.arrival with
  | some gate => s.hold gate w
  | none => s.push (.goOn w 1)

def queue (w : Waiting) (s : Schedule) : Schedule :=
  { s with queued := s.queued ++ [w] }

def takeDaemon (s : Schedule) : Schedule :=
  { s with daemonTaken := true }

/-- Hands the daemon to the job that came first. -/
def freeDaemon (s : Schedule) : Schedule :=
  match s.queued with
  | [] => { s with daemonTaken := false }
  | w :: rest => { s with queued := rest }.push (.goOn w 0)

/-- Releases a gate: the jobs at it get their turns in the order in which they came. -/
def release (gate : String) (s : Schedule) : Schedule :=
  let woken := s.gated.filter (·.1 == gate)
  { s with
    ready := s.ready ++ woken.map fun (_, w) => .goOn w w.delay
    gated := s.gated.filter (·.1 != gate)
    released := gate :: s.released }

def total {α : Type} (measure : α → Nat) : List α → Nat
  | [] => 0
  | a :: rest => measure a + total measure rest

/-- The documents that the jobs in the schedule still have to lint. -/
def pending (s : Schedule) : Nat :=
  total Turn.pending s.ready + total (·.job.task.pending) s.queued

/-- How much the passes in the schedule still have to do. -/
def rank (s : Schedule) : Nat :=
  total Turn.rank s.ready + total Waiting.rank s.queued

@[simp] theorem total_nil {α : Type} (measure : α → Nat) : total measure [] = 0 := rfl

@[simp] theorem total_cons {α : Type} (measure : α → Nat) (a : α) (rest : List α) :
    total measure (a :: rest) = measure a + total measure rest := rfl

@[simp] theorem total_append {α : Type} (measure : α → Nat) (xs ys : List α) :
    total measure (xs ++ ys) = total measure xs + total measure ys := by
  induction xs with
  | nil => simp
  | cons x xs ih => simp [ih, Nat.add_assoc]

@[simp] theorem pending_push (t : Turn) (s : Schedule) : (s.push t).pending = s.pending + t.pending := by
  simp [push, pending]
  omega

@[simp] theorem rank_push (t : Turn) (s : Schedule) : (s.push t).rank = s.rank + t.rank := by
  simp [push, rank]
  omega

@[simp] theorem pending_hold (gate : String) (w : Waiting) (s : Schedule) :
    (s.hold gate w).pending = s.pending := rfl

@[simp] theorem rank_hold (gate : String) (w : Waiting) (s : Schedule) : (s.hold gate w).rank = s.rank := rfl

@[simp] theorem pending_queue (w : Waiting) (s : Schedule) :
    (s.queue w).pending = s.pending + w.job.task.pending := by
  simp [queue, pending]
  omega

@[simp] theorem pending_takeDaemon (s : Schedule) : s.takeDaemon.pending = s.pending := rfl

@[simp] theorem pending_freeDaemon (s : Schedule) : s.freeDaemon.pending = s.pending := by
  unfold freeDaemon
  split
  · rfl
  · simp [pending, *, push, Turn.pending]
    omega

@[simp] theorem rank_freeDaemon (s : Schedule) : s.freeDaemon.rank = s.rank := by
  unfold freeDaemon
  split
  · rfl
  · simp [rank, *, push, Turn.rank]
    omega

theorem pending_park_le (w : Waiting) (s : Schedule) :
    (s.park w).pending ≤ s.pending + w.job.task.pending := by
  unfold park
  split <;> simp [Turn.pending]

theorem rank_park_le (w : Waiting) (s : Schedule) : (s.park w).rank ≤ s.rank + w.rank + 1 := by
  unfold park
  split <;> simp [Turn.rank]
  · omega
  · omega

end Schedule

end LintServer.Session
