import LintServer.Daemon.Probe

/-!
# The daemon of a session

A session owns one daemon process at most. The daemon gives no sign that it is
ready, so its port is probed, a fixed number of times at a fixed interval. A
daemon that listens already is used, whoever started it, and only an owned one
is ever killed.
-/

namespace LintServer.Daemon

inductive State where
  | absent
  | starting
  | listening
  | dead
  deriving DecidableEq, Repr

def State.text : State → String
  | .absent => "absent"
  | .starting => "starting"
  | .listening => "listening"
  | .dead => "dead"

structure Owned where
  pid : Nat
  endpoint : Endpoint
  deriving DecidableEq, Repr

structure Manager where
  interval : Double := Double.ofQuotient 1 4
  maxAttempts : Int := 20
  state : State := .absent
  owned : Option Owned := none
  endpoint : Option Endpoint := none
  spawnCount : Nat := 0
  hooked : Bool := false
  deriving DecidableEq, Repr

structure Status where
  state : State
  pid : Option Nat
  alive : Bool
  port : Option Int
  spawnCount : Nat
  deriving DecidableEq, Repr

/-- Where the search for a listening daemon stands: the probe with number `attempt` is
next, and `left` more may follow it. The probe with number zero comes before any start. -/
structure Search where
  endpoint : Endpoint
  command : List LooseText
  attempt : Nat
  left : Nat
  deriving DecidableEq, Repr

inductive Verdict where
  | ended (result : Except Fault Unit)
  | again (c : Search)

namespace Manager

def isAlive (m : Manager) (w : World) : Bool :=
  m.owned.any fun o => w.isAlive o.pid

def exitCode? (m : Manager) (w : World) : Option Int :=
  m.owned.bind fun o => w.exitCode? o.pid

def status (m : Manager) (w : World) : Status where
  state := m.state
  pid := m.owned.map Owned.pid
  alive := m.isAlive w
  port := m.endpoint.map Endpoint.port
  spawnCount := m.spawnCount

/-- Starts an owned process. The first start registers the exit hook. -/
def start (endpoint : Endpoint) (command : List LooseText) (m : Manager) (w : World) :
    Except Fault Unit × Manager × World :=
  match w.spawn command with
  | (.error e, w) =>
    if e.isSystem then
      (.error (.tool (.daemonNotStarted e)), { m with owned := none, state := .absent }, w)
    else (.error (.outside e), m, w)
  | (.ok pid, w) =>
    let w := if m.hooked then w else w.emit .registerHook
    (.ok (), { m with owned := some ⟨pid, endpoint⟩, spawnCount := m.spawnCount + 1, hooked := true }, w)

def newSearch (endpoint : Endpoint) (command : List LooseText) (m : Manager) : Search :=
  ⟨endpoint, command, 0, m.maxAttempts.toNat⟩

def aim (endpoint : Endpoint) (m : Manager) : Manager :=
  { m with endpoint := some endpoint }

def next (c : Search) (m : Manager) (w : World) : Verdict × Manager × World :=
  match c.left with
  | 0 => (.ended (.error (.unavailable ⟨c.endpoint.port, m.maxAttempts, none⟩)),
      { m with state := if m.isAlive w then .starting else .dead }, w)
  | left + 1 => (.again { c with attempt := c.attempt + 1, left := left }, m, w.emit (.sleep m.interval))

def revive (c : Search) (m : Manager) (w : World) : Except Fault Unit × Manager × World :=
  if m.isAlive w then (.ok (), m, w)
  else start c.endpoint c.command (if m.owned.isSome then { m with state := .dead } else m) w

def launch (c : Search) (m : Manager) (w : World) : Verdict × Manager × World :=
  match revive c m w with
  | (.error e, m, w) => (.ended (.error e), m, w)
  | (.ok (), m, w) => next c { m with state := .starting } w

/-- Takes in what a probe found. -/
def advance (c : Search) (found : Except Fault Bool) (m : Manager) (w : World) : Verdict × Manager × World :=
  match found with
  | .error e => (.ended (.error e), m, w)
  | .ok true => (.ended (.ok ()), { m with state := .listening }, w)
  | .ok false =>
    if c.attempt = 0 then launch c m w
    else
      match m.exitCode? w with
      | some code =>
        (.ended (.error (.unavailable ⟨c.endpoint.port, c.attempt, some code⟩)),
          { m with state := .dead }, w)
      | none => next c m w

theorem left_of_next {c d : Search} {m n : Manager} {w v : World} (h : next c m w = (.again d, n, v)) :
    d.left < c.left := by
  unfold next at h
  split at h
  · cases h
  · cases h; simp_all

theorem left_of_launch {c d : Search} {m n : Manager} {w v : World} (h : launch c m w = (.again d, n, v)) :
    d.left < c.left := by
  unfold launch at h
  split at h
  · cases h
  · exact left_of_next h

theorem left_of_advance {c d : Search} {found : Except Fault Bool} {m n : Manager} {w v : World}
    (h : advance c found m w = (.again d, n, v)) : d.left < c.left := by
  unfold advance at h
  split at h
  · cases h
  · cases h
  · split at h
    · exact left_of_launch h
    · split at h
      · cases h
      · exact left_of_next h

def search (probe : Probe) (c : Search) (m : Manager) (w : World) : Except Fault Unit × Manager × World :=
  let (found, w) := probe c.endpoint w
  match h : advance c found m w with
  | (.ended result, m, w) => (result, m, w)
  | (.again d, m, w) =>
    have := left_of_advance h
    search probe d m w
termination_by c.left

theorem search_of_ended {probe : Probe} {c : Search} {m n : Manager} {w v : World} {result : Except Fault Unit}
    (h : advance c (probe c.endpoint w).1 m (probe c.endpoint w).2 = (.ended result, n, v)) :
    search probe c m w = (result, n, v) := by
  rw [search]
  dsimp only
  split <;> rename_i e <;> cases h.symm.trans e
  rfl

theorem search_of_again {probe : Probe} {c d : Search} {m n : Manager} {w v : World}
    (h : advance c (probe c.endpoint w).1 m (probe c.endpoint w).2 = (.again d, n, v)) :
    search probe c m w = search probe d n v := by
  rw [search]
  dsimp only
  split <;> rename_i e <;> cases h.symm.trans e
  rfl

/-- What every probe keeps, a search keeps. -/
theorem search_keeps {probe : Probe} {P : Search → Manager → World → Prop}
    {Q : Except Fault Unit → Manager → World → Prop}
    (ended : ∀ c m w result n v, P c m w →
      advance c (probe c.endpoint w).1 m (probe c.endpoint w).2 = (.ended result, n, v) → Q result n v)
    (again : ∀ c m w d n v, P c m w →
      advance c (probe c.endpoint w).1 m (probe c.endpoint w).2 = (.again d, n, v) → P d n v)
    (c : Search) (m : Manager) (w : World) (h : P c m w) :
    Q (search probe c m w).1 (search probe c m w).2.1 (search probe c m w).2.2 := by
  rcases ha : advance c (probe c.endpoint w).1 m (probe c.endpoint w).2 with ⟨verdict, n, v⟩
  cases verdict with
  | ended result =>
    rw [search_of_ended ha]
    exact ended c m w result n v h ha
  | again d =>
    have := left_of_advance ha
    rw [search_of_again ha]
    exact search_keeps ended again d n v (again c m w d n v h ha)
termination_by c.left

/-- Makes sure that a daemon listens, starting one if no owned process lives. -/
def ensureRunning (probe : Probe) (endpoint : Endpoint) (command : List LooseText) (m : Manager) (w : World) :
    Except Fault Unit × Manager × World :=
  search probe (m.newSearch endpoint command) (m.aim endpoint) w

def release (m : Manager) : Manager :=
  { m with owned := none, state := .absent }

/-- Lets go of the owned process, and kills it if it lives. An error of the operating
system changes nothing. -/
def shutdown (m : Manager) (w : World) : Except Fault Unit × Manager × World :=
  match m.owned with
  | none => (.ok (), m.release, w)
  | some o =>
    if w.isAlive o.pid then
      match w.kill o.pid with
      | (.ok (), w) => (.ok (), m.release, w)
      | (.error e, w) => (if e.isSystem then .ok () else .error (.outside e), m.release, w)
    else (.ok (), m.release, w)

/-- A shutdown raises nothing, since a kill has no other errors. -/
theorem shutdown_eq (m : Manager) (w : World) : m.shutdown w = (.ok (), m.release,
    match m.owned with
    | none => w
    | some o => if w.isAlive o.pid then (w.kill o.pid).2 else w) := by
  unfold shutdown
  cases m.owned with
  | none => rfl
  | some o =>
    dsimp only
    split
    · split
      · rename_i killed
        rw [killed]
      · rename_i killed
        rw [if_pos (World.isSystem_of_kill killed), killed]
    · rfl

def runHook (m : Manager) (w : World) : Except Fault Unit × Manager × World :=
  if m.hooked then m.shutdown w else (.ok (), m, w)

end Manager

end LintServer.Daemon
