import LintServer.Daemon.Manager
import Mathlib.Logic.Function.Iterate

/-!
# Rounds of a call

A call probes once, starts a process at most once, and then goes through rounds of a
pause and a probe. The first round that decides ends it, and the number of attempts
bounds the rounds (`ensureRunning_exact`).
-/

namespace LintServer.Daemon

namespace Manager

/-! ## Rounds -/

section
variable (probe : Probe) (endpoint : Endpoint) (m : Manager)

/-- A pause and a probe. -/
def round (w : World) : Except Fault Bool × World :=
  probe endpoint (w.emit (.sleep m.interval))

def afterRounds (k : Nat) (w : World) : World :=
  (fun w => (round probe endpoint m w).2)^[k] w

/-- What the probe finds in the round that `k` rounds go before. -/
def sighting (k : Nat) (w : World) : Except Fault Bool :=
  (round probe endpoint m (afterRounds probe endpoint m k w)).1

/-- After `k` rounds another one finds that nobody listens, and the owned process has not exited. -/
def Undecided (w : World) (k : Nat) : Prop :=
  sighting probe endpoint m k w = .ok false ∧ m.exitCode? (afterRounds probe endpoint m (k + 1) w) = none

/-- What ends the rounds with number `attempt`, from what its probe found and the world behind it. -/
inductive Decided (attempt : Nat) (w : World) : Except Fault Bool → Except Fault Unit × Manager × World → Prop
  | listening : Decided attempt w (.ok true) (.ok (), { m with state := .listening }, w)
  | exited (code : Int) (h : m.exitCode? w = some code) : Decided attempt w (.ok false)
      (.error (.unavailable ⟨endpoint.port, attempt, some code⟩), { m with state := .dead }, w)
  | broken (e : Fault) : Decided attempt w (.error e) (.error e, m, w)

/-- How rounds end that `done` others went before, if `left` are allowed: with the first that decides,
or with none. -/
inductive Polled (done left : Nat) (w : World) : Except Fault Unit × Manager × World → Prop
  | decided (k : Nat) (hk : k < left) (before : ∀ j < k, Undecided probe endpoint m w j)
      {r : Except Fault Unit × Manager × World}
      (h : Decided endpoint m (done + k + 1) (afterRounds probe endpoint m (k + 1) w)
        (sighting probe endpoint m k w) r) :
      Polled done left w r
  | exhausted (before : ∀ j < left, Undecided probe endpoint m w j) :
      Polled done left w (.error (.unavailable ⟨endpoint.port, m.maxAttempts, none⟩),
        { m with state := if m.isAlive (afterRounds probe endpoint m left w) then .starting else .dead },
        afterRounds probe endpoint m left w)

end

section
variable {probe : Probe} {endpoint : Endpoint} {m : Manager} {done left : Nat} {w : World}
  {r : Except Fault Unit × Manager × World}

theorem afterRounds_succ (k : Nat) :
    afterRounds probe endpoint m (k + 1) w = afterRounds probe endpoint m k (round probe endpoint m w).2 := rfl

theorem undecided_zero : Undecided probe endpoint m w 0 ↔
    sighting probe endpoint m 0 w = .ok false ∧ m.exitCode? (round probe endpoint m w).2 = none := Iff.rfl

theorem undecided_lt_succ (k : Nat) : (∀ j < k + 1, Undecided probe endpoint m w j) ↔
    Undecided probe endpoint m w 0 ∧ ∀ j < k, Undecided probe endpoint m (round probe endpoint m w).2 j := by
  constructor
  · intro h
    exact ⟨h 0 (by omega), fun j hj => h (j + 1) (by omega)⟩
  · rintro ⟨first, rest⟩ j hj
    cases j with
    | zero => exact first
    | succ j => exact rest j (by omega)

theorem decided_error (attempt : Nat) (e : Fault) :
    Decided endpoint m attempt w (.error e) r ↔ (.error e, m, w) = r :=
  ⟨fun h => by cases h; rfl, fun h => h ▸ .broken e⟩

theorem decided_true (attempt : Nat) :
    Decided endpoint m attempt w (.ok true) r ↔ (.ok (), { m with state := .listening }, w) = r :=
  ⟨fun h => by cases h; rfl, fun h => h ▸ .listening⟩

theorem decided_false {code : Int} (exit : m.exitCode? w = some code) (attempt : Nat) :
    Decided endpoint m attempt w (.ok false) r ↔
      (.error (.unavailable ⟨endpoint.port, attempt, some code⟩), { m with state := .dead }, w) = r := by
  refine ⟨fun h => ?_, fun h => h ▸ .exited code exit⟩
  cases h with
  | exited other h =>
    cases exit.symm.trans h
    rfl

theorem not_decided {attempt : Nat} (alive : m.exitCode? w = none) : ¬ Decided endpoint m attempt w (.ok false) r := by
  rintro (_ | ⟨code, h⟩)
  cases alive.symm.trans h

theorem polled_zero : Polled probe endpoint m done 0 w r ↔
    (.error (.unavailable ⟨endpoint.port, m.maxAttempts, none⟩),
      { m with state := if m.isAlive w then .starting else .dead }, w) = r := by
  constructor
  · intro h
    cases h with
    | decided k hk => exact absurd hk (Nat.not_lt_zero k)
    | exhausted _ => rfl
  · rintro rfl
    exact .exhausted fun j hj => absurd hj (Nat.not_lt_zero j)

theorem polled_succ : Polled probe endpoint m done (left + 1) w r ↔
    Decided endpoint m (done + 1) (round probe endpoint m w).2 (sighting probe endpoint m 0 w) r ∨
      Undecided probe endpoint m w 0 ∧ Polled probe endpoint m (done + 1) left (round probe endpoint m w).2 r := by
  constructor
  · intro h
    cases h with
    | decided k hk before h =>
      cases k with
      | zero => exact .inl h
      | succ k =>
        obtain ⟨first, rest⟩ := (undecided_lt_succ k).1 before
        rw [← Nat.add_assoc, Nat.add_right_comm done k 1] at h
        exact .inr ⟨first, .decided k (by omega) rest h⟩
    | exhausted before =>
      obtain ⟨first, rest⟩ := (undecided_lt_succ left).1 before
      exact .inr ⟨first, .exhausted rest⟩
  · rintro (h | ⟨first, h⟩)
    · exact .decided 0 (by omega) (fun j hj => absurd hj (Nat.not_lt_zero j)) h
    · cases h with
      | decided k hk rest h =>
        refine .decided (k + 1) (by omega) ((undecided_lt_succ k).2 ⟨first, rest⟩) ?_
        rwa [← Nat.add_assoc, Nat.add_right_comm done k 1]
      | exhausted rest => exact .exhausted ((undecided_lt_succ left).2 ⟨first, rest⟩)

/-! ## Searches -/

/-- Goes on with a search that has not ended. -/
def settle (probe : Probe) : Verdict × Manager × World → Except Fault Unit × Manager × World
  | (.ended result, m, w) => (result, m, w)
  | (.again c, m, w) => search probe c m w

theorem search_eq (probe : Probe) (c : Search) (m : Manager) (w : World) :
    search probe c m w = settle probe (advance c (probe c.endpoint w).1 m (probe c.endpoint w).2) := by
  rcases h : advance c (probe c.endpoint w).1 m (probe c.endpoint w).2 with ⟨verdict, n, v⟩
  cases verdict with
  | ended result => exact search_of_ended h
  | again d => exact search_of_again h

/-- The rounds of a search are polled. -/
theorem settle_next_iff (command : List LooseText) :
    settle probe (next ⟨endpoint, command, done, left⟩ m w) = r ↔ Polled probe endpoint m done left w r := by
  induction left generalizing done w with
  | zero => exact polled_zero.symm
  | succ left ih =>
    have again : settle probe (next ⟨endpoint, command, done, left + 1⟩ m w) =
        settle probe (advance ⟨endpoint, command, done + 1, left⟩ (sighting probe endpoint m 0 w) m
          (round probe endpoint m w).2) := search_eq probe ⟨endpoint, command, done + 1, left⟩ m _
    rw [again, polled_succ, undecided_zero]
    cases sighting probe endpoint m 0 w with
    | error e =>
      rw [decided_error]
      exact (or_iff_left fun h => nomatch h.1.1).symm
    | ok listening =>
      cases listening with
      | true =>
        rw [decided_true]
        exact (or_iff_left fun h => nomatch h.1.1).symm
      | false =>
        cases exit : m.exitCode? (round probe endpoint m w).2 with
        | some code =>
          rw [decided_false exit, or_iff_left fun h => nomatch h.1.2]
          simp only [advance, exit]
          rfl
        | none =>
          rw [or_iff_right (not_decided exit), and_iff_right ⟨rfl, rfl⟩, ← ih]
          simp only [advance, exit]
          rfl

end

/-! ## Calls -/

/-- What one call does, and how it ends. -/
inductive Called (probe : Probe) (endpoint : Endpoint) (command : List LooseText) (m : Manager) (w : World) :
    Except Fault Unit × Manager × World → Prop
  | listening (h : (probe endpoint w).1 = .ok true) :
      Called probe endpoint command m w (.ok (), { m.aim endpoint with state := .listening }, (probe endpoint w).2)
  | broken (e : Fault) (h : (probe endpoint w).1 = .error e) :
      Called probe endpoint command m w (.error e, m.aim endpoint, (probe endpoint w).2)
  | living (h : (probe endpoint w).1 = .ok false) (alive : m.isAlive (probe endpoint w).2 = true)
      {r : Except Fault Unit × Manager × World}
      (polled : Polled probe endpoint { m.aim endpoint with state := .starting } 0 m.maxAttempts.toNat
        (probe endpoint w).2 r) :
      Called probe endpoint command m w r
  | started (h : (probe endpoint w).1 = .ok false) (dead : m.isAlive (probe endpoint w).2 = false)
      (pid : Nat) (v : World) (spawned : (probe endpoint w).2.spawn command = (.ok pid, v))
      {r : Except Fault Unit × Manager × World}
      (polled : Polled probe endpoint
        { m.aim endpoint with
          state := .starting, owned := some ⟨pid, endpoint⟩, spawnCount := m.spawnCount + 1, hooked := true }
        0 m.maxAttempts.toNat (if m.hooked then v else v.emit .registerHook) r) :
      Called probe endpoint command m w r
  | notStarted (h : (probe endpoint w).1 = .ok false) (dead : m.isAlive (probe endpoint w).2 = false)
      (e : Accident) (v : World) (failed : (probe endpoint w).2.spawn command = (.error e, v))
      (system : e.isSystem = true) :
      Called probe endpoint command m w
        (.error (.tool (.daemonNotStarted e)), { m.aim endpoint with owned := none, state := .absent }, v)
  | startBroken (h : (probe endpoint w).1 = .ok false) (dead : m.isAlive (probe endpoint w).2 = false)
      (e : Accident) (v : World) (failed : (probe endpoint w).2.spawn command = (.error e, v))
      (other : e.isSystem = false) :
      Called probe endpoint command m w
        (.error (.outside e), { m.aim endpoint with state := if m.owned.isSome then .dead else m.state }, v)

section
variable {probe : Probe} {endpoint : Endpoint} {command : List LooseText} {m : Manager} {w : World}
  {r : Except Fault Unit × Manager × World}

section
variable {c : Search}

theorem launch_of_alive (alive : m.isAlive w = true) : launch c m w = next c { m with state := .starting } w := by
  unfold launch revive
  rw [if_pos alive]

theorem revive_of_dead (dead : m.isAlive w = false) :
    revive c m w = start c.endpoint c.command { m with state := if m.owned.isSome then .dead else m.state } w := by
  unfold revive
  rw [if_neg (by simp [dead])]
  obtain ⟨interval, maxAttempts, state, owned, endpoint, spawnCount, hooked⟩ := m
  cases owned <;> rfl

theorem launch_of_spawned (dead : m.isAlive w = false) {pid : Nat} {v : World}
    (spawned : w.spawn c.command = (.ok pid, v)) :
    launch c m w = next c
      { m with
        state := .starting, owned := some ⟨pid, c.endpoint⟩, spawnCount := m.spawnCount + 1, hooked := true }
      (if m.hooked then v else v.emit .registerHook) := by
  unfold launch
  rw [revive_of_dead dead, start, spawned]

theorem launch_of_failed (dead : m.isAlive w = false) {e : Accident} {v : World}
    (failed : w.spawn c.command = (.error e, v)) :
    launch c m w =
      if e.isSystem then
        (.ended (.error (.tool (.daemonNotStarted e))), { m with owned := none, state := .absent }, v)
      else (.ended (.error (.outside e)), { m with state := if m.owned.isSome then .dead else m.state }, v) := by
  unfold launch
  rw [revive_of_dead dead, start, failed]
  dsimp only
  cases e.isSystem <;> rfl

end

theorem ensureRunning_eq : ensureRunning probe endpoint command m w =
    settle probe (advance (m.newSearch endpoint command) (probe endpoint w).1 (m.aim endpoint) (probe endpoint w).2) :=
  search_eq probe (m.newSearch endpoint command) (m.aim endpoint) w

theorem ensureRunning_of_closed (h : (probe endpoint w).1 = .ok false) :
    ensureRunning probe endpoint command m w =
      settle probe (launch (m.newSearch endpoint command) (m.aim endpoint) (probe endpoint w).2) := by
  rw [ensureRunning_eq, h]
  rfl

theorem called_ensureRunning : Called probe endpoint command m w (ensureRunning probe endpoint command m w) := by
  cases found : (probe endpoint w).1 with
  | error e =>
    rw [ensureRunning_eq, found]
    exact .broken e found
  | ok listening =>
    cases listening with
    | true =>
      rw [ensureRunning_eq, found]
      exact .listening found
    | false =>
      rw [ensureRunning_of_closed found]
      cases alive : m.isAlive (probe endpoint w).2 with
      | true =>
        rw [launch_of_alive (m := m.aim endpoint) alive]
        exact .living found alive ((settle_next_iff command).1 rfl)
      | false =>
        rcases spawned : (probe endpoint w).2.spawn command with ⟨result, v⟩
        cases result with
        | ok pid =>
          rw [launch_of_spawned (c := m.newSearch endpoint command) (m := m.aim endpoint) alive spawned]
          exact .started found alive pid v spawned ((settle_next_iff command).1 rfl)
        | error e =>
          rw [launch_of_failed (c := m.newSearch endpoint command) (m := m.aim endpoint) alive spawned]
          cases system : e.isSystem with
          | true => exact .notStarted found alive e v spawned system
          | false => exact .startBroken found alive e v spawned system

theorem ensureRunning_of_called (h : Called probe endpoint command m w r) :
    ensureRunning probe endpoint command m w = r := by
  cases h with
  | listening h =>
    rw [ensureRunning_eq, h]
    rfl
  | broken e h =>
    rw [ensureRunning_eq, h]
    rfl
  | living h alive polled =>
    rw [ensureRunning_of_closed h, launch_of_alive (m := m.aim endpoint) alive]
    exact (settle_next_iff command).2 polled
  | started h dead pid v spawned polled =>
    rw [ensureRunning_of_closed h,
      launch_of_spawned (c := m.newSearch endpoint command) (m := m.aim endpoint) dead spawned]
    exact (settle_next_iff command).2 polled
  | notStarted h dead e v failed system =>
    rw [ensureRunning_of_closed h,
      launch_of_failed (c := m.newSearch endpoint command) (m := m.aim endpoint) dead failed, if_pos system]
    rfl
  | startBroken h dead e v failed other =>
    rw [ensureRunning_of_closed h,
      launch_of_failed (c := m.newSearch endpoint command) (m := m.aim endpoint) dead failed, if_neg (by simp [other])]
    rfl

end

/-! ## Events -/

/-- What the log shows of rounds. -/
def roundEvents (endpoint : Endpoint) (m : Manager) (k : Nat) : List Event :=
  (List.replicate k [.sleep m.interval, .probe endpoint]).flatten

/-- What the log shows of a start, which is asked for if the first probe finds that nobody listens
and no owned process lives then. -/
def startEvents (probe : Probe) (endpoint : Endpoint) (command : List LooseText) (m : Manager) (w : World) :
    List Event :=
  match (probe endpoint w).1 with
  | .ok false =>
    if m.isAlive (probe endpoint w).2 then []
    else
      match ((probe endpoint w).2.spawn command).1 with
      | .ok _ => .spawn command :: if m.hooked then [] else [.registerHook]
      | .error _ => [.spawn command]
  | _ => []

theorem log_spawn {w v : World} {command : List LooseText} {result : Except Accident Nat}
    (h : w.spawn command = (result, v)) : v.log = w.log ++ [.spawn command] := by
  have told : (w.spawn command).2.log = w.log ++ [.spawn command] := by
    unfold World.spawn
    dsimp only
    cases (w.emit (.spawn command)).launches with
    | nil => rfl
    | cons l rest =>
      dsimp only
      cases l.error <;> rfl
  rwa [h] at told

section
variable {probe : Probe} (tells : ∀ endpoint (w : World), (probe endpoint w).2.log = w.log ++ [.probe endpoint])
  {endpoint : Endpoint} {m : Manager} {w : World} {r : Except Fault Unit × Manager × World}
include tells

theorem log_afterRounds (k : Nat) :
    (afterRounds probe endpoint m k w).log = w.log ++ roundEvents endpoint m k := by
  induction k generalizing w with
  | zero => exact (List.append_nil w.log).symm
  | succ k ih =>
    rw [afterRounds_succ, ih, round, tells, World.emit, roundEvents, roundEvents, List.replicate_succ,
      List.flatten_cons, ← List.append_assoc, List.append_assoc w.log]
    rfl

theorem log_polled {done left : Nat} (h : Polled probe endpoint m done left w r) :
    ∃ k ≤ left, r.2.2.log = w.log ++ roundEvents endpoint m k := by
  cases h with
  | decided k hk before h =>
    refine ⟨k + 1, hk, ?_⟩
    rw [← log_afterRounds tells]
    generalize sighting probe endpoint m k w = found at h
    cases h <;> rfl
  | exhausted before => exact ⟨left, Nat.le_refl left, log_afterRounds tells left⟩

theorem log_called {command : List LooseText} (h : Called probe endpoint command m w r) :
    ∃ k ≤ m.maxAttempts.toNat,
      r.2.2.log = w.log ++ [.probe endpoint] ++ startEvents probe endpoint command m w ++ roundEvents endpoint m k := by
  unfold startEvents
  have first := tells endpoint w
  cases h with
  | listening h => exact ⟨0, Nat.zero_le _, by simp [h, first, roundEvents]⟩
  | broken e h => exact ⟨0, Nat.zero_le _, by simp [h, first, roundEvents]⟩
  | living h alive polled =>
    obtain ⟨k, hk, told⟩ := log_polled tells polled
    refine ⟨k, hk, ?_⟩
    rw [told, first]
    simp [h, alive, roundEvents, aim]
  | started h dead pid v spawned polled =>
    obtain ⟨k, hk, told⟩ := log_polled tells polled
    refine ⟨k, hk, ?_⟩
    have started := log_spawn spawned
    rw [first] at started
    rw [told]
    cases hooked : m.hooked <;> simp [h, dead, spawned, hooked, started, roundEvents, aim, World.emit]
  | notStarted h dead e v failed system =>
    have started := log_spawn failed
    rw [first] at started
    exact ⟨0, Nat.zero_le _, by simp [h, dead, failed, started, roundEvents]⟩
  | startBroken h dead e v failed other =>
    have started := log_spawn failed
    rw [first] at started
    exact ⟨0, Nat.zero_le _, by simp [h, dead, failed, started, roundEvents]⟩

end

/-- **A call, exactly.** It probes once, and that is all if somebody listens. If nobody does and no owned
process lives it starts one, and never a second. Then it goes through rounds until one decides or
the attempts are used up. -/
theorem ensureRunning_exact (probe : Probe) (endpoint : Endpoint) (command : List LooseText) (m : Manager) (w : World) :
    (∀ r, ensureRunning probe endpoint command m w = r ↔ Called probe endpoint command m w r) ∧
    ((∀ endpoint w, (probe endpoint w).2.log = w.log ++ [.probe endpoint]) →
      ∃ k ≤ m.maxAttempts.toNat, (ensureRunning probe endpoint command m w).2.2.log =
        w.log ++ [.probe endpoint] ++ startEvents probe endpoint command m w ++ roundEvents endpoint m k) :=
  ⟨fun _ => ⟨fun h => h ▸ called_ensureRunning, ensureRunning_of_called⟩,
    fun tells => log_called tells called_ensureRunning⟩

theorem tells_ofWorld (endpoint : Endpoint) (w : World) :
    (Probe.ofWorld endpoint w).2.log = w.log ++ [.probe endpoint] := by
  unfold Probe.ofWorld World.probe
  dsimp only
  cases (w.emit (.probe endpoint)).contact.probes with
  | nil => rfl
  | cons p rest => cases p <;> rfl

/-- The owned process has exited, another is started in its place, and exits too while it is found listening. -/
theorem ensureRunning_exact_found_exited :
    let m : Manager := { maxAttempts := 5, state := .dead, owned := some ⟨1001, {}⟩, spawnCount := 1, hooked := true }
    let w : World :=
      { processes := [(Process.start 1001 {}).exit 0], launches := [{ exitAfter := some 2, code := 3 }]
        probes := [.ok false, .ok false, .ok true] }
    let r := ensureRunning .ofWorld {} ["tool"] m w
    Called .ofWorld {} ["tool"] m w r ∧ r.1.isOk = true ∧ r.2.1.state = .listening ∧
      r.2.1.exitCode? r.2.2 = some 3 ∧
      ∃ k ≤ 5, r.2.2.log = [] ++ [.probe {}] ++ startEvents .ofWorld {} ["tool"] m w ++ roundEvents {} m k := by
  intro m w r
  obtain ⟨exact, events⟩ := ensureRunning_exact .ofWorld {} ["tool"] m w
  exact ⟨(exact r).1 rfl, by decide +kernel, by decide +kernel, by decide +kernel, events tells_ofWorld⟩

end Manager

end LintServer.Daemon
