import LintServer.Proofs.Daemon.Roll

/-!
# No orphans

While the calls of a manager wait for their probes, other calls go on, the daemon is
shut down, the exit hook runs and processes exit, in any order (`Watch.Step`). No
process that was started gets lost in this: while it lives it is owned, unless a
kill was tried in vain (`no_orphan`).
-/

namespace LintServer.Daemon

open Relation (ReflGen ReflTransGen)

/-- A manager at work, with the searches of the calls that wait for a probe. -/
structure Watch where
  manager : Manager
  world : World
  searches : List Search := []

namespace Watch

def opening (interval : Double) (maxAttempts : Int) (world : World) : Watch where
  manager := { interval := interval, maxAttempts := maxAttempts }
  world := { world with processes := [], log := [] }

def roll (t : Watch) : Roll := t.manager.roll t.world

def shutdown (t : Watch) : Watch :=
  let (_, m, w) := t.manager.shutdown t.world
  { t with manager := m, world := w }

def runHook (t : Watch) : Watch :=
  let (_, m, w) := t.manager.runHook t.world
  { t with manager := m, world := w }

def call (t : Watch) (endpoint : Endpoint) (command : List LooseText) : Watch :=
  { t with
    manager := t.manager.aim endpoint
    searches := t.searches ++ [t.manager.newSearch endpoint command] }

/-- The search at `i` takes in what its probe found, and goes on up to the next probe. -/
def goOn (t : Watch) (i : Nat) (c : Search) (found : Except Fault Bool) : Watch :=
  match Manager.advance c found t.manager t.world with
  | (.ended _, m, w) => ⟨m, w, t.searches.eraseIdx i⟩
  | (.again d, m, w) => ⟨m, w, t.searches.set i d⟩

/-- What may happen between two waits. -/
inductive Step (t : Watch) : Watch → Prop
  | call (endpoint : Endpoint) (command : List LooseText) : Step t (t.call endpoint command)
  | goOn (i : Nat) (c : Search) (found : Except Fault Bool) (h : t.searches[i]? = some c) :
      Step t (t.goOn i c found)
  | shutdown : Step t t.shutdown
  | exitHook : Step t t.runHook
  | outside (world : World) (h : t.world.Ages world) : Step t { t with world := world }

def Reachable (t : Watch) : Prop :=
  ∃ interval maxAttempts world, ReflTransGen Step (opening interval maxAttempts world) t

theorem Step.change {t u : Watch} (h : t.Step u) :
    ∃ endpoint, ReflGen (Roll.Change endpoint) t.roll u.roll := by
  cases h with
  | call endpoint command => exact ⟨endpoint, .refl⟩
  | goOn i c found h =>
    have := Manager.advance_change c t.manager t.world found
    refine ⟨c.endpoint, ?_⟩
    unfold Watch.goOn
    split <;> (rename_i e; rw [e] at this; exact this)
  | shutdown => exact ⟨{}, t.manager.shutdown_change t.world {}⟩
  | exitHook => exact ⟨{}, t.manager.runHook_change t.world {}⟩
  | outside world h => exact ⟨{}, .single (t.manager.roll_ages h {})⟩

theorem Step.inOrder {t u : Watch} (h : t.Step u) (ht : t.roll.InOrder) : u.roll.InOrder := by
  obtain ⟨endpoint, hc⟩ := h.change
  exact ht.changes hc

theorem inOrder_opening (interval : Double) (maxAttempts : Int) (world : World) :
    (opening interval maxAttempts world).roll.InOrder := by
  refine ⟨rfl, fun o h => ?_, rfl, rfl, rfl, fun p hp => ?_⟩
  · cases h
  · cases hp

theorem reachable_opening (interval : Double) (maxAttempts : Int) (world : World) :
    (opening interval maxAttempts world).Reachable :=
  ⟨interval, maxAttempts, world, .refl⟩

theorem Reachable.inOrder {t : Watch} (h : t.Reachable) : t.roll.InOrder := by
  obtain ⟨interval, maxAttempts, world, h⟩ := h
  induction h with
  | refl => exact inOrder_opening interval maxAttempts world
  | tail _ hs ih => exact hs.inOrder ih

theorem Reachable.steps {t u : Watch} (h : t.Reachable) (hs : ReflTransGen Step t u) : u.Reachable := by
  obtain ⟨interval, maxAttempts, world, h⟩ := h
  exact ⟨interval, maxAttempts, world, h.trans hs⟩

/-! ## From beginning to end -/

/-- What is done to a manager from beginning to end. The calls of a batch take its lock in turn. -/
inductive Act where
  | ensure (probe : Lookout) (calls : List (Endpoint × List LooseText))
  | shutdown
  | exitHook
  | exit (pid : Nat) (code : Int)

def ensureRunning (t : Watch) (probe : Lookout) (endpoint : Endpoint) (command : List LooseText) : Watch :=
  let (_, m, w) := t.manager.ensureRunning probe.1 endpoint command t.world
  { t with manager := m, world := w }

def act (t : Watch) : Act → Watch
  | .ensure probe calls => calls.foldl (fun t call => t.ensureRunning probe call.1 call.2) t
  | .shutdown => t.shutdown
  | .exitHook => t.runHook
  | .exit pid code => { t with world := t.world.exit pid code }

section
variable (t : Watch)

theorem steps_ensureRunning (probe : Lookout) (endpoint : Endpoint) (command : List LooseText) :
    ReflTransGen Step t (t.ensureRunning probe endpoint command) := by
  have looking (c : Search) (m : Manager) (w : World)
      (h : ReflTransGen Step t ⟨m, w, t.searches ++ [c]⟩) :
      ReflTransGen Step t (goOn ⟨m, (probe.1 c.endpoint w).2, t.searches ++ [c]⟩ t.searches.length c
        (probe.1 c.endpoint w).1) :=
    (h.tail (.outside _ (probe.2 c.endpoint w))).tail (.goOn t.searches.length c _ (by simp))
  refine Manager.search_keeps (P := fun c m w => ReflTransGen Step t ⟨m, w, t.searches ++ [c]⟩)
    (Q := fun _ n v => ReflTransGen Step t ⟨n, v, t.searches⟩) ?_ ?_ _ _ _ (.single (.call endpoint command))
  · intro c m w result n v h ha
    have := looking c m w h
    simpa [goOn, ha, List.eraseIdx_append_of_length_le] using this
  · intro c m w d n v h ha
    have := looking c m w h
    simpa [goOn, ha] using this

theorem steps_act (a : Act) : ReflTransGen Step t (t.act a) := by
  cases a with
  | ensure probe calls =>
    induction calls generalizing t with
    | nil => exact .refl
    | cons call calls ih => exact (t.steps_ensureRunning probe call.1 call.2).trans (ih _)
  | shutdown => exact .single .shutdown
  | exitHook => exact .single .exitHook
  | exit pid code => exact .single (.outside _ (t.world.ages_exit pid code))

end

theorem Reachable.act {t : Watch} (h : t.Reachable) (a : Act) : (t.act a).Reachable := h.steps (t.steps_act a)

/-! ## Who is alive -/

section
variable {t : Watch} (h : t.roll.InOrder)
include h

theorem survived_of_free (ho : t.manager.owned = none) :
    ∀ p ∈ t.world.processes, p.isAlive = true → p.Survived t.world.log := by
  intro p hp ha
  have idle : t.roll.isBusy = false := by simp [roll, Manager.isBusy_roll, Manager.isAlive, ho]
  obtain ⟨hk, hl⟩ := h.survived_of_idle idle p hp ha
  exact ⟨(t.world.mem_reaping p.pid).1 hk, hl⟩

theorem survived_shutdown : ∀ p ∈ t.shutdown.world.processes, p.isAlive = true →
    p.Survived t.shutdown.world.log := by
  refine survived_of_free (Step.shutdown.inOrder h) ?_
  unfold shutdown
  rw [Manager.shutdown_eq]
  rfl

theorem survived_runHook : ∀ p ∈ t.runHook.world.processes, p.isAlive = true →
    p.Survived t.runHook.world.log := by
  cases hk : t.manager.hooked with
  | true =>
    have : t.runHook = t.shutdown := by simp [runHook, Manager.runHook, hk, shutdown]
    rw [this]
    exact survived_shutdown h
  | false =>
    have none : t.roll.processes.length = 0 := by
      have := h.hooked.symm.trans hk
      rw [← h.spawnCount]
      simpa using this
    have : t.runHook = t := by simp [runHook, Manager.runHook, hk]
    rw [this]
    intro p hp
    rw [List.eq_nil_of_length_eq_zero (l := t.world.processes) none] at hp
    cases hp

end

/-- **No orphans.** A process that was started and lives is owned, or a kill of it was tried in vain. No
process is started while an owned one lives, and after a shutdown or the exit hook none lives
but in spite of its kill. So it is between any two waits, and whole calls are steps too. -/
theorem no_orphan {t : Watch} (h : t.Reachable) :
    (∀ p ∈ t.world.processes, p.isAlive = true →
      t.manager.owned.map Owned.pid = some p.pid ∨ p.Survived t.world.log) ∧
    (∀ u, t.Step u → t.manager.isAlive t.world = true →
      u.world.processes.length = t.world.processes.length) ∧
    (∀ p ∈ t.shutdown.world.processes, p.isAlive = true → p.Survived t.shutdown.world.log) ∧
    (∀ p ∈ t.runHook.world.processes, p.isAlive = true → p.Survived t.runHook.world.log) ∧
    ∀ a, (t.act a).Reachable := by
  have order := h.inOrder
  refine ⟨fun p hp ha => ?_, fun u hs hb => ?_, survived_shutdown order, survived_runHook order, h.act⟩
  · refine (order.held p hp ha).imp_right fun hs => ?_
    exact ⟨(t.world.mem_reaping p.pid).1 hs.1, hs.2⟩
  · obtain ⟨endpoint, hc⟩ := hs.change
    exact Roll.length_of_isBusy hc hb

/-- A daemon lingers after its kill, and the next call starts another. -/
def relapse : Watch :=
  let world : World := { launches := [{ kill := .lingers }, {}] }
  let call : Act := .ensure .ofWorld [({}, ["tool"])]
  (((opening (Double.ofQuotient 1 4) 1 world).act call).act .shutdown).act call

theorem no_orphan_after_relapse :
    relapse.Reachable ∧
    relapse.world.processes.map (fun p => (p.pid, p.isAlive)) = [(1001, true), (1002, true)] ∧
    relapse.manager.owned.map Owned.pid = some 1002 ∧
    (∀ p ∈ relapse.world.processes, p.isAlive = true →
      relapse.manager.owned.map Owned.pid = some p.pid ∨ p.Survived relapse.world.log) ∧
    ∀ p ∈ relapse.shutdown.world.processes, p.isAlive = true → p.Survived relapse.shutdown.world.log := by
  have reachable : relapse.Reachable := by
    unfold relapse
    exact (((reachable_opening _ _ _).act _).act _).act _
  have rule := no_orphan reachable
  exact ⟨reachable, by decide +kernel, by decide +kernel, rule.1, rule.2.2.1⟩

end Watch

end LintServer.Daemon
