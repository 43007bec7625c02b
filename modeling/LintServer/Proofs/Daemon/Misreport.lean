import LintServer.Proofs.Daemon.Coherence
import LintServer.Proofs.Daemon.Rounds

/-!
# What a failed call leaves behind

A call that fails leaves word of it: the daemon is starting, dead or absent. Only where
it breaks off before the state is written the old one stays, so a daemon that somebody
else had running once is still reported as listening (`misreported_iff`).
-/

namespace LintServer.Daemon

/-- The start of a process fails with an error that is none of the operating system. -/
def BreaksStart (command : List LooseText) (w : World) : Prop :=
  ∃ e v, w.spawn command = (.error e, v) ∧ e.isSystem = false

/-- What a search finds keeps it from writing the state: an error of the probe, or, before any
process is owned, one of the start that is none of the operating system. -/
def BreaksOff (c : Search) (found : Except Fault Bool) (m : Manager) (w : World) : Prop :=
  (∃ f, found = .error f) ∨ found = .ok false ∧ c.attempt = 0 ∧ m.owned = none ∧ BreaksStart c.command w

namespace Manager

/-- A call failed, and the daemon is reported as listening. -/
def Misreported (r : Except Fault Unit × Manager × World) : Prop :=
  r.1.isOk = false ∧ (r.2.1.status r.2.2).state = .listening

/-! ## Between two waits -/

section
variable {c d : Search} {m n : Manager} {w v : World} {result : Except Fault Unit} {found : Except Fault Bool}

theorem not_misreported (h : m.state ≠ .listening) : ¬ Misreported (result, m, w) :=
  fun misreported => h misreported.2

theorem not_misreported_next (h : next c m w = (.ended result, n, v)) : ¬ Misreported (result, n, v) := by
  unfold next at h
  split at h <;> cases h
  refine not_misreported ?_
  dsimp only
  split <;> nofun

theorem misreported_launch_iff (h : launch c m w = (.ended result, n, v)) :
    Misreported (result, n, v) ↔ m.state = .listening ∧ m.owned = none ∧ BreaksStart c.command w := by
  cases alive : m.isAlive w with
  | true =>
    rw [launch_of_alive alive] at h
    refine iff_of_false (not_misreported_next h) ?_
    rintro ⟨-, free, -⟩
    simp [isAlive, free] at alive
  | false =>
    rcases spawned : w.spawn c.command with ⟨started, u⟩
    cases started with
    | ok pid =>
      rw [launch_of_spawned alive spawned] at h
      refine iff_of_false (not_misreported_next h) ?_
      rintro ⟨-, -, e, u', failed, -⟩
      cases spawned.symm.trans failed
    | error e =>
      rw [launch_of_failed alive spawned] at h
      cases system : e.isSystem with
      | true =>
        rw [if_pos system] at h
        cases h
        refine iff_of_false (not_misreported (by simp)) ?_
        rintro ⟨-, -, e', u', failed, other⟩
        cases spawned.symm.trans failed
        cases system.symm.trans other
      | false =>
        rw [if_neg (by simp [system])] at h
        cases h
        -- An owned process that exited is noted as dead before the start.
        have broken : BreaksStart c.command w := ⟨e, _, spawned, system⟩
        cases free : m.owned <;> simp [Misreported, status, Except.isOk, Except.toBool, broken]

theorem launch_again (h : launch c m w = (.again d, n, v)) :
    d.attempt ≠ 0 ∧ n.state = .starting ∧ (m.owned = none → ¬ BreaksStart c.command w) := by
  rcases revived : revive c m w with ⟨started, k, u⟩
  have again := h
  rw [launch, revived] at again
  cases started with
  | error e => cases again
  | ok _ =>
    obtain ⟨counted, rfl⟩ := next_again again
    refine ⟨by omega, rfl, fun free ⟨e, u', failed, other⟩ => ?_⟩
    have dead : m.isAlive w = false := by simp [isAlive, free]
    rw [launch_of_failed dead failed, if_neg (by simp [other])] at h
    cases h

/-- A search that ends leaves the old state only where it breaks off. -/
theorem misreported_advance_iff (h : advance c found m w = (.ended result, n, v)) :
    Misreported (result, n, v) ↔ m.state = .listening ∧ BreaksOff c found m w := by
  unfold BreaksOff
  unfold advance at h
  split at h
  · cases h
    simp [Misreported, status, Except.isOk, Except.toBool]
  · cases h
    simp [Misreported, Except.isOk, Except.toBool]
  · split at h
    · rename_i first
      rw [misreported_launch_iff h]
      simp [first]
    · rename_i later
      refine iff_of_false ?_ (by simp [later])
      split at h
      · cases h
        exact not_misreported nofun
      · exact not_misreported_next h

theorem advance_again (h : advance c found m w = (.again d, n, v)) :
    ¬ BreaksOff c found m w ∧ d.attempt ≠ 0 ∧ n.state = if c.attempt = 0 then .starting else m.state := by
  unfold BreaksOff
  unfold advance at h
  split at h
  · cases h
  · cases h
  · split at h
    · rename_i first
      obtain ⟨later, starting, unbroken⟩ := launch_again h
      exact ⟨by simpa [first] using unbroken, later, by rw [starting, if_pos first]⟩
    · rename_i later
      split at h
      · cases h
      · obtain ⟨counted, rfl⟩ := next_again h
        exact ⟨by simp [later], by omega, (if_neg later).symm⟩

end

/-! ## Whole calls -/

section
variable (probe : Probe)

/-- Behind its first probe a search has said that the daemon is starting. -/
theorem not_misreported_search (c : Search) (m : Manager) (w : World) (later : c.attempt ≠ 0)
    (told : m.state ≠ .listening) : ¬ Misreported (search probe c m w) := by
  refine search_keeps (P := fun c m _ => c.attempt ≠ 0 ∧ m.state ≠ .listening)
    (Q := fun result n v => ¬ Misreported (result, n, v)) ?_ ?_ c m w ⟨later, told⟩
  · intro c m w result n v ⟨_, told⟩ ended
    rw [misreported_advance_iff ended]
    exact fun misreported => told misreported.1
  · intro c m w d n v ⟨later, told⟩ again
    obtain ⟨-, counted, state⟩ := advance_again again
    rw [if_neg later] at state
    exact ⟨counted, state ▸ told⟩

theorem misreported_ensureRunning_iff (endpoint : Endpoint) (command : List LooseText) (m : Manager) (w : World) :
    Misreported (ensureRunning probe endpoint command m w) ↔ m.state = .listening ∧
      BreaksOff (m.newSearch endpoint command) (probe endpoint w).1 m (probe endpoint w).2 := by
  unfold ensureRunning
  rcases ha : advance (m.newSearch endpoint command) (probe endpoint w).1 (m.aim endpoint) (probe endpoint w).2
    with ⟨verdict, n, v⟩
  cases verdict with
  | ended result =>
    rw [search_of_ended ha, misreported_advance_iff ha]
    rfl
  | again d =>
    obtain ⟨unbroken, later, state⟩ := advance_again ha
    rw [search_of_again ha]
    refine iff_of_false (not_misreported_search probe d n v later ?_) fun broken => unbroken broken.2
    rw [state]
    nofun

end

end Manager

/-! ## Steps -/

namespace Watch

/-- The call fails in this step, before its search waits again. -/
def Fails (t : Watch) (c : Search) (found : Except Fault Bool) : Prop :=
  ∃ e, (Manager.advance c found t.manager t.world).1 = .ended (.error e)

def Reports (t : Watch) (state : State) : Prop :=
  (t.manager.status t.world).state = state

theorem misreported_goOn_iff (t : Watch) (i : Nat) (c : Search) (found : Except Fault Bool) :
    t.Fails c found ∧ (t.goOn i c found).Reports .listening ↔
      t.Reports .listening ∧ BreaksOff c found t.manager t.world := by
  unfold Fails goOn
  rcases ha : Manager.advance c found t.manager t.world with ⟨verdict, n, v⟩
  cases verdict with
  | ended result =>
    rw [show t.Reports .listening ↔ t.manager.state = .listening from .rfl, ← Manager.misreported_advance_iff ha]
    cases result <;> simp [Manager.Misreported, Reports, Except.isOk, Except.toBool]
  | again d =>
    obtain ⟨unbroken, -⟩ := Manager.advance_again ha
    exact iff_of_false (fun ⟨⟨_, ended⟩, _⟩ => nomatch ended) fun broken => unbroken broken.2

end Watch

/-- **When a failed call is reported as listening.** It is so exactly where the daemon was reported as listening
before, and the first probe fails, or nobody listens, no process is owned, and the start fails with an error that is
none of the operating system. So it is for whole calls, and for the step in which a call fails while others go on. -/
theorem misreported_iff (t : Watch) :
    (∀ (probe : Probe) (endpoint : Endpoint) (command : List LooseText),
      Manager.Misreported (t.manager.ensureRunning probe endpoint command t.world) ↔ t.Reports .listening ∧
        ((∃ f, (probe endpoint t.world).1 = .error f) ∨ (probe endpoint t.world).1 = .ok false ∧
          t.manager.owned = none ∧ BreaksStart command (probe endpoint t.world).2)) ∧
    ∀ (i : Nat) (c : Search) (found : Bool),
      t.Fails c (.ok found) ∧ (t.goOn i c (.ok found)).Reports .listening ↔ t.Reports .listening ∧
        found = false ∧ c.attempt = 0 ∧ t.manager.owned = none ∧ BreaksStart c.command t.world := by
  refine ⟨fun probe endpoint command => ?_, fun i c found => ?_⟩
  · rw [Manager.misreported_ensureRunning_iff, BreaksOff]
    simp [Manager.newSearch, Watch.Reports, Manager.status]
  · rw [Watch.misreported_goOn_iff, BreaksOff]
    simp

/-- Somebody else's daemon was seen once. -/
def acquainted : Watch :=
  (Watch.opening (Double.ofQuotient 1 4) 20
    { probes := [.ok true, .ok false], launches := [{ error := some (.value "embedded null byte") }] }).act
    (.ensure .ofWorld [({}, ["tool"])])

/-- It is gone, and the start of another breaks off over its command. -/
theorem misreported_after_stranger : ¬ ∀ t : Watch, t.Reachable → (∀ found ∈ t.world.probes, found.isOk = true) →
    ∀ endpoint command, ¬ Manager.Misreported (t.manager.ensureRunning .ofWorld endpoint command t.world) := by
  intro told
  have seen : acquainted.world.probes.all Except.isOk = true := by decide +kernel
  refine told acquainted ((Watch.reachable_opening _ _ _).act _) (List.all_eq_true.1 seen) {} ["tool\x00"] ?_
  constructor <;> decide +kernel

end LintServer.Daemon
