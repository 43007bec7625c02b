import LintServer.Daemon.Probe

/-!
# Processes grow older

Time goes by for the daemons that were started: they may exit, and none that has
exited comes back. A probe that only looks (`Lookout`) leaves it at that. Kills
and the registration of the exit hook are told apart from the rest of the log,
since nobody but the owner of a daemon does them.
-/

namespace LintServer

/-! ## Processes -/

namespace Process

/-- A process later on, if nobody killed it. -/
structure Ages (p q : Process) : Prop where
  pid : q.pid = p.pid
  launch : q.launch = p.launch
  exited : ∀ code, p.exited = some code → q.exited = some code

theorem Ages.refl (p : Process) : p.Ages p := ⟨rfl, rfl, fun _ h => h⟩

theorem Ages.trans {p q r : Process} (h : p.Ages q) (k : q.Ages r) : p.Ages r :=
  ⟨k.pid.trans h.pid, k.launch.trans h.launch, fun code he => k.exited code (h.exited code he)⟩

theorem Ages.isAlive {p q : Process} (h : p.Ages q) (hq : q.isAlive = true) : p.isAlive = true := by
  cases he : p.exited with
  | none => simp [Process.isAlive, he]
  | some code => simp [Process.isAlive, h.exited code he] at hq

section
variable (p : Process)

theorem ages_exit (code : Int) : p.Ages (p.exit code) := by
  refine ⟨rfl, rfl, fun c h => ?_⟩
  simp [exit, h]

theorem ages_afterContact : p.Ages p.afterContact := by
  unfold afterContact
  cases p.contacts with
  | none => exact .refl p
  | some n =>
    have counted : p.Ages { p with contacts := some (n - 1) } := ⟨rfl, rfl, fun _ h => h⟩
    by_cases h : n ≤ 1
    · simp only [h, if_true]
      exact counted.trans (ages_exit _ _)
    · simp only [h, if_false]
      exact counted

@[simp] theorem pid_afterKill : p.afterKill.pid = p.pid := by
  unfold afterKill
  split <;> rfl

@[simp] theorem launch_afterKill : p.afterKill.launch = p.launch := by
  unfold afterKill
  split <;> rfl

/-- A process outlives its kill only if the kill fails or does not end it. -/
theorem kill_of_isAlive_afterKill (h : p.afterKill.isAlive = true) :
    p.isAlive = true ∧ p.launch.kill ≠ .exits := by
  unfold afterKill at h
  split at h
  · simp [exit, isAlive] at h
  · rename_i hk
    exact ⟨h, by simp [hk]⟩
  · rename_i hk
    exact ⟨h, by simp [hk]⟩

end

end Process

/-! ## Worlds -/

def Event.isReaping : Event → Bool
  | .kill _ | .registerHook => true
  | _ => false

namespace World

/-- The kills and the registrations of the exit hook, the first first. -/
def reaping (w : World) : List Event := w.log.filter Event.isReaping

/-- A world later on, if no daemon was started or killed meanwhile. -/
structure Ages (w v : World) : Prop where
  processes : ∃ f : Process → Process, (∀ p : Process, p.Ages (f p)) ∧ v.processes = w.processes.map f
  reaping : v.reaping = w.reaping

theorem Ages.trans {u v w : World} (h : u.Ages v) (k : v.Ages w) : u.Ages w := by
  obtain ⟨f, hf, hv⟩ := h.processes
  obtain ⟨g, hg, hw⟩ := k.processes
  refine ⟨⟨g ∘ f, fun p => (hf p).trans (hg (f p)), ?_⟩, k.reaping.trans h.reaping⟩
  rw [hw, hv, List.map_map]

section
variable (w : World)

@[simp] theorem processes_emit (e : Event) : (w.emit e).processes = w.processes := rfl

theorem reaping_emit (e : Event) : (w.emit e).reaping = w.reaping ++ if e.isReaping then [e] else [] := by
  simp only [reaping, emit, List.filter_append]
  cases h : e.isReaping <;> simp [h]

theorem mem_reaping (pid : Nat) : .kill pid ∈ w.reaping ↔ .kill pid ∈ w.log := by
  simp [reaping, Event.isReaping]

theorem count_reaping : w.reaping.count .registerHook = w.log.count .registerHook := by
  rw [reaping, List.count_filter rfl]

theorem ages_of_same {v : World} (hp : v.processes = w.processes) (hr : v.reaping = w.reaping) : w.Ages v :=
  ⟨⟨id, fun p => .refl p, by rw [hp, List.map_id]⟩, hr⟩

theorem ages_emit {e : Event} (h : e.isReaping = false) : w.Ages (w.emit e) := by
  refine w.ages_of_same rfl ?_
  rw [reaping_emit, h]
  simp

theorem ages_contact : w.Ages w.contact := ⟨⟨_, Process.ages_afterContact, rfl⟩, rfl⟩

theorem ages_exit (pid : Nat) (code : Int) : w.Ages (w.exit pid code) := by
  refine ⟨⟨_, fun p => ?_, rfl⟩, rfl⟩
  by_cases h : p.pid = pid
  · rw [if_pos h]
    exact p.ages_exit code
  · rw [if_neg h]
    exact .refl p

theorem ages_connect (endpoint : Daemon.Endpoint) : w.Ages (w.connect endpoint).2 := by
  have h := (w.ages_emit (e := .connect endpoint w.limit) rfl).trans (ages_contact _)
  unfold connect; dsimp only
  split <;> exact ⟨h.processes, h.reaping⟩

theorem ages_probe (endpoint : Daemon.Endpoint) : w.Ages (w.probe endpoint).2 := by
  have h := (w.ages_emit (e := .probe endpoint) rfl).trans (ages_contact _)
  unfold probe; dsimp only
  split <;> exact ⟨h.processes, h.reaping⟩

end

end World

/-! ## Looking at an endpoint -/

namespace Daemon

theorem ages_close {α : Type} (c : Connection) (outcome : Except Fault α) (w : World) :
    w.Ages (close c outcome w).2 := by
  have h := w.ages_emit (e := .close) rfl
  unfold close; dsimp only
  split
  · exact h
  · split <;> exact h

namespace Probe

theorem ages_ofConnection (c : Connection) (w : World) : w.Ages (ofConnection c w).2 := by
  unfold ofConnection
  split
  · exact w.ages_of_same rfl rfl
  · exact ages_close c _ w

theorem ages_socket (limit : Option Double) (endpoint : Endpoint) (w : World) :
    w.Ages (socket limit endpoint w).2 := by
  have told : w.Ages (w.tellLimit limit) := w.ages_of_same rfl rfl
  have connected : w.Ages (connect endpoint limit (w.tellLimit limit)).2 := by
    unfold connect
    split
    · exact told
    · exact told.trans (World.ages_connect _ endpoint)
  exact connected.trans (ages_ofConnection _ _)

theorem ages_ofWorld (endpoint : Endpoint) (w : World) : w.Ages (ofWorld endpoint w).2 := by
  have h := w.ages_probe endpoint
  unfold ofWorld
  split <;> (rename_i e; rw [e] at h; exact h)

end Probe

/-- A probe that only looks, while time goes by. -/
abbrev Lookout := { probe : Probe // ∀ endpoint (w : World), w.Ages (probe endpoint w).2 }

def Lookout.socket (limit : Option Double) : Lookout := ⟨.socket limit, Probe.ages_socket limit⟩

def Lookout.ofWorld : Lookout := ⟨.ofWorld, Probe.ages_ofWorld⟩

end Daemon

end LintServer
