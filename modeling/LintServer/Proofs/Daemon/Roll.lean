import LintServer.Daemon.Manager
import LintServer.Proofs.World.Aging
import Mathlib.Data.List.Nodup
import Mathlib.Logic.Relation

/-!
# The roll of a manager

What a manager has to do with the processes it started is on its roll: the one it
owns, the number of starts and the exit hook, beside the processes of the world
and what was done to them. Between two waits the roll changes once at most
(`Roll.Change`), so a roll that is in order stays in order.
-/

namespace LintServer

/-- A process that was killed in vain. -/
def Process.Survived (p : Process) (events : List Event) : Prop :=
  .kill p.pid ∈ events ∧ p.launch.kill ≠ .exits

theorem Process.Survived.append {p : Process} {events : List Event} (h : p.Survived events) (more : List Event) :
    p.Survived (events ++ more) :=
  ⟨List.mem_append_left more h.1, h.2⟩

namespace Daemon

open Relation (ReflGen)

structure Roll where
  owned : Option Owned
  spawnCount : Nat
  hooked : Bool
  processes : List Process
  reaping : List Event

namespace Roll

def isBusy (r : Roll) : Bool :=
  r.owned.any fun o => (r.processes.find? fun p => p.pid == o.pid).any Process.isAlive

def engage (r : Roll) (endpoint : Endpoint) (launch : Launch) : Roll :=
  let pid := World.firstPid + r.processes.length
  { owned := some ⟨pid, endpoint⟩
    spawnCount := r.spawnCount + 1
    hooked := true
    processes := r.processes ++ [.start pid launch]
    reaping := r.reaping ++ if r.hooked then [] else [.registerHook] }

def kill (r : Roll) (pid : Nat) : Roll :=
  { r with
    owned := none
    processes := r.processes.map fun p => if p.pid = pid then p.afterKill else p
    reaping := r.reaping ++ [.kill pid] }

/-- What becomes of a roll up to the next wait. A process is started for `endpoint` only. -/
inductive Change (endpoint : Endpoint) (r : Roll) : Roll → Prop
  | age (f : Process → Process) (h : ∀ p : Process, p.Ages (f p)) :
      Change endpoint r { r with processes := r.processes.map f }
  | drop (h : r.isBusy = false) : Change endpoint r { r with owned := none }
  | engage (launch : Launch) (h : r.isBusy = false) : Change endpoint r (r.engage endpoint launch)
  | kill (o : Owned) (h : r.owned = some o) (hb : r.isBusy = true) : Change endpoint r (r.kill o.pid)

/-- Whoever lives is owned or has outlived a kill, and the books are right. -/
structure InOrder (r : Roll) : Prop where
  numbered : r.processes.map Process.pid = List.range' World.firstPid r.processes.length
  newest : ∀ o, r.owned = some o → ∃ p, r.processes.getLast? = some p ∧ p.pid = o.pid
  spawnCount : r.spawnCount = r.processes.length
  hooked : r.hooked = decide (0 < r.spawnCount)
  hooks : r.reaping.count .registerHook = if 0 < r.spawnCount then 1 else 0
  held : ∀ p ∈ r.processes, p.isAlive = true → r.owned.map Owned.pid = some p.pid ∨ p.Survived r.reaping

namespace InOrder
variable {r : Roll} (h : r.InOrder)
include h

theorem find_of_mem {p : Process} (hp : p ∈ r.processes) :
    (r.processes.find? fun q => q.pid == p.pid) = some p := by
  have distinct : (r.processes.map Process.pid).Nodup := by
    rw [h.numbered]
    exact List.nodup_range'
  cases hq : r.processes.find? fun q => q.pid == p.pid with
  | none => simpa using List.find?_eq_none.1 hq p hp
  | some q =>
    have hpid : q.pid = p.pid := by simpa using List.find?_some hq
    rw [List.inj_on_of_nodup_map distinct (List.mem_of_find?_eq_some hq) hp hpid]

theorem survived_of_idle (hb : r.isBusy = false) :
    ∀ p ∈ r.processes, p.isAlive = true → p.Survived r.reaping := by
  intro p hp ha
  rcases h.held p hp ha with ho | hs
  · obtain ⟨o, ho, hpid⟩ := Option.map_eq_some_iff.1 ho
    simp [isBusy, ho, hpid, h.find_of_mem hp, ha] at hb
  · exact hs

/-- Killing the owned process leaves none alive but such as outlived a kill. -/
theorem survived_kill {o : Owned} (ho : r.owned = some o) :
    ∀ p ∈ (r.kill o.pid).processes, p.isAlive = true → p.Survived (r.kill o.pid).reaping := by
  intro q hq ha
  obtain ⟨p, hp, rfl⟩ := List.mem_map.1 hq
  by_cases hpid : p.pid = o.pid
  · rw [if_pos hpid] at ha ⊢
    obtain ⟨-, hk⟩ := p.kill_of_isAlive_afterKill ha
    refine ⟨?_, by rwa [Process.launch_afterKill]⟩
    rw [Process.pid_afterKill, hpid]
    exact List.mem_append_right _ (List.mem_singleton_self _)
  · rw [if_neg hpid] at ha ⊢
    rcases h.held p hp ha with he | hs
    · rw [ho] at he
      exact absurd (Option.some.inj he).symm hpid
    · exact hs.append _

theorem age {f : Process → Process} (hf : ∀ p : Process, p.Ages (f p)) :
    InOrder { r with processes := r.processes.map f } := by
  have pid : Process.pid ∘ f = Process.pid := funext fun p => (hf p).pid
  refine ⟨?_, fun o ho => ?_, ?_, h.hooked, h.hooks, fun q hq ha => ?_⟩
  · rw [List.map_map, pid, h.numbered, List.length_map]
  · obtain ⟨p, hp, he⟩ := h.newest o ho
    exact ⟨f p, by rw [List.getLast?_map, hp]; rfl, (hf p).pid.trans he⟩
  · rw [List.length_map]
    exact h.spawnCount
  · obtain ⟨p, hp, rfl⟩ := List.mem_map.1 hq
    have := h.held p hp ((hf p).isAlive ha)
    rwa [Process.Survived, (hf p).pid, (hf p).launch]

theorem engage (hb : r.isBusy = false) (endpoint : Endpoint) (launch : Launch) :
    (r.engage endpoint launch).InOrder := by
  refine ⟨?_, fun o ho => ?_, ?_, ?_, ?_, fun p hp ha => ?_⟩
  · simp [Roll.engage, h.numbered, List.range'_1_concat, Process.start]
  · cases ho
    exact ⟨.start _ launch, by simp [Roll.engage], rfl⟩
  · simp [Roll.engage, h.spawnCount]
  · simp [Roll.engage]
  · have hooked := h.hooked
    have hooks := h.hooks
    by_cases hs : 0 < r.spawnCount
    · simp [Roll.engage, hooked, hooks, hs]
    · simp [Roll.engage, hooked, hooks, hs, List.count_append]
  · rcases List.mem_append.1 hp with hp | hp
    · exact .inr ((h.survived_of_idle hb p hp ha).append _)
    · rw [List.mem_singleton.1 hp]
      exact .inl rfl

theorem kill {o : Owned} (ho : r.owned = some o) : (r.kill o.pid).InOrder := by
  have pid : (Process.pid ∘ fun p => if p.pid = o.pid then p.afterKill else p) = Process.pid := by
    funext p
    by_cases hp : p.pid = o.pid <;> simp [hp]
  refine ⟨?_, fun _ he => ?_, ?_, h.hooked, ?_, fun p hp ha => .inr (h.survived_kill ho p hp ha)⟩
  · simp [Roll.kill, pid, h.numbered]
  · cases he
  · simp [Roll.kill, h.spawnCount]
  · refine Eq.trans ?_ h.hooks
    simp [Roll.kill, List.count_append]

theorem change {endpoint : Endpoint} {r' : Roll} (hc : Change endpoint r r') : r'.InOrder := by
  cases hc with
  | age f hf => exact h.age hf
  | drop hb =>
    refine ⟨h.numbered, fun _ he => ?_, h.spawnCount, h.hooked, h.hooks, fun p hp ha => ?_⟩
    · cases he
    · exact .inr (h.survived_of_idle hb p hp ha)
  | engage launch hb => exact h.engage hb endpoint launch
  | kill o ho hb => exact h.kill ho

theorem changes {endpoint : Endpoint} {r' : Roll} (hc : ReflGen (Change endpoint) r r') : r'.InOrder := by
  cases hc with
  | refl => exact h
  | single hc => exact h.change hc

end InOrder

/-- While the owned process lives, no other is started. -/
theorem length_of_isBusy {endpoint : Endpoint} {r r' : Roll} (h : ReflGen (Change endpoint) r r')
    (hb : r.isBusy = true) : r'.processes.length = r.processes.length := by
  cases h with
  | refl => rfl
  | single h =>
    cases h with
    | age f hf => exact List.length_map f
    | drop hi => rfl
    | engage launch hi =>
      rw [hb] at hi
      cases hi
    | kill o ho hb => exact List.length_map _

end Roll

/-! ## What a manager does to its roll -/

theorem spawn_cases (w : World) (command : List LooseText) :
    (∃ e v, w.spawn command = (.error e, v) ∧ v.processes = w.processes ∧ v.reaping = w.reaping) ∨
    ∃ launch v, w.spawn command = (.ok (World.firstPid + w.processes.length), v) ∧
      v.processes = w.processes ++ [.start (World.firstPid + w.processes.length) launch] ∧
      v.reaping = w.reaping := by
  have hr : (w.emit (.spawn command)).reaping = w.reaping := by simp [World.reaping_emit, Event.isReaping]
  unfold World.spawn; dsimp only
  cases (w.emit (.spawn command)).launches with
  | nil => exact .inr ⟨{}, _, rfl, rfl, hr⟩
  | cons l rest =>
    dsimp only
    cases l.error with
    | some e => exact .inl ⟨e, _, rfl, rfl, hr⟩
    | none => exact .inr ⟨l, _, rfl, rfl, hr⟩

namespace Manager

def roll (m : Manager) (w : World) : Roll := ⟨m.owned, m.spawnCount, m.hooked, w.processes, w.reaping⟩

theorem isBusy_roll (m : Manager) (w : World) : (m.roll w).isBusy = m.isAlive w := rfl

theorem roll_ages (m : Manager) {w v : World} (h : w.Ages v) (endpoint : Endpoint) :
    Roll.Change endpoint (m.roll w) (m.roll v) := by
  obtain ⟨f, hf, hp⟩ := h.processes
  have : Roll.Change endpoint (m.roll w) _ := .age f hf
  simpa only [roll, hp, h.reaping] using this

section
variable (c : Search) (m : Manager) (w : World)

theorem start_change (endpoint : Endpoint) (command : List LooseText) (h : m.isAlive w = false) :
    ReflGen (Roll.Change endpoint) (m.roll w)
      ((start endpoint command m w).2.1.roll (start endpoint command m w).2.2) := by
  unfold start
  rcases spawn_cases w command with ⟨e, v, hs, hp, hr⟩ | ⟨launch, v, hs, hp, hr⟩
  · rw [hs]; dsimp only
    split
    · have : Roll.Change endpoint (m.roll w) _ := .drop h
      exact .single (by simpa only [roll, hp, hr] using this)
    · simp only [roll, hp, hr]
      exact .refl
  · rw [hs]; dsimp only
    have : Roll.Change endpoint (m.roll w) _ := .engage launch h
    refine .single ?_
    cases hk : m.hooked <;> simpa [roll, Roll.engage, World.reaping_emit, Event.isReaping, hp, hr, hk] using this

theorem roll_next : (next c m w).2.1.roll (next c m w).2.2 = m.roll w := by
  unfold next
  split
  · rfl
  · simp [roll, World.reaping_emit, Event.isReaping]

theorem revive_change : ReflGen (Roll.Change c.endpoint) (m.roll w)
    ((revive c m w).2.1.roll (revive c m w).2.2) := by
  unfold revive
  cases h : m.isAlive w with
  | true => exact .refl
  | false =>
    simp only [Bool.false_eq_true, if_false]
    split
    · exact start_change { m with state := .dead } w c.endpoint c.command h
    · exact start_change m w c.endpoint c.command h

theorem advance_change (found : Except Fault Bool) : ReflGen (Roll.Change c.endpoint) (m.roll w)
    ((advance c found m w).2.1.roll (advance c found m w).2.2) := by
  have revived := revive_change c m w
  unfold advance
  split
  · exact .refl
  · exact .refl
  · split
    · unfold launch
      rcases hr : revive c m w with ⟨r, n, v⟩
      rw [hr] at revived
      cases r with
      | error e => exact revived
      | ok _ =>
        dsimp only
        rw [roll_next]
        exact revived
    · split
      · exact .refl
      · rw [roll_next]

theorem shutdown_change (endpoint : Endpoint) :
    ReflGen (Roll.Change endpoint) (m.roll w) ((m.shutdown w).2.1.roll (m.shutdown w).2.2) := by
  cases ho : m.owned with
  | none =>
    have : (m.shutdown w).2.1.roll (m.shutdown w).2.2 = m.roll w := by simp [shutdown_eq, release, roll, ho]
    rw [this]
  | some o =>
    cases ha : w.isAlive o.pid with
    | true =>
      have : (m.shutdown w).2.1.roll (m.shutdown w).2.2 = (m.roll w).kill o.pid := by
        simp [shutdown_eq, release, roll, ho, ha, Roll.kill, World.kill, World.updateProcess, World.reaping, World.emit,
          Event.isReaping]
      rw [this]
      exact .single (.kill o ho (by simp [isBusy_roll, isAlive, ho, ha]))
    | false =>
      have hb : (m.roll w).isBusy = false := by simp [isBusy_roll, isAlive, ho, ha]
      have : (m.shutdown w).2.1.roll (m.shutdown w).2.2 = { m.roll w with owned := none } := by
        simp [shutdown_eq, release, roll, ho, ha]
      rw [this]
      exact .single (.drop hb)

theorem runHook_change (endpoint : Endpoint) :
    ReflGen (Roll.Change endpoint) (m.roll w) ((m.runHook w).2.1.roll (m.runHook w).2.2) := by
  unfold runHook
  split
  · exact shutdown_change m w endpoint
  · exact .refl

end

end Manager

end Daemon

end LintServer
