import LintServer.Proofs.Daemon.Custody

/-!
# Kills

A kill is sent by a shutdown only, to the owned process and while that lives. The
shutdown lets go of the process at the same moment, whatever comes of the kill, and
no call takes it back: so none is killed twice (`kill_discipline`).
-/

namespace LintServer

def Event.killed? : Event → Option Nat
  | .kill pid => some pid
  | _ => none

namespace World

/-- The processes that were killed, the first first. -/
def kills (w : World) : List Nat := w.log.filterMap Event.killed?

section
variable (w : World)

theorem kills_eq : w.kills = w.reaping.filterMap Event.killed? := by
  rw [kills, reaping, List.filterMap_filter]
  refine List.filterMap_congr fun e _ => ?_
  cases e <;> rfl

theorem kills_of_reaping {v : World} (h : v.reaping = w.reaping) : v.kills = w.kills := by
  rw [kills_eq, kills_eq, h]

theorem kills_emit (e : Event) : (w.emit e).kills = w.kills ++ e.killed?.toList := by
  rw [kills, emit, List.filterMap_append]
  cases h : e.killed? <;> simp [kills, h]

theorem kills_kill (pid : Nat) : (w.kill pid).2.kills = w.kills ++ [pid] :=
  w.kills_emit (.kill pid)

theorem mem_of_isAlive {pid : Nat} (h : w.isAlive pid = true) : pid ∈ w.processes.map Process.pid := by
  unfold isAlive at h
  cases found : w.process? pid with
  | none => simp [found] at h
  | some p =>
    have same : p.pid = pid := by simpa using List.find?_some found
    exact List.mem_map.2 ⟨p, List.mem_of_find?_eq_some found, same⟩

end

end World

namespace Daemon

open Relation (ReflGen ReflTransGen)

/-! ## The roll -/

namespace Roll

def kills (r : Roll) : List Nat := r.reaping.filterMap Event.killed?

/-- Those who were killed were started before, one kill for each, and the owned one is not among them. -/
structure Disciplined (r : Roll) : Prop where
  started : ∀ pid ∈ r.kills, pid ∈ r.processes.map Process.pid
  spared : ∀ o, r.owned = some o → o.pid ∉ r.kills
  once : r.kills.Nodup

theorem kills_engage (r : Roll) (endpoint : Endpoint) (launch : Launch) :
    (r.engage endpoint launch).kills = r.kills := by
  unfold kills Roll.engage
  cases r.hooked <;> simp [Event.killed?]

theorem kills_kill (r : Roll) (pid : Nat) : (r.kill pid).kills = r.kills ++ [pid] := by
  simp [kills, Roll.kill, Event.killed?]

namespace Disciplined
variable {r : Roll} (h : r.Disciplined) (order : r.InOrder)
include h order

/-- A process that is started has a new number. -/
theorem engage (endpoint : Endpoint) (launch : Launch) : (r.engage endpoint launch).Disciplined := by
  refine ⟨fun pid hp => ?_, fun o ho hp => ?_, ?_⟩
  · rw [kills_engage] at hp
    simp only [Roll.engage, List.map_append]
    exact List.mem_append_left _ (h.started pid hp)
  · rw [kills_engage] at hp
    cases ho
    have known := h.started _ hp
    rw [order.numbered] at known
    simp at known
  · rw [kills_engage]
    exact h.once

theorem kill {o : Owned} (ho : r.owned = some o) : (r.kill o.pid).Disciplined := by
  have pids : (r.kill o.pid).processes.map Process.pid = r.processes.map Process.pid := by
    simp only [Roll.kill, List.map_map]
    refine List.map_congr_left fun p _ => ?_
    by_cases hp : p.pid = o.pid <;> simp [hp]
  obtain ⟨p, last, same⟩ := order.newest o ho
  have started : o.pid ∈ r.processes.map Process.pid := List.mem_map.2 ⟨p, List.mem_of_getLast? last, same⟩
  refine ⟨fun pid hp => ?_, ?_, ?_⟩
  · rw [kills_kill] at hp
    rw [pids]
    rcases List.mem_append.1 hp with hp | hp
    · exact h.started pid hp
    · rw [List.mem_singleton.1 hp]
      exact started
  · rintro _ ⟨⟩
  · rw [kills_kill]
    exact List.nodup_append.2 ⟨h.once, List.nodup_singleton _, fun a ha b hb e => by
      rw [List.mem_singleton.1 hb] at e
      exact h.spared o ho (e ▸ ha)⟩

theorem change {endpoint : Endpoint} {r' : Roll} (hc : Change endpoint r r') : r'.Disciplined := by
  cases hc with
  | age f hf =>
    have pids : (r.processes.map f).map Process.pid = r.processes.map Process.pid := by
      rw [List.map_map]
      exact List.map_congr_left fun p _ => (hf p).pid
    exact ⟨fun pid hp => pids ▸ h.started pid hp, h.spared, h.once⟩
  | drop _ => exact ⟨h.started, by rintro _ ⟨⟩, h.once⟩
  | engage launch _ => exact h.engage order endpoint launch
  | kill o ho _ => exact h.kill order ho

theorem changes {endpoint : Endpoint} {r' : Roll} (hc : ReflGen (Change endpoint) r r') : r'.Disciplined := by
  cases hc with
  | refl => exact h
  | single hc => exact h.change order hc

end Disciplined

end Roll

/-! ## Who kills -/

namespace Manager

section
variable (c : Search) (m : Manager) (w : World)

theorem kills_start (endpoint : Endpoint) (command : List LooseText) :
    (start endpoint command m w).2.2.kills = w.kills := by
  unfold start
  rcases spawn_cases w command with ⟨e, v, hs, -, hr⟩ | ⟨launch, v, hs, -, hr⟩
  · rw [hs]; dsimp only
    split <;> exact w.kills_of_reaping hr
  · rw [hs]; dsimp only
    split
    · exact w.kills_of_reaping hr
    · rw [World.kills_emit, w.kills_of_reaping hr]
      exact List.append_nil _

theorem kills_next : (next c m w).2.2.kills = w.kills := by
  unfold next
  split
  · rfl
  · rw [World.kills_emit]
    exact List.append_nil _

theorem kills_revive : (revive c m w).2.2.kills = w.kills := by
  unfold revive
  split
  · rfl
  · exact kills_start _ w c.endpoint c.command

/-- A call never kills, whatever its probes find. -/
theorem kills_advance (found : Except Fault Bool) : (advance c found m w).2.2.kills = w.kills := by
  have revived := kills_revive c m w
  unfold advance
  split
  · rfl
  · rfl
  · split
    · unfold launch
      rcases hr : revive c m w with ⟨r, n, v⟩
      rw [hr] at revived
      cases r with
      | error e => exact revived
      | ok _ =>
        dsimp only
        rw [kills_next]
        exact revived
    · split
      · rfl
      · exact kills_next c m w

theorem shutdown_cases :
    (m.isAlive w = false ∧ (m.shutdown w).2.2 = w) ∨
      ∃ o, m.owned = some o ∧ w.isAlive o.pid = true ∧ (m.shutdown w).2.2 = (w.kill o.pid).2 := by
  rw [shutdown_eq]
  unfold isAlive
  cases m.owned with
  | none => exact .inl ⟨rfl, rfl⟩
  | some o =>
    cases ha : w.isAlive o.pid with
    | true => exact .inr ⟨o, rfl, ha, by simp [ha]⟩
    | false => exact .inl ⟨by simp [ha], by simp [ha]⟩

end

end Manager

/-! ## Runs -/

namespace Watch

def kills (t : Watch) : List Nat := t.world.kills

/-- A step in which the owned process is killed, while it lives, by a shutdown. -/
structure Kill (t u : Watch) (pid : Nat) : Prop where
  shutdown : u = t.shutdown ∨ u = t.runHook
  owned : t.manager.owned.map Owned.pid = some pid
  started : pid ∈ t.world.processes.map Process.pid
  alive : t.world.isAlive pid = true
  told : u.kills = t.kills ++ [pid]

theorem shutdown_kills (t : Watch) : t.shutdown.kills = t.kills ∨ ∃ pid, t.Kill t.shutdown pid := by
  rcases t.manager.shutdown_cases t.world with ⟨-, same⟩ | ⟨o, ho, ha, killed⟩
  · exact .inl (congrArg World.kills same)
  · refine .inr ⟨o.pid, .inl rfl, by rw [ho]; rfl, t.world.mem_of_isAlive ha, ha, ?_⟩
    exact (congrArg World.kills killed).trans (t.world.kills_kill o.pid)

theorem runHook_cases (t : Watch) : t.runHook = t ∨ t.runHook = t.shutdown := by
  unfold runHook Manager.runHook shutdown
  cases t.manager.hooked with
  | true => exact .inr rfl
  | false => exact .inl rfl

theorem kills_goOn (t : Watch) (i : Nat) (c : Search) (found : Except Fault Bool) :
    (t.goOn i c found).kills = t.kills := by
  have := Manager.kills_advance c t.manager t.world found
  unfold goOn
  split <;> (rename_i e; rw [e] at this; exact this)

theorem Step.kills {t u : Watch} (h : t.Step u) : u.kills = t.kills ∨ ∃ pid, t.Kill u pid := by
  cases h with
  | call endpoint command => exact .inl rfl
  | goOn i c found h => exact .inl (t.kills_goOn i c found)
  | shutdown => exact t.shutdown_kills
  | exitHook =>
    rcases t.runHook_cases with same | same
    · exact .inl (congrArg Watch.kills same)
    · rw [same]
      exact t.shutdown_kills
  | outside world h => exact .inl (t.world.kills_of_reaping h.reaping)

theorem Reachable.disciplined {t : Watch} (h : t.Reachable) : t.roll.Disciplined := by
  obtain ⟨interval, maxAttempts, world, h⟩ := h
  induction h with
  | refl => exact ⟨by rintro _ ⟨⟩, by rintro _ ⟨⟩, List.nodup_nil⟩
  | @tail t u ht hs ih =>
    have order := Reachable.inOrder ⟨interval, maxAttempts, world, ht⟩
    obtain ⟨endpoint, hc⟩ := hs.change
    exact ih.changes order hc

/-- Every kill in the log was sent at some moment of the run. -/
theorem Reachable.exists_kill {t : Watch} (h : t.Reachable) {pid : Nat} (hp : pid ∈ t.kills) :
    ∃ s u : Watch, s.Reachable ∧ s.Kill u pid ∧ ReflTransGen Step u t := by
  obtain ⟨interval, maxAttempts, world, h⟩ := h
  induction h with
  | refl => cases hp
  | @tail t u ht hs ih =>
    rcases hs.kills with same | ⟨killed, hk⟩
    · rw [same] at hp
      obtain ⟨s, v, hs', hv, later⟩ := ih hp
      exact ⟨s, v, hs', hv, later.tail hs⟩
    · rw [hk.told] at hp
      rcases List.mem_append.1 hp with hp | hp
      · obtain ⟨s, v, hs', hv, later⟩ := ih hp
        exact ⟨s, v, hs', hv, later.tail hs⟩
      · rw [List.mem_singleton.1 hp]
        exact ⟨t, u, ⟨interval, maxAttempts, world, ht⟩, hk, .refl⟩

/-! ## Between calls -/

/-- What may happen while no call is made and none goes on. -/
inductive Rest (t : Watch) : Watch → Prop
  | shutdown : Rest t t.shutdown
  | exitHook : Rest t t.runHook
  | outside (world : World) (h : t.world.Ages world) : Rest t { t with world := world }

/-- A manager that owns nothing and waits for nothing. -/
def Idle (t : Watch) : Prop := t.manager.owned = none ∧ t.manager.state = .absent

theorem idle_shutdown (t : Watch) : t.shutdown.Idle := by
  unfold Idle shutdown
  rw [Manager.shutdown_eq]
  exact ⟨rfl, rfl⟩

theorem Idle.shutdown_eq {t : Watch} (h : t.Idle) : t.shutdown = t := by
  obtain ⟨⟨interval, maxAttempts, state, owned, endpoint, spawnCount, hooked⟩, world, searches⟩ := t
  obtain ⟨rfl, rfl⟩ := h
  rfl

theorem Idle.rest {t u : Watch} (h : t.Idle) (hr : t.Rest u) : u.Idle := by
  cases hr with
  | shutdown => exact t.idle_shutdown
  | exitHook =>
    rcases t.runHook_cases with same | same
    · rwa [same]
    · rw [same]
      exact t.idle_shutdown
  | outside world _ => exact h

theorem Idle.rests {t u : Watch} (h : t.Idle) (hr : ReflTransGen Rest t u) : u.Idle := by
  induction hr with
  | refl => exact h
  | tail _ hs ih => exact ih.rest hs

/-- **Kill discipline.** Each kill is sent by a shutdown, or by the exit hook, to the owned process
while that lives; none is killed twice, and calls do not kill. A shutdown raises nothing,
whatever comes of its kill, and until the next call another one changes nothing. Where no
owned process lives it leaves the world alone, a daemon that was found listening included. -/
theorem kill_discipline {t : Watch} (h : t.Reachable) :
    (∀ pid ∈ t.kills, ∃ s u : Watch, s.Reachable ∧ s.Kill u pid ∧ ReflTransGen Step u t) ∧
    (∀ u, t.Step u → u.kills = t.kills ∨ ∃ pid, t.Kill u pid) ∧
    t.kills.Nodup ∧
    (∀ endpoint command, (t.call endpoint command).kills = t.kills) ∧
    (∀ i c found, (t.goOn i c found).kills = t.kills) ∧
    (t.manager.shutdown t.world).1 = .ok () ∧
    (∀ v, ReflTransGen Rest t.shutdown v → v.shutdown = v) ∧
    (t.manager.isAlive t.world = false → t.shutdown.world = t.world) := by
  refine ⟨fun pid => h.exists_kill, fun u => Step.kills, ?_, fun _ _ => rfl, t.kills_goOn,
    congrArg Prod.fst (t.manager.shutdown_eq t.world), fun v hv => (t.idle_shutdown.rests hv).shutdown_eq,
    fun idle => ?_⟩
  · rw [kills, World.kills_eq]
    exact h.disciplined.once
  · rcases t.manager.shutdown_cases t.world with ⟨-, same⟩ | ⟨o, ho, ha, -⟩
    · exact same
    · simp [Manager.isAlive, ho, ha] at idle

/-- A daemon outlives its kill, the next one exits, and then some daemon is found listening. -/
def foundListening : Watch :=
  let world : World :=
    { launches := [{ kill := .fails .notPermitted "not allowed" }, {}]
      probes := [.ok false, .ok true, .ok false, .ok true, .ok true] }
  let call : Act := .ensure .ofWorld [({}, ["tool"])]
  (((((opening (Double.ofQuotient 1 4) 1 world).act call).act .shutdown).act call).act (.exit 1002 0)).act call

theorem kill_discipline_found_listening :
    foundListening.Reachable ∧
    foundListening.manager.state = .listening ∧
    foundListening.manager.owned.map Owned.pid = some 1002 ∧
    foundListening.kills = [1001] ∧ foundListening.kills.Nodup ∧
    (∃ s u : Watch, s.Reachable ∧ s.Kill u 1001 ∧ ReflTransGen Step u foundListening) ∧
    foundListening.shutdown.world.log = foundListening.world.log ∧
    foundListening.shutdown.shutdown = foundListening.shutdown := by
  have reachable : foundListening.Reachable := by
    unfold foundListening
    exact (((((reachable_opening _ _ _).act _).act _).act _).act _).act _
  have killed : foundListening.kills = [1001] := by decide +kernel
  obtain ⟨sent, -, once, -, -, -, again, idle⟩ := kill_discipline reachable
  exact ⟨reachable, by decide +kernel, by decide +kernel, killed, once, sent 1001 (by simp [killed]),
    congrArg World.log (idle (by decide +kernel)), again _ .refl⟩

end Watch

end Daemon

end LintServer
