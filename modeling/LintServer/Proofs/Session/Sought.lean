import LintServer.Proofs.Daemon.Roll
import LintServer.Proofs.Session.Manned

/-!
# What passes seek

A pass that is to ask the daemon seeks one first, at the endpoint that the
settings asked for when the pass was started. A daemon is only ever started by a
pass that seeks it, and its endpoint is the one at which it was sought. So
starting passes leaves the daemon as it is, and lets it be sought where the
settings ask for it (`Session.Grows`).
-/

namespace LintServer

/-- Whether the settings ask for a daemon at an endpoint. -/
def Settings.AsksFor (s : Settings) (e : Daemon.Endpoint) : Prop :=
  s.daemonEnabled = true ∧ e.port = s.daemonPort

namespace Daemon

open Relation (ReflGen)

theorem Manager.endpoint_of_advance {c d : Search} {found : Except Fault Bool} {m n : Manager} {w v : World}
    (h : advance c found m w = (.again d, n, v)) : d.endpoint = c.endpoint := by
  have next {m : Manager} {w : World} (h : next c m w = (.again d, n, v)) : d.endpoint = c.endpoint := by
    unfold Manager.next at h
    split at h <;> cases h
    rfl
  unfold advance at h
  split at h
  · cases h
  · cases h
  · split at h
    · unfold launch at h
      split at h
      · cases h
      · exact next h
    · split at h
      · cases h
      · exact next h

/-- A change starts a daemon at the endpoint, or the one owned stays or is let go. -/
theorem Roll.owned_of_changes {endpoint : Endpoint} {r r' : Roll} (h : ReflGen (Change endpoint) r r') :
    (r'.owned = r.owned ∨ r'.owned = none) ∧ r'.spawnCount = r.spawnCount ∨
      ∃ pid, r'.owned = some ⟨pid, endpoint⟩ := by
  cases h with
  | refl => exact .inl ⟨.inl rfl, rfl⟩
  | single h =>
    cases h with
    | age f hf => exact .inl ⟨.inl rfl, rfl⟩
    | drop hb => exact .inl ⟨.inr rfl, rfl⟩
    | engage launch hb => exact .inr ⟨_, rfl⟩
    | kill o ho hb => exact .inl ⟨.inr rfl, rfl⟩

end Daemon

namespace Lint

open Daemon (Endpoint Manager)

def Operation.sought? : Operation → Option Endpoint
  | .probe c _ => some c.endpoint
  | _ => none

def Arrival.sought? : Arrival → Option Endpoint
  | .daemon c _ | .interval c _ | .probed c _ _ => some c.endpoint
  | _ => none

def Progress.sought? : Progress → Option Endpoint
  | .operate o => o.sought?
  | .pause a => a.sought?
  | .output _ => none

theorem Arrival.sought?_of_gate {a : Arrival} {gate : String} (h : a.gate = some gate) : a.sought? = none := by
  cases a <;> first | rfl | cases h

namespace Linter

theorem daemon_conclude (uri : LooseText) (n : Nat) (output : Except Fault String) (l : Linter) :
    (l.conclude uri n output).2.daemon = l.daemon := by
  unfold conclude tell; dsimp only
  split
  · split <;> rfl
  · split
    · split
      · split <;> rfl
      · rfl
    · rfl

theorem startTool_seeks (s : Settings) (file folder : Path) (l : Linter) :
    (l.startTool s file folder).2.daemon = l.daemon ∧
      ∀ a, (l.startTool s file folder).1 = .ok a → a.sought? = none := by
  have hc : (l.command s (Tool.lintArguments file.text none)).2.daemon = l.daemon := rfl
  unfold startTool
  split <;> rename_i h <;> rw [h] at hc
  · exact ⟨hc, fun a ha => by cases ha⟩
  · refine ⟨hc, fun a ha => ?_⟩
    dsimp only at ha
    generalize (Tool.start _ _ _).1 = run at ha
    cases run <;> cases ha
    rfl

theorem startAsking_seeks {s : Settings} (hs : s.daemonEnabled = true) (file folder : Path) (l : Linter) :
    (l.startAsking s file folder).2.daemon = l.daemon ∧
      ∀ a, (l.startAsking s file folder).1 = .ok a → ∀ e, a.sought? = some e → s.AsksFor e := by
  have hc : (l.command s s.daemonArguments).2.daemon = l.daemon := rfl
  unfold startAsking
  split <;> rename_i h <;> rw [h] at hc
  · exact ⟨hc, fun a ha => by cases ha⟩
  · refine ⟨hc, fun a ha e he => ?_⟩
    cases ha
    cases he
    exact ⟨hs, rfl⟩

/-- A pass that is started seeks a daemon that its settings ask for, if any. -/
theorem start_seeks (s : Settings) (uri : LooseText) (file folder : Path) (l : Linter) :
    (l.start s uri file folder).2.daemon = l.daemon ∧
      ∀ n a, (l.start s uri file folder).1 = .waiting n a → ∀ e, a.sought? = some e → s.AsksFor e := by
  have hw (m : Linter) : (m.startWork s file folder).2.daemon = m.daemon ∧
      ∀ a, (m.startWork s file folder).1 = .ok a → ∀ e, a.sought? = some e → s.AsksFor e := by
    unfold startWork
    split
    · exact startAsking_seeks ‹_› file folder m
    · obtain ⟨hd, ha⟩ := startTool_seeks s file folder m
      refine ⟨hd, fun a h e he => ?_⟩
      rw [ha a h] at he
      cases he
  unfold start
  dsimp only
  split
  · have := hw (l.numbered uri s)
    simp only [numbered, call] at this
    split <;> rename_i h <;> rw [h] at this
    · exact ⟨(daemon_conclude _ _ _ _).trans this.1, fun n a ha => by cases ha⟩
    · refine ⟨this.1, fun n a ha => ?_⟩
      cases ha
      exact this.2 _ rfl
  · exact ⟨rfl, fun n a ha => by cases ha⟩

theorem daemon_operate (o : Operation) (l : Linter) : (l.operate o).2.daemon = l.daemon := by
  cases o <;> simp only [operate]

theorem sought?_operate (o : Operation) (l : Linter) : (l.operate o).1.sought? = o.sought? := by
  cases o <;> simp only [operate, Arrival.sought?, Operation.sought?]

theorem sought?_proceed (a : Arrival) (l : Linter) {e : Endpoint} (h : (l.proceed a).1.sought? = some e) :
    a.sought? = some e := by
  cases a with
  | probed c a k =>
    unfold proceed judge at h; dsimp only at h
    split at h
    · rename_i d _ _ ha
      refine Eq.trans ?_ h
      show some c.endpoint = some d.endpoint
      rw [Manager.endpoint_of_advance ha]
    · cases h
    · cases h
  | connected a k =>
    unfold proceed send at h; dsimp only at h
    split at h <;> cases h
  | tool run => cases h
  | reply x => cases h
  | daemon c a => exact h
  | interval c a => exact h

/-- Going on, a pass starts no daemon but where it seeks one. -/
theorem owned_proceed (a : Arrival) (l : Linter) :
    ((l.proceed a).2.daemon.owned = l.daemon.owned ∨ (l.proceed a).2.daemon.owned = none) ∧
        (l.proceed a).2.daemon.spawnCount = l.daemon.spawnCount ∨
      ∃ pid e, a.sought? = some e ∧ (l.proceed a).2.daemon.owned = some ⟨pid, e⟩ := by
  cases a with
  | probed c a k =>
    have := Daemon.Roll.owned_of_changes (Manager.advance_change c l.daemon
      (Daemon.Probe.ofConnection k l.world).2 (Daemon.Probe.ofConnection k l.world).1)
    refine this.imp ?_ ?_
    · unfold proceed judge; dsimp only
      split <;> (rename_i h; rw [h]; exact id)
    · rintro ⟨pid, ho⟩
      refine ⟨pid, c.endpoint, rfl, ?_⟩
      unfold proceed judge; dsimp only
      split <;> (rename_i h; rw [h] at ho; exact ho)
  | connected a k =>
    refine .inl ?_
    unfold proceed send; dsimp only
    split <;> exact ⟨.inl rfl, rfl⟩
  | _ => exact .inl ⟨.inl rfl, rfl⟩

end Linter

end Lint

namespace Session

open Daemon (Endpoint)

def Turn.sought? : Turn → Option Endpoint
  | .operate _ o => o.sought?
  | .goOn w _ => w.arrival.sought?

namespace Schedule

/-- The endpoints at which passes seek a daemon, or are to seek one. -/
def sought (s : Schedule) : List Endpoint :=
  s.ready.filterMap Turn.sought? ++ s.gated.filterMap (·.2.arrival.sought?) ++
    s.queued.filterMap (·.arrival.sought?)

theorem mem_sought {s : Schedule} {e : Endpoint} : e ∈ s.sought ↔
    (∃ t ∈ s.ready, t.sought? = some e) ∨ (∃ p ∈ s.gated, p.2.arrival.sought? = some e) ∨
      ∃ w ∈ s.queued, w.arrival.sought? = some e := by
  simp only [sought, List.mem_append, List.mem_filterMap, or_assoc]

section
variable {s : Schedule} {e : Endpoint}

theorem mem_sought_push {t : Turn} : e ∈ (s.push t).sought ↔ e ∈ s.sought ∨ t.sought? = some e := by
  simp only [mem_sought, push, List.mem_append, List.mem_singleton]
  grind

theorem mem_sought_queue {w : Waiting} : e ∈ (s.queue w).sought ↔ e ∈ s.sought ∨ w.arrival.sought? = some e := by
  simp only [mem_sought, queue, List.mem_append, List.mem_singleton]
  grind

theorem mem_sought_park {w : Waiting} : e ∈ (s.park w).sought ↔ e ∈ s.sought ∨ w.arrival.sought? = some e := by
  unfold park
  split
  · simp only [mem_sought, hold, List.mem_append, List.mem_singleton]
    grind
  · exact mem_sought_push

theorem mem_sought_freeDaemon : e ∈ s.freeDaemon.sought ↔ e ∈ s.sought := by
  unfold freeDaemon
  split
  · rfl
  · rename_i w rest h
    rw [mem_sought_push]
    simp only [mem_sought, h, Turn.sought?, List.mem_cons]
    grind

theorem mem_sought_release {gate : String} : e ∈ (s.release gate).sought ↔ e ∈ s.sought := by
  simp only [mem_sought, release, List.mem_append, List.mem_map, List.mem_filter]
  grind [Turn.sought?]

theorem mem_sought_eraseIdx {i : Nat} {t : Turn} (h : s.ready[i]? = some t) :
    e ∈ s.sought ↔ e ∈ sought { s with ready := s.ready.eraseIdx i } ∨ t.sought? = some e := by
  obtain ⟨hi, rfl⟩ := List.getElem?_eq_some_iff.1 h
  have hm (u : Turn) : u ∈ s.ready ↔ u = s.ready[i] ∨ u ∈ s.ready.eraseIdx i := by
    rw [← (List.getElem_cons_eraseIdx_perm hi).mem_iff, List.mem_cons]
  simp only [mem_sought, hm]
  grind

/-- Where no turn is ready, jobs are at gates only, and seek nothing. -/
theorem Manned.sought_of_idle (h : s.Manned false) (hr : s.ready = []) : s.sought = [] := by
  refine List.eq_nil_iff_forall_not_mem.2 fun e he => ?_
  rcases mem_sought.1 he with ⟨t, ht, -⟩ | ⟨p, hp, he⟩ | ⟨w, hw, -⟩
  · rw [hr] at ht
    cases ht
  · rw [Lint.Arrival.sought?_of_gate (h.gated p hp)] at he
    cases he
  · rw [h.queued_of_idle hr] at hw
    cases hw

end

end Schedule

/-- A session later on, if passes were started meanwhile and none went on. -/
structure Grows (s t : Session) : Prop where
  settings : t.settings = s.settings
  owned : t.linter.daemon.owned = s.linter.daemon.owned
  spawnCount : t.linter.daemon.spawnCount = s.linter.daemon.spawnCount
  sought : ∀ e ∈ t.schedule.sought, e ∈ s.schedule.sought ∨ s.settings.AsksFor e

section
variable {s t u : Session}

theorem Grows.of_daemon (settings : t.settings = s.settings) (daemon : t.linter.daemon = s.linter.daemon)
    (schedule : t.schedule = s.schedule) : s.Grows t :=
  ⟨settings, congrArg Daemon.Manager.owned daemon, congrArg Daemon.Manager.spawnCount daemon,
    fun _ he => .inl (schedule ▸ he)⟩

theorem Grows.refl (s : Session) : s.Grows s := .of_daemon rfl rfl rfl

theorem Grows.trans (h : s.Grows t) (k : t.Grows u) : s.Grows u := by
  refine ⟨k.settings.trans h.settings, k.owned.trans h.owned, k.spawnCount.trans h.spawnCount, fun e he => ?_⟩
  rcases k.sought e he with he | he
  · exact h.sought e he
  · exact .inr (h.settings ▸ he)

end

/-! ## Starting passes -/

section
variable (s : Session)

theorem grows_clearAfter (uri : LooseText) (e : Lint.PassEnd) : s.Grows (s.clearAfter uri e) := by
  cases e <;> exact .of_daemon rfl rfl rfl

theorem grows_conclude (uri : LooseText) (n : Nat) (output : Except Fault String) :
    s.Grows (s.conclude uri n output).2 :=
  .of_daemon rfl (Lint.Linter.daemon_conclude uri n output s.linter) rfl

theorem grows_startPass (uri : LooseText) (file : Path) :
    s.Grows (s.startPass uri file).2 ∧
      ∀ n a, (s.startPass uri file).1 = .waiting n a → ∀ e, a.sought? = some e → s.settings.AsksFor e := by
  unfold startPass
  split
  · exact ⟨.refl s, fun n a ha => by cases ha⟩
  · rename_i folder _
    obtain ⟨hd, ha⟩ := Lint.Linter.start_seeks s.settings uri file folder s.linter
    rcases hs : s.linter.start s.settings uri file folder with ⟨started, l⟩
    rw [hs] at hd ha
    dsimp only
    split
    · split
      · exact ⟨.of_daemon rfl hd rfl, ha⟩
      · refine ⟨Grows.trans (t := { s with linter := l }) (.of_daemon rfl hd rfl) (grows_conclude _ _ _ _), ?_⟩
        intro n a h
        cases h
    · exact ⟨.of_daemon rfl hd rfl, ha⟩

theorem grows_suspend (job : Job) {a : Lint.Arrival} (h : ∀ e, a.sought? = some e → s.settings.AsksFor e) :
    s.Grows (s.suspend job a) := by
  unfold suspend
  split
  · rename_i c a
    split
    · refine ⟨rfl, rfl, rfl, fun e he => ?_⟩
      exact (Schedule.mem_sought_queue.1 he).imp_right (h e)
    · refine ⟨rfl, rfl, rfl, fun e he => ?_⟩
      exact (Schedule.mem_sought_push.1 he).imp_right (h e)
  · refine ⟨rfl, rfl, rfl, fun e he => ?_⟩
    exact (Schedule.mem_sought_park.1 he).imp_right (h e)

theorem grows_relint (k : Nat) (docs : List LooseText) : ∀ s : Session, s.Grows (s.relint k docs) := by
  induction docs with
  | nil =>
    intro s
    exact .of_daemon rfl rfl rfl
  | cons uri rest ih =>
    intro s
    unfold relint
    split
    · exact .of_daemon rfl rfl rfl
    · exact ih s
    · rename_i file _
      obtain ⟨hg, ha⟩ := s.grows_startPass uri file
      split <;> rename_i hp <;> rw [hp] at hg ha
      · exact hg.trans ((grows_clearAfter _ uri _).trans (ih _))
      · exact hg.trans (grows_suspend _ _ fun e he => hg.settings ▸ ha _ _ rfl e he)

theorem grows_goOn (k : Nat) (task : Task) (uri : LooseText) (e : Lint.PassEnd) : s.Grows (s.goOn k task uri e) := by
  refine (s.grows_clearAfter uri e).trans ?_
  cases task with
  | document => exact .of_daemon rfl rfl rfl
  | command => exact .of_daemon rfl rfl rfl
  | relint rest => exact grows_relint k rest _

theorem grows_startTask (k : Nat) (task : Task) (uri : LooseText) (file : Path) :
    s.Grows (s.startTask k task uri file) := by
  unfold startTask
  obtain ⟨hg, ha⟩ := s.grows_startPass uri file
  split <;> rename_i hp <;> rw [hp] at hg ha
  · exact hg.trans (grows_goOn _ k task uri _)
  · exact hg.trans (grows_suspend _ _ fun e he => hg.settings ▸ ha _ _ rfl e he)

theorem grows_clearAll (uris : List LooseText) : ∀ s : Session, s.Grows (s.clearAll uris) := by
  induction uris with
  | nil =>
    intro s
    exact .refl s
  | cons uri uris ih =>
    intro s
    have cleared : s.Grows ((s.forget uri).publish uri []) := .of_daemon rfl rfl rfl
    exact cleared.trans (ih _)

theorem grows_configure {payload : Json} {new : Settings}
    (h : Settings.ofJson s.conditions.nesting payload = .ok new) (k : Nat) :
    (s.adopt new).Grows (s.configure k payload) := by
  unfold configure
  simp only [h]
  split
  · exact (grows_clearAll _ _).trans (.of_daemon rfl rfl rfl)
  · split
    · exact grows_relint k _ _
    · exact .of_daemon rfl rfl rfl

theorem grows_debugReport : s.Grows s.debugReport.2 := by
  unfold debugReport; dsimp only
  split
  · exact .of_daemon rfl rfl rfl
  · rename_i path resolver world _
    have hc : (Lint.Linter.command s.settings [] { s.linter with resolver := resolver, world := world }).2.daemon =
      s.linter.daemon := rfl
    split <;> rename_i h <;> rw [h] at hc <;> exact .of_daemon rfl hc rfl

theorem grows_touch (k : Nat) (uri : LooseText) : s.Grows (s.touch k uri) := by
  have remembered : s.Grows { s with documents := insertDocument uri s.documents } := .of_daemon rfl rfl rfl
  unfold touch; dsimp only
  split
  · exact .of_daemon rfl rfl rfl
  · exact .of_daemon rfl rfl rfl
  · exact remembered.trans (grows_startTask _ k .document uri _)

theorem grows_lintCommand (k : Nat) (params : Json) : s.Grows (s.lintCommand k params) := by
  unfold lintCommand; dsimp only
  split
  · exact .of_daemon rfl rfl rfl
  · split
    · split
      · exact .of_daemon rfl rfl rfl
      · exact .of_daemon rfl rfl rfl
      · exact grows_startTask s k .command _ _
    · split <;> exact .of_daemon rfl rfl rfl

end

end Session

end LintServer
