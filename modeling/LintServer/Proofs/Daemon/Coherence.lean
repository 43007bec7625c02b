import LintServer.Proofs.Daemon.Custody

/-!
# The states of a manager

Before and after whole calls, and while they wait, the state of a manager fits the
process that it owns. With the roll in order that makes every manager coherent
(`coherent_run`), however the probes and the starts of its calls end.
-/

namespace LintServer.Daemon

namespace Manager

/-- The state tells whether a process is owned, or exited already. -/
def Fits (m : Manager) (w : World) : Prop :=
  match m.state with
  | .absent => m.owned = none
  | .starting => m.owned.isSome = true
  | .listening => True
  | .dead => (m.exitCode? w).isSome = true

theorem isSome_exitCode {m : Manager} {w : World} (h : (m.roll w).InOrder) (ho : m.owned.isSome = true)
    (ha : m.isAlive w = false) : (m.exitCode? w).isSome = true := by
  obtain ⟨o, ho⟩ := Option.isSome_iff_exists.1 ho
  obtain ⟨p, hp, hpid⟩ := h.newest o ho
  have found : w.process? o.pid = some p := by
    have := h.find_of_mem (List.mem_of_getLast? hp)
    rwa [hpid] at this
  cases he : p.exited with
  | none => simp [isAlive, ho, World.isAlive, found, Process.isAlive, he] at ha
  | some code => simp [exitCode?, ho, World.exitCode?, found, he]

theorem exitCode_of_ages {m : Manager} {w v : World} (h : w.Ages v) {code : Int}
    (hc : m.exitCode? w = some code) : m.exitCode? v = some code := by
  obtain ⟨f, hf, hv⟩ := h.processes
  obtain ⟨o, ho, hc⟩ := Option.bind_eq_some_iff.1 hc
  obtain ⟨p, hp, hc⟩ := Option.bind_eq_some_iff.1 hc
  have same : (fun q : Process => q.pid == o.pid) ∘ f = fun q => q.pid == o.pid := by
    funext q
    simp [(hf q).pid]
  have found : v.process? o.pid = some (f p) := by
    rw [World.process?, hv, List.find?_map, same]
    exact congrArg (Option.map f) hp
  simp [exitCode?, ho, World.exitCode?, found, (hf p).exited code hc]

theorem Fits.ages {m : Manager} {w v : World} (h : m.Fits w) (hw : w.Ages v) : m.Fits v := by
  unfold Fits at h ⊢
  cases hs : m.state <;> simp only [hs] at h ⊢
  · exact h
  · exact h
  · obtain ⟨code, hc⟩ := Option.isSome_iff_exists.1 h
    simp [exitCode_of_ages hw hc]

/-! ## Calls -/

theorem next_again {c d : Search} {m n : Manager} {w v : World} (h : next c m w = (.again d, n, v)) :
    d.attempt = c.attempt + 1 ∧ n = m := by
  unfold next at h
  split at h <;> cases h
  exact ⟨rfl, rfl⟩

section
variable {c : Search} {m : Manager} {w : World} (order : (m.roll w).InOrder) (h : m.Fits w)
include order h

theorem next_fits (ho : m.owned.isSome = true) : (next c m w).2.1.Fits (next c m w).2.2 := by
  unfold next
  split
  · cases ha : m.isAlive w with
    | true => exact ho
    | false => exact isSome_exitCode order ho ha
  · exact h

theorem revive_fits {result : Except Fault Unit} {n : Manager} {v : World}
    (hr : revive c m w = (result, n, v)) :
    (∀ e, result = .error e → n.Fits v) ∧ (result = .ok () → n.owned.isSome = true) := by
  unfold revive at hr
  cases ha : m.isAlive w with
  | true =>
    simp only [ha, if_true] at hr
    cases hr
    refine ⟨fun _ he => (by cases he), fun _ => ?_⟩
    cases ho : m.owned with
    | none => simp [isAlive, ho] at ha
    | some o => rfl
  | false =>
    simp only [ha, Bool.false_eq_true, if_false] at hr
    -- A process that exited is noticed before the start, so also where the start fails.
    have noticed : (if m.owned.isSome then { m with state := .dead } else m).Fits w := by
      cases ho : m.owned.isSome with
      | true => exact isSome_exitCode order ho ha
      | false => exact h
    unfold start at hr
    rcases spawn_cases w c.command with ⟨e, u, hs, hp, hk⟩ | ⟨launch, u, hs, -, -⟩
    · rw [hs] at hr
      dsimp only at hr
      split at hr <;> cases hr
      · exact ⟨fun _ _ => rfl, fun he => by cases he⟩
      · exact ⟨fun _ _ => noticed.ages (w.ages_of_same hp hk), fun he => by cases he⟩
    · rw [hs] at hr
      cases hr
      exact ⟨fun _ he => (by cases he), fun _ => rfl⟩

theorem launch_fits {verdict : Verdict} {n : Manager} {v : World} (hl : launch c m w = (verdict, n, v)) :
    n.Fits v ∧ ∀ d, verdict = .again d → d.attempt ≠ 0 ∧ n.owned.isSome = true := by
  unfold launch at hl
  have revived := order.changes (revive_change c m w)
  rcases hr : revive c m w with ⟨result, k, u⟩
  rw [hr] at hl revived
  obtain ⟨failed, started⟩ := revive_fits order h hr
  cases result with
  | error e =>
    cases hl
    exact ⟨failed e rfl, fun d hd => by cases hd⟩
  | ok _ =>
    dsimp only at hl
    have owned : k.owned.isSome = true := started rfl
    have next := next_fits (c := c) (m := { k with state := .starting }) revived owned owned
    rw [hl] at next
    refine ⟨next, fun d hd => ?_⟩
    cases hd
    obtain ⟨ha, rfl⟩ := next_again hl
    exact ⟨by omega, owned⟩

theorem advance_fits (ho : c.attempt ≠ 0 → m.owned.isSome = true) {found : Except Fault Bool}
    {verdict : Verdict} {n : Manager} {v : World} (ha : advance c found m w = (verdict, n, v)) :
    n.Fits v ∧ ∀ d, verdict = .again d → d.attempt ≠ 0 ∧ n.owned.isSome = true := by
  have ended (d : Search) {r : Except Fault Unit} (hd : Verdict.ended r = .again d) :
      d.attempt ≠ 0 ∧ n.owned.isSome = true := by cases hd
  unfold advance at ha
  split at ha
  · cases ha
    exact ⟨h, fun d => ended d⟩
  · cases ha
    exact ⟨trivial, fun d => ended d⟩
  · by_cases hc : c.attempt = 0
    · rw [if_pos hc] at ha
      exact launch_fits order h ha
    · rw [if_neg hc] at ha
      split at ha
      · rename_i code he
        cases ha
        refine ⟨?_, fun d => ended d⟩
        exact Option.isSome_of_eq_some he
      · have next := next_fits (c := c) order h (ho hc)
        rw [ha] at next
        refine ⟨next, fun d hd => ?_⟩
        subst hd
        obtain ⟨hd, rfl⟩ := next_again ha
        exact ⟨by omega, ho hc⟩

theorem ensureRunning_fits (probe : Lookout) (endpoint : Endpoint) (command : List LooseText) :
    (ensureRunning probe.1 endpoint command m w).2.1.Fits (ensureRunning probe.1 endpoint command m w).2.2 := by
  -- After the first probe a process is owned, whether it lives or not.
  let P (c : Search) (m : Manager) (w : World) : Prop :=
    (m.roll w).InOrder ∧ m.Fits w ∧ (c.attempt ≠ 0 → m.owned.isSome = true)
  have looked {c : Search} {m : Manager} {w : World} (h : P c m w) : P c m (probe.1 c.endpoint w).2 :=
    have ages := probe.2 c.endpoint w
    ⟨h.1.change (m.roll_ages ages c.endpoint), h.2.1.ages ages, h.2.2⟩
  refine search_keeps (P := P) (Q := fun _ n v => n.Fits v) ?_ ?_ _ _ _ ⟨order, h, fun hc => absurd rfl hc⟩
  · intro c m w result n v hp ha
    obtain ⟨order, fits, owned⟩ := looked hp
    exact (advance_fits order fits owned ha).1
  · intro c m w d n v hp ha
    obtain ⟨order, fits, owned⟩ := looked hp
    obtain ⟨hn, hd⟩ := advance_fits order fits owned ha
    have order' := order.changes (advance_change c m (probe.1 c.endpoint w).2 (probe.1 c.endpoint w).1)
    rw [ha] at order'
    exact ⟨order', hn, fun _ => (hd d rfl).2⟩

end

theorem shutdown_fits (m : Manager) (w : World) : (m.shutdown w).2.1.Fits (m.shutdown w).2.2 := by
  rw [shutdown_eq]
  rfl

end Manager

/-! ## Runs -/

namespace Watch

def Fits (t : Watch) : Prop := t.manager.Fits t.world

theorem Reachable.fits_act {t : Watch} (h : t.Reachable) (hf : t.Fits) (a : Act) : (t.act a).Fits := by
  cases a with
  | ensure probe calls =>
    unfold Watch.act
    induction calls generalizing t with
    | nil => exact hf
    | cons call calls ih =>
      exact ih (h.steps (t.steps_ensureRunning probe call.1 call.2))
        (Manager.ensureRunning_fits h.inOrder hf probe call.1 call.2)
  | shutdown => exact Manager.shutdown_fits _ _
  | exitHook =>
    unfold Watch.act runHook Manager.runHook; dsimp only
    split
    · exact Manager.shutdown_fits _ _
    · exact hf
  | exit pid code => exact Manager.Fits.ages hf (t.world.ages_exit pid code)

def run (t : Watch) (acts : List Act) : Watch := acts.foldl act t

theorem Reachable.fits_run {t : Watch} (h : t.Reachable) (hf : t.Fits) (acts : List Act) :
    (t.run acts).Reachable ∧ (t.run acts).Fits := by
  unfold run
  induction acts generalizing t with
  | nil => exact ⟨h, hf⟩
  | cons a acts ih => exact ih (h.act a) (h.fits_act hf a)

end Watch

structure Coherent (m : Manager) (w : World) : Prop where
  absent : m.state = .absent → m.owned = none
  starting : m.state = .starting → m.owned.isSome = true
  dead : m.state = .dead → ∃ o code, m.owned = some o ∧ w.exitCode? o.pid = some code
  free : m.owned = none → m.state = .absent ∨ m.state = .listening
  newest : ∀ o, m.owned = some o → ∃ p, w.processes.getLast? = some p ∧ p.pid = o.pid
  spawnCount : m.spawnCount = w.processes.length
  hooks : w.log.count .registerHook = if 0 < m.spawnCount then 1 else 0

theorem coherent_of_fits {m : Manager} {w : World} (order : (m.roll w).InOrder) (h : m.Fits w) : Coherent m w := by
  have exited (hs : m.state = .dead) : ∃ o code, m.owned = some o ∧ w.exitCode? o.pid = some code := by
    simp only [Manager.Fits, hs] at h
    obtain ⟨code, hc⟩ := Option.isSome_iff_exists.1 h
    obtain ⟨o, ho, hc⟩ := Option.bind_eq_some_iff.1 hc
    exact ⟨o, code, ho, hc⟩
  refine ⟨fun hs => ?_, fun hs => ?_, exited, fun ho => ?_, order.newest, order.spawnCount, ?_⟩
  · simpa only [Manager.Fits, hs] using h
  · simpa only [Manager.Fits, hs] using h
  · cases hs : m.state with
    | absent => exact .inl rfl
    | listening => exact .inr rfl
    | starting => simp [Manager.Fits, hs, ho] at h
    | dead =>
      obtain ⟨o, -, he, -⟩ := exited hs
      rw [ho] at he
      cases he
  · rw [← w.count_reaping]
    exact order.hooks

/-- **Coherence.** After any calls, alone or in batches, shutdowns, runs of the exit hook and exits of
processes, each from beginning to end, the manager is coherent. -/
theorem coherent_run (interval : Double) (maxAttempts : Int) (world : World) (acts : List Watch.Act) :
    let t := (Watch.opening interval maxAttempts world).run acts
    Coherent t.manager t.world := by
  obtain ⟨h, hf⟩ := (Watch.reachable_opening interval maxAttempts world).fits_run rfl acts
  exact coherent_of_fits h.inOrder hf

end LintServer.Daemon
