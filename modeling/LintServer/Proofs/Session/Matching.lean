import LintServer.Proofs.Session.Sought

/-!
# Daemons that match the settings

The daemon that a session owns was started for what its settings ask for, and so
is every one that its passes seek (`Matched`). Passes keep this, whatever they
come to. New settings keep it if they do not come while a pass seeks a daemon,
for it would go on to seek the old one (`owned_unmatched`).
-/

namespace LintServer.Session

structure Matched (s : Session) : Prop where
  owned : ∀ o, s.linter.daemon.owned = some o → s.settings.AsksFor o.endpoint
  sought : ∀ e ∈ s.schedule.sought, s.settings.AsksFor e

/-- A session later on, if its daemon at most was let go. -/
structure Sheds (s t : Session) : Prop where
  settings : t.settings = s.settings
  owned : t.linter.daemon.owned = s.linter.daemon.owned ∨ t.linter.daemon.owned = none
  spawnCount : t.linter.daemon.spawnCount = s.linter.daemon.spawnCount
  sought : t.schedule.sought = s.schedule.sought

section
variable {s t : Session}

theorem Matched.grows (h : s.Matched) (hg : s.Grows t) : t.Matched := by
  refine ⟨fun o ho => ?_, fun e he => ?_⟩
  · rw [hg.settings]
    exact h.owned o (hg.owned ▸ ho)
  · rw [hg.settings]
    exact (hg.sought e he).elim (h.sought e) id

theorem Matched.sheds (h : s.Matched) (hs : s.Sheds t) : t.Matched := by
  refine ⟨fun o ho => ?_, fun e he => ?_⟩
  · rw [hs.settings]
    rcases hs.owned with e | e
    · exact h.owned o (e ▸ ho)
    · rw [e] at ho
      cases ho
  · rw [hs.settings]
    exact h.sought e (hs.sought ▸ he)

theorem Sheds.finish (h : s.Sheds t) (k : Nat) (o : Outcome) : s.Sheds (t.finish k o) :=
  ⟨h.settings, h.owned, h.spawnCount, h.sought⟩

end

/-! ## New settings -/

section
variable {s : Session}

theorem settings_adopt (s : Session) (new : Settings) : (s.adopt new).settings = new := by
  unfold adopt; dsimp only
  split <;> rfl

theorem owned_stopDaemon (s : Session) : s.stopDaemon.linter.daemon.owned = none := by
  unfold stopDaemon Lint.Linter.stopDaemon
  rw [Daemon.Manager.shutdown_eq]
  rfl

theorem sheds_stopDaemon (s : Session) : s.Sheds s.stopDaemon := by
  refine ⟨rfl, .inr s.owned_stopDaemon, ?_, rfl⟩
  unfold stopDaemon Lint.Linter.stopDaemon
  rw [Daemon.Manager.shutdown_eq]
  rfl

theorem sheds_runExitHook (s : Session) : s.Sheds { s with linter := s.linter.runExitHook } := by
  cases hh : s.linter.daemon.hooked with
  | true =>
    have : s.linter.runExitHook = s.linter.stopDaemon := by
      simp only [Lint.Linter.runExitHook, Daemon.Manager.runHook, hh, if_true, Lint.Linter.stopDaemon]
    rw [this]
    exact s.sheds_stopDaemon
  | false =>
    have : s.linter.runExitHook = s.linter := by
      simp only [Lint.Linter.runExitHook, Daemon.Manager.runHook, hh, Bool.false_eq_true, if_false]
    rw [this]
    exact ⟨rfl, .inl rfl, rfl, rfl⟩

theorem spawnCount_adopt (s : Session) (new : Settings) :
    (s.adopt new).linter.daemon.spawnCount = s.linter.daemon.spawnCount := by
  unfold adopt; dsimp only
  split
  · exact (sheds_stopDaemon _).spawnCount
  · rfl

theorem owned_adopt (h : s.Matched) {new : Settings} {o : Daemon.Owned}
    (ho : (s.adopt new).linter.daemon.owned = some o) :
    new.AsksFor o.endpoint ∧ new.daemonPort = s.settings.daemonPort := by
  unfold adopt at ho; dsimp only at ho
  split at ho
  · rw [owned_stopDaemon] at ho
    cases ho
  · rename_i hn
    obtain ⟨he, hp⟩ := h.owned o ho
    simp only [he, Bool.true_and, Bool.or_eq_true, Bool.not_eq_true', bne_iff_ne, not_or, Bool.not_eq_false,
      Decidable.not_not] at hn
    exact ⟨⟨hn.1, hp.trans hn.2⟩, hn.2.symm⟩

theorem matched_adopt (h : s.Matched) (hs : s.schedule.sought = []) (new : Settings) : (s.adopt new).Matched := by
  refine ⟨fun o ho => ?_, fun e he => ?_⟩
  · rw [settings_adopt]
    exact (owned_adopt h ho).1
  · rw [schedule_adopt, hs] at he
    cases he

end

/-! ## Moves -/

/-- A session later on, if it matches its settings and any daemon started meanwhile is owned. -/
structure Follows (s t : Session) : Prop where
  matched : t.Matched
  started : t.linter.daemon.spawnCount = s.linter.daemon.spawnCount ∨ ∃ o, t.linter.daemon.owned = some o

section
variable {s t u : Session}

theorem Follows.grows (h : s.Follows t) (hg : t.Grows u) : s.Follows u := by
  refine ⟨h.matched.grows hg, ?_⟩
  rw [hg.spawnCount, hg.owned]
  exact h.started

/-- A message brings settings, starts passes or lets the daemon go. -/
theorem receive_cases (s : Session) (k : Nat) (m : Message) :
    (∃ payload new, m = .configured payload ∧ Settings.ofJson s.conditions.nesting payload = .ok new ∧
      (s.adopt new).Grows (s.receive k m)) ∨ s.Grows (s.receive k m) ∨ s.Sheds (s.receive k m) := by
  cases m with
  | opened uri => exact .inr (.inl (s.grows_touch k uri))
  | saved uri => exact .inr (.inl (s.grows_touch k uri))
  | configured payload =>
    cases hp : Settings.ofJson s.conditions.nesting payload with
    | error e =>
      have : s.receive k (.configured payload) = s.finish k (.ok .nothing) := by
        simp only [receive, configure, hp]
      exact .inr (.inl (this ▸ .of_daemon rfl rfl rfl))
    | ok new => exact .inl ⟨payload, new, rfl, hp, s.grows_configure hp k⟩
  | lint params => exact .inr (.inl (s.grows_lintCommand k params))
  | stopDaemon => exact .inr (.inr (s.sheds_stopDaemon.finish k _))
  | debugStatus => exact .inr (.inl (s.grows_debugReport.trans (.of_daemon rfl rfl rfl)))
  | shutdown => exact .inr (.inr (s.sheds_stopDaemon.finish k _))
  | release gate => exact .inr (.inl ⟨rfl, rfl, rfl, fun e he => .inl (Schedule.mem_sought_release.1 he)⟩)
  | exitHook => exact .inr (.inr (s.sheds_runExitHook.finish k _))
  | _ => exact .inr (.inl (.of_daemon rfl rfl rfl))

theorem spawnCount_receive (s : Session) (k : Nat) (m : Message) :
    (s.receive k m).linter.daemon.spawnCount = s.linter.daemon.spawnCount := by
  rcases s.receive_cases k m with ⟨payload, new, -, -, hg⟩ | hg | hg
  · exact hg.spawnCount.trans (s.spawnCount_adopt new)
  · exact hg.spawnCount
  · exact hg.spawnCount

theorem matched_receive (h : s.Matched) (k : Nat) (m : Message)
    (hm : ∀ payload, m = .configured payload → s.schedule.sought = []) : (s.receive k m).Matched := by
  rcases s.receive_cases k m with ⟨payload, new, hp, -, hg⟩ | hg | hg
  · exact (matched_adopt h (hm payload hp) new).grows hg
  · exact h.grows hg
  · exact h.sheds hg

theorem follows_advance (h : s.Matched) {w : Waiting}
    (hw : ∀ e, w.arrival.sought? = some e → s.settings.AsksFor e) : s.Follows (s.advance w) := by
  have hd := s.linter.owned_proceed w.arrival
  have hs (e : Daemon.Endpoint) := s.linter.sought?_proceed w.arrival (e := e)
  unfold advance
  rcases hp : s.linter.proceed w.arrival with ⟨progress, l⟩
  rw [hp] at hd hs
  have owned (o : Daemon.Owned) (ho : l.daemon.owned = some o) : s.settings.AsksFor o.endpoint := by
    rcases hd with ⟨kept | none, -⟩ | ⟨pid, e, he, started⟩
    · exact h.owned o (kept ▸ ho)
    · cases none.symm.trans ho
    · cases started.symm.trans ho
      exact hw e he
  have started : l.daemon.spawnCount = s.linter.daemon.spawnCount ∨ ∃ o, l.daemon.owned = some o := by
    rcases hd with ⟨-, count⟩ | ⟨pid, e, -, started⟩
    · exact .inl count
    · exact .inr ⟨_, started⟩
  have freed (b : Bool) {e : Daemon.Endpoint}
      (he : e ∈ (if b then s.schedule.freeDaemon else s.schedule).sought) : s.settings.AsksFor e := by
    cases b with
    | true => exact h.sought e (Schedule.mem_sought_freeDaemon.1 he)
    | false => exact h.sought e he
  cases progress with
  | operate o =>
    refine ⟨⟨owned, fun e he => ?_⟩, started⟩
    rcases Schedule.mem_sought_push.1 he with he | he
    · exact freed _ he
    · exact hw e (hs e he)
  | pause a =>
    refine ⟨⟨owned, fun e he => ?_⟩, started⟩
    rcases Schedule.mem_sought_push.1 he with he | he
    · exact h.sought e he
    · exact hw e (hs e he)
  | output output =>
    dsimp only
    generalize hf : (if w.arrival.ownsDaemon = true then s.schedule.freeDaemon else s.schedule) = schedule
    have ended : s.Follows { s with linter := l, schedule := schedule } := by
      subst hf
      exact ⟨⟨owned, fun e he => freed _ he⟩, started⟩
    exact (ended.grows (grows_conclude _ _ _ _)).grows (grows_goOn _ _ _ _ _)

theorem follows_take (h : s.Matched) {t : Turn} (ht : ∀ e, t.sought? = some e → s.settings.AsksFor e) :
    s.Follows (s.take t) := by
  cases t with
  | operate job o =>
    have daemon : (s.take (.operate job o)).linter.daemon = s.linter.daemon := s.linter.daemon_operate o
    refine ⟨⟨fun p hp => ?_, fun e he => ?_⟩, .inl (congrArg Daemon.Manager.spawnCount daemon)⟩
    · rw [daemon] at hp
      exact h.owned p hp
    · rcases Schedule.mem_sought_park.1 he with he | he
      · exact h.sought e he
      · exact ht e ((s.linter.sought?_operate o).symm.trans he)
  | goOn w delay =>
    cases delay with
    | zero => exact follows_advance h ht
    | succ delay =>
      refine ⟨⟨h.owned, fun e he => ?_⟩, .inl rfl⟩
      exact (Schedule.mem_sought_push.1 he).elim (h.sought e) (ht e)

theorem follows_turn (h : s.Matched) (i : Nat) : s.Follows (s.play (.turn i)) := by
  unfold play; dsimp only
  split
  · rename_i t ht
    have sought (e : Daemon.Endpoint) := Schedule.mem_sought_eraseIdx (e := e) ht
    have : (s.withoutTurn i).Matched := ⟨h.owned, fun e he => h.sought e ((sought e).2 (.inl he))⟩
    obtain ⟨matched, started⟩ := follows_take this fun e he => h.sought e ((sought e).2 (.inr he))
    exact ⟨matched, started⟩
  · exact ⟨h, .inl rfl⟩

end

def Move.configures : Move → Bool
  | .receive _ (.configured _) => true
  | _ => false

/-- Settings come only while no pass seeks a daemon, but where passes wait for the tool or for replies. So it
is where steps follow one another (`exists_unhurried_of_steps`). -/
def Unhurried (s : Session) : List Move → Prop
  | [] => True
  | m :: ms => (m.configures = true → s.schedule.sought = []) ∧ (s.play m).Unhurried ms

instance decidableUnhurried : ∀ (s : Session) (ms : List Move), Decidable (s.Unhurried ms)
  | _, [] => inferInstanceAs (Decidable True)
  | s, m :: ms =>
    have := decidableUnhurried (s.play m) ms
    inferInstanceAs (Decidable ((m.configures = true → s.schedule.sought = []) ∧ (s.play m).Unhurried ms))

section
variable {s : Session}

theorem matched_play (h : s.Matched) {m : Move} (hm : m.configures = true → s.schedule.sought = []) :
    (s.play m).Matched := by
  cases m with
  | receive k m => exact matched_receive h k m fun payload hp => hm (by subst hp; rfl)
  | turn i => exact (follows_turn h i).matched
  | report => exact h.grows (.of_daemon rfl rfl rfl)
  | outside world => exact h.grows (.of_daemon rfl rfl rfl)

theorem matched_playAll (ms : List Move) : ∀ {s : Session}, s.Matched → s.Unhurried ms → (s.playAll ms).Matched := by
  induction ms with
  | nil =>
    intro s h hu
    exact h
  | cons m ms ih =>
    intro s h hu
    exact ih (matched_play h hu.1) hu.2

theorem matched_opening (conditions : Conditions) (folders : List Json) (notifies : Bool) (world : World) :
    (opening conditions folders notifies world).Matched :=
  ⟨fun _ ho => absurd ho.symm (Option.some_ne_none _), fun _ he => absurd he List.not_mem_nil⟩

theorem owned_of_started (h : s.Matched) {m : Move}
    (hm : (s.play m).linter.daemon.spawnCount ≠ s.linter.daemon.spawnCount) :
    ∃ i o, m = .turn i ∧ (s.play m).linter.daemon.owned = some o := by
  cases m with
  | receive k m => exact absurd (s.spawnCount_receive k m) hm
  | turn i =>
    obtain ⟨o, ho⟩ := (follows_turn h i).started.resolve_left hm
    exact ⟨i, o, rfl, ho⟩
  | report => exact absurd rfl hm
  | outside world => exact absurd rfl hm

end

/-! ## Steps are unhurried -/

theorem Unhurried.append {s : Session} {ms ns : List Move} (h : s.Unhurried ms)
    (k : (s.playAll ms).Unhurried ns) : s.Unhurried (ms ++ ns) := by
  induction ms generalizing s with
  | nil => exact k
  | cons m ms ih => exact ⟨h.1, ih h.2 k⟩

theorem unhurried_of_none {ms : List Move} (h : ∀ m ∈ ms, m.configures = false) :
    ∀ s : Session, s.Unhurried ms := by
  induction ms with
  | nil =>
    intro s
    trivial
  | cons m ms ih =>
    obtain ⟨hm, hms⟩ := List.forall_mem_cons.1 h
    intro s
    exact ⟨fun hc => absurd (hm.symm.trans hc) Bool.false_ne_true, ih hms _⟩

/-- Steps one after the other are unhurried moves: between them passes wait at gates only. -/
theorem exists_unhurried_of_steps (steps : List (Nat × Message)) : ∀ {s : Session}, s.Manned →
    s.schedule.ready = [] →
    ∃ moves, s.Unhurried moves ∧ steps.foldl (fun t m => (t.step m.1 m.2).2) s = s.playAll moves := by
  induction steps with
  | nil =>
    intro s _ _
    exact ⟨[], trivial, rfl⟩
  | cons m steps ih =>
    intro s hm hr
    obtain ⟨n, hn⟩ := exists_moves_of_step s m.1 m.2
    let moves : List Move := .receive m.1 m.2 :: List.replicate n (.turn 0) ++ [.report]
    have manned : (s.step m.1 m.2).2.Manned := hn ▸ manned_playAll moves hm
    have idle : (s.step m.1 m.2).2.schedule.ready = [] := ready_run (s.receive m.1 m.2)
    obtain ⟨more, hu, he⟩ := ih manned idle
    have turns : ∀ m ∈ List.replicate n (Move.turn 0) ++ [.report], m.configures = false := by
      intro m hm
      rcases List.mem_append.1 hm with hm | hm
      · rw [List.eq_of_mem_replicate hm]
        rfl
      · rw [List.mem_singleton.1 hm]
        rfl
    have first : s.Unhurried moves := ⟨fun _ => hm.sought_of_idle hr, unhurried_of_none turns _⟩
    refine ⟨moves ++ more, first.append (hn ▸ hu), ?_⟩
    rw [List.foldl_cons, playAll_append, he, hn]

/-! ## The owned daemon -/

/-- **The owned daemon matches the settings.** Where settings come only while no pass seeks a daemon, a
daemon that is owned was started for the port that the settings ask for now, and no pass seeks another.
Whoever is started in a move is started by a pass, for that port. Settings that cannot be read change
nothing, and under such as turn the daemon off or change the port the old one is no longer owned. -/
theorem owned_matches_settings (conditions : Conditions) (folders : List Json) (notifies : Bool) (world : World)
    (moves : List Move) (hu : (opening conditions folders notifies world).Unhurried moves) :
    let s := (opening conditions folders notifies world).playAll moves
    (∀ o, s.linter.daemon.owned = some o → s.settings.AsksFor o.endpoint) ∧
    (∀ e ∈ s.schedule.sought, s.settings.AsksFor e) ∧
    (∀ m, (s.play m).linter.daemon.spawnCount ≠ s.linter.daemon.spawnCount →
      ∃ o, (s.play m).linter.daemon.owned = some o ∧ (s.play m).settings.AsksFor o.endpoint) ∧
    ∀ k payload,
      let t := s.play (.receive k (.configured payload))
      (∀ e, Settings.ofJson s.conditions.nesting payload = .error e → t.settings = s.settings ∧ t.linter = s.linter) ∧
      (∀ new, Settings.ofJson s.conditions.nesting payload = .ok new →
        new.daemonEnabled = false ∨ new.daemonPort ≠ s.settings.daemonPort → t.linter.daemon.owned = none) := by
  intro s
  have matched : s.Matched := matched_playAll moves (matched_opening conditions folders notifies world) hu
  refine ⟨matched.owned, matched.sought, fun m hm => ?_, fun k payload => ⟨fun e he => ?_, fun new hn hc => ?_⟩⟩
  · obtain ⟨i, o, rfl, ho⟩ := owned_of_started matched hm
    exact ⟨o, ho, (follows_turn matched i).matched.owned o ho⟩
  · simp only [play, receive, configure, he]
    exact ⟨rfl, rfl⟩
  · have hg : (s.adopt new).Grows (s.play (.receive k (.configured payload))) := s.grows_configure hn k
    rw [hg.owned]
    cases ho : (s.adopt new).linter.daemon.owned with
    | none => rfl
    | some o =>
      obtain ⟨⟨he, -⟩, hp⟩ := owned_adopt matched ho
      rcases hc with hd | hd
      · rw [he] at hd
        cases hd
      · exact absurd hp hd

def daemonPayload (port : Int) : Json :=
  .obj [("path", .str "tool"), ("daemon", .obj [("enabled", .bool true), ("port", .int port)])]

/-- The first probe finds nothing, the second one the daemon that was started, and its reply is late. -/
def daemonWorld : World where
  connections := [.refused, {}, { gate := some "g" }]

/-- A document is linted by a daemon, and the port changes while the reply is waited for. -/
def moving : List Move :=
  [.receive 0 (.configured (daemonPayload 9001)), .receive 1 (.opened "file:///a")] ++
    List.replicate 11 (.turn 0) ++ [.receive 2 (.configured (daemonPayload 9002))] ++ List.replicate 4 (.turn 0)

theorem owned_matches_settings_after_moving :
    let s := (opening default [] true daemonWorld).playAll moving
    s.linter.daemon.owned = some ⟨1002, { port := 9002 }⟩ ∧ s.settings.AsksFor { port := 9002 } := by
  have owned : ((opening default [] true daemonWorld).playAll moving).linter.daemon.owned =
      some ⟨1002, { port := 9002 }⟩ := by decide +kernel
  have unhurried : (opening default [] true daemonWorld).Unhurried moving := by decide +kernel
  exact ⟨owned, (owned_matches_settings default [] true daemonWorld moving unhurried).1 _ owned⟩

/-- Settings that come while a pass seeks a daemon leave it seeking the one that is no longer asked for. -/
theorem owned_unmatched :
    let s := (opening default [] true daemonWorld).playAll
      ([.receive 0 (.configured (daemonPayload 9001)), .receive 1 (.opened "file:///a"),
        .receive 2 (.configured (daemonPayload 9002))] ++ List.replicate 3 (.turn 0))
    s.linter.daemon.owned = some ⟨1001, { port := 9001 }⟩ ∧ s.settings.daemonPort = 9002 := by
  decide +kernel

end LintServer.Session
