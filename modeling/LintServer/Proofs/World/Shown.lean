import LintServer.Lint.Linter

/-!
# What is shown

The log holds everything that was asked of the world outside. What the editor
and the user see of it are the publications and the messages; the passes that
were asked for are in it too. Asking for a program, a connection, a daemon or a
listing adds to neither.
-/

namespace LintServer

def Event.isShown : Event → Bool
  | .publish _ _ | .notify _ => true
  | _ => false

/-- The pass that an event asks for, with its settings. -/
def Event.asked? : Event → Option (LooseText × Settings)
  | .lint uri s => some (uri, s)
  | _ => none

/-- Whether an event shows nothing and asks for no pass. -/
def Event.isQuiet (e : Event) : Bool := !e.isShown && e.asked?.isNone

namespace World

/-- What has been shown, the first first. -/
def shown (w : World) : List Event := w.log.filter Event.isShown

/-- The passes that were asked for, the newest first. -/
def asked (w : World) : List (LooseText × Settings) := (w.log.filterMap Event.asked?).reverse

@[simp] theorem shown_emit (w : World) (e : Event) :
    (w.emit e).shown = w.shown ++ if e.isShown then [e] else [] := by
  simp only [shown, emit, List.filter_append]
  cases h : e.isShown <;> simp [h]

@[simp] theorem asked_emit (w : World) (e : Event) : (w.emit e).asked = e.asked?.toList ++ w.asked := by
  simp only [asked, emit, List.filterMap_append, List.reverse_append]
  cases h : e.asked? <;> simp [h]

/-- A world later on, if nothing was shown and no pass was asked for meanwhile. -/
structure Hides (w v : World) : Prop where
  shown : v.shown = w.shown
  asked : v.asked = w.asked

theorem Hides.refl (w : World) : w.Hides w := ⟨rfl, rfl⟩

theorem hides_emit {e : Event} (h : e.isQuiet = true) (w : World) : w.Hides (w.emit e) := by
  simp only [Event.isQuiet, Bool.and_eq_true, Bool.not_eq_true', Option.isNone_iff_eq_none] at h
  exact ⟨by simp [h.1], by simp [h.2]⟩

theorem hides_run (w : World) (command : List LooseText) (folder : Option LooseText) :
    w.Hides (w.run command folder).2 := by
  have h := hides_emit (e := .run command folder) rfl w
  unfold run; dsimp only
  split <;> exact ⟨h.shown, h.asked⟩

theorem hides_list (w : World) (folder : LooseText) : w.Hides (w.list folder).2 :=
  hides_emit rfl w

/-- A world later on, if beside that the tool was not run. -/
structure Keeps (w v : World) : Prop extends Hides w v where
  runs : v.runs = w.runs

theorem Keeps.refl (w : World) : w.Keeps w := ⟨.refl w, rfl⟩

theorem Keeps.trans {u v w : World} (h : u.Keeps v) (k : v.Keeps w) : u.Keeps w :=
  ⟨⟨k.shown.trans h.shown, k.asked.trans h.asked⟩, k.runs.trans h.runs⟩

section
variable (w : World)

theorem keeps_emit {e : Event} (h : e.isQuiet = true) : w.Keeps (w.emit e) := ⟨w.hides_emit h, rfl⟩

theorem keeps_connect (endpoint : Daemon.Endpoint) : w.Keeps (w.connect endpoint).2 := by
  have h := w.keeps_emit (e := .connect endpoint w.limit) rfl
  unfold connect; dsimp only
  split <;> exact ⟨⟨h.shown, h.asked⟩, h.runs⟩

theorem keeps_read : w.Keeps w.read := w.keeps_emit rfl

theorem keeps_spawn (command : List LooseText) : w.Keeps (w.spawn command).2 := by
  have h := w.keeps_emit (e := .spawn command) rfl
  unfold spawn; dsimp only
  split
  · split <;> exact ⟨⟨h.shown, h.asked⟩, h.runs⟩
  · split <;> exact ⟨⟨h.shown, h.asked⟩, h.runs⟩

theorem keeps_kill (pid : Nat) : w.Keeps (w.kill pid).2 :=
  have h := w.keeps_emit (e := .kill pid) rfl
  ⟨⟨h.shown, h.asked⟩, h.runs⟩

end

end World

/-! ## The tool -/

theorem Resolver.hides_newestArchive (storage : Path) (w : World) : w.Hides (newestArchive storage w).2 := by
  unfold newestArchive; dsimp only
  split
  · exact .refl w
  · exact .refl w
  · have h := w.hides_list (storage.child "bin").text
    split <;> (rename_i e; rw [e] at h; exact h)

theorem Resolver.hides_archive (s : Settings) (r : Resolver) (w : World) : w.Hides (archive s r w).2.2 := by
  unfold archive; dsimp only
  split
  · exact .refl w
  · split
    · exact .refl w
    · have h := hides_newestArchive (.ofText s.storagePath) w
      split <;> (rename_i e; rw [e] at h; exact h)

theorem Resolver.hides_effectivePath (s : Settings) (r : Resolver) (w : World) :
    w.Hides (effectivePath s r w).2.2 := by
  unfold effectivePath
  split
  · exact .refl w
  · have h := hides_archive s r w
    split <;> (rename_i e; rw [e] at h; exact h)

theorem Resolver.hides_command (s : Settings) (args : List LooseText) (r : Resolver) (w : World) :
    w.Hides (command s args r w).2.2 := by
  have h := hides_effectivePath s r w
  unfold command
  split <;> (rename_i e; rw [e] at h; exact h)

theorem Tool.hides_start (command : List LooseText) (folder : Option LooseText) (w : World) :
    w.Hides (start command folder w).2 := by
  have h := w.hides_run command (folder.filter (· ≠ ""))
  unfold start; dsimp only
  split
  · exact .refl w
  · split <;> exact h

/-! ## The daemon -/

namespace Daemon

theorem keeps_connect (endpoint : Endpoint) (limit : Option Double) (w : World) :
    w.Keeps (connect endpoint limit w).2 := by
  unfold connect
  split
  · exact .refl w
  · exact w.keeps_connect endpoint

theorem keeps_close {α : Type} (c : Connection) (outcome : Except Fault α) (w : World) :
    w.Keeps (close c outcome w).2 := by
  have h := w.keeps_emit (e := .close) rfl
  unfold close; dsimp only
  split
  · exact h
  · split <;> exact h

theorem Probe.keeps_ofConnection (c : Connection) (w : World) : w.Keeps (ofConnection c w).2 := by
  unfold ofConnection
  split
  · exact .refl w
  · exact keeps_close c _ w

theorem Exchange.keeps_take (steps : List (Event × Option Accident)) (hs : ∀ s ∈ steps, s.1.isQuiet = true) :
    ∀ w : World, w.Keeps (take steps w).2 := by
  induction steps with
  | nil =>
    intro w
    exact .refl w
  | cons s rest ih =>
    intro w
    obtain ⟨event, error⟩ := s
    have he : w.Keeps (w.emit event) := w.keeps_emit (hs (event, error) (by simp))
    cases error with
    | some e => exact he
    | none => exact he.trans (ih (fun s h => hs s (by simp [h])) _)

theorem Exchange.isQuiet_of_steps (c : Connection) (request : Request) :
    ∀ s ∈ steps c request, s.1.isQuiet = true := by
  unfold steps
  cases c.canHalfClose <;> simp [Event.isQuiet, Event.isShown, Event.asked?]

theorem Exchange.keeps_sendOn (endpoint : Endpoint) (request : Request) (c : Connection) (w : World) :
    w.Keeps (sendOn endpoint request c w).2 := by
  have h := keeps_take _ (isQuiet_of_steps c request) w
  unfold sendOn
  split
  · exact .refl w
  · split <;> rename_i e <;> rw [e] at h
    · exact h.trans (keeps_close c _ _)
    · exact h

theorem Exchange.keeps_finish (x : Exchange) (w : World) : w.Keeps (x.finish w).2 := by
  unfold finish; dsimp only
  split <;> rename_i e
  · exact congrArg Prod.snd e ▸ keeps_close ..
  · exact congrArg Prod.snd e ▸ keeps_close ..

namespace Manager

theorem keeps_start (endpoint : Endpoint) (command : List LooseText) (m : Manager) (w : World) :
    w.Keeps (start endpoint command m w).2.2 := by
  have h := w.keeps_spawn command
  unfold start
  split <;> rename_i e <;> rw [e] at h
  · split <;> exact h
  · dsimp only
    split
    · exact h
    · exact h.trans (World.keeps_emit _ rfl)

theorem keeps_next (c : Search) (m : Manager) (w : World) : w.Keeps (next c m w).2.2 := by
  unfold next
  split
  · exact .refl w
  · exact w.keeps_emit rfl

theorem keeps_revive (c : Search) (m : Manager) (w : World) : w.Keeps (revive c m w).2.2 := by
  unfold revive
  split
  · exact .refl w
  · exact keeps_start _ _ _ w

theorem keeps_launch (c : Search) (m : Manager) (w : World) : w.Keeps (launch c m w).2.2 := by
  have h := keeps_revive c m w
  unfold launch
  split <;> rename_i e <;> rw [e] at h
  · exact h
  · exact h.trans (keeps_next _ _ _)

theorem keeps_advance (c : Search) (found : Except Fault Bool) (m : Manager) (w : World) :
    w.Keeps (advance c found m w).2.2 := by
  unfold advance
  split
  · exact .refl w
  · exact .refl w
  · split
    · exact keeps_launch c m w
    · split
      · exact .refl w
      · exact keeps_next c m w

theorem keeps_shutdown (m : Manager) (w : World) : w.Keeps (m.shutdown w).2.2 := by
  rw [shutdown_eq]; dsimp only
  split
  · exact .refl w
  · split
    · exact w.keeps_kill _
    · exact .refl w

theorem keeps_runHook (m : Manager) (w : World) : w.Keeps (m.runHook w).2.2 := by
  unfold runHook
  split
  · exact keeps_shutdown m w
  · exact .refl w

end Manager

end Daemon

end LintServer
