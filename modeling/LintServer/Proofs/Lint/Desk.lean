import LintServer.Proofs.Lint.Mark
import LintServer.Proofs.World.Shown

/-!
# The desk of a linter

What a linter keeps of its passes: their numbers, the settings they were asked
for with, and what was shown. A pass touches this at its start and at its end
only. `EndsAs` says what the end of a pass shows and returns, `conclude_ends`
that passes do end so.
-/

namespace LintServer.Lint

structure Desk where
  ledger : Ledger
  calls : List (LooseText × Settings)
  notifies : Bool
  shown : List Event

namespace Desk

def display (d : Desk) (events : List Event) : Desk := { d with shown := d.shown ++ events }

def call (d : Desk) (uri : LooseText) (s : Settings) : Desk := { d with calls := (uri, s) :: d.calls }

def mark (d : Desk) (m : Mark) : Desk := { d with ledger := d.ledger.mark m }

def number (d : Desk) (uri : LooseText) (s : Settings) : Desk := (d.call uri s).mark (.next uri)

/-- A pass was asked for that only clears its document. -/
def clear (d : Desk) (uri : LooseText) (s : Settings) : Desk :=
  ((d.call uri s).mark (.forget uri)).display [.publish uri []]

@[simp] theorem display_nil (d : Desk) : d.display [] = d := by simp [display]

theorem display_append (d : Desk) (a b : List Event) : d.display (a ++ b) = (d.display a).display b := by
  simp [display]

end Desk

/-- The message about a fault, where the user is told of faults. -/
def told (notifies : Bool) (f : Fault) : List Event :=
  if notifies then [.notify (LooseText.ofString "LuCLI lint failed: " ++ f.message)] else []

/-- How a pass over `uri` ends, current or not: from its outcome, what it returns and what it shows. -/
inductive EndsAs (notifies : Bool) (uri : LooseText) :
    Bool → Except Fault (List Diagnostic) → PassEnd → List Event → Prop
  | output (ds : List Diagnostic) :
      EndsAs notifies uri true (.ok ds) (.ok (some ds)) [.publish uri ds]
  | outputOfPast (ds : List Diagnostic) :
      EndsAs notifies uri false (.ok ds) (.ok none) []
  | failure (f : Fault) (h : f.isExpected = true) :
      EndsAs notifies uri true (.error f) (.ok none) (.publish uri [] :: told notifies f)
  | failureOfPast (f : Fault) (h : f.isExpected = true) :
      EndsAs notifies uri false (.error f) (.ok none) []
  | defect (current : Bool) (f : Fault) (h : f.isExpected = false) :
      EndsAs notifies uri current (.error f) (.error f) []

namespace Linter

def desk (l : Linter) : Desk := ⟨l.ledger, l.world.asked, l.notifies, l.world.shown⟩

theorem desk_publish (l : Linter) (uri : LooseText) (ds : List Diagnostic) :
    (l.publish uri ds).desk = l.desk.display [.publish uri ds] := by
  simp [publish, emit, desk, Desk.display, Event.isShown, Event.asked?]

theorem desk_tell (l : Linter) (f : Fault) : (l.tell f).desk = l.desk.display (told l.notifies f) := by
  unfold tell told
  cases l.notifies <;> simp [emit, desk, Desk.display, Event.isShown, Event.asked?]

/-! ## Between start and end -/

/-- Only what is shown and what is asked for matters to the desk of what a pass does to the world. -/
theorem desk_of_hides {l : Linter} {w : World} (h : l.world.Hides w) :
    Desk.mk l.ledger w.asked l.notifies w.shown = l.desk := by
  rw [h.shown, h.asked]
  rfl

@[simp] theorem desk_command (s : Settings) (args : List LooseText) (l : Linter) :
    (l.command s args).2.desk = l.desk :=
  desk_of_hides (l.resolver.hides_command s args l.world)

@[simp] theorem desk_startTool (s : Settings) (file folder : Path) (l : Linter) :
    (l.startTool s file folder).2.desk = l.desk := by
  have h := desk_command s (Tool.lintArguments file.text none) l
  unfold startTool
  split <;> rename_i e <;> rw [e] at h
  · exact h
  · exact (desk_of_hides (Tool.hides_start ..)).trans h

@[simp] theorem desk_startAsking (s : Settings) (file folder : Path) (l : Linter) :
    (l.startAsking s file folder).2.desk = l.desk := by
  have h := desk_command s s.daemonArguments l
  unfold startAsking
  split <;> (rename_i e; rw [e] at h; exact h)

@[simp] theorem desk_startWork (s : Settings) (file folder : Path) (l : Linter) :
    (l.startWork s file folder).2.desk = l.desk := by
  unfold startWork
  split
  · exact desk_startAsking s file folder l
  · exact desk_startTool s file folder l

@[simp] theorem desk_handOver (o : Operation) (l : Linter) : (l.handOver o).desk = l.desk := rfl

@[simp] theorem desk_operate (o : Operation) (l : Linter) : (l.operate o).2.desk = l.desk := by
  cases o with
  | probe c a =>
    have h := Daemon.keeps_connect c.endpoint (some (Operation.probe c a).limit) l.world
    simp only [operate, desk, h.shown, h.asked]
  | connect a =>
    have h := Daemon.keeps_connect a.endpoint (some (Operation.connect a).limit) l.world
    simp only [operate, desk, h.shown, h.asked]
  | read x limit => exact desk_of_hides l.world.keeps_read.toHides

@[simp] theorem desk_seek (c : Daemon.Search) (a : Ask) (l : Linter) : (l.seek c a).2.desk = l.desk := rfl

theorem keeps_judge (c : Daemon.Search) (k : Connection) (l : Linter) :
    l.world.Keeps (Daemon.Manager.advance c (Daemon.Probe.ofConnection k l.world).1 l.daemon
      (Daemon.Probe.ofConnection k l.world).2).2.2 :=
  (Daemon.Probe.keeps_ofConnection k l.world).trans (Daemon.Manager.keeps_advance c _ l.daemon _)

theorem keeps_proceed (a : Arrival) (l : Linter) : l.world.Keeps (l.proceed a).2.world := by
  cases a with
  | tool run => exact .refl l.world
  | daemon c a => exact .refl l.world
  | interval c a => exact .refl l.world
  | probed c a k =>
    have h := l.keeps_judge c k
    unfold proceed judge; dsimp only
    split <;> (rename_i e; rw [e] at h; exact h)
  | connected a k =>
    have h := Daemon.Exchange.keeps_sendOn a.endpoint a.request k l.world
    unfold proceed send; dsimp only
    split <;> (rename_i e; rw [e] at h; exact h)
  | reply x => exact x.keeps_finish l.world

@[simp] theorem desk_proceed (a : Arrival) (l : Linter) : (l.proceed a).2.desk = l.desk := by
  refine Eq.trans ?_ (desk_of_hides (l.keeps_proceed a).toHides)
  cases a with
  | probed c a k =>
    unfold proceed judge; dsimp only
    split <;> rfl
  | connected a k =>
    unfold proceed send; dsimp only
    split <;> rfl
  | _ => rfl

@[simp] theorem desk_stopDaemon (l : Linter) : l.stopDaemon.desk = l.desk :=
  desk_of_hides (Daemon.Manager.keeps_shutdown l.daemon l.world).toHides

@[simp] theorem desk_runExitHook (l : Linter) : l.runExitHook.desk = l.desk :=
  desk_of_hides (Daemon.Manager.keeps_runHook l.daemon l.world).toHides

/-! ## Start and end -/

/-- A pass was asked for. -/
def call (l : Linter) (uri : LooseText) (s : Settings) : Linter :=
  l.emit (.lint uri s)

theorem desk_call (l : Linter) (uri : LooseText) (s : Settings) : (l.call uri s).desk = l.desk.call uri s := by
  simp [call, emit, desk, Desk.call, Event.isShown, Event.asked?]

def numbered (l : Linter) (uri : LooseText) (s : Settings) : Linter :=
  { l.call uri s with ledger := ((l.call uri s).ledger.next uri).2 }

theorem desk_numbered (l : Linter) (uri : LooseText) (s : Settings) :
    (l.numbered uri s).desk = l.desk.number uri s :=
  congrArg (Desk.mark · (.next uri)) (l.desk_call uri s)

theorem conclude_ends (uri : LooseText) (n : Nat) (output : Except Fault String) (l : Linter) :
    ∃ shown, EndsAs l.notifies uri (l.ledger.isCurrent uri n) (output.bind diagnosticsOf)
        (l.conclude uri n output).1 shown ∧
      (l.conclude uri n output).2.desk = l.desk.display shown := by
  unfold conclude; dsimp only
  cases output.bind diagnosticsOf with
  | ok ds =>
    cases l.ledger.isCurrent uri n with
    | true => exact ⟨_, .output ds, l.desk_publish uri ds⟩
    | false => exact ⟨_, .outputOfPast ds, (Desk.display_nil _).symm⟩
  | error f =>
    dsimp only
    cases hf : f.isExpected with
    | false => exact ⟨_, .defect _ f hf, (Desk.display_nil _).symm⟩
    | true =>
      cases l.ledger.isCurrent uri n with
      | false => exact ⟨_, .failureOfPast f hf, (Desk.display_nil _).symm⟩
      | true =>
        refine ⟨_, .failure f hf, ?_⟩
        simp only [if_true]
        rw [desk_tell, desk_publish, ← Desk.display_append]
        rfl

theorem start_of_disabled {s : Settings} (hs : s.lintEnabled = false) (uri : LooseText) (file folder : Path)
    (l : Linter) :
    (l.start s uri file folder).1 = .ended (.ok none) ∧
      (l.start s uri file folder).2.desk = l.desk.clear uri s := by
  unfold start
  simp only [hs, Bool.false_eq_true, if_false, true_and]
  rw [desk_publish]
  exact congrArg (fun d => (Desk.mark d (.forget uri)).display [.publish uri []]) (l.desk_call uri s)

theorem start_of_enabled {s : Settings} (hs : s.lintEnabled = true) (uri : LooseText) (file folder : Path)
    (l : Linter) :
    (∃ f e shown, EndsAs l.notifies uri true (.error f) e shown ∧
      (l.start s uri file folder).1 = .ended e ∧
      (l.start s uri file folder).2.desk = (l.desk.number uri s).display shown) ∨
    (∃ a, (l.start s uri file folder).1 = .waiting (l.ledger.counter + 1) a ∧
      (l.start s uri file folder).2.desk = l.desk.number uri s) := by
  have hd := (desk_startWork s file folder (l.numbered uri s)).trans (l.desk_numbered uri s)
  rcases hw : (l.numbered uri s).startWork s file folder with ⟨r, m⟩
  rw [hw] at hd
  simp only [numbered, call] at hw
  unfold start
  simp only [hs, if_true, hw]
  cases r with
  | ok a => exact .inr ⟨a, rfl, hd⟩
  | error f =>
    obtain ⟨shown, he, hs⟩ := conclude_ends uri (l.ledger.counter + 1) (.error f) m
    have hl : m.ledger = (l.ledger.next uri).2 := congrArg Desk.ledger hd
    have hn : m.notifies = l.notifies := congrArg Desk.notifies hd
    rw [hl, hn, l.ledger.isCurrent_next uri] at he
    exact .inl ⟨f, _, shown, he, rfl, hs.trans (congrArg (Desk.display · shown) hd)⟩

end Linter

end LintServer.Lint
