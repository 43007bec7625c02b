import LintServer.Proofs.Daemon.Stages

/-!
# The conduct of an exchange

The stages of an exchange are gone through up to the first that fails, and the connection
is closed behind them, once and last. What is told is the outcome of the stages, unless
closing fails with an error that is none of the operating system (`send_conduct`).
-/

namespace LintServer

def Event.written? : Event → Option String
  | .write text => some text
  | _ => none

namespace Daemon

/-! ## Stages up to the first that fails -/

/-- The events of the stages that are gone through: all of them if none fails, else those up to the first
that does, which is the last. -/
inductive Reached (stages : List (Event × Option Accident)) : List Event → Option Accident → Prop
  | all (free : ∀ stage ∈ stages, stage.2 = none) : Reached stages (stages.map Prod.fst) none
  | failed (before after : List (Event × Option Accident)) (event : Event) (e : Accident)
      (cut : stages = before ++ (event, some e) :: after) (free : ∀ stage ∈ before, stage.2 = none) :
      Reached stages (before.map Prod.fst ++ [event]) (some e)

namespace Reached
variable {stages more : List (Event × Option Accident)} {events : List Event} {failure : Option Accident}

theorem cons (h : Reached stages events failure) (event : Event) :
    Reached ((event, none) :: stages) (event :: events) failure := by
  cases h with
  | all free => exact .all (List.forall_mem_cons.2 ⟨rfl, free⟩)
  | failed before after last e cut free =>
    exact .failed ((event, none) :: before) after last e (by rw [cut, List.cons_append])
      (List.forall_mem_cons.2 ⟨rfl, free⟩)

theorem append_of_failed {e : Accident} (h : Reached stages events (some e)) :
    Reached (stages ++ more) events (some e) := by
  cases h with
  | failed before after last e cut free =>
    exact .failed before (after ++ more) last e (by rw [cut, List.append_assoc, List.cons_append]) free

theorem concat_of_free (h : Reached stages events none) (event : Event) (error : Option Accident) :
    Reached (stages ++ [(event, error)]) (events ++ [event]) error := by
  cases h with
  | all free =>
    cases error with
    | none =>
      have both : ∀ stage ∈ stages ++ [(event, none)], stage.2 = none :=
        List.forall_mem_append.2 ⟨free, List.forall_mem_singleton.2 rfl⟩
      have whole := all both
      rwa [List.map_append] at whole
    | some e => exact .failed stages [] event e rfl free

theorem failure_eq (h : Reached stages events failure) : failure = stages.findSome? Prod.snd := by
  cases h with
  | all free => exact (List.findSome?_eq_none_iff.2 free).symm
  | failed before after event e cut free =>
    rw [cut, List.findSome?_append, List.findSome?_eq_none_iff.2 free]
    rfl

theorem isPrefix (h : Reached stages events failure) : events <+: stages.map Prod.fst := by
  cases h with
  | all free => exact List.prefix_refl _
  | failed before after event e cut free =>
    refine ⟨after.map Prod.fst, ?_⟩
    rw [cut, List.map_append, List.map_cons, List.append_assoc]
    rfl

/-- The first stage is always gone into. -/
theorem exists_cons {first : Event × Option Accident} (h : Reached (first :: stages) events failure) :
    ∃ rest, events = first.1 :: rest ∧ rest <+: stages.map Prod.fst := by
  have given : events ≠ [] := by
    cases h with
    | all free => exact List.cons_ne_nil _ _
    | failed before after event e cut free => exact List.append_ne_nil_of_right_ne_nil _ (List.cons_ne_nil _ _)
  exact (List.prefix_cons_iff.1 h.isPrefix).resolve_left given

end Reached

namespace Exchange

theorem reached_take (acts : List (Event × Option Accident)) (w : World) :
    ∃ events, Reached acts events (take acts w).1 ∧ (take acts w).2.log = w.log ++ events := by
  induction acts generalizing w with
  | nil => exact ⟨[], .all (List.forall_mem_nil _), (List.append_nil w.log).symm⟩
  | cons act acts ih =>
    obtain ⟨event, error⟩ := act
    cases error with
    | some e => exact ⟨[event], .failed [] acts event e rfl (List.forall_mem_nil _), rfl⟩
    | none =>
      obtain ⟨events, reached, log⟩ := ih (w.emit event)
      exact ⟨event :: events, reached.cons event, log.trans (List.append_cons ..).symm⟩

/-! ## Closing -/

/-- What comes of an outcome by closing: an error of the operating system changes nothing. -/
def afterClosing {α : Type} (closeError : Option Accident) (outcome : Except Fault α) : Except Fault α :=
  match closeError with
  | none => outcome
  | some e => if e.isSystem then outcome else .error (.outside e)

theorem close_eq {α : Type} (c : Connection) (outcome : Except Fault α) (w : World) :
    close c outcome w = (afterClosing c.closeError outcome, w.emit .close) := by
  unfold close afterClosing
  cases c.closeError with
  | none => rfl
  | some e =>
    dsimp only
    split <;> rfl

theorem afterClosing_of_system {α : Type} {closeError : Option Accident}
    (h : ∀ e, closeError = some e → e.isSystem = true) (outcome : Except Fault α) :
    afterClosing closeError outcome = outcome := by
  cases closeError with
  | none => rfl
  | some e => exact if_pos (h e rfl)

/-! ## The whole exchange -/

/-- The stages of an exchange over a connection that was made, each with its error. -/
def stages (c : Connection) (request : Request) (limit : Option Double) : List (Event × Option Accident) :=
  (.write (String.ofList request.line), c.writeError) :: (.drain, c.drainError) ::
    ((if c.canHalfClose then [(.halfClose, c.halfCloseError)] else []) ++ [(.read limit, c.readError)])

theorem stages_eq (c : Connection) (request : Request) (limit : Option Double) :
    stages c request limit = steps c request ++ [(.read limit, c.readError)] := rfl

/-- How the stages end: with the response in the reply, or with the first error. -/
def outcome (endpoint : Endpoint) (c : Connection) : Option Accident → Except Fault Response
  | none => Response.ofReply c.nesting c.reply
  | some e => .error (stepFault endpoint e)

theorem log_connect (endpoint : Endpoint) (limit : Option Double) (w : World) :
    (connect endpoint limit (w.tellLimit limit)).2.log =
      w.log ++ if isSpent limit then [] else [.connect endpoint limit] := by
  unfold connect
  by_cases spent : isSpent limit = true
  · rw [if_pos spent, if_pos spent]
    exact (List.append_nil w.log).symm
  · rw [if_neg spent, if_neg spent]
    unfold World.connect
    dsimp only
    split <;> rfl

theorem finish_eq (endpoint : Endpoint) (c : Connection) (w : World) :
    finish ⟨endpoint, c⟩ w = (afterClosing c.closeError (outcome endpoint c c.readError), w.emit .close) := by
  unfold finish outcome
  dsimp only
  rw [close_eq]
  unfold afterClosing
  cases c.closeError with
  | none => cases c.readError <;> rfl
  | some e =>
    dsimp only
    cases e.isSystem <;> cases c.readError <;> rfl

section
variable {endpoint : Endpoint} (request : Request) {limit : Option Double} {c : Connection} {w opened v : World}
  (given : connect endpoint limit (w.tellLimit limit) = (c, opened))
include given

theorem send_of_unconnected {e : Accident} (failed : c.connectError = some e) :
    send endpoint request limit w = (.error (connectFault endpoint e), opened) := by
  simp only [send, given, sendOn, failed]

variable (connected : c.connectError = none)
include connected

theorem send_of_failed {e : Accident} (failed : take (steps c request) opened = (some e, v)) :
    send endpoint request limit w = (afterClosing c.closeError (outcome endpoint c (some e)), v.emit .close) := by
  simp only [send, given, sendOn, connected, failed, close_eq]
  unfold afterClosing outcome
  cases c.closeError with
  | none => rfl
  | some x =>
    dsimp only
    cases x.isSystem <;> rfl

theorem send_of_sent (sent : take (steps c request) opened = (none, v)) :
    send endpoint request limit w =
      (afterClosing c.closeError (outcome endpoint c c.readError), (v.tellLimit limit).read.emit .close) := by
  simp only [send, given, sendOn, connected, sent, finish_eq]

theorem send_of_connected :
    ∃ events failure, Reached (stages c request limit) events failure ∧
      (send endpoint request limit w).2.log = opened.log ++ events ++ [.close] ∧
      (send endpoint request limit w).1 = afterClosing c.closeError (outcome endpoint c failure) := by
  obtain ⟨events, reached, log⟩ := reached_take (steps c request) opened
  rcases taken : take (steps c request) opened with ⟨failure, v⟩
  rw [taken] at reached log
  cases failure with
  | none =>
    refine ⟨events ++ [.read limit], c.readError, ?_, ?_, ?_⟩
    · rw [stages_eq]
      exact reached.concat_of_free _ _
    · rw [send_of_sent request given connected taken, ← List.append_assoc, ← log]
      rfl
    · rw [send_of_sent request given connected taken]
  | some e =>
    refine ⟨events, some e, reached.append_of_failed, ?_, ?_⟩
    · rw [send_of_failed request given connected taken, ← log]
      rfl
    · rw [send_of_failed request given connected taken]

end

theorem outcome_of_system {e : Accident} (h : e.isSystem = true) (endpoint : Endpoint) (c : Connection) :
    ∃ f, outcome endpoint c (some e) = .error (.transport f) :=
  (stepFault_of_system h endpoint).imp fun _ => congrArg Except.error

section
variable {c : Connection} (request : Request) {limit : Option Double}

theorem mem_tail_stages {event : Event} (h : event ∈ (stages c request limit).tail.map Prod.fst) :
    event = .drain ∨ event = .halfClose ∨ event = .read limit := by
  unfold stages at h
  cases c.canHalfClose <;> grind

variable {request} {events : List Event} {failure : Option Accident}
  (h : Reached (stages c request limit) events failure)
include h

/-- The request is written first, and nothing that comes later is a write or closes the connection. -/
theorem exists_write_cons : ∃ rest, events = .write (String.ofList request.line) :: rest ∧
    ∀ event ∈ rest, event = .drain ∨ event = .halfClose ∨ event = .read limit := by
  obtain ⟨rest, begins, begun⟩ := h.exists_cons
  exact ⟨rest, begins, fun event inside => mem_tail_stages request (begun.subset inside)⟩

theorem written_of_reached : events.filterMap Event.written? = [String.ofList request.line] := by
  obtain ⟨rest, rfl, later⟩ := exists_write_cons h
  have silent : ∀ event ∈ rest, event.written? = none := by
    intro event inside
    rcases later event inside with rfl | rfl | rfl <;> rfl
  exact congrArg (_ :: ·) (List.filterMap_eq_nil_iff.2 silent)

theorem notMem_close_of_reached : .close ∉ events := by
  obtain ⟨rest, rfl, later⟩ := exists_write_cons h
  intro inside
  rcases List.mem_cons.1 inside with first | inside
  · cases first
  · rcases later _ inside with other | other | other <;> cases other

end

/-- **The conduct of an exchange.** If no connection is made, nothing else is done. If one is, the stages are gone
through up to the first that fails, with the request's line written once, and the connection is closed once, behind
all else. The outcome is that of the stages, where every error of the operating system makes the transport the one
at fault, unless closing fails with an error that is none of the operating system. -/
theorem send_conduct (endpoint : Endpoint) (request : Request) (limit : Option Double) (w : World) :
    let c := (connect endpoint limit (w.tellLimit limit)).1
    let opened := w.log ++ if isSpent limit then [] else [.connect endpoint limit]
    let r := send endpoint request limit w
    (∀ e, c.connectError = some e → r.2.log = opened ∧ r.1 = .error (connectFault endpoint e) ∧
      (e.isSystem = true → ∃ f, r.1 = .error (.transport f))) ∧
    (c.connectError = none → ∃ events failure, Reached (stages c request limit) events failure ∧
      r.2.log = opened ++ events ++ [.close] ∧ .close ∉ events ∧
      events.filterMap Event.written? = [String.ofList request.line] ∧
      r.1 = afterClosing c.closeError (outcome endpoint c failure) ∧
      ∀ e, failure = some e → e.isSystem = true → (∀ x, c.closeError = some x → x.isSystem = true) →
        ∃ f, r.1 = .error (.transport f)) := by
  rcases given : connect endpoint limit (w.tellLimit limit) with ⟨c, opened⟩
  have log := log_connect endpoint limit w
  rw [given] at log
  dsimp only at log ⊢
  rw [← log]
  refine ⟨fun e failed => ?_, fun connected => ?_⟩
  · rw [send_of_unconnected request given failed]
    exact ⟨rfl, rfl, fun system => (connectFault_of_system system endpoint).imp fun _ => congrArg Except.error⟩
  · obtain ⟨events, failure, reached, told, ended⟩ := send_of_connected request given connected
    refine ⟨events, failure, reached, told, notMem_close_of_reached reached, written_of_reached reached, ended, ?_⟩
    rintro e rfl system closed
    rw [ended, afterClosing_of_system closed]
    exact outcome_of_system system endpoint c

/-- The reply does not come in time over a connection that cannot be half closed, and closing fails too. -/
theorem send_conduct_unanswered :
    let c : Connection := { canHalfClose := false, readError := some (.system .timedOut "")
                            closeError := some (.system .connectionReset "reset") }
    let r := send {} ⟨["lint"], clientId⟩ none { connections := [c] }
    c.connectError = none ∧ c.closeError.all Accident.isSystem = true ∧
      r.2.log = [.connect {} none, .write (String.ofList (Request.line ⟨["lint"], clientId⟩)), .drain, .read none,
        .close] ∧
      ∃ f, r.1 = .error (.transport f) := by
  intro c r
  obtain ⟨events, failure, reached, -, -, -, -, transport⟩ :=
    (send_conduct {} ⟨["lint"], clientId⟩ none { connections := [c] }).2 rfl
  refine ⟨rfl, rfl, rfl, transport (.system .timedOut "") reached.failure_eq rfl fun x closed => ?_⟩
  cases closed
  rfl

/-- The request cannot be written, and closing fails with an error that is none of the operating system. -/
theorem not_always_transport : ¬ ∀ endpoint request limit w e,
    (connect endpoint limit (w.tellLimit limit)).1.connectError = none →
    (stages (connect endpoint limit (w.tellLimit limit)).1 request limit).findSome? Prod.snd = some e →
    e.isSystem = true → ∃ f, (send endpoint request limit w).1 = .error (.transport f) := by
  intro always
  let c : Connection := { writeError := some (.system .brokenPipe "Broken pipe")
                          closeError := some (.runtime "Event loop is closed") }
  obtain ⟨f, told⟩ := always {} ⟨["lint"], clientId⟩ none { connections := [c] } _ rfl rfl rfl
  cases told

end Exchange

end Daemon

end LintServer
