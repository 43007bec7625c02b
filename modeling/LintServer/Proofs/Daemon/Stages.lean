import LintServer.Daemon.Exchange

/-!
# The stages of an exchange

Where the operating system is the only source of errors, a stage that fails makes
the transport the one at fault, and closing changes nothing (`send_cases`).
-/

namespace LintServer.Daemon

/-- All errors on the connection are errors of the operating system, among them that time runs out. -/
def Systemic (c : Connection) : Prop :=
  ∀ error ∈ [c.connectError, c.writeError, c.drainError, c.halfCloseError, c.readError, c.closeError],
    ∀ e ∈ error, e.isSystem = true

/-- The request goes out over the connection and the reply comes in. -/
structure Delivers (c : Connection) : Prop where
  connected : c.connectError = none
  written : c.writeError = none
  drained : c.drainError = none
  halfClosed : c.canHalfClose = true → c.halfCloseError = none
  answered : c.readError = none

theorem close_of_systemic {c : Connection} (h : Systemic c) {α : Type} (outcome : Except Fault α) (w : World) :
    close c outcome w = (outcome, w.emit .close) := by
  unfold close
  dsimp only
  split
  · rfl
  · rename_i e closed
    exact if_pos (h c.closeError (by simp) e closed)

namespace Exchange

theorem take_cases (acts : List (Event × Option Accident)) (w : World) :
    ((take acts w).1 = none ∧ ∀ act ∈ acts, act.2 = none) ∨
      ∃ act ∈ acts, ∃ e, act.2 = some e ∧ (take acts w).1 = some e := by
  induction acts generalizing w with
  | nil => exact .inl ⟨rfl, nofun⟩
  | cons act acts ih =>
    obtain ⟨event, error⟩ := act
    cases error with
    | some e => exact .inr ⟨_, List.mem_cons_self, e, rfl, rfl⟩
    | none =>
      rw [take]
      rcases ih (w.emit event) with ⟨taken, free⟩ | ⟨act, inside, failed⟩
      · exact .inl ⟨taken, List.forall_mem_cons.2 ⟨rfl, free⟩⟩
      · exact .inr ⟨act, List.mem_cons_of_mem _ inside, failed⟩

section
variable {c : Connection}

theorem steps_free_iff (request : Request) : (∀ act ∈ steps c request, act.2 = none) ↔
    c.writeError = none ∧ c.drainError = none ∧ (c.canHalfClose = true → c.halfCloseError = none) := by
  unfold steps
  cases c.canHalfClose <;> simp

theorem system_of_steps (h : Systemic c) {request : Request} {act : Event × Option Accident}
    (inside : act ∈ steps c request) {e : Accident} (failed : act.2 = some e) : e.isSystem = true := by
  refine h act.2 ?_ e failed
  unfold steps at inside
  rcases List.mem_append.1 inside with first | last
  · simp only [List.mem_cons, List.not_mem_nil, or_false] at first
    rcases first with rfl | rfl <;> simp
  · split at last
    · rw [List.mem_singleton.1 last]
      simp
    · cases last

theorem connectFault_of_system {e : Accident} (h : e.isSystem = true) (endpoint : Endpoint) :
    ∃ f, connectFault endpoint e = .transport f := by
  cases e with
  | system kind text => cases kind <;> exact ⟨_, rfl⟩
  | runtime text => cases h
  | value text => cases h

theorem stepFault_of_system {e : Accident} (h : e.isSystem = true) (endpoint : Endpoint) :
    ∃ f, stepFault endpoint e = .transport f := by
  cases e with
  | system kind text => cases kind <;> exact ⟨_, rfl⟩
  | runtime text => cases h
  | value text => cases h

theorem sendOn_cases (h : Systemic c) (endpoint : Endpoint) (request : Request) (w : World) :
    (∃ w', sendOn endpoint request c w = (.ok ⟨endpoint, c⟩, w') ∧ c.connectError = none ∧ c.writeError = none ∧
      c.drainError = none ∧ (c.canHalfClose = true → c.halfCloseError = none)) ∨
    ∃ f w', sendOn endpoint request c w = (.error (.transport f), w') ∧ ¬ Delivers c := by
  unfold sendOn
  cases connected : c.connectError with
  | some e =>
    obtain ⟨f, fault⟩ := connectFault_of_system (h c.connectError (by simp) e connected) endpoint
    exact .inr ⟨f, w, by dsimp only; rw [fault], fun d => (nomatch connected.symm.trans d.connected)⟩
  | none =>
    dsimp only
    rcases take_cases (steps c request) w with ⟨taken, free⟩ | ⟨act, inside, e, failed, taken⟩
    · refine .inl ?_
      split
      · rename_i same
        rw [same] at taken
        cases taken
      · exact ⟨_, rfl, rfl, (steps_free_iff request).1 free⟩
    · obtain ⟨f, fault⟩ := stepFault_of_system (system_of_steps h inside failed) endpoint
      refine .inr ⟨f, ?_⟩
      split
      · rename_i same
        rw [same] at taken
        cases taken
        refine ⟨_, by rw [close_of_systemic h, fault], fun d => ?_⟩
        have free := (steps_free_iff request).2 ⟨d.written, d.drained, d.halfClosed⟩ act inside
        cases failed.symm.trans free
      · rename_i same
        rw [same] at taken
        cases taken

theorem finish_fst (h : Systemic c) (endpoint : Endpoint) (w : World) :
    (finish ⟨endpoint, c⟩ w).1 = match c.readError with
      | some e => .error (stepFault endpoint e)
      | none => Response.ofReply c.nesting c.reply := by
  unfold finish
  dsimp only
  rw [close_of_systemic h]
  cases c.readError <;> rfl

/-- Either the reply comes in and is read, or the transport is at fault. -/
theorem send_cases (h : Systemic c) {endpoint : Endpoint} {limit : Option Double} {w : World}
    (given : (connect endpoint limit (w.tellLimit limit)).1 = c) (request : Request) :
    (Delivers c ∧ (send endpoint request limit w).1 = Response.ofReply c.nesting c.reply) ∨
      (¬ Delivers c ∧ ∃ f, (send endpoint request limit w).1 = .error (.transport f)) := by
  unfold send
  dsimp only
  rw [given]
  rcases sendOn_cases h endpoint request (connect endpoint limit (w.tellLimit limit)).2 with
    ⟨w', sent, connected, written, drained, halfClosed⟩ | ⟨f, w', failed, lost⟩
  · rw [sent]
    dsimp only
    rw [finish_fst h]
    cases answered : c.readError with
    | none => exact .inl ⟨⟨connected, written, drained, halfClosed, answered⟩, rfl⟩
    | some e =>
      obtain ⟨f, fault⟩ := stepFault_of_system (h c.readError (by simp) e answered) endpoint
      exact .inr ⟨fun d => (nomatch answered.symm.trans d.answered), f, congrArg Except.error fault⟩
  · rw [failed]
    exact .inr ⟨lost, f, rfl⟩

end

end Exchange

end LintServer.Daemon
