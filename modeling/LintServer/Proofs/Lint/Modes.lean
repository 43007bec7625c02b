import LintServer.Proofs.Daemon.Framing
import LintServer.Proofs.Lint.Alone

/-!
# The two modes

A pass that runs the tool and a pass that asks the daemon end with the same
diagnostics or the same fault when both get the same text and exit code, unless
the text is empty and the exit code tells of a failure (`modes_agree`).
-/

namespace LintServer

open Daemon (Untroubled isSpent)

/-! ## Connections -/

theorem Daemon.connect_first {limit : Option Double} (h : isSpent limit = false) {w : World} {c : Connection}
    {rest : List Connection} (hc : w.connections = c :: rest) (endpoint : Endpoint) :
    (connect endpoint limit w).1 = c ∧ (connect endpoint limit w).2.connections = rest := by
  rw [connect, h]
  simp only [Bool.false_eq_true, if_false, World.connect, World.contact, World.emit, hc, and_self]

theorem Daemon.not_spent_probe : isSpent (some Probe.defaultLimit) = false := by decide +kernel

/-- A connection that shows a probe that its endpoint listens. -/
def Accepts (c : Connection) : Prop :=
  c.connectError = none ∧ ∀ e ∈ c.closeError, e.isSystem = true

theorem Daemon.Probe.ofConnection_of_accepts {c : Connection} (h : Accepts c) (w : World) :
    ofConnection c w = (.ok true, w.emit .close) := by
  rw [ofConnection, h.1]
  dsimp only [close]
  split
  · rfl
  · rename_i e he
    rw [if_pos (h.2 e he)]

namespace Lint.Linter

/-! ## The output of a pass -/

theorem await_tool {run : ToolRun} (waited : run.waitError = none) {o : String}
    (stdout : run.stdout = Text.Utf8.encode o.toList) (stderr : run.stderr = []) (l : Linter) :
    (l.await (.tool run)).1 = .ok o := by
  rw [await_of_output rfl, Tool.finish, waited, stdout, stderr]
  dsimp only
  rw [Text.Utf8.decode_encode, if_neg fun h => h.2.2 rfl]
  exact congrArg Except.ok ((congrArg String.ofList (List.append_nil _)).trans (String.ofList_toList))

section
variable {l : Linter} {a : Ask} {k : Connection} {rest : List Connection}

theorem operate_probe (hc : l.world.connections = k :: rest) (c : Daemon.Search) (a : Ask) :
    ∃ m, l.operate (.probe c a) = (.probed c a k, m) ∧ m.world.connections = rest := by
  obtain ⟨given, left⟩ := Daemon.connect_first Daemon.not_spent_probe hc c.endpoint
  rw [operate, Operation.limit]
  generalize Daemon.connect c.endpoint (some Daemon.Probe.defaultLimit) l.world = r at given left ⊢
  obtain ⟨j, w⟩ := r
  obtain rfl : j = k := given
  exact ⟨{ l with world := w }, rfl, left⟩

/-- The first probe of a search is the next connection. -/
theorem reaches_probed (hc : l.world.connections = k :: rest) (c : Daemon.Search) (a : Ask) :
    ∃ m, Reaches (.daemon c a) l (.probed c a k) m ∧ m.world.connections = rest := by
  obtain ⟨m, probed, left⟩ := operate_probe (l := (l.seek c a).2.handOver (.probe c a)) hc c a
  refine ⟨m, .operate (show l.proceed (.daemon c a) = (.operate (.probe c a), (l.seek c a).2) from rfl) ?_, left⟩
  rw [probed]
  exact .here

theorem operate_connect (hc : l.world.connections = k :: rest) (time : isSpent (some a.limit) = false) :
    ∃ m, l.operate (.connect a) = (.connected a k, m) :=
  ⟨{ l with world := (Daemon.connect a.endpoint (some a.limit) l.world).2 },
    by simp only [operate, Operation.limit, (Daemon.connect_first time hc a.endpoint).1]⟩

theorem proceed_probed (accepts : Accepts k) (c : Daemon.Search) (a : Ask) (l : Linter) :
    ∃ m, l.proceed (.probed c a k) = (.operate (.connect a), m) ∧
      m.world.connections = l.world.connections :=
  ⟨{ l with daemon := { l.daemon with state := .listening }, world := l.world.emit .close },
    by rw [proceed, judge, Daemon.Probe.ofConnection_of_accepts accepts]; rfl, rfl⟩

theorem proceed_connected (h : Untroubled k) (a : Ask) (l : Linter) :
    ∃ m, l.proceed (.connected a k) = (.operate (.read ⟨a.endpoint, k⟩ a.limit), m) := by
  obtain ⟨w, sent⟩ := Daemon.Exchange.sendOn_of_untroubled h a.endpoint a.request l.world
  exact ⟨{ l with world := w }, by rw [proceed, send, sent]⟩

/-- A pass whose probe is accepted asks the daemon, and has what it replies as its output. -/
theorem await_probed {probe : Connection} (accepts : Accepts probe) (hc : l.world.connections = k :: rest)
    (h : Untroubled k) (time : isSpent (some a.limit) = false) (c : Daemon.Search) :
    (l.await (.probed c a probe)).1 = (Daemon.Response.ofReply k.nesting k.reply).bind responseOutput := by
  obtain ⟨m, found, kept⟩ := proceed_probed accepts c a l
  obtain ⟨n, connected⟩ := operate_connect (l := m.handOver (.connect a)) (kept.trans hc) time
  obtain ⟨p, sent⟩ := proceed_connected h a n
  rw [await_of_operate found, connected, await_of_operate sent, await_of_output rfl]
  exact congrArg (Except.bind · responseOutput) (Daemon.Exchange.finish_of_untroubled h a.endpoint _)

end

theorem limit_of_startWork {s : Settings} (hs : s.daemonEnabled = true) {file folder : Path} {l m : Linter}
    {c : Daemon.Search} {a : Ask} (h : l.startWork s file folder = (.ok (.daemon c a), m)) :
    a.limit = s.socketTimeout := by
  unfold startWork startAsking at h
  rw [if_pos hs] at h
  split at h <;> cases h
  rfl

theorem limit_of_start {s : Settings} (hs : s.daemonEnabled = true) {uri : LooseText} {file folder : Path} {l : Linter}
    {n : Nat} {c : Daemon.Search} {a : Ask} (h : (l.start s uri file folder).1 = .waiting n (.daemon c a)) :
    a.limit = s.socketTimeout := by
  revert h
  unfold start
  dsimp only
  split
  · split <;> rename_i e <;> intro h <;> cases h
    exact limit_of_startWork hs e
  · intro h
    cases h

/-! ## Both modes -/

/-- How a pass alone ends, from what is found in its output: with that, which is published and nothing
else shown, or with the fault, and nothing is shown. -/
def Ends (uri : LooseText) (found : Except Fault (List Diagnostic)) (l : Linter) (r : PassEnd × Linter) : Prop :=
  match found with
  | .ok ds => r.1 = .ok (some ds) ∧ r.2.world.shown = l.world.shown ++ [.publish uri ds]
  | .error f => r.1 = .error f ∧ r.2.world.shown = l.world.shown

theorem not_expected_of_diagnosticsOf {o : String} {f : Fault} (h : diagnosticsOf o = .error f) :
    f.isExpected = false := by
  unfold diagnosticsOf at h
  split at h
  · cases h
    rfl
  · split at h <;> cases h
    rfl

theorem ends_of_output {s : Settings} {uri : LooseText} {file folder : Path} {l : Linter} {n : Nat} {a : Arrival}
    (h : (l.start s uri file folder).1 = .waiting n a) {o : String}
    (output : ((l.start s uri file folder).2.await a).1 = .ok o) :
    Ends uri (diagnosticsOf o) l (l.lint s uri file folder) := by
  obtain ⟨shown, ends, display⟩ := lint_ends h
  rw [output] at ends
  change EndsAs _ _ _ (diagnosticsOf o) _ _ at ends
  generalize l.lint s uri file folder = r at ends display ⊢
  obtain ⟨e, m⟩ := r
  unfold Ends
  cases found : diagnosticsOf o with
  | ok ds =>
    rw [found] at ends
    cases ends with
    | output => exact ⟨rfl, display⟩
  | error f =>
    rw [found] at ends
    cases ends with
    | failure _ expected =>
      rw [not_expected_of_diagnosticsOf found] at expected
      cases expected
    | defect => exact ⟨rfl, display.trans (List.append_nil _)⟩

/-- **The modes agree.** One pass has a run of the tool that writes a text and nothing to the other
stream; another comes to a probe that is accepted and has a reply with the same text and an exit
code. They end alike unless the text is empty and the exit code not zero: both publish what is
found in the text and tell the user nothing, or both end with the fault of reading it. -/
theorem modes_agree {l m p : Linter} {s : Settings} {uri : LooseText} {file folder : Path} {n k : Nat} {run : ToolRun}
    {c d : Daemon.Search} {a : Ask} {probe reply : Connection} {rest : List Connection} {code : Int} {o : String}
    (started : (l.start { s with daemonEnabled := false } uri file folder).1 = .waiting n (.tool run))
    (waited : run.waitError = none) (stdout : run.stdout = Text.Utf8.encode o.toList) (stderr : run.stderr = [])
    (asked : (m.start { s with daemonEnabled := true } uri file folder).1 = .waiting k (.daemon c a))
    (probed : Reaches (.daemon c a) (m.start { s with daemonEnabled := true } uri file folder).2
      (.probed d a probe) p)
    (accepts : Accepts probe) (hc : p.world.connections = reply :: rest) (untroubled : Untroubled reply)
    (time : isSpent (some s.socketTimeout) = false) (carries : Daemon.Carries reply.nesting code o reply.reply)
    (audible : o ≠ "" ∨ code = 0) :
    Ends uri (diagnosticsOf o) l (l.lint { s with daemonEnabled := false } uri file folder) ∧
      Ends uri (diagnosticsOf o) m (m.lint { s with daemonEnabled := true } uri file folder) := by
  refine ⟨ends_of_output started (await_tool waited stdout stderr _), ends_of_output asked ?_⟩
  have limit := limit_of_start rfl asked
  obtain ⟨id, read⟩ := Daemon.ofReply_of_carries carries
  rw [await_of_reaches probed, await_probed accepts hc untroubled (limit ▸ time), read]
  have loud : ¬ (code ≠ 0 ∧ LooseText.ofString o = "") := by
    rintro ⟨failed, empty⟩
    rcases audible with audible | audible
    · exact audible (LooseText.ofString_inj.1 empty)
    · exact failed audible
  exact (if_neg loud).trans (congrArg Except.ok (LooseText.text_ofString o))

/-- Both passes publish the finding in the text. -/
theorem modes_agree_on_finding :
    let o := "a(1,0,1,1): error: [ x ] é"
    let d : Diagnostic := ⟨⟨0, 0⟩, ⟨0, 1⟩, .error, some "x", "é"⟩
    let reply := Text.Utf8.encode ((Json.obj [("exitCode", .int 1), ("output", .str o)]).write .ascii) ++ [10]
    let l : Linter := { world := { runs := [{ stdout := Text.Utf8.encode o.toList, code := 1 }] } }
    let m : Linter := { world := { connections := [{}, { reply := reply }] } }
    diagnosticsOf o = .ok [d] ∧ Ends "u" (.ok [d]) l (lint {} "u" ⟨.slash, ["a"]⟩ ⟨.slash, []⟩ l) ∧
      Ends "u" (.ok [d]) m (lint { daemonEnabled := true } "u" ⟨.slash, ["a"]⟩ ⟨.slash, []⟩ m) := by
  intro o d reply l m
  have short : (Nat.toDigits 10 (1 : Int).natAbs).length ≤ Text.NumeralTooLong.limit := by decide
  have found : diagnosticsOf o = .ok [d] := by decide +kernel
  have connections : (m.start { daemonEnabled := true } "u" ⟨.slash, ["a"]⟩ ⟨.slash, []⟩).2.world.connections =
      [{}, { reply := reply }] := rfl
  obtain ⟨p, probed, left⟩ := reaches_probed connections _ _
  have both := modes_agree (s := {}) (l := l) (m := m) (o := o) rfl rfl rfl rfl rfl probed ⟨rfl, by simp⟩ left
    ⟨rfl, rfl, rfl, rfl, rfl, rfl⟩ Daemon.not_spent_default
    (Daemon.carries_plain short _ .ascii (.inr ⟨[], .inl rfl⟩)) (.inl (by decide))
  rw [found] at both
  exact ⟨found, both⟩

end Lint.Linter

end LintServer
