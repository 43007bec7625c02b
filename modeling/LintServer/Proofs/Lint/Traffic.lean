import Mathlib.Data.List.Induction
import LintServer.Proofs.Lint.Desk

/-!
# Passes in traffic

Passes are asked for, documents are forgotten and passes in flight go on in any
order, and the world outside changes meanwhile in any way. `publication_rule`
says for every such history which pass is current and what the end of each
pass shows and returns.
-/

namespace LintServer.Lint

inductive Stage where
  | waiting (a : Arrival)
  | operating (o : Operation)
  deriving DecidableEq, Repr

structure Pass where
  uri : LooseText
  sequence : Nat
  stage : Stage
  deriving DecidableEq, Repr

structure Traffic where
  linter : Linter
  passes : List Pass := []

namespace Traffic

inductive Act where
  | lint (s : Settings) (uri : LooseText) (file folder : Path)
  | forget (uri : LooseText)
  | goOn (i : Nat)
  | outside (resolver : Resolver) (daemon : Daemon.Manager) (world : World)

/-- The pass at `i` goes on. It returns something only at its end. -/
def advance (t : Traffic) (i : Nat) (p : Pass) : Option PassEnd × Traffic :=
  match p.stage with
  | .operating o =>
    let (a, l) := t.linter.operate o
    (none, ⟨l, t.passes.set i { p with stage := .waiting a }⟩)
  | .waiting a =>
    match t.linter.proceed a with
    | (.operate o, l) => (none, ⟨l.handOver o, t.passes.set i { p with stage := .operating o }⟩)
    | (.pause b, l) => (none, ⟨l, t.passes.set i { p with stage := .waiting b }⟩)
    | (.output output, l) =>
      let (e, l) := l.conclude p.uri p.sequence output
      (some e, ⟨l, t.passes.eraseIdx i⟩)

/-- An act, and what the pass that it ends returns. -/
def act (t : Traffic) : Act → Option PassEnd × Traffic
  | .lint s uri file folder =>
    match t.linter.start s uri file folder with
    | (.ended e, l) => (some e, ⟨l, t.passes⟩)
    | (.waiting n a, l) => (none, ⟨l, t.passes ++ [⟨uri, n, .waiting a⟩]⟩)
  | .forget uri => (none, ⟨t.linter.forget uri, t.passes⟩)
  | .goOn i =>
    match t.passes[i]? with
    | some p => t.advance i p
    | none => (none, t)
  | .outside resolver daemon world =>
    (none, ⟨{ t.linter with resolver := resolver, daemon := daemon, world := world }, t.passes⟩)

def run (t : Traffic) (acts : List Act) : Traffic := acts.foldl (fun t a => (t.act a).2) t

def isCurrent (t : Traffic) (p : Pass) : Bool := t.linter.ledger.isCurrent p.uri p.sequence

def shown (t : Traffic) : List Event := t.linter.world.shown

/-- What a pass has come to, if it ends when it goes on now. -/
def outcome? (t : Traffic) (p : Pass) : Option (Except Fault (List Diagnostic)) :=
  match p.stage with
  | .operating _ => none
  | .waiting a =>
    match (t.linter.proceed a).1 with
    | .output output => some (output.bind Linter.diagnosticsOf)
    | _ => none

def Act.uri? : Act → Option LooseText
  | .lint _ uri _ _ | .forget uri => some uri
  | _ => none

/-- What an act of a pass that has come to `outcome` returns and shows: nothing before its end. -/
def Shows (t : Traffic) (uri : LooseText) (current : Bool) :
    Option (Except Fault (List Diagnostic)) → Option PassEnd × Traffic → Prop
  | none, r => r.1 = none ∧ r.2.shown = t.shown
  | some outcome, r => ∃ e shown, r.1 = some e ∧ EndsAs t.linter.notifies uri current outcome e shown ∧
      r.2.shown = t.shown ++ shown

/-! ## Marks -/

def Act.mark? : Act → Option Mark
  | .lint s uri _ _ => some (if s.lintEnabled then .next uri else .forget uri)
  | .forget uri => some (.forget uri)
  | _ => none

theorem Act.uri_of_mark (a : Act) : a.mark?.map Mark.uri = a.uri? := by
  cases a with
  | lint s uri file folder =>
    simp only [mark?, uri?, Option.map_some]
    split <;> rfl
  | forget uri => rfl
  | goOn i => rfl
  | outside r d w => rfl

theorem run_append (t : Traffic) (as bs : List Act) : t.run (as ++ bs) = (t.run as).run bs :=
  List.foldl_append

theorem run_concat (t : Traffic) (as : List Act) (a : Act) : t.run (as ++ [a]) = ((t.run as).act a).2 :=
  t.run_append as [a]

section
variable (t : Traffic) (i : Nat) (p : Pass)

theorem advance_shows : t.Shows p.uri (t.isCurrent p) (t.outcome? p) (t.advance i p) := by
  unfold outcome? advance
  split
  · exact ⟨rfl, congrArg Desk.shown (Linter.desk_operate _ t.linter)⟩
  · rename_i a _
    have hd := Linter.desk_proceed a t.linter
    rcases hp : t.linter.proceed a with ⟨progress, l⟩
    rw [hp] at hd
    cases progress with
    | operate o => exact ⟨rfl, congrArg Desk.shown hd⟩
    | pause b => exact ⟨rfl, congrArg Desk.shown hd⟩
    | output output =>
      obtain ⟨shown, he, hs⟩ := l.conclude_ends p.uri p.sequence output
      have hl : l.ledger = t.linter.ledger := congrArg Desk.ledger hd
      have hn : l.notifies = t.linter.notifies := congrArg Desk.notifies hd
      have hw : l.world.shown = t.shown := congrArg Desk.shown hd
      rw [hl, hn] at he
      exact ⟨_, shown, rfl, he, (congrArg Desk.shown hs).trans (congrArg (· ++ shown) hw)⟩

theorem ledger_advance : (t.advance i p).2.linter.ledger = t.linter.ledger := by
  unfold advance
  split
  · exact congrArg Desk.ledger (Linter.desk_operate _ t.linter)
  · rename_i a _
    have hd := Linter.desk_proceed a t.linter
    rcases hp : t.linter.proceed a with ⟨progress, l⟩
    rw [hp] at hd
    cases progress with
    | operate o => exact congrArg Desk.ledger hd
    | pause b => exact congrArg Desk.ledger hd
    | output output =>
      obtain ⟨shown, -, hs⟩ := l.conclude_ends p.uri p.sequence output
      exact (congrArg Desk.ledger hs).trans (congrArg Desk.ledger hd : l.ledger = t.linter.ledger)

theorem mem_passes_advance {q : Pass} (h : q ∈ (t.advance i p).2.passes) :
    q ∈ t.passes ∨ q.uri = p.uri ∧ q.sequence = p.sequence := by
  have set (stage : Stage) (h : q ∈ t.passes.set i { p with stage := stage }) :
      q ∈ t.passes ∨ q.uri = p.uri ∧ q.sequence = p.sequence := by
    rcases List.mem_or_eq_of_mem_set h with h | rfl
    · exact .inl h
    · exact .inr ⟨rfl, rfl⟩
  unfold advance at h
  split at h
  · exact set _ h
  · split at h
    · exact set _ h
    · exact set _ h
    · exact .inl (List.mem_of_mem_eraseIdx h)

end

theorem ledger_act (t : Traffic) (a : Act) :
    (t.act a).2.linter.ledger = t.linter.ledger.marks a.mark?.toList := by
  cases a with
  | lint s uri file folder =>
    have hl : (t.act (.lint s uri file folder)).2.linter = (t.linter.start s uri file folder).2 := by
      unfold act; dsimp only
      split <;> rename_i h <;> rw [h]
    rw [hl]
    cases hs : s.lintEnabled with
    | false =>
      have h := congrArg Desk.ledger (Linter.start_of_disabled hs uri file folder t.linter).2
      simp only [Act.mark?, hs, Bool.false_eq_true, if_false, Option.toList_some]
      exact h
    | true =>
      simp only [Act.mark?, hs, if_true, Option.toList_some]
      rcases Linter.start_of_enabled hs uri file folder t.linter with ⟨f, e, shown, -, -, h⟩ | ⟨a, -, h⟩
      · exact congrArg Desk.ledger h
      · exact congrArg Desk.ledger h
  | forget uri => rfl
  | goOn i =>
    unfold act; dsimp only
    split
    · exact ledger_advance t i _
    · rfl
  | outside r d w => rfl

theorem ledger_run (t : Traffic) (acts : List Act) :
    (t.run acts).linter.ledger = t.linter.ledger.marks (acts.filterMap Act.mark?) := by
  induction acts using List.reverseRecOn with
  | nil => rfl
  | append_singleton acts a ih =>
    rw [run_concat, ledger_act, ih, ← Ledger.marks_append, List.filterMap_append]
    cases h : a.mark? <;> simp [h]

/-! ## Where passes come from -/

/-- A pass was started by an enabled call. Its number tells which one: calls before it count up to it. -/
def Started (l : Linter) (before after acts : List Act) (p : Pass) : Prop :=
  ∃ s file folder, acts = before ++ .lint s p.uri file folder :: after ∧ s.lintEnabled = true ∧
    p.sequence = (run ⟨l, []⟩ before).linter.ledger.counter + 1

theorem Started.append {l : Linter} {before after acts : List Act} {p : Pass}
    (h : Started l before after acts p) (more : List Act) :
    Started l before (after ++ more) (acts ++ more) p := by
  obtain ⟨s, file, folder, rfl, hs, hp⟩ := h
  exact ⟨s, file, folder, by simp, hs, hp⟩

theorem Started.congr {l : Linter} {before after acts : List Act} {p q : Pass}
    (h : Started l before after acts p) (hu : q.uri = p.uri) (hn : q.sequence = p.sequence) :
    Started l before after acts q := by
  obtain ⟨s, file, folder, he, hs, hp⟩ := h
  exact ⟨s, file, folder, hu ▸ he, hs, hn.trans hp⟩

theorem mem_passes_act {t : Traffic} {a : Act} {q : Pass} (h : q ∈ (t.act a).2.passes) :
    (∃ p ∈ t.passes, q.uri = p.uri ∧ q.sequence = p.sequence) ∨
    ∃ s file folder, a = .lint s q.uri file folder ∧ s.lintEnabled = true ∧
      q.sequence = t.linter.ledger.counter + 1 := by
  cases a with
  | lint s uri file folder =>
    unfold act at h; dsimp only at h
    cases hs : s.lintEnabled with
    | false =>
      have hd := (Linter.start_of_disabled hs uri file folder t.linter).1
      split at h
      · exact .inl ⟨q, h, rfl, rfl⟩
      · rename_i e
        rw [e] at hd
        cases hd
    | true =>
      rcases Linter.start_of_enabled hs uri file folder t.linter with ⟨f, e, shown, -, hd, -⟩ | ⟨a, hd, -⟩
      · split at h
        · exact .inl ⟨q, h, rfl, rfl⟩
        · rename_i e
          rw [e] at hd
          cases hd
      · split at h
        · rename_i e
          rw [e] at hd
          cases hd
        · rename_i e
          rw [e] at hd
          cases hd
          rcases List.mem_append.mp h with h | h
          · exact .inl ⟨q, h, rfl, rfl⟩
          · cases List.mem_singleton.mp h
            exact .inr ⟨s, file, folder, rfl, hs, rfl⟩
  | forget uri => exact .inl ⟨q, h, rfl, rfl⟩
  | goOn i =>
    unfold act at h; dsimp only at h
    split at h
    · rename_i p hp
      rcases mem_passes_advance t i p h with h | h
      · exact .inl ⟨q, h, rfl, rfl⟩
      · exact .inl ⟨p, List.mem_of_getElem? hp, h⟩
    · exact .inl ⟨q, h, rfl, rfl⟩
  | outside r d w => exact .inl ⟨q, h, rfl, rfl⟩

theorem started (l : Linter) (acts : List Act) : ∀ p ∈ (run ⟨l, []⟩ acts).passes,
    ∃ before after, Started l before after acts p := by
  induction acts using List.reverseRecOn with
  | nil =>
    intro p hp
    exact absurd hp List.not_mem_nil
  | append_singleton acts a ih =>
    intro q hq
    rw [run_concat] at hq
    rcases mem_passes_act hq with ⟨p, hp, hu, hn⟩ | ⟨s, file, folder, rfl, hs, hn⟩
    · obtain ⟨before, after, h⟩ := ih p hp
      exact ⟨before, after ++ [a], (h.append [a]).congr hu hn⟩
    · exact ⟨acts, [], s, file, folder, rfl, hs, hn⟩

theorem Started.isCurrent_iff {l : Linter} {before after acts : List Act} {p : Pass}
    (h : Started l before after acts p) :
    (run ⟨l, []⟩ acts).isCurrent p = true ↔ ∀ a ∈ after, a.uri? ≠ some p.uri := by
  obtain ⟨s, file, folder, rfl, hs, hn⟩ := h
  have hm : Act.mark? (.lint s p.uri file folder) = some (.next p.uri) := by simp [Act.mark?, hs]
  unfold isCurrent
  rw [ledger_run, List.filterMap_append, List.filterMap_cons_some hm, Ledger.marks_append, hn, ledger_run]
  refine (Ledger.isCurrent_marks_iff _ p.uri _).trans ?_
  simp only [List.mem_filterMap, forall_exists_index, and_imp, ← Act.uri_of_mark]
  constructor
  · intro h a ha e
    obtain ⟨m, hm, hu⟩ := Option.map_eq_some_iff.1 e
    exact h m a ha hm hu
  · intro h m a ha hm hu
    exact h a ha (Option.map_eq_some_iff.2 ⟨m, hm, hu⟩)

theorem Started.past {l : Linter} {before after acts : List Act} {p : Pass}
    (h : Started l before after acts p) (hp : (run ⟨l, []⟩ acts).isCurrent p = false) (more : List Act) :
    ((run ⟨l, []⟩ acts).run more).isCurrent p = false := by
  rw [← run_append, Bool.eq_false_iff]
  rw [Bool.eq_false_iff] at hp
  intro hc
  rw [Ne, h.isCurrent_iff] at hp
  rw [(h.append more).isCurrent_iff] at hc
  exact hp fun a ha => hc a (List.mem_append_left more ha)

theorem act_goOn_shows {t : Traffic} {i : Nat} {p : Pass} (h : t.passes[i]? = some p) :
    t.Shows p.uri (t.isCurrent p) (t.outcome? p) (t.act (.goOn i)) := by
  unfold act; dsimp only
  rw [h]
  exact advance_shows t i p

theorem act_lint_shows (t : Traffic) {s : Settings} (hs : s.lintEnabled = true) (uri : LooseText)
    (file folder : Path) :
    (∃ f, t.Shows uri true (some (.error f)) (t.act (.lint s uri file folder))) ∨
    (∃ a, (t.act (.lint s uri file folder)).2.passes =
        t.passes ++ [⟨uri, t.linter.ledger.counter + 1, .waiting a⟩] ∧
      t.Shows uri true none (t.act (.lint s uri file folder))) := by
  unfold act; dsimp only
  rcases Linter.start_of_enabled hs uri file folder t.linter with ⟨f, e, shown, he, h, hd⟩ | ⟨a, h, hd⟩
  · rcases hst : t.linter.start s uri file folder with ⟨started, l⟩
    rw [hst] at h hd
    cases h
    exact .inl ⟨f, e, shown, rfl, he, congrArg Desk.shown hd⟩
  · rcases hst : t.linter.start s uri file folder with ⟨started, l⟩
    rw [hst] at h hd
    cases h
    exact .inr ⟨a, rfl, rfl, congrArg Desk.shown hd⟩

/-- **Publication.** An enabled pass ends at once, as the current one, or shows nothing and is in
flight. A pass in flight is current if and only if its document was not asked for or forgotten
since its call. It is never current again after that. It shows what `EndsAs` says at its end
and nothing before. -/
theorem publication_rule (l : Linter) (acts : List Act) :
    let t := run ⟨l, []⟩ acts
    (∀ s uri file folder, s.lintEnabled = true →
      (∃ f, t.Shows uri true (some (.error f)) (t.act (.lint s uri file folder))) ∨
      (∃ a, (t.act (.lint s uri file folder)).2.passes =
          t.passes ++ [⟨uri, t.linter.ledger.counter + 1, .waiting a⟩] ∧
        t.Shows uri true none (t.act (.lint s uri file folder)))) ∧
    ∀ i p, t.passes[i]? = some p →
      (∃ before after, Started l before after acts p ∧
        (t.isCurrent p = true ↔ ∀ a ∈ after, a.uri? ≠ some p.uri)) ∧
      (t.isCurrent p = false → ∀ more, (t.run more).isCurrent p = false) ∧
      t.Shows p.uri (t.isCurrent p) (t.outcome? p) (t.act (.goOn i)) := by
  refine ⟨fun s uri file folder hs => act_lint_shows _ hs uri file folder, fun i p hp => ?_⟩
  obtain ⟨before, after, h⟩ := started l acts p (List.mem_of_getElem? hp)
  exact ⟨⟨before, after, h, h.isCurrent_iff⟩, h.past, act_goOn_shows hp⟩

/-- A document is forgotten and asked for again while its first pass is in flight. -/
def reopening : List Act :=
  let file : Path := ⟨.slash, ["a.cfc"]⟩
  [.lint {} "a" file file, .forget "a", .lint {} "a" file file]

/-- The first pass stays stale; the second publishes the finding of its run, returns it and tells nothing. -/
theorem publication_rule_reopening :
    let found : ToolRun := { stdout := Text.Utf8.encode "a(1,0,1,1): error: [ x ] m".toList, code := 1 }
    let d : Diagnostic := ⟨⟨0, 0⟩, ⟨0, 1⟩, .error, some "x", "m"⟩
    let t := run ⟨{ world := { runs := [{}, found] } }, []⟩ reopening
    t.passes = [⟨"a", 1, .waiting (.tool {})⟩, ⟨"a", 2, .waiting (.tool found)⟩] ∧
    (∀ more, (t.run more).isCurrent ⟨"a", 1, .waiting (.tool {})⟩ = false) ∧
    t.isCurrent ⟨"a", 2, .waiting (.tool found)⟩ = true ∧
    (t.act (.goOn 1)).1 = some (.ok (some [d])) ∧ (t.act (.goOn 1)).2.shown = [.publish "a" [d]] := by
  intro found d t
  have rule := publication_rule { world := { runs := [{}, found] } } reopening
  have current : t.isCurrent ⟨"a", 2, .waiting (.tool found)⟩ = true := by decide
  have outcome : t.outcome? ⟨"a", 2, .waiting (.tool found)⟩ = some (.ok [d]) := by decide +kernel
  have shows : t.Shows "a" _ _ (t.act (.goOn 1)) := (rule.2 1 ⟨"a", 2, .waiting (.tool found)⟩ (by rfl)).2.2
  rw [current, outcome] at shows
  obtain ⟨e, shown, returned, ends, display⟩ := shows
  cases ends
  exact ⟨by rfl, (rule.2 0 ⟨"a", 1, .waiting (.tool {})⟩ (by rfl)).2.1 (by decide), current, returned, display⟩

end Traffic

end LintServer.Lint
