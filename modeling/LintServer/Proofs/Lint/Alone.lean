import LintServer.Proofs.Lint.Desk

/-!
# A pass alone

A pass that nothing comes between goes from arrival to arrival until it has its
output (`await`), and then ends (`lint`). Its end shows what the output says
(`lint_ends`), for between start and end it leaves the desk as it is. A session
with nothing else to do runs its passes so (`Session.run_startTask`).
-/

namespace LintServer.Lint.Linter

/-- Goes on from an arrival until the output is there. -/
def await (a : Arrival) (l : Linter) : Except Fault String × Linter :=
  match h : l.proceed a with
  | (.operate o, l) =>
    have := rank_of_proceed h
    have := rank_of_operate o (l.handOver o)
    await ((l.handOver o).operate o).1 ((l.handOver o).operate o).2
  | (.pause b, l) =>
    have := rank_of_pause h
    await b l
  | (.output output, l) => (output, l)
termination_by a.rank

/-- From an arrival the pass comes to another one. -/
inductive Reaches : Arrival → Linter → Arrival → Linter → Prop
  | here {a : Arrival} {l : Linter} : Reaches a l a l
  | operate {a b : Arrival} {l m n : Linter} {o : Operation} (h : l.proceed a = (.operate o, m))
      (next : Reaches ((m.handOver o).operate o).1 ((m.handOver o).operate o).2 b n) : Reaches a l b n
  | pause {a b c : Arrival} {l m n : Linter} (h : l.proceed a = (.pause b, m)) (next : Reaches b m c n) :
      Reaches a l c n

/-- A whole pass. -/
def lint (s : Settings) (uri : LooseText) (file folder : Path) (l : Linter) : PassEnd × Linter :=
  match l.start s uri file folder with
  | (.ended e, l) => (e, l)
  | (.waiting sequence a, l) => (l.await a).2.conclude uri sequence (l.await a).1

section
variable {a : Arrival} {l m : Linter}

theorem await_of_operate {o : Operation} (h : l.proceed a = (.operate o, m)) :
    l.await a = ((m.handOver o).operate o).2.await ((m.handOver o).operate o).1 := by
  rw [await]
  split <;> rename_i e <;> cases h.symm.trans e
  rfl

theorem await_of_pause {b : Arrival} (h : l.proceed a = (.pause b, m)) : l.await a = m.await b := by
  rw [await]
  split <;> rename_i e <;> cases h.symm.trans e
  rfl

theorem await_of_output {output : Except Fault String} (h : l.proceed a = (.output output, m)) :
    l.await a = (output, m) := by
  rw [await]
  split <;> rename_i e <;> cases h.symm.trans e
  rfl

theorem await_of_reaches {b : Arrival} (h : Reaches a l b m) : l.await a = m.await b := by
  induction h with
  | here => rfl
  | operate h _ ih => exact (await_of_operate h).trans ih
  | pause h _ ih => exact (await_of_pause h).trans ih

end

@[simp] theorem desk_await (a : Arrival) (l : Linter) : (l.await a).2.desk = l.desk := by
  fun_induction await a l with
  | case1 a l o m h _ _ ih =>
    rw [ih, desk_operate, desk_handOver, ← l.desk_proceed a, h]
  | case2 a l b m h _ ih =>
    rw [ih, ← l.desk_proceed a, h]
  | case3 a l output m h =>
    rw [← l.desk_proceed a, h]

theorem start_of_waiting {s : Settings} {uri : LooseText} {file folder : Path} {l : Linter} {n : Nat} {a : Arrival}
    (h : (l.start s uri file folder).1 = .waiting n a) :
    n = l.ledger.counter + 1 ∧ (l.start s uri file folder).2.desk = l.desk.number uri s := by
  cases hs : s.lintEnabled with
  | false =>
    rw [(start_of_disabled hs uri file folder l).1] at h
    cases h
  | true =>
    rcases start_of_enabled hs uri file folder l with ⟨_, e, _, _, he, _⟩ | ⟨b, hb, hd⟩
    · rw [he] at h
      cases h
    · rw [hb] at h
      cases h
      exact ⟨rfl, hd⟩

/-- A pass alone is current when it ends. -/
theorem lint_ends {s : Settings} {uri : LooseText} {file folder : Path} {l : Linter} {n : Nat} {a : Arrival}
    (h : (l.start s uri file folder).1 = .waiting n a) :
    ∃ shown, EndsAs l.notifies uri true (((l.start s uri file folder).2.await a).1.bind diagnosticsOf)
        (l.lint s uri file folder).1 shown ∧
      (l.lint s uri file folder).2.world.shown = l.world.shown ++ shown := by
  obtain ⟨rfl, hd⟩ := start_of_waiting h
  rcases hw : l.start s uri file folder with ⟨started, m⟩
  rw [hw] at h hd
  obtain rfl : started = .waiting (l.ledger.counter + 1) a := h
  have ready : (m.await a).2.desk = l.desk.number uri s := (desk_await a m).trans hd
  have ledger : (m.await a).2.ledger = (l.ledger.next uri).2 := congrArg Desk.ledger ready
  have notifies : (m.await a).2.notifies = l.notifies := congrArg Desk.notifies ready
  obtain ⟨shown, ends, display⟩ := conclude_ends uri (l.ledger.counter + 1) (m.await a).1 (m.await a).2
  rw [ledger, notifies, l.ledger.isCurrent_next uri] at ends
  refine ⟨shown, ?_, ?_⟩
  · rw [lint, hw]
    exact ends
  · rw [lint, hw]
    exact (congrArg Desk.shown display).trans (congrArg (fun d : Desk => d.shown ++ shown) ready)

end LintServer.Lint.Linter
