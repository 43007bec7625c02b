import LintServer.Text.Loose

/-!
# The ledger of passes

Every pass over a document gets the next number. Only the pass with the number
that the document was given last is current; forgetting a document leaves none.
-/

namespace LintServer.Lint

structure Ledger where
  counter : Nat := 0
  latest : List (LooseText × Nat) := []
  deriving DecidableEq, Repr

namespace Ledger

def forget (l : Ledger) (uri : LooseText) : Ledger :=
  { l with latest := l.latest.filter fun entry => entry.1 != uri }

def next (l : Ledger) (uri : LooseText) : Nat × Ledger :=
  let n := l.counter + 1
  (n, { counter := n, latest := (uri, n) :: (l.forget uri).latest })

def isCurrent (l : Ledger) (uri : LooseText) (sequence : Int) : Bool :=
  (l.latest.lookup uri).any fun n => (n : Int) == sequence

theorem lookup_filter_ne {u uri : LooseText} (h : u ≠ uri) (entries : List (LooseText × Nat)) :
    (entries.filter fun entry => entry.1 != uri).lookup u = entries.lookup u := by
  induction entries with
  | nil => rfl
  | cons e entries ih =>
    obtain ⟨v, n⟩ := e
    by_cases hv : v = uri
    · subst hv
      simp [List.lookup_cons, ih, beq_eq_false_iff_ne.2 h]
    · simp [hv, List.lookup_cons, ih]

theorem lookup_filter_self (uri : LooseText) (entries : List (LooseText × Nat)) :
    (entries.filter fun entry => entry.1 != uri).lookup uri = none := by
  rw [List.lookup_eq_none_iff]
  intro e he
  have := (List.mem_filter.1 he).2
  simp only [bne_iff_ne, ne_eq] at this
  exact bne_iff_ne.2 fun h => this h.symm

@[simp] theorem isCurrent_forget_self (l : Ledger) (uri : LooseText) (n : Int) :
    (l.forget uri).isCurrent uri n = false := by
  simp [isCurrent, forget, lookup_filter_self]

theorem isCurrent_forget_of_ne {u uri : LooseText} (h : u ≠ uri) (l : Ledger) (n : Int) :
    (l.forget uri).isCurrent u n = l.isCurrent u n := by
  simp [isCurrent, forget, lookup_filter_ne h]

@[simp] theorem isCurrent_next_self (l : Ledger) (uri : LooseText) (n : Int) :
    (l.next uri).2.isCurrent uri n = (((l.next uri).1 : Int) == n) := by
  simp [isCurrent, next]

theorem isCurrent_next_of_ne {u uri : LooseText} (h : u ≠ uri) (l : Ledger) (n : Int) :
    (l.next uri).2.isCurrent u n = l.isCurrent u n := by
  simp [isCurrent, next, forget, List.lookup_cons, beq_eq_false_iff_ne.2 h, lookup_filter_ne h]

end Ledger

end LintServer.Lint
