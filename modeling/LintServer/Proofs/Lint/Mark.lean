import LintServer.Lint.Ledger

/-!
# Which pass is current

A document gets a new number with every pass over it and loses its number when
it is forgotten. Either is a mark on the document. The pass that was numbered
last is current up to the next mark on its document (`isCurrent_marks_iff`) and
never again after it (`IsPast.marks`), whatever becomes of other documents.
-/

namespace LintServer.Lint

inductive Mark where
  | next (uri : LooseText)
  | forget (uri : LooseText)
  deriving DecidableEq, Repr

def Mark.uri : Mark → LooseText
  | .next uri | .forget uri => uri

namespace Ledger

def mark (l : Ledger) : Mark → Ledger
  | .next uri => (l.next uri).2
  | .forget uri => l.forget uri

def marks (l : Ledger) (ms : List Mark) : Ledger := ms.foldl mark l

theorem marks_append (l : Ledger) (ms ns : List Mark) : l.marks (ms ++ ns) = (l.marks ms).marks ns :=
  List.foldl_append

@[simp] theorem counter_next (l : Ledger) (uri : LooseText) : (l.next uri).2.counter = l.counter + 1 := rfl

theorem counter_le_mark (l : Ledger) (m : Mark) : l.counter ≤ (l.mark m).counter := by
  cases m with
  | next uri => exact Nat.le_succ _
  | forget uri => exact Nat.le_refl _

theorem counter_le_marks (ms : List Mark) : ∀ l : Ledger, l.counter ≤ (l.marks ms).counter := by
  induction ms with
  | nil =>
    intro l
    exact Nat.le_refl _
  | cons m ms ih =>
    intro l
    exact Nat.le_trans (l.counter_le_mark m) (ih (l.mark m))

theorem isCurrent_mark_of_ne {m : Mark} {uri : LooseText} (h : m.uri ≠ uri) (l : Ledger) (n : Int) :
    (l.mark m).isCurrent uri n = l.isCurrent uri n := by
  cases m with
  | next v => exact isCurrent_next_of_ne (Ne.symm h) l n
  | forget v => exact isCurrent_forget_of_ne (Ne.symm h) l n

theorem isCurrent_next (l : Ledger) (uri : LooseText) :
    (l.next uri).2.isCurrent uri (l.counter + 1 : Nat) = true := by
  rw [isCurrent_next_self]
  exact beq_self_eq_true _

/-- A number that was given out and that its document has no more. -/
def IsPast (l : Ledger) (uri : LooseText) (n : Nat) : Prop :=
  n ≤ l.counter ∧ l.isCurrent uri n = false

theorem isPast_mark_of_le {l : Ledger} {n : Nat} (h : n ≤ l.counter) (m : Mark) : (l.mark m).IsPast m.uri n := by
  refine ⟨Nat.le_trans h (l.counter_le_mark m), ?_⟩
  cases m with
  | next uri =>
    have : l.counter + 1 ≠ n := by omega
    simp only [mark, Mark.uri, isCurrent_next_self, beq_eq_false_iff_ne]
    intro e
    exact this (Int.ofNat.inj e)
  | forget uri => exact isCurrent_forget_self l uri n

theorem IsPast.mark {l : Ledger} {uri : LooseText} {n : Nat} (h : l.IsPast uri n) (m : Mark) :
    (l.mark m).IsPast uri n := by
  by_cases hm : m.uri = uri
  · exact hm ▸ isPast_mark_of_le h.1 m
  · exact ⟨Nat.le_trans h.1 (l.counter_le_mark m), (isCurrent_mark_of_ne hm l n).trans h.2⟩

theorem IsPast.marks {uri : LooseText} {n : Nat} (ms : List Mark) : ∀ {l : Ledger}, l.IsPast uri n →
    (l.marks ms).IsPast uri n := by
  induction ms with
  | nil =>
    intro l h
    exact h
  | cons m ms ih =>
    intro l h
    exact ih (h.mark m)

theorem isCurrent_marks_of_ne {uri : LooseText} {ms : List Mark} (h : ∀ m ∈ ms, m.uri ≠ uri) (n : Int) :
    ∀ l : Ledger, (l.marks ms).isCurrent uri n = l.isCurrent uri n := by
  induction ms with
  | nil =>
    intro l
    rfl
  | cons m ms ih =>
    intro l
    have hm : m.uri ≠ uri := h m (by simp)
    exact (ih (fun k hk => h k (by simp [hk])) (l.mark m)).trans (isCurrent_mark_of_ne hm l n)

theorem isPast_marks_of_mem {uri : LooseText} {ms : List Mark} (h : ∃ m ∈ ms, m.uri = uri) {n : Nat} :
    ∀ {l : Ledger}, n ≤ l.counter → (l.marks ms).IsPast uri n := by
  obtain ⟨m, hm, rfl⟩ := h
  induction ms with
  | nil => cases hm
  | cons k ms ih =>
    intro l hn
    rcases List.mem_cons.mp hm with rfl | hm
    · exact (isPast_mark_of_le hn m).marks ms
    · exact ih hm (Nat.le_trans hn (l.counter_le_mark k))

theorem isCurrent_marks_iff (l : Ledger) (uri : LooseText) (ms : List Mark) :
    ((l.next uri).2.marks ms).isCurrent uri (l.counter + 1 : Nat) = true ↔ ∀ m ∈ ms, m.uri ≠ uri := by
  constructor
  · intro h m hm he
    have := (isPast_marks_of_mem ⟨m, hm, he⟩ (Nat.le_refl _) : ((l.next uri).2.marks ms).IsPast uri _).2
    rw [counter_next, h] at this
    cases this
  · intro h
    rw [isCurrent_marks_of_ne h]
    exact l.isCurrent_next uri

end Ledger

end LintServer.Lint
