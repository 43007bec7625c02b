import LintServer.Path
import LintServer.Proofs.Text.Cut

/-!
# Normal paths

The parts of a path that was read are no dots, are not empty and hold no slash.
Such a path can be told from its text (`ofText_text`), so different paths have
different texts.
-/

namespace LintServer

def Root.slashes : Root → Nat
  | .relative => 0
  | .slash => 1
  | .doubleSlash => 2

theorem Root.symbols_text (root : Root) :
    (LooseText.ofString root.text).symbols = List.replicate root.slashes (.char '/') := by
  cases root <;> rfl

namespace Path

theorem rootOf_slashes (root : Root) : rootOf root.slashes = root := by
  cases root <;> rfl

/-- A part is not empty, no dot, and holds no slash. -/
def IsPart (part : LooseText) : Prop :=
  part.symbols ≠ [] ∧ part.symbols ≠ [.char '.'] ∧ .char '/' ∉ part.symbols

def Normal (p : Path) : Prop :=
  ∀ part ∈ p.parts, IsPart part

theorem normal_ofText (t : LooseText) : (ofText t).Normal := by
  intro part h
  obtain ⟨piece, kept, rfl⟩ := List.mem_map.1 h
  obtain ⟨inside, proper⟩ := List.mem_filter.1 kept
  have proper := of_decide_eq_true proper
  exact ⟨proper.1, proper.2, Text.notMem_of_mem_cut inside⟩

theorem Normal.child {p : Path} (h : p.Normal) {name : LooseText} (part : IsPart name) : (p.child name).Normal := by
  intro q hq
  rcases List.mem_append.1 hq with hq | hq
  · exact h q hq
  · rw [List.mem_singleton.1 hq]
    exact part

/-! ## Reading a text back -/

section
variable {parts : List LooseText} (proper : ∀ part ∈ parts, IsPart part)
include proper

theorem filter_cut_intercalate :
    ((Text.cut (.char '/') ([.char '/'].intercalate (parts.map LooseText.symbols))).filter fun part =>
      part ≠ [] ∧ part ≠ [.char '.']) = parts.map LooseText.symbols := by
  cases parts with
  | nil => rfl
  | cons part parts =>
    have clean : ∀ piece ∈ (part :: parts).map LooseText.symbols, .char '/' ∉ piece :=
      List.forall_mem_map.2 fun part h => (proper part h).2.2
    have kept : ∀ piece ∈ (part :: parts).map LooseText.symbols,
        decide (piece ≠ [] ∧ piece ≠ [.char '.']) = true :=
      List.forall_mem_map.2 fun part h => decide_eq_true ⟨(proper part h).1, (proper part h).2.1⟩
    have given : (part :: parts).map LooseText.symbols ≠ [] := List.cons_ne_nil _ _
    rw [Text.cut_intercalate given clean]
    exact List.filter_eq_self.2 kept

theorem takeWhile_intercalate :
    ([.char '/'].intercalate (parts.map LooseText.symbols)).takeWhile (· == .char '/') = [] := by
  cases parts with
  | nil => rfl
  | cons part parts =>
    obtain ⟨long, -, clean⟩ := proper part List.mem_cons_self
    obtain ⟨u, us, hu⟩ := List.exists_cons_of_ne_nil long
    have other : (u == .char '/') = false := beq_false_of_ne fun e => clean (hu ▸ e ▸ List.mem_cons_self)
    cases parts with
    | nil => rw [List.map_cons, List.map_nil, List.intercalate_singleton, hu, List.takeWhile_cons, other]; rfl
    | cons next parts =>
      rw [List.map_cons, List.map_cons, List.intercalate_cons_cons, hu, List.cons_append, List.cons_append,
        List.takeWhile_cons, other]
      rfl

/-- As many slashes as a root has stand before the parts. -/
theorem ofSymbols_slashes (k : Nat) :
    ofSymbols (List.replicate k (.char '/') ++ [.char '/'].intercalate (parts.map LooseText.symbols)) =
      ⟨rootOf k, parts⟩ := by
  have slashes : ∀ u ∈ List.replicate k (Symbol.char '/'), (u == .char '/') = true := fun u h => by
    rw [List.eq_of_mem_replicate h]
    rfl
  have pieces : ((Text.cut (.char '/')
      (List.replicate k (.char '/') ++ [.char '/'].intercalate (parts.map LooseText.symbols))).filter fun part =>
        part ≠ [] ∧ part ≠ [.char '.']) = parts.map LooseText.symbols := by
    induction k with
    | zero => exact filter_cut_intercalate proper
    | succ k ih =>
      rw [List.replicate_succ, List.cons_append, Text.cut, if_pos rfl, List.filter_cons_of_neg (by decide)]
      exact ih fun u h => slashes u (List.mem_cons_of_mem _ h)
  have same : (parts.map LooseText.symbols).map LooseText.mk = parts := by
    rw [List.map_map]
    exact List.map_id parts
  rw [ofSymbols, pieces, same, List.takeWhile_append_of_pos slashes, takeWhile_intercalate proper, List.append_nil,
    List.length_replicate]

end

theorem ofText_text {p : Path} (h : p.Normal) : ofText p.text = p := by
  obtain ⟨root, parts⟩ := p
  have read : ofText (root.text ++ LooseText.intercalate "/" parts) = ⟨root, parts⟩ := by
    rw [ofText, LooseText.symbols_append, Root.symbols_text]
    exact (ofSymbols_slashes h _).trans (by rw [rootOf_slashes])
  unfold text
  split
  · rename_i relative bare
    cases relative
    cases bare
    rfl
  · exact read

theorem text_inj {p q : Path} (hp : p.Normal) (hq : q.Normal) : p.text = q.text ↔ p = q :=
  ⟨fun h => by rw [← ofText_text hp, h, ofText_text hq], fun h => h ▸ rfl⟩

end Path

end LintServer
