import LintServer.Text.Blank

/-!
# Cutting and trimming

The pieces of a text are free of the separator, and pieces that are so can be
joined and cut again.
-/

namespace LintServer.Text

section
variable {α : Type}

theorem exists_trimEndWhile (p : α → Bool) (cs : List α) :
    ∃ tail : List α, tail.all p = true ∧ cs = trimEndWhile p cs ++ tail := by
  refine ⟨(cs.reverse.takeWhile p).reverse, ?_, ?_⟩
  · rw [List.all_reverse]
    exact List.all_takeWhile
  · rw [trimEndWhile, ← List.reverse_append, List.takeWhile_append_dropWhile, List.reverse_reverse]

/-- Trimming less first changes nothing. -/
theorem trimEndWhile_trimEndWhile {p q : α → Bool} (h : ∀ c, p c = true → q c = true) (cs : List α) :
    trimEndWhile q (trimEndWhile p cs) = trimEndWhile q cs := by
  obtain ⟨tail, all, parts⟩ := exists_trimEndWhile p cs
  have all' : tail.all q = true := List.all_eq_true.2 fun c hc => h c (List.all_eq_true.1 all c hc)
  rw [← trimEndWhile_append_of_all all' (trimEndWhile p cs), ← parts]

/-- The end of two texts put together is that of the second, if anything is left of that. -/
theorem trimEndWhile_append (p : α → Bool) (a b : List α) :
    trimEndWhile p (a ++ b) = if trimEndWhile p b = [] then trimEndWhile p a else a ++ trimEndWhile p b := by
  unfold trimEndWhile
  rw [List.reverse_append, List.dropWhile_append]
  cases b.reverse.dropWhile p with
  | nil => simp
  | cons c cs => simp

theorem trimEndWhile_cons_of_neg {p : α → Bool} {c : α} (h : p c = false) (cs : List α) :
    trimEndWhile p (c :: cs) = c :: trimEndWhile p cs := by
  unfold trimEndWhile
  rw [List.reverse_cons, List.dropWhile_append]
  cases cs.reverse.dropWhile p with
  | nil => simp [h]
  | cons d ds => simp

end

theorem trim_trim (us : List Symbol) : trim (trim us) = trim us := by
  have start : (trim us).dropWhile (Symbol.is isBlank) = trim us := by
    unfold trim
    cases kept : us.dropWhile (Symbol.is isBlank) with
    | nil => rfl
    | cons u rest =>
      have first : Symbol.is isBlank u = false := by
        have head := List.head?_dropWhile_not (Symbol.is isBlank) us
        rwa [kept] at head
      rw [trimEndWhile_cons_of_neg first, List.dropWhile_cons, first]
      rfl
  rw [trim, start]
  exact trimEndWhile_trimEndWhile (fun _ blank => blank) _

theorem trimmed_trimmed (t : LooseText) : trimmed (trimmed t) = trimmed t :=
  congrArg LooseText.mk (trim_trim t.symbols)

section
variable {α : Type} [DecidableEq α] {sep : α}

theorem cut_eq_splitOn (sep : α) (cs : List α) : cut sep cs = cs.splitOn sep := by
  induction cs with
  | nil => simp [cut]
  | cons c cs ih =>
    rw [cut, ih, List.splitOn_cons_eq_if_modifyHead]
    by_cases h : c = sep
    · simp [h]
    · cases parts : cs.splitOn sep with
      | nil => exact absurd parts (List.splitOn_ne_nil sep cs)
      | cons piece pieces => simp [h]

theorem cut_of_notMem {cs : List α} (h : sep ∉ cs) : cut sep cs = [cs] := by
  rw [cut_eq_splitOn, List.splitOn_eq_singleton h]

theorem notMem_of_mem_cut {piece cs : List α} (h : piece ∈ cut sep cs) : sep ∉ piece := by
  induction cs generalizing piece with
  | nil =>
    rw [cut, List.mem_singleton] at h
    subst h
    exact List.not_mem_nil
  | cons c cs ih =>
    rw [cut] at h
    split at h
    · rcases List.mem_cons.1 h with rfl | later
      · exact List.not_mem_nil
      · exact ih later
    · rename_i differs
      split at h
      · rename_i no
        exact absurd no (cut_ne_nil sep cs)
      · rename_i first rest parts
        rcases List.mem_cons.1 h with rfl | later
        · intro inside
          rcases List.mem_cons.1 inside with rfl | inside
          · exact differs rfl
          · exact ih (parts ▸ List.mem_cons_self) inside
        · exact ih (parts ▸ List.mem_cons_of_mem first later)

theorem cut_intercalate {pieces : List (List α)} (given : pieces ≠ [])
    (clean : ∀ piece ∈ pieces, sep ∉ piece) : cut sep ([sep].intercalate pieces) = pieces := by
  rw [cut_eq_splitOn, List.splitOn_intercalate sep clean given]

/-- Where two texts meet, the last piece of one and the first of the other become one. -/
theorem splitOn_append {a b last first : List α} {before after : List (List α)}
    (ha : a.splitOn sep = before ++ [last]) (hb : b.splitOn sep = first :: after) :
    (a ++ b).splitOn sep = before ++ (last ++ first) :: after := by
  induction a generalizing before last with
  | nil =>
    rw [List.splitOn_nil] at ha
    cases before with
    | nil => simp_all
    | cons piece before => simp at ha
  | cons c a ih =>
    rw [List.splitOn_cons_eq_if_modifyHead] at ha
    rw [List.cons_append, List.splitOn_cons_eq_if_modifyHead]
    by_cases h : c = sep
    · cases before with
      | nil => simp [h] at ha
      | cons piece before =>
        simp only [h, beq_self_eq_true, if_true, List.cons_append, List.cons.injEq] at ha
        simp [h, ih ha.2, ← ha.1]
    · simp only [beq_eq_false_iff_ne.2 h, Bool.false_eq_true, if_false] at ha ⊢
      cases parts : a.splitOn sep with
      | nil => exact absurd parts (List.splitOn_ne_nil sep a)
      | cons piece pieces =>
        rw [parts] at ha
        cases before with
        | nil =>
          simp only [List.modifyHead_cons, List.nil_append, List.cons.injEq] at ha
          obtain ⟨rfl, rfl⟩ := ha
          have joined : (a ++ b).splitOn sep = [] ++ (piece ++ first) :: after := ih parts
          rw [joined]
          rfl
        | cons head before =>
          simp only [List.modifyHead_cons, List.cons_append, List.cons.injEq] at ha
          obtain ⟨rfl, rfl⟩ := ha
          have joined : (a ++ b).splitOn sep = (piece :: before) ++ (last ++ first) :: after := ih parts
          rw [joined]
          rfl

end

end LintServer.Text
