import LintServer.Text.Loose

/-!
# Blanks and line ends

The blank characters are those that Unicode counts as white space, and the four
information separators. Trimming and cutting work on lists, of characters or of
the symbols of a loose text.
-/

namespace LintServer.Text

def isBlank (c : Char) : Bool :=
  let n := c.toNat
  (0x09 ≤ n && n ≤ 0x0D) || (0x1C ≤ n && n ≤ 0x20) || n == 0x85 || n == 0xA0 || n == 0x1680 ||
    (0x2000 ≤ n && n ≤ 0x200A) || n == 0x2028 || n == 0x2029 || n == 0x202F || n == 0x205F || n == 0x3000

def isLineEnd (c : Char) : Bool :=
  c == '\r' || c == '\n'

/-- Drops the longest end of the text whose characters all satisfy `p`. -/
def trimEndWhile {α : Type} (p : α → Bool) (cs : List α) : List α :=
  (cs.reverse.dropWhile p).reverse

def trim (us : List Symbol) : List Symbol :=
  trimEndWhile (Symbol.is isBlank) (us.dropWhile (Symbol.is isBlank))

def trimmed (t : LooseText) : LooseText := ⟨trim t.symbols⟩

/-- Cuts the text at every `sep`: one piece more than there are separators. -/
def cut {α : Type} [DecidableEq α] (sep : α) : List α → List (List α)
  | [] => [[]]
  | c :: cs =>
    if c = sep then [] :: cut sep cs
    else
      match cut sep cs with
      | [] => [[c]]
      | piece :: pieces => (c :: piece) :: pieces

theorem cut_ne_nil {α : Type} [DecidableEq α] (sep : α) (cs : List α) : cut sep cs ≠ [] := by
  cases cs with
  | nil => simp [cut]
  | cons c cs =>
    rw [cut]
    split
    · simp
    · split <;> simp

theorem cut_append {α : Type} [DecidableEq α] (sep : α) (a b : List α) :
    cut sep (a ++ sep :: b) = cut sep a ++ cut sep b := by
  induction a with
  | nil => simp [cut]
  | cons c a ih =>
    rw [List.cons_append, cut, ih, cut]
    by_cases h : c = sep
    · simp [h]
    · rw [if_neg h, if_neg h]
      cases hc : cut sep a with
      | nil => exact absurd hc (cut_ne_nil sep a)
      | cons piece pieces => rfl

section
variable {α : Type} {p : α → Bool}

theorem trimEndWhile_append_of_all {t : List α} (h : t.all p = true) (s : List α) :
    trimEndWhile p (s ++ t) = trimEndWhile p s := by
  unfold trimEndWhile
  rw [List.reverse_append, List.dropWhile_append_of_pos]
  simpa using h

theorem trimEndWhile_concat_of_neg {c : α} (h : p c = false) (s : List α) :
    trimEndWhile p (s ++ [c]) = s ++ [c] := by
  simp [trimEndWhile, h]

theorem trimEndWhile_of_none {cs : List α} (h : ∀ c ∈ cs, p c = false) :
    trimEndWhile p cs = cs := by
  rcases List.eq_nil_or_concat cs with rfl | ⟨front, last, rfl⟩
  · rfl
  · rw [List.concat_eq_append] at h ⊢
    exact trimEndWhile_concat_of_neg (h last (by simp)) front

end

end LintServer.Text
