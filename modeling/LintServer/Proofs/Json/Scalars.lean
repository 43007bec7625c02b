import LintServer.Json.Reader
import LintServer.Json.Writer
import LintServer.Proofs.Text.Numerals

/-!
# Written texts and numbers

A text is read back from either way of writing it, for every escape names one
character and every character beyond the basic plane is written as a pair
(`readString_writeText`). A whole number is read back if nothing that follows it
goes on with it (`readNumber_writeInt`).
-/

namespace LintServer.Json

open Text (hexDigit hexPadded hexValue? isDigit_toDigits)

/-! ## Steps of the string reader -/

theorem readString_quote (cs : List Char) : readString ('"' :: cs) = .ok ([], cs) := by
  rw [readString.eq_def]
  exact if_pos rfl

theorem readString_plain {c : Char} (hq : c ≠ '"') (hb : c ≠ '\\') (hc : 0x20 ≤ c.toNat) (cs : List Char) :
    readString (c :: cs) = consSymbol (.char c) (readString cs) := by
  rw [readString.eq_def]; dsimp only
  rw [if_neg hq, if_neg hb, if_neg (Nat.not_lt.2 hc)]

theorem readString_escape {e c : Char} (he : escaped? e = some c) (hu : e ≠ 'u') (cs : List Char) :
    readString ('\\' :: e :: cs) = consSymbol (.char c) (readString cs) := by
  rw [readString.eq_def]; dsimp only
  rw [if_neg (by decide), if_pos rfl]
  split
  · cases ‹_›
  · cases ‹_›
    exact absurd rfl hu
  · cases ‹_›
    exact absurd rfl hu
  · cases ‹_›
    simp only [he]

section
variable {a b c d : Char} {u : Nat} (h : unit? a b c d = some u)
include h

theorem readString_unit (hu : isHighSurrogate u = false) (next : Char) (cs : List Char) :
    readString ('\\' :: 'u' :: a :: b :: c :: d :: next :: cs) =
      consSymbol (unitSymbol u) (readString (next :: cs)) := by
  rw [readString.eq_def]; dsimp only
  rw [if_neg (by decide), if_pos rfl]
  simp only [h]
  split <;> rename_i e
  · simp [hu] at e
  · rfl

theorem readString_pair (hu : isHighSurrogate u = true) {next : Char} {cs rest : List Char} {l : Nat}
    (hl : pairedLow? (next :: cs) = some (l, rest)) :
    readString ('\\' :: 'u' :: a :: b :: c :: d :: next :: cs) =
      consSymbol (.char (joinSurrogates u l)) (readString rest) := by
  rw [readString.eq_def]; dsimp only
  rw [if_neg (by decide), if_pos rfl]
  simp only [h]
  split <;> rename_i e <;> rw [if_pos hu, hl] at e <;> cases e
  rfl

end

/-! ## Escapes -/

theorem unit?_hexPadded {u : Nat} (h : u < 0x10000) : ∃ a b c d, hexPadded 4 u = [a, b, c, d] ∧
    unit? a b c d = some u := by
  refine ⟨_, _, _, _, rfl, ?_⟩
  have value (n : Nat) : hexValue? (hexDigit (n % 16)) = some (n % 16) :=
    Text.hexValue?_hexDigit _ (Nat.mod_lt n (by decide))
  simp only [unit?, value, Option.bind_eq_bind, Option.bind_some, Option.pure_def, Option.some.injEq]
  omega

theorem escaped?_of_shortEscape? {c letter : Char} (h : shortEscape? c = some letter) :
    escaped? letter = some c ∧ letter ≠ 'u' ∧ Escaping.ascii.keeps letter = true := by
  unfold shortEscape? at h
  split at h
  · rename_i hc
    cases h
    rcases hc with rfl | rfl <;> decide
  · repeat' split at h
    all_goals first | (cases h; subst_vars; decide) | cases h

theorem exists_unitEscape (u : Nat) (h : u < 0x10000) (cs : List Char) :
    ∃ a b c d, unitEscape u ++ cs = '\\' :: 'u' :: a :: b :: c :: d :: cs ∧ unit? a b c d = some u := by
  obtain ⟨a, b, c, d, he, hu⟩ := unit?_hexPadded h
  exact ⟨a, b, c, d, by rw [unitEscape, he]; rfl, hu⟩

/-! ## Written texts -/

theorem ge_of_keeps {e : Escaping} {c : Char} (h : e.keeps c = true) : 0x20 ≤ c.toNat := by
  have : ' ' ≤ c := by
    cases e with
    | ascii => exact of_decide_eq_true (Bool.and_eq_true_iff.1 h).1
    | raw => exact of_decide_eq_true h
  exact UInt32.le_iff_toNat_le.1 (Char.le_def.1 this)

theorem not_surrogate (c : Char) : isHighSurrogate c.toNat = false ∧ isLowSurrogate c.toNat = false := by
  have valid : c.toNat < 0xD800 ∨ 0xDFFF < c.toNat ∧ c.toNat < 0x110000 := c.valid
  simp only [isHighSurrogate, isLowSurrogate, Bool.and_eq_false_iff, decide_eq_false_iff_not]
  omega

/-- Two units name the character beyond the basic plane whose number is `n + 0x10000`. -/
theorem readString_pairEscape {n : Nat} (h : n < 0x100000) (next : Char) (cs : List Char) :
    readString (unitEscape (0xD800 + n / 0x400) ++ unitEscape (0xDC00 + n % 0x400) ++ next :: cs) =
      consSymbol (.char (Char.ofNat (n + 0x10000))) (readString (next :: cs)) := by
  obtain ⟨x, y, z, w, hl, hu⟩ := exists_unitEscape (0xDC00 + n % 0x400) (by omega) (next :: cs)
  have low : isLowSurrogate (0xDC00 + n % 0x400) = true := by
    simp only [isLowSurrogate, Bool.and_eq_true, decide_eq_true_eq]
    omega
  have paired : pairedLow? ('\\' :: 'u' :: x :: y :: z :: w :: next :: cs) =
      some (0xDC00 + n % 0x400, next :: cs) := by
    simp only [pairedLow?, hu, Option.filter_some, low, if_true, Option.map_some]
  obtain ⟨a, b, c, d, he, hv⟩ := exists_unitEscape (0xD800 + n / 0x400) (by omega)
    ('\\' :: 'u' :: x :: y :: z :: w :: next :: cs)
  have high : isHighSurrogate (0xD800 + n / 0x400) = true := by
    simp only [isHighSurrogate, Bool.and_eq_true, decide_eq_true_eq]
    omega
  have joined : joinSurrogates (0xD800 + n / 0x400) (0xDC00 + n % 0x400) = Char.ofNat (n + 0x10000) :=
    congrArg Char.ofNat (by omega)
  rw [List.append_assoc, hl, he, readString_pair hv high paired, joined]

theorem readString_writeChar (e : Escaping) (c next : Char) (cs : List Char) :
    readString (writeChar e c ++ next :: cs) = consSymbol (.char c) (readString (next :: cs)) := by
  unfold writeChar
  split
  · rename_i letter h
    obtain ⟨he, hu, -⟩ := escaped?_of_shortEscape? h
    exact readString_escape he hu (next :: cs)
  · rename_i h
    split
    · rename_i hk
      have hn : ¬ (c = '"' ∨ c = '\\') := by
        intro hc
        rw [shortEscape?, if_pos hc] at h
        cases h
      exact readString_plain (fun hc => hn (.inl hc)) (fun hc => hn (.inr hc)) (ge_of_keeps hk) (next :: cs)
    · split
      · rename_i hc
        obtain ⟨x, y, z, w, he, hu⟩ := exists_unitEscape c.toNat hc (next :: cs)
        obtain ⟨high, low⟩ := not_surrogate c
        rw [he, readString_unit hu high, unitSymbol, high, low, Char.ofNat_toNat]
        rfl
      · rename_i hc
        have valid : c.toNat < 0xD800 ∨ 0xDFFF < c.toNat ∧ c.toNat < 0x110000 := c.valid
        dsimp only
        rw [readString_pairEscape (by omega), Nat.sub_add_cancel (by omega), Char.ofNat_toNat]

/-- A written text is read back up to its last quote. -/
theorem readString_writeText (e : Escaping) (s : String) (rest : List Char) :
    readString ((LooseText.ofString s).symbols.flatMap (writeSymbol e) ++ '"' :: rest) =
      .ok ((LooseText.ofString s).symbols, rest) := by
  rw [LooseText.symbols_ofString]
  induction s.toList with
  | nil => exact readString_quote rest
  | cons c cs ih =>
    obtain ⟨next, more, hn⟩ : ∃ next more, (cs.map Symbol.char).flatMap (writeSymbol e) ++ '"' :: rest =
        next :: more := by
      cases h : (cs.map Symbol.char).flatMap (writeSymbol e) with
      | nil => exact ⟨'"', rest, rfl⟩
      | cons x xs => exact ⟨x, xs ++ '"' :: rest, rfl⟩
    rw [List.map_cons, List.flatMap_cons, List.append_assoc, hn, writeSymbol, readString_writeChar, ← hn, ih]
    rfl

/-! ## Whole numbers -/

/-- What may follow a whole number without being read as part of it. -/
def Stops (cs : List Char) : Prop :=
  ∀ c ∈ cs.head?, c.isDigit = false ∧ c ≠ '.' ∧ c ≠ 'e' ∧ c ≠ 'E'

theorem stops_cons {c : Char} (h : c.isDigit = false ∧ c ≠ '.' ∧ c ≠ 'e' ∧ c ≠ 'E') (cs : List Char) :
    Stops (c :: cs) := by
  intro d hd
  cases hd
  exact h

section
variable {rest : List Char} (h : Stops rest)
include h

theorem spanDigits_append {ds : List Char} (hd : ∀ c ∈ ds, c.isDigit = true) :
    spanDigits (ds ++ rest) = (ds, rest) := by
  have none : rest.takeWhile Char.isDigit = [] ∧ rest.dropWhile Char.isDigit = rest := by
    cases rest with
    | nil => exact ⟨rfl, rfl⟩
    | cons c cs =>
      have : ¬ c.isDigit = true := by simp [(h c rfl).1]
      exact ⟨List.takeWhile_cons_of_neg this, List.dropWhile_cons_of_neg this⟩
  rw [spanDigits, List.takeWhile_append_of_pos hd, List.dropWhile_append_of_pos hd, none.1, none.2,
    List.append_nil]

theorem fraction_of_stops : fraction rest = ([], rest) := by
  unfold fraction
  split
  · exact absurd rfl (h '.' rfl).2.1
  · rfl

theorem exponent?_of_stops : exponent? rest = none := by
  cases rest with
  | nil => rfl
  | cons c cs =>
    obtain ⟨-, -, he, hE⟩ := h c rfl
    rw [exponent?, if_neg (by simp [he, hE])]

theorem whole?_toDigits (n : Nat) : whole? (Nat.toDigits 10 n ++ rest) = some (Nat.toDigits 10 n, rest) := by
  rcases Nat.eq_zero_or_pos n with rfl | hn
  · rfl
  · have hd := isDigit_toDigits n
    have hz := Text.head?_toDigits hn
    cases hs : Nat.toDigits 10 n with
    | nil => exact absurd hs Nat.toDigits_ne_nil
    | cons c cs =>
      rw [hs] at hd hz
      have span := spanDigits_append h hd
      rw [List.cons_append] at span ⊢
      unfold whole?
      split
      · rename_i e
        cases e
        exact absurd rfl hz
      · rename_i e
        cases e
        rw [if_pos (hd c List.mem_cons_self), span]
      · rename_i e
        cases e

theorem readNumber_writeInt {n : Int} (hn : (Nat.toDigits 10 n.natAbs).length ≤ Text.NumeralTooLong.limit) :
    readNumber (writeInt n ++ rest) = .ok (.int n, rest) := by
  have whole := whole?_toDigits h n.natAbs
  have numeral := Text.readNumeral_toDigits hn
  unfold writeInt
  split
  · rename_i neg
    unfold readNumber
    simp only [List.cons_append, List.head?_cons, if_true, List.tail_cons, whole, fraction_of_stops h,
      exponent?_of_stops h, List.isEmpty_nil, numeral]
    congr 3
    omega
  · rename_i neg
    have head : (Nat.toDigits 10 n.natAbs ++ rest).head? ≠ some '-' := by
      rw [List.head?_append_of_ne_nil _ Nat.toDigits_ne_nil]
      intro e
      have := isDigit_toDigits n.natAbs '-' (List.mem_of_mem_head? e)
      exact absurd this (by decide)
    unfold readNumber
    simp only [if_neg head, whole, fraction_of_stops h, exponent?_of_stops h, List.isEmpty_nil, if_true, numeral,
      Bool.false_eq_true, if_false]
    congr 3
    omega

end

end LintServer.Json
