import LintServer.Text.Numeral
import Mathlib.Algebra.Order.Ring.Nat
import Mathlib.Data.List.Basic

/-!
# Written numerals

A number is read back from its decimal digits, unless there are too many of them
(`readNumeral_toDigits`).
-/

namespace LintServer.Text

theorem toNat_of_isDigit {c : Char} (h : c.isDigit = true) : 0x30 ≤ c.toNat ∧ c.toNat ≤ 0x39 := by
  simp only [Char.isDigit, Bool.and_eq_true, decide_eq_true_eq] at h
  exact ⟨UInt32.le_iff_toNat_le.1 h.1, UInt32.le_iff_toNat_le.1 h.2⟩

theorem digitValue?_of_isDigit {c : Char} (h : c.isDigit = true) : digitValue? c = some (c.toNat - '0'.toNat) := by
  have bounds := toNat_of_isDigit h
  have first : (0x30 ≤ c.toNat && c.toNat < 0x30 + 10) = true := by
    simp only [Bool.and_eq_true, decide_eq_true_eq]
    omega
  have zeros : digitZeros = 0x30 :: digitZeros.tail := rfl
  rw [digitValue?, zeros, List.find?_cons, first]
  rfl

theorem foldl_digitValue? {ds : List Char} (h : ∀ c ∈ ds, c.isDigit = true) : ∀ n : Nat,
    ds.foldl (fun n d => 10 * n + (digitValue? d).getD 0) n = Nat.ofDigitChars 10 ds n := by
  induction ds with
  | nil =>
    intro n
    exact Nat.ofDigitChars_nil.symm
  | cons c cs ih =>
    intro n
    obtain ⟨hc, hs⟩ := List.forall_mem_cons.1 h
    rw [List.foldl_cons, digitValue?_of_isDigit hc, ih hs, Nat.ofDigitChars_cons]
    rfl

theorem isDigit_toDigits (n : Nat) : ∀ c ∈ Nat.toDigits 10 n, c.isDigit = true :=
  fun _ hc => Nat.isDigit_of_mem_toDigits (by decide) (by decide) hc

theorem digitsValue_toDigits (n : Nat) : digitsValue (Nat.toDigits 10 n) = n := by
  rw [digitsValue, foldl_digitValue? (isDigit_toDigits n), Nat.ofDigitChars_ten_toDigits]

theorem digitsValue_lt {ds : List Char} (h : ∀ c ∈ ds, c.isDigit = true) : digitsValue ds < 10 ^ ds.length := by
  have bound (n : Nat) : Nat.ofDigitChars 10 ds n < (n + 1) * 10 ^ ds.length := by
    induction ds generalizing n with
    | nil =>
      rw [Nat.ofDigitChars_nil, List.length_nil, Nat.pow_zero, Nat.mul_one]
      exact Nat.lt_succ_self n
    | cons c cs ih =>
      obtain ⟨hc, hs⟩ := List.forall_mem_cons.1 h
      obtain ⟨-, nine⟩ := toNat_of_isDigit hc
      have step : 10 * n + (c.toNat - '0'.toNat) + 1 ≤ (n + 1) * 10 := by
        show 10 * n + (c.toNat - 0x30) + 1 ≤ (n + 1) * 10
        omega
      rw [Nat.ofDigitChars_cons, List.length_cons, Nat.pow_succ', ← Nat.mul_assoc]
      exact Nat.lt_of_lt_of_le (ih hs _) (Nat.mul_le_mul_right _ step)
  rw [digitsValue, foldl_digitValue? h, ← Nat.one_mul (10 ^ ds.length)]
  exact bound 0

theorem readNumeral_toDigits {n : Nat} (h : (Nat.toDigits 10 n).length ≤ NumeralTooLong.limit) :
    readNumeral (Nat.toDigits 10 n) = .ok n := by
  rw [readNumeral, if_pos h, digitsValue_toDigits]

theorem digits_of_readNumeral {ds : List Char} {e : NumeralTooLong} (h : readNumeral ds = .error e) :
    NumeralTooLong.limit < e.digits ∧ ds.length = e.digits := by
  unfold readNumeral at h
  split at h
  · cases h
  · rename_i long
    cases h
    exact ⟨Nat.lt_of_not_le long, rfl⟩

/-- No numeral but that of zero starts with a zero. -/
theorem head?_toDigits {n : Nat} (h : 0 < n) : (Nat.toDigits 10 n).head? ≠ some '0' := by
  induction n using Nat.strongRecOn with
  | ind n ih =>
    by_cases hn : n < 10
    · rw [Nat.toDigits_of_lt_base hn, List.head?_cons]
      intro e
      have := Nat.digitChar_eq_zero.1 (Option.some.inj e)
      omega
    · rw [Nat.toDigits_of_base_le (by decide) (by omega), List.head?_append_of_ne_nil _ Nat.toDigits_ne_nil]
      exact ih (n / 10) (by omega) (by omega)

end LintServer.Text
