import LintServer.Number.Double
import Mathlib.Algebra.Order.Ring.Nat

/-!
# The range of doubles

A whole number has a nearest double that is finite exactly when it lies below
the middle between the greatest double and the next power of two
(`ofInt?_eq_none_iff`).
-/

namespace LintServer.Double

/-! ## Rounding -/

theorem roundQuotient_le (num den : Nat) : roundQuotient num den ≤ num / den + 1 := by
  unfold roundQuotient
  dsimp only
  split
  · omega
  · split <;> omega

theorem le_roundQuotient (num den : Nat) : num / den ≤ roundQuotient num den := by
  unfold roundQuotient
  dsimp only
  split
  · omega
  · split <;> omega

/-- An even number is reached from half a unit below it on. -/
theorem le_roundQuotient_iff {den : Nat} (hd : 0 < den) {k : Nat} (even : k % 2 = 0) (num : Nat) :
    k ≤ roundQuotient num den ↔ 2 * (k * den) ≤ 2 * num + den := by
  have parts : den * (num / den) + num % den = num := Nat.div_add_mod num den
  have rest : num % den < den := Nat.mod_lt num hd
  rcases Nat.lt_trichotomy (num / den + 1) k with below | same | above
  · have := roundQuotient_le num den
    have : den * (num / den + 2) ≤ den * k := Nat.mul_le_mul_left den below
    rw [Nat.mul_add, Nat.mul_comm den k] at this
    omega
  · have : k * den = den * (num / den) + den := by
      rw [← same, Nat.mul_comm, Nat.mul_add, Nat.mul_one]
    unfold roundQuotient
    dsimp only
    split
    · omega
    · split <;> omega
  · have := le_roundQuotient num den
    have : den * k ≤ den * (num / den) := Nat.mul_le_mul_left den (by omega)
    rw [Nat.mul_comm den k] at this
    omega

/-! ## Whole numbers

A number in the binade of `2 ^ e` is scaled by `2 ^ k` and rounded to fifty-three bits, by a
division through `2 ^ m`. -/

section
variable {n e k m : Nat}

theorem log2_shift (low : 2 ^ e ≤ n) (high : n < 2 ^ (e + 1)) : (n <<< k).log2 = e + k := by
  have shifted : 0 < n * 2 ^ k := Nat.mul_pos (Nat.lt_of_lt_of_le (Nat.two_pow_pos e) low) (Nat.two_pow_pos k)
  rw [Nat.shiftLeft_eq, Nat.log2_eq_iff (Nat.ne_of_gt shifted)]
  constructor
  · rw [Nat.pow_add]
    exact Nat.mul_le_mul_right _ low
  · rw [Nat.add_right_comm, Nat.pow_add]
    exact Nat.mul_lt_mul_of_pos_right high (Nat.two_pow_pos k)

theorem le_units (low : 2 ^ e ≤ n) (scale : m + 52 = e + k) : 2 ^ 52 ≤ roundQuotient (n * 2 ^ k) (2 ^ m) := by
  refine Nat.le_trans ?_ (le_roundQuotient _ _)
  rw [Nat.le_div_iff_mul_le (Nat.two_pow_pos _), ← Nat.pow_add, Nat.add_comm, scale, Nat.pow_add]
  exact Nat.mul_le_mul_right _ low

theorem units_le (high : n < 2 ^ (e + 1)) (scale : m + 52 = e + k) :
    roundQuotient (n * 2 ^ k) (2 ^ m) ≤ 2 ^ 53 := by
  refine Nat.le_trans (roundQuotient_le _ _) ?_
  rw [Nat.add_one_le_iff, Nat.div_lt_iff_lt_mul (Nat.two_pow_pos _), ← Nat.pow_add,
    show 53 + m = e + 1 + k by omega, Nat.pow_add]
  exact Nat.mul_lt_mul_of_pos_right high (Nat.two_pow_pos _)

/-- In the last binade the units overflow from half of one below the next power of two on. -/
theorem le_units_last {half : Nat} (pos : 0 < half) :
    2 ^ 53 ≤ roundQuotient (n * 2 ^ k) (2 * half * 2 ^ k) ↔ 2 ^ 54 * half - half ≤ n := by
  have scale : 0 < 2 ^ k := Nat.two_pow_pos k
  rw [le_roundQuotient_iff (Nat.mul_pos (by omega) scale) (by decide)]
  have : 2 * (2 ^ 53 * (2 * half * 2 ^ k)) ≤ 2 * (n * 2 ^ k) + 2 * half * 2 ^ k ↔
      2 * (2 ^ 53 * (2 * half)) ≤ 2 * n + 2 * half := by
    rw [← Nat.mul_le_mul_right_iff scale (n := 2 * (2 ^ 53 * (2 * half))), Nat.add_mul]
    simp only [Nat.mul_assoc]
  rw [this]
  omega

end

theorem isInfinite_ofBits (n : Nat) : (ofBits (min n infinityBits)).isInfinite = true ↔ infinityBits ≤ n := by
  have bound : min n infinityBits ≤ infinityBits := Nat.min_le_right _ _
  have same : (ofBits (min n infinityBits)).magnitude = min n infinityBits := by
    unfold magnitude ofBits signBit
    simp only [UInt64.toNat_ofNat']
    unfold infinityBits at bound ⊢
    omega
  rw [isInfinite, same, beq_iff_eq]
  omega

theorem ofQuotient_eq {n e : Nat} (low : 2 ^ e ≤ n) (high : n < 2 ^ (e + 1)) : ofQuotient n 1 =
    ofBits (min ((e + 1022) * 2 ^ 52 + roundQuotient (n * 2 ^ 1074) (2 ^ (e + 1022))) infinityBits) := by
  have width : (n <<< 1074 / 1).log2 + 1 - 53 = e + 1022 := by
    rw [Nat.div_one, log2_shift low high]
    omega
  have den : 1 <<< (e + 1022) = 2 ^ (e + 1022) := Nat.one_shiftLeft _
  unfold ofQuotient
  dsimp only
  rw [width, den, ← Nat.shiftLeft_eq (e + 1022), ← Nat.shiftLeft_eq n]

theorem isInfinite_ofQuotient {n e : Nat} (low : 2 ^ e ≤ n) (high : n < 2 ^ (e + 1)) :
    (ofQuotient n 1).isInfinite = true ↔
      infinityBits ≤ (e + 1022) * 2 ^ 52 + roundQuotient (n * 2 ^ 1074) (2 ^ (e + 1022)) := by
  rw [ofQuotient_eq low high, isInfinite_ofBits]

theorem isInfinite_ofQuotient_iff (n : Nat) :
    (ofQuotient n 1).isInfinite = true ↔ 2 ^ 1024 - 2 ^ 970 ≤ n := by
  rcases Nat.eq_zero_or_pos n with rfl | pos
  · decide +kernel
  have low := Nat.log2_self_le (Nat.ne_of_gt pos)
  have high : n < 2 ^ (n.log2 + 1) := Nat.lt_log2_self
  rw [isInfinite_ofQuotient low high]
  have least := le_units (k := 1074) (m := n.log2 + 1022) low (by omega)
  have most := units_le (k := 1074) (m := n.log2 + 1022) high (by omega)
  have top : infinityBits = 2047 * 2 ^ 52 := by decide
  have bound : (2 : Nat) ^ 1024 - 2 ^ 970 = 2 ^ 54 * 2 ^ 970 - 2 ^ 970 := by decide +kernel
  have middle : (2 : Nat) ^ 1023 ≤ 2 ^ 1024 - 2 ^ 970 := by decide +kernel
  rw [top]
  rcases Nat.lt_trichotomy n.log2 1023 with below | last | above
  · have small : n < 2 ^ 1023 := Nat.lt_of_lt_of_le high (pow_le_pow_right₀ (by decide) below)
    have : ¬ 2 ^ 1024 - 2 ^ 970 ≤ n := Nat.not_le.2 (Nat.lt_of_lt_of_le small middle)
    simp only [this, iff_false]
    omega
  · have den : (2 : Nat) ^ (1023 + 1022) = 2 * 2 ^ 970 * 2 ^ 1074 := by decide +kernel
    rw [bound, ← le_units_last (k := 1074) (pow_pos (by decide) 970), ← den, ← last]
    omega
  · have large : 2 ^ 1024 ≤ n := Nat.le_trans (pow_le_pow_right₀ (by decide) above) low
    have : 2 ^ 1024 - 2 ^ 970 ≤ n := Nat.le_trans (Nat.sub_le _ _) large
    simp only [this, iff_true]
    omega

theorem ofInt?_eq_none_iff (n : Int) : ofInt? n = none ↔ 2 ^ 1024 - 2 ^ 970 ≤ n.natAbs := by
  rw [← isInfinite_ofQuotient_iff]
  unfold ofInt?
  dsimp only
  split <;> simp_all

theorem isPositive_ofBits {n : Nat} (pos : 0 < n) : (ofBits (min n infinityBits)).isPositive = true := by
  have bound : min n infinityBits ≤ infinityBits := Nat.min_le_right _ _
  have least : 0 < min n infinityBits := Nat.lt_min.2 ⟨pos, by decide⟩
  have same : (ofBits (min n infinityBits)).bits.toNat = min n infinityBits := by
    unfold ofBits
    simp only [UInt64.toNat_ofNat']
    unfold infinityBits at bound ⊢
    omega
  unfold isPositive isNegative magnitude
  rw [same]
  generalize min n infinityBits = k at *
  unfold signBit infinityBits at *
  simp only [Bool.and_eq_true, Bool.not_eq_true', decide_eq_true_eq, decide_eq_false_iff_not]
  omega

theorem isPositive_of_ofInt? {n : Int} (pos : 0 < n) {x : Double} (h : ofInt? n = some x) : x.isPositive = true := by
  have low := Nat.log2_self_le (show n.natAbs ≠ 0 by omega)
  have units := le_units (k := 1074) (m := n.natAbs.log2 + 1022) low (by omega)
  unfold ofInt? at h
  dsimp only at h
  split at h
  · cases h
  · rw [if_neg (by omega)] at h
    cases h
    rw [ofQuotient_eq low Nat.lt_log2_self]
    exact isPositive_ofBits (by omega)

end LintServer.Double
