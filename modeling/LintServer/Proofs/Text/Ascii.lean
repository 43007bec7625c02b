import LintServer.Text.Utf8
import Mathlib.Algebra.Order.Ring.Nat

/-!
# Octets that stand for themselves

An octet below 0x80 stands for itself wherever it stands, and no other octets, broken
or cut short as they may be, make up the character that it stands for
(`mem_decode_iff`). So a decoded text can be cut where its octets can.
-/

namespace LintServer.Text.Utf8

/-- A character that was begun and will not come out below 0x80. -/
def Pending.Wide (p : Pending) : Prop :=
  0x80 ≤ (p.bits * 0x40 + (p.low - 0x80)) * 0x40 ^ p.more

/-- What an octet may begin: itself below 0x80, and from there on a wide character. -/
def Start.Fits (b : Nat) : Start → Prop
  | .whole c => b < 0x80 ∧ c = Char.ofNat b
  | .lead p => p.Wide
  | .stray => True

theorem fits_start (b : Nat) : (start b).Fits b := by
  have wide {p : Pending} (h : 0x80 ≤ (p.bits * 0x40 + (p.low - 0x80)) * 0x40 ^ p.more) : (Start.lead p).Fits b := h
  unfold start
  refine iteInduction (fun h => ⟨h, rfl⟩) fun _ => ?_
  refine iteInduction (fun _ => trivial) fun h => ?_
  refine iteInduction (fun _ => wide (by dsimp only; omega)) fun _ => ?_
  refine iteInduction (fun _ => wide (by decide)) fun _ => ?_
  refine iteInduction (fun _ => wide (by decide)) fun _ => ?_
  refine iteInduction (fun _ => wide (by dsimp only; omega)) fun _ => ?_
  refine iteInduction (fun _ => wide (by decide)) fun _ => ?_
  refine iteInduction (fun _ => wide (by dsimp only; omega)) fun _ => ?_
  exact iteInduction (fun _ => wide (by decide)) fun _ => trivial

theorem wide_inner {p : Pending} (h : p.Wide) {b more : Nat} (hl : p.low ≤ b) (hm : p.more = more + 1) :
    (Pending.mk more 0x80 0xBF (p.bits * 0x40 + (b - 0x80))).Wide := by
  unfold Pending.Wide at h ⊢
  rw [hm, Nat.pow_succ', ← Nat.mul_assoc] at h
  refine Nat.le_trans h (Nat.mul_le_mul_right _ ?_)
  dsimp only
  omega

theorem toNat_ofNat_ascii {a : Nat} (h : a < 0x80) : (Char.ofNat a).toNat = a := by
  rw [Char.ofNat, dif_pos (.inl (by omega))]
  rfl

section
variable {a : Nat} (pos : a ≠ 0) (low : a < 0x80)
include pos low

theorem ofNat_ne_of_wide {n : Nat} (h : 0x80 ≤ n) : Char.ofNat a ≠ Char.ofNat n := by
  intro same
  have narrow : (Char.ofNat n).toNat = a := by rw [← same, toNat_ofNat_ascii low]
  rw [Char.ofNat] at narrow
  by_cases valid : n.isValidChar
  · rw [dif_pos valid] at narrow
    change n = a at narrow
    omega
  · rw [dif_neg valid] at narrow
    exact pos narrow.symm

theorem ofNat_ne_replacement : Char.ofNat a ≠ replacement :=
  ofNat_ne_of_wide pos low (show 0x80 ≤ 0xFFFD by decide)

theorem mem_begin (b : Nat) :
    (Char.ofNat a ∈ (begin b).1 → b = a) ∧ ∀ q ∈ (begin b).2, q.Wide := by
  have fits := fits_start b
  unfold begin
  cases hs : start b with
  | whole c =>
    rw [hs] at fits
    obtain ⟨hb, rfl⟩ := fits
    refine ⟨fun h => ?_, nofun⟩
    rw [← toNat_ofNat_ascii hb, ← List.mem_singleton.1 h, toNat_ofNat_ascii low]
  | lead p =>
    rw [hs] at fits
    exact ⟨nofun, fun q hq => by cases hq; exact fits⟩
  | stray => exact ⟨fun h => absurd (List.mem_singleton.1 h) (ofNat_ne_replacement pos low), nofun⟩

theorem mem_feed {p : Option Pending} (hp : ∀ q ∈ p, q.Wide) (b : Nat) :
    (Char.ofNat a ∈ (feed p b).1 → b = a) ∧ ∀ q ∈ (feed p b).2, q.Wide := by
  obtain ⟨whole, opened⟩ := mem_begin pos low b
  cases p with
  | none => exact ⟨whole, opened⟩
  | some p =>
    have wide := hp p rfl
    unfold feed
    dsimp only
    split
    · rename_i inside
      cases hm : p.more with
      | zero =>
        refine ⟨fun h => ?_, nofun⟩
        unfold Pending.Wide at wide
        rw [hm, Nat.pow_zero, Nat.mul_one] at wide
        exact absurd (List.mem_singleton.1 h) (ofNat_ne_of_wide pos low (by omega))
      | succ more => exact ⟨nofun, fun q hq => by cases hq; exact wide_inner wide inside.1 hm⟩
    · exact ⟨fun h => whole ((List.mem_cons.1 h).resolve_left (ofNat_ne_replacement pos low)), opened⟩

theorem mem_decodeFrom {p : Option Pending} (hp : ∀ q ∈ p, q.Wide) {bs : List UInt8}
    (h : Char.ofNat a ∈ decodeFrom p bs) : ∃ b ∈ bs, b.toNat = a := by
  induction bs generalizing p with
  | nil =>
    cases p with
    | none => cases h
    | some q => exact absurd (List.mem_singleton.1 h) (ofNat_ne_replacement pos low)
  | cons b bs ih =>
    obtain ⟨here, opened⟩ := mem_feed pos low hp b.toNat
    rcases List.mem_append.1 h with h | h
    · exact ⟨b, List.mem_cons_self, here h⟩
    · obtain ⟨c, hc, same⟩ := ih opened h
      exact ⟨c, List.mem_cons_of_mem b hc, same⟩

end

/-- **Below 0x80 nothing is made up.** A character below 0x80 comes from its own octet only. -/
theorem mem_decode_iff {a : UInt8} (pos : a ≠ 0) (low : a.toNat < 0x80) (bs : List UInt8) :
    Char.ofNat a.toNat ∈ decode bs ↔ a ∈ bs := by
  constructor
  · intro h
    have pos' : a.toNat ≠ 0 := fun h => pos (UInt8.toNat_inj.1 h)
    obtain ⟨b, hb, same⟩ := mem_decodeFrom (p := none) pos' low nofun h
    rwa [← UInt8.toNat_inj.1 same]
  · intro h
    obtain ⟨front, rest, rfl⟩ := List.append_of_mem h
    rw [decode_append_of_lt low]
    exact List.mem_append_right _ List.mem_cons_self

theorem notMem_decode {line : List UInt8} (single : 10 ∉ line) : '\n' ∉ decode line := by
  intro inside
  exact single ((mem_decode_iff (a := 10) (by decide) (by decide) line).1 inside)

/-- The lines of a decoded text are its lines of octets, each decoded on its own. -/
theorem splitOn_decode (bs : List UInt8) : (decode bs).splitOn '\n' = (bs.splitOn 10).map decode := by
  induction n : bs.length using Nat.strongRecOn generalizing bs with
  | ind n ih =>
    by_cases h : 10 ∈ bs
    · obtain ⟨line, rest, rfl, first⟩ := List.eq_append_cons_of_mem h
      have later := ih rest.length (by simp [← n]; omega) rest rfl
      rw [decode_append_of_lt (by decide), List.splitOn_append_cons_self_of_not_mem first, List.map_cons, ← later]
      exact List.splitOn_append_cons_self_of_not_mem (notMem_decode first) (decode rest)
    · rw [List.splitOn_eq_singleton h, List.splitOn_eq_singleton (notMem_decode h)]
      rfl

end LintServer.Text.Utf8
