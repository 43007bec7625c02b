import LintServer.Text.Utf8

/-!
# Texts and their octets

Every character is read back from the octets that encode it, whatever follows
them, so a text is what its encoding decodes to (`decode_encode`). A text in ASCII
has one octet for a character.
-/

namespace LintServer.Text.Utf8

/-! ## Octets that go on -/

section
variable {p : Pending} {b : UInt8} (h : p.low ≤ b.toNat ∧ b.toNat ≤ p.high)
include h

theorem decodeFrom_last (hm : p.more = 0) (bs : List UInt8) :
    decodeFrom (some p) (b :: bs) = Char.ofNat (p.bits * 0x40 + (b.toNat - 0x80)) :: decode bs := by
  rw [decodeFrom, feed, if_pos h]
  simp only [hm]
  rfl

theorem decodeFrom_inner {more : Nat} (hm : p.more = more + 1) (bs : List UInt8) :
    decodeFrom (some p) (b :: bs) =
      decodeFrom (some (.mk more 0x80 0xBF (p.bits * 0x40 + (b.toNat - 0x80)))) bs := by
  rw [decodeFrom, feed, if_pos h]
  simp only [hm]
  rfl

end

theorem decode_lead {b : UInt8} {p : Pending} (h : start b.toNat = .lead p) (bs : List UInt8) :
    decode (b :: bs) = decodeFrom (some p) bs := by
  rw [decode, decodeFrom, feed, begin, h]
  rfl

/-! ## First octets -/

/-- An octet begins a character of which the bits `bits` are known and `next` fits behind it. -/
def Leads (b more bits next : Nat) : Prop :=
  ∃ p, start b = .lead p ∧ p.more = more ∧ p.bits = bits ∧ p.low ≤ next ∧ next ≤ p.high

section
variable {n : Nat}

theorem leads_two (h : 0x80 ≤ n) (hn : n < 0x800) : Leads (n / 64 + 0xC0) 0 (n / 64) (n % 64 + 0x80) := by
  refine ⟨.mk 0 0x80 0xBF (n / 64), ?_, rfl, rfl, ?_, ?_⟩
  · unfold start
    rw [if_neg (by omega), if_neg (by omega), if_pos (by omega), Nat.add_sub_cancel]
  · dsimp only; omega
  · dsimp only; omega

theorem leads_three (h : 0x800 ≤ n) (hn : n < 0x10000) (hs : n < 0xD800 ∨ 0xDFFF < n) :
    Leads (n / 4096 + 0xE0) 1 (n / 4096) (n / 64 % 64 + 0x80) := by
  unfold Leads start
  rw [if_neg (by omega), if_neg (by omega), if_neg (by omega)]
  split
  · exact ⟨_, rfl, rfl, by dsimp only; omega, by dsimp only; omega, by dsimp only; omega⟩
  · split
    · exact ⟨_, rfl, rfl, by dsimp only; omega, by dsimp only; omega, by dsimp only; omega⟩
    · rw [if_pos (by omega)]
      exact ⟨_, rfl, rfl, by dsimp only; omega, by dsimp only; omega, by dsimp only; omega⟩

theorem leads_four (h : 0x10000 ≤ n) (hn : n < 0x110000) :
    Leads (n / 262144 + 0xF0) 2 (n / 262144) (n / 4096 % 64 + 0x80) := by
  unfold Leads start
  rw [if_neg (by omega), if_neg (by omega), if_neg (by omega), if_neg (by omega), if_neg (by omega),
    if_neg (by omega)]
  split
  · exact ⟨_, rfl, rfl, by dsimp only; omega, by dsimp only; omega, by dsimp only; omega⟩
  · split
    · exact ⟨_, rfl, rfl, by dsimp only; omega, by dsimp only; omega, by dsimp only; omega⟩
    · rw [if_pos (by omega)]
      exact ⟨_, rfl, rfl, by dsimp only; omega, by dsimp only; omega, by dsimp only; omega⟩

end

/-! ## Characters -/

section
variable {a b c d : UInt8} {bits : Nat} (bs : List UInt8)

theorem decode_two (h : Leads a.toNat 0 bits b.toNat) :
    decode (a :: b :: bs) = Char.ofNat (bits * 0x40 + (b.toNat - 0x80)) :: decode bs := by
  obtain ⟨p, hp, hm, rfl, hl, hh⟩ := h
  rw [decode_lead hp, decodeFrom_last ⟨hl, hh⟩ hm]

theorem decode_three (h : Leads a.toNat 1 bits b.toNat) (hc : 0x80 ≤ c.toNat ∧ c.toNat ≤ 0xBF) :
    decode (a :: b :: c :: bs) =
      Char.ofNat ((bits * 0x40 + (b.toNat - 0x80)) * 0x40 + (c.toNat - 0x80)) :: decode bs := by
  obtain ⟨p, hp, hm, rfl, hl, hh⟩ := h
  rw [decode_lead hp, decodeFrom_inner ⟨hl, hh⟩ hm, decodeFrom_last hc rfl]

theorem decode_four (h : Leads a.toNat 2 bits b.toNat) (hc : 0x80 ≤ c.toNat ∧ c.toNat ≤ 0xBF)
    (hd : 0x80 ≤ d.toNat ∧ d.toNat ≤ 0xBF) :
    decode (a :: b :: c :: d :: bs) =
      Char.ofNat (((bits * 0x40 + (b.toNat - 0x80)) * 0x40 + (c.toNat - 0x80)) * 0x40 + (d.toNat - 0x80)) ::
        decode bs := by
  obtain ⟨p, hp, hm, rfl, hl, hh⟩ := h
  rw [decode_lead hp, decodeFrom_inner ⟨hl, hh⟩ hm, decodeFrom_inner hc rfl, decodeFrom_last hd rfl]

end

theorem toNat_ofNat_of_lt {n : Nat} (h : n < 0x100) : (UInt8.ofNat n).toNat = n := by
  rw [UInt8.toNat_ofNat', Nat.mod_eq_of_lt h]

theorem decode_encodeChar (c : Char) (bs : List UInt8) :
    decode (String.utf8EncodeChar c ++ bs) = c :: decode bs := by
  have valid : c.toNat < 0xD800 ∨ 0xDFFF < c.toNat ∧ c.toNat < 0x110000 := c.valid
  have read {n : Nat} (h : n = c.toNat) : Char.ofNat n = c := h ▸ Char.ofNat_toNat c
  have hn : c.val.toNat = c.toNat := rfl
  simp only [String.utf8EncodeChar, hn]
  generalize c.toNat = n at valid read
  -- One case for each number of octets.
  by_cases h1 : n ≤ 127
  · have ha : (UInt8.ofNat n).toNat = n := toNat_ofNat_of_lt (by omega)
    have hd := decodeFrom_cons_of_lt (show (UInt8.ofNat n).toNat < 0x80 by omega) none bs
    rw [ha, read rfl] at hd
    rw [if_pos h1]
    exact hd
  rw [if_neg h1]
  have hl : (UInt8.ofNat (n % 64 + 128)).toNat = n % 64 + 0x80 := toNat_ofNat_of_lt (by omega)
  by_cases h2 : n ≤ 2047
  · have ha : (UInt8.ofNat (n / 64 % 32 + 192)).toNat = n / 64 + 0xC0 := by
      rw [toNat_ofNat_of_lt] <;> omega
    have leads := leads_two (show 0x80 ≤ n by omega) (by omega)
    rw [← ha, ← hl] at leads
    rw [if_pos h2, List.cons_append, List.singleton_append, decode_two bs leads, hl, read (by omega)]
  rw [if_neg h2]
  have hm : (UInt8.ofNat (n / 64 % 64 + 128)).toNat = n / 64 % 64 + 0x80 := toNat_ofNat_of_lt (by omega)
  by_cases h3 : n ≤ 65535
  · have ha : (UInt8.ofNat (n / 4096 % 16 + 224)).toNat = n / 4096 + 0xE0 := by
      rw [toNat_ofNat_of_lt] <;> omega
    have leads := leads_three (show 0x800 ≤ n by omega) (by omega) (by omega)
    rw [← ha, ← hm] at leads
    rw [if_pos h3, List.cons_append, List.cons_append, List.singleton_append,
      decode_three bs leads (by omega), hm, hl, read (by omega)]
  rw [if_neg h3]
  have hh : (UInt8.ofNat (n / 4096 % 64 + 128)).toNat = n / 4096 % 64 + 0x80 := toNat_ofNat_of_lt (by omega)
  have ha : (UInt8.ofNat (n / 262144 % 8 + 240)).toNat = n / 262144 + 0xF0 := by
    rw [toNat_ofNat_of_lt] <;> omega
  have leads := leads_four (show 0x10000 ≤ n by omega) (by omega)
  rw [← ha, ← hh] at leads
  rw [List.cons_append, List.cons_append, List.cons_append, List.singleton_append,
    decode_four bs leads (by omega) (by omega), hh, hm, hl, read (by omega)]

/-- **Round trip.** A text is read back from its octets, whatever follows them. -/
theorem decode_encode_append (cs : List Char) (bs : List UInt8) : decode (encode cs ++ bs) = cs ++ decode bs := by
  induction cs with
  | nil => rfl
  | cons c cs ih =>
    have : encode (c :: cs) = String.utf8EncodeChar c ++ encode cs := rfl
    rw [this, List.append_assoc, decode_encodeChar, ih, List.cons_append]

@[simp] theorem decode_encode (cs : List Char) : decode (encode cs) = cs := by
  have := decode_encode_append cs []
  rwa [List.append_nil, show decode [] = [] from rfl, List.append_nil] at this

/-! ## ASCII -/

theorem encode_of_ascii {cs : List Char} (h : ∀ c ∈ cs, c.toNat < 0x80) :
    encode cs = cs.map fun c => UInt8.ofNat c.toNat := by
  induction cs with
  | nil => rfl
  | cons c cs ih =>
    obtain ⟨hc, hs⟩ := List.forall_mem_cons.1 h
    have : String.utf8EncodeChar c = [UInt8.ofNat c.toNat] := if_pos (Nat.le_of_lt_succ hc)
    rw [encode, List.flatMap_cons, this, ← encode, ih hs]
    rfl

end LintServer.Text.Utf8
