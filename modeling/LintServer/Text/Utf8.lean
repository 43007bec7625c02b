/-!
# UTF-8 with replacement

`decode` reads every sequence of octets. An octet that cannot follow the ones
before it ends the character begun there, which becomes one replacement mark,
and is then read afresh. An octet below 0x80 therefore always stands for itself.
-/

namespace LintServer.Text.Utf8

def replacement : Char := '\uFFFD'

/-- A character begun and not yet ended: how many octets it still lacks after the
next one, the bounds of the next one, and the bits read so far. -/
structure Pending where
  more : Nat
  low : Nat
  high : Nat
  bits : Nat
  low_ge : 0x80 ≤ low := by decide
  deriving DecidableEq, Repr

inductive Start where
  | whole (c : Char)
  | lead (p : Pending)
  | stray
  deriving DecidableEq, Repr

def start (b : Nat) : Start :=
  if b < 0x80 then .whole (Char.ofNat b)
  else if b < 0xC2 then .stray
  else if b < 0xE0 then .lead (.mk 0 0x80 0xBF (b - 0xC0))
  else if b = 0xE0 then .lead (.mk 1 0xA0 0xBF 0)
  else if b = 0xED then .lead (.mk 1 0x80 0x9F 0xD)
  else if b < 0xF0 then .lead (.mk 1 0x80 0xBF (b - 0xE0))
  else if b = 0xF0 then .lead (.mk 2 0x90 0xBF 0)
  else if b < 0xF4 then .lead (.mk 2 0x80 0xBF (b - 0xF0))
  else if b = 0xF4 then .lead (.mk 2 0x80 0x8F 4)
  else .stray

/-- Reads an octet between characters: what it writes, and what stays open. -/
def begin (b : Nat) : List Char × Option Pending :=
  match start b with
  | .whole c => ([c], none)
  | .lead p => ([], some p)
  | .stray => ([replacement], none)

def feed : Option Pending → Nat → List Char × Option Pending
  | none, b => begin b
  | some p, b =>
    if p.low ≤ b ∧ b ≤ p.high then
      let bits := p.bits * 0x40 + (b - 0x80)
      match p.more with
      | 0 => ([Char.ofNat bits], none)
      | more + 1 => ([], some (.mk more 0x80 0xBF bits))
    else
      (replacement :: (begin b).1, (begin b).2)

/-- A character still open at the end is a replacement mark. -/
def flush : Option Pending → List Char
  | none => []
  | some _ => [replacement]

def decodeFrom (p : Option Pending) : List UInt8 → List Char
  | [] => flush p
  | b :: bs => (feed p b.toNat).1 ++ decodeFrom (feed p b.toNat).2 bs

def decode (bs : List UInt8) : List Char :=
  decodeFrom none bs

def encode (cs : List Char) : List UInt8 :=
  cs.flatMap String.utf8EncodeChar

theorem start_of_lt {b : Nat} (h : b < 0x80) : start b = .whole (Char.ofNat b) := by
  simp [start, h]

/-- **Resynchronisation.** Below 0x80 an octet ends whatever is open and stands for itself. -/
theorem feed_of_lt {b : Nat} (h : b < 0x80) (p : Option Pending) :
    feed p b = (flush p ++ [Char.ofNat b], none) := by
  cases p with
  | none => simp [feed, begin, flush, start_of_lt h]
  | some q =>
    have := q.low_ge
    rw [feed, if_neg (by omega)]
    simp [begin, flush, start_of_lt h]

theorem decodeFrom_cons_of_lt {b : UInt8} (h : b.toNat < 0x80) (p : Option Pending) (bs : List UInt8) :
    decodeFrom p (b :: bs) = flush p ++ Char.ofNat b.toNat :: decode bs := by
  rw [decodeFrom, feed_of_lt h]
  simp [decode]

theorem decode_cons_of_lt {b : UInt8} (h : b.toNat < 0x80) (bs : List UInt8) :
    decode (b :: bs) = Char.ofNat b.toNat :: decode bs :=
  decodeFrom_cons_of_lt h none bs

theorem decodeFrom_append_of_lt {b : UInt8} (h : b.toNat < 0x80) (bs : List UInt8) :
    ∀ (p : Option Pending) (front : List UInt8),
      decodeFrom p (front ++ b :: bs) = decodeFrom p front ++ Char.ofNat b.toNat :: decode bs
  | p, [] => decodeFrom_cons_of_lt h p bs
  | p, a :: front => by
    rw [List.cons_append, decodeFrom, decodeFrom_append_of_lt h bs _ front, decodeFrom, List.append_assoc]

/-- An octet below 0x80 parts a text into two that are decoded on their own. -/
theorem decode_append_of_lt {b : UInt8} (h : b.toNat < 0x80) (front bs : List UInt8) :
    decode (front ++ b :: bs) = decode front ++ Char.ofNat b.toNat :: decode bs :=
  decodeFrom_append_of_lt h bs none front

end LintServer.Text.Utf8
