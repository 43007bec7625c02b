/-!
# Doubles

A double is the sixty-four bits of a binary floating-point number. Every
rational is rounded in exact arithmetic to the nearest double, a half going to
the even neighbour: counted in units of the least double, the finite doubles of
one sign are consecutive bit patterns, so a carry needs no case of its own.
-/

namespace LintServer

structure Double where
  bits : UInt64
  deriving DecidableEq, Repr

namespace Double

def signBit : Nat := 0x8000000000000000

/-- The bit that stands before those of a magnitude, of which it has fifty-two. -/
def leadingBit : Nat := 0x10000000000000

/-- The pattern of positive infinity, above every finite one. -/
def infinityBits : Nat := 0x7FF0000000000000

def ofBits (n : Nat) : Double := ⟨UInt64.ofNat n⟩

def zero : Double := ofBits 0

def infinity : Double := ofBits infinityBits

def nan : Double := ofBits 0x7FF8000000000000

def neg (x : Double) : Double :=
  ofBits ((x.bits.toNat + signBit) % (2 * signBit))

def isNegative (x : Double) : Bool :=
  signBit ≤ x.bits.toNat

def magnitude (x : Double) : Nat :=
  x.bits.toNat % signBit

def abs (x : Double) : Double :=
  ofBits x.magnitude

def isNaN (x : Double) : Bool :=
  infinityBits < x.magnitude

def isInfinite (x : Double) : Bool :=
  x.magnitude == infinityBits

/-- Greater than zero, which no NaN is. -/
def isPositive (x : Double) : Bool :=
  !x.isNegative && 0 < x.magnitude && x.magnitude ≤ infinityBits

/-- A finite magnitude as a whole number of units `2 ^ (exponent - 1074)`. -/
def significand (x : Double) : Nat :=
  if x.magnitude < leadingBit then x.magnitude else x.magnitude % leadingBit + leadingBit

def exponent (x : Double) : Nat :=
  x.magnitude / leadingBit - 1

/-- The nearest whole number to a quotient, a half going to the even one. -/
def roundQuotient (num den : Nat) : Nat :=
  let q := num / den
  let r := num % den
  if 2 * r < den then q
  else if den < 2 * r then q + 1
  else q + q % 2

def ofQuotient (num den : Nat) : Double :=
  -- The least double is `2 ^ -1074`; the quotient is scaled to whole numbers of it.
  let scaled := num <<< 1074
  let width := (scaled / den).log2 + 1
  let shift := width - 53
  let units := roundQuotient scaled (den <<< shift)
  ofBits (min (shift <<< 52 + units) infinityBits)

/-- The nearest double to `digits * 10 ^ power`. Between `10 ^ (3 / 10)` and `10 ^ (1 / 3)` lies two,
so the binary logarithm tells early what is beyond every double or below half of the least. -/
def ofDecimal (digits : Nat) (power : Int) : Double :=
  if digits = 0 then zero
  else if 400 < power + 3 * digits.log2 / 10 then infinity
  else if power + digits.log2 / 3 + 1 < -400 then zero
  else if 0 ≤ power then ofQuotient (digits * Nat.pow 10 power.toNat) 1
  else ofQuotient digits (Nat.pow 10 (-power).toNat)

/-- The nearest double to a whole number, or nothing where that is infinite. -/
def ofInt? (n : Int) : Option Double :=
  let x := ofQuotient n.natAbs 1
  if x.isInfinite then none
  else some (if n < 0 then x.neg else x)

end Double

end LintServer
