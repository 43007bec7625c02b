import LintServer.Number.Double

/-!
# The shortest text of a double

Of all decimals that read back as the double, the one with the fewest digits is
written, and of several the nearest. From `10 ^ -4` up to `10 ^ 16` it is written
positionally with at least one digit after the point, elsewhere with an exponent
of at least two digits.
-/

namespace LintServer.Double

/-- The whole number of digits before the point of a positive quotient; negative
when zeros follow the point. -/
def pointPosition (num den : Nat) : Int :=
  let whole := num / den
  if 0 < whole then ((Nat.toDigits 10 whole).length : Int)
  else 1 - ((Nat.toDigits 10 ((den - 1) / num)).length : Int)

/-- The quotient `num / den` in units of `10 ^ power`, as a quotient. -/
def scaleDown (num den : Nat) (power : Int) : Nat × Nat :=
  if 0 ≤ power then (num, den * Nat.pow 10 power.toNat) else (num * Nat.pow 10 (-power).toNat, den)

/-- The decimal of `count` digits nearest to `x` among those that read back as it, as a
multiple of the power of ten. The decimals next to `x` on either side decide. -/
def nearestDecimal? (x : Double) (num den : Nat) (point : Int) (count : Nat) : Option (Nat × Int) :=
  let power := point - count
  let (n, d) := scaleDown num den power
  let below := n / d
  let readsBack (c : Nat) : Bool := ofDecimal c power == x
  match readsBack below, readsBack (below + 1) with
  | true, true => some (roundQuotient n d, power)
  | true, false => some (below, power)
  | false, true => some (below + 1, power)
  | false, false => none

def shortestFrom (x : Double) (num den : Nat) (point : Int) : Nat → Nat → Nat × Int
  | 0, _ => (0, 0)
  | tries + 1, count =>
    (nearestDecimal? x num den point count).getD (shortestFrom x num den point tries (count + 1))

/-- The digits of a positive finite double and the position of the point before them. -/
def shortestDigits (x : Double) : List Char × Int :=
  let num := x.significand <<< x.exponent
  let den := 1 <<< 1074
  let (c, power) := shortestFrom x num den (pointPosition num den) 17 1
  let ds := Nat.toDigits 10 c
  ((ds.reverse.dropWhile (· == '0')).reverse, power + ds.length)

def placePoint (ds : List Char) (point : Int) : List Char :=
  if -4 < point ∧ point ≤ 16 then
    if point ≤ 0 then '0' :: '.' :: (List.replicate (-point).toNat '0' ++ ds)
    else
      let n := point.toNat
      let whole := ds.take n ++ List.replicate (n - ds.length) '0'
      let rest := ds.drop n
      whole ++ '.' :: (if rest.isEmpty then ['0'] else rest)
  else
    let e := point - 1
    let es := Nat.toDigits 10 e.natAbs
    let mantissa := if ds.length ≤ 1 then ds else ds.take 1 ++ '.' :: ds.drop 1
    mantissa ++ 'e' :: (if e < 0 then '-' else '+') :: (if es.length < 2 then '0' :: es else es)

/-- The shortest text that reads back as the double. -/
def shortest (x : Double) : List Char :=
  if x.isNaN then ['n', 'a', 'n']
  else
    let body :=
      if x.isInfinite then ['i', 'n', 'f']
      else if x.magnitude = 0 then ['0', '.', '0']
      else
        let (ds, point) := shortestDigits x.abs
        placePoint ds point
    if x.isNegative then '-' :: body else body

end LintServer.Double
