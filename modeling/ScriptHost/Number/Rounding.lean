import ScriptHost.Number.Double

/-!
# Rounding to a double

The double nearest a ratio of natural numbers, an exact tie going to the even significand, and
what is computed through it: the doubles of integers, of decimals and of sums.

## Main definitions

* `nearestQuotient`: the integer nearest a quotient, ties to even.
* `Double.ofUnits`: the double nearest a ratio of multiples of `2 ^ -1074`.
* `Double.ofInt`, `Double.ofDecimal`, `Double.add`: numbers by their exact value, rounded once.
-/

namespace ScriptHost

/-- The integer nearest `a / d`; halfway between two, the even one. -/
def nearestQuotient (a d : Nat) : Nat :=
  let q := a / d
  let r := a % d
  if 2 * r < d then q else if d < 2 * r then q + 1 else if q % 2 = 0 then q else q + 1

namespace Double

/-- The double with the given sign and the magnitude `m * 2 ^ p` in multiples of `2 ^ -1074`, where
`m` is at most `2 ^ 53`, and at least `2 ^ 52` unless `p` is zero. -/
def ofSignificand (negative : Bool) (m p : Nat) : Double :=
  if m < Nat.pow 2 52 then ofFields negative 0 m
  else
    let e := if m < Nat.pow 2 53 then p + 1 else p + 2
    if e < 2047 then ofFields negative e m else infinity negative

/-- The double nearest `a / d` multiples of `2 ^ -1074`. -/
def ofUnits (negative : Bool) (a d : Nat) : Double :=
  let p := (a / d).log2 - 52
  ofSignificand negative (nearestQuotient a (d * Nat.pow 2 p)) p

/-- The double nearest a natural number. -/
def ofNat (n : Nat) : Double := ofUnits false (n * unitsPerOne) 1

/-- The double nearest an integer; zero is positive. -/
def ofInt (n : Int) : Double := ofUnits (decide (n < 0)) (n.natAbs * unitsPerOne) 1

/-- The double nearest the decimal `± digits * 10 ^ exponent`. Exponents that no digit count of the
decimal could bring back into range are answered without the power. -/
def ofDecimal (negative : Bool) (digits : Nat) (exponent : Int) : Double :=
  if digits = 0 then ofUnits negative 0 1
  else if exponent > 400 then infinity negative
  else if exponent + ((digits.log2 / 3 + 1 : Nat) : Int) < -400 then ofUnits negative 0 1
  else if exponent < 0 then ofUnits negative (digits * unitsPerOne) (Nat.pow 10 exponent.natAbs)
  else ofUnits negative (digits * Nat.pow 10 exponent.natAbs * unitsPerOne) 1

/-- The integer part as a double. -/
def truncate (x : Double) : Double :=
  if !x.isFinite || x.isIntegral then x else
    ofUnits x.negative (x.integerPart.natAbs * unitsPerOne) 1

/-- The sum of two doubles. An exact zero is negative only from two negative zeros. -/
def add (x y : Double) : Double :=
  if x.isNaN || y.isNaN then nan
  else if x.isInfinite then (if y.isInfinite && x.negative != y.negative then nan else x)
  else if y.isInfinite then y
  else
    let s := x.units + y.units
    let negative := if s = 0 then x.negative && y.negative else decide (s < 0)
    ofUnits negative s.natAbs 1

end Double

end ScriptHost
