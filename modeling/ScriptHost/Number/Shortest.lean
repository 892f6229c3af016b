import ScriptHost.Number.Double

/-!
# Shortest decimals of a double

Among the decimals that round back to a double, those with the fewest digits, and of these the one
nearest the double; halfway between two, the larger magnitude. For each digit count the two points
of the decimal grid next to the value are tested in exact arithmetic, and the first count with a
point in the rounding interval is taken.

## Main definitions

* `Decimal`: a natural number times a power of ten.
* `Double.shortest`: the shortest decimal of the magnitude of a finite double.
* `Decimal.positional`: digits with a point and no exponent.
* `Decimal.scientific`: digits with a point near the ordinary range, and an exponent outside it.
-/

namespace ScriptHost

/-- The decimal `digits * 10 ^ exponent`. -/
structure Decimal where
  /-- The digits, as a natural number. -/
  digits : Nat
  /-- The power of ten that they are multiplied by. -/
  exponent : Int
deriving DecidableEq

namespace Decimal

/-- Zeros at the end of the digits moved into the exponent, `fuel` of them at most. -/
def trim : Nat → Decimal → Decimal
  | 0, d => d
  | fuel + 1, d =>
    if d.digits % 10 = 0 ∧ d.digits ≠ 0 then trim fuel ⟨d.digits / 10, d.exponent + 1⟩ else d

/-- `n` zeros. -/
def zeros (n : Nat) : String := String.ofList (List.replicate n '0')

/-- The digits without an exponent: zeros fill up to the point, and a whole number has no point. -/
def positional (d : Decimal) : String :=
  let d := trim 20 d
  let s := d.digits.repr
  if 0 ≤ d.exponent then s ++ zeros d.exponent.natAbs
  else
    let places := d.exponent.natAbs
    let cs := s.toList
    if places < cs.length then
      String.ofList (cs.take (cs.length - places)) ++ "." ++
        String.ofList (cs.drop (cs.length - places))
    else "0." ++ zeros (places - cs.length) ++ s

/-- The digits with an exponent when the point would stand more than sixteen places behind the
first digit or more than five before it; a whole number ends in `.0`. -/
def scientific (d : Decimal) : String :=
  let d := trim 20 d
  let s := d.digits.repr
  let cs := s.toList
  let point : Int := cs.length + d.exponent
  if 0 ≤ d.exponent ∧ point ≤ 16 then s ++ zeros d.exponent.natAbs ++ ".0"
  else if -5 < point ∧ point ≤ 16 then d.positional
  else
    let lead := String.ofList (cs.take 1)
    let rest := String.ofList (cs.drop 1)
    (if rest.isEmpty then lead else lead ++ "." ++ rest) ++ "e" ++
      (if point - 1 < 0 then "-" else "") ++ (point - 1).natAbs.repr

end Decimal

namespace Double

/-- The rounding interval of a finite double and its value, in quarters of `2 ^ -1074`: the lower
end, the value, the upper end. The lower gap is half as wide above a power of two. -/
def interval (x : Double) : Nat × Nat × Nat :=
  let unit := Nat.pow 2 x.scale
  let m := x.significand
  let low := if x.fraction.val = 0 ∧ 1 < x.exponent.val then 4 * m - 1 else 4 * m - 2
  (low * unit, 4 * m * unit, (4 * m + 2) * unit)

/-- The number of quarters of `2 ^ -1074` in one. -/
def quartersPerOne : Nat := 4 * unitsPerOne

/-- The place of the first digit of `v` quarters: `d` with `10 ^ (d - 1) ≤ v < 10 ^ d`. -/
def firstPlace (v : Nat) : Int :=
  if quartersPerOne ≤ v then ((v / quartersPerOne).repr.length : Int)
  else
    let k := (List.range 400).find? fun k => decide (quartersPerOne ≤ v * Nat.pow 10 k)
    1 - (k.getD 0 : Nat)

/-- The decimal of `count` digits in the rounding interval that is nearest the value, if there is
one; `place` is the place of the first digit. The ends belong to the interval of an even
significand. -/
def shortestWith (x : Double) (place : Int) (count : Nat) : Option Decimal :=
  let (low, v, high) := x.interval
  let e : Int := place - count
  let up := Nat.pow 10 (-e).toNat
  let d := quartersPerOne * Nat.pow 10 e.toNat
  let a := v * up / d
  let even := x.significand % 2 == 0
  let below := if even then decide (low * up ≤ a * d) else decide (low * up < a * d)
  let above := if even then decide ((a + 1) * d ≤ high * up) else decide ((a + 1) * d < high * up)
  let nearer := decide (v * up - a * d < (a + 1) * d - v * up)
  if below && (!above || nearer) then some ⟨a, e⟩
  else if above then some ⟨a + 1, e⟩
  else none

/-- The shortest decimal of the magnitude of a finite double. -/
def shortest (x : Double) : Decimal :=
  if x.magnitude = 0 then ⟨0, 0⟩
  else
    let place := firstPlace x.interval.2.1
    ((List.range 17).findSome? fun n => x.shortestWith place (n + 1)).getD ⟨0, 0⟩

end Double

end ScriptHost
