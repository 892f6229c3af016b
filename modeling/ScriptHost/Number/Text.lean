import ScriptHost.Number.Rounding
import ScriptHost.Number.Shortest
import ScriptHost.Text.Blank

/-!
# Numbers as text

How a script number is written, and how a number is read off the front of a text.

## Main definitions

* `Double.text`: a whole number below `10 ^ 21` with all its digits, any other finite number by its
  shortest decimal, always without an exponent; both zeros are `0`.
* `Double.parse`: a complete decimal numeral.
* `Double.parsePrefixOf`: the longest numeral that a text starts with, after blanks.
* `naturalOf?`: a numeral of a natural number below a bound.
-/

namespace ScriptHost

namespace Double

/-- The text of a number. -/
def text (x : Double) : String :=
  if x.isNaN then "NaN"
  else if x.isInfinite then (if x.negative then "-Infinity" else "Infinity")
  else if x.isZero then "0"
  else
    let sign := if x.negative then "-" else ""
    if x.isIntegral && x.integerPart.natAbs < Nat.pow 10 21 then sign ++ x.integerPart.natAbs.repr
    else sign ++ x.shortest.positional

/-- The value of a run of decimal digits. -/
def digitsValue (cs : List Char) : Nat :=
  cs.foldl (fun n c => 10 * n + (c.toNat - '0'.toNat)) 0

/-- An optional sign: whether it is a minus, and what follows. -/
def takeSign : List Char → Bool × List Char
  | '-' :: cs => (true, cs)
  | '+' :: cs => (false, cs)
  | cs => (false, cs)

/-- The exponent that ends a numeral: nothing, or `e` with an optional sign and digits. -/
def exponentValue? : List Char → Option Int
  | [] => some 0
  | c :: cs =>
    if c = 'e' ∨ c = 'E' then
      let (negative, digits) := takeSign cs
      if !digits.isEmpty && digits.all Char.isDigit then
        some (if negative then -(digitsValue digits : Int) else digitsValue digits)
      else none
    else none

/-- Reads a complete numeral: an optional sign, digits with at most one point among or beside them,
and an optional exponent. -/
def parse (cs : List Char) : Option Double :=
  let (negative, body) := takeSign cs
  let whole := body.takeWhile Char.isDigit
  let rest := body.dropWhile Char.isDigit
  let fraction := match rest with
    | '.' :: cs => cs.takeWhile Char.isDigit
    | _ => []
  let rest := match rest with
    | '.' :: cs => cs.dropWhile Char.isDigit
    | _ => rest
  if whole.isEmpty && fraction.isEmpty then none
  else (exponentValue? rest).map fun e =>
    ofDecimal negative (digitsValue (whole ++ fraction)) (e - fraction.length)

/-- Whether a character may stand in a numeral. -/
def isNumeralChar (c : Char) : Bool := c.isDigit || c ∈ ['.', '-', '+', 'e', 'E']

/-- The number that a text starts with: of its leading run of numeral characters the longest part
that is a complete numeral. A text that starts with none gives the NaN. -/
def parsePrefixOf (s : String) : Double :=
  let run := (Text.trimStart s.toList).takeWhile isNumeralChar
  ((List.range run.length).findSome? fun i => parse (run.take (run.length - i))).getD nan

end Double

/-- A natural number below `bound` from its decimal digits, with an optional plus sign. -/
def naturalOf? (s : String) (bound : Nat) : Option Nat :=
  let cs := match s.toList with
    | '+' :: cs => cs
    | cs => cs
  if !cs.isEmpty && cs.all Char.isDigit && decide (Double.digitsValue cs < bound) then
    some (Double.digitsValue cs)
  else none

end ScriptHost
