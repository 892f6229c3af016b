/-!
# Script numbers

A script number is a double of IEEE 754, held here as its three fields. A finite double is a whole
multiple of `2 ^ -1074`, so every rule on numbers in this library is a rule on the integer
`Double.units` that counts these; nothing is rounded unless a rule says so
(`ScriptHost.Number.Rounding`).

## Main definitions

* `Double`: sign, exponent and fraction; `Double.ofBits`, `Double.toBits` read and write the word.
* `Double.units`: a finite double in multiples of `2 ^ -1074`.
* `Double.integerPart`, `Double.isIntegral`: the integer part, towards zero.
* `Double.lt`, `Double.equal`: the order and equality of numbers, false of a NaN.
-/

namespace ScriptHost

/-- A double: its sign, its biased exponent and the fraction below the leading bit. -/
structure Double where
  /-- Whether the sign bit is set. -/
  negative : Bool
  /-- The biased exponent. -/
  exponent : Fin 2048
  /-- The fraction field. -/
  fraction : Fin (Nat.pow 2 52)
deriving DecidableEq

namespace Double

/-- Positive zero. -/
def zero : Double := ⟨false, 0, 0⟩

/-- Negative zero. -/
def negativeZero : Double := ⟨true, 0, 0⟩

/-- The one. -/
def one : Double := ⟨false, 1023, 0⟩

/-- The double of a sign and of the lowest bits of two numbers, as many as its fields have. -/
def ofFields (negative : Bool) (exponent fraction : Nat) : Double :=
  ⟨negative, Fin.ofNat 2048 exponent, Fin.ofNat (Nat.pow 2 52) fraction⟩

/-- The quiet NaN. -/
def nan : Double := ofFields false 2047 (Nat.pow 2 51)

/-- An infinity of the given sign. -/
def infinity (negative : Bool) : Double := ⟨negative, 2047, 0⟩

instance : Inhabited Double := ⟨zero⟩

/-- The double of a 64-bit word. -/
def ofBits (w : UInt64) : Double :=
  ofFields (decide (Nat.pow 2 63 ≤ w.toNat)) (w.toNat / Nat.pow 2 52) w.toNat

/-- The 64-bit word of a double. -/
def toBits (x : Double) : UInt64 :=
  UInt64.ofNat ((if x.negative then Nat.pow 2 63 else 0) + x.exponent.val * Nat.pow 2 52 +
    x.fraction.val)

/-! ### Classes -/

/-- Neither infinite nor a NaN. -/
def isFinite (x : Double) : Bool := x.exponent.val < 2047

/-- Not a number. -/
def isNaN (x : Double) : Bool := x.exponent.val == 2047 && x.fraction.val != 0

/-- One of the two infinities. -/
def isInfinite (x : Double) : Bool := x.exponent.val == 2047 && x.fraction.val == 0

/-- One of the two zeros. -/
def isZero (x : Double) : Bool := x.exponent.val == 0 && x.fraction.val == 0

/-! ### The value of a finite double -/

/-- How many multiples of `2 ^ -1074` make one. -/
def unitsPerOne : Nat := Nat.pow 2 1074

/-- The significand with its leading bit. -/
def significand (x : Double) : Nat :=
  if x.exponent.val = 0 then x.fraction.val else Nat.pow 2 52 + x.fraction.val

/-- The weight of the last bit of the significand, as a power of two times `2 ^ -1074`. -/
def scale (x : Double) : Nat := x.exponent.val - 1

/-- The absolute value of a finite double in multiples of `2 ^ -1074`. -/
def magnitude (x : Double) : Nat := x.significand * Nat.pow 2 x.scale

/-- A finite double in multiples of `2 ^ -1074`. -/
def units (x : Double) : Int := if x.negative then -(x.magnitude : Int) else x.magnitude

/-- The integer part of a finite double: its value truncated towards zero. -/
def integerPart (x : Double) : Int := x.units.tdiv unitsPerOne

/-- Whether a finite double is a whole number. -/
def isIntegral (x : Double) : Bool := x.magnitude % unitsPerOne == 0

/-! ### Order -/

/-- A rank that orders the doubles that are numbers: an infinity lies beyond every finite value. -/
def rank (x : Double) : Int :=
  if x.isFinite then x.units else if x.negative then -Int.pow 2 2200 else Int.pow 2 2200

/-- The order of numbers; a NaN is neither below nor above. -/
def lt (x y : Double) : Bool := !x.isNaN && !y.isNaN && decide (x.rank < y.rank)

/-- Equality of numbers: the two zeros are equal, and a NaN equals nothing. -/
def equal (x y : Double) : Bool := !x.isNaN && !y.isNaN && decide (x.rank = y.rank)

/-- Whether a number lies above the integer `n`. -/
def exceeds (x : Double) (n : Int) : Bool := !x.isNaN && decide (n * unitsPerOne < x.rank)

/-- Whether a number is at least the integer `n`. -/
def atLeast (x : Double) (n : Int) : Bool := !x.isNaN && decide (n * unitsPerOne ≤ x.rank)

end Double

end ScriptHost
