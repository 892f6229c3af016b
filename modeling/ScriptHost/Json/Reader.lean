import ScriptHost.Json.Value
import ScriptHost.Bytes.Encoding
import ScriptHost.Number.Text

/-!
# Reading JSON text

A strict reader of JSON text. Values may be nested `Json.maxDepth` levels deep. A text that is only
passed over is read loosely: its grammar counts, while the nesting, the size of its numbers and
the pairing of its surrogates do not.

## Main definitions

* `Json.Mode`: whether a value is kept or passed over.
* `Json.value?`: one value and what follows it.
* `Json.parse?`: a complete text.
-/

namespace ScriptHost.Json

/-- How a value is read. -/
inductive Mode where
  /-- The value is kept. -/
  | keep
  /-- The value is passed over. -/
  | pass
deriving DecidableEq

/-- The levels of arrays and objects that a value may have. -/
def maxDepth : Nat := 127

/-- The text without leading spaces, tabs and line ends. -/
def skipBlank (cs : List Char) : List Char :=
  cs.dropWhile fun c => c == ' ' || c == '\n' || c == '\t' || c == '\r'

/-! ### Strings -/

/-- A code unit of four hexadecimal digits, and what follows. -/
def unit? : List Char → Option (Nat × List Char)
  | a :: b :: c :: d :: cs => do
    let a ← Bytes.hexValue? a
    let b ← Bytes.hexValue? b
    let c ← Bytes.hexValue? c
    let d ← Bytes.hexValue? d
    return (a * 0x1000 + b * 0x100 + c * 0x10 + d, cs)
  | _ => none

/-- The character of an escaped code unit, with the second unit of a surrogate pair taken from what
follows. -/
def scalar? (mode : Mode) (u : Nat) (cs : List Char) : Option (Char × List Char) :=
  if u < 0xd800 ∨ 0xdfff < u then some (Char.ofNat u, cs)
  else if mode = .pass then some ('\ufffd', cs)
  else if 0xdc00 ≤ u then none
  else
    match cs with
    | '\\' :: 'u' :: cs => do
      let (v, cs) ← unit? cs
      if 0xdc00 ≤ v ∧ v ≤ 0xdfff then
        some (Char.ofNat (0x10000 + (u - 0xd800) * 0x400 + (v - 0xdc00)), cs)
      else none
    | _ => none

/-- The character of a one-letter escape. -/
def escape? : Char → Option Char
  | '"' => some '"'
  | '\\' => some '\\'
  | '/' => some '/'
  | 'b' => some '\x08'
  | 'f' => some '\x0c'
  | 'n' => some '\n'
  | 'r' => some '\r'
  | 't' => some '\t'
  | _ => none

/-- The characters of a string up to its closing quote, last first, and what follows; at most `fuel`
characters are read. -/
def chars? (mode : Mode) : Nat → List Char → List Char → Option (List Char × List Char)
  | 0, _, _ => none
  | _ + 1, _, [] => none
  | fuel + 1, acc, c :: cs =>
    if c = '"' then some (acc, cs)
    else if c = '\\' then
      match cs with
      | 'u' :: cs => do
        let (u, cs) ← unit? cs
        let (c, cs) ← scalar? mode u cs
        chars? mode fuel (c :: acc) cs
      | c :: cs => do
        let c ← escape? c
        chars? mode fuel (c :: acc) cs
      | [] => none
    else if c.toNat < 0x20 then none
    else chars? mode fuel (c :: acc) cs

/-- A string behind its opening quote, and what follows. -/
def string? (mode : Mode) (cs : List Char) : Option (String × List Char) :=
  (chars? mode (cs.length + 1) [] cs).map fun r => (String.ofList r.1.reverse, r.2)

/-! ### Numbers -/

/-- The digits that a text starts with, and what follows. -/
def digits (cs : List Char) : List Char × List Char :=
  (cs.takeWhile Char.isDigit, cs.dropWhile Char.isDigit)

/-- The fraction behind a point, if there is a point; it must have a digit. -/
def fraction? : List Char → Option (Option (List Char) × List Char)
  | '.' :: cs =>
    let (ds, cs) := digits cs
    if ds.isEmpty then none else some (some ds, cs)
  | cs => some (none, cs)

/-- The exponent, if there is one; it must have a digit. -/
def exponent? : List Char → Option (Option Int × List Char)
  | c :: cs =>
    if c = 'e' ∨ c = 'E' then
      let (negative, cs) := Double.takeSign cs
      let (ds, cs) := digits cs
      if ds.isEmpty then none
      else
        let n : Int := Double.digitsValue ds
        some (some (if negative then -n else n), cs)
    else some (none, c :: cs)
  | [] => some (none, [])

/-- The value of a number by its parts. An integer beyond 64 bits and a negative zero are floats,
and a number too large for a float has no value. -/
def numeral? (mode : Mode) (negative : Bool) (whole : List Char) (fraction : Option (List Char))
    (exponent : Option Int) : Option Json :=
  let float (x : Double) : Option Json :=
    if x.isFinite || mode = .pass then some (.float x) else none
  if fraction.isNone && exponent.isNone then
    let n := Double.digitsValue whole
    if negative then
      if n = 0 then some (.float .negativeZero)
      else if n ≤ Nat.pow 2 63 then some (.int (-n))
      else float (.ofDecimal true n 0)
    else if n < Nat.pow 2 64 then some (.int n)
    else float (.ofDecimal false n 0)
  else
    let ds := fraction.getD []
    float (.ofDecimal negative (Double.digitsValue (whole ++ ds)) (exponent.getD 0 - ds.length))

/-- A number, and what follows. A leading zero must be the only digit before the point. -/
def number? (mode : Mode) (cs : List Char) : Option (Json × List Char) := do
  let (negative, cs) := match cs with
    | '-' :: cs => (true, cs)
    | cs => (false, cs)
  let (whole, cs) := digits cs
  if whole.isEmpty || (whole.head? == some '0' && 1 < whole.length) then none
  let (fraction, cs) ← fraction? cs
  let (exponent, cs) ← exponent? cs
  let v ← numeral? mode negative whole fraction exponent
  return (v, cs)

/-! ### Values -/

/-- What follows the word `w`, if the text starts with it. -/
def word? (w : String) (cs : List Char) : Option (List Char) :=
  if w.toList.isPrefixOf cs then some (cs.drop w.length) else none

mutual

/-- One value after blanks, and what follows it. `depth` levels may be opened; `fuel` bounds the
recursion. -/
def value? (mode : Mode) : Nat → Nat → List Char → Option (Json × List Char)
  | 0, _, _ => none
  | fuel + 1, depth, cs =>
    match skipBlank cs with
    | [] => none
    | c :: cs =>
      if c = 'n' then (word? "ull" cs).map fun cs => (.null, cs)
      else if c = 't' then (word? "rue" cs).map fun cs => (.bool true, cs)
      else if c = 'f' then (word? "alse" cs).map fun cs => (.bool false, cs)
      else if c = '"' then (string? mode cs).map fun r => (.string r.1, r.2)
      else if c = '[' then
        if depth = 0 && mode = .keep then none
        else
          match skipBlank cs with
          | ']' :: cs => some (.array [], cs)
          | cs => items? mode fuel (depth - 1) [] cs
      else if c = '\x7b' then
        if depth = 0 && mode = .keep then none
        else
          match skipBlank cs with
          | '\x7d' :: cs => some (.object [], cs)
          | cs => members? mode fuel (depth - 1) [] cs
      else number? mode (c :: cs)

/-- The items of an array up to its end, those read so far last first. -/
def items? (mode : Mode) : Nat → Nat → List Json → List Char → Option (Json × List Char)
  | 0, _, _, _ => none
  | fuel + 1, depth, acc, cs =>
    match value? mode fuel depth cs with
    | none => none
    | some (v, cs) =>
      match skipBlank cs with
      | ',' :: cs => items? mode fuel depth (v :: acc) cs
      | ']' :: cs => some (.array (v :: acc).reverse, cs)
      | _ => none

/-- The members of an object up to its end, those read so far last first. -/
def members? (mode : Mode) :
    Nat → Nat → List (String × Json) → List Char → Option (Json × List Char)
  | 0, _, _, _ => none
  | fuel + 1, depth, acc, cs =>
    match skipBlank cs with
    | '"' :: cs =>
      match string? mode cs with
      | none => none
      | some (k, cs) =>
        match skipBlank cs with
        | ':' :: cs =>
          match value? mode fuel depth cs with
          | none => none
          | some (v, cs) =>
            match skipBlank cs with
            | ',' :: cs => members? mode fuel depth ((k, v) :: acc) cs
            | '\x7d' :: cs => some (.object ((k, v) :: acc).reverse, cs)
            | _ => none
        | _ => none
    | _ => none

end

/-- A recursion bound that a text of this length does not reach. -/
def fuelFor (cs : List Char) : Nat := 2 * cs.length + 2

/-- The value of a complete text. -/
def parse? (s : String) : Option Json :=
  let cs := s.toList
  match value? .keep (fuelFor cs) maxDepth cs with
  | some (v, rest) => if (skipBlank rest).isEmpty then some v else none
  | none => none

end ScriptHost.Json
