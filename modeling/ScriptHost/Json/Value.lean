import ScriptHost.Number.Rounding

/-!
# JSON values

## Main definitions

* `Json`: a JSON value. A number written without point and exponent is kept as an integer.
* `Json.member?`: a member of an object by its name, the last one of several.
-/

namespace ScriptHost

/-- A JSON value. -/
inductive Json where
  /-- `null` -/
  | null
  /-- `true` or `false` -/
  | bool (b : Bool)
  /-- A number without point and exponent. -/
  | int (n : Int)
  /-- Any other number. -/
  | float (x : Double)
  /-- A text. -/
  | string (s : String)
  /-- A list of values. -/
  | array (items : List Json)
  /-- Named members in the order in which they were written. -/
  | object (members : List (String × Json))

namespace Json

instance : Inhabited Json := ⟨null⟩

/-- The member of a name; of several the last one counts. -/
def member? (name : String) : Json → Option Json
  | object members => members.reverse.lookup name
  | _ => none

/-- A text. -/
def asString? : Json → Option String
  | string s => some s
  | _ => none

/-- The items of an array. -/
def asArray? : Json → Option (List Json)
  | array items => some items
  | _ => none

/-- An integer. -/
def asInt? : Json → Option Int
  | int n => some n
  | _ => none

/-- A truth value. -/
def asBool? : Json → Option Bool
  | bool b => some b
  | _ => none

/-- A number as a script number. -/
def asDouble? : Json → Option Double
  | int n => some (.ofInt n)
  | float x => some x
  | _ => none

/-- A number as it is answered: an integer up to `2 ^ 53` as such, a special number by its name and
any other by its word. -/
def ofDouble (x : Double) : Json :=
  let special (name : String) := object [("num", string name)]
  if x.isNaN then special "NaN"
  else if x.isInfinite then special (if x.negative then "-Infinity" else "Infinity")
  else if x.isZero && x.negative then special "-0"
  else if x.isIntegral && x.integerPart.natAbs ≤ Nat.pow 2 53 then int x.integerPart
  else
    let word := x.toBits.toNat
    object [("bits", string (String.ofList ((List.range 16).map fun i =>
      Nat.digitChar (word / Nat.pow 16 (15 - i) % 16))))]

end Json

end ScriptHost
