import ScriptHost.Engine.Basic
import ScriptHost.Number.Rounding

/-!
# Values of the form engine

The form engine is an engine whose scripts are JSON texts. Its values are primitives and objects;
an object is known by its place in a heap that all engines of a host share.

## Main definitions

* `Script.Value`: the values.
* `Script.Value.truthy`, `Script.Value.same`, `Script.Value.asNumber`: reading them.
-/

namespace ScriptHost.Script

/-- A value. -/
inductive Value where
  /-- The undefined value. -/
  | undefined
  /-- A truth value. -/
  | bool (b : Bool)
  /-- A number. -/
  | number (x : Double)
  /-- A text. -/
  | string (s : String)
  /-- The object at a place of the heap. -/
  | object (place : Nat)
deriving DecidableEq

namespace Value

instance : Inhabited Value := ⟨undefined⟩

/-- Whether a value is the undefined one. -/
def isUndefined : Value → Bool
  | undefined => true
  | _ => false

/-- The number that a value is. -/
def asNumber : Value → Option Double
  | number x => some x
  | _ => none

/-- The text that a value is. -/
def asString : Value → Option String
  | string s => some s
  | _ => none

/-- A value as a number; one that is not a number counts as the NaN. -/
def toNumber (v : Value) : Double := v.asNumber.getD .nan

/-- Whether a value counts as true. -/
def truthy : Value → Bool
  | undefined => false
  | bool b => b
  | number x => !x.isNaN && !x.isZero
  | string s => !s.isEmpty
  | object _ => true

/-- Whether two values are the same: objects by identity, numbers by value, so that the NaN is not
the same as itself and the two zeros are. -/
def same : Value → Value → Bool
  | number x, number y => x.equal y
  | v, w => v == w

end Value

end ScriptHost.Script
