import ScriptHost.Native
import ScriptHost.Fault

/-!
# Script engines

The library owns no script engine. Everything it needs from one goes through `Engine`: values and
their properties, the running of scripts step by step, and the calls that scripts make of native
functions. A running script is a value that is handed from step to step, so that a run can be
stopped at a native call and taken up again with its result.

Several engines may live in one host. Each has a seat, and all of them share one state.

## Main definitions

* `Engine`: the interface of an engine.
* `ModuleScope`: what a module body is evaluated with.
* `Callee`, `Progress`: what a call leads to, and what a step of a script leads to.
-/

namespace ScriptHost

/-- The place of an engine among the engines of a host. -/
abbrev Seat := Nat

/-- What a module body is evaluated with. -/
structure ModuleScope (V : Type) where
  /-- The canonical id. -/
  id : String
  /-- The file of the module. -/
  filename : String
  /-- The directory of the module. -/
  dirname : String
  /-- The text of the module. -/
  source : String
  /-- The module object. -/
  module : V
  /-- The object that the exports are at first. -/
  exports : V
  /-- The function that loads modules, to be called with a specifier and the directory. -/
  require : V

/-- What calling a value leads to. -/
inductive Callee (V S : Type) where
  /-- A script that is to be run. -/
  | script (s : S)
  /-- A native function. -/
  | native (f : Native)
  /-- The value cannot be called: what is thrown. -/
  | refused (thrown : V)

/-- What a step of a script leads to. -/
inductive Progress (V S : Type) where
  /-- The script runs on. -/
  | running (s : S)
  /-- The script has ended with a value. -/
  | returned (v : V)
  /-- The script has ended by a throw. -/
  | threw (v : V)
  /-- The script calls a native function and goes on as `rest` once it has the result. -/
  | native (f : Native) (this : V) (args : List V) (rest : S)

/-- A script engine, seen by the library. -/
structure Engine where
  /-- The state shared by the engines of a host. -/
  State : Type
  /-- Script values. -/
  Value : Type
  /-- Running scripts. -/
  Script : Type
  /-- The undefined value. -/
  undefined : Value
  /-- A truth value. -/
  boolean : Bool → Value
  /-- A number. -/
  number : Double → Value
  /-- A text. -/
  string : String → Value
  /-- Whether a value is the undefined one. -/
  isUndefined : Value → Bool
  /-- The number that a value is, if it is one. -/
  asNumber : Value → Option Double
  /-- The text that a value is, if it is one. -/
  asString : Value → Option String
  /-- Whether a value counts as true. -/
  truthy : Value → Bool
  /-- Whether a value can be called. -/
  isCallable : State → Value → Bool
  /-- A value as a text. -/
  display : State → Value → String
  /-- The global object. -/
  globalObject : Seat → State → Value
  /-- Makes an object without properties. -/
  newObject : Seat → State → Value × State
  /-- Makes an array. -/
  newArray : Seat → List Value → State → Value × State
  /-- Makes a function with its name and its number of parameters out of a native one. -/
  newFunction : Seat → String → Nat → Native → State → Value × State
  /-- Makes an error object with its message. -/
  newError : Seat → ErrorKind → String → State → Value × State
  /-- Reads a property. -/
  getProperty : Seat → Value → String → State → Except Value Value × State
  /-- Writes a property. -/
  setProperty : Seat → Value → String → Value → State → Except Value Unit × State
  /-- What calling a value with `this` and arguments leads to. -/
  call : Seat → Value → Value → List Value → State → Callee Value Script × State
  /-- The evaluation of a module body. -/
  evaluate : Seat → ModuleScope Value → State → Script × State
  /-- The running of all queued microtasks. -/
  microtasks : Seat → State → Script × State
  /-- A step of a script. -/
  step : Seat → Script → State → Progress Value Script × State
  /-- The script that a native call left behind, taken up with the result. -/
  resume : Script → Except Value Value → Script

end ScriptHost
