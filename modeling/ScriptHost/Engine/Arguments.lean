import ScriptHost.Engine.Action

/-!
# Arguments of native functions

Checks on the arguments of a native function. A missing argument is told from one of a wrong kind,
except where an argument may be left out; then `undefined` counts as left out.

## Main definitions

* `Arguments.callable`, `Arguments.number`, `Arguments.string`: an argument of a kind.
* `Arguments.optionalString`: a text that may be left out.
* `Arguments.strings`: all arguments as texts.
-/

namespace ScriptHost.Arguments

variable (E : Engine)

/-- Too few arguments. -/
def missing (function : String) : Fault := .badArgument (function ++ ": missing arguments")

/-- An argument of a wrong kind. -/
def wrong (function name kind : String) : Fault :=
  .badArgument (function ++ ": " ++ name ++ " must be a " ++ kind)

/-- The argument at an index, if it can be called. -/
def callable (s : E.State) (args : List E.Value) (index : Nat) (function name : String) :
    Except Fault E.Value :=
  match args[index]? with
  | some v => if E.isCallable s v then .ok v else .error (wrong function name "function")
  | none => .error (missing function)

/-- The argument at an index as a number. -/
def number (args : List E.Value) (index : Nat) (function name : String) : Except Fault Double :=
  match args[index]? with
  | some v =>
    match E.asNumber v with
    | some x => .ok x
    | none => .error (wrong function name "number")
  | none => .error (missing function)

/-- The argument at an index as a text. -/
def string (args : List E.Value) (index : Nat) (function name : String) : Except Fault String :=
  match args[index]? with
  | some v =>
    match E.asString v with
    | some x => .ok x
    | none => .error (wrong function name "string")
  | none => .error (missing function)

/-- The argument at an index as a text, if there is one. -/
def optionalString (args : List E.Value) (index : Nat) (function name : String) :
    Except Fault (Option String) :=
  match args[index]? with
  | none => .ok none
  | some v => if E.isUndefined v then .ok none else (string E args index function name).map some

/-- Every argument as a text. -/
def strings (args : List E.Value) (function : String) : Except Fault (List String) :=
  args.mapM fun v =>
    match E.asString v with
    | some x => .ok x
    | none => .error (wrong function "path" "string")

end ScriptHost.Arguments
