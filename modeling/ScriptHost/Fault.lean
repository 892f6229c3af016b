import ScriptHost.Errno

/-!
# Faults and exceptions

A fault is an error that the library itself raises. What reaches scripts is an exception: a fault
that still has to be made into a value, or a value that has been thrown.

## Main definitions

* `ErrorKind`: the constructors of script errors.
* `Fault`: an error of the library; `Fault.message` is its full text, `Fault.bare` the text that a
  script sees.
* `Exception`: a fault or a thrown value.
-/

namespace ScriptHost

/-- The constructors of script errors that the library uses. -/
inductive ErrorKind where
  /-- `Error` -/
  | error
  /-- `TypeError` -/
  | typeError
  /-- `RangeError` -/
  | rangeError
deriving DecidableEq

/-- The name of a constructor. -/
def ErrorKind.name : ErrorKind → String
  | error => "Error"
  | typeError => "TypeError"
  | rangeError => "RangeError"

/-- An error raised by the library. -/
inductive Fault where
  /-- A function was given too few arguments or one of a wrong type. -/
  | badArgument (message : String)
  /-- The host refused a resource. -/
  | resource (message : String)
  /-- No module is found for a specifier. -/
  | moduleNotFound (specifier : String)
  /-- A module is found but cannot be read. -/
  | moduleUnreadable (specifier reason : String)
  /-- An operation on files failed. -/
  | files (failure : IoFailure)
  /-- A configuration value cannot be used. -/
  | config (message : String)
  /-- A JSON text cannot be read. -/
  | json (reason : String)
  /-- Any other error. -/
  | other (message : String)
deriving DecidableEq

namespace Fault

/-- The full text of a fault. -/
def message : Fault → String
  | badArgument m => "TypeError: " ++ m
  | resource m => "Error: " ++ m
  | moduleNotFound s => "Cannot find module '" ++ s ++ "'"
  | moduleUnreadable s reason => "Error resolving module '" ++ s ++ "': " ++ reason
  | files e => "File system error: " ++ e.text
  | config m => "Invalid configuration: " ++ m
  | json reason => "JSON parse error: " ++ reason
  | other m => m

/-- The constructor of the script error for a fault. -/
def kind : Fault → ErrorKind
  | badArgument _ => .typeError
  | _ => .error

/-- The text of a fault without the name of a constructor in front. -/
def bare : Fault → String
  | badArgument m | resource m | other m => m
  | f => f.message

end Fault

/-- A failure on its way to a script. -/
inductive Exception (V : Type) where
  /-- A fault of the library. -/
  | fault (f : Fault)
  /-- A value that a script or the engine has thrown. -/
  | thrown (v : V)

/-- The text of an exception that nothing caught; thrown values are written by `display`. -/
def Exception.describe {V : Type} (display : V → String) : Exception V → String
  | .fault f => f.message
  | .thrown v => "Uncaught " ++ display v

end ScriptHost
