import ScriptHost.Engine.Action
import ScriptHost.Number.Rounding

/-!
# Exceptions of the operating system

Every native function that touches the operating system reports its failures in one way: an error
object with the description of the error number as its message, carrying the number, its symbol if
there is one, and the operation and the path as far as they are known.

## Main definitions

* `Failures.systemError`: the error object for an error number.
* `Failures.errorOf`: the error object for a failed operation.
* `Failures.raise`: throws it.
-/

namespace ScriptHost.Failures

variable {E : Engine}

/-- The texts among the properties of the error object: symbol, operation and path, empty ones left
out. -/
def details (errno : Int) (operation path : String) : List (String × String) :=
  (Errno.symbol? errno).toList.map (fun s => ("code", s)) ++
    (if operation.isEmpty then [] else [("syscall", operation)]) ++
    (if path.isEmpty then [] else [("path", path)])

/-- Makes the error object for an error number. A property that cannot be written ends it with what
the engine has thrown. -/
def systemError (errno : Int) (operation path : String) : EngineAction E E.Value := do
  let error ← EngineAction.newError .error (Errno.description errno)
  EngineAction.defineValue error "errno" (E.number (.ofInt errno))
  EngineAction.defineValues error
    ((details errno operation path).map fun d => (d.1, E.string d.2))
  return error

/-- Makes the error object for a failed operation. A failure outside the operating system has its
own message and the number of an input or output error, and nothing else. -/
def errorOf (failure : IoFailure) (operation path : String) : EngineAction E E.Value :=
  match failure with
  | .system errno => systemError errno operation path
  | .other reason => do
    let error ← EngineAction.newError .error reason
    EngineAction.defineValue error "errno" (E.number (.ofInt Errno.inputOutput))
    return error

/-- Throws the error object for a failed operation. -/
def raise {α : Type} (failure : IoFailure) (operation path : String) : EngineAction E α := do
  let error ← errorOf failure operation path
  Action.throw (.thrown error)

end ScriptHost.Failures
