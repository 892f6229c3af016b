import ScriptHost.Host.Action

/-!
# Paths for scripts

The functions of the module `path`. They work on texts alone; only where a relative path needs a
place to start from does the working directory come in.

## Main definitions

* `PathFunction.result`: what a function answers.
* `PathFunction.invoke`: the functions.
-/

namespace ScriptHost.PathFunction

variable {E : Engine}

/-- The name of a function as messages have it. -/
def label : PathFunction → String
  | .basename => "path.basename"
  | .dirname => "path.dirname"
  | .extname => "path.extname"
  | .isAbsolute => "path.isAbsolute"
  | .join => "path.join"
  | .normalize => "path.normalize"
  | .resolve => "path.resolve"
  | .relative => "path.relative"

/-- What a function answers where relative paths start from `cwd`. -/
def result (cwd : String) (f : PathFunction) (args : List E.Value) : Except Fault E.Value :=
  let path := Arguments.string E args 0 f.label "path"
  match f with
  | .basename => do
    let path ← path
    let ext ← Arguments.optionalString E args 1 f.label "ext"
    return E.string (Path.basename path ext)
  | .dirname => path.map fun p => E.string (Path.dirname p)
  | .extname => path.map fun p => E.string (Path.extname p)
  | .isAbsolute => path.map fun p => E.boolean (Path.isAbsolute p)
  | .join => (Arguments.strings E args f.label).map fun ps => E.string (Path.join ps)
  | .normalize => path.map fun p => E.string (Path.normalize p)
  | .resolve => (Arguments.strings E args f.label).map fun ps => E.string (Path.resolveFrom cwd ps)
  | .relative => do
    let source ← Arguments.string E args 0 f.label "from"
    let target ← Arguments.string E args 1 f.label "to"
    return E.string (Path.relativeFrom cwd source target)

/-- The functions on paths. -/
def invoke (f : PathFunction) (args : List E.Value) : HostAction E E.Value := do
  Action.ofExcept (f.result (← HostAction.ask Platform.resolutionBase) args)

end ScriptHost.PathFunction
