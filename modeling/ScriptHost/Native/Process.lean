import ScriptHost.Host.Action
import ScriptHost.Native.Failures

/-!
# The process object

What scripts learn of the process and how they leave it: a queue of callbacks that run before the
next timer, the exit code, and the working directory.

## Main definitions

* `ProcessFunction.exitCodeOf`: the exit code that a number asks for.
* `ProcessFunction.invoke`: the functions of the process object.
* `ProcessFunction.makeObject`: the process object.
-/

namespace ScriptHost.ProcessFunction

variable {E : Engine}

/-- The largest exit code. -/
def maxExitCode : Int := Int.pow 2 31 - 1

/-- The smallest exit code. -/
def minExitCode : Int := -Int.pow 2 31

/-- The exit code that a number asks for: its integer part, cut down to 32 bits with a sign; zero
for the NaN. -/
def exitCodeOf (x : Double) : Int :=
  if x.isNaN then 0
  else if x.isInfinite then (if x.negative then minExitCode else maxExitCode)
  else max minExitCode (min x.integerPart maxExitCode)

/-- Queues the first argument. -/
def queue (args : List E.Value) : HostAction E E.Value := do
  let callback ← HostAction.argument fun s =>
    Arguments.callable E s args 0 "process.nextTick" "callback"
  let _ ← HostAction.scheduling fun s l => s.nextTick l callback
  return E.undefined

/-- The exit code in the arguments; zero if it is left out. -/
def exitArgument (args : List E.Value) : Except Fault Int :=
  match args.head? with
  | none => .ok 0
  | some v =>
    if E.isUndefined v then .ok 0
    else (Arguments.number E args 0 "process.exit" "code").map exitCodeOf

/-- Records the exit code and asks the loop to stop. -/
def leave (args : List E.Value) : HostAction E E.Value := do
  let code ← Action.ofExcept (exitArgument args)
  let id ← HostAction.attached
  Action.modify fun h => h.exit id code
  return E.undefined

/-- The working directory. -/
def workingDirectory : HostAction E E.Value := do
  match ← HostAction.ask Platform.workingDirectory with
  | .ok dir => return E.string dir
  | .error failure => (Failures.raise failure "uv_cwd" "" : EngineAction E E.Value)

/-- The functions of the process object. -/
def invoke : ProcessFunction → List E.Value → HostAction E E.Value
  | .nextTick, args => queue args
  | .exit, args => leave args
  | .cwd, _ => workingDirectory

/-- Makes the process object. -/
def makeObject (config : Config) (p : Platform) : EngineAction E E.Value := do
  let object ← EngineAction.newObject
  let argv ← EngineAction.newArray (config.argv.map E.string)
  EngineAction.defineValue object "argv" argv
  let env ← EngineAction.newObject
  EngineAction.defineValues env (p.environment.rows.map fun v => (v.1, E.string v.2))
  EngineAction.defineValues object
    [("env", env), ("pid", E.number (.ofNat p.machine.processId)),
     ("platform", E.string Platform.name), ("arch", E.string Platform.architecture),
     ("version", E.string ("v" ++ Platform.version))]
  EngineAction.defineFunctions object Export.process
  return object

end ScriptHost.ProcessFunction
