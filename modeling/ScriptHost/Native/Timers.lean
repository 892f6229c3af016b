import ScriptHost.Host.Action
import ScriptHost.Number.Rounding

/-!
# Timers for scripts

The global functions that start and cancel timers. A script knows a timer by a number, its handle.
All arguments are checked before anything is changed.

## Main definitions

* `TimerFunction.start`: starting a timer of a kind.
* `TimerFunction.cancel`: cancelling one by its handle.
-/

namespace ScriptHost.TimerFunction

variable {E : Engine}

/-- The number that a script gets for a timer. -/
def handleOf (id : TimerId) : Double := .ofNat id.val

/-- Starts a timer that calls the first argument after the delay in the second. -/
def start (kind : TimerKind) (args : List E.Value) : HostAction E E.Value := do
  let callback ← HostAction.argument fun s => Arguments.callable E s args 0 kind.setter "callback"
  let delay ← Action.ofExcept (Arguments.number E args 1 kind.setter "delay")
  let id ← Action.ofExcept (← HostAction.scheduling fun s l => s.setTimer l kind callback delay)
  return E.number (handleOf id)

/-- Cancels the timer whose handle is the first argument. A number that is no handle names no
timer. -/
def cancel (kind : TimerKind) (args : List E.Value) : HostAction E E.Value := do
  let handle ← Action.ofExcept (Arguments.number E args 0 kind.clearer "id")
  HostAction.scheduling fun s l =>
    match TimerId.ofHandle? handle with
    | some id => ((), s.clearTimer l kind id)
    | none => ((), s, l)
  return E.undefined

/-- The functions on timers. -/
def invoke : TimerFunction → List E.Value → HostAction E E.Value
  | .set kind => start kind
  | .clear kind => cancel kind

end ScriptHost.TimerFunction
