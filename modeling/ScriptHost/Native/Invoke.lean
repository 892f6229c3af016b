import ScriptHost.Module.Loading
import ScriptHost.Native.Buffers
import ScriptHost.Native.Files
import ScriptHost.Native.Paths
import ScriptHost.Native.Process
import ScriptHost.Native.Rendering
import ScriptHost.Native.System
import ScriptHost.Native.Timers

/-!
# Calls of native functions

A native function acts on the host and then either has its result, or needs a script to be run: the
body of a module, or the function that renders an object.

## Main definitions

* `Reply`: what a call leads to.
* `Loading.require`: loading a module.
* `Native.invoke`: calling a native function.
-/

namespace ScriptHost

/-- What a call of a native function leads to. -/
inductive Reply (E : Engine) where
  /-- The result. -/
  | value (v : E.Value)
  /-- The body of a module is to be evaluated. -/
  | evaluate (l : Loading E.Value) (scope : ModuleScope E.Value)
  /-- Values are to be rendered. -/
  | render (r : Rendering E.Value)

variable {E : Engine}

namespace Loading

/-- The function of a runtime that loads modules. -/
def requireFunction (owner : RuntimeId) : HostAction E E.Value := fun _ h =>
  (.ok (((h.runtimes.get? owner).map Runtime.requireFunction).getD E.undefined), h)

/-- Loads a module: its exports, or the evaluation that they wait for. -/
def require (owner : RuntimeId) (q : Question) : HostAction E (Reply E) := do
  match ← find owner q with
  | .native exports => return .value exports
  | .object object => return .value (← exportsOf object)
  | .resolved m =>
    let (l, scope) ← enter owner m (← requireFunction owner)
    return .evaluate l scope

end Loading

/-- The question in the arguments of a function on modules. -/
def ModuleFunction.question (function : String) (args : List E.Value) :
    Except Fault Question := do
  let specifier ← Arguments.string E args 0 function "id"
  let dir ← Arguments.optionalString E args 1 function "contextDir"
  return ⟨specifier, dir⟩

/-- The functions on modules. -/
def ModuleFunction.invoke : ModuleFunction → List E.Value → HostAction E (Reply E)
  | .require, args => do
    let q ← Action.ofExcept (question "require" args)
    Loading.require (← HostAction.attached) q
  | .resolve, args => do
    let q ← Action.ofExcept (question "require.resolve" args)
    return .value (E.string (← Loading.resolve (← HostAction.attached) q))

/-- The functions on values. -/
def UtilFunction.invoke (f : UtilFunction) (args : List E.Value) : HostAction E (Reply E) :=
  match f with
  | .format => return .render ⟨Rendering.lineOf E args, "", .result⟩
  | .inspect =>
    let pieces := match args with
      | [] => [.literal "undefined"]
      | v :: _ => [.argument .object v]
    return .render ⟨pieces, "", .result⟩
  | .isFunction => fun _ h =>
    (.ok (.value (E.boolean (args.head?.any (E.isCallable h.engines)))), h)
  | .isNumber => return .value (E.boolean (args.head?.any fun v => (E.asNumber v).isSome))
  | .isString => return .value (E.boolean (args.head?.any fun v => (E.asString v).isSome))
  | .isUndefined => return .value (E.boolean (args.head?.all E.isUndefined))

/-- Calls a native function. -/
def Native.invoke (f : Native) (this : E.Value) (args : List E.Value) : HostAction E (Reply E) :=
  match f with
  | .timer f => return .value (← f.invoke args)
  | .module f => f.invoke args
  | .process f => return .value (← f.invoke args)
  | .print stream => return .render ⟨Rendering.lineOf E args, "", .line stream⟩
  | .buffer f => return .value (← (Buffers.invoke f this args : EngineAction E E.Value))
  | .file f => return .value (← f.invoke args)
  | .system f => return .value (← f.invoke)
  | .path f => return .value (← f.invoke args)
  | .util f => f.invoke args

end ScriptHost
