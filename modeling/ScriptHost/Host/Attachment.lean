import ScriptHost.Native.Invoke

/-!
# Attaching runtimes

Attaching a runtime to an engine registers it under the identity of the engine, makes the native
modules and installs the global objects. An exception on the way takes the registration back.

## Main definitions

* `NativeModule`: the native modules, and how their exports are made.
* `Install.globals`: what is installed on the global object.
* `Host.attach`, `Host.attachFiles`: attaching a runtime with a resolver, or with that of the files.
* `Host.drop`: taking the runtime of an engine away.
-/

namespace ScriptHost

variable {E : Engine}

/-- The native modules. -/
inductive NativeModule where
  /-- Files. -/
  | files
  /-- The operating system. -/
  | system
  /-- Paths. -/
  | paths
  /-- Values. -/
  | util
deriving DecidableEq

namespace NativeModule

/-- The id of a native module. -/
def id : NativeModule → String
  | files => "fs"
  | system => "os"
  | paths => "path"
  | util => "util"

/-- The native modules in the order in which they are made. -/
def all : List NativeModule := [files, system, paths, util]

/-- The native module of an id. -/
def ofId? (s : String) : Option NativeModule := all.find? fun m => m.id = s

/-- The texts among the exports of a native module. -/
def texts : NativeModule → List (String × String)
  | system => [("EOL", Platform.lineEnd)]
  | paths => [("sep", Path.separator), ("delimiter", Path.delimiter)]
  | files | util => []

/-- The functions among the exports of a native module. -/
def functions : NativeModule → List Export
  | files => Export.files
  | system => Export.system
  | paths => Export.paths
  | util => Export.util

/-- Makes the exports of a native module. -/
def make (m : NativeModule) : EngineAction E E.Value := do
  let exports ← EngineAction.newObject
  EngineAction.defineValues exports (m.texts.map fun t => (t.1, E.string t.2))
  EngineAction.defineFunctions exports m.functions
  return exports

end NativeModule

namespace Install

/-- Makes an object of functions. -/
def objectOf (functions : List Export) : EngineAction E E.Value := do
  let object ← EngineAction.newObject
  EngineAction.defineFunctions object functions
  return object

/-- Makes the native modules of a runtime. -/
def natives (owner : RuntimeId) : List NativeModule → HostAction E Unit
  | [] => return
  | m :: ms => do
    let exports ← (m.make : EngineAction E E.Value)
    Loading.changeTables owner fun t => (t.registerNative? m.id exports).getD t
    natives owner ms

/-- Installs the global objects of a runtime. -/
def globals (config : Config) (platform : Platform) (require : E.Value) : EngineAction E Unit := do
  let global ← Action.ofState fun seat s => (E.globalObject seat s, s)
  EngineAction.defineFunctions global Export.timers
  EngineAction.defineFunction require .resolve
  EngineAction.defineValue global "require" require
  EngineAction.defineValue global "process" (← ProcessFunction.makeObject config platform)
  EngineAction.defineValue global "console" (← objectOf Export.console)
  EngineAction.defineValue global "Buffer" (← Buffers.makeClass)
  EngineAction.defineValue global "global" global

/-- Makes the native modules of a runtime and installs its global objects. -/
def runtime (owner : RuntimeId) (config : Config) (require : E.Value) : HostAction E Unit := do
  natives owner NativeModule.all
  let platform ← HostAction.ask fun p => p
  (globals config platform require : EngineAction E Unit)

end Install

/-- What attaching a runtime leads to. -/
inductive Attachment (V : Type) where
  /-- The runtime is attached. -/
  | attached
  /-- An exception has prevented it. -/
  | failed (e : Exception V)
  /-- The engine has a runtime; the host says so. -/
  | clash (message : String)

namespace Host

/-- Takes the entry of an engine out of its registry, and the runtime away. -/
def detach (h : Host E) (seat : Seat) (id : RuntimeId) : Host E :=
  let h := h.withRegistry seat ((h.registry seat).unregister (h.profiles seat).identity)
  { h with runtimes := h.runtimes.erase id }

/-- Attaches a runtime with a resolver to an engine. -/
def attach (h : Host E) (seat : Seat) (config : Config) (resolver : Resolver) :
    Attachment E.Value × Host E :=
  let identity := (h.profiles seat).identity
  let id : RuntimeId := ⟨h.nextRuntime⟩
  let (require, engines) :=
    E.newFunction seat Export.require.name Export.require.arity Export.require.native h.engines
  let h := { h with engines }
  match (h.registry seat).register? identity id with
  | none => (.clash (Registry.clashMessage identity), h)
  | some registry =>
    let h := { h with nextRuntime := h.nextRuntime + 1 }
    let h := (h.withRegistry seat registry).put id (.fresh identity config resolver require)
    match Install.runtime id config require seat h with
    | (.ok (), h) => (.attached, { h with held := h.held.insert seat id })
    | (.error e, h) => (.failed e, h.detach seat id)

/-- Attaches a runtime that resolves modules from the files of the platform. -/
def attachFiles (h : Host E) (seat : Seat) (config : Config) : Attachment E.Value × Host E :=
  match config.baseDir with
  | some base => h.attach seat config (.ofFiles base)
  | none =>
    match h.platform.workingDirectory with
    | .ok base => h.attach seat config (.ofFiles base)
    | .error failure => (.failed (.fault (.files failure)), h)

/-- Takes the runtime of an engine away, if it has one. -/
def drop (h : Host E) (seat : Seat) : Host E :=
  match h.held.get? seat with
  | some id => { h.detach seat id with held := h.held.erase seat }
  | none => h

/-! ### Direct use of a runtime -/

/-- Starts a timer for the runtime of an engine. -/
def setTimer? (h : Host E) (id : RuntimeId) (kind : TimerKind) (callback : E.Value)
    (delay : Double) : Option (Except Fault TimerId × Host E) :=
  h.scheduling? id fun s l => s.setTimer l kind callback delay

/-- Cancels a timer. -/
def clearTimer? (h : Host E) (id : RuntimeId) (kind : TimerKind) (timer : TimerId) :
    Option (Unit × Host E) :=
  h.scheduling? id fun s l => ((), s.clearTimer l kind timer)

/-- Queues a callback before the next timer. -/
def nextTick? (h : Host E) (id : RuntimeId) (callback : E.Value) : Option (TickId × Host E) :=
  h.scheduling? id fun s l => s.nextTick l callback

end Host

end ScriptHost
