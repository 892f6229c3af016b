import ScriptHost.Engine.Basic
import ScriptHost.Engine.Registry
import ScriptHost.Module.Table
import ScriptHost.Module.Resolver

/-!
# The state of a host

A host seats engines and attaches runtimes to them. Each engine has an identity and reads one
registry; the runtime registered there under the identity is the one that the native functions
called by the engine act on. Clock, files, streams and the numbering of timers are shared by all.

## Main definitions

* `Runtime`: what one runtime owns.
* `Host`: engines, platform, registries and runtimes.
* `Host.attached`: the runtime that an engine is attached to.
* `Host.scheduling?`: a change of the scheduler of a runtime together with its loop.
-/

namespace ScriptHost

/-- The name of a runtime among all that a host has made. -/
structure RuntimeId where
  /-- Its number. -/
  val : Nat
deriving DecidableEq

/-- What one runtime owns. -/
structure Runtime (E : Engine) where
  /-- The identity of the engine that it was made for. -/
  identity : EngineId
  /-- Its configuration. -/
  config : Config
  /-- The modules. -/
  modules : ModuleTable E.Value
  /-- The callbacks that are still to be run. -/
  scheduler : Scheduler E.Value
  /-- The event loop that the scheduler drives. -/
  loop : EventLoop
  /-- The resolver. -/
  resolver : Resolver
  /-- What the resolver has been asked, oldest question first. -/
  questions : List Question
  /-- The function that loads modules. -/
  requireFunction : E.Value
  /-- The exit code that has been recorded. -/
  exitCode : Option Int

/-- A runtime as it is made: nothing loaded, nothing pending. -/
def Runtime.fresh {E : Engine} (identity : EngineId) (config : Config) (resolver : Resolver)
    (requireFunction : E.Value) : Runtime E where
  identity := identity
  config := config
  modules := .empty
  scheduler := .empty
  loop := .ofCapacity config.maxTimers
  resolver := resolver
  questions := []
  requireFunction := requireFunction
  exitCode := none

/-- The code to exit with: the recorded one, or zero. -/
def Runtime.exitStatus {E : Engine} (r : Runtime E) : Int := r.exitCode.getD 0

/-- What a host knows of the engine at a seat. -/
structure Profile where
  /-- The identity of the engine. -/
  identity : EngineId
  /-- The number of the registry that it reads. -/
  registry : Nat

/-- A host. -/
structure Host (E : Engine) where
  /-- The state of the engines. -/
  engines : E.State
  /-- The surroundings. -/
  platform : Platform
  /-- The engines by their seats. -/
  profiles : Seat → Profile
  /-- The registries by their numbers. -/
  registries : Table Nat (Registry RuntimeId)
  /-- The runtimes that are alive. -/
  runtimes : Table RuntimeId (Runtime E)
  /-- The runtimes held for the engines at their seats. -/
  held : Table Seat RuntimeId
  /-- The number of the next runtime. -/
  nextRuntime : Nat
  /-- The number of the next timer of any runtime. -/
  nextTimer : Nat

namespace Host

variable {E : Engine} {α : Type}

/-- A host without runtimes. -/
def ofEngines (engines : E.State) (platform : Platform) (profiles : Seat → Profile) : Host E where
  engines := engines
  platform := platform
  profiles := profiles
  registries := .empty
  runtimes := .empty
  held := .empty
  nextRuntime := 1
  nextTimer := 1

/-- The registry that an engine reads. -/
def registry (h : Host E) (seat : Seat) : Registry RuntimeId :=
  (h.registries.get? (h.profiles seat).registry).getD .empty

/-- Writes the registry that an engine reads. -/
def withRegistry (h : Host E) (seat : Seat) (r : Registry RuntimeId) : Host E :=
  { h with registries := h.registries.insert (h.profiles seat).registry r }

/-- The runtime attached to an engine: the one registered under its identity, while it lives. -/
def attached (h : Host E) (seat : Seat) : Option RuntimeId :=
  (h.registry seat).lookup h.runtimes.contains (h.profiles seat).identity

/-- What an engine is told that has no runtime. -/
def detachedFault (identity : EngineId) : Fault :=
  .other ("no runtime attached to " ++ identity.text)

/-- Writes a runtime. -/
def put (h : Host E) (id : RuntimeId) (r : Runtime E) : Host E :=
  { h with runtimes := h.runtimes.insert id r }

/-- Changes a runtime if it lives. -/
def update (h : Host E) (id : RuntimeId) (f : Runtime E → Runtime E) : Host E :=
  match h.runtimes.get? id with
  | some r => h.put id (f r)
  | none => h

/-- The loop of a runtime with the clock and the numbering of timers. -/
def loopSeat (h : Host E) (r : Runtime E) : LoopSeat := ⟨r.loop, h.platform.clock, h.nextTimer⟩

/-- A change of the scheduler of a runtime together with its loop, if the runtime lives. -/
def scheduling? (h : Host E) (id : RuntimeId)
    (f : Scheduler E.Value → LoopSeat → α × Scheduler E.Value × LoopSeat) : Option (α × Host E) :=
  (h.runtimes.get? id).map fun r =>
    let (a, scheduler, s) := f r.scheduler (h.loopSeat r)
    (a, { h.put id { r with scheduler, loop := s.loop } with nextTimer := s.nextTimer })

/-- Asks the loop of a runtime to stop. -/
def stopLoop (h : Host E) (id : RuntimeId) : Host E :=
  h.update id fun r => { r with loop := r.loop.stop }

/-- Records an exit code and asks the loop to stop. -/
def exit (h : Host E) (id : RuntimeId) (code : Int) : Host E :=
  h.update id fun r => { r with exitCode := some code, loop := r.loop.stop }

/-- Moves the clock. -/
def setClock (h : Host E) (t : Time) : Host E :=
  { h with platform := { h.platform with clock := t } }

/-! ### Notifications -/

/-- Takes the next notification of a runtime at `now`; a stopped loop hands out none. -/
def takeNext (h : Host E) (id : RuntimeId) (now : Time) : Option (Notification × Host E) := do
  let r ← h.runtimes.get? id
  if r.loop.stopped then none
  else (r.loop.poll now).map fun p => (p.1, h.put id { r with loop := p.2 })

/-- Takes the callback that a notification asks for. -/
def takeCallback (h : Host E) (id : RuntimeId) (n : Notification) : Option E.Value × Host E :=
  (h.scheduling? id fun s l => s.take l n).getD (none, h)

end Host

end ScriptHost
