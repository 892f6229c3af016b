import ScriptHost.Engine.Arguments
import ScriptHost.Host.State

/-!
# Actions on a host

What native functions do beside running scripts: actions on the whole state of a host. An action on
the engines alone is one of these.

## Main definitions

* `HostAction`: actions on a host.
* `HostAction.attached`: the runtime that the engine is attached to, or a fault.
* `HostAction.scheduling`: a change of its scheduler and loop.
-/

namespace ScriptHost

/-- An action on a host. -/
abbrev HostAction (E : Engine) (α : Type) : Type := Action E (Host E) α

namespace HostAction

variable {E : Engine} {α : Type}

/-- An action on the engines as an action on the host. -/
def ofEngines (x : EngineAction E α) : HostAction E α :=
  .onPart Host.engines (fun h s => { h with engines := s }) x

instance : MonadLift (Action E E.State) (Action E (Host E)) := ⟨ofEngines⟩

/-- What the platform says. -/
def ask (f : Platform → α) : HostAction E α := fun _ h => (.ok (f h.platform), h)

/-- Ends with the fault of an engine that has no runtime. -/
def detached : HostAction E α := fun seat h =>
  (.error (.fault (Host.detachedFault (h.profiles seat).identity)), h)

/-- The runtime that the engine is attached to. -/
def attached : HostAction E RuntimeId := fun seat h =>
  match h.attached seat with
  | some id => (.ok id, h)
  | none => detached seat h

/-- Changes the scheduler of the attached runtime together with its loop. -/
def scheduling (f : Scheduler E.Value → LoopSeat → α × Scheduler E.Value × LoopSeat) :
    HostAction E α := fun seat h =>
  match (h.attached seat).bind fun id => h.scheduling? id f with
  | some (a, h) => (.ok a, h)
  | none => detached seat h

/-- An argument that is checked against the state of the engines. -/
def argument (f : E.State → Except Fault α) : HostAction E α := fun seat h =>
  Action.ofExcept (f h.engines) seat h

end HostAction

end ScriptHost
