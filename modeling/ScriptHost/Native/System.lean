import ScriptHost.Host.Action
import ScriptHost.Number.Rounding

/-!
# The operating system for scripts

The functions of the module `os`: facts about the platform and the machine.

## Main definitions

* `SystemFunction.invoke`: the functions.
-/

namespace ScriptHost.SystemFunction

variable {E : Engine}

/-- Makes the object of a processor. -/
def ofProcessor (p : Processor) : EngineAction E E.Value := do
  let info ← EngineAction.newObject
  EngineAction.defineValues info [("model", E.string p.model), ("speed", E.number (.ofNat p.speed))]
  return info

/-- What a function answers on a platform, where that is one text or number. -/
def fact (p : Platform) : SystemFunction → E.Value
  | .platform => E.string Platform.name
  | .architecture => E.string Platform.architecture
  | .type => E.string Platform.systemType
  | .release => E.string p.machine.release
  | .hostname => E.string p.machine.hostname
  | .homedir => E.string p.homeDirectory
  | .tmpdir => E.string p.temporaryDirectory
  | .uptime => E.number (.ofNat p.machine.uptime)
  | .totalmem => E.number (.ofNat p.machine.totalMemory)
  | .freemem => E.number (.ofNat p.machine.freeMemory)
  | .endianness => E.string Platform.endianness
  | .cpus => E.undefined

/-- The functions on the operating system. -/
def invoke : SystemFunction → HostAction E E.Value
  | .cpus => do
    let infos ← (← HostAction.ask fun p => p.machine.processors).mapM fun p =>
      (ofProcessor p : EngineAction E E.Value)
    EngineAction.newArray infos
  | f => HostAction.ask fun p => f.fact p

end ScriptHost.SystemFunction
