import ScriptHost.Table

/-!
# The registry of engines

A registry maps the identity of an engine to the runtime that owns the engine. Its entries are
references that keep nothing alive: looking one up gives what it refers to only while that lives.

## Main definitions

* `EngineId`: the identity of an engine.
* `Registry`: the references under identities.
* `Registry.register?`, `Registry.unregister`, `Registry.lookup`: writing and reading it.
-/

namespace ScriptHost

/-- The identity of an engine. -/
structure EngineId where
  /-- Its number; zero is the identity of an engine that was given none. -/
  val : Nat
deriving DecidableEq

/-- The identity of an engine that was given none. -/
def EngineId.detached : EngineId := ⟨0⟩

/-- An identity as it is written in messages. -/
def EngineId.text (e : EngineId) : String := "engine#" ++ toString e.val

/-- References to the owners of engines. -/
structure Registry (R : Type) where
  /-- The references under the identities of the engines. -/
  entries : Table EngineId R

namespace Registry

variable {R : Type}

/-- A registry without entries. -/
def empty : Registry R := ⟨.empty⟩

instance : Inhabited (Registry R) := ⟨empty⟩

/-- Whether an engine has an entry. -/
def contains (r : Registry R) (e : EngineId) : Bool := r.entries.contains e

/-- Registers the owner of an engine; `none` if the engine has an entry. -/
def register? (r : Registry R) (e : EngineId) (owner : R) : Option (Registry R) :=
  if r.contains e then none else some ⟨r.entries.insert e owner⟩

/-- What the host is told when an engine is registered a second time. -/
def clashMessage (e : EngineId) : String := e.text ++ " is already registered with a runtime"

/-- Removes the entry of an engine. -/
def unregister (r : Registry R) (e : EngineId) : Registry R := ⟨r.entries.erase e⟩

/-- The owner of an engine, if it is alive. -/
def lookup (r : Registry R) (alive : R → Bool) (e : EngineId) : Option R :=
  (r.entries.get? e).filter alive

/-- The number of entries. -/
def size (r : Registry R) : Nat := r.entries.size

end Registry

end ScriptHost
