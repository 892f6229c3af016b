import ScriptHost.Engine.Basic

/-!
# Actions

An action runs at the seat of an engine, reads and changes a state, and ends with a result or an
exception. Changes made before an exception stay. Actions run no script.

## Main definitions

* `Action`: actions on a state, a monad.
* `Action.throw`, `Action.fault`, `Action.ofExcept`: ending with an exception.
* `Action.get`, `Action.modify`, `Action.seat`: the state and the seat.
* `EngineAction`: actions on the state of the engines; the operations of an engine are such.
-/

namespace ScriptHost

/-- An action at a seat on a state. -/
def Action (E : Engine) (σ α : Type) : Type := Seat → σ → Except (Exception E.Value) α × σ

namespace Action

variable {E : Engine} {σ τ α β : Type}

/-- The action that has a result and changes nothing. -/
def pure (a : α) : Action E σ α := fun _ s => (.ok a, s)

/-- One action after another; an exception of the first ends both. -/
def bind (x : Action E σ α) (f : α → Action E σ β) : Action E σ β := fun seat s =>
  match x seat s with
  | (.ok a, s) => f a seat s
  | (.error e, s) => (.error e, s)

instance : Monad (Action E σ) where
  pure := pure
  bind := bind

/-- Ends with an exception. -/
def throw (e : Exception E.Value) : Action E σ α := fun _ s => (.error e, s)

/-- Ends with a fault. -/
def fault (f : Fault) : Action E σ α := throw (.fault f)

/-- A computation that may end with a fault. -/
def ofExcept : Except Fault α → Action E σ α
  | .ok a => pure a
  | .error f => fault f

/-- The state. -/
def get : Action E σ σ := fun _ s => (.ok s, s)

/-- Changes the state. -/
def modify (f : σ → σ) : Action E σ Unit := fun _ s => (.ok (), f s)

/-- The seat. -/
def seat : Action E σ Seat := fun seat s => (.ok seat, s)

/-- A change of the state that has a result. -/
def ofState (f : Seat → σ → α × σ) : Action E σ α := fun seat s => (.ok (f seat s).1, (f seat s).2)

/-- An action on a part of a state. -/
def onPart (part : σ → τ) (withPart : σ → τ → σ) (x : Action E τ α) : Action E σ α := fun seat s =>
  ((x seat (part s)).1, withPart s (x seat (part s)).2)

/-- Ends by throwing what an engine has thrown. -/
def ofEngine (f : Seat → σ → Except E.Value α × σ) : Action E σ α := fun seat s =>
  ((f seat s).1.mapError .thrown, (f seat s).2)

/-- An action with a value under each index below a bound, from the first on. -/
def collect (n : Nat) (f : Nat → Action E σ α) : Action E σ (List α) := (List.range n).mapM f

end Action

/-- An action on the state of the engines. -/
abbrev EngineAction (E : Engine) (α : Type) : Type := Action E E.State α

namespace EngineAction

variable {E : Engine}

/-- Makes an object without properties. -/
def newObject : EngineAction E E.Value := .ofState E.newObject

/-- Makes an array. -/
def newArray (items : List E.Value) : EngineAction E E.Value :=
  .ofState fun seat => E.newArray seat items

/-- Makes an error object. -/
def newError (kind : ErrorKind) (message : String) : EngineAction E E.Value :=
  .ofState fun seat => E.newError seat kind message

/-- Reads a property. -/
def getProperty (o : E.Value) (name : String) : EngineAction E E.Value :=
  .ofEngine fun seat => E.getProperty seat o name

/-- Writes a property. -/
def defineValue (o : E.Value) (name : String) (v : E.Value) : EngineAction E Unit :=
  .ofEngine fun seat => E.setProperty seat o name v

/-- Makes a function out of a native one and writes it into a property. -/
def defineFunction (o : E.Value) (f : Export) : EngineAction E Unit := do
  let v ← Action.ofState fun seat => E.newFunction seat f.name f.arity f.native
  defineValue o f.name v

/-- Writes functions into properties, one after the other. -/
def defineFunctions (o : E.Value) : List Export → EngineAction E Unit
  | [] => pure ()
  | f :: fs => do
    defineFunction o f
    defineFunctions o fs

/-- Writes values into properties, one after the other. -/
def defineValues (o : E.Value) : List (String × E.Value) → EngineAction E Unit
  | [] => pure ()
  | (name, v) :: rest => do
    defineValue o name v
    defineValues o rest

/-- The value that an exception throws; a fault is made into an error object. -/
def valueOf : Exception E.Value → EngineAction E E.Value
  | .fault f => newError f.kind f.bare
  | .thrown v => pure v

end EngineAction

end ScriptHost
