import ScriptHost.Script.Machine

/-!
# The form engine

The form engine as an engine of a host.

## Main definitions

* `Script.engine`: the engine.
* `Script.State.seat`: the state with one more engine.
-/

namespace ScriptHost.Script

/-- The state with one more engine, whose global object has these traps, and the objects and errors
that the library makes with it have those. -/
def State.seat (s : State) (globalTraps objectTraps errorTraps : List String) : State :=
  let (global, s) := s.new ⟨.empty, globalTraps, .plain⟩
  { s with locals := s.locals ++ [{ global, objectTraps, errorTraps }] }

/-- The body of a module: its text must be a list of expressions. -/
def bodyOf? (source : String) : Option (List Json) := (Json.parse? source).bind Json.asArray?

/-- What calling a value leads to. -/
def callee (s : State) (seat : Seat) (f this : Value) (args : List Value) :
    Callee Value Running × State :=
  match (s.object? f).map Object.kind with
  | some (.native f _ _) => (.native f, s)
  | some (.function body scope) => (.script (.body ⟨this, args, scope⟩ body), s)
  | _ => let (e, s) := Running.refuse s seat; (.refused e, s)

/-- The evaluation of a module. -/
def evaluation (s : State) (seat : Seat) (m : ModuleScope Value) : Running × State :=
  let frame : Frame := ⟨m.exports, [], some m⟩
  match bodyOf? m.source with
  | some body => (.body frame body, s)
  | none =>
    let (e, s) := s.newTrappedError seat .error "bad module source"
    (⟨.throw e, frame, []⟩, s)

/-- The form engine. -/
abbrev engine : Engine where
  State := State
  Value := Value
  Script := Running
  undefined := .undefined
  boolean := .bool
  number := .number
  string := .string
  isUndefined := Value.isUndefined
  asNumber := Value.asNumber
  asString := Value.asString
  truthy := Value.truthy
  isCallable := State.isCallable
  display := State.display
  globalObject seat s := (s.local_ seat).global
  newObject seat s := s.new ⟨.empty, (s.local_ seat).objectTraps, .plain⟩
  newArray _ items s := s.newOf (.array items)
  newFunction _ name arity f s := s.newOf (.native f name arity)
  newError seat kind message s := s.newTrappedError seat kind message
  getProperty seat v name s := s.getProperty seat v name
  setProperty seat v name w s := s.setProperty seat v name w
  call seat f this args s := callee s seat f this args
  evaluate seat m s := evaluation s seat m
  microtasks seat s := (.microtasks, s.modify seat fun l => { l with drains := l.drains + 1 })
  step seat r s := r.step s seat
  resume r result := r.turnTo (match result with
    | .ok v => .value v
    | .error e => .throw e)

end ScriptHost.Script
