import ScriptHost.Script.Value
import ScriptHost.Json.Value
import ScriptHost.Number.Text

/-!
# Objects of the form engine

An object has properties, traps and a kind. A trap makes the reading or writing of one property
throw; it is written `get:` or `set:` with the name of the property. Items of an array are fixed,
and not among its properties.

## Main definitions

* `Script.Object`, `Script.Kind`: objects.
* `Script.State`: the heap with what belongs to each engine.
* `Script.State.getProperty`, `Script.State.setProperty`: properties.
* `Script.State.display`: a value as a text.
-/

namespace ScriptHost.Script

/-- What an object is beside its properties. -/
inductive Kind where
  /-- Nothing else. -/
  | plain
  /-- An array. -/
  | array (items : List Value)
  /-- A native function with its name and its number of parameters. -/
  | native (f : Native) (name : String) (arity : Nat)
  /-- A function with its body and the module that it was made in. -/
  | function (body : List Json) (scope : Option (ModuleScope Value))
  /-- An error. -/
  | error (kind : ErrorKind)

/-- An object. -/
structure Object where
  /-- The properties, oldest first. -/
  properties : Table String Value
  /-- The traps. -/
  traps : List String
  /-- What it is beside these. -/
  kind : Kind

instance : Inhabited Object := ⟨⟨.empty, [], .plain⟩⟩

/-- What belongs to one engine. -/
structure Local where
  /-- The global object. -/
  global : Value := .undefined
  /-- The variables. -/
  bindings : Table String Value := .empty
  /-- What was logged, oldest entry first. -/
  log : List Json := []
  /-- The functions that are queued as microtasks. -/
  microtasks : List Value := []
  /-- How often microtasks have been run. -/
  drains : Nat := 0
  /-- The traps of objects that the library makes. -/
  objectTraps : List String := []
  /-- The traps of errors that the library makes. -/
  errorTraps : List String := []

instance : Inhabited Local := ⟨{}⟩

/-- The heap and what belongs to each engine. -/
structure State where
  /-- The objects by their places. -/
  heap : Array Object
  /-- What belongs to the engines at their seats. -/
  locals : List Local

namespace State

/-- No objects and no engines. -/
def empty : State := ⟨#[], []⟩

/-- What belongs to an engine. -/
def local_ (s : State) (seat : Seat) : Local := (s.locals[seat]?).getD default

/-- Changes what belongs to an engine. -/
def modify (s : State) (seat : Seat) (f : Local → Local) : State :=
  { s with locals := s.locals.modify seat f }

/-- The object of a value. -/
def object? (s : State) : Value → Option Object
  | .object place => s.heap[place]?
  | _ => none

/-- Makes an object. -/
def new (s : State) (o : Object) : Value × State :=
  (.object s.heap.size, { s with heap := s.heap.push o })

/-- Makes an object without properties and traps. -/
def newOf (s : State) (kind : Kind) : Value × State := s.new ⟨.empty, [], kind⟩

/-- Changes the object of a value. -/
def change (s : State) (v : Value) (f : Object → Object) : State :=
  match v with
  | .object place => { s with heap := s.heap.modify place f }
  | _ => s

/-- Makes an error with its message and its name, and then traps. -/
def newError (s : State) (traps : List String) (kind : ErrorKind) (message : String) :
    Value × State :=
  s.new ⟨⟨[("message", .string message), ("name", .string kind.name)]⟩, traps, .error kind⟩

/-- Makes an error as the library gets them. -/
def newTrappedError (s : State) (seat : Seat) (kind : ErrorKind) (message : String) :
    Value × State :=
  s.newError (s.local_ seat).errorTraps kind message

/-! ### Properties -/

/-- The index that a property name is for an array: decimal digits, a plus sign before them or not,
of a number below `2 ^ 64`. -/
def index? (name : String) : Option Nat := naturalOf? name (Nat.pow 2 64)

/-- What an object has under a name. -/
def lookup (o : Object) (name : String) : Value :=
  let property := (o.properties.get? name).getD .undefined
  match o.kind with
  | .array items =>
    if name = "length" then .number (.ofNat items.length)
    else
      match index? name with
      | some i => (items[i]?).getD .undefined
      | none => property
  | _ => property

/-- Reads a property of a value. Only undefined has none; other primitives have undefined ones. -/
def getProperty (s : State) (seat : Seat) (v : Value) (name : String) :
    Except Value Value × State :=
  match v with
  | .undefined =>
    let (e, s) := s.newTrappedError seat .typeError
      ("Cannot read properties of undefined (reading '" ++ name ++ "')")
    (.error e, s)
  | v =>
    match s.object? v with
    | none => (.ok .undefined, s)
    | some o =>
      if o.traps.contains ("get:" ++ name) then
        let (e, s) := s.newError [] .error ("trap get " ++ name)
        (.error e, s)
      else (.ok (lookup o name), s)

/-- Writes a property of an object; a primitive takes none. -/
def setProperty (s : State) (seat : Seat) (v : Value) (name : String) (w : Value) :
    Except Value Unit × State :=
  match s.object? v with
  | none =>
    let (e, s) := s.newTrappedError seat .typeError
      ("Cannot set property '" ++ name ++ "' on a primitive")
    (.error e, s)
  | some o =>
    if o.traps.contains ("set:" ++ name) then
      let (e, s) := s.newError [] .error ("trap set " ++ name)
      (.error e, s)
    else (.ok (), s.change v fun o => { o with properties := o.properties.insert name w })

/-! ### Reading values -/

/-- Whether a value can be called. -/
def isCallable (s : State) (v : Value) : Bool :=
  match (s.object? v).map Object.kind with
  | some (.native ..) | some (.function ..) => true
  | _ => false

/-- The name of the type of a value. -/
def typeName (s : State) (v : Value) : String :=
  match v with
  | .undefined => "undefined"
  | .bool _ => "boolean"
  | .number _ => "number"
  | .string _ => "string"
  | .object _ => if s.isCallable v then "function" else "object"

/-- A value as a text; items of arrays are followed `fuel` levels deep. -/
def displayFrom (s : State) : Nat → Value → String
  | 0, _ => ""
  | fuel + 1, v =>
    match v with
    | .undefined => "undefined"
    | .bool b => if b then "true" else "false"
    | .number x => x.text
    | .string t => t
    | .object _ =>
      match s.object? v with
      | none => ""
      | some o =>
        match o.kind with
        | .plain => "[object Object]"
        | .array items => String.intercalate "," (items.map (displayFrom s fuel))
        | .native .. | .function .. => "function"
        | .error kind =>
          kind.name ++ ": " ++ (((o.properties.get? "message").bind Value.asString).getD "")

/-- A value as a text. An array is older than none of its items, so that the number of objects
bounds the depth. -/
def display (s : State) (v : Value) : String := s.displayFrom (s.heap.size + 1) v

end State

end ScriptHost.Script
