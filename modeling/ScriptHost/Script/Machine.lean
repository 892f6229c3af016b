import ScriptHost.Script.Form
import ScriptHost.Script.Snapshot

/-!
# Running scripts of the form engine

A running script is an expression, a value or a throw, together with the function that it belongs to
and all that is still to be done with its value, innermost first. A native call leaves the script
between two steps, and its result is the value to go on with.

## Main definitions

* `Script.Running`: a running script.
* `Script.Running.step`: one step.
* `Script.Running.body`, `Script.Running.call`: how scripts begin.
-/

namespace ScriptHost.Script

/-- What the body of a function can see. -/
structure Frame where
  /-- `this`. -/
  this : Value
  /-- The arguments. -/
  args : List Value
  /-- The module. -/
  scope : Option (ModuleScope Value)

/-- What is to be done with a value. -/
inductive Pending where
  /-- It is an operand; those before it are known, last first, and those after it are
  expressions. -/
  | operand (op : Operation) (before : List Value) (rest : List Json)
  /-- It is logged, and then come more to be logged. -/
  | log (rest : List Json)
  /-- It is the value of a body that has a handler. -/
  | handler (body : List Json)
  /-- It is the result of a function; the caller goes on. -/
  | caller (f : Frame)
  /-- It is the result of a microtask. -/
  | microtask

/-- What a running script does next. -/
inductive Control where
  /-- Evaluates an expression. -/
  | expression (e : Json)
  /-- Applies an operation to operands, last first. -/
  | apply (op : Operation) (operands : List Value)
  /-- Reads properties one after the other, beginning with a value. -/
  | path (v : Value) (names : List String)
  /-- Calls a function. -/
  | call (f this : Value) (args : List Value)
  /-- Goes on with a value. -/
  | value (v : Value)
  /-- Goes on with a throw. -/
  | throw (v : Value)
  /-- Runs the next microtask. -/
  | microtasks

/-- A running script. -/
structure Running where
  /-- What is done next. -/
  control : Control
  /-- The function that it belongs to. -/
  frame : Frame
  /-- What is to be done with the value, innermost first. -/
  pending : List Pending

/-- What a step leads to. -/
abbrev Step : Type := Progress Value Running × State

namespace Running

/-- The script with another control. -/
def turnTo (r : Running) (control : Control) : Running := { r with control }

/-- The script with one more thing to do. -/
def push (r : Running) (p : Pending) (control : Control) : Running :=
  { r with pending := p :: r.pending, control }

/-- The script goes on. -/
def next (r : Running) (s : State) (control : Control) : Step := (.running (r.turnTo control), s)

/-- The script goes on with what reading or writing a property gave. -/
def settle (r : Running) (p : Except Value Value × State) : Step :=
  match p with
  | (.ok v, s) => r.next s (.value v)
  | (.error e, s) => r.next s (.throw e)

/-- Evaluates operands and applies an operation. -/
def operands (r : Running) (op : Operation) (before : List Value) : List Json → Running
  | [] => r.turnTo (.apply op before)
  | e :: rest => r.push (.operand op before rest) (.expression e)

/-- Evaluates a body. -/
def sequence (r : Running) (body : List Json) : Running := r.operands .last [] body

/-! ### Operations -/

/-- The function that loads modules, as `require` and `resolve` see it: that of the module, to be
called with its directory, or the global one. -/
def loader (frame : Frame) (global specifier : Value) : Value × List String × List Value :=
  match frame.scope with
  | some m => (m.require, [], [specifier, .string m.dirname])
  | none => (global, ["require"], [specifier])

/-- Reads properties one after the other. -/
def follow (s : State) (seat : Seat) (v : Value) : List String → Except Value Value × State
  | [] => (.ok v, s)
  | name :: names =>
    match s.getProperty seat v name with
    | (.ok w, s) => follow s seat w names
    | (.error e, s) => (.error e, s)

/-- Calls the function that loads modules, or the one that it has under further names. -/
def load (r : Running) (s : State) (seat : Seat) (specifier : Value) (names : List String) : Step :=
  let (v, path, args) := loader r.frame (s.local_ seat).global specifier
  match follow s seat v (path ++ names) with
  | (.ok f, s) => r.next s (.call f .undefined args)
  | (.error e, s) => r.next s (.throw e)

/-- Applies an operation to operands, given last first. -/
def apply (r : Running) (s : State) (seat : Seat) (op : Operation) (operands : List Value) : Step :=
  match op, operands with
  | .last, vs => r.next s (.value (vs.head?.getD .undefined))
  | .array, vs => let (v, s) := s.newOf (.array vs.reverse); r.next s (.value v)
  | .object names, vs =>
    let (v, s) := s.newOf .plain
    let properties := (names.zip vs.reverse).foldl (fun t p => t.insert p.1 p.2) Table.empty
    r.next (s.change v fun o => { o with properties }) (.value v)
  | .assign x, [v] =>
    r.next (s.modify seat fun l => { l with bindings := l.bindings.insert x v }) (.value v)
  | .get x, [o] => r.settle (s.getProperty seat o x)
  | .set x, [v, o] =>
    let (w, s) := s.setProperty seat o x v
    r.settle (w.map fun _ => v, s)
  | .trap traps, [o] =>
    r.next (s.change o fun o => { o with traps := o.traps ++ traps }) (.value o)
  | .call, vs =>
    match vs.reverse with
    | f :: this :: args => r.next s (.call f this args)
    | [f] => r.next s (.call f .undefined [])
    | [] => r.next s (.call .undefined .undefined [])
  | .method x args, [o] =>
    match s.getProperty seat o x with
    | (.ok f, s) => (.running (r.operands (.apply f o) [] args), s)
    | (.error e, s) => r.next s (.throw e)
  | .apply f this, vs => r.next s (.call f this vs.reverse)
  | .require, [v] => r.load s seat v []
  | .resolve, [v] => r.load s seat v ["resolve"]
  | .throw, [v] => r.next s (.throw v)
  | .branch yes no, [v] => r.next s (.expression (if v.truthy then yes else no))
  | .add, [b, a] => r.next s (.value (.number (a.toNumber.add b.toNumber)))
  | .less, [b, a] => r.next s (.value (.bool (a.toNumber.lt b.toNumber)))
  | .same, [b, a] => r.next s (.value (.bool (a.same b)))
  | .typeOf, [v] => r.next s (.value (.string (s.typeName v)))
  | .display, [v] => r.next s (.value (.string (s.display v)))
  | .microtask, [v] =>
    r.next (s.modify seat fun l => { l with microtasks := l.microtasks ++ [v] }) (.value .undefined)
  | _, _ => r.next s (.value .undefined)

/-! ### Expressions and calls -/

/-- What a module body sees of its module; nothing outside of one. -/
def moduleField (frame : Frame) (field : ModuleField) : Value :=
  match frame.scope with
  | none => .undefined
  | some m =>
    match field with
    | .exports => m.exports
    | .module => m.module
    | .require => m.require
    | .filename => .string m.filename
    | .dirname => .string m.dirname
    | .id => .string m.id

/-- Evaluates a form. -/
def evaluate (r : Running) (s : State) (seat : Seat) (f : Form) : Step :=
  match f with
  | .value v => r.next s (.value v)
  | .function body => let (v, s) := s.newOf (.function body r.frame.scope); r.next s (.value v)
  | .error kind message => let (v, s) := s.newError [] kind message; r.next s (.value v)
  | .variable x => r.next s (.value (((s.local_ seat).bindings.get? x).getD .undefined))
  | .global path => r.next s (.path (s.local_ seat).global path)
  | .this => r.next s (.value r.frame.this)
  | .argument i => r.next s (.value ((r.frame.args[i]?).getD .undefined))
  | .argumentCount => r.next s (.value (.number (.ofNat r.frame.args.length)))
  | .module field => r.next s (.value (moduleField r.frame field))
  | .log [] => r.next s (.value .undefined)
  | .log (e :: rest) => (.running (r.push (.log rest) (.expression e)), s)
  | .handle body handler => (.running ((r.push (.handler handler) r.control).sequence body), s)
  | .operation op operands => (.running (r.operands op [] operands), s)

/-- The refusal to call a value that is no function. -/
def refuse (s : State) (seat : Seat) : Value × State :=
  s.newTrappedError seat .typeError "value is not a function"

/-- Calls a value. -/
def invoke (r : Running) (s : State) (seat : Seat) (f this : Value) (args : List Value) : Step :=
  match (s.object? f).map Object.kind with
  | some (.native f _ _) => (.native f this args r, s)
  | some (.function body scope) =>
    (.running ({ r with
      frame := ⟨this, args, scope⟩, pending := .caller r.frame :: r.pending }.sequence body), s)
  | _ => let (e, s) := refuse s seat; r.next s (.throw e)

/-! ### Values and throws -/

/-- Writes an entry into the log. -/
def log (s : State) (seat : Seat) (entry : Json) : State :=
  s.modify seat fun l => { l with log := l.log ++ [entry] }

/-- Goes on with a value. -/
def takeValue (r : Running) (s : State) (seat : Seat) (v : Value) (p : Pending) : Step :=
  match p with
  | .operand op before rest => (.running (r.operands op (v :: before) rest), s)
  | .log rest =>
    let s := log s seat (s.snapshot v)
    match rest with
    | [] => r.next s (.value .undefined)
    | e :: rest => (.running (r.push (.log rest) (.expression e)), s)
  | .handler _ => r.next s (.value v)
  | .caller frame => ({ r with frame }).next s (.value v)
  | .microtask => r.next s .microtasks

/-- Goes on with a throw. -/
def takeThrow (r : Running) (s : State) (seat : Seat) (v : Value) (p : Pending) : Step :=
  match p with
  | .operand .. | .log _ => r.next s (.throw v)
  | .handler body =>
    (.running (r.sequence body),
      s.modify seat fun l => { l with bindings := l.bindings.insert "e" v })
  | .caller frame => ({ r with frame }).next s (.throw v)
  | .microtask => r.next (log s seat (.object [("microtask_threw", s.snapshot v)])) .microtasks

/-- One step. -/
def step (r : Running) (s : State) (seat : Seat) : Step :=
  match r.control with
  | .expression e => r.evaluate s seat (Form.ofJson e)
  | .apply op operands => r.apply s seat op operands
  | .path v names => r.settle (follow s seat v names)
  | .call f this args => r.invoke s seat f this args
  | .value v =>
    match r.pending with
    | [] => (.returned v, s)
    | p :: pending => { r with pending }.takeValue s seat v p
  | .throw v =>
    match r.pending with
    | [] => (.threw v, s)
    | p :: pending => { r with pending }.takeThrow s seat v p
  | .microtasks =>
    match (s.local_ seat).microtasks with
    | [] => (.returned .undefined, s)
    | f :: rest =>
      (.running (r.push .microtask (.call f .undefined [])),
        s.modify seat fun l => { l with microtasks := rest })

/-! ### Beginnings -/

/-- A body to be evaluated. -/
def body (frame : Frame) (es : List Json) : Running :=
  sequence ⟨.value .undefined, frame, []⟩ es

/-- The script of the microtasks. -/
def microtasks : Running := ⟨.microtasks, ⟨.undefined, [], none⟩, []⟩

end Running

end ScriptHost.Script
