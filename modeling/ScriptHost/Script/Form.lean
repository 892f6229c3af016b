import ScriptHost.Script.Value
import ScriptHost.Json.Reader

/-!
# Forms

A script of the form engine is a list of expressions, each a JSON value. Texts, numbers and truth
values stand for themselves and `null` for undefined; an array is a form, with its name in front. A
form is read one level at a time: its operands stay JSON until they are evaluated.

## Main definitions

* `Script.Form`: the forms.
* `Script.Form.ofJson`: the form of an expression.
-/

namespace ScriptHost.Script

/-- What a module body can ask about its module. -/
inductive ModuleField where
  /-- The object of exports. -/
  | exports
  /-- The module object. -/
  | module
  /-- The function that loads modules. -/
  | require
  /-- The file. -/
  | filename
  /-- The directory. -/
  | dirname
  /-- The canonical id. -/
  | id
deriving DecidableEq

/-- The field of a name. -/
def ModuleField.ofName? : String → Option ModuleField
  | "exports" => some exports
  | "module" => some module
  | "require" => some require
  | "filename" => some filename
  | "dirname" => some dirname
  | "id" => some id
  | _ => none

/-- What is done with the values of operands. -/
inductive Operation where
  /-- The last value, or undefined. -/
  | last
  /-- A new array. -/
  | array
  /-- A new object with these names. -/
  | object (names : List String)
  /-- Sets a variable. -/
  | assign (name : String)
  /-- Reads a property. -/
  | get (name : String)
  /-- Writes a property. -/
  | set (name : String)
  /-- Adds traps to an object. -/
  | trap (traps : List String)
  /-- Calls the first value, with the second as `this` and the others as arguments. -/
  | call
  /-- Reads a property that is a function, to be called with arguments. -/
  | method (name : String) (args : List Json)
  /-- Calls a function with the values as arguments. -/
  | apply (f this : Value)
  /-- Loads a module. -/
  | require
  /-- Resolves a specifier. -/
  | resolve
  /-- Throws. -/
  | throw
  /-- Goes on with one of two expressions. -/
  | branch (yes no : Json)
  /-- The sum of two numbers. -/
  | add
  /-- Whether a number is less than another. -/
  | less
  /-- Whether two values are the same. -/
  | same
  /-- The name of the type. -/
  | typeOf
  /-- The text of a value. -/
  | display
  /-- Queues a microtask. -/
  | microtask

/-- A form. -/
inductive Form where
  /-- A value. -/
  | value (v : Value)
  /-- A new function. -/
  | function (body : List Json)
  /-- A new error. -/
  | error (kind : ErrorKind) (message : String)
  /-- A variable. -/
  | variable (name : String)
  /-- What the global object leads to by these names. -/
  | global (path : List String)
  /-- `this` of the function. -/
  | this
  /-- An argument of the function. -/
  | argument (i : Nat)
  /-- How many arguments the function has. -/
  | argumentCount
  /-- Something about the module. -/
  | module (field : ModuleField)
  /-- Logs values, each before the next is evaluated. -/
  | log (es : List Json)
  /-- A handler for what is thrown. -/
  | handle (body handler : List Json)
  /-- An operation on operands, evaluated first to last. -/
  | operation (op : Operation) (operands : List Json)

namespace Form

/-- The kind of error of a name. -/
def errorKind : String → ErrorKind
  | "TypeError" => .typeError
  | "RangeError" => .rangeError
  | _ => .error

/-- A special number by its name. -/
def special? : String → Option Double
  | "NaN" => some .nan
  | "Infinity" => some (.infinity false)
  | "-Infinity" => some (.infinity true)
  | "-0" => some .negativeZero
  | _ => none

/-- The double with these bits in hexadecimal. -/
def ofBits? (hex : String) : Option Double :=
  (hex.toList.mapM Bytes.hexValue?).map fun ds =>
    .ofBits (UInt64.ofNat (ds.foldl (fun n d => 16 * n + d) 0))

/-- Names and expressions that alternate. -/
def members : List Json → List (String × Json)
  | .string k :: e :: rest => (k, e) :: members rest
  | _ => []

/-- The texts of a list. -/
def texts (js : List Json) : List String := js.filterMap Json.asString?

/-- The form of a name with what follows it. A form that does not exist is undefined. -/
def ofParts (name : String) (rest : List Json) : Form :=
  match name, rest with
  | "num", [.string s] => .value (.number ((special? s).getD .nan))
  | "bits", [.string s] => .value (.number ((ofBits? s).getD .nan))
  | "rep", [.string s, .int n] => .value (.string (String.join (List.replicate n.toNat s)))
  | "arr", es => .operation .array es
  | "obj", es => .operation (.object ((members es).map Prod.fst)) ((members es).map Prod.snd)
  | "fn", body => .function body
  | "err", [.string kind, .string message] => .error (errorKind kind) message
  | "let", [.string x, e] => .operation (.assign x) [e]
  | "var", [.string x] => .variable x
  | "global", _ => .global []
  | "g", path => .global (texts path)
  | "this", _ => .this
  | "arg", [.int i] => .argument i.toNat
  | "nargs", _ => .argumentCount
  | "mod", [.string f] =>
    match ModuleField.ofName? f with
    | some field => .module field
    | none => .value .undefined
  | "get", [o, .string x] => .operation (.get x) [o]
  | "set", [o, .string x, e] => .operation (.set x) [o, e]
  | "trap", o :: traps => .operation (.trap (texts traps)) [o]
  | "call", es => .operation .call es
  | "method", o :: .string x :: args => .operation (.method x args) [o]
  | "require", [e] => .operation .require [e]
  | "resolve", [e] => .operation .resolve [e]
  | "log", es => .log es
  | "throw", [e] => .operation .throw [e]
  | "try", [.array body, .array handler] => .handle body handler
  | "do", es => .operation .last es
  | "if", [c, yes] => .operation (.branch yes .null) [c]
  | "if", [c, yes, no] => .operation (.branch yes no) [c]
  | "add", [a, b] => .operation .add [a, b]
  | "lt", [a, b] => .operation .less [a, b]
  | "same", [a, b] => .operation .same [a, b]
  | "typeof", [e] => .operation .typeOf [e]
  | "str", [e] => .operation .display [e]
  | "microtask", [e] => .operation .microtask [e]
  | _, _ => .value .undefined

/-- The form of an expression. -/
def ofJson : Json → Form
  | .null => .value .undefined
  | .bool b => .value (.bool b)
  | .int n => .value (.number (.ofInt n))
  | .float x => .value (.number x)
  | .string s => .value (.string s)
  | .array (.string name :: rest) => ofParts name rest
  | .array _ | .object _ => .value .undefined

end Form

end ScriptHost.Script
