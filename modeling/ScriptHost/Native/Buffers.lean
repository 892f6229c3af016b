import ScriptHost.Engine.Arguments
import ScriptHost.Bytes.Encoding
import ScriptHost.Number.Rounding

/-!
# Buffers

A script sees a byte string as an object with a number under each index, its length, a mark, and
three functions. Any object with a length and numbers under its indices can be read as bytes.

## Main definitions

* `Buffers.byteOf`: the byte of a number.
* `Buffers.relativeIndex`: the index that a number asks for.
* `Buffers.toValue`, `Buffers.readBytes`: byte strings as objects, and back.
* `Buffers.invoke`: the functions on buffers.
* `Buffers.makeClass`: the object that scripts make buffers with.
-/

namespace ScriptHost.Buffers

variable {E : Engine}

/-- The largest length of a buffer. -/
def maxLength : Nat := 0x7fffffff

/-- The property that marks an object as a buffer. -/
def marker : String := "_isBuffer"

/-! ### Numbers -/

/-- The byte of a number: its integer part, cut down to 64 bits with a sign, modulo 256; zero for
what is not finite. -/
def byteOf (x : Double) : UInt8 :=
  if x.isFinite then
    UInt8.ofNat ((max (-Int.pow 2 63) (min x.integerPart (Int.pow 2 63 - 1))) % 256).toNat
  else 0

/-- The length that a number asks for, if buffers can have it. -/
def lengthOf? (x : Double) : Option Nat :=
  if x.isFinite && x.atLeast 0 && x.isIntegral && !x.exceeds maxLength then
    some x.integerPart.toNat
  else none

/-- The index into `length` bytes that a number asks for: a negative number counts from the end, and
the index stays within the bytes. Without a number it is `default`. -/
def relativeIndex (x? : Option Double) (default length : Nat) : Nat :=
  match x? with
  | none => default
  | some x =>
    if x.isNaN then 0
    else if x.isInfinite then (if x.negative then 0 else length)
    else if x.lt .zero then (length + x.integerPart).toNat
    else min x.integerPart.toNat length

/-- `length` bytes that repeat a pattern; zeros if there is no pattern. -/
def repeated (pattern : Bytes) (length : Nat) : Bytes :=
  (List.range length).map fun i => pattern.getD (i % pattern.length) 0

/-! ### Objects -/

/-- Makes the object of a byte string. -/
def toValue (bs : Bytes) : EngineAction E E.Value := do
  let object ← EngineAction.newObject
  EngineAction.defineValues object
    (bs.mapIdx fun i b => (toString i, E.number (.ofNat b.toNat)))
  EngineAction.defineValue object "length" (E.number (.ofNat bs.length))
  EngineAction.defineValue object marker (E.boolean true)
  EngineAction.defineFunctions object Export.buffer
  return object

/-- Whether a value is marked as a buffer; a value whose mark cannot be read is none. -/
def isBuffer (v : E.Value) : EngineAction E Bool := fun seat s =>
  match E.getProperty seat v marker s with
  | (.ok mark, s) => (.ok (E.truthy mark), s)
  | (.error _, s) => (.ok false, s)

/-- The length that a number asks for; any other number is refused. -/
def checkedLength (x : Double) (function : String) : EngineAction E Nat :=
  match lengthOf? x with
  | some n => pure n
  | none => do
    let error ← EngineAction.newError .rangeError
      (function ++ ": size must be an integer between 0 and " ++ toString maxLength)
    Action.throw (.thrown error)

/-- The length property of a value, which must be a number that buffers can have as their length. -/
def lengthProperty (v : E.Value) (function refusal : String) : EngineAction E Nat := do
  match E.asNumber (← EngineAction.getProperty v "length") with
  | none => Action.fault (.badArgument (function ++ ": " ++ refusal))
  | some x => checkedLength x function

/-- The properties of a value under the indices below its length. -/
def items (v : E.Value) (length : Nat) : EngineAction E (List E.Value) :=
  .collect length fun i => EngineAction.getProperty v (toString i)

/-- Reads a value as bytes; what is not a number under an index counts as zero. -/
def readBytes (v : E.Value) (function : String) : EngineAction E Bytes := do
  let length ← lengthProperty v function "argument must be a Buffer or an array of bytes"
  let vs ← items v length
  return vs.map fun b => byteOf ((E.asNumber b).getD .zero)

/-! ### Functions -/

/-- The encoding that an argument names; UTF-8 if it is left out. -/
def encodingArgument (args : List E.Value) (index : Nat) (function : String) :
    EngineAction E Encoding := do
  match ← Action.ofExcept (Arguments.optionalString E args index function "encoding") with
  | none => return .utf8
  | some name =>
    match Encoding.ofName? name with
    | some e => return e
    | none => Action.fault (.badArgument (function ++ ": unknown encoding '" ++ name ++ "'"))

/-- The index that an argument asks for. -/
def indexArgument (args : List E.Value) (index default length : Nat) : Nat :=
  relativeIndex (args[index]?.bind E.asNumber) default length

/-- The bytes of an argument that is a text or can be read as bytes. -/
def bytesArgument (args : List E.Value) (function missing : String) : EngineAction E Bytes :=
  match args[0]? with
  | none => Action.fault (.badArgument (function ++ ": " ++ missing))
  | some v =>
    match E.asString v with
    | some s => do return (← encodingArgument args 1 function).encode s
    | none => readBytes v function

/-- A buffer of a size: zeros, or filled with the byte of a number or with a text again and
again. -/
def alloc (args : List E.Value) : EngineAction E E.Value := do
  let size ← Action.ofExcept (Arguments.number E args 0 "Buffer.alloc" "size")
  let size ← checkedLength size "Buffer.alloc"
  let pattern : Bytes :=
    match args[1]? with
    | none => []
    | some fill =>
      match E.asNumber fill with
      | some x => [byteOf x]
      | none => ((E.asString fill).map Text.encodeUtf8).getD []
  toValue (repeated pattern size)

/-- The buffers of a list put together. -/
def concat (args : List E.Value) : EngineAction E E.Value :=
  match args[0]? with
  | none => Action.fault (.badArgument "Buffer.concat: list must be an array")
  | some list => do
    let length ← lengthProperty list "Buffer.concat" "list must be an array"
    let vs ← items list length
    let parts ← vs.mapM fun v => readBytes v "Buffer.concat"
    toValue parts.flatten

/-- Whether two buffers have the same bytes. -/
def equals (this : E.Value) (args : List E.Value) : EngineAction E E.Value := do
  let refused : Fault := .badArgument "buffer.equals: otherBuffer must be a Buffer"
  match args[0]? with
  | none => Action.fault refused
  | some other =>
    if ← isBuffer other then
      let left ← readBytes this "buffer.equals"
      let right ← readBytes other "buffer.equals"
      return E.boolean (left == right)
    else Action.fault refused

/-- The functions on buffers. -/
def invoke (f : BufferFunction) (this : E.Value) (args : List E.Value) :
    EngineAction E E.Value :=
  match f with
  | .ofValue => do
    toValue (← bytesArgument args "Buffer.from" "first argument must be a string, Buffer or array")
  | .alloc => alloc args
  | .byteLength => do
    let bs ← bytesArgument args "Buffer.byteLength" "string must be a string or Buffer"
    return E.number (.ofNat bs.length)
  | .isBuffer =>
    match args[0]? with
    | none => return E.boolean false
    | some v => do return E.boolean (← isBuffer v)
  | .concat => concat args
  | .text => do
    let bs ← readBytes this "buffer.toString"
    let encoding ← encodingArgument args 0 "buffer.toString"
    let start := indexArgument args 1 0 bs.length
    let stop := indexArgument args 2 bs.length bs.length
    return E.string (encoding.decode (bs.slice start stop))
  | .slice => do
    let bs ← readBytes this "buffer.slice"
    let start := indexArgument args 0 0 bs.length
    let stop := indexArgument args 1 bs.length bs.length
    toValue (bs.slice start stop)
  | .equals => equals this args

/-- Makes the object that scripts make buffers with. -/
def makeClass : EngineAction E E.Value := do
  let object ← EngineAction.newObject
  EngineAction.defineFunctions object Export.bufferClass
  EngineAction.defineValue object "poolSize" (E.number (.ofNat 8192))
  return object

end ScriptHost.Buffers
