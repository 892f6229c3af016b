import ScriptHost.Engine.Action
import ScriptHost.Number.Rounding
import ScriptHost.Number.Text
import ScriptHost.Json.Printer
import ScriptHost.Text.Quoted
import ScriptHost.Text.Template

/-!
# Rendering values

Values are rendered for a template, for inspection or for a line of output. An object is rendered by
the function `JSON.stringify` of the engine, which may be a script: a rendering is therefore a list
of pieces that is worked off one by one, so that it can be set aside while a script runs.

## Main definitions

* `Rendering`: pieces still to be rendered, the text so far, and what is done with it.
* `Rendering.form`: how a value is rendered, as its text or through `JSON.stringify`.
* `Rendering.stringifier`: the function that an engine has for this.
-/

namespace ScriptHost

/-- What is done with a rendered text. -/
inductive Sink where
  /-- It is the result. -/
  | result
  /-- It is printed as a line. -/
  | line (stream : Stream)
deriving DecidableEq

/-- A rendering in progress. -/
structure Rendering (V : Type) where
  /-- The pieces that are still to be rendered. -/
  pieces : List (Text.Piece V)
  /-- The text so far. -/
  text : String
  /-- What is done with the text. -/
  sink : Sink

namespace Rendering

variable {V : Type}

/-- The rendering with a piece of text put to it. -/
def write (r : Rendering V) (s : String) : Rendering V := { r with text := r.text ++ s }

variable (E : Engine)

/-- Pieces with a blank between any two of them. -/
def spaced : List (Text.Piece V) → List (Text.Piece V)
  | [] => []
  | [p] => [p]
  | p :: q :: ps => p :: .literal " " :: spaced (q :: ps)

/-- The pieces of a line of arguments. If the first is a text, it is the template of the others. -/
def lineOf (args : List E.Value) : List (Text.Piece E.Value) :=
  match args with
  | [] => []
  | first :: rest =>
    match E.asString first with
    | some template => Text.layout template rest
    | none => spaced (args.map (Text.Piece.argument .extra))

/-- How a value is rendered. -/
inductive Form where
  /-- As a text. -/
  | text (s : String)
  /-- By the engine's own function for objects. -/
  | stringified
deriving DecidableEq

/-- The inspected form of a value: a text quoted, a number by its text, and otherwise what the
engine makes of it. -/
def inspected (s : E.State) (v : E.Value) : Form :=
  match E.asString v, E.asNumber v with
  | some t, _ => .text (Text.quote t)
  | none, some x => .text x.text
  | none, none =>
    if E.isUndefined v then .text "undefined"
    else if E.isCallable s v then .text "[Function]"
    else .stringified

/-- A value as JSON: what is neither a text nor a number is what the engine makes of it. -/
def asJson (v : E.Value) : Form :=
  match E.asString v, E.asNumber v with
  | some t, _ => .text (Json.quote t)
  | none, some x => .text (if x.isFinite then x.text else "null")
  | none, none => if E.isUndefined v then .text "undefined" else .stringified

/-- A value as a number: what is not a number is read from its text. -/
def asDouble (s : E.State) (v : E.Value) : Double :=
  (E.asNumber v).getD (Double.parsePrefixOf (E.display s v))

/-- How a value is rendered under a directive. -/
def form (s : E.State) (v : E.Value) : Text.Directive → Form
  | .string => .text ((E.asString v).getD (E.display s v))
  | .number | .float => .text (asDouble E s v).text
  | .integer => .text (asDouble E s v).truncate.text
  | .json => asJson E v
  | .object => inspected E s v
  | .extra =>
    match E.asString v with
    | some t => .text t
    | none => inspected E s v

/-- The object `JSON` of an engine and its function `stringify`, if it has both and the function can
be called. -/
def stringifier (seat : Seat) (s : E.State) : Option (E.Value × E.Value) × E.State :=
  match E.getProperty seat (E.globalObject seat s) "JSON" s with
  | (.error _, s) => (none, s)
  | (.ok json, s) =>
    if E.isUndefined json then (none, s)
    else
      match E.getProperty seat json "stringify" s with
      | (.error _, s) => (none, s)
      | (.ok f, s) => (if E.isCallable s f then some (json, f) else none, s)

/-- The text of a value by what `stringify` has returned for it; without a text from there it is
what the engine displays. -/
def stringifiedText (s : E.State) (v : E.Value)
    (r : Except (Exception E.Value) E.Value) : String :=
  match r with
  | .ok result => (E.asString result).getD (E.display s v)
  | .error _ => E.display s v

end Rendering

end ScriptHost
