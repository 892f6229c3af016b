import ScriptHost.Fault
import ScriptHost.Json.Reader
import ScriptHost.Files.Operations

/-!
# Runtime configuration

What a runtime is configured with, and the three sources of it: a JSON file, single settings by
name, and environment variables.

## Main definitions

* `Config`: the configuration of one runtime.
* `Config.set`: one setting by its dashed name; names that are not known are passed over.
* `Config.applyVariables`: the settings among environment variables, in their order.
* `Config.parse?`, `Config.load`: a configuration from JSON.
-/

namespace ScriptHost

/-- The configuration of a runtime. -/
structure Config where
  /-- The arguments that scripts see. -/
  argv : List String := []
  /-- Where specifiers of the top level start from; the working directory if it is not given. -/
  baseDir : Option String := none
  /-- Whether the event loop is left once nothing is pending. -/
  exitWhenIdle : Bool := false
  /-- The most timers that may be live at once. -/
  maxTimers : Nat := 65536
deriving DecidableEq

namespace Config

instance : Inhabited Config := ⟨{}⟩

/-! ### Single settings -/

/-- Reads a truth value; ASCII case does not matter. -/
def truth? (value : String) : Option Bool :=
  match Bytes.lowerAscii value with
  | "1" | "true" | "yes" | "on" => some true
  | "0" | "false" | "no" | "off" | "" => some false
  | _ => none

/-- A setting that cannot be used: what was expected and what was given. -/
def rejected {α : Type} (key expected value : String) : Except Fault α :=
  .error (.config (key ++ ": expected a " ++ expected ++ ", got '" ++ value ++ "'"))

/-- Makes one setting by its name. -/
def set (c : Config) (key value : String) : Except Fault Config :=
  if key = "exit-when-idle" then
    match truth? value with
    | some b => .ok { c with exitWhenIdle := b }
    | none => rejected key "boolean" value
  else if key = "max-timers" then
    match naturalOf? value (Nat.pow 2 64) with
    | some n => .ok { c with maxTimers := n }
    | none => rejected key "number" value
  else if key = "base-dir" then .ok { c with baseDir := some value }
  else .ok c

/-! ### Environment variables -/

/-- What the names of variables that are settings start with. -/
def variableStart : String := "EMBERNODE_"

/-- The name of the setting that a variable makes: the rest of its name in lower case with dashes
for underscores. Only ASCII letters change case, since no other letter has a lower case that the
name of a setting contains. -/
def settingOf? (name : String) : Option String :=
  if variableStart.toList.isPrefixOf name.toList then
    some (String.ofList ((name.toList.drop variableStart.length).map fun c =>
      if c = '_' then '-' else c.toLower))
  else none

/-- Makes the settings among variables in their order and stops at the first that is rejected; the
configuration with the settings made so far is given in either case. -/
def applyVariables (c : Config) : List (String × String) → Except Fault Unit × Config
  | [] => (.ok (), c)
  | (name, value) :: rest =>
    match settingOf? name with
    | none => applyVariables c rest
    | some key =>
      match c.set key value with
      | .ok c => applyVariables c rest
      | .error f => (.error f, c)

/-! ### JSON -/

/-- A list of texts. -/
def texts? (v : Json) : Option (List String) :=
  v.asArray?.bind fun items => items.mapM Json.asString?

/-- A text or `null`. -/
def maybeText? : Json → Option (Option String)
  | .null => some none
  | .string s => some (some s)
  | _ => none

/-- A natural number. -/
def natural? : Json → Option Nat
  | .int n => if 0 ≤ n then some n.toNat else none
  | _ => none

/-- Writes the value of a member into a configuration. -/
def member? (c : Config) (name : String) (v : Json) : Option Config :=
  match name with
  | "argv" => (texts? v).map fun a => { c with argv := a }
  | "base_dir" => (maybeText? v).map fun d => { c with baseDir := d }
  | "exit_when_idle" => v.asBool?.map fun b => { c with exitWhenIdle := b }
  | "max_timers" => (natural? v).map fun n => { c with maxTimers := n }
  | _ => some c

/-- The names of the members of a configuration, in the order in which an array gives them. -/
def memberNames : List String := ["argv", "base_dir", "exit_when_idle", "max_timers"]

/-- The members of an object up to its end. Members that are not known are passed over, and one that
is known may come only once; `seen` are those that came. -/
def members? (seen : List String) : Nat → Config → List Char → Option (Config × List Char)
  | 0, _, _ => none
  | fuel + 1, c, cs =>
    match Json.skipBlank cs with
    | '"' :: cs => do
      let (name, cs) ← Json.string? .keep cs
      let known := memberNames.contains name
      if known && seen.contains name then none
      match Json.skipBlank cs with
      | ':' :: cs =>
        let (v, cs) ← Json.value? (if known then .keep else .pass) (Json.fuelFor cs)
          (Json.maxDepth - 1) cs
        let c ← c.member? name v
        match Json.skipBlank cs with
        | ',' :: cs => members? (if known then name :: seen else seen) fuel c cs
        | '\x7d' :: cs => some (c, cs)
        | _ => none
      | _ => none
    | _ => none

/-- Writes values for the members in their order, as many as there are. -/
def ofItems? : Config → List String → List Json → Option Config
  | c, _, [] => some c
  | c, name :: names, v :: vs => (c.member? name v).bind fun c => ofItems? c names vs
  | _, [], _ :: _ => none

/-- Reads a configuration from a JSON text: an object of members, or an array of their values.
Members that are not given keep their defaults. -/
def parse? (s : String) : Option Config :=
  let complete (r : Config × List Char) : Option Config :=
    if (Json.skipBlank r.2).isEmpty then some r.1 else none
  match Json.skipBlank s.toList with
  | '\x7b' :: cs =>
    match Json.skipBlank cs with
    | '\x7d' :: cs => complete ({}, cs)
    | cs => (members? [] (cs.length + 1) {} cs).bind complete
  | '[' :: cs =>
    match Json.parse? (String.ofList ('[' :: cs)) with
    | some (.array items) => ofItems? {} memberNames items
    | _ => none
  | _ => none

/-- Reads a configuration from the content of a file. -/
def ofBytes (content : Bytes) : Except Fault Config :=
  match Text.decodeUtf8? content with
  | none => .error (.files .notText)
  | some s =>
    match parse? s with
    | some c => .ok c
    | none => .error (.json "malformed configuration")

/-- Loads a configuration from a file. -/
def load (t : FileTree) (cwd : Place) (path : String) : Except Fault Config :=
  match t.readBytes cwd path with
  | .error e => .error (.files e)
  | .ok content => ofBytes content

end Config

end ScriptHost
