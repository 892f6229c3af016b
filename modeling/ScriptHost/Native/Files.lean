import ScriptHost.Host.Action
import ScriptHost.Native.Failures

/-!
# Files for scripts

The functions of the module `fs`. Their arguments are checked first, then the options, and then
the operation is carried out; its failure is thrown as the error object of the operating system,
with the name of the operation and the path that was given first.

## Main definitions

* `FileFunction.checkEncoding`, `FileFunction.isRecursive`: reading the options.
* `FileFunction.perform`: an operation on the files of the platform.
* `FileFunction.invoke`: the functions.
-/

namespace ScriptHost.FileFunction

variable {E : Engine} {α : Type}

/-- The name of a function as messages have it. -/
def label : FileFunction → String
  | .doesExist => "fs.existsSync"
  | .read => "fs.readFileSync"
  | .write => "fs.writeFileSync"
  | .append => "fs.appendFileSync"
  | .makeDirectory => "fs.mkdirSync"
  | .list => "fs.readdirSync"
  | .unlink => "fs.unlinkSync"
  | .removeDirectory => "fs.rmdirSync"
  | .rename => "fs.renameSync"
  | .realPath => "fs.realpathSync"

/-- The operation of the operating system that a function is reported as. -/
def operation : FileFunction → String
  | .doesExist => "access"
  | .read | .write | .append => "open"
  | .makeDirectory => "mkdir"
  | .list => "scandir"
  | .unlink => "unlink"
  | .removeDirectory => "rmdir"
  | .rename => "rename"
  | .realPath => "realpath"

/-! ### Options -/

/-- The encoding that options name: the options themselves if they are a text, else what they have
under `encoding` if that is a text. -/
def encodingOption (options : Option E.Value) : EngineAction E (Option String) :=
  match options with
  | none => return none
  | some v =>
    if E.isUndefined v then return none
    else
      match E.asString v with
      | some name => return some name
      | none => do return E.asString (← EngineAction.getProperty v "encoding")

/-- Refuses options that name an encoding other than UTF-8. -/
def checkEncoding (f : FileFunction) (options : Option E.Value) : EngineAction E Unit := do
  match ← encodingOption options with
  | none => return
  | some name =>
    if name = "utf8" || name = "utf-8" then return
    else Action.fault (.badArgument (f.label ++ ": unsupported encoding '" ++ name ++ "'"))

/-- Whether options ask for a recursive operation. Options that do not count as true, or are a text,
ask for nothing. -/
def isRecursive (options : Option E.Value) : EngineAction E Bool :=
  match options with
  | none => return false
  | some v =>
    if E.truthy v && (E.asString v).isNone then do
      return E.truthy (← EngineAction.getProperty v "recursive")
    else return false

/-! ### Operations -/

/-- An operation on the files of the platform. What it has changed when it fails stays. -/
def onFiles (f : FileTree → Place → Except IoFailure α × FileTree) :
    HostAction E (Except IoFailure α) :=
  fun _ h =>
    let (r, files) := f h.platform.files h.platform.cwd
    (.ok r, { h with platform := { h.platform with files } })

/-- A result that leaves the files as they were. -/
def looking (f : FileTree → Place → Except IoFailure α) :
    FileTree → Place → Except IoFailure α × FileTree := fun t cwd => (f t cwd, t)

/-- A change of the files that is made as a whole or not at all. -/
def changing (f : FileTree → Place → Except IoFailure FileTree) :
    FileTree → Place → Except IoFailure Unit × FileTree := fun t cwd =>
  match f t cwd with
  | .ok t => (.ok (), t)
  | .error e => (.error e, t)

/-- Carries out an operation and throws its failure. -/
def perform (f : FileFunction) (path : String)
    (x : FileTree → Place → Except IoFailure α × FileTree) : HostAction E α := do
  match ← onFiles x with
  | .ok a => return a
  | .error failure => (Failures.raise failure f.operation path : EngineAction E α)

/-- An argument that is a text. -/
def text (f : FileFunction) (args : List E.Value) (index : Nat) (name : String) :
    HostAction E String :=
  Action.ofExcept (Arguments.string E args index f.label name)

/-! ### Functions -/

/-- Whether the first argument is a path that leads to an entry. -/
def existence (args : List E.Value) (p : Platform) : Bool :=
  ((args.head?.bind E.asString).map (p.files.exists_ p.cwd)).getD false

/-- The functions on files. -/
def invoke (f : FileFunction) (args : List E.Value) : HostAction E E.Value :=
  match f with
  | .doesExist => return E.boolean (← HostAction.ask (existence args))
  | .read => do
    let path ← f.text args 0 "path"
    f.checkEncoding args[1]?
    return E.string (← f.perform path (looking fun t cwd => t.readLossy cwd path))
  | .write => do
    let path ← f.text args 0 "path"
    let data ← f.text args 1 "data"
    f.checkEncoding args[2]?
    f.perform path (changing fun t cwd => t.write cwd path data)
    return E.undefined
  | .append => do
    let path ← f.text args 0 "path"
    let data ← f.text args 1 "data"
    f.checkEncoding args[2]?
    f.perform path (changing fun t cwd => t.append cwd path data)
    return E.undefined
  | .makeDirectory => do
    let path ← f.text args 0 "path"
    if ← isRecursive args[1]? then f.perform path fun t cwd => t.makeDirectories cwd path
    else f.perform path (changing fun t cwd => t.makeDirectory cwd path)
    return E.undefined
  | .list => do
    let path ← f.text args 0 "path"
    let names ← f.perform path (looking fun t cwd => t.list cwd path)
    EngineAction.newArray (names.map E.string)
  | .unlink => do
    let path ← f.text args 0 "path"
    f.perform path (changing fun t cwd => t.unlink cwd path)
    return E.undefined
  | .removeDirectory => do
    let path ← f.text args 0 "path"
    if ← isRecursive args[1]? then f.perform path fun t cwd => t.removeAll cwd path
    else f.perform path (changing fun t cwd => t.removeDirectory cwd path)
    return E.undefined
  | .rename => do
    let old ← f.text args 0 "oldPath"
    let new ← f.text args 1 "newPath"
    f.perform old (changing fun t cwd => t.rename cwd old new)
    return E.undefined
  | .realPath => do
    let path ← f.text args 0 "path"
    return E.string (← f.perform path (looking fun t cwd => t.realPath cwd path))

end ScriptHost.FileFunction
