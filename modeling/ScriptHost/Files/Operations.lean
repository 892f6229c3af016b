import ScriptHost.Files.Tree
import ScriptHost.Path

/-!
# Operations on files

Reading and changing a file tree by paths, seen from a working directory. A failing operation
leaves the tree as it was, but for the recursive ones, which keep what they had done before.

## Main definitions

* `FileTree.exists_`, `FileTree.isFile`, `FileTree.realPath`, `FileTree.list`: looking.
* `FileTree.readBytes`, `FileTree.readText`, `FileTree.readLossy`: reading a file.
* `FileTree.write`, `FileTree.append`: writing one.
* `FileTree.makeDirectory`, `FileTree.makeDirectories`, `FileTree.unlink`,
  `FileTree.removeDirectory`, `FileTree.removeAll`, `FileTree.rename`: changing the tree.
-/

namespace ScriptHost.FileTree

/-- An operation refused by the operating system. -/
def refuse {α : Type} (errno : Int) : Except IoFailure α := .error (.system errno)

variable (t : FileTree) (cwd : Place)

/-! ### Looking -/

/-- The place and entry that a path leads to, links followed. -/
def find (path : String) : Except IoFailure (Place × Entry) := do
  match ← t.locate cwd .target path with
  | .found place entry => return (place, entry)
  | .absent _ _ => refuse Errno.notFound

/-- Whether a path leads to an entry. -/
def exists_ (path : String) : Bool := (t.find cwd path).isOk

/-- Whether a path leads to a file. -/
def isFile (path : String) : Bool :=
  match t.find cwd path with
  | .ok (_, .file _) => true
  | _ => false

/-- Whether a path leads to a directory. -/
def leadsToDirectory (path : String) : Bool :=
  match t.find cwd path with
  | .ok (_, .directory) => true
  | _ => false

/-- The absolute path, free of links, of where a path leads. The path is taken step by step, so that
its length does not matter. -/
def realPath (path : String) : Except IoFailure String := do
  let here ← t.origin cwd path
  match ← (t.walk .target maxLinks here (steps path)).mapError .system with
  | .found place _ => return Place.path place
  | .absent _ _ => refuse Errno.notFound

/-- The names in a directory, in code point order. -/
def list (path : String) : Except IoFailure (List String) := do
  match ← t.find cwd path with
  | (place, .directory) => return t.names place
  | _ => refuse Errno.notDirectory

/-! ### Reading -/

/-- The content of a file. -/
def readBytes (path : String) : Except IoFailure Bytes := do
  match ← t.find cwd path with
  | (_, .file content) => return content
  | _ => refuse Errno.isDirectory

/-- The content of a file that must be UTF-8. -/
def readText (path : String) : Except IoFailure String := do
  match Text.decodeUtf8? (← t.readBytes cwd path) with
  | some s => return s
  | none => throw .notText

/-- The content of a file as text, ill-formed UTF-8 replaced. -/
def readLossy (path : String) : Except IoFailure String :=
  (t.readBytes cwd path).map Text.decodeUtf8

/-! ### Writing -/

/-- Writes the file that a path leads to: `change` makes its new content from the old, which is
empty for a file that is made by this. -/
def update (path : String) (change : Bytes → Bytes) : Except IoFailure FileTree := do
  match ← t.locate cwd .file path with
  | .found place (.file content) => return t.put place (.file (change content))
  | .found _ _ => refuse Errno.isDirectory
  | .absent dir name => return t.put (dir ++ [name]) (.file (change []))

/-- Writes a text over what a file holds. -/
def write (path data : String) : Except IoFailure FileTree :=
  t.update cwd path fun _ => Text.encodeUtf8 data

/-- Writes a text behind what a file holds. -/
def append (path data : String) : Except IoFailure FileTree :=
  t.update cwd path fun old => old ++ Text.encodeUtf8 data

/-! ### Directories -/

/-- Makes a directory. -/
def makeDirectory (path : String) : Except IoFailure FileTree := do
  match ← t.slot cwd path with
  | .entry dir name _ =>
    if (← t.child? dir name).isSome then refuse Errno.exists_
    else return t.put (dir ++ [name]) .directory
  | _ => refuse Errno.exists_

/-- Makes a directory and the directories above it that are missing, at most `fuel` of them. A
directory that is already there is no failure. -/
def makeChain : Nat → FileTree → Place → String → Except IoFailure Unit × FileTree
  | 0, t, _, _ => (refuse Errno.notFound, t)
  | fuel + 1, t, cwd, path =>
    if path.isEmpty then (.ok (), t)
    else
      match t.makeDirectory cwd path with
      | .ok t => (.ok (), t)
      | .error e =>
        if e ≠ .system Errno.notFound then
          (if t.leadsToDirectory cwd path then .ok () else .error e, t)
        else
          match Path.parent? path with
          | none => (.error (.other "failed to create whole tree"), t)
          | some above =>
            match makeChain fuel t cwd above with
            | (.error e, t) => (.error e, t)
            | (.ok (), t) =>
              match t.makeDirectory cwd path with
              | .ok t => (.ok (), t)
              | .error e => (if t.leadsToDirectory cwd path then .ok () else .error e, t)

/-- Makes a directory and the directories above it that are missing. -/
def makeDirectories (path : String) : Except IoFailure Unit × FileTree :=
  makeChain (path.length + 1) t cwd path

/-- Removes an empty directory. -/
def removeDirectory (path : String) : Except IoFailure FileTree := do
  match ← t.slot cwd path with
  | .root => refuse Errno.busy
  | .self => refuse Errno.invalid
  | .above => refuse Errno.notEmpty
  | .entry dir name _ =>
    match ← t.child? dir name with
    | none => refuse Errno.notFound
    | some .directory =>
      if (t.names (dir ++ [name])).isEmpty then return t.remove (dir ++ [name])
      else refuse Errno.notEmpty
    | some _ => refuse Errno.notDirectory

/-- Removes a file or a link. -/
def unlink (path : String) : Except IoFailure FileTree := do
  match ← t.slot cwd path with
  | .entry dir name slash =>
    match ← t.child? dir name with
    | none => refuse Errno.notFound
    | some .directory => refuse Errno.isDirectory
    | some _ => if slash then refuse Errno.notDirectory else return t.remove (dir ++ [name])
  | _ => refuse Errno.isDirectory

/-- Removes a directory with all that is in it; a link is removed and not followed. -/
def removeAll (path : String) : Except IoFailure Unit × FileTree :=
  match t.locate cwd .entry path with
  | .error e => (.error e, t)
  | .ok (.absent _ _) => (refuse Errno.notFound, t)
  | .ok (.found _ (.file _)) => (refuse Errno.notDirectory, t)
  | .ok (.found _ (.link _)) =>
    match t.unlink cwd path with
    | .ok t => (.ok (), t)
    | .error e => (.error e, t)
  | .ok (.found place .directory) =>
    let cleared := t.clear place
    match cleared.removeDirectory cwd path with
    | .ok t => (.ok (), t)
    | .error e => (if e = .system Errno.notFound then .ok () else .error e, cleared)

/-! ### Renaming -/

/-- Moves an entry to another name. An entry that has the new name already gives way, unless the
one is a directory and the other is not, or it is a directory with something in it. Both paths must
be acceptable as text before either is walked. -/
def rename (old new : String) : Except IoFailure FileTree := do
  if new.toList.contains '\x00' then throw .nulInPath
  let source ← t.slot cwd old
  let target ← t.slot cwd new
  match source, target with
  | .entry dir name slash, .entry dir' name' slash' =>
    let p := dir ++ [name]
    let q := dir' ++ [name']
    match ← t.child? dir name with
    | none => refuse Errno.notFound
    | some entry =>
      let there ← t.child? dir' name'
      let isDir := entry == .directory
      if !isDir && (slash || slash') then refuse Errno.notDirectory
      else if p ≠ q && p.isPrefixOf q then refuse Errno.invalid
      else if p ≠ q && q.isPrefixOf p then refuse Errno.notEmpty
      else if p = q then return t
      else
        match there with
        | none => return t.move p q
        | some there =>
          if isDir && there != .directory then refuse Errno.notDirectory
          else if !isDir && there == .directory then refuse Errno.isDirectory
          else if isDir && !(t.names q).isEmpty then refuse Errno.notEmpty
          else return t.move p q
  | _, _ => refuse Errno.busy

end ScriptHost.FileTree
