import ScriptHost.Table
import ScriptHost.Bytes.Encoding
import ScriptHost.Errno

/-!
# File trees

A file tree holds files, directories and symbolic links, each at its place: the names that lead to
it from the root. The root is a directory and has no row. A path given to an operation is walked
from place to place; symbolic links on the way are followed, at most `FileTree.maxLinks` of them.

## Main definitions

* `FileTree`, `Entry`, `Place`: what there is, and where.
* `FileTree.walk`: where a sequence of steps leads.
* `FileTree.locate`: where a path leads, with or without following a link at its end.
* `FileTree.slot`: the directory and the name that a path would create or remove.
-/

namespace ScriptHost

/-- The names that lead from the root to an entry, outermost first. -/
abbrev Place := List String

/-- An entry of a file tree. -/
inductive Entry where
  /-- A file with its content. -/
  | file (content : Bytes)
  /-- A directory. -/
  | directory
  /-- A symbolic link with the path that it stands for. -/
  | link (target : String)
deriving DecidableEq

/-- A tree of files, directories and symbolic links. -/
structure FileTree where
  /-- The entries below the root by their places. -/
  entries : Table Place Entry

/-- The absolute path of a place. -/
def Place.path (p : Place) : String := "/" ++ String.intercalate "/" p

namespace FileTree

/-- The tree that is nothing but its root. -/
def empty : FileTree := ⟨.empty⟩

instance : Inhabited FileTree := ⟨empty⟩

/-- The entry at a place. -/
def entry? (t : FileTree) (p : Place) : Option Entry :=
  if p = [] then some .directory else t.entries.get? p

/-- Whether there is a directory at a place. -/
def isDirectory (t : FileTree) (p : Place) : Bool := t.entry? p == some .directory

/-- The names in a directory, in code point order. -/
def names (t : FileTree) (dir : Place) : List String :=
  (t.entries.keys.filterMap fun p =>
    if p.length = dir.length + 1 ∧ dir.isPrefixOf p then p.getLast? else none).mergeSort
      fun a b => !decide (b < a)

/-- The tree with an entry written at a place. -/
def put (t : FileTree) (p : Place) (e : Entry) : FileTree := ⟨t.entries.insert p e⟩

/-- The tree without the entry at a place and all that lies below it. -/
def remove (t : FileTree) (p : Place) : FileTree :=
  ⟨⟨t.entries.rows.filter fun r => !p.isPrefixOf r.1⟩⟩

/-- The tree without what lies below a place. -/
def clear (t : FileTree) (p : Place) : FileTree :=
  ⟨⟨t.entries.rows.filter fun r => !p.isPrefixOf r.1 || r.1 == p⟩⟩

/-- The tree with the entry at `p`, and all that lies below it, moved to `q`. -/
def move (t : FileTree) (p q : Place) : FileTree :=
  let rest := (t.remove q).entries.rows
  ⟨⟨rest.map fun r => if p.isPrefixOf r.1 then (q ++ r.1.drop p.length, r.2) else r⟩⟩

/-- The tree with an entry at a place, and directories above it where there was nothing. -/
def plant (t : FileTree) (p : Place) (e : Entry) : FileTree :=
  let above := (List.range p.length).map fun i => p.take i
  (above.foldl (fun t q => if (t.entry? q).isNone then t.put q .directory else t) t).put p e

/-! ### Walking -/

/-- The most symbolic links that one walk follows. -/
def maxLinks : Nat := 40

/-- The most bytes that a name may have. -/
def maxName : Nat := 255

/-- The bytes from which on a path is too long. -/
def maxPath : Nat := 4096

/-- The named components of a path. -/
def components (path : String) : List String :=
  ((path.toList.splitOn '/').filter (· ≠ [])).map String.ofList

/-- Whether a path ends in a slash. -/
def endsInSlash (path : String) : Bool := path.toList.getLast? == some '/'

/-- The steps that a path takes. A slash at the end asks for a directory: it is one more step,
without a name, to the place itself. -/
def steps (path : String) : List String :=
  components path ++ if endsInSlash path then [""] else []

/-- Whether a path starts at the root. -/
def isAbsolute (path : String) : Bool := path.toList.head? == some '/'

/-- Where a walk ends. -/
inductive Spot where
  /-- At an entry. -/
  | found (place : Place) (entry : Entry)
  /-- In a directory without an entry of the last name. -/
  | absent (dir : Place) (name : String)

/-- What is asked of the end of a walk. -/
inductive Ending where
  /-- The entry itself, a link not followed. -/
  | entry
  /-- What the entry leads to. -/
  | target
  /-- A file, which may still have to be made: what the entry leads to, but not by a name with a
  slash behind it. -/
  | file
deriving DecidableEq

/-- Takes steps from the directory `here`, following at most `links` symbolic links on the way, and
at the very end if that is asked for. -/
def walk (t : FileTree) (ending : Ending) (links : Nat) (here : Place) :
    List String → Except Int Spot
  | [] => .ok (.found here .directory)
  | name :: rest =>
    if name = "." ∨ name = "" then walk t ending links here rest
    else if name = ".." then walk t ending links here.dropLast rest
    else if ending = .file ∧ rest = [""] then .error Errno.isDirectory
    else if maxName < name.utf8ByteSize then .error Errno.nameTooLong
    else
      match t.entry? (here ++ [name]) with
      | none => if rest.isEmpty then .ok (.absent here name) else .error Errno.notFound
      | some .directory => walk t ending links (here ++ [name]) rest
      | some (.file content) =>
        if rest.isEmpty then .ok (.found (here ++ [name]) (.file content))
        else .error Errno.notDirectory
      | some (.link target) =>
        if rest.isEmpty && ending = .entry then .ok (.found (here ++ [name]) (.link target))
        else
          match links with
          | 0 => .error Errno.tooManyLinks
          | links + 1 =>
            if target.isEmpty then .error Errno.notFound
            else walk t ending links (if isAbsolute target then [] else here) (steps target ++ rest)
termination_by todo => (links, todo.length)

/-- The directory that a path starts from. -/
def origin (t : FileTree) (cwd : Place) (path : String) : Except IoFailure Place :=
  if path.toList.contains '\x00' then .error .nulInPath
  else if path.isEmpty then .error (.system Errno.notFound)
  else if isAbsolute path then .ok []
  else if t.isDirectory cwd then .ok cwd
  else .error (.system Errno.notFound)

/-- The directory that a path starts from, once the operating system accepts the path's text. -/
def start (t : FileTree) (cwd : Place) (path : String) : Except IoFailure Place :=
  if maxPath ≤ path.utf8ByteSize && !path.toList.contains '\x00' then
    .error (.system Errno.nameTooLong)
  else t.origin cwd path

/-- Where a path leads from the working directory. -/
def locate (t : FileTree) (cwd : Place) (ending : Ending) (path : String) :
    Except IoFailure Spot := do
  let here ← t.start cwd path
  (t.walk ending maxLinks here (steps path)).mapError .system

/-- What a path names in its last step. -/
inductive Slot where
  /-- The root. -/
  | root
  /-- A directory by `.`. -/
  | self
  /-- A directory by `..`. -/
  | above
  /-- A name in a directory, with or without slashes behind it. -/
  | entry (dir : Place) (name : String) (slash : Bool)

/-- The slot of a path: all steps but the last are walked and must lead to a directory. -/
def slot (t : FileTree) (cwd : Place) (path : String) : Except IoFailure Slot := do
  let here ← t.start cwd path
  match (components path).getLast? with
  | none => return .root
  | some last =>
    let above := (components path).dropLast ++ ["."]
    match ← (t.walk .target maxLinks here above).mapError .system with
    | .absent _ _ => throw (.system Errno.notFound)
    | .found dir _ =>
      if last = "." then return .self
      else if last = ".." then return .above
      else return .entry dir last (endsInSlash path)

/-- The entry of a name in a directory, if there is one. -/
def child? (t : FileTree) (dir : Place) (name : String) : Except IoFailure (Option Entry) :=
  if maxName < name.utf8ByteSize then .error (.system Errno.nameTooLong)
  else .ok (t.entry? (dir ++ [name]))

end FileTree

end ScriptHost
