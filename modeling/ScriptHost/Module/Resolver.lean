import ScriptHost.Platform

/-!
# Module resolvers

A resolver finds the module that a specifier names. What it answers may depend on the platform and
on what it was asked before.

## Main definitions

* `Question`, `ResolvedModule`: what a resolver is asked and what it finds.
* `Resolver`: a resolver.
* `Resolver.ofFiles`: modules are the files of the platform, named by their canonical paths.
* `Resolver.ofSources`: modules are the rows of a table of absolute paths.
* `Resolver.ofAnswers`: the answers are the rows of a table of specifiers.
-/

namespace ScriptHost

/-- A question to a resolver. -/
structure Question where
  /-- The specifier as it was written. -/
  specifier : String
  /-- The directory of the module that asks; the top level has none. -/
  dir : Option String
deriving DecidableEq

/-- A module that was found. -/
structure ResolvedModule where
  /-- The canonical id. -/
  id : String
  /-- The file of the module. -/
  filename : String
  /-- The text of the module. -/
  source : String
deriving DecidableEq

/-- The directory of a module: its file without the last component. -/
def ResolvedModule.dirname (m : ResolvedModule) : String := (Path.parent? m.filename).getD "."

/-- A resolver: what it answers on a platform after the questions so far. -/
structure Resolver where
  /-- The answer to a question. -/
  answer : Platform → List Question → Question → Except Fault ResolvedModule

namespace Resolver

/-- Answers from the files of the platform. Only paths are resolved: relative ones from the asking
directory, or from `base` at the top level. A path must lead to a file, and the canonical path of
the file is the id. -/
def ofFiles (base : String) : Resolver where
  answer p _ q :=
    if !Path.isSpecifier q.specifier then .error (.moduleNotFound q.specifier)
    else
      let path := Path.beneath (q.dir.getD base) q.specifier
      if !p.files.isFile p.cwd path then .error (.moduleNotFound q.specifier)
      else
        match p.files.realPath p.cwd path with
        | .error e => .error (.moduleUnreadable q.specifier e.text)
        | .ok filename =>
          match p.files.readText p.cwd filename with
          | .error e => .error (.moduleUnreadable q.specifier e.text)
          | .ok source => .ok ⟨filename, filename, source⟩

/-- Answers from a table of sources under absolute paths. Only paths are resolved: lexically, from
the asking directory, or from `base` at the top level. -/
def ofSources (base : String) (sources : Table String String) : Resolver where
  answer _ _ q :=
    if !Path.isSpecifier q.specifier then .error (.moduleNotFound q.specifier)
    else
      let filename := Path.resolveFrom (q.dir.getD base) [q.specifier]
      match sources.get? filename with
      | some source => .ok ⟨filename, filename, source⟩
      | none => .error (.moduleNotFound q.specifier)

/-- Answers from a table under specifiers, wherever they are asked from. -/
def ofAnswers (answers : Table String (Except Fault ResolvedModule)) : Resolver where
  answer _ _ q := (answers.get? q.specifier).getD (.error (.moduleNotFound q.specifier))

end Resolver

end ScriptHost
