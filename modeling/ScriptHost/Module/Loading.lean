import ScriptHost.Host.Action

/-!
# Loading modules

What loading a module consists of, apart from the evaluation of its body: finding the module, making
its objects and noting that its body is being evaluated, and entering it as loaded afterwards.

## Main definitions

* `Loading.find`: where a module comes from: native, loaded, being evaluated, or from the resolver.
* `Loading.resolve`: the canonical id of a specifier.
* `Loading.enter`, `Loading.markLoaded`: before and after the evaluation of a body.
-/

namespace ScriptHost

/-- The loading of a module whose body is being evaluated. -/
structure Loading (V : Type) where
  /-- The runtime that the module belongs to. -/
  owner : RuntimeId
  /-- The canonical id. -/
  id : String
  /-- The file of the module. -/
  filename : String
  /-- The module object. -/
  object : V
deriving DecidableEq

/-- Where a module comes from. -/
inductive Origin (V : Type) where
  /-- It is native: these are its exports. -/
  | native (exports : V)
  /-- It has a module object already. -/
  | object (v : V)
  /-- It is to be evaluated. -/
  | resolved (m : ResolvedModule)

namespace Loading

variable {E : Engine}

/-- The module tables of a runtime. -/
def tables (owner : RuntimeId) : HostAction E (ModuleTable E.Value) := fun _ h =>
  (.ok (((h.runtimes.get? owner).map Runtime.modules).getD .empty), h)

/-- Asks the resolver of a runtime. -/
def ask (owner : RuntimeId) (q : Question) : HostAction E ResolvedModule := fun seat h =>
  match h.runtimes.get? owner with
  | none => HostAction.detached seat h
  | some r =>
    let answer := r.resolver.answer h.platform r.questions q
    (answer.mapError .fault, h.put owner { r with questions := r.questions ++ [q] })

/-- Finds a module: a native one by its id, then a loaded one by its id as it is written, and only
then by the resolver, which names one that is loaded or being evaluated already, or a new one. -/
def find (owner : RuntimeId) (q : Question) : HostAction E (Origin E.Value) := do
  let table ← tables owner
  match table.natives.get? q.specifier with
  | some exports => return .native exports
  | none =>
    match table.cached.get? q.specifier with
    | some m => return .object m.object
    | none =>
      let m ← ask owner q
      let table ← tables owner
      match table.cached.get? m.id, table.loading.get? m.id with
      | some c, _ => return .object c.object
      | none, some object => return .object object
      | none, none => return .resolved m

/-- The canonical id of a specifier; a native module has the specifier itself as its id. -/
def resolve (owner : RuntimeId) (q : Question) : HostAction E String := do
  if (← tables owner).natives.contains q.specifier then return q.specifier
  else return (← ask owner q).id

/-- The exports that a module object has at the moment. -/
def exportsOf (object : E.Value) : HostAction E E.Value := EngineAction.getProperty object "exports"

/-- Changes the module tables of a runtime. -/
def changeTables (owner : RuntimeId) (f : ModuleTable E.Value → ModuleTable E.Value) :
    HostAction E Unit :=
  Action.modify fun h => h.update owner fun r => { r with modules := f r.modules }

/-- Makes the module object and the exports object of a module, and notes that its body is being
evaluated. -/
def enter (owner : RuntimeId) (m : ResolvedModule) (require : E.Value) :
    HostAction E (Loading E.Value × ModuleScope E.Value) := do
  let object ← EngineAction.newObject (E := E)
  let exports ← EngineAction.newObject (E := E)
  EngineAction.defineValues object
    [("id", E.string m.id), ("filename", E.string m.filename), ("loaded", E.boolean false),
     ("exports", exports)]
  changeTables owner fun t => t.beginLoading m.id object
  return (⟨owner, m.id, m.filename, object⟩,
    { id := m.id, filename := m.filename, dirname := m.dirname, source := m.source,
      module := object, exports, require })

/-- Notes that the evaluation of a body has ended. -/
def finish (l : Loading E.Value) : HostAction E Unit :=
  changeTables l.owner fun t => t.finishLoading l.id

/-- Marks the module object of an evaluated module. -/
def markLoaded (l : Loading E.Value) : HostAction E Unit :=
  EngineAction.defineValue l.object "loaded" (E.boolean true)

/-- Enters an evaluated module as loaded; `none` if its id is taken. -/
def cache? (h : Host E) (l : Loading E.Value) : Option (Host E) :=
  match h.runtimes.get? l.owner with
  | none => some h
  | some r =>
    (r.modules.cache? l.id l.object l.filename).map fun modules => h.put l.owner { r with modules }

end Loading

end ScriptHost
