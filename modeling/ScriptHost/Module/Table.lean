import ScriptHost.Table

/-!
# Module tables

The modules of one runtime: the native ones, those that have been loaded, and those whose body is
being evaluated. A native module and a loaded module are entered once and never replaced.

## Main definitions

* `ModuleTable`: the three tables.
* `ModuleTable.registerNative?`, `ModuleTable.cache?`: entering a module for good.
* `ModuleTable.beginLoading`, `ModuleTable.finishLoading`: around an evaluation.
-/

namespace ScriptHost

/-- A module that has been loaded. -/
structure CachedModule (V : Type) where
  /-- The module object. -/
  object : V
  /-- The file of the module. -/
  filename : String

/-- The modules of one runtime. -/
structure ModuleTable (V : Type) where
  /-- The native modules by their ids. -/
  natives : Table String V
  /-- The loaded modules by their canonical ids. -/
  cached : Table String (CachedModule V)
  /-- The module objects of evaluations in progress by canonical ids. -/
  loading : Table String V

namespace ModuleTable

variable {V : Type}

/-- No modules. -/
def empty : ModuleTable V := ⟨.empty, .empty, .empty⟩

/-- Enters a native module; `none` if its id is taken. -/
def registerNative? (m : ModuleTable V) (id : String) (object : V) : Option (ModuleTable V) :=
  if m.natives.contains id then none else some { m with natives := m.natives.insert id object }

/-- What the host is told when a native module is entered a second time. -/
def nativeClash (id : String) : String := "native module '" ++ id ++ "' registered twice"

/-- Enters a loaded module; `none` if its id is taken. -/
def cache? (m : ModuleTable V) (id : String) (object : V) (filename : String) :
    Option (ModuleTable V) :=
  if m.cached.contains id then none
  else some { m with cached := m.cached.insert id ⟨object, filename⟩ }

/-- What the host is told when a module is entered as loaded a second time. -/
def cacheClash (id : String) : String := "module '" ++ id ++ "' cached twice"

/-- Notes that a module is being evaluated. -/
def beginLoading (m : ModuleTable V) (id : String) (object : V) : ModuleTable V :=
  { m with loading := m.loading.insert id object }

/-- Notes that the evaluation of a module has ended. -/
def finishLoading (m : ModuleTable V) (id : String) : ModuleTable V :=
  { m with loading := m.loading.erase id }

/-- Ids in code point order. -/
def sorted (ids : List String) : List String := ids.mergeSort fun a b => !decide (b < a)

/-- The ids of the native modules, in order. -/
def nativeIds (m : ModuleTable V) : List String := sorted m.natives.keys

/-- The ids of the loaded modules, in order. -/
def cachedIds (m : ModuleTable V) : List String := sorted m.cached.keys

end ModuleTable

end ScriptHost
