import ScriptHost.Native.Files
import ScriptHost.Proofs.Buffers.ByteValues
import ScriptHost.Proofs.Files.Refusals
import ScriptHost.Proofs.Script.Objects

/-!
# Failures of the functions on files

A function on files checks its arguments, carries out one operation and makes its answer out of the
outcome. If the operation fails, an error object is thrown. If the operating system has refused the
operation, the object carries the number, its symbol if there is one, the operation and the path. If
a path has a NUL character, nothing is asked of the operating system; the object carries then the
number of an input or output error, but neither the symbol of that number nor operation and path.

## Main definitions

* `Failures.message`, `Failures.carried`: the message of an error object, and what it carries.
* `Failures.IsUniform`: the properties that all error objects should have.
* `FileFunction.accept`, `FileFunction.operate`, `FileFunction.answer`: the parts of a function.

## Main results

* `FileFunction.invoke_eq`: a function is its parts, one after another.
* `FileFunction.failures_uniform`: what is thrown if an operation fails.
* `FileFunction.nulInPath_notUniform`: what is thrown for a path with a NUL character.
-/

namespace ScriptHost

variable {E : Engine} {seat : Seat}

/-! ### Error objects -/

namespace Failures

/-- The message of the error object for a failed operation. -/
def message : IoFailure → String
  | .system n => Errno.description n
  | .other reason => reason

/-- What the error object for a failed operation carries. -/
def carried (failure : IoFailure) (operation path : String) : List (String × E.Value) :=
  match failure with
  | .system n => ("errno", E.number (.ofInt n)) ::
      (details n operation path).map fun d => (d.1, E.string d.2)
  | .other _ => [("errno", E.number (.ofInt Errno.inputOutput))]

theorem errorOf_eq (failure : IoFailure) (operation path : String) :
    (errorOf failure operation path : EngineAction E E.Value) = do
      let error ← EngineAction.newError .error (message failure)
      EngineAction.defineValues error (carried failure operation path)
      return error := by
  cases failure with
  | system n =>
    simp only [errorOf, systemError, message, carried, EngineAction.defineValues, bind_assoc]
  | other reason =>
    simp only [errorOf, message, carried, EngineAction.defineValues, bind_assoc, pure_bind]

/-- An error object is made and given what it carries. -/
theorem errorOf_spec {M : E.Objects seat} (H : M.MakesErrors) {s : E.State} (hfree : M.Free s)
    (failure : IoFailure) (operation path : String) :
    let made := E.newError seat .error (message failure) s
    ∃ p s', M.Holds made.2 made.1 p ∧ errorOf failure operation path seat s = (.ok made.1, s') ∧
      M.Holds s' made.1 (p.writeAll (carried failure operation path)) ∧ M.Keeps s s' := by
  intro made
  obtain ⟨p, hholds, hnew, hkeeps⟩ := H.newError .error (message failure) hfree
  obtain ⟨s', hdefine, hcarried, hbut⟩ := M.defineValues (carried failure operation path) hholds
  refine ⟨p, s', hholds, ?_, hcarried, .of_isNew hkeeps hnew hbut⟩
  rw [errorOf_eq, Action.bind_def, EngineAction.newError, Action.ofState]
  simp only [Action.bind_def, hdefine]
  rfl

/-- Raising a failure ends with an exception, whatever result is looked for. -/
theorem exists_raise_eq (failure : IoFailure) (operation path : String) (seat : Seat)
    (s : E.State) : ∃ e s', ∀ α : Type,
      (raise failure operation path : EngineAction E α) seat s = (.error e, s') := by
  rcases herror : (errorOf failure operation path : EngineAction E E.Value) seat s with ⟨e | v, s'⟩
  · exact ⟨e, s', fun _ => by rw [raise, Action.bind_def, herror]⟩
  · exact ⟨.thrown v, s', fun _ => by rw [raise, Action.bind_def, herror]; rfl⟩

/-- The properties of an error object of the operating system: each is there unless what it would
hold is not known or empty. -/
structure IsUniform (p : Properties E.Value) (n : Int) (operation path : String) : Prop where
  errno : p "errno" = some (E.number (.ofInt n))
  code : ∀ symbol, Errno.symbol? n = some symbol → p "code" = some (E.string symbol)
  syscall : operation ≠ "" → p "syscall" = some (E.string operation)
  path : path ≠ "" → p "path" = some (E.string path)

theorem nodup_carried (n : Int) (operation path : String) :
    ((carried (E := E) (.system n) operation path).map Prod.fst).Nodup := by
  rw [carried, details]
  cases Errno.symbol? n <;> cases operation.isEmpty <;> cases path.isEmpty <;> simp

theorem isUniform_carried (p : Properties E.Value) (n : Int) (operation path : String) :
    IsUniform (p.writeAll (carried (.system n) operation path)) n operation path := by
  have hnodup := nodup_carried (E := E) n operation path
  constructor
  · exact Properties.writeAll_of_mem hnodup List.mem_cons_self
  · intro symbol hsymbol
    refine Properties.writeAll_of_mem hnodup ?_
    simp [carried, details, hsymbol]
  · intro hoperation
    refine Properties.writeAll_of_mem hnodup ?_
    simp [carried, details, hoperation]
  · intro hpath
    refine Properties.writeAll_of_mem hnodup ?_
    simp [carried, details, hpath]

end Failures

/-! ### The parts of a function -/

namespace FileFunction

/-- What is asked for, once the arguments have been accepted. -/
structure Request where
  /-- The path that was given first. -/
  path : String
  /-- The text that was given second: what is written, or the new path. -/
  second : String := ""
  /-- Whether the operation is recursive. -/
  recursive : Bool := false

/-- What an operation comes to. -/
inductive Outcome where
  /-- Nothing to be told. -/
  | nothing
  /-- A text. -/
  | text (s : String)
  /-- The names in a directory. -/
  | names (ns : List String)

/-- Checks the arguments and reads the options. -/
def accept (f : FileFunction) (args : List E.Value) : HostAction E Request :=
  match f with
  | .doesExist => return { path := "" }
  | .read => do
    let path ← f.text args 0 "path"
    f.checkEncoding args[1]?
    return { path }
  | .write | .append => do
    let path ← f.text args 0 "path"
    let second ← f.text args 1 "data"
    f.checkEncoding args[2]?
    return { path, second }
  | .makeDirectory | .removeDirectory => do
    let path ← f.text args 0 "path"
    let recursive ← isRecursive args[1]?
    return { path, recursive }
  | .list | .unlink | .realPath => do
    let path ← f.text args 0 "path"
    return { path }
  | .rename => do
    let path ← f.text args 0 "oldPath"
    let second ← f.text args 1 "newPath"
    return { path, second }

/-- An operation with its result made into something else. -/
def mapping {α β : Type} (g : α → β) (x : FileTree → Place → Except IoFailure α × FileTree) :
    FileTree → Place → Except IoFailure β × FileTree := fun t cwd =>
  ((x t cwd).1.map g, (x t cwd).2)

/-- The operation that a function carries out. -/
def operate (f : FileFunction) (r : Request) :
    FileTree → Place → Except IoFailure Outcome × FileTree :=
  match f with
  | .doesExist => looking fun _ _ => .ok .nothing
  | .read => mapping .text (looking fun t cwd => t.readLossy cwd r.path)
  | .write => mapping (fun _ => .nothing) (changing fun t cwd => t.write cwd r.path r.second)
  | .append => mapping (fun _ => .nothing) (changing fun t cwd => t.append cwd r.path r.second)
  | .makeDirectory =>
    mapping (fun _ => .nothing) (if r.recursive then fun t cwd => t.makeDirectories cwd r.path
      else changing fun t cwd => t.makeDirectory cwd r.path)
  | .list => mapping .names (looking fun t cwd => t.list cwd r.path)
  | .unlink => mapping (fun _ => .nothing) (changing fun t cwd => t.unlink cwd r.path)
  | .removeDirectory =>
    mapping (fun _ => .nothing) (if r.recursive then fun t cwd => t.removeAll cwd r.path
      else changing fun t cwd => t.removeDirectory cwd r.path)
  | .rename => mapping (fun _ => .nothing) (changing fun t cwd => t.rename cwd r.path r.second)
  | .realPath => mapping .text (looking fun t cwd => t.realPath cwd r.path)

/-- The answer to a script. -/
def answer : Outcome → HostAction E E.Value
  | .nothing => return E.undefined
  | .text s => return E.string s
  | .names ns => (EngineAction.newArray (ns.map E.string) : EngineAction E E.Value)

theorem mapping_of_error {α β : Type} {g : α → β}
    {x : FileTree → Place → Except IoFailure α × FileTree} {failure : IoFailure}
    {t files : FileTree} {cwd : Place} (h : x t cwd = (.error failure, files)) :
    mapping g x t cwd = (.error failure, files) := by
  rw [mapping, h]
  rfl

theorem mapping_of_ok {α β : Type} {g : α → β}
    {x : FileTree → Place → Except IoFailure α × FileTree} {a : α} {t files : FileTree}
    {cwd : Place} (h : x t cwd = (.ok a, files)) : mapping g x t cwd = (.ok (g a), files) := by
  rw [mapping, h]
  rfl

/-- What a failing operation leads to. -/
theorem perform_of_error {α : Type} {f : FileFunction} {path : String} {h : Host E}
    {x : FileTree → Place → Except IoFailure α × FileTree} {failure : IoFailure} {files : FileTree}
    (hx : x h.platform.files h.platform.cwd = (.error failure, files)) :
    f.perform path x seat h =
      HostAction.ofEngines (Failures.raise failure f.operation path) seat
        { h with platform := { h.platform with files } } := by
  simp only [perform, onFiles, Action.bind_def, hx]
  rfl

theorem perform_of_ok {α : Type} {f : FileFunction} {path : String} {h : Host E}
    {x : FileTree → Place → Except IoFailure α × FileTree} {a : α} {files : FileTree}
    (hx : x h.platform.files h.platform.cwd = (.ok a, files)) :
    f.perform path x seat h = (.ok a, { h with platform := { h.platform with files } }) := by
  simp only [perform, onFiles, Action.bind_def, hx]
  rfl

theorem perform_mapping {α β γ : Type} (f : FileFunction) (path : String) (g : α → β)
    (x : FileTree → Place → Except IoFailure α × FileTree) (k : β → HostAction E γ) :
    (f.perform path (mapping g x) >>= k) = f.perform path x >>= fun a => k (g a) := by
  funext seat h
  rcases hx : x h.platform.files h.platform.cwd with ⟨failure | a, files⟩
  · obtain ⟨e, s, hraise⟩ :=
      Failures.exists_raise_eq (E := E) failure f.operation path seat h.engines
    simp only [Action.bind_def, perform_of_error hx, perform_of_error (mapping_of_error hx),
      HostAction.ofEngines, Action.onPart, hraise]
  · simp only [Action.bind_def, perform_of_ok hx, perform_of_ok (mapping_of_ok hx)]

/-- A function but the one that asks for existence is its parts, one after another. -/
theorem invoke_eq {f : FileFunction} (hf : f ≠ .doesExist) (args : List E.Value) :
    (f.invoke args : HostAction E E.Value) =
      f.accept args >>= fun r => f.perform r.path (f.operate r) >>= answer := by
  cases f with
  | doesExist => exact absurd rfl hf
  | makeDirectory | removeDirectory =>
    simp only [invoke, accept, operate, bind_assoc, pure_bind, perform_mapping, answer]
    refine bind_congr fun path => bind_congr fun recursive => ?_
    cases recursive <;> rfl
  | _ => simp only [invoke, accept, operate, bind_assoc, pure_bind, perform_mapping, answer]

/-! ### Which operations fail, and how -/

variable {f : FileFunction} {r : Request} {t : FileTree} {cwd : Place}

/-- The paths that an operation is given. -/
def paths (f : FileFunction) (r : Request) : List String :=
  if f = .rename then [r.path, r.second] else [r.path]

theorem refuses_changing {g : FileTree → Place → Except IoFailure FileTree}
    (h : FileTree.Refuses (g t cwd)) : FileTree.Refuses (changing g t cwd).1 := by
  rw [changing]
  split
  · exact .ok _
  · next hfail => exact h.of_error hfail

/-- On paths without NUL, an operation fails with a number that has a symbol. -/
theorem refuses_operate (h : ∀ path ∈ f.paths r, '\x00' ∉ path.toList) :
    FileTree.Refuses (f.operate r t cwd).1 := by
  have hpath : '\x00' ∉ r.path.toList := by
    refine h r.path ?_
    rw [paths]
    split <;> exact List.mem_cons_self
  cases f with
  | doesExist => exact .ok _
  | read => exact (FileTree.refuses_readLossy hpath).map _
  | write | append => exact (refuses_changing (FileTree.refuses_update hpath _)).map _
  | makeDirectory =>
    refine .map ?_ _
    split
    · exact FileTree.refuses_makeDirectories hpath
    · exact refuses_changing (FileTree.refuses_makeDirectory hpath)
  | list => exact (FileTree.refuses_list hpath).map _
  | unlink => exact (refuses_changing (FileTree.refuses_unlink hpath)).map _
  | removeDirectory =>
    refine .map ?_ _
    split
    · exact FileTree.refuses_removeAll hpath
    · exact refuses_changing (FileTree.refuses_removeDirectory hpath)
  | rename =>
    have hsecond : '\x00' ∉ r.second.toList :=
      h r.second (List.mem_cons_of_mem _ List.mem_cons_self)
    exact (refuses_changing (FileTree.refuses_rename hpath hsecond)).map _
  | realPath => exact (FileTree.refuses_realPath hpath).map _

theorem changing_of_error {g : FileTree → Place → Except IoFailure FileTree} {failure : IoFailure}
    (h : g t cwd = .error failure) : changing g t cwd = (.error failure, t) := by
  rw [changing, h]

theorem looking_of_error {α : Type} {g : FileTree → Place → Except IoFailure α}
    {failure : IoFailure} (h : g t cwd = .error failure) :
    looking g t cwd = (.error failure, t) := by
  rw [looking, h]

/-- A path with NUL makes the operation fail without a number, and nothing is changed. -/
theorem operate_of_nul (hf : f ≠ .doesExist) (h : ∃ path ∈ f.paths r, '\x00' ∈ path.toList) :
    f.operate r t cwd = (.error .nulInPath, t) := by
  by_cases hrename : f = .rename
  · subst hrename
    have hnul : '\x00' ∈ r.path.toList ∨ '\x00' ∈ r.second.toList := by
      simpa [paths] using h
    exact mapping_of_error (changing_of_error (FileTree.rename_of_nul hnul))
  have hnul : '\x00' ∈ r.path.toList := by
    simpa [paths, hrename] using h
  cases f with
  | doesExist => exact absurd rfl hf
  | rename => exact absurd rfl hrename
  | read => exact mapping_of_error (looking_of_error (FileTree.readLossy_of_nul hnul))
  | write | append =>
    exact mapping_of_error (changing_of_error (FileTree.update_of_nul hnul _))
  | makeDirectory =>
    refine mapping_of_error ?_
    split
    · exact FileTree.makeDirectories_of_nul hnul
    · exact changing_of_error (FileTree.makeDirectory_of_nul hnul)
  | list => exact mapping_of_error (looking_of_error (FileTree.list_of_nul hnul))
  | unlink => exact mapping_of_error (changing_of_error (FileTree.unlink_of_nul hnul))
  | removeDirectory =>
    refine mapping_of_error ?_
    split
    · exact FileTree.removeAll_of_nul hnul
    · exact changing_of_error (FileTree.removeDirectory_of_nul hnul)
  | realPath => exact mapping_of_error (looking_of_error (FileTree.realPath_of_nul hnul))

/-! ### Accepted arguments -/

theorem text_eq_ok_iff {args : List E.Value} {index : Nat} {name a : String} {h h' : Host E} :
    f.text args index name seat h = (.ok a, h') ↔
      args[index]?.bind E.asString = some a ∧ h = h' := by
  rw [text, Arguments.string]
  rcases args[index]? with _ | v
  · simp [Action.ofExcept, Action.fault, Action.throw]
  · cases hv : E.asString v <;>
      simp [hv, Action.ofExcept, Action.fault, Action.throw, Action.pure]

/-- The first thing that is accepted is the path of the request. -/
theorem accept_eq (hf : f ≠ .doesExist) (args : List E.Value) :
    ∃ name, ∃ rest : String → HostAction E Request,
      f.accept args = f.text args 0 name >>= rest ∧
        ∀ path, (rest path).Yields fun r => r.path = path := by
  cases f with
  | doesExist => exact absurd rfl hf
  | read | makeDirectory | removeDirectory | rename =>
    exact ⟨_, _, rfl, fun _ => .bind fun _ => .pure rfl⟩
  | write | append => exact ⟨_, _, rfl, fun _ => .bind fun _ => .bind fun _ => .pure rfl⟩
  | list | unlink | realPath => exact ⟨_, _, rfl, fun _ => .pure rfl⟩

theorem path_of_accept (hf : f ≠ .doesExist) {args : List E.Value} {h h' : Host E}
    (haccept : f.accept args seat h = (.ok r, h')) : args[0]?.bind E.asString = some r.path := by
  obtain ⟨name, rest, heq, hrest⟩ := accept_eq hf args
  rw [heq] at haccept
  obtain ⟨path, h₁, htext, hr⟩ := Action.bind_eq_ok_iff.1 haccept
  rw [hrest path _ _ _ _ hr]
  exact (text_eq_ok_iff.1 htext).1

/-- The arguments of a function that are texts. -/
def texts (f : FileFunction) (path second : String) : List E.Value :=
  match f with
  | .write | .append | .rename => [E.string path, E.string second]
  | _ => [E.string path]

/-- Texts are accepted, whatever they are. -/
theorem accept_texts (V : E.Primitives) (hf : f ≠ .doesExist) (path second : String) (h : Host E) :
    ∃ r, f.accept (f.texts path second) seat h = (.ok r, h) ∧ r.path = path ∧
      (f = .rename → r.second = second) := by
  have hpath : ∀ (f : FileFunction) rest name,
      f.text (E.string path :: rest) 0 name seat h = (.ok path, h) := fun _ _ _ =>
    text_eq_ok_iff.2 ⟨V.asString_string path, rfl⟩
  have hsecond : ∀ (f : FileFunction) v rest name,
      f.text (v :: E.string second :: rest) 1 name seat h = (.ok second, h) := fun _ _ _ _ =>
    text_eq_ok_iff.2 ⟨V.asString_string second, rfl⟩
  cases f with
  | doesExist => exact absurd rfl hf
  | read =>
    refine ⟨{ path }, ?_, rfl, fun h => by cases h⟩
    simp only [accept, texts, Action.bind_def, hpath]
    rfl
  | write | append =>
    refine ⟨{ path, second }, ?_, rfl, fun h => by cases h⟩
    simp only [accept, texts, Action.bind_def, hpath, hsecond]
    rfl
  | makeDirectory | removeDirectory =>
    refine ⟨{ path, recursive := false }, ?_, rfl, fun h => by cases h⟩
    simp only [accept, texts, Action.bind_def, hpath]
    rfl
  | list | unlink | realPath =>
    refine ⟨{ path }, ?_, rfl, fun h => by cases h⟩
    simp only [accept, texts, Action.bind_def, hpath]
    rfl
  | rename =>
    refine ⟨{ path, second }, ?_, rfl, fun _ => rfl⟩
    simp only [accept, texts, Action.bind_def, hpath, hsecond]
    rfl

/-! ### What is thrown -/

theorem invoke_doesExist (args : List E.Value) (h : Host E) :
    invoke .doesExist args seat h = (.ok (E.boolean (existence args h.platform)), h) :=
  rfl

/-- What a function throws if its operation fails. -/
theorem invoke_of_error {M : E.Objects seat} (H : M.MakesErrors) (hf : f ≠ .doesExist)
    {args : List E.Value} {failure : IoFailure} {files : FileTree} {h h' : Host E}
    (haccept : f.accept args seat h = (.ok r, h')) (hfree : M.Free h'.engines)
    (hfail : f.operate r h'.platform.files h'.platform.cwd = (.error failure, files)) :
    let made := E.newError seat .error (Failures.message failure) h'.engines
    ∃ p s, M.Holds made.2 made.1 p ∧
      f.invoke args seat h = (.error (.thrown made.1),
        { h' with engines := s, platform := { h'.platform with files } }) ∧
      M.Holds s made.1 (p.writeAll (Failures.carried failure f.operation r.path)) ∧
      M.Keeps h'.engines s := by
  intro made
  obtain ⟨p, s, hmade, herror, hcarried, hkeeps⟩ :=
    Failures.errorOf_spec H hfree failure f.operation r.path
  refine ⟨p, s, hmade, ?_, hcarried, hkeeps⟩
  simp only [invoke_eq hf, Action.bind_def, haccept, perform_of_error hfail, HostAction.ofEngines,
    Action.onPart, Failures.raise, herror]
  rfl

/-- Asking for existence never throws. Any other function throws if its operation fails: an error
object that has been made for the occasion. Texts are always accepted as arguments, and the path
that a failure is reported with is the first argument.

If no path has a NUL character, the object has the properties of an error object of the operating
system, with a number that has a symbol. If one has, nothing has been changed, and the object has
the number of an input or output error beside the properties of any error, but nothing else. -/
theorem failures_uniform {M : E.Objects seat} (V : E.Primitives) (H : M.MakesErrors) :
    (∀ args (h : Host E), ∃ b, invoke .doesExist args seat h = (.ok (E.boolean b), h)) ∧
    ∀ f : FileFunction, f ≠ .doesExist →
      (∀ path second (h : Host E), ∃ r, f.accept (f.texts path second) seat h = (.ok r, h) ∧
        r.path = path ∧ (f = .rename → r.second = second)) ∧
      ∀ args r failure files (h h' : Host E), f.accept args seat h = (.ok r, h') →
        M.Free h'.engines →
        f.operate r h'.platform.files h'.platform.cwd = (.error failure, files) →
        let made := E.newError seat .error (Failures.message failure) h'.engines
        ∃ p s, M.Holds made.2 made.1 p ∧
          f.invoke args seat h = (.error (.thrown made.1),
            { h' with engines := s, platform := { h'.platform with files } }) ∧
          M.Keeps h'.engines s ∧ args[0]?.bind E.asString = some r.path ∧
          let thrown := p.writeAll (Failures.carried failure f.operation r.path)
          M.Holds s made.1 thrown ∧
          ((∀ path ∈ f.paths r, '\x00' ∉ path.toList) → ∃ n symbol, failure = .system n ∧
            Errno.symbol? n = some symbol ∧ Failures.IsUniform thrown n f.operation r.path) ∧
          ((∃ path ∈ f.paths r, '\x00' ∈ path.toList) → failure = .nulInPath ∧
            files = h'.platform.files ∧
              thrown = p.write "errno" (E.number (.ofInt Errno.inputOutput))) := by
  refine ⟨fun args h => ⟨_, invoke_doesExist args h⟩, fun f hf => ⟨fun path second h => ?_, ?_⟩⟩
  · exact accept_texts V hf path second h
  intro args r failure files h h' haccept hfree hfail made
  obtain ⟨p, s, hmade, hinvoke, hcarried, hkeeps⟩ := invoke_of_error H hf haccept hfree hfail
  refine ⟨p, s, hmade, hinvoke, hkeeps, path_of_accept hf haccept, hcarried, ?clean, ?nul⟩
  case clean =>
    intro hclean
    obtain ⟨n, symbol, rfl, hsymbol⟩ :=
      (refuses_operate hclean).hasSymbol (congrArg Prod.fst hfail)
    exact ⟨n, symbol, rfl, hsymbol, Failures.isUniform_carried ..⟩
  case nul =>
    intro hnul
    rw [operate_of_nul hf hnul] at hfail
    cases hfail
    exact ⟨rfl, rfl, rfl⟩

/-- A host of the form engine with one engine and no files. -/
def bareHost : Host Script.engine := .ofEngines ⟨#[], [{}]⟩ {} fun _ => ⟨.detached, 0⟩

theorem readLossy_missing :
    FileTree.empty.readLossy [] "missing" = .error (.system Errno.notFound) := by
  have hstart : FileTree.empty.start [] "missing" = .ok [] := by decide +kernel
  have hsteps : FileTree.steps "missing" = ["missing"] := by decide +kernel
  have hwalk : FileTree.empty.walk .target FileTree.maxLinks [] ["missing"] =
      .ok (.absent [] "missing") := by
    rw [FileTree.walk]
    rfl
  rw [FileTree.readLossy, FileTree.readBytes, FileTree.find, FileTree.locate, hstart, hsteps]
  simp only [bind, Except.bind, hwalk]
  rfl

/-- A file that is not there is reported with everything that is known. -/
theorem failures_uniform_missing :
    let M := Script.objects 0 Script.Local.errorTraps
    ∃ p s, read.invoke (E := Script.engine) [Script.Value.string "missing"] 0 bareHost =
        (.error (.thrown (.object 0)), { bareHost with engines := s }) ∧
      M.Holds s (.object 0) p ∧
        Failures.IsUniform (E := Script.engine) p Errno.notFound "open" "missing" := by
  intro M
  obtain ⟨-, hthrows⟩ := failures_uniform (M := M) Script.primitives (Script.makesErrors 0)
  obtain ⟨p, s, -, hinvoke, -, -, hcarried, hclean, -⟩ := (hthrows .read (by decide)).2
    [Script.Value.string "missing"] { path := "missing" } (.system Errno.notFound)
    bareHost.platform.files bareHost bareHost rfl rfl
    (mapping_of_error (looking_of_error readLossy_missing))
  obtain ⟨n, symbol, ⟨⟩, -, huniform⟩ := hclean (by decide)
  exact ⟨_, s, hinvoke, hcarried, huniform⟩

/-- A path with NUL is reported with the number of an input or output error, which has a symbol; but
neither the symbol nor the operation nor the path is there. -/
theorem nulInPath_notUniform :
    let properties : Table String Script.Value :=
      ⟨[("message", .string "file name contained an unexpected NUL byte"),
        ("name", .string "Error"), ("errno", .number (.ofInt Errno.inputOutput))]⟩
    let state : Script.State := ⟨#[⟨properties, [], .error .error⟩], [{}]⟩
    read.invoke (E := Script.engine) [Script.Value.string "a\x00b"] 0 bareHost =
        (.error (.thrown (.object 0)), { bareHost with engines := state }) ∧
      Errno.symbol? Errno.inputOutput = some "EIO" ∧
        ∀ n, ¬Failures.IsUniform (E := Script.engine) properties.get? n "open" "a\x00b" := by
  intro properties state
  refine ⟨rfl, rfl, fun n huniform => ?_⟩
  have hsyscall := huniform.syscall (by decide)
  cases hsyscall

end FileFunction

end ScriptHost
