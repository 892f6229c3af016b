import ScriptHost.Proofs.World
import ScriptHost.Proofs.Host.Within

/-!
# What the operations of an engine do

The library changes the state of the engines by their operations alone. So what the operations on
values leave alone is left alone by every action on the engines, by every native function, and by
every step of a job but for two things: the step that its script takes, and the running of
microtasks, which jobs have done at the end of their work.

## Main definitions

* `Engine.OperatesWithin`: the operations of an engine stay within a relation, all but the steps of
  scripts and the running of microtasks.
* `Host.EnginesWithin`: the states of the engines of two hosts are related.
* `Job.drains`, `Errand.drains`: a job has microtasks run in its next step, or when it is begun.
* `Engine.Microtasks`, `Engine.Microtasks.Lawful`: the queue of microtasks that an engine keeps.

## Main results

* `Native.invoke_operates`: native functions stay within the relation.
* `Host.attach_operates`: so does attaching a runtime.
* `Job.step_operates`: so does a step of a job after that of its script, until it has microtasks
  run.
-/

namespace ScriptHost

open ScriptHost.Action (Within)

variable {E : Engine} {R : E.State → E.State → Prop} {σ α : Type}

/-- The operations of an engine stay within a relation, all but the steps of scripts and the running
of microtasks. -/
structure Engine.OperatesWithin (E : Engine) (R : E.State → E.State → Prop) : Prop where
  newObject : ∀ seat s, R s (E.newObject seat s).2
  newArray : ∀ seat items s, R s (E.newArray seat items s).2
  newFunction : ∀ seat name arity f s, R s (E.newFunction seat name arity f s).2
  newError : ∀ seat kind message s, R s (E.newError seat kind message s).2
  getProperty : ∀ seat v name s, R s (E.getProperty seat v name s).2
  setProperty : ∀ seat v name w s, R s (E.setProperty seat v name w s).2
  call : ∀ seat f this args s, R s (E.call seat f this args s).2
  evaluate : ∀ seat scope s, R s (E.evaluate seat scope s).2

/-- The states of the engines of two hosts are related. -/
def Host.EnginesWithin (R : E.State → E.State → Prop) (h h' : Host E) : Prop :=
  R h.engines h'.engines

instance [IsPreorder E.State R] : IsPreorder (Host E) (Host.EnginesWithin R) where
  refl h := refl_of R h.engines
  trans _ _ _ H H' := trans_of R H H'

/-- The engines once the script of a job, if one runs, has taken its step. -/
def Job.stepped (h : Host E) (j : Job E) : E.State :=
  match j.focus with
  | .script s => (E.step j.seat s h.engines).2
  | _ => h.engines

/-- A job has microtasks run in its next step: it has come to the end of its work, and does not
just evaluate a script. -/
def Job.drains (j : Job E) : Bool :=
  match j.focus, j.stack, j.waiting, j.task with
  | .result _, [], none, .evaluate => false
  | .result _, [], none, _ => true
  | _, _, _, _ => false

/-- A job has microtasks run when it is begun. -/
def Errand.drains : Errand E → Bool
  | .runLoop .. => true
  | _ => false

/-! ### Actions on the engines -/

namespace EngineAction

variable (H : E.OperatesWithin R)
include H

theorem newObject_operates : Within R (newObject : EngineAction E E.Value) := H.newObject

theorem newArray_operates {items : List E.Value} :
    Within R (newArray items : EngineAction E E.Value) :=
  fun seat => H.newArray seat items

theorem newError_operates {kind : ErrorKind} {message : String} :
    Within R (newError kind message : EngineAction E E.Value) :=
  fun seat => H.newError seat kind message

theorem getProperty_operates {o : E.Value} {name : String} : Within R (getProperty o name) :=
  fun seat => H.getProperty seat o name

theorem defineValue_operates {o : E.Value} {name : String} {v : E.Value} :
    Within R (defineValue o name v) :=
  fun seat => H.setProperty seat o name v

variable [IsPreorder E.State R]

theorem defineFunction_operates {o : E.Value} {f : Export} : Within R (defineFunction o f) :=
  Within.bind (fun seat => H.newFunction seat f.name f.arity f.native) fun _ =>
    defineValue_operates H

theorem defineFunctions_operates {o : E.Value} {fs : List Export} :
    Within R (defineFunctions o fs) := by
  induction fs with
  | nil => exact .pure ()
  | cons f fs ih => exact (defineFunction_operates H).bind fun _ => ih

theorem defineValues_operates {o : E.Value} {vs : List (String × E.Value)} :
    Within R (defineValues o vs) := by
  induction vs with
  | nil => exact .pure ()
  | cons v vs ih => exact (defineValue_operates H).bind fun _ => ih

end EngineAction

open EngineAction

variable [IsPreorder E.State R]

/-! ### Native functions on values -/

section Values

variable (H : E.OperatesWithin R)
include H

theorem Failures.errorOf_operates {failure : IoFailure} {operation path : String} :
    Within R (errorOf failure operation path : EngineAction E E.Value) := by
  cases failure with
  | system errno =>
    exact (newError_operates H).bind fun _ => (defineValue_operates H).bind fun _ =>
      (defineValues_operates H).bind fun _ => .pure _
  | other reason =>
    exact (newError_operates H).bind fun _ => (defineValue_operates H).bind fun _ => .pure _

theorem Failures.raise_operates {failure : IoFailure} {operation path : String} :
    Within R (raise failure operation path : EngineAction E α) :=
  (errorOf_operates H).bind fun _ => .throw _

theorem FileFunction.checkEncoding_operates {f : FileFunction} {options : Option E.Value} :
    Within R (f.checkEncoding options) := by
  refine Within.bind ?_ fun name => ?_
  · unfold encodingOption
    split
    · exact .pure _
    · split
      · exact .pure _
      · split
        · exact .pure _
        · exact (getProperty_operates H).bind fun _ => .pure _
  · split
    · exact .pure _
    · split
      · exact .pure _
      · exact .throw _

theorem FileFunction.isRecursive_operates {options : Option E.Value} :
    Within R (isRecursive options) := by
  unfold isRecursive
  split
  · exact .pure _
  · split
    · exact (getProperty_operates H).bind fun _ => .pure _
    · exact .pure _

namespace Buffers

theorem toValue_operates {bs : Bytes} : Within R (toValue bs : EngineAction E E.Value) :=
  (newObject_operates H).bind fun _ => (defineValues_operates H).bind fun _ =>
    (defineValue_operates H).bind fun _ => (defineValue_operates H).bind fun _ =>
    (defineFunctions_operates H).bind fun _ => .pure _

omit [IsPreorder E.State R] in
theorem isBuffer_operates {v : E.Value} : Within R (isBuffer v) := by
  intro seat s
  have hget := H.getProperty seat v marker s
  rw [isBuffer]
  revert hget
  rcases E.getProperty seat v marker s with ⟨_ | mark, s'⟩ <;> exact id

theorem checkedLength_operates {x : Double} {function : String} :
    Within R (checkedLength x function : EngineAction E Nat) := by
  rw [checkedLength]
  split
  · exact .pure _
  · exact (newError_operates H).bind fun _ => .throw _

theorem lengthProperty_operates {v : E.Value} {function refusal : String} :
    Within R (lengthProperty v function refusal) := by
  refine (getProperty_operates H).bind fun length => ?_
  split
  · exact .throw _
  · exact checkedLength_operates H

theorem items_operates {v : E.Value} {length : Nat} : Within R (items v length) :=
  .mapM (fun _ => getProperty_operates H) _

theorem readBytes_operates {v : E.Value} {function : String} : Within R (readBytes v function) :=
  (lengthProperty_operates H).bind fun _ => (items_operates H).bind fun _ => .pure _

omit H in
theorem encodingArgument_operates {args : List E.Value} {index : Nat} {function : String} :
    Within R (encodingArgument args index function) := by
  refine (Within.ofExcept _).bind fun name => ?_
  split
  · exact .pure _
  · split
    · exact .pure _
    · exact .throw _

theorem bytesArgument_operates {args : List E.Value} {function missing : String} :
    Within R (bytesArgument args function missing) := by
  rw [bytesArgument]
  split
  · exact .throw _
  · split
    · exact encodingArgument_operates.bind fun _ => .pure _
    · exact readBytes_operates H

theorem concat_operates {args : List E.Value} : Within R (concat args) := by
  rw [concat]
  split
  · exact .throw _
  · exact (lengthProperty_operates H).bind fun _ => (items_operates H).bind fun vs =>
      (Within.mapM (fun _ => readBytes_operates H) vs).bind fun _ => toValue_operates H

theorem equals_operates {this : E.Value} {args : List E.Value} : Within R (equals this args) := by
  rw [equals]
  split
  · exact .throw _
  · refine (isBuffer_operates H).bind fun b => ?_
    split
    · exact (readBytes_operates H).bind fun _ => (readBytes_operates H).bind fun _ => .pure _
    · exact .throw _

theorem invoke_operates (f : BufferFunction) (this : E.Value) (args : List E.Value) :
    Within R (invoke f this args) := by
  cases f with
  | ofValue => exact (bytesArgument_operates H).bind fun _ => toValue_operates H
  | alloc =>
    exact (Within.ofExcept _).bind fun _ => (checkedLength_operates H).bind fun _ =>
      toValue_operates H
  | byteLength => exact (bytesArgument_operates H).bind fun _ => .pure _
  | isBuffer =>
    rw [invoke]
    split
    · exact .pure _
    · exact (isBuffer_operates H).bind fun _ => .pure _
  | concat => exact concat_operates H
  | text =>
    exact (readBytes_operates H).bind fun _ => encodingArgument_operates.bind fun _ =>
      .pure _
  | slice => exact (readBytes_operates H).bind fun _ => toValue_operates H
  | equals => exact equals_operates H

theorem makeClass_operates : Within R (makeClass : EngineAction E E.Value) :=
  (newObject_operates H).bind fun _ => (defineFunctions_operates H).bind fun _ =>
    (defineValue_operates H).bind fun _ => .pure _

end Buffers

end Values

/-! ### Native functions on a host -/

open HostAction Host

section Hosts

variable (H : E.OperatesWithin R)

omit [IsPreorder E.State R] in
theorem HostAction.ofEngines_operates {x : EngineAction E α} (hx : Within R x) :
    Within (EnginesWithin R) (ofEngines x) :=
  fun seat h => hx seat h.engines

theorem Host.EnginesWithin.of_eq {h h' : Host E} (he : h'.engines = h.engines) :
    EnginesWithin R h h' := by
  rw [EnginesWithin, he]
  exact refl_of R h.engines

/-- An action that leaves the engines alone. -/
theorem Action.within_engines {x : HostAction E α}
    (hx : ∀ seat h, (x seat h).2.engines = h.engines) :
    Within (EnginesWithin R) x :=
  fun seat h => .of_eq (hx seat h)

theorem HostAction.argument_operates {f : E.State → Except Fault α} :
    Within (EnginesWithin R) (argument f) :=
  fun seat h => Within.ofExcept (f h.engines) seat h

theorem Host.scheduling?_engines {h h' : Host E} {id : RuntimeId} {a : α}
    {f : Scheduler E.Value → LoopSeat → α × Scheduler E.Value × LoopSeat}
    (hs : h.scheduling? id f = some (a, h')) : h'.engines = h.engines := by
  obtain ⟨r, -, he⟩ := Option.map_eq_some_iff.1 hs
  obtain ⟨-, rfl⟩ := Prod.mk.inj he
  rfl

theorem HostAction.scheduling_operates
    {f : Scheduler E.Value → LoopSeat → α × Scheduler E.Value × LoopSeat} :
    Within (EnginesWithin R) (scheduling f) := by
  refine Action.within_engines fun seat h => ?_
  rw [scheduling]
  split
  · next hs =>
    obtain ⟨id, -, hs⟩ := Option.bind_eq_some_iff.1 hs
    exact scheduling?_engines hs
  · rfl

theorem TimerFunction.invoke_operates (f : TimerFunction) (args : List E.Value) :
    Within (EnginesWithin R) (f.invoke args) := by
  cases f with
  | set kind =>
    exact argument_operates.bind fun _ => (Within.ofExcept _).bind fun _ =>
      scheduling_operates.bind fun _ => (Within.ofExcept _).bind fun _ => .pure _
  | clear kind =>
    exact (Within.ofExcept _).bind fun _ => scheduling_operates.bind fun _ => .pure _

theorem Host.update_engines (h : Host E) (id : RuntimeId) (f : Runtime E → Runtime E) :
    (h.update id f).engines = h.engines := by
  rw [update]
  split <;> rfl

include H in
theorem ProcessFunction.invoke_operates (f : ProcessFunction) (args : List E.Value) :
    Within (EnginesWithin R) (f.invoke args) := by
  cases f with
  | nextTick =>
    exact argument_operates.bind fun _ => scheduling_operates.bind fun _ => .pure _
  | exit =>
    refine (Within.ofExcept _).bind fun code => Within.bind (.of_eq attached_eq) fun id => ?_
    have hexit : Within (EnginesWithin R) (Action.modify fun h : Host E => h.exit id code) :=
      Action.within_engines fun _ h => update_engines h id _
    exact hexit.bind fun _ => .pure _
  | cwd =>
    refine Within.bind (.of_eq fun _ _ => rfl) fun r => ?_
    cases r with
    | ok dir => exact .pure _
    | error failure => exact ofEngines_operates (Failures.raise_operates H)

namespace FileFunction

include H

theorem perform_operates {f : FileFunction} {path : String}
    {x : FileTree → Place → Except IoFailure α × FileTree} :
    Within (EnginesWithin R) (f.perform path x : HostAction E α) := by
  have hx : Within (EnginesWithin R) (onFiles x : HostAction E (Except IoFailure α)) :=
    Action.within_engines fun _ _ => rfl
  refine hx.bind fun r => ?_
  cases r with
  | ok a => exact .pure a
  | error failure => exact ofEngines_operates (Failures.raise_operates H)

omit H in
theorem text_operates {f : FileFunction} {args : List E.Value} {index : Nat} {name : String} :
    Within (EnginesWithin R) (f.text args index name) :=
  .ofExcept _

theorem invoke_operates (f : FileFunction) (args : List E.Value) :
    Within (EnginesWithin R) (f.invoke args) := by
  have hcheck (options : Option E.Value) :
      Within (EnginesWithin R) (ofEngines (f.checkEncoding options)) :=
    ofEngines_operates (checkEncoding_operates H)
  cases f with
  | doesExist => exact Within.bind (.of_eq fun _ _ => rfl) fun _ => .pure _
  | read =>
    exact text_operates.bind fun _ => (hcheck _).bind fun _ =>
      (perform_operates H).bind fun _ => .pure _
  | write | append =>
    exact text_operates.bind fun _ => text_operates.bind fun _ =>
      (hcheck _).bind fun _ => (perform_operates H).bind fun _ => .pure _
  | makeDirectory | removeDirectory =>
    refine text_operates.bind fun _ =>
      (ofEngines_operates (isRecursive_operates H)).bind fun b => ?_
    cases b <;> exact (perform_operates H).bind fun _ => .pure _
  | list =>
    exact text_operates.bind fun _ => (perform_operates H).bind fun _ =>
      ofEngines_operates (newArray_operates H)
  | unlink | realPath =>
    exact text_operates.bind fun _ =>
      (perform_operates H).bind fun _ => .pure _
  | rename =>
    exact text_operates.bind fun _ =>
      text_operates.bind fun _ =>
        (perform_operates H).bind fun _ => .pure _

end FileFunction

include H

theorem SystemFunction.invoke_operates (f : SystemFunction) :
    Within (EnginesWithin R) (f.invoke : HostAction E E.Value) := by
  have hprocessor (p : Processor) : Within R (ofProcessor p : EngineAction E E.Value) :=
    (newObject_operates H).bind fun _ => (defineValues_operates H).bind fun _ => .pure _
  cases f with
  | cpus =>
    exact Within.bind (.of_eq fun _ _ => rfl) fun ps =>
      (Within.mapM (fun p => ofEngines_operates (hprocessor p)) ps).bind fun _ =>
        ofEngines_operates (newArray_operates H)
  | _ => exact .of_eq fun _ _ => rfl

omit H in
theorem UtilFunction.invoke_operates (f : UtilFunction) (args : List E.Value) :
    Within (EnginesWithin R) (f.invoke args) := by
  cases f with
  | isFunction => exact .of_eq fun _ _ => rfl
  | _ => exact .pure _

/-! ### Functions on modules -/

namespace Loading

omit H in
theorem changeTables_operates {owner : RuntimeId}
    {f : ModuleTable E.Value → ModuleTable E.Value} :
    Within (EnginesWithin R) (changeTables owner f) :=
  Action.within_engines fun _ h => update_engines h owner _

omit H in
theorem ask_operates {owner : RuntimeId} {q : Question} :
    Within (EnginesWithin R) (ask owner q : HostAction E ResolvedModule) := by
  refine Action.within_engines fun seat h => ?_
  rw [ask]
  split <;> rfl

omit [IsPreorder E.State R] in
theorem exportsOf_operates {object : E.Value} : Within (EnginesWithin R) (exportsOf object) :=
  ofEngines_operates (getProperty_operates H)

theorem require_operates (owner : RuntimeId) (q : Question) :
    Within (EnginesWithin R) (require owner q : HostAction E (Reply E)) := by
  have hfind : Within (EnginesWithin R) (find owner q : HostAction E (Origin E.Value)) := by
    refine Within.bind (.of_eq fun _ _ => rfl) fun table => ?_
    split
    · exact .pure _
    · split
      · exact .pure _
      · refine ask_operates.bind fun m => Within.bind (.of_eq fun _ _ => rfl) fun _ => ?_
        split <;> exact .pure _
  refine hfind.bind fun origin => ?_
  cases origin with
  | native exports => exact .pure _
  | object object => exact (exportsOf_operates H).bind fun _ => .pure _
  | resolved m =>
    refine Within.bind (.of_eq fun _ _ => rfl) fun _ => Within.bind ?_ fun _ => .pure _
    exact (ofEngines_operates (newObject_operates H)).bind fun _ =>
      (ofEngines_operates (newObject_operates H)).bind fun _ =>
        (ofEngines_operates (defineValues_operates H)).bind fun _ =>
          changeTables_operates.bind fun _ => .pure _

omit H in
theorem resolve_operates (owner : RuntimeId) (q : Question) :
    Within (EnginesWithin R) (resolve owner q : HostAction E String) := by
  refine Within.bind (.of_eq fun _ _ => rfl) fun _ => ?_
  split
  · exact .pure _
  · exact ask_operates.bind fun _ => .pure _

end Loading

theorem ModuleFunction.invoke_operates (f : ModuleFunction) (args : List E.Value) :
    Within (EnginesWithin R) (f.invoke args) := by
  cases f with
  | require =>
    exact (Within.ofExcept _).bind fun q => Within.bind (.of_eq attached_eq) fun id =>
      Loading.require_operates H id q
  | resolve =>
    exact (Within.ofExcept _).bind fun q => Within.bind (.of_eq attached_eq) fun id =>
      (Loading.resolve_operates id q).bind fun _ => .pure _

/-- Native functions do to the engines what their operations do; none has microtasks run. -/
theorem Native.invoke_operates (f : Native) (this : E.Value) (args : List E.Value) :
    Within (EnginesWithin R) (f.invoke this args) := by
  cases f with
  | timer f => exact (f.invoke_operates args).bind fun _ => .pure _
  | module f => exact f.invoke_operates H args
  | process f => exact (f.invoke_operates H args).bind fun _ => .pure _
  | print stream => exact .pure _
  | buffer f =>
    exact (ofEngines_operates (Buffers.invoke_operates H f this args)).bind fun _ => .pure _
  | file f => exact (f.invoke_operates H args).bind fun _ => .pure _
  | system f => exact (f.invoke_operates H).bind fun _ => .pure _
  | path f =>
    have hpath : Within (EnginesWithin R) (f.invoke args) :=
      Within.bind (.of_eq fun _ _ => rfl) fun _ => .ofExcept _
    exact hpath.bind fun _ => .pure _
  | util f => exact f.invoke_operates args

/-! ### Attaching runtimes -/

namespace Install

theorem natives_operates (owner : RuntimeId) (ms : List NativeModule) :
    Within (EnginesWithin R) (natives owner ms : HostAction E Unit) := by
  have hmake (m : NativeModule) : Within R (m.make : EngineAction E E.Value) :=
    (newObject_operates H).bind fun _ => (defineValues_operates H).bind fun _ =>
      (defineFunctions_operates H).bind fun _ => .pure _
  induction ms with
  | nil => exact .pure _
  | cons m ms ih =>
    exact (ofEngines_operates (hmake m)).bind fun _ =>
      Loading.changeTables_operates.bind fun _ => ih

theorem globals_operates (config : Config) (platform : Platform) (require : E.Value) :
    Within R (globals config platform require) := by
  have hobject (fs : List Export) : Within R (objectOf fs : EngineAction E E.Value) :=
    (newObject_operates H).bind fun _ => (defineFunctions_operates H).bind fun _ => .pure _
  have hprocess : Within R (ProcessFunction.makeObject config platform : EngineAction E E.Value) :=
    (newObject_operates H).bind fun _ => (newArray_operates H).bind fun _ =>
      (defineValue_operates H).bind fun _ => (newObject_operates H).bind fun _ =>
      (defineValues_operates H).bind fun _ => (defineValues_operates H).bind fun _ =>
      (defineFunctions_operates H).bind fun _ => .pure _
  exact Within.bind (.of_eq fun _ _ => rfl) fun _ => (defineFunctions_operates H).bind fun _ =>
    (defineFunction_operates H).bind fun _ => (defineValue_operates H).bind fun _ =>
    hprocess.bind fun _ => (defineValue_operates H).bind fun _ =>
    (hobject _).bind fun _ => (defineValue_operates H).bind fun _ =>
    (Buffers.makeClass_operates H).bind fun _ => (defineValue_operates H).bind fun _ =>
    defineValue_operates H

theorem runtime_operates (owner : RuntimeId) (config : Config) (require : E.Value) :
    Within (EnginesWithin R) (runtime owner config require) :=
  Within.bind (natives_operates H owner _) fun _ => Within.bind (.of_eq fun _ _ => rfl) fun _ =>
    ofEngines_operates (globals_operates H config _ require)

end Install

namespace Host

theorem attach_operates (h : Host E) (seat : Seat) (config : Config) (resolver : Resolver) :
    h.EnginesWithin R (h.attach seat config resolver).2 := by
  have hfunction := H.newFunction seat Export.require.name Export.require.arity
    Export.require.native h.engines
  rw [attach]
  revert hfunction
  generalize E.newFunction seat _ _ _ _ = p
  obtain ⟨require, engines⟩ := p
  intro hfunction
  dsimp only
  split
  · exact hfunction
  · next registry _ =>
    generalize hput : Host.put _ _ _ = h₁
    have hengines : h₁.engines = engines := hput ▸ rfl
    have hruntime := Install.runtime_operates H ⟨h.nextRuntime⟩ config require seat h₁
    rw [EnginesWithin, hengines] at hruntime
    revert hruntime
    rcases Install.runtime ⟨h.nextRuntime⟩ config require seat h₁ with ⟨_ | _, h₂⟩ <;>
      exact fun hruntime => trans_of R hfunction hruntime

theorem attachFiles_operates (h : Host E) (seat : Seat) (config : Config) :
    h.EnginesWithin R (h.attachFiles seat config).2 := by
  rw [attachFiles]
  split
  · exact attach_operates H ..
  · split
    · exact attach_operates H ..
    · exact refl_of (EnginesWithin R) h

end Host

/-! ### Jobs -/

namespace Job

variable {h : Host E} {j : Job E}

omit H in
theorem act_operates {x : HostAction E α} (hx : Within (EnginesWithin R) x)
    {next : Host E → α → Host E × Job E} (hnext : ∀ h a, EnginesWithin R h (next h a).1) :
    EnginesWithin R h (j.act h x next).1 := by
  have hdone := hx j.seat h
  rw [act]
  revert hdone
  rcases x j.seat h with ⟨e | a, h'⟩
  · exact id
  · exact fun hdone => trans_of (EnginesWithin R) hdone (hnext h' a)

theorem answer_operates (h : Host E) (j : Job E) (reply : Reply E) :
    EnginesWithin R h (j.answer h reply).1 := by
  cases reply with
  | value v => exact refl_of (EnginesWithin R) h
  | render r => exact refl_of (EnginesWithin R) h
  | evaluate l scope => exact H.evaluate j.seat scope h.engines

theorem native_operates (h : Host E) (j : Job E) (f : Native) (this : E.Value)
    (args : List E.Value) : EnginesWithin R h (j.native h f this args).1 :=
  act_operates (f.invoke_operates H this args) fun h reply => answer_operates H h j reply

theorem call_operates (h : Host E) (j : Job E) (f this : E.Value) (args : List E.Value) :
    EnginesWithin R h (j.call h f this args).1 := by
  have hcall := H.call j.seat f this args h.engines
  rw [call]
  revert hcall
  rcases E.call j.seat f this args h.engines with ⟨s | g | v, engines⟩
  · exact id
  · exact fun hcall => trans_of R hcall (native_operates H { h with engines } j g this args)
  · exact id

theorem stringifier_operates (seat : Seat) (s : E.State) :
    R s (Rendering.stringifier E seat s).2 := by
  have hjson := H.getProperty seat (E.globalObject seat s) "JSON" s
  rw [Rendering.stringifier]
  revert hjson
  rcases E.getProperty seat (E.globalObject seat s) "JSON" s with ⟨_ | json, s'⟩
  · exact id
  · intro hjson
    dsimp only at hjson ⊢
    split
    · exact hjson
    · have hfunction := H.getProperty seat json "stringify" s'
      revert hfunction
      rcases E.getProperty seat json "stringify" s' with ⟨_ | f, s''⟩ <;>
        exact fun hfunction => trans_of R hjson hfunction

theorem render_operates (h : Host E) (j : Job E) (r : Rendering E.Value) :
    EnginesWithin R h (j.render h r).1 := by
  rw [render]
  split
  · rw [finishRendering]
    split <;> exact refl_of (EnginesWithin R) h
  · exact refl_of (EnginesWithin R) h
  · next d v pieces _ =>
    dsimp only
    split
    · exact refl_of (EnginesWithin R) h
    · have hstringifier := stringifier_operates H j.seat h.engines
      revert hstringifier
      rcases Rendering.stringifier E j.seat h.engines with ⟨_ | ⟨json, f⟩, engines⟩
      · exact id
      · exact fun hstringifier => trans_of R hstringifier
          (call_operates H { h with engines } (j.push (.rendering { r with pieces } v) j.focus)
            f json [v])

theorem settle_operates (seat : Seat) (r : Result E) (s : E.State) : R s (settle seat r s).2 := by
  unfold settle
  split
  · exact refl_of R s
  · exact refl_of R s
  · exact H.newError ..

omit H in
theorem takeCallback_engines (h : Host E) (owner : RuntimeId) (n : Notification) :
    (h.takeCallback owner n).2.engines = h.engines := by
  rw [takeCallback]
  cases hs : h.scheduling? owner fun s l => s.take l n with
  | none => rfl
  | some p => exact scheduling?_engines hs

theorem deliver_operates (h : Host E) (j : Job E) (owner : RuntimeId) (n : Notification)
    (stale : Focus E) : EnginesWithin R h (j.deliver h owner n stale).1 := by
  have htake : EnginesWithin R h (h.takeCallback owner n).2 :=
    .of_eq (takeCallback_engines h owner n)
  rw [deliver]
  revert htake
  rcases h.takeCallback owner n with ⟨_ | callback, h'⟩
  · exact id
  · exact fun htake => trans_of (EnginesWithin R) htake (call_operates H ..)

omit H [IsPreorder E.State R] in
theorem takeNext_engines {owner : RuntimeId} {now : Time} {n : Notification} {h' : Host E}
    (hn : h.takeNext owner now = some (n, h')) : h'.engines = h.engines := by
  obtain ⟨r, -, hn⟩ := Option.bind_eq_some_iff.1 hn
  split at hn
  · cases hn
  · obtain ⟨p, -, he⟩ := Option.map_eq_some_iff.1 hn
    obtain ⟨-, rfl⟩ := Prod.mk.inj he
    rfl

omit H [IsPreorder E.State R] in
theorem rest_engines (h : Host E) (j : Job E) (owner : RuntimeId) (limit : Time) :
    (j.rest h owner limit).1.engines = h.engines := by
  rw [rest]
  split
  · rfl
  · dsimp only
    split
    · rfl
    · split <;> rfl

omit H [IsPreorder E.State R] in
theorem cache?_engines {l : Loading E.Value} {h' : Host E} (hc : l.cache? h = some h') :
    h'.engines = h.engines := by
  rw [Loading.cache?] at hc
  split at hc
  · rw [Option.some.inj hc]
  · obtain ⟨modules, -, rfl⟩ := Option.map_eq_some_iff.1 hc
    rfl

theorem resume_operates (h : Host E) (j : Job E) (frame : Frame E) (r : Result E) :
    EnginesWithin R h (j.resume h frame r).1 := by
  cases frame with
  | script rest => exact settle_operates H j.seat r h.engines
  | rendering rendering v => exact refl_of (EnginesWithin R) h
  | module l =>
    refine act_operates Loading.changeTables_operates fun h _ => ?_
    cases r with
    | error e => exact refl_of (EnginesWithin R) h
    | ok v =>
      refine act_operates (ofEngines_operates (defineValue_operates H)) fun h _ => ?_
      split
      · exact refl_of (EnginesWithin R) h
      · next h' hc =>
        exact trans_of (EnginesWithin R) (.of_eq (cache?_engines hc))
          (act_operates (Loading.exportsOf_operates H) fun h _ => refl_of (EnginesWithin R) h)

theorem takeNext_operates (h : Host E) (j : Job E) : EnginesWithin R h (j.takeNext h).1 := by
  rw [takeNext]
  split
  · split
    · exact refl_of (EnginesWithin R) h
    · next hn =>
      exact trans_of (EnginesWithin R) (.of_eq (takeNext_engines hn)) (deliver_operates H ..)
  · exact refl_of (EnginesWithin R) h
  · split
    · exact .of_eq (rest_engines ..)
    · next hn =>
      exact trans_of (EnginesWithin R) (.of_eq (takeNext_engines hn)) (deliver_operates H ..)
  · exact refl_of (EnginesWithin R) h

/-- What a job does with the result of its script stays within the relation until the microtasks
are run. -/
theorem conclude_operates (h : Host E) (j : Job E) (r : Result E) :
    ∃ s, R h.engines s ∧ (j.conclude h r).1.engines =
      match j.task with
      | .evaluate => s
      | _ => (E.microtasks j.seat s).2 := by
  rw [conclude]
  split
  · next ht => exact ⟨h.engines, refl_of R _, by rw [ht]⟩
  · next ht => exact ⟨h.engines, refl_of R _, by rw [ht]; rfl⟩
  all_goals
    next ht => exact ⟨_, settle_operates H j.seat r h.engines, by rw [ht]; rfl⟩

omit H [IsPreorder E.State R] in
theorem proceed_host (h : Host E) (j : Job E) (r : Result E) : (j.proceed h r).1 = h := by
  unfold proceed
  dsimp only
  split <;> rfl

/-- A step does to the engines what the step of its script does, then what operations do, and then
it has microtasks run if it is to. -/
theorem step_operates (h : Host E) (j : Job E) :
    ∃ s, R (j.stepped h) s ∧
      (j.step h).1.engines = if j.drains then (E.microtasks j.seat s).2 else s := by
  cases hf : j.focus with
  | take =>
    refine ⟨_, ?_, (if_neg ?_).symm⟩
    · simp only [stepped, step, hf]
      exact takeNext_operates H h j
    · simp [drains, hf]
  | «over» o =>
    refine ⟨_, ?_, (if_neg ?_).symm⟩
    · simp only [stepped, step, hf]
      exact refl_of R h.engines
    · simp [drains, hf]
  | rendering r =>
    refine ⟨_, ?_, (if_neg ?_).symm⟩
    · simp only [stepped, step, hf]
      exact render_operates H h j r
    · simp [drains, hf]
  | script s =>
    refine ⟨_, ?_, (if_neg ?_).symm⟩
    · simp only [stepped, step, hf]
      rcases E.step j.seat s h.engines with ⟨s' | v | v | ⟨f, this, args, rest⟩, engines⟩
      case native => exact native_operates H { h with engines } _ f this args
      all_goals exact refl_of R engines
    · simp [drains, hf]
  | result r =>
    cases hs : j.stack with
    | cons frame stack =>
      refine ⟨_, ?_, (if_neg ?_).symm⟩
      · simp only [stepped, step, hf, hs]
        exact resume_operates H h _ frame r
      · simp [drains, hs]
    | nil =>
      cases hw : j.waiting with
      | some w =>
        refine ⟨_, ?_, (if_neg ?_).symm⟩
        · simp only [stepped, step, hf, hs, hw, proceed_host]
          exact refl_of R h.engines
        · simp [drains, hw]
      | none =>
        obtain ⟨s, hR, he⟩ := conclude_operates H h j r
        refine ⟨s, by simpa only [stepped, hf] using hR, ?_⟩
        simp only [step, hf, hs, hw, he]
        cases ht : j.task <;> simp [drains, hf, hs, hw, ht]

end Job

/-- Beginning a job does to the engines what operations do; only the event loop has microtasks run
then. -/
theorem Errand.begin_operates (h : Host E) (errand : Errand E) :
    ∃ s, R h.engines s ∧ (errand.begin h).1.engines =
      if errand.drains then (E.microtasks errand.seat s).2 else s := by
  cases errand with
  | evaluate seat s => exact ⟨_, refl_of R h.engines, rfl⟩
  | require seat owner q main =>
    exact ⟨_, Job.act_operates (Loading.require_operates H owner q) fun h reply =>
      Job.answer_operates H h _ reply, rfl⟩
  | notify seat owner n => exact ⟨_, Job.deliver_operates H .., rfl⟩
  | runReady seat owner now => exact ⟨_, refl_of R h.engines, rfl⟩
  | runLoop seat owner limit => exact ⟨_, refl_of R h.engines, rfl⟩

end Hosts

/-! ### Microtasks -/

/-- A property that the scripts have that run microtasks: they begin with it, and keep it while they
run on and when a native function has replied. -/
structure Engine.Marks (E : Engine) (D : E.Script → Prop) : Prop where
  begun : ∀ seat s, D (E.microtasks seat s).1
  running : ∀ {seat r s r' s'}, D r → E.step seat r s = (.running r', s') → D r'
  native : ∀ {seat r s f this args rest s'}, D r →
    E.step seat r s = (.native f this args rest, s') → ∀ x, D (E.resume rest x)

/-- What can be told of the microtasks of an engine. -/
structure Engine.Microtasks (E : Engine) where
  /-- How often microtasks have been run for the engine at a seat, if there is one. -/
  drains : Seat → E.State → Option Nat
  /-- The microtasks that wait there, oldest first. -/
  waiting : Seat → E.State → List E.Value
  /-- The microtask that the next step of a script takes from those that wait, to call it. -/
  starts? : Seat → E.Script → E.State → Option E.Value
  /-- The scripts that run microtasks. -/
  Runner : E.Script → Prop

namespace Engine.Microtasks

/-- The microtasks are the same, and have been run as often. -/
def Same (Q : E.Microtasks) (s s' : E.State) : Prop :=
  ∀ seat, Q.drains seat s' = Q.drains seat s ∧ Q.waiting seat s' = Q.waiting seat s

instance (Q : E.Microtasks) : IsPreorder E.State Q.Same where
  refl _ _ := ⟨rfl, rfl⟩
  trans _ _ _ H H' seat := ⟨(H' seat).1.trans (H seat).1, (H' seat).2.trans (H seat).2⟩

/-- An engine keeps its microtasks in a queue. Scripts put some at its end; the script that runs
them takes them from the front, one after the other, until none is left. -/
structure Lawful (Q : E.Microtasks) : Prop where
  operates : E.OperatesWithin Q.Same
  step_drains : ∀ seat seat' r s, Q.drains seat' (E.step seat r s).2 = Q.drains seat' s
  step_others : ∀ seat seat' r s, seat' ≠ seat →
    Q.waiting seat' (E.step seat r s).2 = Q.waiting seat' s
  step_starts : ∀ seat r s v, Q.starts? seat r s = some v →
    Q.waiting seat s = v :: Q.waiting seat (E.step seat r s).2
  step_queues : ∀ seat r s, Q.starts? seat r s = none →
    Q.waiting seat s <+: Q.waiting seat (E.step seat r s).2
  run_drains : ∀ seat s, Q.drains seat (E.microtasks seat s).2 = (Q.drains seat s).map (· + 1)
  run_others : ∀ seat seat' s, seat' ≠ seat →
    Q.drains seat' (E.microtasks seat s).2 = Q.drains seat' s
  run_waiting : ∀ seat seat' s, Q.waiting seat' (E.microtasks seat s).2 = Q.waiting seat' s
  marks : E.Marks Q.Runner
  returned : ∀ seat r s v s', Q.Runner r → E.step seat r s = (.returned v, s') →
    Q.waiting seat s' = []
  threw : ∀ seat r s v s', Q.Runner r → E.step seat r s = (.threw v, s') → Q.waiting seat s' = []

end Engine.Microtasks

end ScriptHost
