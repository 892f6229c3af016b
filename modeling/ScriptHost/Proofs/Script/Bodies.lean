import ScriptHost.Proofs.Module.Bodies
import ScriptHost.Script.Engine

/-!
# Bodies of the form engine

The form engine is one without traps as long as no object of its heap has any and none is asked for.
There, module bodies are written as lists of expressions; those made of constants, of calls of the
function that loads modules, and of writes to the objects of the module load the modules that stand
in them, from left to right.

## Main definitions

* `Script.untrapped`: the form engine as an engine without traps.
* `Script.Loader`: the expressions that load modules, with the specifiers in them.

## Main results

* `Script.Loader.body`: such an expression loads its modules and goes on with a value.
* `Script.evaluation_body`: so does a module body that consists of such expressions.
-/

namespace ScriptHost.Script

/-! ### States without traps -/

namespace State

/-- No object has a trap, none is to have any, and no microtask waits. -/
structure Free (seat : Seat) (s : State) : Prop where
  heap : ∀ (i : Nat) o, s.heap[i]? = some o → o.traps = []
  locals : (s.local_ seat).objectTraps = []
  microtasks : (s.local_ seat).microtasks = []

/-- Every object of the first state is there in the second, and of its kind; and there are no new
traps. -/
structure Since (seat : Seat) (s s' : State) : Prop where
  kind : ∀ (i : Nat) o, s.heap[i]? = some o → ∃ o', s'.heap[i]? = some o' ∧ o'.kind = o.kind
  free : s.Free seat → s'.Free seat

variable {seat : Seat} {s s' s'' : State}

theorem Since.refl (s : State) : s.Since seat s := ⟨fun _ o h => ⟨o, h, rfl⟩, id⟩

theorem Since.trans (H : s.Since seat s') (H' : s'.Since seat s'') : s.Since seat s'' := by
  refine ⟨fun i o ho => ?_, fun hs => H'.free (H.free hs)⟩
  obtain ⟨o₁, ho₁, hkind₁⟩ := H.kind i o ho
  obtain ⟨o₂, ho₂, hkind₂⟩ := H'.kind i o₁ ho₁
  exact ⟨o₂, ho₂, hkind₂.trans hkind₁⟩

/-- A value with an object of the heap. -/
def IsObject (s : State) (v : Value) : Prop := ∃ o, s.object? v = some o

theorem Since.isObject {v : Value} (H : s.Since seat s') (hv : s.IsObject v) : s'.IsObject v := by
  obtain ⟨o, ho⟩ := hv
  cases v with
  | object place =>
    obtain ⟨o', ho', -⟩ := H.kind place o ho
    exact ⟨o', ho'⟩
  | _ => cases ho

/-- A value that is a function stays the same function. -/
theorem Since.kind_eq {v : Value} (H : s.Since seat s') {o : Object} (hv : s.object? v = some o) :
    (s'.object? v).map Object.kind = some o.kind := by
  cases v with
  | object place =>
    obtain ⟨o', ho', hkind⟩ := H.kind place o hv
    rw [object?, ho', Option.map_some, hkind]
  | _ => cases hv

theorem since_new {o : Object} (ho : o.traps = []) : s.Since seat (s.new o).2 := by
  refine ⟨fun i o' ho' => ⟨o', ?_, rfl⟩, fun hs => ⟨fun i o' ho' => ?_, hs.locals, hs.microtasks⟩⟩
  · have hlt : i < s.heap.size := (Array.getElem?_eq_some_iff.1 ho').1
    rw [new, Array.getElem?_push_lt hlt]
    exact (Array.getElem?_eq_getElem hlt).symm.trans ho'
  · rw [new, Array.getElem?_push] at ho'
    split at ho'
    · exact Option.some.inj ho' ▸ ho
    · exact hs.heap i o' ho'

theorem isObject_new (s : State) (o : Object) : (s.new o).2.IsObject (s.new o).1 :=
  ⟨o, by simp [new, object?]⟩

/-- Writing into the properties of an object takes nothing away. -/
theorem since_change (v : Value) {f : Object → Object} (hkind : ∀ o, (f o).kind = o.kind)
    (htraps : ∀ o, (f o).traps = o.traps) : s.Since seat (s.change v f) := by
  cases v with
  | object place =>
    refine ⟨fun i o ho => ?_, fun hs => ⟨fun i o ho => ?_, hs.locals, hs.microtasks⟩⟩
    · refine ⟨if place = i then f o else o, ?_, ?_⟩
      · rw [change, Array.getElem?_modify, ho]
        split <;> rfl
      · split
        · exact hkind o
        · rfl
    · rw [change, Array.getElem?_modify] at ho
      split at ho
      · obtain ⟨o', ho', rfl⟩ := Option.map_eq_some_iff.1 ho
        exact (htraps o').trans (hs.heap i o' ho')
      · exact hs.heap i o ho
  | _ => exact .refl s

theorem getProperty_free (hs : s.Free seat) {v : Value} (hv : s.IsObject v) (name : String) :
    ∃ w, s.getProperty seat v name = (.ok w, s) := by
  obtain ⟨o, ho⟩ := hv
  cases v with
  | object place =>
    have htraps : o.traps.contains ("get:" ++ name) = false := by rw [hs.heap place o ho]; rfl
    refine ⟨lookup o name, ?_⟩
    simp only [getProperty, ho, htraps]
    rfl
  | _ => cases ho

theorem setProperty_free (hs : s.Free seat) {v : Value} (hv : s.IsObject v) (name : String)
    (w : Value) : ∃ s', s.setProperty seat v name w = (.ok (), s') ∧ s.Since seat s' := by
  obtain ⟨o, ho⟩ := hv
  cases v with
  | object place =>
    have htraps : o.traps.contains ("set:" ++ name) = false := by rw [hs.heap place o ho]; rfl
    refine ⟨_, ?_, since_change (.object place) (f := fun o =>
      { o with properties := o.properties.insert name w }) (fun _ => rfl) fun _ => rfl⟩
    simp only [setProperty, ho, htraps]
    rfl
  | _ => cases ho

/-- If no microtask waits, the script that runs them ends at once. -/
theorem Free.microtasks_returned (hs : s.Free seat) :
    ∃ v s', engine.step seat (engine.microtasks seat s).1 (engine.microtasks seat s).2 =
      (.returned v, s') := by
  let drained := s.modify seat fun l => { l with drains := l.drains + 1 }
  have hnone : (drained.local_ seat).microtasks = [] := by
    have hmicrotasks := hs.microtasks
    simp only [drained, local_, modify, List.getElem?_modify] at hmicrotasks ⊢
    revert hmicrotasks
    cases s.locals[seat]? <;> exact id
  refine ⟨.undefined, drained, ?_⟩
  change Running.step .microtasks drained seat = _
  simp only [Running.step, Running.microtasks, hnone]

end State

/-- The form engine as an engine without traps. -/
def untrapped (seat : Seat) : engine.Untrapped seat where
  Free := State.Free seat
  Object := State.IsObject
  Since := State.Since seat
  refl := .refl
  trans := .trans
  free := State.Since.free
  object := State.Since.isObject
  newObject hs := ⟨State.since_new hs.locals, State.isObject_new ..⟩
  getProperty name hs hv := (State.getProperty_free hs hv name).imp fun _ hw => ⟨_, hw, .refl _⟩
  setProperty name w hs hv := State.setProperty_free hs hv name w

/-! ### Expressions -/

/-- Expressions that load modules, with their specifiers from left to right: constants, the exports
of the module, calls of the function that loads modules, and writes to the exports or to the module
object. -/
inductive Loader : List String → Json → Prop
  | constant {e : Json} {v : Value} (h : Form.ofJson e = .value v) : Loader [] e
  | exports : Loader [] (.array [.string "mod", .string "exports"])
  | load (specifier : String) :
    Loader [specifier] (.array [.string "require", .string specifier])
  | write {specifiers : List String} {e : Json} (name : String) (H : Loader specifiers e) :
    Loader specifiers
      (.array [.string "set", .array [.string "mod", .string "exports"], .string name, e])
  | replace {specifiers : List String} {e : Json} (H : Loader specifiers e) :
    Loader specifiers
      (.array [.string "set", .array [.string "mod", .string "module"], .string "exports", e])

/-- Lists of expressions that load modules, with all specifiers from left to right. -/
inductive Loaders : List String → List Json → Prop
  | nil : Loaders [] []
  | cons {first rest : List String} {e : Json} {es : List Json} (H : Loader first e)
    (Hs : Loaders rest es) : Loaders (first ++ rest) (e :: es)

/-- What the body of a module needs: its objects are there, and it can load modules. -/
structure CanLoad (frame : Frame) (dir : String) (s : State) : Prop where
  scope : ∃ m, frame.scope = some m ∧ m.dirname = dir ∧ s.IsObject m.module ∧ s.IsObject m.exports ∧
    ∃ o name arity, s.object? m.require = some o ∧ o.kind = .native (.module .require) name arity

theorem CanLoad.since {seat : Seat} {frame : Frame} {dir : String} {s s' : State}
    (H : CanLoad frame dir s) (h : s.Since seat s') : CanLoad frame dir s' := by
  obtain ⟨m, hm, hdir, hmodule, hexports, o, name, arity, ho, hkind⟩ := H.scope
  obtain ⟨o', ho', hkind'⟩ := Option.map_eq_some_iff.1 (h.kind_eq ho)
  exact ⟨m, hm, hdir, h.isObject hmodule, h.isObject hexports, o', name, arity, ho',
    hkind'.trans hkind⟩

section Expressions

variable {seat : Seat} {dir : String} {frame : Frame} {specifiers rest : List String}
  {pending : List Pending} {s₀ : State}

/-- A step that changes nothing but the script. -/
theorem body_of_step {r : Running} (r' : Running) (h : ∀ s, r.step s seat = (.running r', s))
    (H : (untrapped seat).Body dir specifiers r' s₀) : (untrapped seat).Body dir specifiers r s₀ :=
  .runs (fun s => (r', s)) (fun s _ => ⟨h s, .refl s⟩) fun _ hs => H.later hs

/-- A write to a property of an object of the module goes on with the value that is written. -/
theorem body_of_write {field : ModuleField} {fieldName name : String} {e : Json}
    (hfield : Form.ofJson (.array [.string "mod", .string fieldName]) = .module field)
    (hobject : s₀.IsObject (Running.moduleField frame field)) (hfree : s₀.Free seat)
    (he : ∀ pending, (∀ v s, s₀.Since seat s →
        (untrapped seat).Body dir rest ⟨.value v, frame, pending⟩ s) →
      (untrapped seat).Body dir specifiers ⟨.expression e, frame, pending⟩ s₀)
    (hrest : ∀ v s, s₀.Since seat s →
      (untrapped seat).Body dir rest ⟨.value v, frame, pending⟩ s) :
    (untrapped seat).Body dir specifiers ⟨.expression
      (.array [.string "set", .array [.string "mod", .string fieldName], .string name, e]),
      frame, pending⟩ s₀ := by
  refine body_of_step _ (fun s => rfl) (body_of_step ⟨.value (Running.moduleField frame field),
    frame, .operand (.set name) [] [e] :: pending⟩ (fun s => ?_) (body_of_step _ (fun s => rfl)
      (he _ fun v s hs => body_of_step _ (fun s => rfl) ?_)))
  · change Running.evaluate _ s seat (Form.ofJson _) = _
    rw [hfield]
    rfl
  · -- The property is written.
    let after (s : State) := (s.setProperty seat (Running.moduleField frame field) name v).2
    have hwrite {s' : State} (hs' : s.Since seat s') :
        s'.setProperty seat (Running.moduleField frame field) name v = (.ok (), after s') ∧
          s'.Since seat (after s') := by
      have hs₀ := hs.trans hs'
      obtain ⟨s'', hset, hsince⟩ :=
        State.setProperty_free (hs₀.free hfree) (hs₀.isObject hobject) name v
      have hafter : after s' = s'' := congrArg Prod.snd hset
      exact ⟨hafter ▸ hset, hafter ▸ hsince⟩
    refine .runs (fun s => (⟨.value v, frame, pending⟩, after s)) (fun s' hs' => ?_)
      fun s' hs' => hrest v _ (hs.trans (hs'.trans (hwrite hs').2))
    refine ⟨?_, (hwrite hs').2⟩
    change Running.settle _ ((s'.setProperty seat _ name v).1.map (fun _ => v), _) = _
    rw [(hwrite hs').1]
    rfl

/-- An expression loads its modules and goes on with a value. -/
theorem Loader.body {e : Json} (H : Loader specifiers e) (hframe : CanLoad frame dir s₀)
    (hfree : s₀.Free seat)
    (hrest : ∀ v s, s₀.Since seat s →
      (untrapped seat).Body dir rest ⟨.value v, frame, pending⟩ s) :
    (untrapped seat).Body dir (specifiers ++ rest) ⟨.expression e, frame, pending⟩ s₀ := by
  obtain ⟨m, hm, rfl, hmodule, hexports, o, native, arity, ho, hkind⟩ := hframe.scope
  obtain ⟨this, args, scope⟩ := frame
  obtain rfl : scope = some m := hm
  induction H generalizing pending with
  | @constant e v h =>
    refine body_of_step ⟨.value v, _, pending⟩ (fun s => ?_) (hrest v s₀ (.refl _))
    change Running.evaluate _ s seat (Form.ofJson e) = _
    rw [h]
    rfl
  | exports => exact body_of_step _ (fun s => rfl) (hrest m.exports s₀ (.refl _))
  | load specifier =>
    let r : Running := ⟨.call m.require .undefined [.string specifier, .string m.dirname],
      ⟨this, args, some m⟩, pending⟩
    refine body_of_step _ (fun s => rfl) (body_of_step _ (fun s => rfl)
      (body_of_step _ (fun s => rfl) (body_of_step r (fun s => rfl) ?_)))
    refine .loads (fun _ => .undefined) (fun _ => [.string specifier, .string m.dirname])
      (fun s => (r, s)) (fun s hs => ⟨?_, rfl, .refl s⟩)
      fun s v s' hs hs' => hrest v s' (hs.trans hs')
    change Running.invoke r s seat m.require _ _ = _
    rw [Running.invoke, State.Since.kind_eq hs ho, hkind]
  | write name H ih => exact body_of_write rfl hexports hfree (fun _ h => ih h) hrest
  | replace H ih => exact body_of_write rfl hmodule hfree (fun _ h => ih h) hrest

/-- Expressions load their modules one after the other, and the script returns. -/
theorem Loaders.body {es : List Json} (H : Loaders specifiers es) (hframe : CanLoad frame dir s₀)
    (hfree : s₀.Free seat) (before : List Value) (v : Value) :
    (untrapped seat).Body dir specifiers (Running.operands ⟨.value v, frame, []⟩ .last before es)
      s₀ := by
  induction H generalizing s₀ before v with
  | nil =>
    refine body_of_step ⟨.value (before.head?.getD .undefined), frame, []⟩ (fun s => rfl) ?_
    exact .returns fun s _ => ⟨_, s, rfl, .refl s⟩
  | @cons first rest e es H _ ih =>
    refine H.body hframe hfree fun w s hs => ?_
    exact body_of_step _ (fun s => rfl) (ih (hframe.since hs) (hs.free hfree) (w :: before) w)

/-- A module body that consists of expressions that load modules does nothing else. -/
theorem evaluation_body {m : ModuleScope Value} {es : List Json} {s : State}
    (hsource : bodyOf? m.source = some es) (H : Loaders specifiers es) (hfree : s.Free seat)
    (hmodule : s.IsObject m.module) (hexports : s.IsObject m.exports) {o : Object} {name : String}
    {arity : Nat} (ho : s.object? m.require = some o)
    (hkind : o.kind = .native (.module .require) name arity) :
    (engine.evaluate seat m s).2 = s ∧
      (untrapped seat).Body m.dirname specifiers (engine.evaluate seat m s).1 s := by
  have heval : engine.evaluate seat m s = (.body ⟨m.exports, [], some m⟩ es, s) := by
    change evaluation s seat m = _
    rw [evaluation, hsource]
  rw [heval]
  have hframe : CanLoad ⟨m.exports, [], some m⟩ m.dirname s :=
    ⟨m, rfl, rfl, hmodule, hexports, o, name, arity, ho, hkind⟩
  exact ⟨rfl, H.body hframe hfree [] .undefined⟩

end Expressions

end ScriptHost.Script
