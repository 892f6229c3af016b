import ScriptHost.Proofs.Host.Within

/-!
# Objects that keep their properties

What the library asks of an object is that a property that was written is read again, and that
writing to one object leaves the others alone. An engine may fail to give this for an object with
traps. Here an engine comes with a view of the objects without traps and of their properties; the
laws of reading and writing are those that every script engine has for plain data properties.

Whether the objects that the library makes have traps is another matter. It is said apart for
ordinary objects and for errors, since a statement on one does not depend on the other.

## Main definitions

* `Properties`: the properties of an object; `Properties.writeAll` writes some, one after the other.
* `Engine.View`: which objects without traps there are, and with which properties.
* `Engine.View.Keeps`, `Engine.View.KeepsBut`: no object loses its properties, one perhaps left out.
* `Engine.View.Yields`: an action that has a result and leaves all objects alone.
* `Engine.Primitives`: an engine whose values are read as what they have been made from.
* `Engine.Objects`: an engine whose objects keep their properties.
* `Engine.Objects.MakesObjects`, `Engine.Objects.MakesErrors`: those that the library makes are
  such.

## Main results

* `Engine.Objects.defineValues`, `Engine.Objects.defineFunctions`: an object after properties have
  been defined.
-/

namespace ScriptHost

variable {E : Engine} {seat : Seat} {V : Type}

/-! ### Properties -/

/-- The properties of an object by their names. -/
abbrev Properties (V : Type) : Type := String → Option V

namespace Properties

/-- The properties after a value has been written under a name. -/
def write (p : Properties V) (name : String) (v : V) : Properties V := fun name' =>
  if name' = name then some v else p name'

/-- The properties after values have been written under names, one after the other. -/
def writeAll (p : Properties V) (rows : List (String × V)) : Properties V :=
  rows.foldl (fun p row => p.write row.1 row.2) p

variable {p : Properties V} {rows : List (String × V)} {name : String} {v : V}

theorem write_self (p : Properties V) (name : String) (v : V) : p.write name v name = some v :=
  if_pos rfl

theorem write_of_ne {name' : String} (h : name' ≠ name) : p.write name v name' = p name' :=
  if_neg h

theorem writeAll_append (p : Properties V) (rows rows' : List (String × V)) :
    p.writeAll (rows ++ rows') = (p.writeAll rows).writeAll rows' :=
  List.foldl_append

theorem writeAll_of_notMem (h : name ∉ rows.map Prod.fst) : p.writeAll rows name = p name := by
  induction rows generalizing p with
  | nil => rfl
  | cons row rows ih =>
    rw [List.map_cons, List.mem_cons, not_or] at h
    exact (ih h.2).trans (write_of_ne h.1)

/-- If no name is written to twice, a property is what has been written. -/
theorem writeAll_of_mem (hnodup : (rows.map Prod.fst).Nodup) (h : (name, v) ∈ rows) :
    p.writeAll rows name = some v := by
  induction rows generalizing p with
  | nil => cases h
  | cons row rows ih =>
    obtain ⟨hnew, hnodup⟩ := List.nodup_cons.1 hnodup
    rcases List.mem_cons.1 h with rfl | h
    · exact (writeAll_of_notMem hnew).trans (write_self ..)
    · exact ih hnodup h

end Properties

/-! ### Engines with a view of their objects -/

/-- A view of the objects of an engine. -/
structure Engine.View (E : Engine) where
  /-- What the library makes from this state on has no traps. -/
  Free : E.State → Prop
  /-- In a state, a value is an object without traps and has the properties. -/
  Holds : E.State → E.Value → Properties E.Value → Prop

namespace Engine.View

variable {M : E.View} {s s' s'' : E.State} {o : E.Value}

/-- Every object has the properties that it had. -/
structure Keeps (M : E.View) (s s' : E.State) : Prop where
  free : M.Free s → M.Free s'
  holds : ∀ {o p}, M.Holds s o p → M.Holds s' o p

/-- Every object but one has the properties that it had. -/
structure KeepsBut (M : E.View) (o : E.Value) (s s' : E.State) : Prop where
  free : M.Free s → M.Free s'
  holds : ∀ {o' p}, o' ≠ o → M.Holds s o' p → M.Holds s' o' p

/-- There is no such object yet. -/
def IsNew (M : E.View) (s : E.State) (o : E.Value) : Prop := ∀ p, ¬M.Holds s o p

theorem Keeps.refl (M : E.View) (s : E.State) : M.Keeps s s := ⟨id, id⟩

theorem Keeps.trans (h : M.Keeps s s') (h' : M.Keeps s' s'') : M.Keeps s s'' :=
  ⟨fun hs => h'.free (h.free hs), fun ho => h'.holds (h.holds ho)⟩

theorem KeepsBut.refl (M : E.View) (o : E.Value) (s : E.State) : M.KeepsBut o s s :=
  ⟨id, fun _ h => h⟩

theorem KeepsBut.trans (h : M.KeepsBut o s s') (h' : M.KeepsBut o s' s'') : M.KeepsBut o s s'' :=
  ⟨fun hs => h'.free (h.free hs), fun hne ho => h'.holds hne (h.holds hne ho)⟩

theorem Keeps.but (h : M.Keeps s s') (o : E.Value) : M.KeepsBut o s s' :=
  ⟨h.free, fun _ ho => h.holds ho⟩

/-- What is done to an object that was not there before is done to none of those that were. -/
theorem Keeps.of_isNew (h : M.Keeps s s') (hnew : M.IsNew s o) (h' : M.KeepsBut o s' s'') :
    M.Keeps s s'' := by
  refine ⟨fun hs => h'.free (h.free hs), fun {o' p} ho => h'.holds ?_ (h.holds ho)⟩
  rintro rfl
  exact hnew p ho

/-- An action has a result, and every object has the properties that it had. -/
def Yields {α : Type} (M : E.View) (seat : Seat) (x : EngineAction E α) (s : E.State) (a : α) :
    Prop :=
  ∃ s', x seat s = (.ok a, s') ∧ M.Keeps s s'

theorem Yields.of_step {α β : Type} {x : EngineAction E α} {f : α → EngineAction E β} {a : α}
    {b : β} (hx : x seat s = (.ok a, s')) (hkeeps : M.Keeps s s') (hf : M.Yields seat (f a) s' b) :
    M.Yields seat (x >>= f) s b := by
  obtain ⟨s'', hfa, hkeeps'⟩ := hf
  exact ⟨s'', by rw [Action.bind_def, hx, ← hfa], hkeeps.trans hkeeps'⟩

theorem Yields.bind {α β : Type} {x : EngineAction E α} {f : α → EngineAction E β} {a : α} {b : β}
    (h : M.Yields seat x s a) (hf : ∀ s', M.Keeps s s' → M.Yields seat (f a) s' b) :
    M.Yields seat (x >>= f) s b := by
  obtain ⟨s', hx, hkeeps⟩ := h
  exact .of_step hx hkeeps (hf s' hkeeps)

end Engine.View

/-- An engine whose numbers, texts and truth values are read as what they have been made from. -/
structure Engine.Primitives (E : Engine) : Prop where
  asNumber_number : ∀ x, E.asNumber (E.number x) = some x
  asString_string : ∀ t, E.asString (E.string t) = some t
  isUndefined_string : ∀ t, E.isUndefined (E.string t) = false
  truthy_boolean : ∀ b, E.truthy (E.boolean b) = b

/-- An engine whose objects keep their properties: what has been written is read, and neither
reading nor writing does anything to other objects. -/
structure Engine.Objects (E : Engine) (seat : Seat) extends view : E.View where
  getProperty : ∀ {s o p} (name : String), Holds s o p → ∃ s',
    E.getProperty seat o name s = (.ok ((p name).getD E.undefined), s') ∧ view.Keeps s s'
  setProperty : ∀ {s o p} (name : String) (v : E.Value), Holds s o p → ∃ s',
    E.setProperty seat o name v s = (.ok (), s') ∧ Holds s' o (p.write name v) ∧
      view.KeepsBut o s s'

namespace Engine.Objects

/-- The objects and functions that the library makes are without traps. -/
structure MakesObjects (M : E.Objects seat) : Prop where
  newObject : ∀ {s}, M.Free s →
    M.Holds (E.newObject seat s).2 (E.newObject seat s).1 (fun _ => none) ∧
      M.IsNew s (E.newObject seat s).1 ∧ M.Keeps s (E.newObject seat s).2
  newFunction : ∀ {s} (name : String) (arity : Nat) (f : Native), M.Free s →
    M.Keeps s (E.newFunction seat name arity f s).2

/-- The errors that the library makes are without traps. -/
structure MakesErrors (M : E.Objects seat) : Prop where
  newError : ∀ {s} (kind : ErrorKind) (message : String), M.Free s →
    ∃ p, M.Holds (E.newError seat kind message s).2 (E.newError seat kind message s).1 p ∧
      M.IsNew s (E.newError seat kind message s).1 ∧
      M.Keeps s (E.newError seat kind message s).2

variable (M : E.Objects seat) {s : E.State} {o : E.Value} {p : Properties E.Value}

theorem defineValue (name : String) (v : E.Value) (h : M.Holds s o p) : ∃ s',
    EngineAction.defineValue o name v seat s = (.ok (), s') ∧ M.Holds s' o (p.write name v) ∧
      M.KeepsBut o s s' := by
  obtain ⟨s', hset, hholds, hkeeps⟩ := M.setProperty name v h
  refine ⟨s', ?_, hholds, hkeeps⟩
  simp only [EngineAction.defineValue, Action.ofEngine, hset]
  rfl

/-- An object after values have been written into its properties. -/
theorem defineValues (rows : List (String × E.Value)) (h : M.Holds s o p) : ∃ s',
    EngineAction.defineValues o rows seat s = (.ok (), s') ∧ M.Holds s' o (p.writeAll rows) ∧
      M.KeepsBut o s s' := by
  induction rows generalizing s p with
  | nil => exact ⟨s, rfl, h, .refl ..⟩
  | cons row rows ih =>
    obtain ⟨s₁, hrow, h₁, hkeeps₁⟩ := M.defineValue row.1 row.2 h
    obtain ⟨s₂, hrows, h₂, hkeeps₂⟩ := ih h₁
    refine ⟨s₂, ?_, h₂, hkeeps₁.trans hkeeps₂⟩
    rw [EngineAction.defineValues, Action.bind_def, hrow]
    exact hrows

/-- An object after functions have been written into its properties. -/
theorem defineFunctions (H : M.MakesObjects) (fs : List Export) (hfree : M.Free s)
    (h : M.Holds s o p) : ∃ rows s', rows.map Prod.fst = fs.map Export.name ∧
      EngineAction.defineFunctions o fs seat s = (.ok (), s') ∧ M.Holds s' o (p.writeAll rows) ∧
      M.KeepsBut o s s' := by
  induction fs generalizing s p with
  | nil => exact ⟨[], s, rfl, rfl, h, .refl ..⟩
  | cons f fs ih =>
    have hkeeps := H.newFunction f.name f.arity f.native hfree
    obtain ⟨s₁, hdefine, h₁, hkeeps₁⟩ := M.defineValue f.name
      (E.newFunction seat f.name f.arity f.native s).1 (hkeeps.holds h)
    obtain ⟨rows, s₂, hnames, hrest, h₂, hkeeps₂⟩ := ih (hkeeps₁.free (hkeeps.free hfree)) h₁
    refine ⟨(f.name, (E.newFunction seat f.name f.arity f.native s).1) :: rows, s₂,
      congrArg (f.name :: ·) hnames, ?_, h₂, (hkeeps.but o).trans (hkeeps₁.trans hkeeps₂)⟩
    rw [EngineAction.defineFunctions, Action.bind_def, EngineAction.defineFunction, Action.bind_def]
    simp only [Action.ofState, hdefine]
    exact hrest

end Engine.Objects

end ScriptHost
