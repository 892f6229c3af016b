import ScriptHost.Proofs.Engine.Objects
import ScriptHost.Script.Engine

/-!
# Objects of the form engine

An object of the form engine that has no traps and is no array keeps its properties, whatever traps
there are elsewhere. What the library makes at a seat has the traps that the engine was seated with.

## Main definitions

* `Script.objects`: the form engine as an engine whose objects keep their properties.

## Main results

* `Script.makesObjects`, `Script.makesErrors`: a seat without traps for ordinary objects makes such
  as keep their properties; one without traps for errors makes such errors.
-/

namespace ScriptHost.Script

namespace State

variable {seat : Seat} {s : State}

/-- A value is an object without traps, no array, and has these properties. -/
def Shows (s : State) (v : Value) (p : Properties Value) : Prop :=
  ∃ o, s.object? v = some o ∧ o.traps = [] ∧ (∀ items, o.kind ≠ .array items) ∧
    p = o.properties.get?

/-- The view of a state in which no trap is asked for, of those that a seat may ask for. -/
def view (seat : Seat) (traps : Local → List String) : engine.View where
  Free s := traps (s.local_ seat) = []
  Holds := Shows

theorem lookup_of_not_array {o : Object} (h : ∀ items, o.kind ≠ .array items) (name : String) :
    lookup o name = (o.properties.get? name).getD .undefined := by
  rw [lookup]
  split
  · next items hkind => exact absurd hkind (h items)
  · rfl

theorem getProperty_of_shows {v : Value} {p : Properties Value} (h : s.Shows v p) (name : String) :
    s.getProperty seat v name = (.ok ((p name).getD .undefined), s) := by
  obtain ⟨o, ho, htraps, hkind, rfl⟩ := h
  cases v with
  | object place =>
    simp only [getProperty, ho, htraps, lookup_of_not_array hkind]
    rfl
  | _ => cases ho

/-- The object of a place after it has been changed there. -/
theorem object?_change (s : State) (place : Nat) (f : Object → Object) (v : Value) :
    (s.change (.object place) f).object? v =
      if v = .object place then (s.object? v).map f else s.object? v := by
  cases v with
  | object place' =>
    simp only [change, object?, Array.getElem?_modify, Value.object.injEq, eq_comm (a := place)]
  | _ => simp [object?]

theorem setProperty_of_shows {v : Value} {p : Properties Value} (h : s.Shows v p) (name : String)
    (w : Value) (traps : Local → List String) : ∃ s',
    s.setProperty seat v name w = (.ok (), s') ∧ s'.Shows v (p.write name w) ∧
      (view seat traps).KeepsBut v s s' := by
  obtain ⟨o, ho, htraps, hkind, rfl⟩ := h
  cases v with
  | object place =>
    let written (o : Object) : Object := { o with properties := o.properties.insert name w }
    have hset : s.setProperty seat (.object place) name w =
        (.ok (), s.change (.object place) written) := by
      simp only [setProperty, ho, htraps]
      rfl
    refine ⟨_, hset, ⟨written o, ?_, htraps, hkind, ?_⟩, id, ?_⟩
    · rw [object?_change, if_pos rfl, ho, Option.map_some]
    · funext name'
      exact (Table.get?_insert ..).symm
    · rintro o' p' hne ⟨o₁, ho₁, h₁⟩
      exact ⟨o₁, by rw [object?_change, if_neg hne, ho₁], h₁⟩
  | _ => cases ho

/-- What is made has a place of its own. -/
theorem object?_new (s : State) (o : Object) (v : Value) :
    (s.new o).2.object? v = if v = (s.new o).1 then some o else s.object? v := by
  cases v with
  | object place =>
    simp only [new, object?, Array.getElem?_push, Value.object.injEq]
  | _ => simp [new, object?]

theorem object?_new_self (s : State) (o : Object) : s.object? (s.new o).1 = none := by
  simp [new, object?]

theorem isNew_new (s : State) (o : Object) (traps : Local → List String) :
    (view seat traps).IsNew s (s.new o).1 := by
  rintro p ⟨o', ho', -⟩
  rw [object?_new_self] at ho'
  cases ho'

theorem keeps_new (s : State) (o : Object) (traps : Local → List String) :
    (view seat traps).Keeps s (s.new o).2 := by
  refine ⟨id, ?_⟩
  rintro v p ⟨o', ho', h⟩
  refine ⟨o', ?_, h⟩
  rw [object?_new, if_neg, ho']
  rintro rfl
  rw [object?_new_self] at ho'
  cases ho'

theorem shows_new {o : Object} (htraps : o.traps = []) (hkind : ∀ items, o.kind ≠ .array items) :
    (s.new o).2.Shows (s.new o).1 o.properties.get? :=
  ⟨o, by rw [object?_new, if_pos rfl], htraps, hkind, rfl⟩

end State

theorem primitives : engine.Primitives where
  asNumber_number _ := rfl
  asString_string _ := rfl
  isUndefined_string _ := rfl
  truthy_boolean b := by cases b <;> rfl

variable (seat : Seat)

/-- The form engine as an engine whose objects keep their properties; nothing of what it makes is
trapped as long as the seat asks for no such traps. -/
def objects (traps : Local → List String) : engine.Objects seat where
  view := State.view seat traps
  getProperty name h := ⟨_, State.getProperty_of_shows h name, .refl ..⟩
  setProperty name v h := State.setProperty_of_shows h name v traps

theorem makesObjects : (objects seat Local.objectTraps).MakesObjects where
  newObject hs :=
    ⟨State.shows_new (o := ⟨.empty, _, .plain⟩) hs (by simp), State.isNew_new _ _ _,
      State.keeps_new ..⟩
  newFunction _ _ _ _ := State.keeps_new ..

theorem makesErrors : (objects seat Local.errorTraps).MakesErrors where
  newError kind message hs :=
    ⟨_, State.shows_new (o := ⟨⟨[("message", .string message), ("name", .string kind.name)]⟩, _,
      .error kind⟩) hs (by simp), State.isNew_new _ _ _, State.keeps_new ..⟩

end ScriptHost.Script
