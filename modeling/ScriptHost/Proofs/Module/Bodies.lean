import ScriptHost.Native.Invoke

/-!
# Bodies that load modules

An engine without traps lets the properties of objects be read and written without an exception, and
what is an object stays one. On such an engine the body of a module may do nothing else than load
modules, one after the other, and change its own objects in between. What such a body does between
two calls does not depend on what becomes of the objects of others meanwhile.

## Main definitions

* `Engine.Untrapped`: an engine without traps.
* `Engine.Untrapped.Body`: a script that loads modules and returns.
-/

namespace ScriptHost

variable {E : Engine} {seat : Seat}

/-- An engine without traps: the states in which nothing is trapped, the objects in a state, and
what may come about since a state, which takes neither away. -/
structure Engine.Untrapped (E : Engine) (seat : Seat) where
  /-- Nothing is trapped. -/
  Free : E.State → Prop
  /-- A value is an object. -/
  Object : E.State → E.Value → Prop
  /-- The second state may have come about since the first. -/
  Since : E.State → E.State → Prop
  refl : ∀ s, Since s s
  trans : ∀ {s s' s''}, Since s s' → Since s' s'' → Since s s''
  free : ∀ {s s'}, Since s s' → Free s → Free s'
  object : ∀ {s s' v}, Since s s' → Object s v → Object s' v
  newObject : ∀ {s}, Free s → Since s (E.newObject seat s).2 ∧
    Object (E.newObject seat s).2 (E.newObject seat s).1
  getProperty : ∀ {s o} name, Free s → Object s o → ∃ v s',
    E.getProperty seat o name s = (.ok v, s') ∧ Since s s'
  setProperty : ∀ {s o} name v, Free s → Object s o → ∃ s',
    E.setProperty seat o name v s = (.ok (), s') ∧ Since s s'

namespace Engine.Untrapped

/-- A script that loads the modules of some specifiers from a directory, one after the other, and
then returns; in any state that may have come about since the given one. -/
inductive Body (T : E.Untrapped seat) (dir : String) : List String → E.Script → E.State → Prop
  /-- It returns. -/
  | returns {script : E.Script} {s₀ : E.State}
      (h : ∀ s, T.Since s₀ s → ∃ v s', E.step seat script s = (.returned v, s') ∧ T.Since s s') :
      Body T dir [] script s₀
  /-- It takes a step of its own. -/
  | runs {specifiers : List String} {script : E.Script} {s₀ : E.State}
      (next : E.State → E.Script × E.State)
      (h : ∀ s, T.Since s₀ s →
        E.step seat script s = (.running (next s).1, (next s).2) ∧ T.Since s (next s).2)
      (hnext : ∀ s, T.Since s₀ s → Body T dir specifiers (next s).1 (next s).2) :
      Body T dir specifiers script s₀
  /-- It loads the first module, and goes on whichever value that exports. -/
  | loads {specifier : String} {specifiers : List String} {script : E.Script} {s₀ : E.State}
      (this : E.State → E.Value) (args : E.State → List E.Value)
      (rest : E.State → E.Script × E.State)
      (h : ∀ s, T.Since s₀ s →
        E.step seat script s =
          (.native (.module .require) (this s) (args s) (rest s).1, (rest s).2) ∧
        ModuleFunction.question "require" (args s) = .ok ⟨specifier, some dir⟩ ∧
        T.Since s (rest s).2)
      (hrest : ∀ s v s', T.Since s₀ s → T.Since (rest s).2 s' →
        Body T dir specifiers (E.resume (rest s).1 (.ok v)) s') :
      Body T dir (specifier :: specifiers) script s₀

/-- A body does the same later. -/
theorem Body.later {T : E.Untrapped seat} {dir : String} {specifiers : List String}
    {script : E.Script} {s₀ s₁ : E.State} (H : T.Body dir specifiers script s₀)
    (h₁ : T.Since s₀ s₁) : T.Body dir specifiers script s₁ := by
  cases H with
  | returns h => exact .returns fun s hs => h s (T.trans h₁ hs)
  | runs next h hnext =>
    exact .runs next (fun s hs => h s (T.trans h₁ hs)) fun s hs => hnext s (T.trans h₁ hs)
  | loads this args rest h hrest =>
    exact .loads this args rest (fun s hs => h s (T.trans h₁ hs))
      fun s v s' hs => hrest s v s' (T.trans h₁ hs)

end Engine.Untrapped

end ScriptHost
