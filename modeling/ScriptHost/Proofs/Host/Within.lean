import ScriptHost.Host.Attachment
import Mathlib.Order.Defs.Unbundled

/-!
# What actions leave alone

An action stays within a relation if every run of it takes a state to a related one, whether it ends
with a result or with an exception. For a reflexive and transitive relation this passes from the
parts of an action to the whole, so that a native function is judged by the few places in which it
does something to a host.

## Main definitions

* `Action.Within`: an action stays within a relation.
* `Action.Yields`: the results of an action have a property.
* `Host.Aside`: hosts that differ in the engines and the platform alone, and not in the clock.

## Main results

* `Action.Within.bind`: sequences stay within a relation if their parts do.
* `Native.invoke_within`: a native function stays within a relation that contains `Host.Aside`, if
  the functions on timers, on modules and of the process object do.
* `Install.runtime_within`: so does installing a runtime, if registering native modules does.
-/

namespace ScriptHost

variable {E : Engine} {σ α β : Type}

namespace Action

theorem bind_def (x : Action E σ α) (f : α → Action E σ β) (seat : Seat) (s : σ) :
    (x >>= f) seat s = match x seat s with
      | (.ok a, s) => f a seat s
      | (.error e, s) => (.error e, s) :=
  rfl

private theorem bind_pure_eq (x : Action E σ α) : (x >>= fun a => Pure.pure a) = x := by
  funext seat s
  rw [bind_def]
  rcases x seat s with ⟨_ | _, _⟩ <;> rfl

private theorem bind_assoc_eq {γ : Type} (x : Action E σ α) (f : α → Action E σ β)
    (g : β → Action E σ γ) : x >>= f >>= g = x >>= fun a => f a >>= g := by
  funext seat s
  simp only [bind_def]
  rcases x seat s with ⟨_ | _, _⟩ <;> rfl

instance : LawfulMonad (Action E σ) :=
  LawfulMonad.mk' _ bind_pure_eq (fun _ _ => rfl) bind_assoc_eq

/-- An action stays within a relation, whichever way it ends. -/
def Within (R : σ → σ → Prop) (x : Action E σ α) : Prop := ∀ seat s, R s (x seat s).2

namespace Within

variable {R : σ → σ → Prop}

theorem mono {S : σ → σ → Prop} {x : Action E σ α} (hx : x.Within R) (h : ∀ s s', R s s' → S s s') :
    x.Within S :=
  fun seat s => h _ _ (hx seat s)

variable [IsPreorder σ R]

/-- An action that leaves the state alone. -/
theorem of_eq {x : Action E σ α} (hx : ∀ seat s, (x seat s).2 = s) : x.Within R := by
  intro seat s
  rw [hx]
  exact refl_of R s

theorem pure (a : α) : Within R (Pure.pure a : Action E σ α) := of_eq fun _ _ => rfl

theorem throw (e : Exception E.Value) : Within R (Action.throw e : Action E σ α) :=
  of_eq fun _ _ => rfl

theorem ofExcept (r : Except Fault α) : Within R (Action.ofExcept r : Action E σ α) := by
  cases r with
  | ok a => exact pure a
  | error f => exact throw _

/-- A sequence stays within a relation if its parts do. -/
theorem bind {x : Action E σ α} {f : α → Action E σ β} (hx : x.Within R)
    (hf : ∀ a, (f a).Within R) : Within R (x >>= f) := by
  intro seat s
  have h := hx seat s
  rw [bind_def]
  rcases hxs : x seat s with ⟨r, s'⟩
  rw [hxs] at h
  cases r with
  | ok a => exact trans_of R h (hf a seat s')
  | error e => exact h

theorem mapM {f : α → Action E σ β} (hf : ∀ a, (f a).Within R) (as : List α) :
    Within R (as.mapM f) := by
  induction as with
  | nil => exact pure []
  | cons a as ih =>
    rw [List.mapM_cons]
    exact (hf a).bind fun b => ih.bind fun bs => pure (b :: bs)

end Within

/-- Every result of an action has a property. -/
def Yields (P : α → Prop) (x : Action E σ α) : Prop :=
  ∀ seat s a s', x seat s = (.ok a, s') → P a

namespace Yields

variable {P : α → Prop}

theorem pure {a : α} (ha : P a) : Yields P (Pure.pure a : Action E σ α) := by
  intro seat s a' s' h
  cases h
  exact ha

/-- The result of a sequence is that of its last part. -/
theorem bind {x : Action E σ β} {f : β → Action E σ α} (hf : ∀ b, (f b).Yields P) :
    Yields P (x >>= f) := by
  intro seat s a s' h
  rw [bind_def] at h
  rcases hx : x seat s with ⟨_ | b, s₁⟩ <;> rw [hx] at h
  · cases h
  · exact hf b seat s₁ a s' h

end Yields

end Action

open ScriptHost.Action (Within)

/-! ### Changes beside the runtimes -/

namespace Host

/-- The engines and the platform may have changed, the clock has not. -/
def Aside (h h' : Host E) : Prop :=
  ∃ (engines : E.State) (platform : Platform), platform.clock = h.platform.clock ∧
    h' = { h with engines, platform }

instance : IsPreorder (Host E) Aside where
  refl h := ⟨h.engines, h.platform, rfl, rfl⟩
  trans := by
    rintro h _ _ ⟨s, p, hp, rfl⟩ ⟨s', p', hp', rfl⟩
    exact ⟨s', p', hp'.trans hp, rfl⟩

/-- The runtime that an engine is attached to is there. -/
theorem exists_of_attached {h : Host E} {seat : Seat} {id : RuntimeId}
    (hseat : h.attached seat = some id) : ∃ r, h.runtimes.get? id = some r := by
  obtain ⟨-, hid⟩ := Option.filter_eq_some_iff.1 hseat
  exact Option.isSome_iff_exists.1 ((Table.isSome_get? ..).trans hid)

theorem update_of_get? {h : Host E} {id : RuntimeId} {r : Runtime E} (f : Runtime E → Runtime E)
    (hr : h.runtimes.get? id = some r) : h.update id f = h.put id (f r) := by
  rw [update, hr]

theorem aside_engines (h : Host E) (engines : E.State) : Aside h { h with engines } :=
  ⟨engines, h.platform, rfl, rfl⟩

end Host

namespace HostAction

/-- An action on the engines. -/
theorem ofEngines_aside (x : EngineAction E α) : Within Host.Aside (ofEngines x) :=
  fun _ h => h.aside_engines _

theorem argument_aside (f : E.State → Except Fault α) : Within Host.Aside (argument f) :=
  fun seat h => Within.ofExcept (f h.engines) seat h

theorem ask_aside (f : Platform → α) : Within Host.Aside (ask f : HostAction E α) :=
  .of_eq fun _ _ => rfl

theorem attached_eq (seat : Seat) (h : Host E) : (attached seat h).2 = h := by
  rw [attached]
  split <;> rfl

end HostAction

open HostAction

/-! ### Native functions that stay aside -/

namespace FileFunction

theorem perform_aside (f : FileFunction) (path : String)
    (x : FileTree → Place → Except IoFailure α × FileTree) :
    Within Host.Aside (f.perform path x : HostAction E α) := by
  have hx : Within Host.Aside (onFiles x : HostAction E (Except IoFailure α)) :=
    fun _ h =>
      ⟨h.engines, { h.platform with files := (x h.platform.files h.platform.cwd).2 }, rfl, rfl⟩
  refine hx.bind fun r => ?_
  cases r with
  | ok a => exact .pure a
  | error failure => exact ofEngines_aside _

theorem text_aside (f : FileFunction) (args : List E.Value) (index : Nat) (name : String) :
    Within Host.Aside (f.text args index name) :=
  .ofExcept _

/-- Functions on files touch the files of the platform. -/
theorem invoke_aside (f : FileFunction) (args : List E.Value) :
    Within Host.Aside (f.invoke args) := by
  cases f with
  | doesExist => exact (ask_aside _).bind fun _ => .pure _
  | read =>
    exact (text_aside _ args 0 "path").bind fun _ => (ofEngines_aside _).bind fun _ =>
      (perform_aside _ _ _).bind fun _ => .pure _
  | write | append =>
    exact (text_aside _ args 0 "path").bind fun _ => (text_aside _ args 1 "data").bind fun _ =>
      (ofEngines_aside _).bind fun _ => (perform_aside _ _ _).bind fun _ => .pure _
  | makeDirectory | removeDirectory =>
    refine (text_aside _ args 0 "path").bind fun _ => (ofEngines_aside _).bind fun b => ?_
    cases b <;> exact (perform_aside _ _ _).bind fun _ => .pure _
  | list =>
    exact (text_aside _ args 0 "path").bind fun _ => (perform_aside _ _ _).bind fun _ =>
      ofEngines_aside _
  | unlink | realPath =>
    exact (text_aside _ args 0 "path").bind fun _ => (perform_aside _ _ _).bind fun _ => .pure _
  | rename =>
    exact (text_aside _ args 0 "oldPath").bind fun _ =>
      (text_aside _ args 1 "newPath").bind fun _ => (perform_aside _ _ _).bind fun _ => .pure _

end FileFunction

theorem SystemFunction.invoke_aside (f : SystemFunction) :
    Within Host.Aside (f.invoke : HostAction E E.Value) := by
  cases f with
  | cpus =>
    exact (ask_aside _).bind fun ps => (Within.mapM (fun _ => ofEngines_aside _) ps).bind fun _ =>
      ofEngines_aside _
  | _ => exact ask_aside _

theorem PathFunction.invoke_aside (f : PathFunction) (args : List E.Value) :
    Within Host.Aside (f.invoke args) :=
  (ask_aside _).bind fun _ => .ofExcept _

theorem ProcessFunction.workingDirectory_aside :
    Within Host.Aside (workingDirectory : HostAction E E.Value) := by
  refine (ask_aside _).bind fun r => ?_
  cases r with
  | ok dir => exact .pure _
  | error failure => exact ofEngines_aside _

theorem UtilFunction.invoke_aside (f : UtilFunction) (args : List E.Value) :
    Within Host.Aside (f.invoke args) := by
  cases f with
  | isFunction => exact .of_eq fun _ _ => rfl
  | _ => exact .pure _

/-! ### Native functions -/

/-- A native function does to a host what the functions on timers, on modules and of the process
object do, and otherwise nothing to its runtimes. -/
theorem Native.invoke_within {R : Host E → Host E → Prop} [IsPreorder (Host E) R]
    (haside : ∀ h h', Host.Aside h h' → R h h') (f : Native)
    (htimer : ∀ (g : TimerFunction) (args : List E.Value), f = .timer g → Within R (g.invoke args))
    (hqueue : ∀ args : List E.Value, f = .process .nextTick →
      Within R (ProcessFunction.queue args))
    (hleave : ∀ args : List E.Value, f = .process .exit → Within R (ProcessFunction.leave args))
    (hmodule : ∀ (g : ModuleFunction) (args : List E.Value), f = .module g →
      Within R (g.invoke args))
    (this : E.Value) (args : List E.Value) : Within R (f.invoke this args) := by
  cases f with
  | timer f => exact (htimer f args rfl).bind fun _ => .pure _
  | module f => exact hmodule f args rfl
  | process f =>
    refine Within.bind ?_ fun _ => .pure _
    cases f with
    | nextTick => exact hqueue args rfl
    | exit => exact hleave args rfl
    | cwd => exact ProcessFunction.workingDirectory_aside.mono haside
  | print stream => exact .pure _
  | buffer f => exact ((ofEngines_aside _).mono haside).bind fun _ => .pure _
  | file f => exact ((f.invoke_aside args).mono haside).bind fun _ => .pure _
  | system f => exact (f.invoke_aside.mono haside).bind fun _ => .pure _
  | path f => exact ((f.invoke_aside args).mono haside).bind fun _ => .pure _
  | util f => exact (f.invoke_aside args).mono haside

/-! ### Attaching runtimes -/

namespace Install

variable {R : Host E → Host E → Prop} [IsPreorder (Host E) R]

theorem natives_within (haside : ∀ h h', Host.Aside h h' → R h h') {owner : RuntimeId}
    (hregister : ∀ (m : NativeModule) (exports : E.Value),
      Within R (Loading.changeTables owner fun t => (t.registerNative? m.id exports).getD t))
    (ms : List NativeModule) : Within R (natives owner ms : HostAction E Unit) := by
  induction ms with
  | nil => exact .pure _
  | cons m ms ih =>
    exact ((ofEngines_aside _).mono haside).bind fun exports =>
      (hregister m exports).bind fun _ => ih

/-- Installing a runtime does to a host what registering native modules does, and otherwise nothing
to its runtimes. -/
theorem runtime_within (haside : ∀ h h', Host.Aside h h' → R h h') {owner : RuntimeId}
    (hregister : ∀ (m : NativeModule) (exports : E.Value),
      Within R (Loading.changeTables owner fun t => (t.registerNative? m.id exports).getD t))
    (config : Config) (require : E.Value) : Within R (runtime owner config require) :=
  (natives_within haside hregister _).bind fun _ => Within.bind (.of_eq fun _ _ => rfl) fun _ =>
    (ofEngines_aside _).mono haside

end Install

end ScriptHost
