import ScriptHost.Proofs.Host.Within

/-!
# The module tables of a host

Every runtime of a host has its module tables. The function that loads modules is the only native
one that changes them: it notes that a body is to be evaluated, and it does so only for a module
that is neither loaded nor being evaluated.

## Main definitions

* `ModuleEvent`: what becomes of a module.
* `begun`, `completed`: the modules that begin to be evaluated, and those that are loaded, in some
  events.
* `Host.modules?`: the module tables of a runtime.
* `Host.SameModules`, `Host.ChangesModules`: hosts with the same tables, or with other ones for one
  runtime.
* `Runtime.Answers`: what it takes for a question to be answered by a loaded module.
* `Native.moduleEvent?`: what becomes of a module by calling a native function.

## Main results

* `Native.invoke_sameModules`: the other native functions leave the tables alone.
* `Native.invoke_replies`: what a native function leaves behind.
* `Loading.require_of_answers`: a loaded module is answered with what it exports at that moment.
-/

namespace ScriptHost

variable {E : Engine} {α : Type}

/-- The runtime and the id of a module. -/
def Loading.key {V : Type} (l : Loading V) : RuntimeId × String := (l.owner, l.id)

/-- What becomes of a module. -/
inductive ModuleEvent (V : Type) where
  /-- The evaluation of its body begins. -/
  | began (l : Loading V)
  /-- Its body has been evaluated and it has been marked, and it is loaded. -/
  | completed (l : Loading V)
  /-- Its objects could not be made, its body has thrown, or it could not be marked. -/
  | aborted (key : RuntimeId × String)
deriving DecidableEq

/-- The runtime and the id of the module of an event. -/
def ModuleEvent.key {V : Type} : ModuleEvent V → RuntimeId × String
  | .began l | .completed l => l.key
  | .aborted key => key

/-- The module whose body begins to be evaluated in an event. -/
def ModuleEvent.began? {V : Type} : ModuleEvent V → Option (Loading V)
  | .began l => some l
  | _ => none

/-- The module that is loaded in an event. -/
def ModuleEvent.completed? {V : Type} : ModuleEvent V → Option (Loading V)
  | .completed l => some l
  | _ => none

/-- The modules whose bodies begin to be evaluated in some events. -/
def begun {V : Type} (es : List (ModuleEvent V)) : List (Loading V) :=
  es.filterMap ModuleEvent.began?

/-- The modules that are loaded in some events. -/
def completed {V : Type} (es : List (ModuleEvent V)) : List (Loading V) :=
  es.filterMap ModuleEvent.completed?

@[simp]
theorem begun_append {V : Type} (es es' : List (ModuleEvent V)) :
    begun (es ++ es') = begun es ++ begun es' :=
  List.filterMap_append

@[simp]
theorem completed_append {V : Type} (es es' : List (ModuleEvent V)) :
    completed (es ++ es') = completed es ++ completed es' :=
  List.filterMap_append

theorem mem_completed {V : Type} {es : List (ModuleEvent V)} {l : Loading V} :
    l ∈ completed es ↔ .completed l ∈ es := by
  rw [completed, List.mem_filterMap]
  constructor
  · rintro ⟨_ | l' | _, he, hl⟩
    case completed => exact Option.some.inj hl ▸ he
    all_goals cases hl
  · exact fun he => ⟨_, he, rfl⟩

theorem completed_toList {V : Type} (o : Option (ModuleEvent V)) :
    completed o.toList = (o.bind ModuleEvent.completed?).toList := by
  cases o with
  | none => rfl
  | some e => cases e <;> rfl

namespace Host

/-- The module tables of a runtime. -/
def modules? (h : Host E) (id : RuntimeId) : Option (ModuleTable E.Value) :=
  (h.runtimes.get? id).map Runtime.modules

/-- The same runtimes with the same module tables. -/
def SameModules (h h' : Host E) : Prop := ∀ id, h'.modules? id = h.modules? id

/-- The same runtimes, and the module tables of one of them have changed. -/
def ChangesModules (owner : RuntimeId) (f : ModuleTable E.Value → ModuleTable E.Value)
    (h h' : Host E) : Prop :=
  ∀ id, h'.modules? id = if id = owner then (h.modules? id).map f else h.modules? id

instance : IsPreorder (Host E) SameModules where
  refl _ _ := rfl
  trans _ _ _ H H' id := (H' id).trans (H id)

theorem ChangesModules.of_same {owner : RuntimeId}
    {f : ModuleTable E.Value → ModuleTable E.Value} {h h₁ h₂ h' : Host E}
    (H : h₁.ChangesModules owner f h₂) (hbefore : h.SameModules h₁) (hafter : h₂.SameModules h') :
    h.ChangesModules owner f h' := by
  intro id
  rw [hafter id, H id, hbefore id]

theorem ChangesModules.trans {owner : RuntimeId}
    {f g : ModuleTable E.Value → ModuleTable E.Value} {h h₁ h' : Host E}
    (H : h.ChangesModules owner f h₁) (H' : h₁.ChangesModules owner g h') :
    h.ChangesModules owner (fun t => g (f t)) h' := by
  intro id
  rw [H' id, H id]
  split
  · exact Option.map_map ..
  · rfl

theorem Aside.sameModules {h h' : Host E} (H : h.Aside h') : h.SameModules h' := by
  obtain ⟨engines, platform, -, rfl⟩ := H
  exact fun _ => rfl

theorem modules?_of_get? {h : Host E} {id : RuntimeId} {r : Runtime E}
    (hr : h.runtimes.get? id = some r) : h.modules? id = some r.modules := by
  rw [modules?, hr]
  rfl

theorem modules?_put (h : Host E) (id id' : RuntimeId) (r : Runtime E) :
    (h.put id r).modules? id' = if id' = id then some r.modules else h.modules? id' := by
  simp only [modules?, put, Table.get?_insert]
  split <;> rfl

theorem sameModules_put {h : Host E} {id : RuntimeId} {r r' : Runtime E}
    (hr : h.runtimes.get? id = some r) (hm : r'.modules = r.modules) :
    h.SameModules (h.put id r') := by
  intro id'
  rw [modules?_put]
  split
  · next he => rw [he, modules?_of_get? hr, hm]
  · rfl

theorem sameModules_update {h : Host E} {id : RuntimeId} {f : Runtime E → Runtime E}
    (hf : ∀ r, (f r).modules = r.modules) : h.SameModules (h.update id f) := by
  rw [update]
  split
  · next r hr => exact sameModules_put hr (hf r)
  · exact refl_of SameModules h

theorem sameModules_scheduling {h h' : Host E} {id : RuntimeId} {a : α}
    {f : Scheduler E.Value → LoopSeat → α × Scheduler E.Value × LoopSeat}
    (hs : h.scheduling? id f = some (a, h')) : h.SameModules h' := by
  obtain ⟨r, hr, he⟩ := Option.map_eq_some_iff.1 hs
  obtain ⟨-, rfl⟩ := Prod.mk.inj he
  exact sameModules_put hr rfl

theorem sameModules_scheduled (h : Host E) (id : RuntimeId)
    (f : Scheduler E.Value → LoopSeat → α × Scheduler E.Value × LoopSeat) :
    h.SameModules (((h.scheduling? id f).map Prod.snd).getD h) := by
  rcases hs : h.scheduling? id f with _ | ⟨a, h'⟩
  · exact refl_of SameModules h
  · exact sameModules_scheduling hs

theorem changesModules_update (h : Host E) (owner : RuntimeId)
    (f : ModuleTable E.Value → ModuleTable E.Value) :
    h.ChangesModules owner f (h.update owner fun r => { r with modules := f r.modules }) := by
  intro id
  rw [update]
  split
  · next r hr =>
    rw [modules?_put]
    split
    · next he => rw [he, modules?, hr]; rfl
    · rfl
  · next hr =>
    split
    · next he => rw [he, modules?, hr]; rfl
    · rfl

end Host

/-- A question that is answered by the module of an id once that is loaded: it does not name a
native module, and it names the id, or else nothing that is loaded, and the resolver says the id. -/
def Runtime.Answers (r : Runtime E) (p : Platform) (q : Question) (id : String) : Prop :=
  r.modules.natives.get? q.specifier = none ∧
    (q.specifier = id ∨ r.modules.cached.get? q.specifier = none ∧
      ∃ m, r.resolver.answer p r.questions q = .ok m ∧ m.id = id)

/-- A question that the resolver answers with a module: it names neither a native module nor one
that is loaded. -/
structure Runtime.Asks (r : Runtime E) (p : Platform) (q : Question) (m : ResolvedModule) :
    Prop where
  native : r.modules.natives.get? q.specifier = none
  cached : r.modules.cached.get? q.specifier = none
  answer : r.resolver.answer p r.questions q = .ok m

instance (r : Runtime E) (p : Platform) (q : Question) (id : String) :
    Decidable (r.Answers p q id) :=
  have : Decidable (∃ m, r.resolver.answer p r.questions q = .ok m ∧ m.id = id) :=
    match r.resolver.answer p r.questions q with
    | .error _ => isFalse nofun
    | .ok m => decidable_of_iff (m.id = id)
      ⟨fun h => ⟨m, rfl, h⟩, fun ⟨_, hm, h⟩ => Except.ok.inj hm ▸ h⟩
  inferInstanceAs (Decidable (_ ∧ (_ ∨ _ ∧ _)))

open ScriptHost.Action (Within)
open Host HostAction

/-! ### Native functions -/

theorem HostAction.ofEngines_eq (x : EngineAction E α) (seat : Seat) (h : Host E) :
    ofEngines x seat h = ((x seat h.engines).1, { h with engines := (x seat h.engines).2 }) :=
  rfl

theorem HostAction.ofEngines_sameModules (x : EngineAction E α) :
    Within SameModules (ofEngines x) :=
  (ofEngines_aside x).mono fun _ _ => Aside.sameModules

theorem HostAction.scheduling_sameModules
    (f : Scheduler E.Value → LoopSeat → α × Scheduler E.Value × LoopSeat) :
    Within SameModules (scheduling f) := by
  intro seat h
  rw [scheduling]
  rcases ha : (h.attached seat).bind (fun id => h.scheduling? id f) with _ | ⟨a, h'⟩
  · exact refl_of SameModules h
  · obtain ⟨id, -, hs⟩ := Option.bind_eq_some_iff.1 ha
    exact sameModules_scheduling hs

theorem TimerFunction.invoke_sameModules (f : TimerFunction) (args : List E.Value) :
    Within SameModules (f.invoke args) := by
  cases f with
  | set kind =>
    exact ((argument_aside _).mono fun _ _ => Aside.sameModules).bind fun _ =>
      (Within.ofExcept _).bind fun _ => (scheduling_sameModules _).bind fun r =>
        (Within.ofExcept r).bind fun _ => .pure _
  | clear kind =>
    exact (Within.ofExcept _).bind fun _ => (scheduling_sameModules _).bind fun _ => .pure _

theorem ProcessFunction.queue_sameModules (args : List E.Value) :
    Within SameModules (queue args) :=
  ((argument_aside _).mono fun _ _ => Aside.sameModules).bind fun _ =>
    (scheduling_sameModules _).bind fun _ => .pure _

theorem ProcessFunction.leave_sameModules (args : List E.Value) :
    Within SameModules (leave args) :=
  (Within.ofExcept _).bind fun _ => Within.bind (.of_eq attached_eq) fun _ =>
    Within.bind (fun _ _ => sameModules_update fun _ => rfl) fun _ => .pure _

namespace Loading

theorem ask_sameModules (owner : RuntimeId) (q : Question) :
    Within SameModules (ask owner q : HostAction E ResolvedModule) := by
  intro seat h
  rw [ask]
  split
  · exact refl_of SameModules h
  · next r hr => exact sameModules_put hr rfl

theorem resolve_sameModules (owner : RuntimeId) (q : Question) :
    Within SameModules (resolve owner q : HostAction E String) := by
  refine Within.bind (.of_eq fun _ _ => rfl) fun table => ?_
  split
  · exact .pure _
  · exact (ask_sameModules owner q).bind fun _ => .pure _

theorem exportsOf_sameModules (object : E.Value) : Within SameModules (exportsOf object) :=
  ofEngines_sameModules _

theorem markLoaded_sameModules (l : Loading E.Value) : Within SameModules l.markLoaded :=
  ofEngines_sameModules _

theorem find_sameModules (owner : RuntimeId) (q : Question) :
    Within SameModules (find owner q : HostAction E (Origin E.Value)) := by
  refine Within.bind (.of_eq fun _ _ => rfl) fun table => ?_
  split
  · exact .pure _
  · split
    · exact .pure _
    · refine (ask_sameModules owner q).bind fun m => Within.bind (.of_eq fun _ _ => rfl) fun t => ?_
      split <;> exact .pure _

end Loading

/-- A native function other than the one that loads modules leaves the tables alone. -/
theorem Native.invoke_sameModules {f : Native} (hf : f ≠ .module .require) (this : E.Value)
    (args : List E.Value) : Within SameModules (f.invoke this args) := by
  refine f.invoke_within (fun _ _ => Aside.sameModules) (fun g args _ => g.invoke_sameModules args)
    (fun args _ => ProcessFunction.queue_sameModules args)
    (fun args _ => ProcessFunction.leave_sameModules args) (fun g args hg => ?_) this args
  cases g with
  | require => exact absurd hg hf
  | resolve =>
    exact (Within.ofExcept _).bind fun q => Within.bind (.of_eq attached_eq) fun id =>
      (Loading.resolve_sameModules id q).bind fun _ => .pure _

/-- A reply after which no body is evaluated. -/
def Reply.IsDirect (reply : Reply E) : Prop := ∀ l scope, reply ≠ .evaluate l scope

/-- A native function other than the one that loads modules has no body evaluated. -/
theorem Native.invoke_isDirect {f : Native} (hf : f ≠ .module .require) (this : E.Value)
    (args : List E.Value) : (f.invoke this args).Yields Reply.IsDirect := by
  have hvalue (v : E.Value) : Action.Yields (E := E) (σ := Host E) Reply.IsDirect
      (pure (.value v)) := .pure (by rintro l scope ⟨⟩)
  have hrender (r : Rendering E.Value) : Action.Yields (E := E) (σ := Host E) Reply.IsDirect
      (pure (.render r)) := .pure (by rintro l scope ⟨⟩)
  cases f with
  | module g =>
    cases g with
    | require => exact absurd rfl hf
    | resolve => exact .bind fun _ => .bind fun _ => .bind fun _ => hvalue _
  | print stream => exact hrender _
  | util g =>
    cases g with
    | format | inspect => exact hrender _
    | isFunction => rintro seat h reply h' ⟨⟩ l scope ⟨⟩
    | _ => exact hvalue _
  | _ => exact .bind fun _ => hvalue _

/-! ### What attaching a runtime does to tables -/

namespace Host

/-- The same runtimes with the same modules, apart from the native ones. -/
def SameLoads (h h' : Host E) : Prop :=
  ∀ id, (h'.modules? id).map (fun t => (t.loading, t.cached)) =
    (h.modules? id).map fun t => (t.loading, t.cached)

instance : IsPreorder (Host E) SameLoads where
  refl _ _ := rfl
  trans _ _ _ H H' id := (H' id).trans (H id)

theorem SameModules.sameLoads {h h' : Host E} (H : h.SameModules h') : h.SameLoads h' :=
  fun id => by rw [H id]

theorem SameLoads.of_some {h h' : Host E} (H : h.SameLoads h') {id : RuntimeId}
    {t : ModuleTable E.Value} (ht : h'.modules? id = some t) :
    ∃ t₀, h.modules? id = some t₀ ∧ t.loading = t₀.loading ∧ t.cached = t₀.cached := by
  have hsame := H id
  rw [ht] at hsame
  obtain ⟨t₀, ht₀, he⟩ := Option.map_eq_some_iff.1 hsame.symm
  obtain ⟨hl, hc⟩ := Prod.mk.inj he
  exact ⟨t₀, ht₀, hl.symm, hc.symm⟩

end Host

namespace Install

theorem registerNative?_loads (t : ModuleTable E.Value) (id : String) (exports : E.Value) :
    ((t.registerNative? id exports).getD t).loading = t.loading ∧
      ((t.registerNative? id exports).getD t).cached = t.cached := by
  rw [ModuleTable.registerNative?]
  split <;> exact ⟨rfl, rfl⟩

theorem register_sameLoads (owner : RuntimeId) (m : NativeModule) (exports : E.Value) :
    Within SameLoads
      (Loading.changeTables owner fun t => (t.registerNative? m.id exports).getD t) := by
  intro seat h id
  have hm := changesModules_update h owner (fun t => (t.registerNative? m.id exports).getD t) id
  change ((Host.modules? (h.update owner _) id).map _) = _
  rw [hm]
  split
  · rw [Option.map_map]
    refine Option.map_congr fun t _ => ?_
    obtain ⟨hl, hc⟩ := registerNative?_loads t m.id exports
    exact Prod.ext hl hc
  · rfl

theorem runtime_sameLoads (owner : RuntimeId) (config : Config) (require : E.Value) :
    Within SameLoads (runtime owner config require) :=
  runtime_within (fun _ _ h => (Aside.sameModules h).sameLoads) (register_sameLoads owner) config
    require

end Install

/-! ### Loading modules -/

namespace Host

/-- Nothing becomes of a module, or one that is neither loaded nor being evaluated stays so. -/
def Refuses (h : Host E) (o : Option (ModuleEvent E.Value)) : Prop :=
  ∀ e ∈ o, ∃ owner id t, e = .aborted (owner, id) ∧ h.modules? owner = some t ∧
    t.cached.get? id = none ∧ t.loading.get? id = none

theorem refuses_none (h : Host E) : h.Refuses none := nofun

theorem Refuses.of_same {h h₁ : Host E} {o : Option (ModuleEvent E.Value)} (hm : h.SameModules h₁)
    (ho : h₁.Refuses o) : h.Refuses o := by
  intro e he
  obtain ⟨owner, id, t, rfl, ht, hnew⟩ := ho e he
  exact ⟨owner, id, t, rfl, hm owner ▸ ht, hnew⟩

theorem Refuses.completed? {h : Host E} {o : Option (ModuleEvent E.Value)} (ho : h.Refuses o) :
    o.bind ModuleEvent.completed? = none := by
  cases o with
  | none => rfl
  | some e =>
    obtain ⟨owner, id, t, rfl, -⟩ := ho e rfl
    rfl

/-- What a native function leaves behind: the tables as they were, or those in which it is noted
that the body of a module that was neither loaded nor being evaluated is being evaluated; and what
becomes of a module. -/
inductive Replies (h : Host E) :
    Except (Exception E.Value) (Reply E) × Host E → Option (ModuleEvent E.Value) → Prop
  /-- No body is to be evaluated. -/
  | direct {p o} (hm : h.SameModules p.2) (hp : ∀ reply, p.1 = .ok reply → reply.IsDirect)
      (ho : h.Refuses o) : Replies h p o
  /-- The body of a module is to be evaluated. -/
  | evaluate {l : Loading E.Value} {scope : ModuleScope E.Value} {h' : Host E}
      {t : ModuleTable E.Value} (ht : h.modules? l.owner = some t)
      (hcached : t.cached.get? l.id = none) (hloading : t.loading.get? l.id = none)
      (hm : h.ChangesModules l.owner (fun t => t.beginLoading l.id l.object) h') :
      Replies h (.ok (.evaluate l scope), h') (some (.began l))

theorem Replies.error {h h' : Host E} {o : Option (ModuleEvent E.Value)} (H : h.SameModules h')
    (ho : h.Refuses o) (e : Exception E.Value) : h.Replies (.error e, h') o :=
  .direct H (by rintro reply ⟨⟩) ho

theorem Replies.value {h h' : Host E} (H : h.SameModules h') (v : E.Value) :
    h.Replies (.ok (.value v), h') none :=
  .direct H (by rintro reply ⟨⟩ l scope ⟨⟩) h.refuses_none

theorem Replies.of_same {h h₁ : Host E} {p : Except (Exception E.Value) (Reply E) × Host E}
    {o : Option (ModuleEvent E.Value)} (H : h.SameModules h₁) (hp : h₁.Replies p o) :
    h.Replies p o := by
  cases hp with
  | direct hm hp ho => exact .direct (trans_of SameModules H hm) hp (ho.of_same H)
  | evaluate ht hcached hloading hm =>
    exact .evaluate (H _ ▸ ht) hcached hloading (hm.of_same H (refl_of SameModules _))

end Host

namespace Loading

variable {owner : RuntimeId} {q : Question} {seat : Seat} {h h' : Host E}

theorem tables_eq (owner : RuntimeId) (seat : Seat) (h : Host E) :
    tables owner seat h = (.ok ((h.modules? owner).getD .empty), h) :=
  rfl

theorem exportsOf_eq (object : E.Value) (seat : Seat) (h : Host E) :
    exportsOf object seat h =
      ((E.getProperty seat object "exports" h.engines).1.mapError .thrown,
        { h with engines := (E.getProperty seat object "exports" h.engines).2 }) :=
  rfl

/-- A native module is found under its id. -/
theorem find_of_native {t : ModuleTable E.Value} {exports : E.Value}
    (ht : h.modules? owner = some t) (hn : t.natives.get? q.specifier = some exports)
    (seat : Seat) : find owner q seat h = (.ok (.native exports), h) := by
  rw [find]
  rw [Action.bind_def, tables_eq, ht]
  dsimp only [Option.getD_some]
  rw [hn]
  rfl

/-- A loaded module is found under its id. -/
theorem find_of_cached {t : ModuleTable E.Value} {c : CachedModule E.Value}
    (ht : h.modules? owner = some t) (hn : t.natives.get? q.specifier = none)
    (hc : t.cached.get? q.specifier = some c) (seat : Seat) :
    find owner q seat h = (.ok (.object c.object), h) := by
  rw [find]
  rw [Action.bind_def, tables_eq, ht]
  dsimp only [Option.getD_some]
  rw [hn]
  dsimp only
  rw [hc]
  rfl

/-- What the resolver answers with has an object already, or it is to be evaluated. -/
theorem find_of_asks {r : Runtime E} {m : ResolvedModule} (hr : h.runtimes.get? owner = some r)
    (hq : r.Asks h.platform q m) (seat : Seat) :
    find owner q seat h =
      (.ok (match r.modules.cached.get? m.id, r.modules.loading.get? m.id with
        | some c, _ => .object c.object
        | none, some object => .object object
        | none, none => .resolved m),
        h.put owner { r with questions := r.questions ++ [q] }) := by
  have hask : ask owner q seat h =
      (.ok m, h.put owner { r with questions := r.questions ++ [q] }) := by
    simp only [ask, hr, hq.answer]
    rfl
  rw [find]
  rw [Action.bind_def, tables_eq, modules?_of_get? hr]
  dsimp only [Option.getD_some]
  rw [hq.native, hq.cached]
  dsimp only
  rw [Action.bind_def, hask]
  dsimp only
  rw [Action.bind_def, tables_eq, modules?_put, if_pos rfl]
  dsimp only [Option.getD_some]
  rcases r.modules.cached.get? m.id with _ | c
  · rcases r.modules.loading.get? m.id with _ | object <;> rfl
  · rfl

/-- A question that the resolver fails to answer is not answered. -/
theorem find_of_error {r : Runtime E} {e : Fault} (hr : h.runtimes.get? owner = some r)
    (hn : r.modules.natives.get? q.specifier = none)
    (hc : r.modules.cached.get? q.specifier = none)
    (ha : r.resolver.answer h.platform r.questions q = .error e) (seat : Seat) :
    find owner q seat h =
      (.error (.fault e), h.put owner { r with questions := r.questions ++ [q] }) := by
  rw [find]
  rw [Action.bind_def, tables_eq, modules?_of_get? hr]
  dsimp only [Option.getD_some]
  rw [hn, hc]
  change (ask owner q >>= _) seat h = _
  rw [Action.bind_def]
  simp only [ask, hr, ha]
  rfl

/-- A module that is to be evaluated is what the resolver of a runtime answers with, and it is neither
loaded nor being evaluated. -/
theorem find_resolved {m : ResolvedModule} (hf : find owner q seat h = (.ok (.resolved m), h')) :
    ∃ r, h.runtimes.get? owner = some r ∧ r.Asks h.platform q m ∧
      r.modules.cached.get? m.id = none ∧ r.modules.loading.get? m.id = none := by
  rcases hr : h.runtimes.get? owner with _ | r
  · have ht : h.modules? owner = none := by
      rw [modules?, hr]
      rfl
    have hask : ask owner q seat h = HostAction.detached seat h := by simp only [ask, hr]
    rw [find] at hf
    rw [Action.bind_def, tables_eq, ht] at hf
    change (ask owner q >>= _) seat h = _ at hf
    rw [Action.bind_def, hask] at hf
    cases hf
  · refine ⟨r, rfl, ?_⟩
    cases hnative : r.modules.natives.get? q.specifier with
    | some exports =>
      rw [find_of_native (modules?_of_get? hr) hnative] at hf
      cases hf
    | none =>
      cases hcached : r.modules.cached.get? q.specifier with
      | some c =>
        rw [find_of_cached (modules?_of_get? hr) hnative hcached] at hf
        cases hf
      | none =>
        cases ha : r.resolver.answer h.platform r.questions q with
        | error e =>
          rw [find_of_error hr hnative hcached ha] at hf
          cases hf
        | ok m' =>
          have hasks : r.Asks h.platform q m' := ⟨hnative, hcached, ha⟩
          rw [find_of_asks hr hasks] at hf
          obtain ⟨horigin, -⟩ := Prod.mk.inj hf
          cases hc : r.modules.cached.get? m'.id <;> rw [hc] at horigin
          · cases hl : r.modules.loading.get? m'.id <;> rw [hl] at horigin
            · cases horigin
              exact ⟨hasks, hc, hl⟩
            · cases horigin
          · cases horigin

/-- Makes the module object and the exports object of a module, with what its body is evaluated
with. -/
def objects (owner : RuntimeId) (m : ResolvedModule) (require : E.Value) :
    EngineAction E (Loading E.Value × ModuleScope E.Value) := do
  let object ← EngineAction.newObject (E := E)
  let exports ← EngineAction.newObject (E := E)
  EngineAction.defineValues object
    [("id", E.string m.id), ("filename", E.string m.filename), ("loaded", E.boolean false),
     ("exports", exports)]
  return (⟨owner, m.id, m.filename, object⟩,
    { id := m.id, filename := m.filename, dirname := m.dirname, source := m.source,
      module := object, exports, require })

/-- The objects that are made belong to the module. -/
theorem objects_yields (owner : RuntimeId) (m : ResolvedModule) (require : E.Value) :
    (objects owner m require).Yields fun p => p.1 = ⟨owner, m.id, m.filename, p.2.module⟩ :=
  .bind fun _ => .bind fun _ => .bind fun _ => .pure rfl

/-- Entering a module makes its objects, and last of all notes that its body is being evaluated. -/
theorem enter_eq (owner : RuntimeId) (m : ResolvedModule) (require : E.Value) (seat : Seat)
    (h : Host E) : enter owner m require seat h =
      (ofEngines (objects owner m require) >>= fun p =>
        changeTables owner (fun t => t.beginLoading m.id p.1.object) >>= fun _ => pure p)
          seat h := by
  let object := (E.newObject seat h.engines).1
  let made := E.newObject seat (E.newObject seat h.engines).2
  let define : EngineAction E Unit := EngineAction.defineValues object
    [("id", E.string m.id), ("filename", E.string m.filename), ("loaded", E.boolean false),
     ("exports", made.1)]
  let p : Loading E.Value × ModuleScope E.Value := (⟨owner, m.id, m.filename, object⟩,
    { id := m.id, filename := m.filename, dirname := m.dirname, source := m.source,
      module := object, exports := made.1, require })
  have henter : enter owner m require seat h = (ofEngines define >>= fun _ =>
      changeTables owner (fun t => t.beginLoading m.id object) >>= fun _ => pure p) seat
        { h with engines := made.2 } := rfl
  have hobjects : objects owner m require seat h.engines =
      (define >>= fun _ => pure p) seat made.2 :=
    rfl
  rw [henter, Action.bind_def, Action.bind_def]
  rw [ofEngines_eq, ofEngines_eq, hobjects, Action.bind_def]
  rcases define seat made.2 with ⟨e | _, s⟩ <;> rfl

/-- Enters a module and has its body evaluated. -/
def evaluation (owner : RuntimeId) (m : ResolvedModule) (require : E.Value) :
    HostAction E (Reply E) := do
  let p ← enter owner m require
  return .evaluate p.1 p.2

/-- A module that is to be evaluated is entered. -/
theorem require_of_resolved {m : ResolvedModule}
    (hf : find owner q seat h = (.ok (.resolved m), h')) : require owner q seat h =
      evaluation owner m (((h'.runtimes.get? owner).map Runtime.requireFunction).getD E.undefined)
        seat h' := by
  rw [require]
  rw [Action.bind_def, hf]
  rfl

theorem evaluation_result (owner : RuntimeId) (m : ResolvedModule) (require : E.Value) (seat : Seat)
    (h : Host E) : (evaluation owner m require seat h).1 =
      (objects owner m require seat h.engines).1.map fun p => .evaluate p.1 p.2 := by
  rw [evaluation]
  rw [Action.bind_def, enter_eq, Action.bind_def, ofEngines_eq]
  rcases objects owner m require seat h.engines with ⟨e | p, s⟩ <;> rfl

/-- A module that is neither loaded nor being evaluated is evaluated afresh. -/
theorem require_of_new {r : Runtime E} {m : ResolvedModule} (hr : h.runtimes.get? owner = some r)
    (hq : r.Asks h.platform q m) (hcached : r.modules.cached.get? m.id = none)
    (hloading : r.modules.loading.get? m.id = none) (seat : Seat) :
    require owner q seat h = evaluation owner m r.requireFunction seat
      (h.put owner { r with questions := r.questions ++ [q] }) := by
  have hf := find_of_asks hr hq seat
  rw [hcached, hloading] at hf
  rw [require_of_resolved hf, put, Table.get?_insert_self]
  rfl

/-- The result is that of making its objects. -/
theorem require_result_of_new {r : Runtime E} {m : ResolvedModule}
    (hr : h.runtimes.get? owner = some r) (hq : r.Asks h.platform q m)
    (hcached : r.modules.cached.get? m.id = none) (hloading : r.modules.loading.get? m.id = none)
    (seat : Seat) : (require owner q seat h).1 =
      (objects owner m r.requireFunction seat h.engines).1.map fun p => .evaluate p.1 p.2 := by
  rw [require_of_new hr hq hcached hloading seat, evaluation_result]
  rfl

/-- What becomes of a module by loading one. -/
def event? (owner : RuntimeId) (q : Question) (seat : Seat) (h : Host E) :
    Option (ModuleEvent E.Value) :=
  match find owner q seat h with
  | (.ok (.resolved m), _) =>
    match (require owner q seat h).1 with
    | .ok (.evaluate l _) => some (.began l)
    | _ => some (.aborted (owner, m.id))
  | _ => none

/-- What entering a module leaves behind. -/
theorem evaluation_replies {m : ResolvedModule} {t : ModuleTable E.Value}
    (ht : h.modules? owner = some t) (hcached : t.cached.get? m.id = none)
    (hloading : t.loading.get? m.id = none) (require : E.Value) :
    h.Replies (evaluation owner m require seat h)
      (match (evaluation owner m require seat h).1 with
        | .ok (.evaluate l _) => some (.began l)
        | _ => some (.aborted (owner, m.id))) := by
  have hsame := ofEngines_sameModules (objects owner m require) seat h
  rw [evaluation]
  rw [Action.bind_def, enter_eq, Action.bind_def]
  rw [ofEngines_eq] at hsame ⊢
  have hyields := objects_yields (E := E) owner m require seat h.engines
  rcases hobjects : objects owner m require seat h.engines with ⟨e | ⟨l, scope⟩, s⟩ <;>
    rw [hobjects] at hsame
  · refine .error hsame ?_ e
    rintro _ ⟨⟩
    exact ⟨owner, m.id, t, rfl, ht, hcached, hloading⟩
  · obtain rfl : l = ⟨owner, m.id, m.filename, scope.module⟩ := hyields _ s hobjects
    have hm := (changesModules_update { h with engines := s } owner
      fun t => t.beginLoading m.id scope.module).of_same hsame (refl_of SameModules _)
    exact .evaluate (l := ⟨owner, m.id, m.filename, scope.module⟩) ht hcached hloading hm

/-- What loading a module leaves behind. -/
theorem require_replies (owner : RuntimeId) (q : Question) (seat : Seat) (h : Host E) :
    h.Replies (require owner q seat h) (event? owner q seat h) := by
  have hsame := find_sameModules owner q seat h
  rw [event?]
  rcases hf : find owner q seat h with ⟨e | origin, h₁⟩ <;> rw [hf] at hsame
  · rw [require]
    rw [Action.bind_def, hf]
    exact .error hsame h.refuses_none e
  · cases origin with
    | native exports =>
      rw [require]
      rw [Action.bind_def, hf]
      exact .value hsame exports
    | object object =>
      have hexports := trans_of SameModules hsame (exportsOf_sameModules object seat h₁)
      rw [require]
      rw [Action.bind_def, hf]
      dsimp only
      rw [Action.bind_def]
      revert hexports
      rcases exportsOf object seat h₁ with ⟨e | v, h₂⟩ <;> intro hexports
      · exact .error hexports h.refuses_none e
      · exact .value hexports v
    | resolved m =>
      obtain ⟨r, hr, -, hcached, hloading⟩ := find_resolved hf
      rw [require_of_resolved hf]
      exact .of_same hsame
        (evaluation_replies ((hsame owner).trans (modules?_of_get? hr)) hcached hloading _)

/-- A question that a loaded module answers finds its object. -/
theorem find_of_answers {r : Runtime E} {id : String} {c : CachedModule E.Value}
    (hr : h.runtimes.get? owner = some r) (hc : r.modules.cached.get? id = some c)
    (hq : r.Answers h.platform q id) (seat : Seat) :
    ∃ h', find owner q seat h = (.ok (.object c.object), h') ∧ h'.engines = h.engines := by
  obtain ⟨hnative, rfl | ⟨hnew, m, ham, rfl⟩⟩ := hq
  · exact ⟨h, find_of_cached (modules?_of_get? hr) hnative hc seat, rfl⟩
  · have hf := find_of_asks hr ⟨hnative, hnew, ham⟩ seat
    rw [hc] at hf
    exact ⟨_, hf, rfl⟩

/-- What has an object already has what the object exports at that moment as its result. -/
theorem require_of_found {object : E.Value}
    (hf : find owner q seat h = (.ok (.object object), h')) (hengines : h'.engines = h.engines) :
    (require owner q seat h).1 =
      ((E.getProperty seat object "exports" h.engines).1.mapError .thrown).map .value := by
  rw [require]
  rw [Action.bind_def, hf]
  dsimp only
  rw [Action.bind_def, exportsOf_eq, hengines]
  rcases (E.getProperty seat object "exports" h.engines).1 with _ | v <;> rfl

/-- A question that a loaded module answers has what the module exports at that moment as its
result, and no body is evaluated. -/
theorem require_of_answers {r : Runtime E} {id : String} {c : CachedModule E.Value}
    (hr : h.runtimes.get? owner = some r) (hc : r.modules.cached.get? id = some c)
    (hq : r.Answers h.platform q id) (seat : Seat) :
    (require owner q seat h).1 =
      ((E.getProperty seat c.object "exports" h.engines).1.mapError .thrown).map .value := by
  obtain ⟨h', hf, hengines⟩ := find_of_answers hr hc hq seat
  exact require_of_found hf hengines

end Loading

/-- What becomes of a module by calling a native function. -/
def Native.moduleEvent? (f : Native) (args : List E.Value) (seat : Seat) (h : Host E) :
    Option (ModuleEvent E.Value) :=
  match f, ModuleFunction.question "require" args, h.attached seat with
  | .module .require, .ok q, some owner => Loading.event? owner q seat h
  | _, _, _ => none

/-- What a native function leaves behind. -/
theorem Native.invoke_replies (f : Native) (this : E.Value) (args : List E.Value) (seat : Seat)
    (h : Host E) : h.Replies (f.invoke this args seat h) (f.moduleEvent? args seat h) := by
  have hquiet (he : f.moduleEvent? args seat h = none) :
      h.Refuses (f.moduleEvent? args seat h) := he ▸ h.refuses_none
  by_cases hf : f = .module .require
  · subst hf
    change h.Replies ((Action.ofExcept (ModuleFunction.question "require" args) >>= fun q =>
      HostAction.attached >>= fun owner => Loading.require owner q) seat h) _
    rw [Action.bind_def]
    cases hq : ModuleFunction.question "require" args with
    | error e => exact .error (refl_of SameModules h) (hquiet (by simp only [moduleEvent?, hq])) _
    | ok q =>
      change h.Replies ((HostAction.attached >>= fun owner => Loading.require owner q) seat h) _
      rw [Action.bind_def, HostAction.attached]
      cases ha : h.attached seat with
      | none =>
        exact .error (refl_of SameModules h) (hquiet (by simp only [moduleEvent?, hq, ha])) _
      | some owner =>
        simp only [moduleEvent?, hq, ha]
        exact Loading.require_replies owner q seat h
  · refine .direct (invoke_sameModules hf this args seat h) (fun reply hr =>
      invoke_isDirect hf this args seat h reply _ (Prod.ext hr rfl)) (hquiet ?_)
    unfold moduleEvent?
    split
    · exact absurd rfl hf
    · rfl

end ScriptHost
