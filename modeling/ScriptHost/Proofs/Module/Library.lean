import ScriptHost.Proofs.Module.Bodies
import ScriptHost.Proofs.Module.Evaluations

/-!
# Libraries of modules

A library is what a resolver knows: finitely many modules, each found under its id from anywhere,
and each with a body that loads modules of the library. A question to a library leads to a native
module, to one that was loaded at first, or to one that the resolver finds. This does not change
while modules are being loaded, although loaded modules are found under their ids before the
resolver is asked.

## Main definitions

* `Library`: what a resolver knows.
* `Library.target?`, `Library.next`: the id that a question leads to, and those that a body leads
  to.
* `Library.Stands`: a host as it may be while modules are being loaded.

## Main results

* `Library.Stands.require_of_native`, `Library.Stands.require_of_seen`,
  `Library.Stands.require_of_new`: what loading a module does, according to where it is found.
* `Library.Stands.completion`: what the end of a body does.
-/

namespace ScriptHost

variable {E : Engine} {seat : Seat}

open Host

/-- What the body of a module is evaluated with. -/
def ResolvedModule.scope {V : Type} (m : ResolvedModule) (module exports require : V) :
    ModuleScope V :=
  { id := m.id, filename := m.filename, dirname := m.dirname, source := m.source, module, exports,
    require }

/-- The ids of the modules that are loaded or being evaluated. -/
def ModuleTable.seen {V : Type} (t : ModuleTable V) : List String := t.cached.keys ++ t.loading.keys

/-- A question that does not fail: it names a native module or one that is loaded, or the resolver
finds one. -/
def Runtime.Resolves (r : Runtime E) (find : Question → Except Fault ResolvedModule)
    (q : Question) : Prop :=
  r.modules.natives.get? q.specifier ≠ none ∨ r.modules.cached.get? q.specifier ≠ none ∨
    ∃ m, find q = .ok m

/-- What the resolver of a runtime knows, on a platform and from a state of an engine without traps
on. -/
structure Library (T : E.Untrapped seat) (r : Runtime E) (p : Platform) (s₀ : E.State) where
  /-- The answer to a question. -/
  find : Question → Except Fault ResolvedModule
  /-- The ids of the modules. -/
  ids : List String
  /-- The specifiers in the body of a module, from left to right. -/
  specifiers : ResolvedModule → List String
  /-- The resolver gives the answers, whatever it has been asked before. -/
  answer : ∀ questions q, r.resolver.answer p questions q = find q
  /-- The ids are finitely many. -/
  mem_ids : ∀ {q m}, find q = .ok m → m.id ∈ ids
  /-- A module is found under its id, wherever that is asked for. -/
  find_id : ∀ {q m}, find q = .ok m → ∀ dir, find ⟨m.id, dir⟩ = .ok m
  /-- What a body asks for can be found. -/
  resolves : ∀ {q m}, find q = .ok m → ∀ specifier ∈ specifiers m,
    r.Resolves find ⟨specifier, some m.dirname⟩
  /-- A body does nothing but load the modules of its specifiers and change its own objects. -/
  body : ∀ {q m}, find q = .ok m → ∀ {s object exports}, T.Since s₀ s → T.Object s object →
    T.Object s exports →
      T.Since s (E.evaluate seat (m.scope object exports r.requireFunction) s).2 ∧
        T.Body m.dirname (specifiers m)
          (E.evaluate seat (m.scope object exports r.requireFunction) s).1
          (E.evaluate seat (m.scope object exports r.requireFunction) s).2
  /-- Nothing is trapped. -/
  free : T.Free s₀
  /-- The modules that are loaded at first have objects. -/
  cached_object : ∀ id c, r.modules.cached.get? id = some c → T.Object s₀ c.object
  /-- So have those that are being evaluated. -/
  loading_object : ∀ id o, r.modules.loading.get? id = some o → T.Object s₀ o

/-! ### Engines without traps -/

namespace Engine.Untrapped

variable (T : E.Untrapped seat)

theorem defineValues_ok {s : E.State} {o : E.Value} (hs : T.Free s) (ho : T.Object s o)
    (properties : List (String × E.Value)) :
    ∃ s', EngineAction.defineValues o properties seat s = (.ok (), s') ∧ T.Since s s' := by
  induction properties generalizing s with
  | nil => exact ⟨s, rfl, T.refl s⟩
  | cons property rest ih =>
    obtain ⟨name, v⟩ := property
    obtain ⟨s₁, hset, h₁⟩ := T.setProperty name v hs ho
    obtain ⟨s₂, hrest, h₂⟩ := ih (T.free h₁ hs) (T.object h₁ ho)
    refine ⟨s₂, ?_, T.trans h₁ h₂⟩
    have hvalue : EngineAction.defineValue o name v seat s = (.ok (), s₁) := by
      rw [EngineAction.defineValue]
      rw [Action.ofEngine, hset]
      rfl
    rw [EngineAction.defineValues]
    rw [Action.bind_def, hvalue]
    exact hrest

/-- The objects of a module can be made. -/
theorem objects_ok {s : E.State} (hs : T.Free s) (owner : RuntimeId) (m : ResolvedModule)
    (require : E.Value) :
    ∃ object exports s', Loading.objects owner m require seat s =
        (.ok (⟨owner, m.id, m.filename, object⟩, m.scope object exports require), s') ∧
      T.Since s s' ∧ T.Object s' object ∧ T.Object s' exports := by
  obtain ⟨h₁, hobject⟩ := T.newObject hs
  obtain ⟨h₂, hexports⟩ := T.newObject (T.free h₁ hs)
  have hsince := T.trans h₁ h₂
  obtain ⟨s', hdefine, h₃⟩ := T.defineValues_ok (T.free hsince hs) (T.object h₂ hobject)
    [("id", E.string m.id), ("filename", E.string m.filename), ("loaded", E.boolean false),
     ("exports", (E.newObject seat (E.newObject seat s).2).1)]
  refine ⟨_, _, s', ?_, T.trans hsince h₃, T.object (T.trans h₂ h₃) hobject, T.object h₃ hexports⟩
  change Action.bind (EngineAction.defineValues _ _) _ seat _ = _
  rw [Action.bind, hdefine]
  rfl

end Engine.Untrapped

/-! ### Hosts -/

namespace Host

/-- Writing a runtime that is there leaves engines attached to what they were attached to. -/
theorem attached_put {h : Host E} {id : RuntimeId} {r₀ : Runtime E}
    (hr : h.runtimes.get? id = some r₀) (r : Runtime E) (seat : Seat) :
    (h.put id r).attached seat = h.attached seat := by
  have halive : (h.runtimes.insert id r).contains = h.runtimes.contains := by
    funext id'
    rw [← Table.isSome_get?, ← Table.isSome_get?, Table.get?_insert]
    split
    · next hid => rw [hid, hr]; rfl
    · rfl
  exact congrArg (fun alive => (h.registry seat).lookup alive (h.profiles seat).identity) halive

end Host

namespace Loading

variable {owner : RuntimeId} {q : Question} {h h' : Host E}

/-- A module that has an object is answered with its exports. -/
theorem require_of_object {o v : E.Value} {s : E.State}
    (hf : find owner q seat h = (.ok (.object o), h'))
    (hv : E.getProperty seat o "exports" h'.engines = (.ok v, s)) :
    require owner q seat h = (.ok (.value v), { h' with engines := s }) := by
  rw [require]
  rw [Action.bind_def, hf]
  dsimp only
  rw [Action.bind_def, exportsOf_eq, hv]
  rfl

/-- The body of a module whose objects can be made is evaluated. -/
theorem evaluation_of_objects {m : ResolvedModule} {require : E.Value} {l : Loading E.Value}
    {scope : ModuleScope E.Value} {s : E.State}
    (ho : objects owner m require seat h.engines = (.ok (l, scope), s)) :
    evaluation owner m require seat h = (.ok (.evaluate l scope),
      { h with engines := s }.update owner fun r =>
        { r with modules := r.modules.beginLoading m.id l.object }) := by
  rw [evaluation]
  rw [Action.bind_def, enter_eq, Action.bind_def, HostAction.ofEngines_eq, ho]
  rfl

section Ends

variable {l : Loading E.Value} {r : Runtime E} {s : E.State}

theorem finish_eq (hr : h.runtimes.get? l.owner = some r) : l.finish seat h =
    (.ok (), h.put l.owner { r with modules := r.modules.finishLoading l.id }) :=
  congrArg (Prod.mk (Except.ok ())) (update_of_get? _ hr)

theorem markLoaded_eq
    (hs : E.setProperty seat l.object "loaded" (E.boolean true) h.engines = (.ok (), s)) :
    l.markLoaded seat h = (.ok (), { h with engines := s }) := by
  change ((E.setProperty seat l.object "loaded" (E.boolean true) h.engines).1.mapError
    Exception.thrown, { h with
      engines := (E.setProperty seat l.object "loaded" (E.boolean true) h.engines).2 }) = _
  rw [hs]
  rfl

theorem cache?_eq (hr : h.runtimes.get? l.owner = some r) (hnew : l.id ∉ r.modules.cached.keys) :
    l.cache? h = some (h.put l.owner { r with modules :=
      { r.modules with cached := r.modules.cached.insert l.id ⟨l.object, l.filename⟩ } }) := by
  rw [cache?, hr]
  dsimp only
  rw [ModuleTable.cache?, if_neg (mt Table.contains_iff_mem_keys.1 hnew), Option.map_some]

end Ends

/-- Nothing becomes of a module if none is to be evaluated. -/
theorem event?_of_value {v : E.Value} (hv : (require owner q seat h).1 = .ok (.value v)) :
    event? owner q seat h = none := by
  rw [event?]
  split
  · next m h₁ hf =>
    rw [require_of_resolved hf, evaluation_result] at hv
    revert hv
    rcases (objects owner m _ seat h₁.engines).1 with e | ⟨l, scope⟩ <;> rintro ⟨⟩
  · rfl

/-- The evaluation of a module that the resolver has found begins. -/
theorem event?_of_resolved {m : ResolvedModule} {l : Loading E.Value} {scope : ModuleScope E.Value}
    (hf : find owner q seat h = (.ok (.resolved m), h'))
    (he : (require owner q seat h).1 = .ok (.evaluate l scope)) :
    event? owner q seat h = some (.began l) := by
  rw [event?, hf, he]

end Loading

/-! ### Libraries -/

namespace Library

variable {T : E.Untrapped seat} {r : Runtime E} {p : Platform} {s₀ : E.State}
  (L : Library T r p s₀)

/-- A question that does not fail. -/
def Resolves (q : Question) : Prop := r.Resolves L.find q

/-- The id that a question leads to, unless it names a native module. -/
def target? (q : Question) : Option String :=
  match r.modules.natives.get? q.specifier, r.modules.cached.get? q.specifier, L.find q with
  | some _, _, _ => none
  | none, some _, _ => some q.specifier
  | none, none, .ok m => some m.id
  | none, none, .error _ => none

/-- The ids that specifiers lead to from a directory. -/
def targets (dir : String) (specifiers : List String) : List String :=
  specifiers.filterMap fun specifier => L.target? ⟨specifier, some dir⟩

/-- The ids that the body of a module leads to. -/
def next (id : String) : List String :=
  match L.find ⟨id, none⟩ with
  | .ok m => L.targets m.dirname (L.specifiers m)
  | .error _ => []

theorem next_eq {q : Question} {m : ResolvedModule} (hm : L.find q = .ok m) :
    L.next m.id = L.targets m.dirname (L.specifiers m) := by
  rw [next, L.find_id hm none]

/-- Where a question leads. -/
inductive Leads (q : Question) : Option String → Prop
  /-- To a native module. -/
  | native {exports : E.Value} (hn : r.modules.natives.get? q.specifier = some exports) :
    Leads q none
  /-- To a module that is loaded under the specifier. -/
  | cached (hn : r.modules.natives.get? q.specifier = none)
    (hc : q.specifier ∈ r.modules.cached.keys) : Leads q (some q.specifier)
  /-- To a module of the library. -/
  | found {m : ResolvedModule} (hn : r.modules.natives.get? q.specifier = none)
    (hc : q.specifier ∉ r.modules.cached.keys) (hm : L.find q = .ok m) : Leads q (some m.id)

variable {L}

theorem Resolves.leads {q : Question} (hq : L.Resolves q) : L.Leads q (L.target? q) := by
  rw [target?]
  cases hn : r.modules.natives.get? q.specifier with
  | some exports => exact .native hn
  | none =>
    cases hc : r.modules.cached.get? q.specifier with
    | some c => exact .cached hn (Table.mem_keys_of_get? hc)
    | none =>
      obtain ⟨m, hm⟩ := (hq.resolve_left (not_not_intro hn)).resolve_left (not_not_intro hc)
      rw [hm]
      exact .found hn (Table.get?_eq_none_iff.1 hc) hm

variable (L)

/-- Tables as they may be while modules are being loaded: what is new among the loaded modules
belongs to the library, and all modules have objects. -/
structure Tables (t : ModuleTable E.Value) (s : E.State) : Prop where
  natives : t.natives = r.modules.natives
  old : ∀ id ∈ r.modules.cached.keys, id ∈ t.cached.keys
  new : ∀ id ∈ t.cached.keys, id ∈ r.modules.cached.keys ∨ ∃ q m, L.find q = .ok m ∧ m.id = id
  cached_object : ∀ id c, t.cached.get? id = some c → T.Object s c.object
  loading_object : ∀ id o, t.loading.get? id = some o → T.Object s o

/-- A host as it may be while modules are being loaded: nothing has changed but the engines, and the
tables and the questions of the runtime. -/
structure Stands (owner : RuntimeId) (h : Host E) (t : ModuleTable E.Value) : Prop where
  runtime : ∃ questions, h.runtimes.get? owner = some { r with modules := t, questions }
  attached : h.attached seat = some owner
  platform : h.platform = p
  since : T.Since s₀ h.engines
  tables : L.Tables t h.engines

variable {L}

namespace Tables

variable {t : ModuleTable E.Value} {s s' : E.State}

theorem initial : L.Tables r.modules s₀ :=
  ⟨rfl, fun _ => id, fun _ => .inl, L.cached_object, L.loading_object⟩

theorem later (H : L.Tables t s) (hs : T.Since s s') : L.Tables t s' :=
  ⟨H.natives, H.old, H.new, fun id c hc => T.object hs (H.cached_object id c hc),
    fun id o ho => T.object hs (H.loading_object id o ho)⟩

theorem beginLoading (H : L.Tables t s) (id : String) {o : E.Value} (ho : T.Object s o) :
    L.Tables (t.beginLoading id o) s := by
  refine ⟨H.natives, H.old, H.new, H.cached_object, fun id' o' hget => ?_⟩
  rw [ModuleTable.beginLoading, Table.get?_insert] at hget
  split at hget
  · exact Option.some.inj hget ▸ ho
  · exact H.loading_object id' o' hget

theorem finishLoading (H : L.Tables t s) (id : String) : L.Tables (t.finishLoading id) s := by
  refine ⟨H.natives, H.old, H.new, H.cached_object, fun id' o hget => ?_⟩
  rw [ModuleTable.finishLoading, Table.get?_erase] at hget
  split at hget
  · cases hget
  · exact H.loading_object id' o hget

/-- A module of the library is loaded. -/
theorem complete (H : L.Tables t s) {q : Question} {m : ResolvedModule} (hm : L.find q = .ok m)
    {l : Loading E.Value} (hid : l.id = m.id) (ho : T.Object s l.object) :
    L.Tables (t.complete l) s := by
  have hkeys : (t.complete l).cached.keys =
      if l.id ∈ t.cached.keys then t.cached.keys else t.cached.keys ++ [l.id] :=
    Table.keys_insert ..
  refine ⟨H.natives, fun id hold => ?_, fun id hid' => ?_, fun id c hget => ?_,
    (H.finishLoading l.id).loading_object⟩
  · rw [hkeys]
    split
    · exact H.old id hold
    · exact List.mem_append_left _ (H.old id hold)
  · rw [hkeys] at hid'
    split at hid'
    · exact H.new id hid'
    · rcases List.mem_append.1 hid' with hid' | hid'
      · exact H.new id hid'
      · exact .inr ⟨q, m, hm, hid.symm.trans (List.mem_singleton.1 hid').symm⟩
  · rw [ModuleTable.complete, Table.get?_insert] at hget
    split at hget
    · exact Option.some.inj hget ▸ ho
    · exact H.cached_object id c hget

end Tables

namespace Stands

variable {owner : RuntimeId} {h : Host E} {t t' : ModuleTable E.Value} {q : Question}

theorem engines (H : L.Stands owner h t) {s : E.State} (hs : T.Since h.engines s) :
    L.Stands owner { h with engines := s } t :=
  ⟨H.runtime, H.attached, H.platform, T.trans H.since hs, H.tables.later hs⟩

theorem put (H : L.Stands owner h t) (ht : L.Tables t' h.engines) (questions : List Question) :
    L.Stands owner (h.put owner { r with modules := t', questions }) t' := by
  obtain ⟨questions₀, hr⟩ := H.runtime
  exact ⟨⟨questions, Table.get?_insert_self ..⟩, (attached_put hr _ seat).trans H.attached,
    H.platform, H.since, ht⟩

theorem modules? (H : L.Stands owner h t) : h.modules? owner = some t := by
  obtain ⟨questions, hr⟩ := H.runtime
  exact modules?_of_get? hr

theorem free (H : L.Stands owner h t) : T.Free h.engines := T.free H.since L.free

/-- A native module is answered with its exports. -/
theorem require_of_native (H : L.Stands owner h t) (hq : L.Resolves q)
    (htarget : L.target? q = none) :
    ∃ v, Loading.require owner q seat h = (.ok (.value v), h) := by
  have hleads := hq.leads
  rw [htarget] at hleads
  cases hleads with
  | @native exports hn =>
    refine ⟨exports, ?_⟩
    rw [Loading.require]
    rw [Action.bind_def, Loading.find_of_native H.modules? (H.tables.natives ▸ hn) seat]
    rfl

/-- A specifier under which a module is loaded leads there. -/
theorem target_of_cached (H : L.Stands owner h t) (hq : L.Resolves q) {id : String}
    (htarget : L.target? q = some id) (hc : q.specifier ∈ t.cached.keys) : id = q.specifier := by
  have hleads := hq.leads
  rw [htarget] at hleads
  cases hleads with
  | cached => rfl
  | @found m _ hold hm =>
    obtain ⟨q', m', hm', hid⟩ := (H.tables.new _ hc).resolve_left hold
    have hagain := L.find_id hm' q.dir
    rw [hid] at hagain
    obtain rfl := Except.ok.inj (hm.symm.trans hagain)
    exact hid

/-- Where a module is found that a question leads to: among the loaded ones under its specifier, or
by the resolver. -/
theorem finds (H : L.Stands owner h t) (hq : L.Resolves q) {id : String}
    (htarget : L.target? q = some id) :
    (∃ c, t.cached.get? id = some c ∧ Loading.find owner q seat h = (.ok (.object c.object), h)) ∨
      ∃ m questions, L.find q = .ok m ∧ m.id = id ∧
        h.runtimes.get? owner = some { r with modules := t, questions } ∧
        Runtime.Asks { r with modules := t, questions } h.platform q m := by
  have hnative : t.natives.get? q.specifier = none := by
    have hleads := hq.leads
    rw [htarget] at hleads
    rw [H.tables.natives]
    cases hleads <;> assumption
  cases hc : t.cached.get? q.specifier with
  | some c =>
    obtain rfl := H.target_of_cached hq htarget (Table.mem_keys_of_get? hc)
    exact .inl ⟨c, hc, Loading.find_of_cached H.modules? hnative hc seat⟩
  | none =>
    obtain ⟨questions, hr⟩ := H.runtime
    have hleads := hq.leads
    rw [htarget] at hleads
    cases hleads with
    | cached _ hold => exact absurd (H.tables.old _ hold) (Table.get?_eq_none_iff.1 hc)
    | @found m _ _ hm =>
      refine .inr ⟨m, questions, hm, rfl, hr, hnative, hc, ?_⟩
      rw [H.platform, L.answer]
      exact hm

/-- A module that is loaded or being evaluated has an object, which is found. -/
theorem find_of_seen (H : L.Stands owner h t) (hq : L.Resolves q) {id : String}
    (htarget : L.target? q = some id) (hseen : id ∈ t.seen) :
    ∃ o h', Loading.find owner q seat h = (.ok (.object o), h') ∧ T.Object h.engines o ∧
      h'.engines = h.engines ∧ L.Stands owner h' t ∧
      (id ∉ t.cached.keys → t.loading.get? id = some o) := by
  rcases H.finds hq htarget with ⟨c, hc, hf⟩ | ⟨m, questions, hm, rfl, hr, hasks⟩
  · exact ⟨c.object, h, hf, H.tables.cached_object _ c hc, rfl, H,
      fun hnew => absurd (Table.mem_keys_of_get? hc) hnew⟩
  · have hf := Loading.find_of_asks hr hasks seat
    have H' := H.put H.tables (questions ++ [q])
    dsimp only at hf
    rcases hc : t.cached.get? m.id with _ | c
    · rcases hl : t.loading.get? m.id with _ | o
      · rcases List.mem_append.1 hseen with hmem | hmem
        · exact absurd hmem (Table.get?_eq_none_iff.1 hc)
        · exact absurd hmem (Table.get?_eq_none_iff.1 hl)
      · rw [hc, hl] at hf
        exact ⟨o, _, hf, H.tables.loading_object _ o hl, rfl, H', fun _ => rfl⟩
    · rw [hc] at hf
      exact ⟨c.object, _, hf, H.tables.cached_object _ c hc, rfl, H',
        fun hnew => absurd (Table.mem_keys_of_get? hc) hnew⟩

/-- A module that is loaded or being evaluated is answered with what it exports at that moment. -/
theorem require_of_seen (H : L.Stands owner h t) (hq : L.Resolves q) {id : String}
    (htarget : L.target? q = some id) (hseen : id ∈ t.seen) :
    ∃ v h', Loading.require owner q seat h = (.ok (.value v), h') ∧ L.Stands owner h' t ∧
      T.Since h.engines h'.engines ∧ (id ∉ t.cached.keys → ∃ o s,
        t.loading.get? id = some o ∧ E.getProperty seat o "exports" h.engines = (.ok v, s)) := by
  obtain ⟨o, h', hf, ho, hengines, H', hloading⟩ := H.find_of_seen hq htarget hseen
  obtain ⟨v, s, hv, hs⟩ := T.getProperty "exports" H.free ho
  rw [← hengines] at hv hs ⊢
  exact ⟨v, _, Loading.require_of_object hf hv, H'.engines hs, hs,
    fun hnew => ⟨o, s, hloading hnew, hv⟩⟩

/-- A module that is neither loaded nor being evaluated is evaluated. -/
theorem require_of_new (H : L.Stands owner h t) (hq : L.Resolves q) {id : String}
    (htarget : L.target? q = some id) (hnew : id ∉ t.seen) :
    ∃ m l exports h', L.find q = .ok m ∧ m.id = id ∧ l.key = (owner, id) ∧
      Loading.require owner q seat h =
        (.ok (.evaluate l (m.scope l.object exports r.requireFunction)), h') ∧
      Loading.event? owner q seat h = some (.began l) ∧
      L.Stands owner h' (t.beginLoading id l.object) ∧ T.Since h.engines h'.engines ∧
      T.Object h'.engines l.object ∧ T.Object h'.engines exports := by
  have hc : t.cached.get? id = none :=
    Table.get?_eq_none_iff.2 fun hmem => hnew (List.mem_append_left _ hmem)
  have hl : t.loading.get? id = none :=
    Table.get?_eq_none_iff.2 fun hmem => hnew (List.mem_append_right _ hmem)
  rcases H.finds hq htarget with ⟨c, hc', -⟩ | ⟨m, questions, hm, rfl, hr, hasks⟩
  · rw [hc] at hc'
    cases hc'
  · have hf := Loading.find_of_asks hr hasks seat
    have H₁ := H.put H.tables (questions ++ [q])
    obtain ⟨object, exports, s, hobjects, hs, hobject, hexports⟩ :=
      T.objects_ok H₁.free owner m r.requireFunction
    have H₂ := H₁.engines hs
    have hrequire := (Loading.require_of_new hr hasks hc hl seat).trans
      (Loading.evaluation_of_objects hobjects)
    obtain ⟨_, hr₂⟩ := H₂.runtime
    dsimp only at hf
    rw [hc, hl] at hf
    rw [update_of_get? _ (Table.get?_insert_self ..)] at hrequire
    refine ⟨m, _, exports, _, hm, rfl, rfl, hrequire, ?_, ?_, hs, hobject, hexports⟩
    · exact Loading.event?_of_resolved hf (congrArg Prod.fst hrequire)
    · exact H₂.put (H₂.tables.beginLoading m.id hobject) _

/-- The body of a module ends: the module is marked and loaded, and its exports are the result. -/
theorem resume_module (H : L.Stands owner h t) {q : Question} {m : ResolvedModule}
    (hm : L.find q = .ok m) {l : Loading E.Value} (hkey : l.key = (owner, m.id))
    (hcached : m.id ∉ t.cached.keys) (ho : T.Object h.engines l.object) {j : Job E}
    (hseat : j.seat = seat) (u : E.Value) :
    ∃ v h', j.resume h (.module l) (.ok u) = (h', j.turnTo (.result (.ok v))) ∧
      ((j.push (.module l) (.result (.ok u))).moduleEvent? h = some (.completed l)) ∧
      L.Stands owner h' (t.complete l) ∧ T.Since h.engines h'.engines := by
  obtain ⟨rfl, hid⟩ := Prod.mk.inj hkey
  subst hseat
  obtain ⟨questions, hr⟩ := H.runtime
  obtain ⟨s₁, hset, hs₁⟩ := T.setProperty "loaded" (E.boolean true) H.free ho
  obtain ⟨v, s₂, hexports, hs₂⟩ := T.getProperty "exports" (T.free hs₁ H.free) (T.object hs₁ ho)
  let r₁ : Runtime E := { r with modules := t.finishLoading l.id, questions }
  let finished : Host E := h.put l.owner r₁
  let marked : Host E := { finished with engines := s₁ }
  let completed : Host E := marked.put l.owner { r with modules := t.complete l, questions }
  have hfinish : l.finish j.seat h = (.ok (), finished) := Loading.finish_eq hr
  have hmark : l.markLoaded j.seat finished = (.ok (), marked) := Loading.markLoaded_eq hset
  have hnew : l.id ∉ t.cached.keys := hid ▸ hcached
  have hcache : l.cache? marked = some completed :=
    Loading.cache?_eq (r := r₁) (Table.get?_insert_self ..) hnew
  have hvalue : Loading.exportsOf l.object j.seat completed =
      (.ok v, { completed with engines := s₂ }) := by
    rw [Loading.exportsOf_eq, show completed.engines = s₁ from rfl, hexports]
    rfl
  have H₁ := H.put (H.tables.finishLoading l.id) questions
  have H₂ := (H₁.engines hs₁).put
    ((H.tables.later hs₁).complete hm hid (T.object hs₁ ho)) questions
  refine ⟨v, { completed with engines := s₂ }, ?_,
    Job.moduleEvent?_of_completed rfl rfl hfinish hmark hcache, H₂.engines hs₂, T.trans hs₁ hs₂⟩
  simp only [Job.resume, Job.act, hfinish, Job.enterLoaded, hmark, hcache, hvalue]

end Stands

end Library

end ScriptHost
