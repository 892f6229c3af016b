import ScriptHost.Proofs.Host.Within

/-!
# What an engine sees of a host

What goes on at a seat sees the engines, the platform, the numbering of timers, the entry of the
engine in its registry, and the runtimes of a set: those that it has been given and the one that is
registered for its engine. An action keeps to a set of runtimes if it does the same in hosts that
look the same from the seat, and leaves all other runtimes as they are. This passes from the parts
of an action to the whole, and all native functions keep to the runtimes that their caller may use.

## Main definitions

* `Host.registered?`: what the registry of an engine holds for it.
* `Host.LooksSame`: two hosts look the same from a seat.
* `Host.Confined`: nothing has come or gone, and no runtime outside of a set has changed.
* `Action.KeepsTo`: an action keeps to a set of runtimes.

## Main results

* `Native.invoke_keepsTo`: native functions keep to the runtimes that their caller may use.
* `Install.runtime_keepsTo`: so does installing a runtime.
-/

namespace ScriptHost

variable {E : Engine} {α β : Type}

namespace Host

/-- What the registry of an engine holds for it. -/
def registered? (h : Host E) (seat : Seat) : Option RuntimeId :=
  (h.registry seat).entries.get? (h.profiles seat).identity

/-- Two hosts look the same from a seat at which the runtimes of a set may be used. The runtime that
is registered for the engine is one of them. -/
structure LooksSame (seat : Seat) (P : RuntimeId → Prop) (h k : Host E) : Prop where
  engines_eq : k.engines = h.engines
  platform_eq : k.platform = h.platform
  nextTimer_eq : k.nextTimer = h.nextTimer
  nextRuntime_eq : k.nextRuntime = h.nextRuntime
  profile_eq : k.profiles seat = h.profiles seat
  registered_eq : k.registered? seat = h.registered? seat
  held_eq : k.held.get? seat = h.held.get? seat
  runtimes_eq : ∀ id, P id → k.runtimes.get? id = h.runtimes.get? id
  registered_mem : ∀ id, h.registered? seat = some id → P id

/-- Nothing has come or gone, and no runtime outside of a set has changed. -/
structure Confined (P : RuntimeId → Prop) (h h' : Host E) : Prop where
  profiles_eq : h'.profiles = h.profiles
  registries_eq : h'.registries = h.registries
  held_eq : h'.held = h.held
  nextRuntime_eq : h'.nextRuntime = h.nextRuntime
  identity_eq : ∀ id, (h'.runtimes.get? id).map Runtime.identity =
    (h.runtimes.get? id).map Runtime.identity
  runtimes_eq : ∀ id, ¬P id → h'.runtimes.get? id = h.runtimes.get? id

/-- What has become of two hosts: they look the same, and the first has changed within a set. -/
structure Parallel (seat : Seat) (P : RuntimeId → Prop) (h h' k' : Host E) : Prop where
  looks : LooksSame seat P h' k'
  confined : Confined P h h'

variable {seat : Seat} {P : RuntimeId → Prop} {h h' h'' k k' k'' : Host E}

instance : IsPreorder (Host E) (Confined P) where
  refl _ := ⟨rfl, rfl, rfl, rfl, fun _ => rfl, fun _ _ => rfl⟩
  trans _ _ _ H H' :=
    ⟨H'.profiles_eq.trans H.profiles_eq, H'.registries_eq.trans H.registries_eq,
      H'.held_eq.trans H.held_eq, H'.nextRuntime_eq.trans H.nextRuntime_eq,
      fun id => (H'.identity_eq id).trans (H.identity_eq id),
      fun id hid => (H'.runtimes_eq id hid).trans (H.runtimes_eq id hid)⟩

theorem LooksSame.refl (hP : ∀ id, h.registered? seat = some id → P id) : LooksSame seat P h h :=
  ⟨rfl, rfl, rfl, rfl, rfl, rfl, rfl, fun _ _ => rfl, hP⟩

theorem Parallel.refl (H : LooksSame seat P h k) : Parallel seat P h h k :=
  ⟨H, refl_of (Confined P) h⟩

theorem Parallel.trans (H : Parallel seat P h h' k') (H' : Parallel seat P h' h'' k'') :
    Parallel seat P h h'' k'' :=
  ⟨H'.looks, trans_of (Confined P) H.confined H'.confined⟩

/-! ### The runtime of an engine -/

theorem attached_eq_filter (h : Host E) (seat : Seat) :
    h.attached seat = (h.registered? seat).filter h.runtimes.contains :=
  rfl

theorem registered?_of_attached {id : RuntimeId} (hid : h.attached seat = some id) :
    h.registered? seat = some id :=
  (Option.filter_eq_some_iff.1 hid).1

theorem LooksSame.contains_eq (H : LooksSame seat P h k) {id : RuntimeId} (hid : P id) :
    k.runtimes.contains id = h.runtimes.contains id := by
  rw [← Table.isSome_get?, ← Table.isSome_get?, H.runtimes_eq id hid]

theorem LooksSame.attached_eq (H : LooksSame seat P h k) : k.attached seat = h.attached seat := by
  rw [attached_eq_filter, attached_eq_filter, H.registered_eq]
  cases hentry : h.registered? seat with
  | none => rfl
  | some id =>
    rw [Option.filter_some, Option.filter_some, H.contains_eq (H.registered_mem id hentry)]

theorem Confined.registered?_eq (H : Confined P h h') (seat : Seat) :
    h'.registered? seat = h.registered? seat := by
  rw [registered?, registry, H.registries_eq, H.profiles_eq]
  rfl

theorem Confined.contains_eq (H : Confined P h h') (id : RuntimeId) :
    h'.runtimes.contains id = h.runtimes.contains id := by
  have hsome := congrArg Option.isSome (H.identity_eq id)
  rwa [Option.isSome_map, Option.isSome_map, Table.isSome_get?, Table.isSome_get?] at hsome

theorem Confined.attached_eq (H : Confined P h h') (seat : Seat) :
    h'.attached seat = h.attached seat := by
  rw [attached_eq_filter, attached_eq_filter, H.registered?_eq, funext H.contains_eq]

/-! ### Changes -/

/-- The engines and the platform change, in both hosts alike. -/
theorem LooksSame.aside (H : LooksSame seat P h k) {engines engines' : E.State}
    {platform platform' : Platform} (he : engines' = engines) (hp : platform' = platform) :
    Parallel seat P h { h with engines, platform }
      { k with engines := engines', platform := platform' } :=
  ⟨⟨he, hp, H.nextTimer_eq, H.nextRuntime_eq, H.profile_eq, H.registered_eq, H.held_eq,
    H.runtimes_eq, H.registered_mem⟩, ⟨rfl, rfl, rfl, rfl, fun _ => rfl, fun _ _ => rfl⟩⟩

theorem LooksSame.aside_engines (H : LooksSame seat P h k) (engines : E.State) :
    Parallel seat P h { h with engines } { k with engines } :=
  H.aside rfl H.platform_eq

theorem LooksSame.aside_platform (H : LooksSame seat P h k) (platform : Platform) :
    Parallel seat P h { h with platform } { k with platform } :=
  H.aside H.engines_eq rfl

/-- A runtime of the set is written, in both hosts alike, and numbers are given to timers. -/
theorem LooksSame.put (H : LooksSame seat P h k) {id : RuntimeId} {r r' : Runtime E} {n n' : Nat}
    (hid : P id) (hr : h.runtimes.get? id = some r) (hr' : r'.identity = r.identity)
    (hn : n' = n) :
    Parallel seat P h { h.put id r' with nextTimer := n } { k.put id r' with nextTimer := n' } := by
  refine ⟨⟨H.engines_eq, H.platform_eq, hn, H.nextRuntime_eq, H.profile_eq, H.registered_eq, H.held_eq,
    fun id' hid' => ?_, H.registered_mem⟩, ⟨rfl, rfl, rfl, rfl, fun id' => ?_, fun id' hid' => ?_⟩⟩
  · simp only [Host.put, Table.get?_insert, H.runtimes_eq id' hid']
  · simp only [Host.put, Table.get?_insert]
    split
    · next he => rw [he, hr, Option.map_some, Option.map_some, hr']
    · rfl
  · simp only [Host.put, Table.get?_insert]
    rw [if_neg]
    rintro rfl
    exact hid' hid

theorem LooksSame.put_same (H : LooksSame seat P h k) {id : RuntimeId} {r r' : Runtime E}
    (hid : P id) (hr : h.runtimes.get? id = some r) (hr' : r'.identity = r.identity) :
    Parallel seat P h (h.put id r') (k.put id r') :=
  H.put hid hr hr' H.nextTimer_eq

theorem LooksSame.update (H : LooksSame seat P h k) {id : RuntimeId} (hid : P id)
    {f : Runtime E → Runtime E} (hf : ∀ r, (f r).identity = r.identity) :
    Parallel seat P h (h.update id f) (k.update id f) := by
  rw [Host.update, Host.update, H.runtimes_eq id hid]
  split
  · next r hr => exact H.put_same hid hr (hf r)
  · exact .refl H

/-- The scheduler of a runtime of the set is changed together with its loop. -/
theorem LooksSame.scheduling? (H : LooksSame seat P h k) {id : RuntimeId} (hid : P id)
    (f : Scheduler E.Value → LoopSeat → α × Scheduler E.Value × LoopSeat) :
    (h.scheduling? id f = none ∧ k.scheduling? id f = none) ∨
      ∃ a h' k', h.scheduling? id f = some (a, h') ∧ k.scheduling? id f = some (a, k') ∧
        Parallel seat P h h' k' := by
  have hseat (r : Runtime E) : k.loopSeat r = h.loopSeat r := by
    rw [loopSeat, loopSeat, H.platform_eq, H.nextTimer_eq]
  rw [Host.scheduling?, Host.scheduling?, H.runtimes_eq id hid]
  rcases hr : h.runtimes.get? id with _ | r
  · exact .inl ⟨rfl, rfl⟩
  · simp only [Option.map_some, hseat]
    exact .inr ⟨_, _, _, rfl, rfl, H.put hid hr (by rfl) rfl⟩

end Host

open Host

/-! ### Actions that keep to some runtimes -/

namespace Action

/-- At a seat, an action keeps to the runtimes of a set: in hosts that look the same it has the same
result, they look the same afterwards, and no other runtime has changed. -/
def KeepsTo (seat : Seat) (P : RuntimeId → Prop) (x : HostAction E α) : Prop :=
  ∀ ⦃h k : Host E⦄, LooksSame seat P h k →
    (x seat k).1 = (x seat h).1 ∧ Parallel seat P h (x seat h).2 (x seat k).2

namespace KeepsTo

variable {seat : Seat} {P : RuntimeId → Prop}

/-- An action that changes nothing, and reads what looks the same. -/
theorem of_eq {x : HostAction E α} (hx : ∀ h, (x seat h).2 = h)
    (hr : ∀ h k, LooksSame seat P h k → (x seat k).1 = (x seat h).1) : KeepsTo seat P x := by
  intro h k H
  rw [hx h, hx k]
  exact ⟨hr h k H, .refl H⟩

theorem pure (a : α) : KeepsTo seat P (Pure.pure a : HostAction E α) :=
  of_eq (fun _ => rfl) fun _ _ _ => rfl

theorem throw (e : Exception E.Value) : KeepsTo seat P (Action.throw e : HostAction E α) :=
  of_eq (fun _ => rfl) fun _ _ _ => rfl

theorem ofExcept (r : Except Fault α) :
    KeepsTo seat P (Action.ofExcept r : HostAction E α) := by
  cases r with
  | ok a => exact pure a
  | error f => exact throw _

/-- A sequence keeps to some runtimes if its parts do, the second for every result of the first. -/
theorem bind_of {x : HostAction E α} {f : α → HostAction E β} (hx : KeepsTo seat P x)
    (hf : ∀ (h k : Host E) a h', LooksSame seat P h k → x seat h = (.ok a, h') →
      KeepsTo seat P (f a)) : KeepsTo seat P (x >>= f) := by
  intro h k H
  obtain ⟨hr, Hx⟩ := hx H
  rw [bind_def, bind_def]
  rcases hxh : x seat h with ⟨r, h'⟩
  rcases hxk : x seat k with ⟨r', k'⟩
  rw [hxh, hxk] at hr Hx
  obtain rfl : r' = r := hr
  cases r' with
  | error e => exact ⟨rfl, Hx⟩
  | ok a =>
    obtain ⟨hr', Hf⟩ := hf h k a h' H hxh Hx.looks
    exact ⟨hr', Hx.trans Hf⟩

theorem bind {x : HostAction E α} {f : α → HostAction E β} (hx : KeepsTo seat P x)
    (hf : ∀ a, KeepsTo seat P (f a)) : KeepsTo seat P (x >>= f) :=
  hx.bind_of fun _ _ a _ _ _ => hf a

theorem mapM {f : α → HostAction E β} (hf : ∀ a, KeepsTo seat P (f a)) (as : List α) :
    KeepsTo seat P (as.mapM f) := by
  induction as with
  | nil => exact pure []
  | cons a as ih =>
    rw [List.mapM_cons]
    exact (hf a).bind fun b => ih.bind fun bs => pure (b :: bs)

end KeepsTo

end Action

open ScriptHost.Action (KeepsTo)

variable {seat : Seat} {P : RuntimeId → Prop}

namespace HostAction

theorem ofEngines_keepsTo (x : EngineAction E α) : KeepsTo seat P (ofEngines x) := by
  intro h k H
  simp only [ofEngines, Action.onPart, H.engines_eq]
  exact ⟨trivial, H.aside_engines _⟩

theorem argument_keepsTo (f : E.State → Except Fault α) : KeepsTo seat P (argument f) := by
  intro h k H
  simp only [argument, H.engines_eq]
  exact KeepsTo.ofExcept _ H

theorem ask_keepsTo (f : Platform → α) : KeepsTo seat P (ask f : HostAction E α) :=
  .of_eq (fun _ => rfl) fun _ _ H => by simp only [ask, H.platform_eq]

theorem detached_keepsTo : KeepsTo seat P (detached : HostAction E α) :=
  .of_eq (fun _ => rfl) fun _ _ H => by simp only [detached, H.profile_eq]

theorem attached_keepsTo : KeepsTo seat P (attached : HostAction E RuntimeId) := by
  refine .of_eq (fun h => attached_eq seat h) fun h k H => ?_
  rw [attached, attached, H.attached_eq]
  split
  · rfl
  · exact (detached_keepsTo H).1

/-- What is done with the attached runtime is done with one that the caller may use. -/
theorem attached_bind_keepsTo {f : RuntimeId → HostAction E α}
    (hf : ∀ id, P id → KeepsTo seat P (f id)) : KeepsTo seat P (attached >>= f) := by
  refine attached_keepsTo.bind_of fun h k id h' H hid => hf id (H.registered_mem id ?_)
  rw [attached] at hid
  split at hid
  · next hattached =>
    cases hid
    exact registered?_of_attached hattached
  · cases hid

theorem scheduling_keepsTo (f : Scheduler E.Value → LoopSeat → α × Scheduler E.Value × LoopSeat) :
    KeepsTo seat P (scheduling f) := by
  intro h k H
  rw [scheduling, scheduling, H.attached_eq]
  cases hid : h.attached seat with
  | none => exact detached_keepsTo H
  | some id =>
    rcases H.scheduling? (H.registered_mem id (registered?_of_attached hid)) f with
      ⟨hh, hk⟩ | ⟨a, h', k', hh, hk, H'⟩
    · simp only [Option.bind_some, hh, hk]
      exact detached_keepsTo H
    · simp only [Option.bind_some, hh, hk]
      exact ⟨trivial, H'⟩

end HostAction

open HostAction

/-! ### Functions beside the runtimes -/

namespace FileFunction

theorem onFiles_keepsTo (x : FileTree → Place → Except IoFailure α × FileTree) :
    KeepsTo seat P (onFiles x : HostAction E (Except IoFailure α)) := by
  intro h k H
  simp only [onFiles, H.platform_eq]
  exact ⟨trivial, H.aside_platform _⟩

theorem perform_keepsTo (f : FileFunction) (path : String)
    (x : FileTree → Place → Except IoFailure α × FileTree) :
    KeepsTo seat P (f.perform path x : HostAction E α) := by
  refine (onFiles_keepsTo x).bind fun r => ?_
  cases r with
  | ok a => exact .pure a
  | error failure => exact ofEngines_keepsTo _

theorem text_keepsTo (f : FileFunction) (args : List E.Value) (index : Nat) (name : String) :
    KeepsTo seat P (f.text args index name) :=
  .ofExcept _

theorem invoke_keepsTo (f : FileFunction) (args : List E.Value) :
    KeepsTo seat P (f.invoke args) := by
  cases f with
  | doesExist => exact (ask_keepsTo _).bind fun _ => .pure _
  | read =>
    exact (text_keepsTo _ args 0 "path").bind fun _ => (ofEngines_keepsTo _).bind fun _ =>
      (perform_keepsTo _ _ _).bind fun _ => .pure _
  | write | append =>
    exact (text_keepsTo _ args 0 "path").bind fun _ => (text_keepsTo _ args 1 "data").bind fun _ =>
      (ofEngines_keepsTo _).bind fun _ => (perform_keepsTo _ _ _).bind fun _ => .pure _
  | makeDirectory | removeDirectory =>
    refine (text_keepsTo _ args 0 "path").bind fun _ => (ofEngines_keepsTo _).bind fun b => ?_
    cases b <;> exact (perform_keepsTo _ _ _).bind fun _ => .pure _
  | list =>
    exact (text_keepsTo _ args 0 "path").bind fun _ => (perform_keepsTo _ _ _).bind fun _ =>
      ofEngines_keepsTo _
  | unlink | realPath =>
    exact (text_keepsTo _ args 0 "path").bind fun _ =>
      (perform_keepsTo _ _ _).bind fun _ => .pure _
  | rename =>
    exact (text_keepsTo _ args 0 "oldPath").bind fun _ =>
      (text_keepsTo _ args 1 "newPath").bind fun _ => (perform_keepsTo _ _ _).bind fun _ => .pure _

end FileFunction

theorem SystemFunction.invoke_keepsTo (f : SystemFunction) :
    KeepsTo seat P (f.invoke : HostAction E E.Value) := by
  cases f with
  | cpus =>
    exact (ask_keepsTo _).bind fun ps => (KeepsTo.mapM (fun _ => ofEngines_keepsTo _) ps).bind
      fun _ => ofEngines_keepsTo _
  | _ => exact ask_keepsTo _

theorem PathFunction.invoke_keepsTo (f : PathFunction) (args : List E.Value) :
    KeepsTo seat P (f.invoke args) :=
  (ask_keepsTo _).bind fun _ => .ofExcept _

theorem UtilFunction.invoke_keepsTo (f : UtilFunction) (args : List E.Value) :
    KeepsTo seat P (f.invoke args) := by
  cases f with
  | isFunction => exact .of_eq (fun _ => rfl) fun _ _ H => by simp only [invoke, H.engines_eq]
  | _ => exact .pure _

/-! ### Functions on timers and of the process object -/

theorem TimerFunction.invoke_keepsTo (f : TimerFunction) (args : List E.Value) :
    KeepsTo seat P (f.invoke args) := by
  cases f with
  | set kind =>
    exact (argument_keepsTo _).bind fun _ => (KeepsTo.ofExcept _).bind fun _ =>
      (scheduling_keepsTo _).bind fun _ => (KeepsTo.ofExcept _).bind fun _ => .pure _
  | clear kind =>
    exact (KeepsTo.ofExcept _).bind fun _ => (scheduling_keepsTo _).bind fun _ => .pure _

theorem ProcessFunction.invoke_keepsTo (f : ProcessFunction) (args : List E.Value) :
    KeepsTo seat P (f.invoke args) := by
  cases f with
  | nextTick =>
    exact (argument_keepsTo _).bind fun _ => (scheduling_keepsTo _).bind fun _ => .pure _
  | exit =>
    refine (KeepsTo.ofExcept _).bind fun code => attached_bind_keepsTo fun id hid => ?_
    have hexit : KeepsTo seat P (Action.modify fun h : Host E => h.exit id code) :=
      fun h k H => ⟨rfl, H.update hid fun _ => rfl⟩
    exact hexit.bind fun _ => .pure _
  | cwd =>
    refine (ask_keepsTo _).bind fun r => ?_
    cases r with
    | ok dir => exact .pure _
    | error failure => exact ofEngines_keepsTo _

/-! ### Functions on modules -/

namespace Loading

variable {owner : RuntimeId}

theorem tables_keepsTo (hid : P owner) :
    KeepsTo seat P (tables owner : HostAction E (ModuleTable E.Value)) :=
  .of_eq (fun _ => rfl) fun _ _ H => by simp only [tables, H.runtimes_eq owner hid]

theorem requireFunction_keepsTo (hid : P owner) :
    KeepsTo seat P (requireFunction owner : HostAction E E.Value) :=
  .of_eq (fun _ => rfl) fun _ _ H => by simp only [requireFunction, H.runtimes_eq owner hid]

theorem ask_keepsTo (hid : P owner) (q : Question) :
    KeepsTo seat P (ask owner q : HostAction E ResolvedModule) := by
  intro h k H
  rw [ask, ask, H.runtimes_eq owner hid]
  rcases hr : h.runtimes.get? owner with _ | r
  · exact detached_keepsTo H
  · simp only [H.platform_eq]
    exact ⟨trivial, H.put_same hid hr rfl⟩

theorem changeTables_keepsTo (hid : P owner)
    (f : ModuleTable E.Value → ModuleTable E.Value) :
    KeepsTo seat P (changeTables owner f : HostAction E Unit) :=
  fun _ _ H => ⟨rfl, H.update hid fun _ => rfl⟩

theorem find_keepsTo (hid : P owner) (q : Question) :
    KeepsTo seat P (find owner q : HostAction E (Origin E.Value)) := by
  refine (tables_keepsTo hid).bind fun table => ?_
  split
  · exact .pure _
  · split
    · exact .pure _
    · refine (ask_keepsTo hid q).bind fun m => (tables_keepsTo hid).bind fun table => ?_
      split <;> exact .pure _

theorem resolve_keepsTo (hid : P owner) (q : Question) :
    KeepsTo seat P (resolve owner q : HostAction E String) := by
  refine (tables_keepsTo hid).bind fun table => ?_
  split
  · exact .pure _
  · exact (ask_keepsTo hid q).bind fun _ => .pure _

theorem enter_keepsTo (hid : P owner) (m : ResolvedModule) (require : E.Value) :
    KeepsTo seat P (enter owner m require) :=
  (ofEngines_keepsTo _).bind fun _ => (ofEngines_keepsTo _).bind fun _ =>
    (ofEngines_keepsTo _).bind fun _ => (changeTables_keepsTo hid _).bind fun _ => .pure _

theorem require_keepsTo (hid : P owner) (q : Question) :
    KeepsTo seat P (require owner q : HostAction E (Reply E)) := by
  refine (find_keepsTo hid q).bind fun origin => ?_
  cases origin with
  | native exports => exact .pure _
  | object object => exact (ofEngines_keepsTo _).bind fun _ => .pure _
  | resolved m =>
    exact (requireFunction_keepsTo hid).bind fun _ => (enter_keepsTo hid m _).bind fun _ => .pure _

/-- A module is entered as loaded, in both hosts alike. -/
theorem cache?_parallel {h k : Host E} (H : LooksSame seat P h k) {l : Loading E.Value}
    (hid : P l.owner) :
    (l.cache? h = none ∧ l.cache? k = none) ∨
      ∃ h' k', l.cache? h = some h' ∧ l.cache? k = some k' ∧ Parallel seat P h h' k' := by
  rw [cache?, cache?, H.runtimes_eq _ hid]
  rcases hr : h.runtimes.get? l.owner with _ | r
  · exact .inr ⟨h, k, rfl, rfl, .refl H⟩
  · dsimp only
    cases r.modules.cache? l.id l.object l.filename with
    | none => exact .inl ⟨rfl, rfl⟩
    | some modules => exact .inr ⟨_, _, rfl, rfl, H.put_same hid hr rfl⟩

end Loading

theorem ModuleFunction.invoke_keepsTo (f : ModuleFunction) (args : List E.Value) :
    KeepsTo seat P (f.invoke args) := by
  cases f with
  | require =>
    exact (KeepsTo.ofExcept _).bind fun q => attached_bind_keepsTo fun id hid =>
      Loading.require_keepsTo hid q
  | resolve =>
    exact (KeepsTo.ofExcept _).bind fun q => attached_bind_keepsTo fun id hid =>
      (Loading.resolve_keepsTo hid q).bind fun _ => .pure _

/-! ### Native functions -/

/-- Native functions keep to the runtimes that their caller may use. -/
theorem Native.invoke_keepsTo (f : Native) (this : E.Value) (args : List E.Value) :
    KeepsTo seat P (f.invoke this args) := by
  cases f with
  | timer f => exact (f.invoke_keepsTo args).bind fun _ => .pure _
  | module f => exact f.invoke_keepsTo args
  | process f => exact (f.invoke_keepsTo args).bind fun _ => .pure _
  | print stream => exact .pure _
  | buffer f => exact (ofEngines_keepsTo _).bind fun _ => .pure _
  | file f => exact (f.invoke_keepsTo args).bind fun _ => .pure _
  | system f => exact f.invoke_keepsTo.bind fun _ => .pure _
  | path f => exact (f.invoke_keepsTo args).bind fun _ => .pure _
  | util f => exact f.invoke_keepsTo args

namespace Install

theorem natives_keepsTo {owner : RuntimeId} (hid : P owner) (ms : List NativeModule) :
    KeepsTo seat P (natives owner ms : HostAction E Unit) := by
  induction ms with
  | nil => exact .pure _
  | cons m ms ih =>
    exact (ofEngines_keepsTo _).bind fun _ => (Loading.changeTables_keepsTo hid _).bind fun _ => ih

/-- Installing a runtime keeps to the runtimes that may be used at the seat, itself among them. -/
theorem runtime_keepsTo {owner : RuntimeId} (hid : P owner) (config : Config) (require : E.Value) :
    KeepsTo seat P (runtime owner config require) :=
  (natives_keepsTo hid _).bind fun _ => (HostAction.ask_keepsTo _).bind fun _ => ofEngines_keepsTo _

end Install

end ScriptHost
