import ScriptHost.Proofs.Host.ViewSteps

/-!
# Registries and the lives of runtimes

A runtime is registered before it is installed, and an exception on the way takes the entry back;
dropping a runtime takes its entry out. So at every moment the entries of a registry are those of
the runtimes that are held for engines that read it, and these are the runtimes that are alive. This
holds for any number of engines and registries, and also where engines share an identity.

## Main definitions

* `Host.registryOf`: the registry of a number.
* `Host.Holds`: a runtime is held for an engine of an identity that reads a registry.
* `Host.Registered`: the entries of the registries are those of the runtimes that are held.
* `Host.SameSeating`: nothing has come or gone at registries and runtimes.
* `Host.Attempt`: what an attempt to attach a runtime may lead to.

## Main results

* `Host.Registered.attempt`, `Host.Registered.attemptFiles`: what attaching a runtime does.
* `Host.Registered.perform`: every move keeps the registries true to the runtimes.
* `World.registries_follow_runtimes`: registries and runtimes along every run.
-/

namespace ScriptHost

variable {E : Engine}

namespace Host

/-- The registry of a number. -/
def registryOf (h : Host E) (n : Nat) : Registry RuntimeId := (h.registries.get? n).getD .empty

/-- A runtime is held for an engine of this identity that reads this registry. -/
def Holds (h : Host E) (n : Nat) (e : EngineId) (id : RuntimeId) : Prop :=
  ∃ seat, h.held.get? seat = some id ∧ (h.profiles seat).identity = e ∧
    (h.profiles seat).registry = n

/-- The entries of the registries are those of the runtimes that are held, and these are the
runtimes that are alive. -/
structure Registered (h : Host E) : Prop where
  /-- The entries of a registry are those of the runtimes that are held for its engines. -/
  entry_iff : ∀ n e id, (h.registryOf n).entries.get? e = some id ↔ h.Holds n e id
  /-- No identity has two entries. -/
  nodup_keys : ∀ n, (h.registryOf n).entries.keys.Nodup
  /-- The runtimes that are held are those that are alive. -/
  alive_iff : ∀ id, h.runtimes.contains id = true ↔ ∃ seat, h.held.get? seat = some id
  /-- A runtime has the identity of the engine that it is held for. -/
  identity_eq : ∀ seat id, h.held.get? seat = some id →
    (h.runtimes.get? id).map Runtime.identity = some (h.profiles seat).identity
  /-- No runtime is held for two engines. -/
  held_inj : ∀ seat seat' id, h.held.get? seat = some id → h.held.get? seat' = some id →
    seat = seat'
  /-- The number of the next runtime is new. -/
  held_lt : ∀ seat id, h.held.get? seat = some id → id.val < h.nextRuntime

/-- Nothing has come or gone at registries and runtimes. -/
structure SameSeating (h h' : Host E) : Prop where
  profiles_eq : h'.profiles = h.profiles
  registryOf_eq : ∀ n, h'.registryOf n = h.registryOf n
  held_eq : h'.held = h.held
  runtimes_eq : ∀ id, h'.runtimes.get? id = h.runtimes.get? id
  nextRuntime_le : h.nextRuntime ≤ h'.nextRuntime

/-- A new runtime has been entered for the engine at a seat: it is registered, alive and held. -/
structure Enrolls (h : Host E) (seat : Seat) (h' : Host E) : Prop where
  profiles_eq : h'.profiles = h.profiles
  registryOf_eq : ∀ n, h'.registryOf n = if n = (h.profiles seat).registry then
    ⟨(h.registry seat).entries.insert (h.profiles seat).identity ⟨h.nextRuntime⟩⟩
    else h.registryOf n
  held_eq : h'.held = h.held.insert seat ⟨h.nextRuntime⟩
  runtimes_eq : ∀ id, id ≠ ⟨h.nextRuntime⟩ → h'.runtimes.get? id = h.runtimes.get? id
  identity_eq : (h'.runtimes.get? ⟨h.nextRuntime⟩).map Runtime.identity =
    some (h.profiles seat).identity
  nextRuntime_eq : h'.nextRuntime = h.nextRuntime + 1

/-- The runtime of the engine at a seat has been taken away, together with its entry. -/
structure Releases (h : Host E) (seat : Seat) (id : RuntimeId) (h' : Host E) : Prop where
  profiles_eq : h'.profiles = h.profiles
  registryOf_eq : ∀ n, h'.registryOf n = if n = (h.profiles seat).registry then
    (h.registry seat).unregister (h.profiles seat).identity else h.registryOf n
  held_eq : h'.held = h.held.erase seat
  runtimes_eq : ∀ id', h'.runtimes.get? id' = if id' = id then none else h.runtimes.get? id'
  nextRuntime_eq : h'.nextRuntime = h.nextRuntime

/-- What an attempt to attach a runtime to the engine at a seat may lead to. -/
inductive Attempt (h : Host E) (seat : Seat) : Attachment E.Value × Host E → Prop
  /-- The engine has an entry. The host says so, and nothing but the engines has changed. -/
  | clash {engines : E.State}
      (hentry : (h.registry seat).contains (h.profiles seat).identity = true) :
      Attempt h seat
        (.clash (Registry.clashMessage (h.profiles seat).identity), { h with engines })
  /-- The engine has no entry, and an exception leaves registries and runtimes as they were. -/
  | failed {e : Exception E.Value} {h' : Host E}
      (hentry : (h.registry seat).contains (h.profiles seat).identity = false)
      (hsame : h.SameSeating h') : Attempt h seat (.failed e, h')
  /-- The engine has no entry, and a new runtime is entered for it. -/
  | attached {h' : Host E}
      (hentry : (h.registry seat).contains (h.profiles seat).identity = false)
      (hnew : h.Enrolls seat h') : Attempt h seat (.attached, h')

variable {h h' : Host E} {seat : Seat} {id : RuntimeId}

/-! ### Registries that are true to the runtimes -/

theorem registryOf_profile (h : Host E) (seat : Seat) :
    h.registryOf (h.profiles seat).registry = h.registry seat :=
  rfl

theorem registered_ofEngines (engines : E.State) (platform : Platform) (profiles : Seat → Profile) :
    (ofEngines engines platform profiles).Registered where
  entry_iff n e id := by simp [registryOf, ofEngines, Registry.empty, Holds]
  nodup_keys n := List.nodup_nil
  alive_iff id := by simp [ofEngines, ← Table.isSome_get?]
  identity_eq seat id hs := by cases hs
  held_inj seat seat' id hs := by cases hs
  held_lt seat id hs := by cases hs

namespace Registered

/-- An engine has an entry exactly if a runtime is held for it or for one of the same identity that
reads the same registry. -/
theorem registered?_eq_some_iff (H : h.Registered) : h.registered? seat = some id ↔
    h.Holds (h.profiles seat).registry (h.profiles seat).identity id :=
  H.entry_iff (h.profiles seat).registry (h.profiles seat).identity id

theorem contains_of_held (H : h.Registered) (hs : h.held.get? seat = some id) :
    h.runtimes.contains id = true :=
  (H.alive_iff id).2 ⟨seat, hs⟩

/-- What an engine has an entry for is alive. -/
theorem contains_of_registered? (H : h.Registered) (hid : h.registered? seat = some id) :
    h.runtimes.contains id = true := by
  obtain ⟨seat', hs, -⟩ := H.registered?_eq_some_iff.1 hid
  exact H.contains_of_held hs

/-- The registry tells the runtime of an engine: what it holds for an engine is alive. -/
theorem attached_eq_registered? (H : h.Registered) (seat : Seat) :
    h.attached seat = h.registered? seat := by
  rw [attached_eq_filter]
  cases hid : h.registered? seat with
  | none => rfl
  | some id => exact Option.filter_some_pos (H.contains_of_registered? hid)

/-- The next runtime is not alive yet. -/
theorem get?_nextRuntime (H : h.Registered) : h.runtimes.get? ⟨h.nextRuntime⟩ = none := by
  cases hr : h.runtimes.get? ⟨h.nextRuntime⟩ with
  | none => rfl
  | some r =>
    have hc : h.runtimes.contains ⟨h.nextRuntime⟩ = true := by rw [← Table.isSome_get?, hr]; rfl
    obtain ⟨seat, hs⟩ := (H.alive_iff _).1 hc
    exact absurd (H.held_lt seat _ hs) (Nat.lt_irrefl _)

/-- Changes within the runtimes keep the registries true to them. -/
theorem of_confined (H : h.Registered) {P : RuntimeId → Prop} (Hc : Confined P h h') :
    h'.Registered := by
  have hregistry (n : Nat) : h'.registryOf n = h.registryOf n := by
    rw [registryOf, Hc.registries_eq]; rfl
  refine ⟨fun n e id => ?_, fun n => hregistry n ▸ H.nodup_keys n, fun id => ?_, fun seat id => ?_,
    ?_, ?_⟩
  · rw [hregistry, H.entry_iff, Holds, Holds, Hc.held_eq, Hc.profiles_eq]
  · rw [Hc.contains_eq, H.alive_iff, Hc.held_eq]
  · rw [Hc.held_eq, Hc.profiles_eq, Hc.identity_eq]
    exact H.identity_eq seat id
  · rw [Hc.held_eq]
    exact H.held_inj
  · rw [Hc.held_eq, Hc.nextRuntime_eq]
    exact H.held_lt

theorem of_sameSeating (H : h.Registered) (Hs : h.SameSeating h') : h'.Registered := by
  refine ⟨fun n e id => ?_, fun n => Hs.registryOf_eq n ▸ H.nodup_keys n, fun id => ?_,
    fun seat id => ?_, ?_, fun seat id hs => ?_⟩
  · rw [Hs.registryOf_eq, H.entry_iff, Holds, Holds, Hs.held_eq, Hs.profiles_eq]
  · rw [← Table.isSome_get?, Hs.runtimes_eq, Table.isSome_get?, H.alive_iff, Hs.held_eq]
  · rw [Hs.held_eq, Hs.profiles_eq, Hs.runtimes_eq]
    exact H.identity_eq seat id
  · rw [Hs.held_eq]
    exact H.held_inj
  · rw [Hs.held_eq] at hs
    exact Nat.lt_of_lt_of_le (H.held_lt seat id hs) Hs.nextRuntime_le

end Registered

/-! ### Attaching a runtime -/

/-- The function of a new runtime that loads modules, and the host in which the runtime is entered
for an engine. -/
def enrolled (h : Host E) (seat : Seat) (config : Config) (resolver : Resolver) :
    E.Value × Host E :=
  let id : RuntimeId := ⟨h.nextRuntime⟩
  let (require, engines) :=
    E.newFunction seat Export.require.name Export.require.arity Export.require.native h.engines
  let registry := ⟨(h.registry seat).entries.insert (h.profiles seat).identity id⟩
  let h := { h with engines, nextRuntime := h.nextRuntime + 1 }
  (require, (h.withRegistry seat registry).put id
    (.fresh (h.profiles seat).identity config resolver require))

/-- What becomes of a new runtime once it has been installed. -/
def settled (seat : Seat) (id : RuntimeId) :
    Except (Exception E.Value) Unit × Host E → Attachment E.Value × Host E
  | (.ok (), h) => (.attached, { h with held := h.held.insert seat id })
  | (.error e, h) => (.failed e, h.detach seat id)

/-- An engine that has an entry is refused a second runtime. -/
theorem attach_of_contains (hentry : (h.registry seat).contains (h.profiles seat).identity = true)
    (config : Config) (resolver : Resolver) :
    h.attach seat config resolver = (.clash (Registry.clashMessage (h.profiles seat).identity),
      { h with engines := (E.newFunction seat Export.require.name Export.require.arity
        Export.require.native h.engines).2 }) := by
  generalize hf : E.newFunction seat Export.require.name Export.require.arity
    Export.require.native h.engines = f
  have hentry' : (registry { h with engines := f.2 } seat).contains
      (h.profiles seat).identity = true := hentry
  simp only [attach, Registry.register?, hf, hentry', if_true]

/-- An engine without an entry gets a new runtime, which is entered and then installed. -/
theorem attach_of_new (hentry : (h.registry seat).contains (h.profiles seat).identity = false)
    (config : Config) (resolver : Resolver) :
    h.attach seat config resolver = settled seat ⟨h.nextRuntime⟩
      (Install.runtime ⟨h.nextRuntime⟩ config (h.enrolled seat config resolver).1 seat
        (h.enrolled seat config resolver).2) := by
  generalize hf : E.newFunction seat Export.require.name Export.require.arity
    Export.require.native h.engines = f
  have hentry' : (registry { h with engines := f.2 } seat).contains
      (h.profiles seat).identity = false := hentry
  simp only [attach, Registry.register?, hf, hentry', Bool.false_eq_true, if_false]
  have henrolled : h.enrolled seat config resolver = (f.1, (withRegistry
      { h with engines := f.2, nextRuntime := h.nextRuntime + 1 } seat
      ⟨(h.registry seat).entries.insert (h.profiles seat).identity ⟨h.nextRuntime⟩⟩).put
      ⟨h.nextRuntime⟩ (.fresh (h.profiles seat).identity config resolver f.1)) := by
    simp only [enrolled, hf]
  rw [henrolled]
  rfl

/-! ### Runtimes that come -/

theorem contains_eq_isSome (h : Host E) (seat : Seat) :
    (h.registry seat).contains (h.profiles seat).identity = (h.registered? seat).isSome :=
  (Table.isSome_get? ..).symm

/-- An engine without an entry has no runtime. -/
theorem Registered.held_eq_none (H : h.Registered)
    (hentry : (h.registry seat).contains (h.profiles seat).identity = false) :
    h.held.get? seat = none := by
  cases hs : h.held.get? seat with
  | none => rfl
  | some id =>
    rw [contains_eq_isSome, H.registered?_eq_some_iff.2 ⟨seat, hs, rfl, rfl⟩] at hentry
    cases hentry

theorem Registered.ne_nextRuntime (H : h.Registered) (hs : h.held.get? seat = some id) :
    id ≠ ⟨h.nextRuntime⟩ := by
  rintro rfl
  exact Nat.lt_irrefl _ (H.held_lt seat _ hs)

namespace Enrolls

/-- Besides the new runtime the same are held. -/
theorem held_iff (Hn : h.Enrolls seat h') (hs : h.held.get? seat = none) {seat' : Seat} :
    h'.held.get? seat' = some id ↔
      seat' = seat ∧ id = ⟨h.nextRuntime⟩ ∨ h.held.get? seat' = some id := by
  rw [Hn.held_eq, Table.get?_insert]
  split
  · next heq =>
    subst heq
    simp [hs, eq_comm]
  · next hne => simp [hne]

theorem holds_iff (Hn : h.Enrolls seat h') (hs : h.held.get? seat = none) {n : Nat}
    {e : EngineId} : h'.Holds n e id ↔
      (id = ⟨h.nextRuntime⟩ ∧ (h.profiles seat).identity = e ∧ (h.profiles seat).registry = n) ∨
        h.Holds n e id := by
  simp only [Holds, Hn.held_iff hs, Hn.profiles_eq, or_and_right, exists_or, and_assoc,
    exists_eq_left]

/-- The new entry is that of the new runtime. -/
theorem entry_iff (Hn : h.Enrolls seat h') (H : h.Registered)
    (hentry : (h.registry seat).contains (h.profiles seat).identity = false) (n : Nat)
    (e : EngineId) (id : RuntimeId) :
    (h'.registryOf n).entries.get? e = some id ↔ h'.Holds n e id := by
  have hnone : h.registered? seat = none := by rwa [contains_eq_isSome, Option.isSome_eq_false_iff,
    Option.isNone_iff_eq_none] at hentry
  rw [Hn.registryOf_eq, Hn.holds_iff (H.held_eq_none hentry)]
  split
  · next hn =>
    subst hn
    rw [Table.get?_insert]
    split
    · next he =>
      subst he
      have hnot : ¬h.Holds (h.profiles seat).registry (h.profiles seat).identity id := by
        rw [← H.registered?_eq_some_iff, hnone]
        simp
      simp [hnot, eq_comm]
    · next he =>
      have hne : (h.profiles seat).identity ≠ e := fun h => he h.symm
      simpa [hne, registryOf_profile] using H.entry_iff (h.profiles seat).registry e id
  · next hn =>
    have hne : (h.profiles seat).registry ≠ n := fun h => hn h.symm
    simpa [hne] using H.entry_iff n e id

/-- The new runtime is alive, and so are those that have been. -/
theorem alive_iff (Hn : h.Enrolls seat h') (H : h.Registered) (hs : h.held.get? seat = none)
    (id : RuntimeId) :
    h'.runtimes.contains id = true ↔ ∃ seat', h'.held.get? seat' = some id := by
  simp only [Hn.held_iff hs, exists_or, ← H.alive_iff, exists_eq_left]
  by_cases hid : id = ⟨h.nextRuntime⟩
  · have hsome := congrArg Option.isSome Hn.identity_eq
    rw [Option.isSome_map, Table.isSome_get?, ← hid] at hsome
    exact iff_of_true hsome (.inl hid)
  · rw [← Table.isSome_get?, Hn.runtimes_eq id hid, Table.isSome_get?]
    exact (or_iff_right hid).symm

end Enrolls

/-- A new runtime keeps the registries true to the runtimes. -/
theorem Registered.enrolls (H : h.Registered)
    (hentry : (h.registry seat).contains (h.profiles seat).identity = false)
    (Hn : h.Enrolls seat h') : h'.Registered := by
  have hs := H.held_eq_none hentry
  constructor
  case entry_iff => exact Hn.entry_iff H hentry
  case nodup_keys =>
    intro n
    rw [Hn.registryOf_eq]
    split
    · exact Table.nodup_keys_insert (H.nodup_keys (h.profiles seat).registry) ..
    · exact H.nodup_keys n
  case alive_iff => exact Hn.alive_iff H hs
  case identity_eq =>
    intro seat' id hs'
    rw [Hn.profiles_eq]
    rcases (Hn.held_iff hs).1 hs' with ⟨rfl, rfl⟩ | hold
    · exact Hn.identity_eq
    · rw [Hn.runtimes_eq id (H.ne_nextRuntime hold)]
      exact H.identity_eq seat' id hold
  case held_inj =>
    intro seat₁ seat₂ id h₁ h₂
    rcases (Hn.held_iff hs).1 h₁ with ⟨rfl, hid⟩ | h₁ <;>
      rcases (Hn.held_iff hs).1 h₂ with ⟨rfl, hid'⟩ | h₂
    · rfl
    · exact absurd hid (H.ne_nextRuntime h₂)
    · exact absurd hid' (H.ne_nextRuntime h₁)
    · exact H.held_inj _ _ id h₁ h₂
  case held_lt =>
    intro seat' id hs'
    rw [Hn.nextRuntime_eq]
    rcases (Hn.held_iff hs).1 hs' with ⟨-, rfl⟩ | hold
    · exact Nat.lt_succ_self _
    · exact Nat.lt_succ_of_lt (H.held_lt _ _ hold)

/-! ### Runtimes that go -/

theorem registryOf_detach (h : Host E) (seat : Seat) (id : RuntimeId) (n : Nat) :
    (h.detach seat id).registryOf n = if n = (h.profiles seat).registry then
      (h.registry seat).unregister (h.profiles seat).identity else h.registryOf n := by
  simp only [registryOf, detach, withRegistry, Table.get?_insert]
  split <;> rfl

theorem get?_detach (h : Host E) (seat : Seat) (id id' : RuntimeId) :
    (h.detach seat id).runtimes.get? id' = if id' = id then none else h.runtimes.get? id' := by
  simp only [detach, withRegistry, Table.get?_erase]

theorem drop_releases (hs : h.held.get? seat = some id) :
    h.Releases seat id (h.drop seat) := by
  simp only [drop, hs]
  exact ⟨rfl, registryOf_detach h seat id, rfl, get?_detach h seat id, rfl⟩

namespace Releases

/-- All but the runtime are held as before. -/
theorem held_iff (Hr : h.Releases seat id h') (H : h.Registered)
    (hs : h.held.get? seat = some id) {seat' : Seat} {id' : RuntimeId} :
    h'.held.get? seat' = some id' ↔ h.held.get? seat' = some id' ∧ id' ≠ id := by
  rw [Hr.held_eq, Table.get?_erase]
  split
  · next heq =>
    subst heq
    simp [hs, eq_comm]
  · next hne =>
    refine (and_iff_left_of_imp fun hs' => ?_).symm
    rintro rfl
    exact hne (H.held_inj _ _ _ hs' hs)

/-- The other runtimes of the same registry have other identities. -/
theorem holds_iff (Hr : h.Releases seat id h') (H : h.Registered)
    (hs : h.held.get? seat = some id) {n : Nat} {e : EngineId} {id' : RuntimeId} :
    h'.Holds n e id' ↔
      h.Holds n e id' ∧ ¬((h.profiles seat).identity = e ∧ (h.profiles seat).registry = n) := by
  constructor
  · rintro ⟨seat', hs', rfl, rfl⟩
    obtain ⟨hs', hid⟩ := (Hr.held_iff H hs).1 hs'
    rw [Hr.profiles_eq]
    refine ⟨⟨seat', hs', rfl, rfl⟩, fun hsame => hid ?_⟩
    have h₁ := (H.entry_iff _ _ _).2 ⟨seat, hs, hsame.1, hsame.2⟩
    have h₂ := (H.entry_iff _ _ _).2 ⟨seat', hs', rfl, rfl⟩
    exact Option.some.inj (h₂.symm.trans h₁)
  · rintro ⟨⟨seat', hs', rfl, rfl⟩, hnot⟩
    refine ⟨seat', (Hr.held_iff H hs).2 ⟨hs', ?_⟩, by rw [Hr.profiles_eq], by rw [Hr.profiles_eq]⟩
    rintro rfl
    obtain rfl := H.held_inj _ _ _ hs' hs
    exact hnot ⟨rfl, rfl⟩

theorem entry_iff (Hr : h.Releases seat id h') (H : h.Registered)
    (hs : h.held.get? seat = some id) (n : Nat) (e : EngineId) (id' : RuntimeId) :
    (h'.registryOf n).entries.get? e = some id' ↔ h'.Holds n e id' := by
  rw [Hr.registryOf_eq, Hr.holds_iff H hs, ← H.entry_iff]
  split
  · next hn =>
    subst hn
    simp only [Registry.unregister, Table.get?_erase, registryOf_profile]
    split
    · next he => simp [he]
    · next he => simp [Ne.symm he]
  · next hn => simp [Ne.symm hn]

theorem alive_iff (Hr : h.Releases seat id h') (H : h.Registered)
    (hs : h.held.get? seat = some id) (id' : RuntimeId) :
    h'.runtimes.contains id' = true ↔ ∃ seat', h'.held.get? seat' = some id' := by
  simp only [Hr.held_iff H hs, exists_and_right, ← H.alive_iff]
  rw [← Table.isSome_get?, Hr.runtimes_eq]
  split
  · next hid => simp [hid]
  · next hid => rw [Table.isSome_get?, and_iff_left hid]

end Releases

/-- Taking a runtime away keeps the registries true to the runtimes. -/
theorem Registered.releases (H : h.Registered) (hs : h.held.get? seat = some id)
    (Hr : h.Releases seat id h') : h'.Registered := by
  have hold {seat' : Seat} {id' : RuntimeId} (hs' : h'.held.get? seat' = some id') :=
    (Hr.held_iff H hs).1 hs'
  constructor
  case entry_iff => exact Hr.entry_iff H hs
  case nodup_keys =>
    intro n
    rw [Hr.registryOf_eq]
    split
    · exact Table.nodup_keys_erase (H.nodup_keys (h.profiles seat).registry) _
    · exact H.nodup_keys n
  case alive_iff => exact Hr.alive_iff H hs
  case identity_eq =>
    intro seat' id' hs'
    rw [Hr.runtimes_eq, if_neg (hold hs').2, Hr.profiles_eq]
    exact H.identity_eq seat' id' (hold hs').1
  case held_inj => exact fun _ _ _ h₁ h₂ => H.held_inj _ _ _ (hold h₁).1 (hold h₂).1
  case held_lt => exact fun _ _ hs' => Hr.nextRuntime_eq ▸ H.held_lt _ _ (hold hs').1

/-! ### Attempts -/

theorem registryOf_enrolled (h : Host E) (seat : Seat) (config : Config) (resolver : Resolver)
    (n : Nat) : (h.enrolled seat config resolver).2.registryOf n =
      if n = (h.profiles seat).registry then
        ⟨(h.registry seat).entries.insert (h.profiles seat).identity ⟨h.nextRuntime⟩⟩
      else h.registryOf n := by
  simp only [registryOf, enrolled, withRegistry, put, Table.get?_insert]
  split <;> rfl

theorem registered?_enrolled (h : Host E) (seat : Seat) (config : Config) (resolver : Resolver) :
    (h.enrolled seat config resolver).2.registered? seat = some ⟨h.nextRuntime⟩ := by
  simp [registered?, registry, enrolled, withRegistry, put]

theorem get?_enrolled (h : Host E) (seat : Seat) (config : Config) (resolver : Resolver)
    (id : RuntimeId) : (h.enrolled seat config resolver).2.runtimes.get? id =
      if id = ⟨h.nextRuntime⟩ then some (.fresh (h.profiles seat).identity config resolver
        (h.enrolled seat config resolver).1)
      else h.runtimes.get? id :=
  Table.get?_insert ..

theorem Confined.registryOf_eq {P : RuntimeId → Prop} (H : Confined P h h') (n : Nat) :
    h'.registryOf n = h.registryOf n := by
  rw [registryOf, H.registries_eq]
  rfl

section Installed

variable {config : Config} {resolver : Resolver} {h₂ : Host E}

/-- Installing a new runtime changes no other. -/
theorem installed_confined (h : Host E) (seat : Seat) (config : Config) (resolver : Resolver) :
    Confined (fun id => id = ⟨h.nextRuntime⟩) (h.enrolled seat config resolver).2
      (Install.runtime ⟨h.nextRuntime⟩ config (h.enrolled seat config resolver).1 seat
        (h.enrolled seat config resolver).2).2 := by
  refine (Install.runtime_keepsTo (P := fun id => id = ⟨h.nextRuntime⟩) rfl config _
    (.refl fun id hid => ?_)).2.confined
  rw [registered?_enrolled] at hid
  exact (Option.some.inj hid).symm

/-- A runtime that has been installed is held. -/
theorem Confined.enrolls
    (Hc : Confined (fun id => id = ⟨h.nextRuntime⟩) (h.enrolled seat config resolver).2 h₂) :
    h.Enrolls seat { h₂ with held := h₂.held.insert seat ⟨h.nextRuntime⟩ } := by
  refine ⟨Hc.profiles_eq, fun n => ?_, ?_, fun id hid => ?_, ?_, Hc.nextRuntime_eq⟩
  · exact (Hc.registryOf_eq n).trans (registryOf_enrolled ..)
  · exact congrArg (Table.insert · seat ⟨h.nextRuntime⟩) Hc.held_eq
  · exact (Hc.runtimes_eq id hid).trans ((get?_enrolled ..).trans (if_neg hid))
  · refine (Hc.identity_eq _).trans ?_
    rw [get?_enrolled, if_pos rfl]
    rfl

/-- A runtime that cannot be installed leaves nothing behind. -/
theorem Confined.sameSeating (H : h.Registered)
    (hentry : (h.registry seat).contains (h.profiles seat).identity = false)
    (Hc : Confined (fun id => id = ⟨h.nextRuntime⟩) (h.enrolled seat config resolver).2 h₂) :
    h.SameSeating (h₂.detach seat ⟨h.nextRuntime⟩) := by
  have hprofile : h₂.profiles seat = h.profiles seat := congrFun Hc.profiles_eq seat
  have hregistry (n : Nat) := (Hc.registryOf_eq n).trans (registryOf_enrolled h seat config ..)
  have hkey : (h.profiles seat).identity ∉ (h.registry seat).entries.keys := fun hmem => by
    rw [Registry.contains, Table.contains_iff_mem_keys.2 hmem] at hentry
    cases hentry
  refine ⟨Hc.profiles_eq, fun n => ?_, Hc.held_eq, fun id => ?_, ?_⟩
  · rw [registryOf_detach, ← registryOf_profile, hprofile, hregistry, hregistry, if_pos rfl]
    split
    · next hn =>
      rw [hn, registryOf_profile, Registry.unregister, Table.erase_insert_of_notMem hkey]
    · rfl
  · rw [get?_detach]
    split
    · next hid => exact (hid ▸ H.get?_nextRuntime).symm
    · next hid => exact (Hc.runtimes_eq id hid).trans ((get?_enrolled ..).trans (if_neg hid))
  · exact Nat.le_trans (Nat.le_succ _) (Nat.le_of_eq Hc.nextRuntime_eq.symm)

end Installed

/-- What attaching a runtime does. -/
theorem Registered.attempt (H : h.Registered) (seat : Seat) (config : Config)
    (resolver : Resolver) : h.Attempt seat (h.attach seat config resolver) := by
  cases hentry : (h.registry seat).contains (h.profiles seat).identity with
  | true =>
    rw [attach_of_contains hentry]
    exact .clash hentry
  | false =>
    have Hc := h.installed_confined seat config resolver
    rw [attach_of_new hentry]
    revert Hc
    rcases Install.runtime _ config _ seat _ with ⟨e | _, h₂⟩ <;> intro Hc
    · exact .failed hentry (Hc.sameSeating H hentry)
    · exact .attached hentry Hc.enrolls

/-- Attaching a runtime that resolves modules from the files is attaching one with their resolver,
unless there is no directory to start from; then nothing is done. -/
theorem Registered.attemptFiles (H : h.Registered) (seat : Seat) (config : Config) :
    h.Attempt seat (h.attachFiles seat config) ∨
      ∃ failure, config.baseDir = none ∧ h.platform.workingDirectory = .error failure ∧
        h.attachFiles seat config = (.failed (.fault (.files failure)), h) := by
  rw [attachFiles]
  split
  · exact .inl (H.attempt ..)
  · next hbase =>
    split
    · exact .inl (H.attempt ..)
    · next failure hdir => exact .inr ⟨failure, hbase, hdir, rfl⟩

theorem Attempt.profiles_eq {p : Attachment E.Value × Host E} (Hp : h.Attempt seat p) :
    p.2.profiles = h.profiles := by
  cases Hp with
  | clash _ => rfl
  | failed _ hsame => exact hsame.profiles_eq
  | attached _ hnew => exact hnew.profiles_eq

/-- However an attempt ends, the registries are true to the runtimes. -/
theorem Registered.of_attempt (H : h.Registered) {p : Attachment E.Value × Host E}
    (Hp : h.Attempt seat p) : p.2.Registered := by
  cases Hp with
  | clash _ => exact H.of_sameSeating ⟨rfl, fun _ => rfl, rfl, fun _ => rfl, Nat.le_refl _⟩
  | failed _ hsame => exact H.of_sameSeating hsame
  | attached hentry hnew => exact H.enrolls hentry hnew

/-- After an exception a runtime can be attached as before. -/
theorem Attempt.retry {e : Exception E.Value} (Hp : h.Attempt seat (.failed e, h'))
    (config : Config) (resolver : Resolver) (message : String) :
    (h'.attach seat config resolver).1 ≠ .clash message := by
  cases Hp with
  | failed hentry hsame =>
    have hentry' : (h'.registry seat).contains (h'.profiles seat).identity = false := by
      rwa [← registryOf_profile, hsame.registryOf_eq, hsame.profiles_eq, registryOf_profile]
    rw [attach_of_new hentry']
    rcases Install.runtime _ config _ seat _ with ⟨e | _, h₂⟩ <;> rintro ⟨⟩

theorem Registered.attachFiles (H : h.Registered) (seat : Seat) (config : Config) :
    (h.attachFiles seat config).2.Registered := by
  rcases H.attemptFiles seat config with Hp | ⟨failure, -, -, he⟩
  · exact H.of_attempt Hp
  · rw [he]
    exact H

theorem Registered.drop (H : h.Registered) (seat : Seat) : (h.drop seat).Registered := by
  cases hs : h.held.get? seat with
  | none =>
    simp only [Host.drop, hs]
    exact H
  | some id => exact H.releases hs (drop_releases hs)

end Host

/-! ### Worlds -/

namespace World

open Host

/-- Besides attaching and dropping, nothing comes or goes. -/
theorem perform_confined (w : World E) {m : Move E}
    (hattach : ∀ seat config resolver, m ≠ .attach seat config resolver)
    (hfiles : ∀ seat config, m ≠ .attachFiles seat config) (hdrop : ∀ seat, m ≠ .drop seat) :
    Confined (fun _ => True) w.host (w.perform m).host := by
  have huses (seat : Seat) (hm : w.Uses seat (fun _ => True) m) :
      Confined (fun _ => True) w.host (w.perform m).host :=
    (perform_looksSame (.refl fun _ _ => trivial) hm).2
  cases m with
  | outside engines platform => exact ⟨rfl, rfl, rfl, rfl, fun _ => rfl, fun _ _ => rfl⟩
  | attach seat config resolver => exact absurd rfl (hattach seat config resolver)
  | attachFiles seat config => exact absurd rfl (hfiles seat config)
  | drop seat => exact absurd rfl (hdrop seat)
  | setTimer | clearTimer | nextTick | stop => exact huses 0 trivial
  | start errand => exact huses errand.seat ⟨rfl, fun _ _ => trivial⟩
  | step i =>
    cases hi : w.jobs[i]? with
    | none =>
      simp only [perform, hi]
      exact refl_of (Confined fun _ => True) w.host
    | some j =>
      refine huses j.seat fun j' hj' => ?_
      obtain rfl := Option.some.inj (hi.symm.trans hj')
      exact ⟨rfl, fun _ _ => trivial, fun _ _ => trivial⟩

/-- Every move keeps the registries true to the runtimes. -/
theorem registered_perform {w : World E} (H : w.host.Registered) (m : Move E) :
    (w.perform m).host.Registered := by
  have hother := w.perform_confined (m := m)
  cases m with
  | attach seat config resolver => exact H.of_attempt (H.attempt seat config resolver)
  | attachFiles seat config => exact H.attachFiles seat config
  | drop seat => exact H.drop seat
  | _ => exact H.of_confined (hother (by simp) (by simp) (by simp))

/-- No move changes the engines at the seats. -/
theorem profiles_perform {w : World E} (H : w.host.Registered) (m : Move E) :
    (w.perform m).host.profiles = w.host.profiles := by
  have hother := w.perform_confined (m := m)
  cases m with
  | attach seat config resolver => exact (H.attempt seat config resolver).profiles_eq
  | attachFiles seat config =>
    rcases H.attemptFiles seat config with Hp | ⟨failure, -, -, he⟩
    · exact Hp.profiles_eq
    · exact congrArg (fun p => p.2.profiles) he
  | drop seat =>
    simp only [perform, Host.drop]
    split <;> rfl
  | _ => exact (hother (by simp) (by simp) (by simp)).profiles_eq

/-- The registries are true to the runtimes after every run. -/
theorem registered_run (engines : E.State) (platform : Platform) (profiles : Seat → Profile)
    (ms : List (Move E)) :
    ((initial engines platform profiles).run ms).host.Registered ∧
      ((initial engines platform profiles).run ms).host.profiles = profiles :=
  run_invariant (P := fun w => w.host.Registered ∧ w.host.profiles = profiles)
    ⟨registered_ofEngines engines platform profiles, rfl⟩
    (fun _ m H => ⟨registered_perform H.1 m, (profiles_perform H.1 m).trans H.2⟩) ms

/-- Along every run, over any number of engines and registries, the entries of a registry are the
identities of the engines for which a runtime is held that was attached through it, and looking one
up gives this runtime. Attaching a runtime is refused exactly if the identity has an entry, and then
changes nothing; after an exception registries and runtimes are as before, and attaching can be
tried again. Nothing but attaching and dropping changes what is registered, held and alive. -/
theorem registries_follow_runtimes (engines : E.State) (platform : Platform)
    (profiles : Seat → Profile) (ms : List (Move E)) :
    let w := (initial engines platform profiles).run ms
    let h := w.host
    h.profiles = profiles ∧ h.Registered ∧
      (∀ n e id, (h.registryOf n).lookup h.runtimes.contains e = some id ↔ h.Holds n e id) ∧
      (∀ seat config resolver, h.Attempt seat (h.attach seat config resolver)) ∧
      (∀ seat config, h.Attempt seat (h.attachFiles seat config) ∨
        ∃ failure, config.baseDir = none ∧ h.platform.workingDirectory = .error failure ∧
          h.attachFiles seat config = (.failed (.fault (.files failure)), h)) ∧
      (∀ seat e h', h.Attempt seat (.failed e, h') → ∀ config resolver message,
        (h'.attach seat config resolver).1 ≠ .clash message) ∧
      (∀ seat id, h.held.get? seat = some id → h.Releases seat id (h.drop seat)) ∧
      (∀ seat, h.held.get? seat = none → h.drop seat = h) ∧
      ∀ m, (∀ seat config resolver, m ≠ .attach seat config resolver) →
        (∀ seat config, m ≠ .attachFiles seat config) → (∀ seat, m ≠ .drop seat) →
        Confined (fun _ => True) h (w.perform m).host := by
  intro w h
  obtain ⟨H, hprofiles⟩ : h.Registered ∧ h.profiles = profiles :=
    registered_run engines platform profiles ms
  refine ⟨hprofiles, H, fun n e id => ?_, H.attempt, H.attemptFiles,
    fun seat e h' Hp => Hp.retry, fun seat id => drop_releases, fun seat hs => ?_,
    fun m => w.perform_confined⟩
  · rw [Registry.lookup, Option.filter_eq_some_iff, H.entry_iff]
    refine and_iff_left_of_imp fun ⟨seat, hs, _⟩ => H.contains_of_held hs
  · simp only [Host.drop, hs]

end World

end ScriptHost
