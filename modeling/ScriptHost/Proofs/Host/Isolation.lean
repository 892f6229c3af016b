import ScriptHost.Proofs.Host.Callers
import ScriptHost.Proofs.Timer.Order

/-!
# Runtimes are isolated from one another

Engines with pairwise distinct identities may share a registry and a host. A move that is made for
one of them leaves the others alone, whatever numbers its scripts use as handles, and depends on
nothing that belongs to the others. What they share is the clock and the rest of the platform, the
state of the engines, and the numbering of timers and of runtimes.

## Main definitions

* `World.On`: a move is made for the engine at a seat.
* `Host.Allows`: an engine may use a runtime.
* `Host.LeavesAlone`: what belongs to an engine has not changed.
* `World.Isolated`: engines have distinct identities, and their jobs use runtimes of their own.

## Main results

* `World.Isolated.leavesAlone`: a move for one engine leaves the others alone.
* `World.Isolated.seemsSame_perform`: a move for one engine is the same in worlds that look the same
  from its seat.
* `World.runtimes_isolated`: both, along every run.
-/

namespace ScriptHost

open Host

variable {E : Engine}

namespace Host

/-- A runtime is held for no engine but the one at a seat. -/
def Spares (h : Host E) (seat : Seat) (id : RuntimeId) : Prop :=
  ∀ seat', h.held.get? seat' = some id → seat' = seat

/-- The engine at a seat may use a runtime: it has been made, and it is held for no other. -/
def Allows (h : Host E) (seat : Seat) (id : RuntimeId) : Prop :=
  id.val < h.nextRuntime ∧ h.Spares seat id

/-- What belongs to the engine at a seat has not changed: its runtime with everything in it, its
entry in the registry, and what its native functions act on. -/
structure LeavesAlone (seat : Seat) (h h' : Host E) : Prop where
  held_eq : h'.held.get? seat = h.held.get? seat
  registered_eq : h'.registered? seat = h.registered? seat
  attached_eq : h'.attached seat = h.attached seat
  runtimes_eq : ∀ id, h.held.get? seat = some id → h'.runtimes.get? id = h.runtimes.get? id

variable {h h' k k' : Host E} {seat seat' : Seat} {id : RuntimeId} {P : RuntimeId → Prop}

/-! ### The runtime of an engine -/

/-- Engines have distinct identities, and the registries are true to their runtimes. -/
structure Distinct (h : Host E) : Prop where
  registered : h.Registered
  identity_injective : Function.Injective fun seat => (h.profiles seat).identity

/-- The registry holds for an engine the runtime that is held for it. -/
theorem Distinct.registered?_eq (H : h.Distinct) (seat : Seat) :
    h.registered? seat = h.held.get? seat := by
  refine Option.ext fun id => ?_
  rw [H.registered.registered?_eq_some_iff]
  constructor
  · rintro ⟨seat', hs, he, -⟩
    rwa [← H.identity_injective he]
  · exact fun hs => ⟨seat, hs, rfl, rfl⟩

/-- Native functions called by an engine act on the runtime that is held for it. -/
theorem Distinct.attached_eq (H : h.Distinct) (seat : Seat) :
    h.attached seat = h.held.get? seat :=
  (H.registered.attached_eq_registered? seat).trans (H.registered?_eq seat)

theorem Distinct.allows_of_held (H : h.Distinct) (hs : h.held.get? seat = some id) :
    h.Allows seat id :=
  ⟨H.registered.held_lt seat id hs, fun _ hs' => H.registered.held_inj _ _ id hs' hs⟩

theorem Distinct.allows_of_registered? (H : h.Distinct) (hid : h.registered? seat = some id) :
    h.Allows seat id :=
  H.allows_of_held ((H.registered?_eq seat).symm.trans hid)

/-! ### Leaving alone -/

theorem LeavesAlone.of_registered (H : h.Registered) (H' : h'.Registered)
    (hheld : h'.held.get? seat = h.held.get? seat)
    (hentry : h'.registered? seat = h.registered? seat)
    (hruntimes : ∀ id, h.held.get? seat = some id → h'.runtimes.get? id = h.runtimes.get? id) :
    LeavesAlone seat h h' where
  held_eq := hheld
  registered_eq := hentry
  attached_eq := by rw [H.attached_eq_registered?, H'.attached_eq_registered?, hentry]
  runtimes_eq := hruntimes

/-- What changes within the runtimes that one engine may use leaves the others alone. -/
theorem Confined.leavesAlone (Hc : Confined (h.Allows seat) h h') (hne : seat' ≠ seat) :
    LeavesAlone seat' h h' where
  held_eq := by rw [Hc.held_eq]
  registered_eq := Hc.registered?_eq seat'
  attached_eq := Hc.attached_eq seat'
  runtimes_eq id hs := Hc.runtimes_eq id fun hid => hne (hid.2 seat' hs)

theorem registered?_eq_registryOf (h : Host E) (seat : Seat) : h.registered? seat =
    (h.registryOf (h.profiles seat).registry).entries.get? (h.profiles seat).identity :=
  rfl

/-- Attaching a runtime to one engine leaves the others alone. -/
theorem Attempt.leavesAlone (H : h.Distinct) {p : Attachment E.Value × Host E}
    (Hp : h.Attempt seat p) (hne : seat' ≠ seat) : LeavesAlone seat' h p.2 := by
  have H' := H.registered.of_attempt Hp
  have hidentity : (h.profiles seat').identity ≠ (h.profiles seat).identity :=
    fun he => hne (H.identity_injective he)
  cases Hp with
  | clash _ => exact ⟨rfl, rfl, rfl, fun _ _ => rfl⟩
  | failed _ hsame =>
    refine .of_registered H.registered H' (by rw [hsame.held_eq]) ?_
      fun id _ => hsame.runtimes_eq id
    rw [registered?_eq_registryOf, hsame.profiles_eq, hsame.registryOf_eq]
    rfl
  | attached _ hnew =>
    refine .of_registered H.registered H' ?_ ?_ fun id hs => hnew.runtimes_eq id ?_
    · rw [hnew.held_eq, Table.get?_insert, if_neg hne]
    · rw [registered?_eq_registryOf, hnew.profiles_eq, hnew.registryOf_eq]
      split
      · next hn =>
        rw [Table.get?_insert, if_neg hidentity, registered?_eq_registryOf, hn]
        rfl
      · rfl
    · rintro rfl
      exact Nat.lt_irrefl _ (H.registered.held_lt seat' _ hs)

/-- Dropping the runtime of one engine leaves the others alone. -/
theorem drop_leavesAlone (H : h.Distinct) (hne : seat' ≠ seat) :
    LeavesAlone seat' h (h.drop seat) := by
  have hidentity : (h.profiles seat').identity ≠ (h.profiles seat).identity :=
    fun he => hne (H.identity_injective he)
  cases hs : h.held.get? seat with
  | none =>
    simp only [drop, hs]
    exact ⟨rfl, rfl, rfl, fun _ _ => rfl⟩
  | some id =>
    have Hr := drop_releases hs
    refine .of_registered H.registered (H.registered.drop seat) ?_ ?_ fun id' hs' => ?_
    · rw [Hr.held_eq, Table.get?_erase, if_neg hne]
    · rw [registered?_eq_registryOf, Hr.profiles_eq, Hr.registryOf_eq]
      split
      · next hn =>
        rw [Registry.unregister, Table.get?_erase, if_neg hidentity, registered?_eq_registryOf, hn]
        rfl
      · rfl
    · rw [Hr.runtimes_eq, if_neg]
      rintro rfl
      exact hne (H.registered.held_inj _ _ _ hs' hs)

end Host

/-! ### Moves for an engine -/

namespace World

/-- A move is made for the engine at a seat: a runtime is attached to it or dropped, its runtime is
used directly, a job of it is begun, with its runtime, or a job of it takes a step. -/
def On (w : World E) (seat : Seat) : Move E → Prop
  | .outside .. => False
  | .attach seat' .. | .attachFiles seat' _ | .drop seat' => seat' = seat
  | .setTimer id .. | .clearTimer id .. | .nextTick id _ | .stop id =>
    w.host.held.get? seat = some id
  | .start errand => errand.seat = seat ∧
    ∀ owner, errand.owner? = some owner → w.host.held.get? seat = some owner
  | .step i => ∀ j, w.jobs[i]? = some j → j.seat = seat

/-- A move is made for one of the engines, or it is one from outside. -/
def OnSome (w : World E) (m : Move E) : Prop :=
  (∃ engines platform, m = .outside engines platform) ∨ ∃ seat, w.On seat m

/-- Engines have distinct identities, and their jobs use runtimes that they may use. -/
structure Isolated (w : World E) : Prop where
  distinct : w.host.Distinct
  uses : ∀ j ∈ w.jobs, j.Uses (w.host.Allows j.seat)

variable {w v : World E} {m : Move E} {seat seat' : Seat}

theorem Isolated.uses_of_on (H : w.Isolated) (hm : w.On seat m)
    (hattach : ∀ config resolver, m ≠ .attach seat config resolver)
    (hfiles : ∀ config, m ≠ .attachFiles seat config) (hdrop : m ≠ .drop seat) :
    w.Uses seat (w.host.Allows seat) m := by
  cases m with
  | outside => exact hm
  | attach seat' config resolver => exact absurd (hm ▸ rfl) (hattach config resolver)
  | attachFiles seat' config => exact absurd (hm ▸ rfl) (hfiles config)
  | drop seat' => exact absurd (hm ▸ rfl) hdrop
  | setTimer | clearTimer | nextTick | stop => exact H.distinct.allows_of_held hm
  | start errand => exact ⟨hm.1, fun owner ho => H.distinct.allows_of_held (hm.2 owner ho)⟩
  | step i =>
    intro j hj
    have hs := hm j hj
    subst hs
    exact ⟨rfl, H.uses j (List.mem_of_getElem? hj)⟩

/-- A move for one engine leaves the others alone. -/
theorem Isolated.leavesAlone (H : w.Isolated) (hm : w.On seat m) (hne : seat' ≠ seat) :
    LeavesAlone seat' w.host (w.perform m).host := by
  have hinner (huses : w.Uses seat (w.host.Allows seat) m) :
      LeavesAlone seat' w.host (w.perform m).host :=
    (perform_looksSame (.refl fun _ => H.distinct.allows_of_registered?) huses).2.leavesAlone hne
  have huses := H.uses_of_on hm
  cases m with
  | outside => exact hm.elim
  | attach seat₁ config resolver =>
    obtain rfl := hm
    exact (H.distinct.registered.attempt seat₁ config resolver).leavesAlone H.distinct hne
  | attachFiles seat₁ config =>
    obtain rfl := hm
    rcases H.distinct.registered.attemptFiles seat₁ config with Hp | ⟨failure, -, -, he⟩
    · exact Hp.leavesAlone H.distinct hne
    · simp only [perform, he]
      exact ⟨rfl, rfl, rfl, fun _ _ => rfl⟩
  | drop seat₁ =>
    obtain rfl := hm
    exact drop_leavesAlone H.distinct hne
  | _ => exact hinner (huses (by simp) (by simp) (by simp))

/-- A move for one engine leaves the jobs of the others alone. -/
theorem jobs_of_on (hm : w.On seat m) (hne : seat' ≠ seat) {i : Nat} {j : Job E}
    (hi : w.jobs[i]? = some j) (hj : j.seat = seat') : (w.perform m).jobs[i]? = some j := by
  cases m with
  | start errand =>
    have hlt : i < w.jobs.length := (List.getElem?_eq_some_iff.1 hi).1
    exact (List.getElem?_append_left hlt).trans hi
  | step i' =>
    rw [perform]
    cases hi' : w.jobs[i']? with
    | none => exact hi
    | some j' =>
      refine (List.getElem?_set_ne ?_).trans hi
      rintro rfl
      obtain rfl := Option.some.inj (hi.symm.trans hi')
      exact hne (hj.symm.trans (hm j hi))
  | _ => exact hi

/-! ### Isolation along runs -/

/-- What is held afterwards was held before, or is the runtime that was next. -/
theorem held_of_perform (H : w.host.Registered) {id : RuntimeId}
    (hs : (w.perform m).host.held.get? seat = some id) :
    w.host.held.get? seat = some id ∨ id = ⟨w.host.nextRuntime⟩ := by
  have hattempt {p : Attachment E.Value × Host E} {seat' : Seat} (Hp : w.host.Attempt seat' p)
      (hs : p.2.held.get? seat = some id) :
      w.host.held.get? seat = some id ∨ id = ⟨w.host.nextRuntime⟩ := by
    cases Hp with
    | clash _ => exact .inl hs
    | failed _ hsame => exact .inl (hsame.held_eq ▸ hs)
    | attached _ hnew =>
      rw [hnew.held_eq, Table.get?_insert] at hs
      split at hs
      · exact .inr (Option.some.inj hs).symm
      · exact .inl hs
  have hother := w.perform_confined (m := m)
  cases m with
  | attach seat' config resolver => exact hattempt (H.attempt seat' config resolver) hs
  | attachFiles seat' config =>
    rcases H.attemptFiles seat' config with Hp | ⟨failure, -, -, he⟩
    · exact hattempt Hp hs
    · simp only [perform, he] at hs
      exact .inl hs
  | drop seat' =>
    simp only [perform, Host.drop] at hs
    split at hs
    · rw [Table.get?_erase] at hs
      split at hs
      · cases hs
      · exact .inl hs
    · exact .inl hs
  | _ => exact .inl ((hother (by simp) (by simp) (by simp)).held_eq ▸ hs)

/-- What an engine may use it may use later. -/
theorem allows_perform (H : w.host.Registered) {id : RuntimeId} (hid : w.host.Allows seat id) :
    (w.perform m).host.Allows seat id := by
  refine ⟨Nat.lt_of_lt_of_le hid.1 (nextRuntime_le_perform w m), fun seat' hs => ?_⟩
  rcases held_of_perform H hs with hs | rfl
  · exact hid.2 seat' hs
  · exact absurd hid.1 (Nat.lt_irrefl _)

theorem isolated_initial {profiles : Seat → Profile}
    (hdistinct : Function.Injective fun seat => (profiles seat).identity) (engines : E.State)
    (platform : Platform) : (initial engines platform profiles).Isolated :=
  ⟨⟨registered_ofEngines engines platform profiles, hdistinct⟩, by simp [initial]⟩

/-- Moves for the engines keep them isolated. -/
theorem Isolated.perform (H : w.Isolated) (hm : w.OnSome m) : (w.perform m).Isolated := by
  have hregistered := H.distinct.registered
  have hdistinct : (w.perform m).host.Distinct := by
    refine ⟨registered_perform hregistered m, ?_⟩
    rw [profiles_perform hregistered m]
    exact H.distinct.identity_injective
  refine ⟨hdistinct, fun j hj => ?_⟩
  have hold (hj : j ∈ w.jobs) : j.Uses ((w.perform m).host.Allows j.seat) :=
    (H.uses j hj).mono fun _ => allows_perform hregistered
  rcases hm with ⟨engines, platform, rfl⟩ | ⟨seat, hm⟩
  · exact hold hj
  · have huses := H.uses_of_on hm
    have hinner (huses : w.Uses seat (w.host.Allows seat) m) :
        j.Uses ((w.perform m).host.Allows j.seat) := by
      rcases mem_jobs_perform (fun _ => H.distinct.allows_of_registered?) huses hj with
        hj | ⟨rfl, hu⟩
      · exact hold hj
      · exact hu.mono fun _ => allows_perform hregistered
    cases m with
    | outside => exact hm.elim
    | attach | attachFiles | drop => exact hold hj
    | _ => exact hinner (huses (by simp) (by simp) (by simp))

/-- Along a run of moves for engines with distinct identities, the engines stay isolated. -/
theorem Isolated.run (H : w.Isolated) {ms : List (Move E)} (hms : w.Along OnSome ms) :
    (w.run ms).Isolated := by
  induction ms generalizing w with
  | nil => exact H
  | cons m ms ih => exact ih (H.perform hms.1) hms.2

end World

/-! ### Attaching in hosts that look the same -/

namespace Host

variable {h k : Host E} {seat : Seat} {id : RuntimeId} {P : RuntimeId → Prop}

theorem LooksSame.mono {Q : RuntimeId → Prop} (H : LooksSame seat P h k) (hPQ : ∀ id, Q id → P id)
    (hQ : ∀ id, h.registered? seat = some id → Q id) : LooksSame seat Q h k :=
  { H with runtimes_eq := fun id hid => H.runtimes_eq id (hPQ id hid), registered_mem := hQ }

theorem LooksSame.contains_entry_eq (H : LooksSame seat P h k) :
    (k.registry seat).contains (k.profiles seat).identity =
      (h.registry seat).contains (h.profiles seat).identity := by
  rw [contains_eq_isSome, contains_eq_isSome, H.registered_eq]

/-- A new runtime is entered alike. -/
theorem LooksSame.enrolled (H : LooksSame seat P h k) (hnew : P ⟨h.nextRuntime⟩) (config : Config)
    (resolver : Resolver) :
    (k.enrolled seat config resolver).1 = (h.enrolled seat config resolver).1 ∧
      LooksSame seat P (h.enrolled seat config resolver).2 (k.enrolled seat config resolver).2 := by
  have hfirst : (k.enrolled seat config resolver).1 = (h.enrolled seat config resolver).1 := by
    simp only [Host.enrolled, H.engines_eq]
  refine ⟨hfirst, ⟨?_, H.platform_eq, H.nextTimer_eq, ?_, H.profile_eq, ?_, H.held_eq,
    fun id hid => ?_, fun id hid => ?_⟩⟩
  · simp only [Host.enrolled, Host.put, withRegistry, H.engines_eq]
  · simp only [Host.enrolled, Host.put, withRegistry, H.nextRuntime_eq]
  · rw [registered?_enrolled, registered?_enrolled, H.nextRuntime_eq]
  · rw [get?_enrolled, get?_enrolled, H.nextRuntime_eq, H.profile_eq, hfirst, H.runtimes_eq id hid]
  · rw [registered?_enrolled] at hid
    exact Option.some.inj hid ▸ hnew

/-- A runtime is taken away alike. -/
theorem LooksSame.detach (H : LooksSame seat P h k) (id : RuntimeId) :
    LooksSame seat P (h.detach seat id) (k.detach seat id) := by
  have hnone (g : Host E) : (g.detach seat id).registered? seat = none := by
    change ((g.detach seat id).registryOf (g.profiles seat).registry).entries.get? _ = none
    rw [registryOf_detach, if_pos rfl]
    exact Table.get?_erase_self ..
  refine ⟨H.engines_eq, H.platform_eq, H.nextTimer_eq, H.nextRuntime_eq, H.profile_eq, ?_,
    H.held_eq, fun id' hid' => ?_, fun id' hid' => ?_⟩
  · rw [hnone, hnone]
  · rw [get?_detach, get?_detach, H.runtimes_eq id' hid']
  · rw [hnone] at hid'
    cases hid'

theorem LooksSame.drop (H : LooksSame seat P h k) :
    LooksSame seat P (h.drop seat) (k.drop seat) := by
  rw [Host.drop, Host.drop, H.held_eq]
  split
  · refine { H.detach _ with held_eq := ?_ }
    simp only [Table.get?_erase_self]
  · exact H

/-- What becomes of a new runtime becomes of it alike. -/
theorem LooksSame.settled (H : LooksSame seat P h k) (id : RuntimeId)
    (r : Except (Exception E.Value) Unit) :
    (Host.settled seat id (r, k)).1 = (Host.settled seat id (r, h)).1 ∧
      LooksSame seat P (Host.settled seat id (r, h)).2 (Host.settled seat id (r, k)).2 := by
  cases r with
  | ok _ =>
    refine ⟨rfl, { H with held_eq := ?_ }⟩
    simp only [Host.settled, Table.get?_insert_self]
  | error e => exact ⟨rfl, H.detach id⟩

/-- Attaching a runtime is the same in hosts that look the same. -/
theorem LooksSame.attach (H : LooksSame seat P h k) (hnew : P ⟨h.nextRuntime⟩) (config : Config)
    (resolver : Resolver) :
    (k.attach seat config resolver).1 = (h.attach seat config resolver).1 ∧
      LooksSame seat P (h.attach seat config resolver).2 (k.attach seat config resolver).2 := by
  have hcontains := H.contains_entry_eq
  cases hentry : (h.registry seat).contains (h.profiles seat).identity with
  | true =>
    rw [attach_of_contains hentry, attach_of_contains (hcontains.trans hentry), H.engines_eq,
      H.profile_eq]
    exact ⟨rfl, (H.aside_engines _).looks⟩
  | false =>
    rw [attach_of_new hentry, attach_of_new (hcontains.trans hentry), H.nextRuntime_eq]
    obtain ⟨hrequire, He⟩ := H.enrolled hnew config resolver
    obtain ⟨hr, Hi⟩ := Install.runtime_keepsTo hnew config
      (h.enrolled seat config resolver).1 He
    rw [hrequire]
    revert hr Hi
    generalize Install.runtime _ config _ seat (h.enrolled seat config resolver).2 = p
    generalize Install.runtime _ config _ seat (k.enrolled seat config resolver).2 = q
    obtain ⟨r, h₂⟩ := p
    obtain ⟨r', k₂⟩ := q
    rintro (rfl : r' = r) Hi
    exact Hi.looks.settled _ r'

theorem LooksSame.attachFiles (H : LooksSame seat P h k) (hnew : P ⟨h.nextRuntime⟩)
    (config : Config) :
    (k.attachFiles seat config).1 = (h.attachFiles seat config).1 ∧
      LooksSame seat P (h.attachFiles seat config).2 (k.attachFiles seat config).2 := by
  rw [Host.attachFiles, Host.attachFiles, H.platform_eq]
  split
  · exact H.attach hnew ..
  · split
    · exact H.attach hnew ..
    · exact ⟨rfl, H⟩

end Host

/-! ### What the others cannot be seen to do -/

namespace World

variable {w v : World E} {m : Move E} {seat : Seat}

/-- From the seat of an engine two worlds look the same: the engines, the platform, the numbering of
timers and runtimes, what belongs to the engine, and its jobs. The runtimes of other engines may
differ in any way. -/
abbrev SeemsSame (seat : Seat) (w v : World E) : Prop :=
  LooksSame seat (fun id => w.host.Spares seat id ∧ v.host.Spares seat id) w v

/-- What is held for no other engine after a move was held for no other before. -/
theorem Isolated.spares_of_perform (H : w.Isolated) (hm : w.On seat m) {id : RuntimeId}
    (hid : (w.perform m).host.Spares seat id) : w.host.Spares seat id := by
  intro seat' hs
  by_contra hne
  exact hne (hid seat' ((H.leavesAlone hm hne).held_eq.trans hs))

theorem Uses.mono {P Q : RuntimeId → Prop} (hw : w.Uses seat P m) (hPQ : ∀ id, P id → Q id) :
    w.Uses seat Q m := by
  cases m with
  | setTimer | clearTimer | nextTick | stop => exact hPQ _ hw
  | start errand => exact ⟨hw.1, fun owner ho => hPQ _ (hw.2 owner ho)⟩
  | step i => exact fun j hj => ⟨(hw j hj).1, (hw j hj).2.mono hPQ⟩
  | outside | attach | attachFiles | drop => exact hw.elim

/-- A move that uses runtimes of one set in one world and of another set in the other uses those in
both. -/
theorem Uses.inter {P : RuntimeId → Prop} (H : LooksSame seat P w v) {Pw Pv : RuntimeId → Prop}
    (hw : w.Uses seat Pw m) (hv : v.Uses seat Pv m) : w.Uses seat (fun id => Pw id ∧ Pv id) m := by
  cases m with
  | setTimer | clearTimer | nextTick | stop => exact ⟨hw, hv⟩
  | start errand => exact ⟨hw.1, fun owner ho => ⟨hw.2 owner ho, hv.2 owner ho⟩⟩
  | step i =>
    intro j hj
    obtain ⟨hs, hu⟩ := hw j hj
    have hu' := (hv j ((H.jobs_iff i j hs).2 hj)).2
    exact ⟨hs, fun owner ho => ⟨hu.task owner ho, hu'.task owner ho⟩,
      fun l hl => ⟨hu.loadings l hl, hu'.loadings l hl⟩⟩
  | outside | attach | attachFiles | drop => exact hw.elim

/-- A move that is made for an engine in one world is made for it in one that looks the same. -/
theorem On.of_looksSame {P : RuntimeId → Prop} (H : LooksSame seat P w v) (hm : w.On seat m) :
    v.On seat m := by
  cases m with
  | outside => exact hm
  | attach | attachFiles | drop => exact hm
  | setTimer | clearTimer | nextTick | stop => exact H.hosts.held_eq.trans hm
  | start errand => exact ⟨hm.1, fun owner ho => H.hosts.held_eq.trans (hm.2 owner ho)⟩
  | step i =>
    intro j hj
    have hlt : i < w.jobs.length := H.length_eq ▸ (List.getElem?_eq_some_iff.1 hj).1
    have hw : w.jobs[i]? = some w.jobs[i] := List.getElem?_eq_getElem hlt
    have hs := hm _ hw
    obtain rfl := Option.some.inj (hj.symm.trans ((H.jobs_iff i _ hs).2 hw))
    exact hs

theorem Isolated.spares_nextRuntime (H : w.Isolated) : w.host.Spares seat ⟨w.host.nextRuntime⟩ :=
  fun _ hs => absurd (H.distinct.registered.held_lt _ _ hs) (Nat.lt_irrefl _)

/-- A move for one engine is the same in worlds that look the same from its seat: nothing that
belongs to the others makes a difference to it. -/
theorem Isolated.seemsSame_perform (Hw : w.Isolated) (Hv : v.Isolated) (H : SeemsSame seat w v)
    (hw : w.On seat m) : SeemsSame seat (w.perform m) (v.perform m) := by
  have hv : v.On seat m := hw.of_looksSame H
  have hdistinct := (Hw.perform (.inr ⟨seat, hw⟩)).distinct
  have hdistinct' := (Hv.perform (.inr ⟨seat, hv⟩)).distinct
  have hafter (H' : LooksSame seat (fun id => w.host.Spares seat id ∧ v.host.Spares seat id)
      (w.perform m) (v.perform m)) : SeemsSame seat (w.perform m) (v.perform m) := by
    refine ⟨H'.hosts.mono (fun id hid => ?_) fun id hid => ?_, H'.length_eq, H'.jobs_iff⟩
    · exact ⟨Hw.spares_of_perform hw hid.1, Hv.spares_of_perform hv hid.2⟩
    · exact ⟨(hdistinct.allows_of_registered? hid).2,
        (hdistinct'.allows_of_registered? (H'.hosts.registered_eq.trans hid)).2⟩
  have hnew : w.host.Spares seat ⟨w.host.nextRuntime⟩ ∧ v.host.Spares seat ⟨w.host.nextRuntime⟩ :=
    ⟨Hw.spares_nextRuntime, H.hosts.nextRuntime_eq ▸ Hv.spares_nextRuntime⟩
  have hinner (huses : w.Uses seat (w.host.Allows seat) m)
      (huses' : v.Uses seat (v.host.Allows seat) m) :
      SeemsSame seat (w.perform m) (v.perform m) :=
    hafter (perform_looksSame H ((Uses.inter H huses huses').mono fun _ hid =>
      ⟨hid.1.2, hid.2.2⟩)).1
  have huses := Hw.uses_of_on hw
  have huses' := Hv.uses_of_on hv
  cases m with
  | outside => exact hw.elim
  | attach seat₁ config resolver =>
    obtain rfl := hw
    exact hafter (H.of_hosts (H.hosts.attach hnew config resolver).2)
  | attachFiles seat₁ config =>
    obtain rfl := hw
    exact hafter (H.of_hosts (H.hosts.attachFiles hnew config).2)
  | drop seat₁ =>
    obtain rfl := hw
    exact hafter (H.of_hosts H.hosts.drop)
  | _ => exact hinner (huses (by simp) (by simp) (by simp)) (huses' (by simp) (by simp) (by simp))

/-! ### Handles -/

/-- No number names a live timer of two runtimes. -/
def Apart (w : World E) : Prop :=
  ∀ id id' d d', id ≠ id' → w.host.desk? id = some d → w.host.desk? id' = some d' →
    ∀ p ∈ d.2.loop.queue, ∀ p' ∈ d'.2.loop.queue, p.2 ≠ p'.2

/-- What is queued after a move was queued before, or it is a timer with a new number. -/
theorem queued_of_perform {id : RuntimeId} {d' : Desk E.Value}
    (hw : w.Reached) (hm : ∀ engines platform, m ≠ .outside engines platform)
    (hd : (w.perform m).host.desk? id = some d') {p : Time × TimerId} (hp : p ∈ d'.2.loop.queue) :
    (∃ d, w.host.desk? id = some d ∧ ∃ p₀ ∈ d.2.loop.queue, p₀.2 = p.2) ∨
      w.host.nextTimer ≤ p.2.val := by
  have hnext {id : RuntimeId} {d : Desk E.Value} (hd : w.host.desk? id = some d) :
      d.2.nextTimer = w.host.nextTimer := by
    obtain ⟨r, -, rfl⟩ := Option.map_eq_some_iff.1 hd
    rfl
  rcases (w.perform_inside_grows hm).desks id d' hd with ⟨d, hd₀, hturn⟩ | ⟨-, -, capacity, hs⟩
  · have hc := hw.coherent hd₀
    rw [← hnext hd₀]
    by_cases ho : ∃ now timer, w.handed m id = some (now, .timer timer)
    · obtain ⟨now, timer, ho⟩ := ho
      rw [ho] at hturn
      obtain ⟨met, -, hmem, -, -, hbehind⟩ := hturn.timer_spec hc
      rcases hbehind p hp with ⟨hold, -⟩ | ⟨heq, -⟩ | ⟨hle, -⟩
      · exact .inl ⟨d, hd₀, p, hold, rfl⟩
      · exact .inl ⟨d, hd₀, _, hmem, heq.symm⟩
      · exact .inr hle
    · have hfollows := hturn.follows hc fun now timer h => ho ⟨now, timer, h⟩
      rcases hfollows.queue p hp with hold | ⟨hle, -⟩
      · exact .inl ⟨d, hd₀, p, hold, rfl⟩
      · exact .inr hle
  · have hfollows := Desk.follows_of_shifts (Desk.coherent_fresh capacity _ _) hs
    rcases hfollows.queue p hp with hold | ⟨hle, -⟩
    · cases hold
    · exact .inr hle

/-- After a move for an engine a desk is that of its runtime, or its queue is as it was. -/
theorem Isolated.queue_of_perform (H : w.Isolated) (hm : w.On seat m) {id : RuntimeId}
    {d' : Desk E.Value} (hd : (w.perform m).host.desk? id = some d') :
    (w.perform m).host.held.get? seat = some id ∨
      ∃ d, w.host.desk? id = some d ∧ d'.2.loop.queue = d.2.loop.queue := by
  obtain ⟨r, hr, rfl⟩ := Option.map_eq_some_iff.1 hd
  have halive : (w.perform m).host.runtimes.contains id = true := by
    rw [← Table.isSome_get?, hr]
    rfl
  have hregistered := (H.perform (.inr ⟨seat, hm⟩)).distinct.registered
  obtain ⟨seat', hs⟩ := (hregistered.alive_iff id).1 halive
  by_cases hseat : seat' = seat
  · exact .inl (hseat ▸ hs)
  · have Ha := H.leavesAlone hm hseat
    rw [Ha.held_eq] at hs
    rw [Ha.runtimes_eq id hs] at hr
    exact .inr ⟨(r.scheduler, w.host.loopSeat r), desk?_of_get? hr, rfl⟩

/-- Moves for the engines keep the timers of runtimes apart: a new timer has a new number, and the
timers of the other runtimes stay as they are. -/
theorem Isolated.apart_perform (H : w.Isolated) (hw : w.Reached) (Ha : w.Apart)
    (hm : w.OnSome m) : (w.perform m).Apart := by
  intro id id' d d' hne hd hd' p hp p' hp' heq
  rcases hm with ⟨engines, platform, rfl⟩ | ⟨seat, hm⟩
  · rw [outside_desk?] at hd hd'
    obtain ⟨d₀, hd₀, rfl⟩ := Option.map_eq_some_iff.1 hd
    obtain ⟨d₀', hd₀', rfl⟩ := Option.map_eq_some_iff.1 hd'
    exact Ha id id' d₀ d₀' hne hd₀ hd₀' p hp p' hp' heq
  · have hinside (engines : E.State) (platform : Platform) : m ≠ .outside engines platform := by
      rintro rfl
      exact hm
    -- A queue that has changed holds old numbers of its own and new ones.
    have hmixed {id id' : RuntimeId} {d d₀' : Desk E.Value} (hne : id ≠ id')
        (hd : (w.perform m).host.desk? id = some d) (hd₀' : w.host.desk? id' = some d₀')
        {p p' : Time × TimerId} (hp : p ∈ d.2.loop.queue) (hp' : p' ∈ d₀'.2.loop.queue) :
        p.2 ≠ p'.2 := by
      intro heq
      rcases queued_of_perform hw hinside hd hp with ⟨d₀, hd₀, p₀, hp₀, he⟩ | hle
      · exact Ha id id' d₀ d₀' hne hd₀ hd₀' p₀ hp₀ p' hp' (he.trans heq)
      · have hlt := (hw.coherent hd₀').lt_of_mem hp'
        obtain ⟨r, -, rfl⟩ := Option.map_eq_some_iff.1 hd₀'
        rw [heq] at hle
        exact Nat.lt_irrefl _ (Nat.lt_of_lt_of_le hlt hle)
    rcases H.queue_of_perform hm hd with hs | ⟨d₀, hd₀, hq⟩
    · rcases H.queue_of_perform hm hd' with hs' | ⟨d₀', hd₀', hq'⟩
      · exact hne (Option.some.inj (hs.symm.trans hs'))
      · exact hmixed hne hd hd₀' hp (hq' ▸ hp') heq
    · exact hmixed hne.symm hd' hd₀ hp' (hq ▸ hp) heq.symm

theorem Isolated.apart_run (H : w.Isolated) (hw : w.Reached) (Ha : w.Apart) {ms : List (Move E)}
    (hms : w.Along OnSome ms) : (w.run ms).Apart := by
  induction ms generalizing w with
  | nil => exact Ha
  | cons m ms ih =>
    exact ih (H.perform hms.1) (hw.run [m]) (H.apart_perform hw Ha hms.1) hms.2

/-! ### Isolation -/

/-- Along every run of moves for engines with distinct identities, which may share a registry:

* a move for one engine leaves the runtimes, registry entries and jobs of the others alone;
* a native function that a job calls asks the runtime that is held for its engine, or throws and
  changes nothing if there is none;
* no number names a live timer of two runtimes;
* a move for one engine is the same in any two such worlds that look the same from its seat. -/
theorem runtimes_isolated {profiles : Seat → Profile}
    (hdistinct : Function.Injective fun seat => (profiles seat).identity) (engines : E.State)
    (platform : Platform) (ms : List (Move E))
    (hms : (initial engines platform profiles).Along OnSome ms) :
    let w := (initial engines platform profiles).run ms
    (∀ seat m, w.On seat m → ∀ seat', seat' ≠ seat →
      LeavesAlone seat' w.host (w.perform m).host ∧
        ∀ (i : Nat) (j : Job E), w.jobs[i]? = some j → j.seat = seat' →
          (w.perform m).jobs[i]? = some j) ∧
    (∀ m v r, w.invocation? m = some v → v.native.request? v.host.engines v.args = some r →
      v.host.attached v.job.seat = w.host.held.get? v.job.seat ∧
      v.native.invoke v.this v.args v.job.seat v.host =
        (Action.ofExcept r >>= Request.ask (w.host.held.get? v.job.seat)) v.job.seat v.host ∧
      (w.host.held.get? v.job.seat = none →
        ∃ e, v.native.invoke v.this v.args v.job.seat v.host = (.error e, v.host))) ∧
    w.Apart ∧
    ∀ engines' platform' profiles' ms',
      Function.Injective (fun seat => (profiles' seat).identity) →
      (initial engines' platform' profiles').Along OnSome ms' →
      let v := (initial engines' platform' profiles').run ms'
      ∀ seat m, SeemsSame seat w v → w.On seat m → SeemsSame seat (w.perform m) (v.perform m) := by
  intro w
  have H₀ := isolated_initial hdistinct engines platform
  have H : w.Isolated := H₀.run hms
  refine ⟨fun seat m hm seat' hne => ⟨H.leavesAlone hm hne, fun i j => jobs_of_on hm hne⟩,
    fun m v r hv hr => ?_, H₀.apart_run ⟨engines, platform, profiles, [], rfl⟩ ?_ hms,
    fun engines' platform' profiles' ms' hdistinct' hms' seat m Hs hm =>
      H.seemsSame_perform ((isolated_initial hdistinct' engines' platform').run hms') Hs hm⟩
  · have hattached := (attached_of_invocation? hv v.job.seat).trans (H.distinct.attached_eq _)
    refine ⟨hattached, ?_, fun hnone => ?_⟩
    · rw [Native.invoke_eq_ask hr, hattached]
    · exact Native.invoke_of_detached hr (hattached.trans hnone)
  · rintro id id' d d' - ⟨⟩

/-- A host of two form engines that share a registry. -/
def pair : World Script.engine :=
  initial ((Script.State.empty.seat [] [] []).seat [] [] []) {} fun seat => ⟨⟨seat + 1⟩, 0⟩

/-- A run in which runtimes are attached to both engines, and a timer is started for the first. -/
def pairRun : List (Move Script.engine) :=
  [.attach 0 {} (.ofFiles "/"), .attach 1 {} (.ofFiles "/"),
    .setTimer ⟨1⟩ .timeout .undefined .zero]

/-- If the second engine then cancels the timer of the first by its number, the timer stays. -/
theorem pairRun_isolated :
    ((pair.run pairRun).host.runtimes.get? ⟨1⟩).any (fun r => r.loop.live.contains ⟨1⟩) = true ∧
      ((pair.run pairRun).perform (.clearTimer ⟨2⟩ .timeout ⟨1⟩)).host.runtimes.get? ⟨1⟩ =
        (pair.run pairRun).host.runtimes.get? ⟨1⟩ := by
  have hdistinct : Function.Injective fun seat : Seat => (⟨seat + 1⟩ : EngineId) := by
    intro a b h
    simpa using h
  have hfacts : ((pair.run (pairRun.take 2)).host.held.get? 0 = some ⟨1⟩ ∧
      (pair.run pairRun).host.held.get? 0 = some ⟨1⟩ ∧
      (pair.run pairRun).host.held.get? 1 = some ⟨2⟩) ∧
      ((pair.run pairRun).host.runtimes.get? ⟨1⟩).any (fun r => r.loop.live.contains ⟨1⟩) = true :=
    by decide +kernel
  obtain ⟨⟨hset, hheld, hon⟩, hlive⟩ := hfacts
  have hms : pair.Along OnSome pairRun :=
    ⟨.inr ⟨0, rfl⟩, .inr ⟨1, rfl⟩, .inr ⟨0, hset⟩, trivial⟩
  have hisolated := runtimes_isolated hdistinct _ _ pairRun hms
  have hleft := hisolated.1 1 (.clearTimer ⟨2⟩ .timeout ⟨1⟩) hon 0 (by decide)
  exact ⟨hlive, hleft.1.runtimes_eq _ hheld⟩

end World

end ScriptHost
