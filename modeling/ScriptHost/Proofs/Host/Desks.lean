import ScriptHost.Proofs.Host.Steps
import ScriptHost.Proofs.Timer.Desk

/-!
# The desks of a host

Every runtime of a host has its desk. An action or a step of a job does at the desks what it is
asked to do, one deed at most at the desk of one runtime; a step may begin with a notification that
a loop hands out. Nothing else happens at a desk but that a loop is asked to stop or told to forget
a wakeup, that time goes by and that numbers are given to timers.

## Main definitions

* `Host.desk?`: the desk of a runtime.
* `Host.Does`, `Host.Arrives`: deeds have been done at the desks, with or without anything besides.
* `Host.Turns`: every desk has had a turn, and no runtime has come or gone.
* `Native.deed?`, `Invocation.deeds`: the deed that a native function is asked for.
* `Job.deeds`: the deeds of the next step of a job.

## Main results

* `Native.invoke_does`: native functions do what they are asked for.
* `Job.step_does`: a step begins with the notification that the job is handed, and then does what
  the native function that it calls is asked for.
-/

namespace ScriptHost

open Relation (ReflTransGen)

variable {E : Engine} {α : Type}

namespace Host

/-- The desk of a runtime. -/
def desk? (h : Host E) (id : RuntimeId) : Option (Desk E.Value) :=
  (h.runtimes.get? id).map fun r => (r.scheduler, h.loopSeat r)

theorem desk?_of_get? {h : Host E} {id : RuntimeId} {r : Runtime E}
    (hr : h.runtimes.get? id = some r) : h.desk? id = some (r.scheduler, h.loopSeat r) := by
  rw [desk?, hr]
  rfl

/-- What has happened at the desks, given what their loops have handed out first: a turn at each of
them, and no runtime has come or gone. -/
structure Turns (o : RuntimeId → Option (Time × Notification)) (h h' : Host E) : Prop where
  desks : ∀ id, Option.Rel (Desk.Turn (o id)) (h.desk? id) (h'.desk? id)
  clock_le : h.platform.clock ≤ h'.platform.clock
  nextTimer_le : h.nextTimer ≤ h'.nextTimer
  nextRuntime_eq : h'.nextRuntime = h.nextRuntime

/-- These deeds have been done at the desks, and nothing has come about besides. -/
structure Arrives (as : RuntimeId → List (Desk.Deed E.Value)) (h h' : Host E) : Prop where
  desks : ∀ id, h'.desk? id = (h.desk? id).map fun d => d.performAll (as id)
  clock_eq : h'.platform.clock = h.platform.clock
  nextTimer_eq : h'.nextTimer = h.nextTimer
  nextRuntime_eq : h'.nextRuntime = h.nextRuntime

/-- These deeds have been done at the desks, and no runtime has come or gone. -/
structure Does (as : RuntimeId → List (Desk.Deed E.Value)) (h h' : Host E) : Prop where
  desks : ∀ id, Option.Rel (Desk.After (as id)) (h.desk? id) (h'.desk? id)
  clock_le : h.platform.clock ≤ h'.platform.clock
  nextTimer_le : h.nextTimer ≤ h'.nextTimer
  nextRuntime_eq : h'.nextRuntime = h.nextRuntime

/-- Nothing has happened at the desks. -/
abbrev SameDesks : Host E → Host E → Prop := Arrives fun _ => []

/-- Deeds at one desk, if at any. -/
def deedsAt (o : Option RuntimeId) (as : List (Desk.Deed E.Value)) (id : RuntimeId) :
    List (Desk.Deed E.Value) :=
  if o = some id then as else []

variable {as bs : RuntimeId → List (Desk.Deed E.Value)} {h h₁ h' : Host E} {id : RuntimeId}

@[simp]
theorem deedsAt_self (id : RuntimeId) (as : List (Desk.Deed E.Value)) :
    deedsAt (some id) as id = as :=
  if_pos rfl

theorem deedsAt_of_ne {o : Option RuntimeId} (ho : o ≠ some id) (as : List (Desk.Deed E.Value)) :
    deedsAt o as id = [] :=
  if_neg ho

@[simp]
theorem deedsAt_nil (o : Option RuntimeId) :
    deedsAt o [] = fun _ => ([] : List (Desk.Deed E.Value)) :=
  funext fun _ => ite_self _

@[simp]
theorem deedsAt_none (as : List (Desk.Deed E.Value)) : deedsAt none as = fun _ => [] :=
  funext fun _ => if_neg nofun

/-! ### Deeds one after the other -/

theorem SameDesks.of_desks (hd : ∀ id, h'.desk? id = h.desk? id)
    (hclock : h'.platform.clock = h.platform.clock) (htimer : h'.nextTimer = h.nextTimer)
    (hruntime : h'.nextRuntime = h.nextRuntime) : h.SameDesks h' := by
  refine ⟨fun id => ?_, hclock, htimer, hruntime⟩
  rw [hd]
  exact Option.map_id'.symm

theorem SameDesks.desk?_eq (H : h.SameDesks h') (id : RuntimeId) : h'.desk? id = h.desk? id :=
  (H.desks id).trans Option.map_id'

instance : IsPreorder (Host E) SameDesks where
  refl _ := .of_desks (fun _ => rfl) rfl rfl rfl
  trans _ _ _ H H' := .of_desks (fun id => (H'.desk?_eq id).trans (H.desk?_eq id))
    (H'.clock_eq.trans H.clock_eq) (H'.nextTimer_eq.trans H.nextTimer_eq)
    (H'.nextRuntime_eq.trans H.nextRuntime_eq)

theorem Aside.sameDesks (H : h.Aside h') : h.SameDesks h' := by
  obtain ⟨engines, platform, hclock, rfl⟩ := H
  refine .of_desks (fun id => ?_) hclock rfl rfl
  simp only [desk?, loopSeat, hclock]

/-- What has been done first may be followed by more. -/
theorem Arrives.trans_does (H : h.Arrives as h₁) (H' : h₁.Does bs h') :
    h.Does (fun id => as id ++ bs id) h' := by
  refine ⟨fun id => ?_, H.clock_eq ▸ H'.clock_le, H.nextTimer_eq ▸ H'.nextTimer_le,
    H'.nextRuntime_eq.trans H.nextRuntime_eq⟩
  have hd' := H'.desks id
  rw [H.desks id] at hd'
  revert hd'
  generalize h.desk? id = d
  generalize h'.desk? id = d'
  intro hd'
  cases d with
  | none =>
    cases hd'
    exact .none
  | some d =>
    cases hd' with
    | some hafter =>
      refine .some ?_
      rw [Desk.After, Desk.performAll, List.foldl_append]
      exact hafter

theorem Does.refl (h : Host E) : h.Does (fun _ => []) h := by
  refine ⟨fun id => ?_, Nat.le_refl _, Nat.le_refl _, rfl⟩
  cases h.desk? id with
  | none => exact .none
  | some d => exact .some .refl

theorem SameDesks.trans_does (H : h.SameDesks h₁) (H' : h₁.Does as h') : h.Does as h' :=
  Arrives.trans_does H H'

theorem SameDesks.does (H : h.SameDesks h') : h.Does (fun _ => []) h' :=
  H.trans_does (.refl h')

theorem Does.trans_same (H : h.Does as h₁) (H' : h₁.SameDesks h') : h.Does as h' := by
  refine ⟨fun id => ?_, H'.clock_eq ▸ H.clock_le, H'.nextTimer_eq ▸ H.nextTimer_le,
    H'.nextRuntime_eq.trans H.nextRuntime_eq⟩
  rw [H'.desk?_eq id]
  exact H.desks id

theorem Arrives.trans_same (H : h.Arrives as h₁) (H' : h₁.SameDesks h') : h.Arrives as h' :=
  ⟨fun id => (H'.desk?_eq id).trans (H.desks id), H'.clock_eq.trans H.clock_eq,
    H'.nextTimer_eq.trans H.nextTimer_eq, H'.nextRuntime_eq.trans H.nextRuntime_eq⟩

/-- A desk that is there afterwards is that of a runtime that was there. -/
theorem Does.of_some (H : h.Does as h') {d' : Desk E.Value} (hd : h'.desk? id = some d') :
    ∃ d, h.desk? id = some d ∧ Desk.After (as id) d d' := by
  have hr := H.desks id
  rw [hd] at hr
  revert hr
  generalize h.desk? id = d
  rintro (ht | _)
  exact ⟨_, rfl, ht⟩

/-- Deeds after at most one that hands out a notification are turns. -/
theorem Does.turns {o : RuntimeId → Option (Time × Notification)}
    (H : h.Does (fun id => (o id).toList.map (fun p => .hand p.1) ++ as id) h')
    (ho : ∀ id now n d, o id = some (now, n) → h.desk? id = some d →
      ∃ d₁, d.handOut now = some (n, d₁)) (has : ∀ id now, .hand now ∉ as id) : h.Turns o h' := by
  refine ⟨fun id => ?_, H.clock_le, H.nextTimer_le, H.nextRuntime_eq⟩
  have hr := H.desks id
  have ho := ho id
  revert hr ho
  generalize h.desk? id = d
  generalize h'.desk? id = d'
  rintro (ht | _) ho
  · exact .some (ht.turn (fun now n hn => ho now n _ hn rfl) (has id))
  · exact .none

/-- A desk that was there has had its turn and stays. -/
theorem Turns.of_some_left {o : RuntimeId → Option (Time × Notification)} (H : h.Turns o h')
    {d : Desk E.Value} (hd : h.desk? id = some d) :
    ∃ d', h'.desk? id = some d' ∧ Desk.Turn (o id) d d' := by
  have hr := H.desks id
  rw [hd] at hr
  revert hr
  generalize h'.desk? id = d'
  rintro (ht | _)
  exact ⟨_, rfl, ht⟩

/-! ### Changing one runtime -/

/-- The desk of another runtime, when numbers have been given and time has gone by. -/
theorem optionRel_elapse {t : Time} {n : Nat} (ht : h.platform.clock ≤ t)
    (hn : h.nextTimer ≤ n) (o : Option (Runtime E)) :
    Option.Rel (Desk.After []) (o.map fun r => (r.scheduler, h.loopSeat r))
      (o.map fun r => (r.scheduler, ⟨r.loop, t, n⟩)) := by
  cases o with
  | none => exact .none
  | some r => exact .some (.single (.elapse (r.scheduler, h.loopSeat r) ht hn))

/-- A runtime has changed, and with it the clock and the numbering of timers. -/
theorem Does.of_put {r r' : Runtime E} {t : Time} {n : Nat} {as : List (Desk.Deed E.Value)}
    (hr : h.runtimes.get? id = some r) (ht : h.platform.clock ≤ t) (hn : h.nextTimer ≤ n)
    (hd : Desk.After as (r.scheduler, h.loopSeat r) (r'.scheduler, ⟨r'.loop, t, n⟩)) :
    h.Does (deedsAt (some id) as) ({ h.put id r' with nextTimer := n }.setClock t) := by
  refine ⟨fun id' => ?_, ht, hn, rfl⟩
  simp only [desk?, setClock, put, Table.get?_insert]
  by_cases hid : id' = id
  · subst hid
    rw [if_pos rfl, hr, deedsAt_self]
    exact .some hd
  · rw [if_neg hid, deedsAt_of_ne fun he => hid (Option.some.inj he).symm]
    exact optionRel_elapse ht hn _

/-- A runtime has changed, and neither the clock nor the numbering of timers has. -/
theorem Arrives.of_put {r r' : Runtime E} {t : Time} {n : Nat} {as : List (Desk.Deed E.Value)}
    (hr : h.runtimes.get? id = some r) (ht : t = h.platform.clock) (hn : n = h.nextTimer)
    (hd : (r'.scheduler, ⟨r'.loop, t, n⟩) = Desk.performAll (r.scheduler, h.loopSeat r) as) :
    h.Arrives (deedsAt (some id) as) ({ h.put id r' with nextTimer := n }.setClock t) := by
  refine ⟨fun id' => ?_, ht, hn, rfl⟩
  simp only [desk?, setClock, put, Table.get?_insert]
  by_cases hid : id' = id
  · subst hid
    rw [if_pos rfl, hr, deedsAt_self]
    exact congrArg some hd
  · rw [if_neg hid, deedsAt_of_ne fun he => hid (Option.some.inj he).symm]
    subst ht hn
    exact Option.map_id'.symm

theorem SameDesks.put {r r' : Runtime E} (hr : h.runtimes.get? id = some r)
    (hs : r'.scheduler = r.scheduler) (hl : r'.loop = r.loop) : h.SameDesks (h.put id r') := by
  have H : h.Arrives (deedsAt (some id) []) (h.put id r') :=
    .of_put hr rfl rfl (by rw [hs, hl]; rfl)
  rwa [deedsAt_nil] at H

theorem SameDesks.update {f : Runtime E → Runtime E} (hs : ∀ r, (f r).scheduler = r.scheduler)
    (hl : ∀ r, (f r).loop = r.loop) : h.SameDesks (h.update id f) := by
  rw [Host.update]
  split
  · next r hr => exact .put hr (hs r) (hl r)
  · exact refl_of SameDesks h

/-- The loop of a runtime is asked to stop. -/
theorem Does.update_stop {f : Runtime E → Runtime E} (hs : ∀ r, (f r).scheduler = r.scheduler)
    (hl : ∀ r, (f r).loop = r.loop.stop) : h.Does (fun _ => []) (h.update id f) := by
  rw [Host.update]
  split
  · next r hr =>
    rw [← deedsAt_nil (some id)]
    refine .of_put hr (Nat.le_refl _) (Nat.le_refl _) (.single ?_)
    rw [hs, hl]
    exact .stop (r.scheduler, h.loopSeat r)
  · exact .refl h

theorem stopLoop_does (h : Host E) (id : RuntimeId) : h.Does (fun _ => []) (h.stopLoop id) :=
  .update_stop (fun _ => rfl) fun _ => rfl

theorem exit_does (h : Host E) (id : RuntimeId) (code : Int) :
    h.Does (fun _ => []) (h.exit id code) :=
  .update_stop (fun _ => rfl) fun _ => rfl

/-- Nothing is done at the desk of a runtime that is not there. -/
theorem Does.of_absent (hr : h.runtimes.get? id = none) (as : List (Desk.Deed E.Value)) :
    h.Does (deedsAt (some id) as) h := by
  refine ⟨fun id' => ?_, Nat.le_refl _, Nat.le_refl _, rfl⟩
  by_cases hid : id = id'
  · subst hid
    rw [desk?, hr]
    exact .none
  · rw [deedsAt_of_ne fun he => hid (Option.some.inj he)]
    exact (Does.refl h).desks id'

/-- A function of the scheduler and its loop is used that does some deeds. -/
theorem scheduling?_does {f : Scheduler E.Value → LoopSeat → α × Scheduler E.Value × LoopSeat}
    {as : List (Desk.Deed E.Value)} (has : ∀ now, .hand now ∉ as)
    (hf : ∀ s l, (f s l).2 = Desk.performAll (s, l) as) (h : Host E) (id : RuntimeId) :
    h.Does (deedsAt (some id) as) (((h.scheduling? id f).map Prod.snd).getD h) := by
  rw [scheduling?]
  rcases hr : h.runtimes.get? id with _ | r
  · exact .of_absent hr _
  · have hd := hf r.scheduler (h.loopSeat r)
    have hclock := Desk.clock_performAll (r.scheduler, h.loopSeat r) has
    have hnext := Desk.nextTimer_le_performAll (r.scheduler, h.loopSeat r) has
    rw [← hd] at hclock hnext
    refine .of_put hr (Nat.le_refl _) hnext ?_
    change ReflTransGen Desk.Drift (Desk.performAll _ as) (_, ⟨_, (h.loopSeat r).clock, _⟩)
    change _ = (h.loopSeat r).clock at hclock
    rw [← hd, ← hclock]

/-! ### Notifications -/

/-- The callback of a notification is taken. -/
theorem takeCallback_arrives (h : Host E) (id : RuntimeId) (n : Notification) :
    h.Arrives (deedsAt (some id) [.take n]) (h.takeCallback id n).2 := by
  rw [takeCallback, scheduling?]
  rcases hr : h.runtimes.get? id with _ | r
  · refine ⟨fun id' => ?_, rfl, rfl, rfl⟩
    by_cases hid : id = id'
    · subst hid
      simp only [Option.map_none, Option.getD_none, desk?, hr]
    · rw [deedsAt_of_ne fun he => hid (Option.some.inj he)]
      exact Option.map_id'.symm
  · have hclock := Desk.take_clock r.scheduler (h.loopSeat r) n
    have hnext := Desk.take_nextTimer r.scheduler (h.loopSeat r) n
    refine .of_put hr rfl hnext ?_
    change (_, (⟨_, (h.loopSeat r).clock, _⟩ : LoopSeat)) = _
    rw [← hclock]
    rfl

/-- What the loop of a runtime hands out is handed out at its desk. -/
theorem takeNext_desk {now : Time} {n : Notification} (hn : h.takeNext id now = some (n, h₁)) :
    ∃ d d₁, h.desk? id = some d ∧ d.handOut now = some (n, d₁) ∧
      h.Arrives (deedsAt (some id) [.hand now]) (h₁.takeCallback id n).2 := by
  rw [Host.takeNext] at hn
  obtain ⟨r, hr, hn⟩ := Option.bind_eq_some_iff.1 hn
  split at hn
  · cases hn
  · next hstop =>
    obtain ⟨⟨n', l⟩, hpoll, he⟩ := Option.map_eq_some_iff.1 hn
    obtain ⟨rfl, rfl⟩ := Prod.mk.inj he
    have hd := desk?_of_get? hr
    have hout : Desk.handOut (r.scheduler, h.loopSeat r) now =
        some (n', (r.scheduler, { h.loopSeat r with loop := l })) := by
      change (if r.loop.stopped then none else (r.loop.poll now).map _) = _
      rw [if_neg hstop, hpoll]
      rfl
    refine ⟨_, _, hd, hout, ?_⟩
    have H := (h.put id { r with loop := l }).takeCallback_arrives id n'
    refine ⟨fun id' => ?_, H.clock_eq, H.nextTimer_eq, H.nextRuntime_eq⟩
    rw [H.desks id']
    by_cases hid : id = id'
    · subst hid
      rw [hd, deedsAt_self, deedsAt_self]
      simp only [desk?, put, Table.get?_insert_self, Option.map_some, Desk.performAll,
        List.foldl_cons, List.foldl_nil, Desk.perform, hout]
      rfl
    · rw [deedsAt_of_ne fun he => hid (Option.some.inj he),
        deedsAt_of_ne fun he => hid (Option.some.inj he)]
      simp only [desk?, put, Table.get?_insert, if_neg (Ne.symm hid)]
      rfl

end Host

open ScriptHost.Action (Within)
open Host HostAction

/-! ### Actions that do nothing at the desks -/

namespace HostAction

theorem ofEngines_sameDesks (x : EngineAction E α) : Within SameDesks (ofEngines x) :=
  (ofEngines_aside x).mono fun _ _ => Aside.sameDesks

theorem attached_sameDesks : Within SameDesks (attached : HostAction E RuntimeId) :=
  .of_eq attached_eq

end HostAction

namespace Loading

theorem ask_sameDesks (owner : RuntimeId) (q : Question) :
    Within SameDesks (ask owner q : HostAction E ResolvedModule) := by
  intro seat h
  rw [ask]
  split
  · exact refl_of SameDesks h
  · next r hr => exact .put hr rfl rfl

theorem tables_sameDesks (owner : RuntimeId) :
    Within SameDesks (tables owner : HostAction E (ModuleTable E.Value)) :=
  .of_eq fun _ _ => rfl

theorem find_sameDesks (owner : RuntimeId) (q : Question) :
    Within SameDesks (find owner q : HostAction E (Origin E.Value)) := by
  refine (tables_sameDesks owner).bind fun table => ?_
  split
  · exact .pure _
  · split
    · exact .pure _
    · refine (ask_sameDesks owner q).bind fun m => (tables_sameDesks owner).bind fun table => ?_
      split <;> exact .pure _

theorem changeTables_sameDesks (owner : RuntimeId)
    (f : ModuleTable E.Value → ModuleTable E.Value) :
    Within SameDesks (changeTables owner f : HostAction E Unit) :=
  fun _ _ => .update (fun _ => rfl) fun _ => rfl

theorem enter_sameDesks (owner : RuntimeId) (m : ResolvedModule) (require : E.Value) :
    Within SameDesks (enter owner m require) :=
  (ofEngines_sameDesks _).bind fun _ => (ofEngines_sameDesks _).bind fun _ =>
    (ofEngines_sameDesks _).bind fun _ => (changeTables_sameDesks _ _).bind fun _ => .pure _

theorem require_sameDesks (owner : RuntimeId) (q : Question) :
    Within SameDesks (require owner q : HostAction E (Reply E)) := by
  refine (find_sameDesks owner q).bind fun origin => ?_
  cases origin with
  | native exports => exact .pure _
  | object object => exact (ofEngines_sameDesks _).bind fun _ => .pure _
  | resolved m =>
    refine Within.bind (.of_eq fun _ _ => rfl) fun _ => ?_
    exact (enter_sameDesks owner m _).bind fun _ => .pure _

theorem resolve_sameDesks (owner : RuntimeId) (q : Question) :
    Within SameDesks (resolve owner q : HostAction E String) := by
  refine (tables_sameDesks owner).bind fun table => ?_
  split
  · exact .pure _
  · exact (ask_sameDesks owner q).bind fun _ => .pure _

theorem cache_sameDesks {h h' : Host E} {l : Loading E.Value} (hc : l.cache? h = some h') :
    h.SameDesks h' := by
  rw [cache?] at hc
  split at hc
  · obtain rfl := Option.some.inj hc
    exact refl_of SameDesks h
  · next r hr =>
    obtain ⟨modules, -, rfl⟩ := Option.map_eq_some_iff.1 hc
    exact .put hr rfl rfl

end Loading

theorem ModuleFunction.invoke_sameDesks (f : ModuleFunction) (args : List E.Value) :
    Within SameDesks (f.invoke args) := by
  cases f with
  | require =>
    exact (Within.ofExcept _).bind fun q => attached_sameDesks.bind fun id =>
      Loading.require_sameDesks id q
  | resolve =>
    exact (Within.ofExcept _).bind fun q => attached_sameDesks.bind fun id =>
      (Loading.resolve_sameDesks id q).bind fun _ => .pure _

/-! ### Native functions -/

/-- The deed that a native function is asked for by its arguments. -/
def Native.deed? (f : Native) (s : E.State) (args : List E.Value) : Option (Desk.Deed E.Value) :=
  match f with
  | .timer (.set kind) =>
    match Arguments.callable E s args 0 kind.setter "callback",
      Arguments.number E args 1 kind.setter "delay" with
    | .ok callback, .ok delay => some (.set kind callback delay)
    | _, _ => none
  | .timer (.clear kind) =>
    match Arguments.number E args 0 kind.clearer "id" with
    | .ok handle => (TimerId.ofHandle? handle).map (.clear kind)
    | .error _ => none
  | .process .nextTick =>
    match Arguments.callable E s args 0 "process.nextTick" "callback" with
    | .ok callback => some (.tick callback)
    | .error _ => none
  | _ => none

/-- No native function delivers a notification. -/
theorem Native.deed?_isAsked {f : Native} {s : E.State} {args : List E.Value}
    {a : Desk.Deed E.Value} (ha : f.deed? s args = some a) : a.IsAsked := by
  unfold deed? at ha
  split at ha
  · split at ha
    · obtain rfl := Option.some.inj ha
      trivial
    · cases ha
  · split at ha
    · obtain ⟨id, -, rfl⟩ := Option.map_eq_some_iff.1 ha
      trivial
    · cases ha
  · split at ha
    · obtain rfl := Option.some.inj ha
      trivial
    · cases ha
  · cases ha

/-- A function of the scheduler of the attached runtime is used that does some deeds. -/
theorem HostAction.scheduling_does
    {f : Scheduler E.Value → LoopSeat → α × Scheduler E.Value × LoopSeat}
    {as : List (Desk.Deed E.Value)} (has : ∀ now, .hand now ∉ as)
    (hf : ∀ s l, (f s l).2 = Desk.performAll (s, l) as) (seat : Seat) (h : Host E) :
    h.Does (deedsAt (h.attached seat) as) (scheduling f seat h).2 := by
  rw [scheduling]
  cases h.attached seat with
  | none =>
    rw [deedsAt_none]
    exact .refl h
  | some id =>
    have H := scheduling?_does has hf h id
    rw [Option.bind_some]
    rcases hs : h.scheduling? id f with _ | ⟨x, h'⟩ <;> rw [hs] at H <;> exact H

/-- What follows an action and does nothing at the desks. -/
theorem Host.Does.bind {β : Type} {as : RuntimeId → List (Desk.Deed E.Value)} {h : Host E}
    {seat : Seat} {x : HostAction E α} {f : α → HostAction E β} (H : h.Does as (x seat h).2)
    (hf : ∀ a, (f a).Within SameDesks) : h.Does as ((x >>= f) seat h).2 := by
  rw [Action.bind_def]
  revert H
  rcases x seat h with ⟨e | a, h'⟩
  · exact id
  · exact fun H => H.trans_same (hf a seat h')

/-- What follows a check. -/
theorem Host.Does.check {β : Type} {as : RuntimeId → List (Desk.Deed E.Value)} {h : Host E}
    {seat : Seat} {r : Except Fault α} {f : α → HostAction E β}
    (herror : ∀ e, r = .error e → as = fun _ => [])
    (hok : ∀ a, r = .ok a → h.Does as (f a seat h).2) :
    h.Does as ((Action.ofExcept r >>= f) seat h).2 := by
  cases r with
  | error e =>
    rw [herror e rfl]
    exact .refl h
  | ok a => exact hok a rfl

theorem TimerFunction.invoke_does (f : TimerFunction) (args : List E.Value) (seat : Seat)
    (h : Host E) : h.Does (deedsAt (h.attached seat) ((Native.timer f).deed? h.engines args).toList)
      (f.invoke args seat h).2 := by
  cases f with
  | set kind =>
    refine Does.check (fun e he => ?_) fun callback hcallback =>
      Does.check (fun e he => ?_) fun delay hdelay => ?_
    · simp [Native.deed?, he]
    · simp [Native.deed?, he]
    · simp only [Native.deed?, hcallback, hdelay, Option.toList_some]
      exact (scheduling_does (by simp) (fun _ _ => rfl) seat h).bind fun r =>
        (Within.ofExcept r).bind fun _ => .pure _
  | clear kind =>
    refine Does.check (fun e he => ?_) fun handle hhandle => ?_
    · simp [Native.deed?, he]
    · simp only [Native.deed?, hhandle]
      refine (scheduling_does (fun now => ?_) (fun s l => ?_) seat h).bind fun _ => .pure _
      · cases TimerId.ofHandle? handle <;> simp
      · cases TimerId.ofHandle? handle <;> rfl

theorem ProcessFunction.queue_does (args : List E.Value) (seat : Seat) (h : Host E) :
    h.Does (deedsAt (h.attached seat) ((Native.process .nextTick).deed? h.engines args).toList)
      (queue args seat h).2 := by
  refine Does.check (fun e he => ?_) fun callback hcallback => ?_
  · simp [Native.deed?, he]
  · simp only [Native.deed?, hcallback, Option.toList_some]
    exact (scheduling_does (by simp) (fun _ _ => rfl) seat h).bind fun _ => .pure _

theorem ProcessFunction.leave_does (args : List E.Value) (seat : Seat) (h : Host E) :
    h.Does (fun _ => []) (leave args seat h).2 := by
  refine Does.check (fun _ _ => rfl) fun code _ => ?_
  have H := attached_sameDesks seat h
  rw [Action.bind_def]
  revert H
  rcases attached seat h with ⟨e | id, h'⟩
  · exact SameDesks.does
  · exact fun H => H.trans_does (exit_does h' id code)

/-- Native functions do what they are asked for at the desk of the runtime that their caller is
attached to. -/
theorem Native.invoke_does (f : Native) (this : E.Value) (args : List E.Value) (seat : Seat)
    (h : Host E) : h.Does (deedsAt (h.attached seat) (f.deed? h.engines args).toList)
      (f.invoke this args seat h).2 := by
  have hother (hnone : f.deed? h.engines args = none) (htimer : ∀ g, f ≠ .timer g)
      (hprocess : f = .process .nextTick ∨ f = .process .exit → False) :
      h.Does (deedsAt (h.attached seat) (f.deed? h.engines args).toList)
        (f.invoke this args seat h).2 := by
    rw [hnone, Option.toList_none, deedsAt_nil]
    have H := f.invoke_within (R := SameDesks) (fun _ _ => Aside.sameDesks)
      (fun g args hg => absurd hg (htimer g)) (fun args hf => (hprocess (.inl hf)).elim)
      (fun args hf => (hprocess (.inr hf)).elim) (fun g args _ => g.invoke_sameDesks args) this args
    exact (H seat h).does
  cases f with
  | timer g => exact (g.invoke_does args seat h).bind fun _ => .pure _
  | process g =>
    cases g with
    | nextTick => exact (ProcessFunction.queue_does args seat h).bind fun _ => .pure _
    | exit =>
      have hnone : (Native.process .exit).deed? h.engines args = none := rfl
      rw [hnone, Option.toList_none, deedsAt_nil]
      exact (ProcessFunction.leave_does args seat h).bind fun _ => .pure _
    | cwd => exact hother rfl nofun (by simp)
  | _ => exact hother rfl nofun (by simp)

/-- The deeds that a call of a native function asks for. -/
def Invocation.deeds (v : Invocation E) : RuntimeId → List (Desk.Deed E.Value) :=
  deedsAt (v.host.attached v.job.seat) (v.native.deed? v.host.engines v.args).toList

/-- The deeds that are asked for, if a native function is called. -/
def Invocation.deeds? : Option (Invocation E) → RuntimeId → List (Desk.Deed E.Value)
  | none => fun _ => []
  | some v => v.deeds

theorem Invocation.isAsked_of_mem {o : Option (Invocation E)} {id : RuntimeId}
    {a : Desk.Deed E.Value} (ha : a ∈ deeds? o id) : a.IsAsked := by
  cases o with
  | none => cases ha
  | some v =>
    rw [deeds?, deeds, deedsAt] at ha
    split at ha
    · exact Native.deed?_isAsked (Option.mem_toList.1 ha)
    · cases ha

/-! ### Steps of jobs -/

namespace Job

variable {h : Host E} {j : Job E}

/-- The deeds of the next step of a job: what it is handed, and what it asks for. -/
def deeds (h : Host E) (j : Job E) (id : RuntimeId) : List (Desk.Deed E.Value) :=
  (j.handed? h id).toList.map (fun p => .hand p.1) ++ Invocation.deeds? (j.invocation? h) id

/-- The deed of the loop that hands a notification to a job. -/
theorem handed?_deeds {owner : RuntimeId} {now : Time} {n : Notification} {h₁ : Host E}
    (hf : j.focus = .take) (hp : j.pass? = some (owner, now))
    (hn : h.takeNext owner now = some (n, h₁)) (id : RuntimeId) :
    (j.handed? h id).toList.map (fun p => .hand p.1) =
      (deedsAt (some owner) [.hand now] id : List (Desk.Deed E.Value)) := by
  rw [handed?_eq hf hp, hn, deedsAt]
  by_cases hid : owner = id <;> simp [hid]

theorem act_sameDesks {x : HostAction E α} (hx : x.Within SameDesks)
    {next : Host E → α → Host E × Job E}
    (hnext : ∀ (h : Host E) (a : α), h.SameDesks (next h a).1) :
    h.SameDesks (j.act h x next).1 := by
  have hs := hx j.seat h
  rw [act]
  rcases hr : x j.seat h with ⟨r, h'⟩
  rw [hr] at hs
  cases r with
  | ok a => exact trans_of SameDesks hs (hnext h' a)
  | error e => exact hs

theorem answer_sameDesks (h : Host E) (j : Job E) (reply : Reply E) :
    h.SameDesks (j.answer h reply).1 := by
  cases reply with
  | value v => exact refl_of SameDesks h
  | render r => exact refl_of SameDesks h
  | evaluate l scope => exact (h.aside_engines _).sameDesks

theorem perform_does (v : Invocation E) : v.host.Does v.deeds v.perform.1 := by
  have H := v.native.invoke_does v.this v.args v.job.seat v.host
  rw [Invocation.perform, native, act]
  revert H
  rcases v.native.invoke v.this v.args v.job.seat v.host with ⟨e | reply, h'⟩
  · exact id
  · exact fun H => H.trans_same (answer_sameDesks h' v.job reply)

theorem GoesOn.does {o : Option (Invocation E)} {p : Host E × Job E} (H : GoesOn h j o p) :
    h.Does (Invocation.deeds? o) p.1 := by
  cases H with
  | aside hh _ _ => exact hh.sameDesks.does
  | @native v hh _ => exact hh.sameDesks.trans_does (perform_does v)

theorem enterLoaded_sameDesks (h : Host E) (j : Job E) (l : Loading E.Value) :
    h.SameDesks (j.enterLoaded h l).1 := by
  refine act_sameDesks (ofEngines_sameDesks _) fun h _ => ?_
  split
  · exact refl_of SameDesks h
  · next h' hc =>
    refine trans_of SameDesks (Loading.cache_sameDesks hc)
      (act_sameDesks (ofEngines_sameDesks _) fun h _ => ?_)
    exact refl_of SameDesks h

theorem resume_module_sameDesks (h : Host E) (j : Job E) (l : Loading E.Value) (r : Result E) :
    h.SameDesks (j.resume h (.module l) r).1 := by
  refine act_sameDesks (Loading.changeTables_sameDesks _ _) fun h _ => ?_
  cases r with
  | ok v => exact enterLoaded_sameDesks ..
  | error e => exact refl_of SameDesks h

/-- Waiting makes a loop forget a wakeup at most, and does not turn back the clock. -/
theorem rest_does (h : Host E) (j : Job E) (owner : RuntimeId) (limit : Time) :
    h.Does (fun _ => []) (j.rest h owner limit).1 := by
  rw [rest]
  split
  · exact .refl h
  · next r hr =>
    dsimp only
    split
    · exact .refl h
    · obtain ⟨hclock, hloop⟩ := r.loop.waitUntil_spec h.platform.clock limit
      revert hclock hloop
      generalize r.loop.waitUntil h.platform.clock limit = w
      obtain ⟨woke, now, loop⟩ := w
      intro hclock hloop
      have hs : h.Does (deedsAt (some owner) []) ((h.put owner { r with loop }).setClock now) := by
        refine .of_put hr hclock (Nat.le_refl _) ?_
        have he : ReflTransGen Desk.Drift
            (r.scheduler, (⟨loop, h.platform.clock, h.nextTimer⟩ : LoopSeat))
            (r.scheduler, ⟨loop, now, h.nextTimer⟩) := .single (.elapse _ hclock (Nat.le_refl _))
        rcases hloop with rfl | rfl
        · exact he
        · exact .head (.forget (r.scheduler, h.loopSeat r)) he
      rw [deedsAt_nil] at hs
      cases woke <;> exact hs

/-- A step begins with the notification that the job is handed, and then does what the native
function that it calls is asked for. -/
theorem step_does (h : Host E) (j : Job E) : h.Does (j.deeds h) (j.step h).1 := by
  have H := j.step_steps h
  have hidle {p : Host E × Job E} (hh : j.handed? h = fun _ => none)
      (hv : j.invocation? h = none) (H : h.Does (fun _ => []) p.1) : h.Does (j.deeds h) p.1 := by
    have hdeeds : j.deeds h = fun _ => [] := by
      funext id
      rw [deeds, hh, hv]
      rfl
    rwa [hdeeds]
  generalize j.step h = p at H
  cases H with
  | goesOn hh _ H =>
    have hdeeds : j.deeds h = Invocation.deeds? (j.invocation? h) := by
      funext id
      rw [deeds, hh]
      rfl
    exact hdeeds ▸ H.does
  | @handed owner now n h₁ _ _ hf hp hn _ _ _ H =>
    obtain ⟨-, -, -, -, harrives⟩ := takeNext_desk hn
    have hdeeds : j.deeds h = fun id =>
        deedsAt (some owner) [.hand now] id ++ Invocation.deeds? (j.invocation? h) id := by
      funext id
      rw [deeds, handed?_deeds hf hp hn]
    rw [hdeeds]
    exact harrives.trans_does H.does
  | begins hf ht =>
    have hp : j.pass? = none := by rw [pass?, ht]; rfl
    refine hidle ?_ (invocation?_of_pass hf hp) (.refl h)
    funext id
    exact handed?_of_pass fun now => by rw [hp]; rintro ⟨⟩
  | @rests owner now limit hf ht hn =>
    have hp : j.pass? = some (owner, now) := by rw [pass?, ht]; rfl
    refine hidle ?_ ?_ (rest_does ..)
    · rw [handed?_eq hf hp, hn]
      simp
    · rw [invocation?_of_take hf hp, hn]
      rfl
  | ends hf hs =>
    exact hidle (handed?_of_focus (by rw [hf]; rintro ⟨⟩)) (invocation?_of_result hf)
      (resume_module_sameDesks ..).does

/-- A notification that a job is handed is what the loop hands out at its desk. -/
theorem handOut_of_handed? {id : RuntimeId} {now : Time} {n : Notification} {d : Desk E.Value}
    (hn : j.handed? h id = some (now, n)) (hd : h.desk? id = some d) :
    ∃ d₁, d.handOut now = some (n, d₁) := by
  rw [handed?] at hn
  split at hn
  · next owner now' _ _ =>
    split at hn
    · next hid =>
      subst hid
      obtain ⟨⟨n', h'⟩, ht, he⟩ := Option.map_eq_some_iff.1 hn
      obtain ⟨rfl, rfl⟩ := Prod.mk.inj he
      obtain ⟨d', d₁, hd', hout, -⟩ := takeNext_desk ht
      obtain rfl := Option.some.inj (hd.symm.trans hd')
      exact ⟨d₁, hout⟩
    · cases hn
  · cases hn

/-- A step begins with the notification that the job is handed, and then does nothing but shift. -/
theorem step_turns (h : Host E) (j : Job E) : h.Turns (j.handed? h) (j.step h).1 :=
  (j.step_does h).turns (fun _ _ _ _ hn hd => handOut_of_handed? hn hd) fun _ _ hmem =>
    Invocation.isAsked_of_mem hmem

end Job

end ScriptHost
