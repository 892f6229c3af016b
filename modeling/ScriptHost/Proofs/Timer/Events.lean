import ScriptHost.Proofs.Host.WorldDesks

/-!
# What becomes of callbacks

A callback is registered under a name, and then it is run or cancelled. What becomes of the
callbacks of a runtime is read off the deeds at its desk: a timer that is started registers its
callback, one that is cancelled gives it up, and a notification that is handed out or delivered by
hand has its callback run. A run of a world leaves a record of such events for every runtime.

## Main definitions

* `CallbackEvent`: what becomes of a callback.
* `registrations`, `firings`, `cancellations`, `queued`, `ran`: the events of one sort in a record.
* `Desk.event?`, `Desk.events`: the events that deeds at a desk bring about.
* `World.callbackEvents`: the events of a move.

## Main results

* `Job.step_eq_call`: a callback that a loop hands out is run by the job calling it.
* `World.record_events`: what deeds keep, of the events so far and of the desk, holds along a run.
-/

namespace ScriptHost

open Relation (ReflTransGen)

variable {V : Type} {E : Engine}

/-- What becomes of a callback. -/
inductive CallbackEvent (V : Type) where
  /-- It is registered for a timer. -/
  | registered (kind : TimerKind) (timer : TimerId) (callback : V)
  /-- It is to be given up, as that of a timer of a kind; it was there or it was not. -/
  | cancelled (kind : TimerKind) (timer : TimerId) (found : Bool)
  /-- It is run for a timer. -/
  | fired (kind : TimerKind) (timer : TimerId) (callback : V)
  /-- It is queued before the next timer. -/
  | queued (tick : TickId) (callback : V)
  /-- It is run out of the queue. -/
  | ran (tick : TickId) (callback : V)
deriving DecidableEq

/-- The callback that is run in an event. -/
def CallbackEvent.run? : CallbackEvent V → Option V
  | .fired _ _ callback | .ran _ callback => some callback
  | _ => none

/-- The timers of a kind that have been started, with their callbacks. -/
def registrations (kind : TimerKind) (es : List (CallbackEvent V)) : List (TimerId × V) :=
  es.filterMap fun
    | .registered kind' timer callback => if kind' = kind then some (timer, callback) else none
    | _ => none

/-- The timers of a kind that have fired, with their callbacks. -/
def firings (kind : TimerKind) (es : List (CallbackEvent V)) : List (TimerId × V) :=
  es.filterMap fun
    | .fired kind' timer callback => if kind' = kind then some (timer, callback) else none
    | _ => none

/-- The timers of a kind that have been cancelled while they had a callback. -/
def cancellations (kind : TimerKind) (es : List (CallbackEvent V)) : List TimerId :=
  es.filterMap fun
    | .cancelled kind' timer true => if kind' = kind then some timer else none
    | _ => none

/-- The callbacks that have been queued. -/
def queued (es : List (CallbackEvent V)) : List (TickId × V) :=
  es.filterMap fun
    | .queued tick callback => some (tick, callback)
    | _ => none

/-- The queued callbacks that have been run. -/
def ran (es : List (CallbackEvent V)) : List (TickId × V) :=
  es.filterMap fun
    | .ran tick callback => some (tick, callback)
    | _ => none

section Append

variable (kind : TimerKind) (es es' : List (CallbackEvent V))

@[simp]
theorem registrations_append :
    registrations kind (es ++ es') = registrations kind es ++ registrations kind es' :=
  List.filterMap_append

@[simp]
theorem queued_append : queued (es ++ es') = queued es ++ queued es' := List.filterMap_append

@[simp]
theorem ran_append : ran (es ++ es') = ran es ++ ran es' := List.filterMap_append

end Append

theorem mem_firings {kind : TimerKind} {timer : TimerId} {callback : V}
    {es : List (CallbackEvent V)} :
    (timer, callback) ∈ firings kind es ↔ .fired kind timer callback ∈ es := by
  rw [firings, List.mem_filterMap]
  constructor
  · rintro ⟨_ | _ | ⟨kind', timer', callback'⟩ | _ | _, he, hfired⟩
    case fired =>
      obtain ⟨rfl, hp⟩ := Option.ite_none_right_eq_some.1 hfired
      obtain ⟨rfl, rfl⟩ := Prod.mk.inj (Option.some.inj hp)
      exact he
    all_goals cases hfired
  · exact fun he => ⟨_, he, if_pos rfl⟩

/-! ### Events at a desk -/

namespace Desk

variable {d d' : Desk V} {now : Time} {n : Notification}

/-- The run of the callback that a notification asks for. -/
def taken? (d : Desk V) : Notification → Option (CallbackEvent V)
  | .timer id =>
    match d.1.timeouts.get? id, d.1.intervals.get? id with
    | some callback, _ => some (.fired .timeout id callback)
    | none, some callback => some (.fired .interval id callback)
    | none, none => none
  | .posted tick => (d.1.ticks.get? tick).map (.ran tick)

/-- What becomes of a callback by a deed. -/
def event? (d : Desk V) : Deed V → Option (CallbackEvent V)
  | .hand now => (d.handOut now).bind fun p => p.2.taken? p.1
  | .take n => d.taken? n
  | .set kind callback delay =>
    match (d.1.setTimer d.2 kind callback delay).1 with
    | .ok id => some (.registered kind id callback)
    | .error _ => none
  | .clear kind id => some (.cancelled kind id ((d.1.timers kind).contains id))
  | .tick callback => some (.queued (d.1.nextTick d.2 callback).1 callback)

/-- What becomes of callbacks by some deeds. -/
def events (d : Desk V) : List (Deed V) → List (CallbackEvent V)
  | [] => []
  | a :: as => (d.event? a).toList ++ (d.perform a).events as

/-- The callback that is taken is the one that is run. -/
theorem take_eq_run? (d : Desk V) (n : Notification) :
    (d.1.take d.2 n).1 = (d.taken? n).bind CallbackEvent.run? := by
  cases n with
  | timer id =>
    rw [taken?, Scheduler.take]
    rcases d.1.timeouts.get? id with _ | callback
    · rcases d.1.intervals.get? id with _ | callback <;> rfl
    · rfl
  | posted tick =>
    rw [taken?, Scheduler.take]
    rcases d.1.ticks.get? tick with _ | callback <;> rfl

/-- What each deed keeps, of the events so far and of the desk, is kept by some deeds. -/
theorem events_invariant {P : List (CallbackEvent V) → Desk V → Prop} {A : Deed V → Prop}
    (hperform : ∀ es d a, A a → P es d → P (es ++ (d.event? a).toList) (d.perform a))
    {es : List (CallbackEvent V)} (hd : P es d) {as : List (Deed V)} (has : ∀ a ∈ as, A a) :
    P (es ++ d.events as) (d.performAll as) := by
  induction as generalizing es d with
  | nil => rwa [events, List.append_nil]
  | cons a as ih =>
    have hfirst := hperform es d a (has a (List.mem_cons_self ..)) hd
    have hrest := ih hfirst fun b hb => has b (List.mem_cons_of_mem a hb)
    rwa [List.append_assoc] at hrest

end Desk

/-! ### Calls of callbacks -/

namespace Job

variable {h h₁ : Host E} {j : Job E} {owner : RuntimeId} {now : Time} {n : Notification}

/-- What a job calls that delivers a notification is the callback that its desk says. -/
theorem deliver_eq_call {d : Desk E.Value} (hd : h.desk? owner = some d) (stale : Focus E) :
    j.deliver h owner n stale =
      match (d.taken? n).bind CallbackEvent.run? with
      | none => ((h.takeCallback owner n).2, j.turnTo stale)
      | some callback =>
        j.call (h.takeCallback owner n).2 callback (E.globalObject j.seat h.engines) [] := by
  obtain ⟨r, hr, rfl⟩ := Option.map_eq_some_iff.1 hd
  have htake : (h.takeCallback owner n).1 =
      (Desk.taken? (r.scheduler, h.loopSeat r) n).bind CallbackEvent.run? := by
    rw [← Desk.take_eq_run?, Host.takeCallback, Host.scheduling?, hr]
    rfl
  have hengines : (h.takeCallback owner n).2.engines = h.engines := by
    rw [Host.takeCallback, Host.scheduling?, hr]
    rfl
  rw [deliver, ← htake, ← hengines]
  rcases h.takeCallback owner n with ⟨_ | callback, h'⟩ <;> rfl

/-- What a job calls that is handed a notification is the callback of the event at the desk. -/
theorem step_eq_call {d d₁ : Desk E.Value} (hf : j.focus = .take) (hp : j.pass? = some (owner, now))
    (hd : h.desk? owner = some d) (hout : d.handOut now = some (n, d₁)) :
    ∃ h', j.step h =
      match (d.event? (.hand now)).bind CallbackEvent.run? with
      | none => (h', j.counted.turnTo .take)
      | some callback => j.counted.call h' callback (E.globalObject j.seat h.engines) [] := by
  obtain ⟨r, hr, rfl⟩ := Option.map_eq_some_iff.1 hd
  obtain ⟨hstop, hout'⟩ := Option.ite_none_left_eq_some.1 hout
  obtain ⟨⟨n', l⟩, hpoll, he⟩ := Option.map_eq_some_iff.1 hout'
  obtain ⟨rfl, rfl⟩ := Prod.mk.inj he
  have hstop : ¬r.loop.stopped = true := hstop
  have hn : h.takeNext owner now = some (n', h.put owner { r with loop := l }) := by
    rw [Host.takeNext, hr]
    change (if r.loop.stopped then none else (r.loop.poll now).map _) = _
    rw [if_neg hstop]
    exact Option.map_eq_some_iff.2 ⟨_, hpoll, rfl⟩
  have hd₁ : (h.put owner { r with loop := l }).desk? owner =
      some (r.scheduler, { h.loopSeat r with loop := l }) := by
    simp only [Host.desk?, Host.put, Table.get?_insert_self, Option.map_some]
    rfl
  have hseat : j.counted.seat = j.seat := by
    rw [counted]
    split <;> rfl
  have hstep : j.step h = j.counted.deliver (h.put owner { r with loop := l }) owner n' .take := by
    rw [step, hf]
    exact takeNext_eq_deliver hp hn
  rw [hstep, deliver_eq_call hd₁, hseat, Desk.event?, hout]
  exact ⟨_, rfl⟩

end Job

namespace World

/-- What becomes of the callbacks of a runtime by a move. -/
def callbackEvents (id : RuntimeId) (w : World E) (m : Move E) : List (CallbackEvent E.Value) :=
  match w.host.desk? id with
  | none => []
  | some d => d.events (w.deeds m id)

variable {id : RuntimeId} {w : World E} {m : Move E}

/-- What holds of the events so far and of the world: something about the events for good, and
something about the events and the desk while the desk is there. The desk of a runtime that is still
to be made is not there and has seen no events. -/
structure Logs (id : RuntimeId) (P : List (CallbackEvent E.Value) → Desk E.Value → Prop)
    (Q : List (CallbackEvent E.Value) → Prop) (es : List (CallbackEvent E.Value)) (w : World E) :
    Prop where
  always : Q es
  desk : ∀ d, w.host.desk? id = some d → P es d
  unborn : w.host.nextRuntime ≤ id.val → es = [] ∧ w.host.desk? id = none

variable {P : List (CallbackEvent E.Value) → Desk E.Value → Prop}
  {Q : List (CallbackEvent E.Value) → Prop} {A : Desk.Deed E.Value → Prop}
  {es : List (CallbackEvent E.Value)}

theorem Logs.outside (H : w.Logs id P Q es)
    (hclock : ∀ es d t, P es d → P es (d.1, { d.2 with clock := t })) (engines : E.State)
    (platform : Platform) : (w.perform (.outside engines platform)).Logs id P Q es := by
  refine ⟨H.always, fun d' hd' => ?_, fun hle => ?_⟩
  · rw [outside_desk?] at hd'
    obtain ⟨d, hd, rfl⟩ := Option.map_eq_some_iff.1 hd'
    exact hclock es d platform.clock (H.desk d hd)
  · obtain ⟨hes, hd⟩ := H.unborn hle
    rw [outside_desk?, hd]
    exact ⟨hes, rfl⟩

theorem callbackEvents_outside (engines : E.State) (platform : Platform) :
    callbackEvents id w (.outside engines platform) = [] := by
  rw [callbackEvents]
  split
  · rfl
  · rfl

/-- What deeds and drifting keep is kept by a move inside of the library. -/
theorem Logs.inside (H : w.Logs id P Q es)
    (hfresh : ∀ capacity clock nextTimer, P [] (.fresh capacity clock nextTimer))
    (hperform : ∀ es d a, A a → P es d → P (es ++ (d.event? a).toList) (d.perform a))
    (hdrift : ∀ es d d', P es d → Desk.Drift d d' → P es d') (hQ : ∀ es d, P es d → Q es)
    (hm : ∀ engines platform, m ≠ .outside engines platform) (hA : ∀ a ∈ w.deeds m id, A a) :
    (w.perform m).Logs id P Q (es ++ callbackEvents id w m) := by
  have hevolves := w.perform_inside_evolves hm
  have hdrifts {es : List (CallbackEvent E.Value)} {d d' : Desk E.Value} (hd : P es d)
      (h : ReflTransGen Desk.Drift d d') : P es d' := by
    induction h with
    | refl => exact hd
    | tail _ hs ih => exact hdrift es _ _ ih hs
  -- As long as a desk is not there, nothing becomes of its callbacks.
  have hevents {d : Desk E.Value} (hd : w.host.desk? id = some d) :
      P (es ++ callbackEvents id w m) (d.performAll (w.deeds m id)) := by
    rw [callbackEvents, hd]
    exact Desk.events_invariant hperform (H.desk d hd) hA
  have hnone (hd : w.host.desk? id = none) : es ++ callbackEvents id w m = es := by
    rw [callbackEvents, hd, List.append_nil]
  refine ⟨?_, fun d' hd' => ?_, fun hle => ?_⟩
  · cases hd : w.host.desk? id with
    | none => exact (hnone hd).symm ▸ H.always
    | some d => exact hQ _ _ (hevents hd)
  · rcases hevolves.desks id d' hd' with ⟨d, hd, hafter⟩ | ⟨hid, -, capacity, hafter⟩
    · exact hdrifts (hevents hd) hafter
    · obtain ⟨hes, hd⟩ := H.unborn (Nat.le_of_eq (congrArg RuntimeId.val hid).symm)
      rw [hnone hd, hes]
      exact hdrifts (hfresh ..) hafter
  · obtain ⟨hes, hd⟩ := H.unborn (Nat.le_trans hevolves.nextRuntime_le hle)
    refine ⟨(hnone hd).trans hes, Option.eq_none_iff_forall_ne_some.2 fun d' hd' => ?_⟩
    rcases hevolves.desks id d' hd' with ⟨d, hd₀, -⟩ | ⟨hid, hlt, -⟩
    · rw [hd] at hd₀
      cases hd₀
    · rw [hid] at hle
      exact absurd hle (Nat.not_le.2 hlt)

/-- What a new desk has without events, and deeds and drifting keep of the events so far and of the
desk, holds along every run whose deeds are as they should be. -/
theorem record_events (hfresh : ∀ capacity clock nextTimer, P [] (.fresh capacity clock nextTimer))
    (hperform : ∀ es d a, A a → P es d → P (es ++ (d.event? a).toList) (d.perform a))
    (hdrift : ∀ es d d', P es d → Desk.Drift d d' → P es d')
    (hclock : ∀ es d t, P es d → P es (d.1, { d.2 with clock := t }))
    (hQ : ∀ es d, P es d → Q es) (engines : E.State) (platform : Platform)
    (profiles : Seat → Profile) (id : RuntimeId) (ms : List (Move E))
    (hms : (initial engines platform profiles).Along (fun w m => ∀ a ∈ w.deeds m id, A a) ms) :
    ((initial engines platform profiles).run ms).Logs id P Q
      (record (callbackEvents id) (initial engines platform profiles) ms) := by
  have hinitial : (initial engines platform profiles).Logs id P Q [] :=
    ⟨hQ [] _ (hfresh 0 0 0), nofun, fun _ => ⟨rfl, rfl⟩⟩
  refine record_invariant (P := Logs id P Q) (fun es w m H hA => ?_) hinitial ms hms
  by_cases hm : ∃ engines platform, m = .outside engines platform
  · obtain ⟨engines, platform, rfl⟩ := hm
    rw [callbackEvents_outside, List.append_nil]
    exact H.outside hclock engines platform
  · exact H.inside hfresh hperform hdrift hQ
      (fun engines platform h => hm ⟨engines, platform, h⟩) hA

end World

end ScriptHost
