import ScriptHost.Proofs.Host.Discipline
import ScriptHost.Proofs.Host.Status
import ScriptHost.Proofs.Host.ViewSteps
import ScriptHost.Proofs.Timer.Idle

/-!
# Stopping for good

A loop that has been asked to stop hands out nothing any more, and nothing undoes the request. It
does not matter where the request comes from, nor what is due, is queued or is started later. A job
in a pass of that loop has the microtasks run that it owes, looks for the next notification once, in
vain, and ends; so does one that is begun later. What was pending stays registered, unless it is
given up by hand.

## Main definitions

* `Host.Stopped`, `World.Stopped`: a runtime has been asked to stop.
* `Job.Event.Vain`: no callback is called, and who looks for a notification ends.
* `Duty.due`: the events that a job owes.
* `Scheduler.Entry`, `Desk.Deed.GivesUp`: what a scheduler holds, and the deeds that give it up.
* `World.StopsForGood`: what a stopped runtime does and does not do any more.

## Main results

* `Job.step_of_stopped`: a job that looks for a notification of a stopped runtime ends, and the host
  stays as it is.
* `Duty.follow_vain`: what is left to do for a job that finds nothing any more.
* `World.stopping_lasts`: stopping is immediate and permanent, and the exit code is the last one.
-/

namespace ScriptHost

open Relation (ReflTransGen)

variable {V : Type} {E : Engine}

/-! ### Stopped runtimes -/

/-- A runtime has been asked to stop, or is gone. -/
def Host.Stopped (h : Host E) (id : RuntimeId) : Prop :=
  ∀ s, h.status? id = some s → s.stopped = true

namespace Host.Stopped

variable {h : Host E} {id : RuntimeId}

theorem loop_stopped (H : h.Stopped id) {r : Runtime E} (hr : h.runtimes.get? id = some r) :
    r.loop.stopped = true :=
  H r.status (status?_of_get? hr)

/-- A stopped loop hands out nothing. -/
theorem takeNext_eq_none (H : h.Stopped id) (now : Time) : h.takeNext id now = none := by
  rw [takeNext]
  cases hr : h.runtimes.get? id with
  | none => rfl
  | some r => exact if_pos (H.loop_stopped hr)

end Host.Stopped

theorem Task.owner?_of_origin {t t' : Task} (ht : t'.origin = t.origin) : t'.owner? = t.owner? := by
  have horigin (t : Task) : t.origin.owner? = t.owner? := by cases t <;> rfl
  rw [← horigin t', ht, horigin]

namespace Job

variable {h : Host E} {j : Job E} {id : RuntimeId}

/-- A job that has found nothing in the event loop of a stopped runtime leaves it: with the exit
code of the runtime, if that is there. It does not wait. -/
theorem rest_of_stopped (H : h.Stopped id) (j : Job E) (limit : Time) :
    ∃ o, j.rest h id limit = (h, j.turnTo (.over o)) ∧
      ∀ r, h.runtimes.get? id = some r → o = .exited r.exitStatus := by
  rw [rest]
  cases hr : h.runtimes.get? id with
  | none => exact ⟨.expired, rfl, by rintro _ ⟨⟩⟩
  | some r =>
    refine ⟨.exited r.exitStatus, ?_, ?_⟩
    · simp only [H.loop_stopped hr, Bool.true_or, if_pos]
    · rintro _ ⟨⟩
      rfl

/-- What becomes of a job of a stopped runtime that looks for the next notification: a pass ends
with what it has taken so far, and the event loop is left with the exit code. -/
inductive FindsNothing (h : Host E) (j : Job E) (id : RuntimeId) : Job E → Prop
  /-- A pass ends. -/
  | pass {now : Time} {taken : Nat} (ht : j.task = .pass id now taken) :
      FindsNothing h j id (j.turnTo (.over (.handled taken)))
  /-- The event loop begins its last pass. -/
  | begins {limit : Time} (ht : j.task = .loop id none limit) :
      FindsNothing h j id { j with task := .loop id (some h.platform.clock) limit }
  /-- The event loop is left. -/
  | leaves {now limit : Time} {o : Outcome E.Value} (ht : j.task = .loop id (some now) limit)
      (ho : ∀ r, h.runtimes.get? id = some r → o = .exited r.exitStatus) :
      FindsNothing h j id (j.turnTo (.over o))

/-- A job that looks for the next notification of a stopped runtime finds nothing, and the host
stays as it is. -/
theorem step_of_stopped (H : h.Stopped id) (hf : j.focus = .take) (ht : j.task.owner? = some id) :
    (j.step h).1 = h ∧ FindsNothing h j id (j.step h).2 := by
  have hnone := H.takeNext_eq_none
  rw [step, hf]
  dsimp only
  rw [takeNext]
  split
  · next owner now taken htask =>
    obtain rfl : owner = id := by simpa [htask, Task.owner?] using ht
    rw [hnone]
    exact ⟨rfl, .pass htask⟩
  · next owner limit htask =>
    obtain rfl : owner = id := by simpa [htask, Task.owner?] using ht
    exact ⟨rfl, .begins htask⟩
  · next owner now limit htask =>
    obtain rfl : owner = id := by simpa [htask, Task.owner?] using ht
    obtain ⟨o, he, ho⟩ := rest_of_stopped H j limit
    rw [hnone]
    dsimp only
    rw [he]
    exact ⟨rfl, .leaves htask ho⟩
  · next hpass hbegin hloop =>
    cases htask : j.task with
    | pass owner now taken => exact (hpass owner now taken htask).elim
    | loop owner now limit =>
      cases now with
      | none => exact (hbegin owner limit htask).elim
      | some now => exact (hloop owner now limit htask).elim
    | _ =>
      rw [htask] at ht
      cases ht

/-! ### The events of jobs that find nothing -/

/-- No callback is called, and who looks for a notification ends. -/
structure Event.Vain (es : List Event) : Prop where
  called : .called ∉ es
  polled : ∀ es₁ es₂, es = es₁ ++ .polled :: es₂ → ∃ es₃, es₂ = .ended :: es₃

theorem Event.vain_of_not_mem {es : List Event} (hcalled : .called ∉ es) (hpolled : .polled ∉ es) :
    Vain es := by
  refine ⟨hcalled, fun es₁ es₂ he => ?_⟩
  rw [he] at hpolled
  exact absurd (List.mem_append_right _ (List.mem_cons_self ..)) hpolled

theorem Event.Vain.append {es es' : List Event} (H : Vain es) (H' : Vain es') : Vain (es ++ es') := by
  refine ⟨fun hm => (List.mem_append.1 hm).elim H.called H'.called, fun es₁ es₂ he => ?_⟩
  rcases List.append_eq_append_iff.1 he with ⟨es₃, rfl, he'⟩ | ⟨es₃, hes, he'⟩
  · exact H'.polled _ _ he'
  · cases es₃ with
    | nil => exact H'.polled [] es₂ he'.symm
    | cons e es₃ =>
      obtain ⟨rfl, rfl⟩ := List.cons.inj he'
      obtain ⟨es₄, rfl⟩ := H.polled es₁ es₃ hes
      exact ⟨es₄ ++ es', rfl⟩

/-- A job of a stopped runtime calls no callback, and ends when it looks for a notification. -/
theorem events_vain (H : h.Stopped id) (ht : j.task.owner? = some id) : Event.Vain (j.events h) := by
  by_cases hover : j.IsOver
  · rw [events, if_pos hover]
    exact Event.vain_of_not_mem List.not_mem_nil List.not_mem_nil
  rw [events, if_neg hover]
  by_cases hf : j.focus = .take
  · obtain ⟨-, hstep⟩ := step_of_stopped H hf ht
    have hpoll {now : Time} {o : Outcome E.Value} (hp : j.pass? = some (id, now)) :
        j.doings h ++ (j.turnTo (.over o)).ending = [.polled, .ended] := by
      have hending : (j.turnTo (.over o)).ending = [.ended] := ending_of_over rfl
      simp only [doings, hf, hp, H.takeNext_eq_none, hending]
      rfl
    have hvain : Event.Vain [.polled, .ended] := by
      refine ⟨by simp, fun es₁ es₂ he => ?_⟩
      cases es₁ with
      | nil => exact ⟨[], (List.cons.inj he).2.symm⟩
      | cons e es₁ => cases es₁ <;> simp at he
    generalize (j.step h).2 = j' at hstep
    cases hstep with
    | pass htask => rw [hpoll (by rw [pass?, htask])]; exact hvain
    | begins htask =>
      have hp : j.pass? = none := by rw [pass?, htask]; rfl
      simp only [doings, hf, hp]
      rw [ending_of_take rfl]
      exact Event.vain_of_not_mem List.not_mem_nil List.not_mem_nil
    | leaves htask _ => rw [hpoll (by rw [pass?, htask]; rfl)]; exact hvain
  · have hevents (e : Event) (he : e ∈ j.doings h ++ (j.step h).2.ending) :
        (e = .drained ∨ e = .settled) ∨ e = .ended :=
      (List.mem_append.1 he).imp (doings_of_focus hf) eq_ended_of_mem_ending
    refine Event.vain_of_not_mem (fun he => ?_) fun he => ?_
    · rcases hevents _ he with (he | he) | he <;> cases he
    · rcases hevents _ he with (he | he) | he <;> cases he

end Job

/-- What a job owes before it may look for a notification or end. -/
def Duty.due : Duty → List Job.Event
  | .owed => [.drained, .settled]
  | .running => [.settled]
  | .clear | .over => []

theorem Duty.follow_clear_vain {d : Duty} {es₀ es : List Job.Event}
    (h : follow .clear es = some d) (H : Job.Event.Vain (es₀ ++ es)) :
    es <+: [.polled, .ended] ∨ es <+: [.ended] := by
  cases es with
  | nil => exact .inl List.nil_prefix
  | cons e es =>
    cases e with
    | polled =>
      obtain ⟨es₁, rfl⟩ := H.polled es₀ es rfl
      obtain rfl := follow_over h
      exact .inl List.prefix_rfl
    | called => exact absurd (List.mem_append_right _ (List.mem_cons_self ..)) H.called
    | ended =>
      obtain rfl := follow_over h
      exact .inr List.prefix_rfl
    | _ => cases h

theorem Duty.follow_running_vain {d : Duty} {es₀ es : List Job.Event}
    (h : follow .running es = some d) (H : Job.Event.Vain (es₀ ++ es)) :
    es <+: [.settled, .polled, .ended] ∨ es <+: [.settled, .ended] := by
  obtain rfl | ⟨es₁, rfl, h⟩ := follow_running h
  · exact .inl List.nil_prefix
  · rw [List.append_cons] at H
    simpa only [List.prefix_cons_inj] using follow_clear_vain h H

/-- A job that finds nothing any more does what it owes, looks for a notification at most once and
ends. -/
theorem Duty.follow_vain {d d' : Duty} {es : List Job.Event} (h : d.follow es = some d')
    (H : Job.Event.Vain es) : es <+: d.due ++ [.polled, .ended] ∨ es <+: d.due ++ [.ended] := by
  rw [← List.nil_append es] at H
  cases d with
  | clear => exact follow_clear_vain h H
  | running => exact follow_running_vain h H
  | owed =>
    obtain rfl | ⟨es₁, rfl, h⟩ := follow_owed h
    · exact .inl List.nil_prefix
    · rw [List.append_cons] at H
      exact (follow_running_vain h H).imp ((List.prefix_cons_inj _).2 ·)
        ((List.prefix_cons_inj _).2 ·)
  | «over» =>
    obtain rfl := follow_over h
    exact .inl List.nil_prefix

/-! ### What is pending -/

/-- The name of something that a scheduler holds. -/
inductive Scheduler.Entry where
  /-- The callback of a timer of a kind. -/
  | timer (kind : TimerKind) (id : TimerId)
  /-- A queued callback. -/
  | tick (tick : TickId)

/-- The callback that a scheduler holds under a name. -/
def Scheduler.callback? (s : Scheduler V) : Entry → Option V
  | .timer kind id => (s.timers kind).get? id
  | .tick tick => s.ticks.get? tick

/-- Another table for the timers of a kind leaves what is held under a name that it holds alike. -/
theorem Scheduler.callback?_withTimers {s : Scheduler V} {kind : TimerKind} {t : Table TimerId V}
    {e : Entry} (h : ∀ id, e = .timer kind id → t.get? id = (s.timers kind).get? id) :
    (s.withTimers kind t).callback? e = s.callback? e := by
  cases e with
  | timer kind' id =>
    rw [callback?, callback?, timers_withTimers]
    split
    · next hkind =>
      subst hkind
      exact h id rfl
    · rfl
  | tick tick => rw [callback?, callback?, ticks_withTimers]

namespace Desk

/-- The deeds of a user by which a scheduler gives up what it holds under a name: to cancel a timer,
and to deliver a timeout or a queued callback by hand. -/
inductive Deed.GivesUp : Deed V → Scheduler.Entry → Prop
  /-- A timer is cancelled. -/
  | clear (kind : TimerKind) (id : TimerId) : GivesUp (.clear kind id) (.timer kind id)
  /-- A timeout is delivered by hand. -/
  | timeout (id : TimerId) : GivesUp (.take (.timer id)) (.timer .timeout id)
  /-- A queued callback is delivered by hand. -/
  | posted (tick : TickId) : GivesUp (.take (.posted tick)) (.tick tick)

variable {d d' : Desk V} {e : Scheduler.Entry} {callback : V}

/-- A desk that is stopped and holds a callback under a name. -/
structure Keeps (e : Scheduler.Entry) (callback : V) (d : Desk V) : Prop where
  agrees : d.Agrees
  stopped : d.2.loop.stopped = true
  holds : d.1.callback? e = some callback

theorem stopped_of_standing {l l' : EventLoop} (hl : l'.standing = l.standing)
    (h : l.stopped = true) : l'.stopped = true :=
  (Prod.mk.inj hl).2.trans h

/-- Cancelling a timer leaves what is held under another name. -/
theorem Keeps.clearTimer (H : d.Keeps e callback) {kind : TimerKind} {id : TimerId}
    (hne : e ≠ .timer kind id) : Keeps e callback (d.1.clearTimer d.2 kind id) := by
  refine ⟨H.agrees.clearTimer kind id,
    stopped_of_standing (clearTimer_standing d.1 d.2 kind id) H.stopped, ?_⟩
  rw [Scheduler.clearTimer]
  split
  · refine (Scheduler.callback?_withTimers fun id' he => ?_).trans H.holds
    rw [Table.get?_erase, if_neg fun hid => hne (he.trans (by rw [hid]))]
  · exact H.holds

/-- Starting a timer leaves what is held. -/
theorem Keeps.setTimer (H : d.Keeps e callback) (kind : TimerKind) (callback' : V)
    (delay : Double) : Keeps e callback (d.1.setTimer d.2 kind callback' delay).2 := by
  refine ⟨H.agrees.setTimer kind callback' delay,
    stopped_of_standing (setTimer_standing d.1 d.2 kind callback' delay) H.stopped, ?_⟩
  rcases d.1.setTimer_cases d.2 kind callback' delay with hrefused | hstarted
  · rw [hrefused]
    exact H.holds
  · rw [hstarted]
    refine (Scheduler.callback?_withTimers fun id' he => ?_).trans H.holds
    have hheld := H.holds
    rw [he] at hheld
    have hlive := (H.agrees.timers kind id').1 (Table.mem_keys_of_get? hheld)
    have hlt := H.agrees.timers_lt id' (by rw [hlive]; simp)
    rw [Table.get?_insert, if_neg fun hid => Nat.lt_irrefl _ (hid ▸ hlt)]

/-- Queueing a callback leaves what is held. -/
theorem Keeps.nextTick (H : d.Keeps e callback) (callback' : V) :
    Keeps e callback (d.1.nextTick d.2 callback').2 := by
  refine ⟨H.agrees.nextTick callback', H.stopped, ?_⟩
  have hholds := H.holds
  cases e with
  | timer kind id => cases kind <;> exact hholds
  | tick tick =>
    have hcount := H.agrees.ticks tick (Table.mem_keys_of_get? hholds)
    have hlt := H.agrees.posted_lt tick (List.count_pos_iff.1 (by omega))
    change (d.1.ticks.insert ⟨d.1.nextTickId⟩ callback').get? tick = _
    have hne : tick ≠ ⟨d.1.nextTickId⟩ := by
      rintro rfl
      exact Nat.lt_irrefl _ hlt
    rw [Table.get?_insert, if_neg hne]
    exact hholds

/-- Delivering a notification by hand leaves what is held under another name. -/
theorem Keeps.take (H : d.Keeps e callback) {n : Notification}
    (hn : ¬(Deed.take n : Deed V).GivesUp e) : Keeps e callback (d.1.take d.2 n).2 := by
  cases n with
  | timer id =>
    rw [Scheduler.take_timer]
    exact H.clearTimer fun he => hn (he ▸ .timeout id)
  | posted tick =>
    refine ⟨H.agrees.take (.posted tick), H.stopped, ?_⟩
    have hholds := H.holds
    cases e with
    | timer kind id => cases kind <;> exact hholds
    | tick tick' =>
      change (d.1.ticks.erase tick).get? tick' = _
      have hne : tick' ≠ tick := by
        rintro rfl
        exact hn (.posted tick')
      rw [Table.get?_erase, if_neg hne]
      exact hholds

/-- A stopped desk keeps what it holds, whatever is done there but giving it up. -/
theorem Keeps.perform (H : d.Keeps e callback) {a : Deed V} (ha : ¬a.GivesUp e) :
    Keeps e callback (d.perform a) := by
  cases a with
  | hand now =>
    have hout : d.handOut now = none := if_pos H.stopped
    rw [Desk.perform, hout]
    exact H
  | take n => exact H.take ha
  | set kind callback' delay => exact H.setTimer kind callback' delay
  | clear kind id => exact H.clearTimer fun he => ha (he ▸ .clear kind id)
  | tick callback' => exact H.nextTick callback'

theorem Keeps.drift (H : d.Keeps e callback) (hd : Drift d d') : d'.Keeps e callback := by
  have hagrees := hd.shift.agrees H.agrees
  cases hd with
  | stop => exact ⟨hagrees, rfl, H.holds⟩
  | forget => exact ⟨hagrees, H.stopped, H.holds⟩
  | elapse => exact ⟨hagrees, H.stopped, H.holds⟩

theorem Keeps.after (H : d.Keeps e callback) {as : List (Deed V)} (has : ∀ a ∈ as, ¬a.GivesUp e)
    (hd : After as d d') : d'.Keeps e callback := by
  induction as generalizing d with
  | nil =>
    induction hd with
    | refl => exact H
    | tail _ hdrift ih => exact ih.drift hdrift
  | cons a as ih =>
    exact ih (H.perform (has a (List.mem_cons_self ..)))
      (fun b hb => has b (List.mem_cons_of_mem a hb)) hd

end Desk

/-! ### Worlds -/

namespace World

variable {w : World E} {m : Move E} {id : RuntimeId}

/-- A runtime has been made and has been asked to stop; it may be gone. -/
structure Stopped (w : World E) (id : RuntimeId) : Prop where
  made : id.val < w.host.nextRuntime
  stopped : w.host.Stopped id

/-- A stopped runtime stays so. -/
theorem Stopped.run (H : w.Stopped id) (ms : List (Move E)) : (w.run ms).Stopped id := by
  refine ⟨Nat.lt_of_lt_of_le H.made (w.nextRuntime_le_run ms), fun s' hs' => ?_⟩
  obtain ⟨s, hs, rfl⟩ := run_status H.made ms hs'
  rw [Status.haltAll_stopped, H.stopped s hs]
  rfl

/-- A runtime that has had a request to stop is stopped. -/
theorem HasStatus.stopped {cs : List (Option Int)} (H : w.HasStatus id cs) (hcs : cs ≠ []) :
    w.Stopped id := by
  refine ⟨Nat.lt_of_not_le fun hle => hcs (H.unborn hle).1, fun s hs => ?_⟩
  obtain ⟨config, resolver, rfl⟩ := H.status s hs
  rw [Status.haltAll_stopped, List.isEmpty_eq_false_iff.2 hcs]
  exact Bool.or_true _

theorem Stopped.handed (H : w.Stopped id) (m : Move E) : w.handed m id = none := by
  cases m with
  | step i =>
    rw [World.handed]
    cases w.jobs[i]? with
    | none => rfl
    | some j =>
      refine Option.eq_none_iff_forall_ne_some.2 fun p hp => ?_
      obtain ⟨now, n⟩ := p
      replace hp : j.handed? w.host id = some (now, n) := hp
      rw [Job.handed?] at hp
      split at hp
      · split at hp
        · next hid =>
          rw [hid, H.stopped.takeNext_eq_none] at hp
          cases hp
        · cases hp
      · cases hp
  | _ => rfl

/-- A job is there after a move, and the events of the move lead from what it owed to what it owes.
-/
theorem Reached.follow_perform (hw : w.Reached) {i : Nat} {j : Job E} (hj : w.jobs[i]? = some j)
    (m : Move E) : ∃ j', (w.perform m).jobs[i]? = some j' ∧ j'.task.owner? = j.task.owner? ∧
      j.duty.follow (w.jobEvents i m) = some j'.duty ∧
      (w.jobEvents i m = [] ∨ w.jobEvents i m = j.events w.host) := by
  have hlt : i < (w.perform m).jobs.length :=
    Nat.lt_of_lt_of_le (List.getElem?_eq_some_iff.1 hj).1 (w.length_jobs_le_perform m)
  obtain ⟨j', hj'⟩ : ∃ j', (w.perform m).jobs[i]? = some j' := ⟨_, List.getElem?_eq_getElem hlt⟩
  refine ⟨j', hj', ?_⟩
  have hu := (hw.perform m).unbroken j' (List.mem_of_getElem? hj')
  obtain ⟨j₁, hj₁, ⟨rfl, rfl⟩ | ⟨hm, rfl⟩⟩ | ⟨errand, -, rfl, -⟩ := job_perform hj'
  · obtain rfl := Option.some.inj (hj.symm.trans hj₁)
    have hev : w.jobEvents i (.step i) = j.events w.host := by simp [jobEvents, hj]
    rw [hev]
    exact ⟨Task.owner?_of_origin (Job.step_continues hu).origin_eq,
      Job.step_follows (hw.based marks_true j (List.mem_of_getElem? hj)) hu, .inr rfl⟩
  · obtain rfl := Option.some.inj (hj.symm.trans hj₁)
    rw [jobEvents_of_ne hj hm]
    exact ⟨rfl, rfl, .inl rfl⟩
  · exact absurd (List.getElem?_eq_some_iff.1 hj).1 (Nat.lt_irrefl _)

/-- A job that is there stays, and what has happened to it leads from what it owed to what it owes. -/
theorem Reached.follow_record (hw : w.Reached) {i : Nat} {j : Job E} (hj : w.jobs[i]? = some j)
    (ms : List (Move E)) : ∃ j', (w.run ms).jobs[i]? = some j' ∧
      j.duty.follow (record (jobEvents i) w ms) = some j'.duty := by
  induction ms generalizing w j with
  | nil => exact ⟨j, hj, rfl⟩
  | cons m ms ih =>
    obtain ⟨j₁, hj₁, -, hfirst, -⟩ := hw.follow_perform hj m
    obtain ⟨j', hj', hrest⟩ := ih (hw.perform m) hj₁
    refine ⟨j', hj', ?_⟩
    rw [record, Duty.follow_append, hfirst]
    exact hrest

/-- A job of a stopped runtime calls no callback any more, and does what it owes. -/
theorem Stopped.events (H : w.Stopped id) (hw : w.Reached) {i : Nat} {j : Job E}
    (hj : w.jobs[i]? = some j) (ht : j.task.owner? = some id) (ms : List (Move E)) :
    Job.Event.Vain (record (jobEvents i) w ms) ∧
      ∃ d, j.duty.follow (record (jobEvents i) w ms) = some d := by
  obtain ⟨j', -, hfollows⟩ := hw.follow_record hj ms
  refine ⟨?_, j'.duty, hfollows⟩
  clear hfollows
  induction ms generalizing w j with
  | nil => exact Job.Event.vain_of_not_mem List.not_mem_nil List.not_mem_nil
  | cons m ms ih =>
    obtain ⟨j₁, hj₁, ht₁, -, hev⟩ := hw.follow_perform hj m
    refine Job.Event.Vain.append ?_ (ih (H.run [m]) (hw.perform m) hj₁ (ht₁.trans ht))
    rcases hev with hev | hev
    · rw [hev]
      exact Job.Event.vain_of_not_mem List.not_mem_nil List.not_mem_nil
    · rw [hev]
      exact Job.events_vain H.stopped ht

/-- A pass of a stopped runtime that looks for the next notification ends with what it has taken,
when it takes its next step. -/
theorem Stopped.pass (H : w.Stopped id) {i : Nat} {j j' : Job E} {now : Time} {taken : Nat}
    (hj : w.jobs[i]? = some j) (hf : j.focus = .take) (ht : j.task = .pass id now taken)
    (ms : List (Move E)) (hj' : (w.run ms).jobs[i]? = some j') :
    j' = j ∨ j' = j.turnTo (.over (.handled taken)) := by
  have howner : j.task.owner? = some id := by rw [ht]; rfl
  have hlt : i < w.jobs.length := (List.getElem?_eq_some_iff.1 hj).1
  let P (w : World E) : Prop := w.Stopped id ∧ i < w.jobs.length ∧
    ∀ j', w.jobs[i]? = some j' → j' = j ∨ j' = j.turnTo (.over (.handled taken))
  have hfirst : P w := ⟨H, hlt, fun j' hj' => .inl (Option.some.inj (hj'.symm.trans hj))⟩
  refine (run_invariant (P := P) hfirst (fun w m hP => ?_) ms).2.2 j' hj'
  obtain ⟨H, hlt, hjobs⟩ := hP
  refine ⟨H.run [m], Nat.lt_of_lt_of_le hlt (w.length_jobs_le_perform m), fun j' hj' => ?_⟩
  obtain ⟨j₁, hj₁, ⟨rfl, rfl⟩ | ⟨-, rfl⟩⟩ | ⟨errand, -, rfl, -⟩ := job_perform hj'
  · rcases hjobs j₁ hj₁ with rfl | rfl
    · have hstep := (Job.step_of_stopped H.stopped hf howner).2
      generalize (j₁.step w.host).2 = j' at hstep
      cases hstep with
      | pass ht' =>
        obtain ⟨-, -, rfl⟩ := Task.pass.inj (ht.symm.trans ht')
        exact .inr rfl
      | begins ht' => exact nomatch ht.symm.trans ht'
      | leaves ht' => exact nomatch ht.symm.trans ht'
    · exact .inr rfl
  · exact hjobs j' hj₁
  · exact absurd hlt (Nat.lt_irrefl _)

/-- What a stopped runtime holds it keeps, unless it is given up by hand. -/
theorem Stopped.keeps (H : w.Stopped id) (hw : w.Reached) {r r' : Runtime E}
    (hr : w.host.runtimes.get? id = some r) {e : Scheduler.Entry} {callback : E.Value}
    (he : r.scheduler.callback? e = some callback) (ms : List (Move E))
    (hms : ∀ a ∈ record (fun w m => w.deeds m id) w ms, ¬a.GivesUp e)
    (hr' : (w.run ms).host.runtimes.get? id = some r') :
    r'.scheduler.callback? e = some callback := by
  have hdesk := Host.desk?_of_get? hr
  have hkeeps : Desk.Keeps e callback (r.scheduler, w.host.loopSeat r) :=
    ⟨hw.agrees hdesk, H.stopped.loop_stopped hr, he⟩
  let P (as : List (Desk.Deed E.Value)) (w : World E) : Prop :=
    id.val < w.host.nextRuntime ∧
      ((∀ a ∈ as, ¬a.GivesUp e) → ∀ d, w.host.desk? id = some d → d.Keeps e callback)
  have hfirst : P [] w := by
    refine ⟨H.made, fun _ d hd => ?_⟩
    rw [hdesk] at hd
    exact Option.some.inj hd ▸ hkeeps
  have hrun : P ([] ++ record (fun w m => w.deeds m id) w ms) (w.run ms) := by
    refine record_invariant (Q := fun _ _ => True) (P := P) (fun as w m hP _ => ?_) hfirst ms
      (along_true w ms)
    obtain ⟨hid, hdesks⟩ := hP
    refine ⟨Nat.lt_of_lt_of_le hid (w.nextRuntime_le_perform m), fun has d' hd' => ?_⟩
    have hbefore := hdesks fun a ha => has a (List.mem_append_left _ ha)
    by_cases hm : ∃ engines platform, m = .outside engines platform
    · obtain ⟨engines, platform, rfl⟩ := hm
      rw [outside_desk?] at hd'
      obtain ⟨d, hd, rfl⟩ := Option.map_eq_some_iff.1 hd'
      have hd := hbefore d hd
      exact ⟨hd.agrees.of_kind? (fun _ => rfl) rfl (Nat.le_refl _), hd.stopped, hd.holds⟩
    · have hevolves := w.perform_inside_evolves fun engines platform h => hm ⟨engines, platform, h⟩
      rcases hevolves.desks id d' hd' with ⟨d, hd, hafter⟩ | ⟨rfl, -⟩
      · exact (hbefore d hd).after (fun a ha => has a (List.mem_append_right _ ha)) hafter
      · exact absurd hid (Nat.lt_irrefl _)
  exact (hrun.2 hms _ (Host.desk?_of_get? hr')).holds

/-- What a stopped runtime does and does not do any more. -/
structure StopsForGood (w : World E) (id : RuntimeId) : Prop where
  /-- Its loop hands out nothing, whoever asks and however much is due or queued. -/
  handed : ∀ ms m, (w.run ms).handed m id = none
  /-- A job that runs its passes does what it owes and ends, looking once more at most. -/
  jobs : ∀ (i : Nat) (j : Job E) (ms : List (Move E)), w.jobs[i]? = some j →
    j.task.owner? = some id → record (jobEvents i) w ms <+: j.duty.due ++ [.polled, .ended] ∨
      record (jobEvents i) w ms <+: j.duty.due ++ [.ended]
  /-- A pass that is begun later takes nothing. -/
  passes : ∀ (seat : Seat) (now : Time) (ms ms' : List (Move E)) (j : Job E),
    (w.run (ms ++ .start (.runReady seat id now) :: ms')).jobs[(w.run ms).jobs.length]? = some j →
      j.focus = .take ∨ j.focus = .over (.handled 0)
  /-- A job that looks for the next notification does nothing to the host and does not wait, and
  the event loop is left in the pass that has begun. -/
  rests : ∀ (ms : List (Move E)) (i : Nat) (j : Job E), (w.run ms).jobs[i]? = some j →
    j.task.owner? = some id → j.focus = .take →
    ((w.run ms).perform (.step i)).host = (w.run ms).host ∧
      ∀ r, (w.run ms).host.runtimes.get? id = some r → j.task.loop? = some id → j.pass? ≠ none →
        (w.run ms).leaves? id (.step i) = some r.exitStatus
  /-- What its scheduler holds stays registered, unless it is given up by hand. -/
  pending : ∀ r, w.host.runtimes.get? id = some r → ∀ ms r',
    (w.run ms).host.runtimes.get? id = some r' → ∀ e callback,
      r.scheduler.callback? e = some callback → r'.scheduler.callback? e = some callback ∨
        ∃ a ∈ record (fun w m => w.deeds m id) w ms, a.GivesUp e

theorem Stopped.stopsForGood (H : w.Stopped id) (hw : w.Reached) : w.StopsForGood id where
  handed ms m := (H.run ms).handed m
  jobs i j ms hj ht := by
    obtain ⟨hvain, d, hd⟩ := H.events hw hj ht ms
    exact Duty.follow_vain hd hvain
  passes seat now ms ms' j hj := by
    have hbegun : ((w.run ms).perform (.start (.runReady seat id now))).jobs[
        (w.run ms).jobs.length]? = some (Job.runReady seat id now) :=
      List.getElem?_concat_length
    have hstopped : ((w.run ms).perform (.start (.runReady seat id now))).Stopped id :=
      (H.run ms).run [.start (.runReady seat id now)]
    rw [run_append, run_cons] at hj
    rcases hstopped.pass hbegun rfl rfl ms' hj with rfl | rfl
    · exact .inl rfl
    · exact .inr rfl
  rests ms i j hj ht hf := by
    obtain ⟨hhost, hstep⟩ := Job.step_of_stopped (H.run ms).stopped hf ht
    refine ⟨by simp only [perform, hj, hhost], fun r hr hloop hp => ?_⟩
    have hcode : j.exitCode? = none := by rw [Job.exitCode?, hf]
    have hleaves : (w.run ms).leaves? id (.step i) = (j.step (w.run ms).host).2.exitCode? := by
      rw [leaves?, hj, Option.bind_some, if_pos ⟨hloop, hcode⟩]
    rw [hleaves]
    generalize (j.step (w.run ms).host).2 = j' at hstep
    cases hstep with
    | pass ht' =>
      rw [ht'] at hloop
      cases hloop
    | begins ht' => exact absurd (by rw [Job.pass?, ht']; rfl) hp
    | leaves _ ho => rw [ho r hr]; rfl
  pending r hr ms r' hr' e callback he := by
    by_cases hms : ∃ a ∈ record (fun w m => w.deeds m id) w ms, a.GivesUp e
    · exact .inr hms
    · exact .inl (H.keeps hw hr he ms (fun a ha hgives => hms ⟨a, ha, hgives⟩) hr')

/-- Stopping is immediate and permanent. In every run, a runtime is stopped once a request to stop
has been made, by the embedder or by a script, wherever this was running; and then it stops for good.
The exit code with which its event loop is left is that of the last request that had one, or zero. -/
theorem stopping_lasts (engines : E.State) (platform : Platform) (profiles : Seat → Profile)
    (id : RuntimeId) (ms : List (Move E)) :
    let w := (initial engines platform profiles).run ms
    let requests := record (haltRequests id) (initial engines platform profiles) ms
    (∀ r, w.host.runtimes.get? id = some r → (r.loop.stopped = true ↔ requests ≠ [])) ∧
      (requests ≠ [] → w.StopsForGood id) ∧
      ∀ m code, w.leaves? id m = some code → code = (lastCode requests).getD 0 := by
  intro w requests
  have H : w.HasStatus id requests := status_record engines platform profiles id ms
  refine ⟨fun r hr => ?_, fun hrequests => ?_, fun m code hm => ?_⟩
  · obtain ⟨config, resolver, hs⟩ := H.status _ (Host.status?_of_get? hr)
    change r.status.stopped = true ↔ _
    rw [hs, Status.haltAll_stopped]
    simp [Status.fresh]
  · exact (H.stopped hrequests).stopsForGood ⟨engines, platform, profiles, ms, rfl⟩
  · obtain ⟨r, hr, rfl, -⟩ := runtime_of_leaves? hm
    obtain ⟨config, resolver, hs⟩ := H.status _ (Host.status?_of_get? hr)
    change r.status.exitCode.getD 0 = _
    rw [hs, Status.haltAll_exitCode]
    exact congrArg (Option.getD · 0) Option.or_none

/-- An engine with a function that leaves the process with exit code 3. -/
def leavingEngine : Script.State :=
  let leave : Json := .array [.string "g", .string "process", .string "exit"]
  ((Script.State.empty.seat [] [] []).newOf
    (.function [.array [.string "call", leave, .null, .int 3]] none)).2

/-- A host with that engine. -/
def leavingWorld : World Script.engine := initial leavingEngine {} fun _ => ⟨⟨1⟩, 0⟩

/-- A run in which that function is queued twice before the next timer, and what is ready is
delivered, with so many steps; then, after the call of the event loop, so many of its steps. -/
def leavingRun (n k : Nat) : List (Move Script.engine) :=
  [.attach 0 {} (.ofFiles "/"), .nextTick ⟨1⟩ (.object 1), .nextTick ⟨1⟩ (.object 1),
    .start (.runReady 0 ⟨1⟩ 0)] ++ List.replicate n (.step 0) ++
    .start (.runLoop 0 ⟨1⟩ 10) :: List.replicate k (.step 1)

/-- In that run the function asks the runtime to stop when it is called for the first time. It is not
called again, the second callback stays queued, and the event loop is left with exit code 3. -/
theorem leavingRun_stops :
    (leavingWorld.run (leavingRun 11 0)).StopsForGood ⟨1⟩ ∧
      (∃ j, (leavingWorld.run (leavingRun 11 0)).jobs[0]? = some j ∧
        (record (jobEvents 0) (leavingWorld.run (leavingRun 11 0)) (List.replicate 9 (.step 0)) <+:
            j.duty.due ++ [.polled, .ended] ∨
          record (jobEvents 0) (leavingWorld.run (leavingRun 11 0)) (List.replicate 9 (.step 0)) <+:
            j.duty.due ++ [.ended])) ∧
      ((leavingWorld.run (leavingRun 11 0)).host.runtimes.get? ⟨1⟩).any
        (fun r => r.scheduler.ticks.contains ⟨2⟩) = true ∧
      (leavingWorld.run (leavingRun 20 3)).leaves? ⟨1⟩ (.step 1) = some 3 ∧
      (3 : Int) = (lastCode (record (haltRequests ⟨1⟩) leavingWorld (leavingRun 20 3))).getD 0 := by
  have H (n k : Nat) := stopping_lasts (E := Script.engine) leavingEngine {} (fun _ => ⟨⟨1⟩, 0⟩) ⟨1⟩
    (leavingRun n k)
  have hstops : (leavingWorld.run (leavingRun 11 0)).StopsForGood ⟨1⟩ :=
    (H 11 0).2.1 (by decide +kernel)
  have hleaves : (leavingWorld.run (leavingRun 20 3)).leaves? ⟨1⟩ (.step 1) = some 3 := by
    decide +kernel
  refine ⟨hstops, ?_, by decide +kernel, hleaves, (H 20 3).2.2 (.step 1) 3 hleaves⟩
  obtain ⟨j, hj, howner⟩ := Option.map_eq_some_iff.1 (show
    ((leavingWorld.run (leavingRun 11 0)).jobs[0]?.map fun j => j.task.owner?) = some (some ⟨1⟩) by
      decide +kernel)
  exact ⟨j, hj, hstops.jobs 0 j (List.replicate 9 (.step 0)) hj howner⟩

end World

end ScriptHost
