import ScriptHost.Proofs.Host.Excused
import ScriptHost.Proofs.Timer.Order
import ScriptHost.Proofs.Timer.Stopping

/-!
# Uncaught exceptions

An exception that a callback does not catch ends the pass or the event loop in which it was called.
It consumes no more than the notification of that callback, and that one just as if the callback had
returned: the timer or the event is taken out, or the interval armed again, and microtasks are run.
What is called again afterwards goes on where the other would have gone on.

An event loop that is called again reads the clock and begins a pass at that time. So it goes on as
the other would have done in a pass of that time; if the clock stands where it stood when the pass
was begun that has been ended, this is what the other would have done.

## Main definitions

* `Desk.Consumed`: what becomes of a desk when a notification is delivered.
* `World.AsksOnly`: a job, if it takes a step, takes no notification in it and does no more at the
  desks than it is asked for.
* `World.Resumes`: what is called again goes on as what has been excused.
* `World.Uncaught`: the course of an uncaught exception, and what it consumes.

## Main results

* `Desk.Delivers.consumed`: a delivery consumes one notification.
* `World.exception_consumesItsOwn`: an uncaught exception consumes the notification of its callback.
-/

namespace ScriptHost

open EventLoop (enqueue nextDeadlineOf)

variable {V : Type} {E : Engine}

/-! ### What a delivery consumes -/

namespace Desk

/-- What becomes of a desk when a notification is delivered at `now`. -/
inductive Consumed (now : Time) (d : Desk V) : Notification → Desk V → Prop
  /-- The oldest posted event is taken out, with its callback. -/
  | tick {tick : TickId} {rest : List TickId} (hposted : d.2.loop.posted = tick :: rest) :
      Consumed now d (.posted tick) ({ d.1 with ticks := d.1.ticks.erase tick },
        { d.2 with loop := { d.2.loop with posted := rest } })
  /-- The first timer of the queue, which fires once, is taken out, with its callback. -/
  | timeout {met : Time} {id : TimerId} {queue : List (Time × TimerId)}
      (hposted : d.2.loop.posted = []) (hqueue : d.2.loop.queue = (met, id) :: queue)
      (hdue : met ≤ now) (hlive : d.2.loop.live.get? id = some ⟨met, none⟩) :
      Consumed now d (.timer id) ({ d.1 with timeouts := d.1.timeouts.erase id },
        { d.2 with loop := { d.2.loop with queue, live := d.2.loop.live.erase id } })
  /-- The first timer of the queue, which repeats, is armed again, and keeps its callback. -/
  | interval {met : Time} {id : TimerId} {queue : List (Time × TimerId)} {interval : Span}
      (hposted : d.2.loop.posted = []) (hqueue : d.2.loop.queue = (met, id) :: queue)
      (hdue : met ≤ now) (hlive : d.2.loop.live.get? id = some ⟨met, some interval⟩) :
      Consumed now d (.timer id) (d.1, { d.2 with loop := { d.2.loop with
        queue := enqueue (nextDeadlineOf met now interval, id) queue
        live := d.2.loop.live.insert id ⟨nextDeadlineOf met now interval, some interval⟩ } })

variable {d d' : Desk V} {now : Time} {n : Notification}

/-- A delivery consumes one notification, at a desk whose scheduler agrees with the loop. -/
theorem Delivers.consumed (h : Delivers now n d d') (ha : d.Agrees) (hc : d.2.Coherent) :
    d.Consumed now n d' := by
  obtain ⟨s, seat⟩ := d
  obtain ⟨-, l, hpoll, rfl⟩ := h
  cases EventLoop.polls_of_poll hpoll with
  | posted hposted => exact .tick hposted
  | @once met id queue hposted hqueue hdue hevery =>
    obtain ⟨every, hlive⟩ := hc.queues.first hqueue
    obtain rfl : every = none := by simpa [hlive] using hevery
    have hkind : seat.loop.kind? id = some .timeout := EventLoop.kind?_eq_timeout.2 ⟨met, hlive⟩
    have hcallback : (s.timers .timeout).contains id = true :=
      Table.contains_iff_mem_keys.2 ((ha.timers .timeout id).2 hkind)
    have hgone : ({ seat.loop with queue, live := seat.loop.live.erase id } : EventLoop).kill id =
        { seat.loop with queue, live := seat.loop.live.erase id } :=
      EventLoop.kill_of_get?_none (Table.get?_erase_self ..)
    rw [Scheduler.take_timer, Scheduler.clearTimer, if_pos hcallback]
    change Consumed now (s, seat) _ (_, { seat with loop := EventLoop.kill _ id })
    rw [hgone]
    exact .timeout hposted hqueue hdue hlive
  | @again met id queue interval hposted hqueue hdue hevery =>
    obtain ⟨every, hlive⟩ := hc.queues.first hqueue
    obtain rfl : every = some interval := by simpa [hlive] using hevery
    have hkind : seat.loop.kind? id = some .interval :=
      EventLoop.kind?_eq_interval.2 ⟨met, interval, hlive⟩
    have hcallback : ¬(s.timers .timeout).contains id = true := by
      rw [Table.contains_iff_mem_keys, ha.timers .timeout id, hkind]
      rintro ⟨⟩
    rw [Scheduler.take_timer, Scheduler.clearTimer, if_neg hcallback]
    exact .interval hposted hqueue hdue hlive

end Desk

/-! ### What happens to the job -/

/-- A job that owes microtasks and ends without looking for another notification has them run once.
-/
theorem Duty.follow_owed_over {es : List Job.Event} (h : follow .owed es = some .over)
    (hpolled : .polled ∉ es) (hcalled : .called ∉ es) : es = [.drained, .settled, .ended] := by
  obtain rfl | ⟨es, rfl, h⟩ := follow_owed h
  · cases h
  obtain rfl | ⟨es, rfl, h⟩ := follow_running h
  · cases h
  obtain ⟨rest, hrest⟩ :=
    follow_clear h (fun he => hpolled (by simp [he])) fun he => hcalled (by simp [he])
  cases es with
  | nil => cases h
  | cons e es =>
    obtain ⟨rfl, hnil⟩ := List.cons.inj hrest
    rw [(List.append_eq_nil_iff.1 hnil).1]

namespace Job

variable {h : Host E} {j : Job E} {id : RuntimeId} {now : Time} {n : Notification}

/-- A job that calls a callback has looked for a notification and called one callback. -/
theorem Calls.events (H : j.Calls h id now n) : j.events h = [.polled, .called] := by
  obtain ⟨h₁, hn⟩ := H.handed
  have hover : ¬j.IsOver := by
    rintro ⟨o, ho⟩
    cases H.focus_eq.symm.trans ho
  have hcalled : callEvents h₁ id n = [.called] := by
    have hwork := H.work
    rw [step_eq_deliver H.focus_eq H.pass?_eq hn, deliver] at hwork
    rw [callEvents]
    rcases ht : h₁.takeCallback id n with ⟨_ | callback, h₂⟩
    · rw [ht] at hwork
      exact hwork.elim
    · rfl
  rw [Job.events, if_neg hover, ending_of_work H.work]
  simp only [doings, H.focus_eq, H.pass?_eq, hn, hcalled, List.append_nil]

/-- A job that does not take a notification neither looks for one nor calls a callback. -/
theorem events_of_focus (hf : j.focus ≠ .take) : .polled ∉ j.events h ∧ .called ∉ j.events h :=
  events_of_doings fun _ he => doings_of_focus hf he

/-- The exception with which a job has ended. -/
def exception? (j : Job E) : Option (Exception E.Value) :=
  match j.focus with
  | .over (.failed e) => some e
  | _ => none

theorem exception?_eq_some {j : Job E} {e : Exception E.Value} :
    j.exception? = some e ↔ j.focus = .over (.failed e) := by
  rw [exception?]
  constructor
  · intro h
    split at h
    · next hf => rw [hf, Option.some.inj h]
    · cases h
  · intro h
    rw [h]

end Job

namespace World

variable {w w' w₀ : World E} {i : Nat} {id : RuntimeId} {now : Time} {n : Notification} {m : Move E}
  {e : Exception E.Value} {j j' : Job E} {running draining ms : List (Move E)}

/-- The job `i`, if it takes a step in a move, is not about to take a notification. -/
def TakesNothing (i : Nat) (w : World E) (m : Move E) : Prop :=
  m = .step i → ∃ j, w.jobs[i]? = some j ∧ j.focus ≠ .take

/-- The job `i`, if it takes a step in a move, takes no notification in it, and does no more at the
desks than it is asked for. -/
def AsksOnly (i : Nat) (w : World E) (m : Move E) : Prop :=
  m = .step i → w.handed m = (fun _ => none) ∧ w.host.Does (w.asked m) (w.perform m).host

theorem TakesNothing.asksOnly (H : w.TakesNothing i m) : w.AsksOnly i m := by
  rintro rfl
  obtain ⟨j, hj, hf⟩ := H rfl
  have hhanded : w.handed (.step i) = fun _ => none := by
    rw [handed, hj]
    exact Job.handed?_of_focus hf
  refine ⟨hhanded, ?_⟩
  have hdeeds : w.asked (.step i) = j.deeds w.host := by
    funext id
    rw [asked, Job.deeds, Job.handed?_of_focus hf, World.invocation?, hj]
    rfl
  rw [hdeeds, perform, hj]
  exact j.step_does w.host

theorem TakesNothing.events (H : w.TakesNothing i m) (hi : i < w.jobs.length) :
    .polled ∉ w.jobEvents i m ∧ .called ∉ w.jobEvents i m := by
  by_cases hm : m = .step i
  · obtain ⟨j, hj, hf⟩ := H hm
    have hev : w.jobEvents i m = j.events w.host := by simp [hm, jobEvents, hj]
    rw [hev]
    exact Job.events_of_focus hf
  · rw [jobEvents_of_ne (List.getElem?_eq_getElem hi) hm]
    exact ⟨List.not_mem_nil, List.not_mem_nil⟩

theorem events_of_takesNothing (hi : i < w.jobs.length) (H : w.Along (TakesNothing i) ms) :
    .polled ∉ record (jobEvents i) w ms ∧ .called ∉ record (jobEvents i) w ms := by
  induction ms generalizing w with
  | nil => exact ⟨List.not_mem_nil, List.not_mem_nil⟩
  | cons m ms ih =>
    obtain ⟨hpolled, hcalled⟩ := H.1.events hi
    obtain ⟨hpolled', hcalled'⟩ := ih (Nat.lt_of_lt_of_le hi (w.length_jobs_le_perform m)) H.2
    rw [record, List.mem_append, List.mem_append]
    exact ⟨not_or.2 ⟨hpolled, hpolled'⟩, not_or.2 ⟨hcalled, hcalled'⟩⟩

theorem Throwing.takesNothing (H : w.Throwing i id now n e running draining) :
    (w.perform (.step i)).Along (TakesNothing i) (running ++ .step i :: draining ++ [.step i]) := by
  have hmid (w : World E) (m : Move E) (hm : w.MidWork i m) : w.TakesNothing i m := by
    intro hi
    obtain ⟨j, hj, hf, -⟩ := hm hi
    exact ⟨j, hj, fun htake => by rw [htake] at hf; exact hf⟩
  obtain ⟨j, hj, -, hthrows⟩ := H.throws
  obtain ⟨r, hr, -⟩ := hthrows.result
  obtain ⟨j', hj', hreports⟩ := H.reports
  obtain ⟨r', hr', -⟩ := hreports.result
  have hthrow : (w.run (.step i :: running)).TakesNothing i (.step i) :=
    fun _ => ⟨j, hj, by rw [hr]; rintro ⟨⟩⟩
  have hreport : (w.run (.step i :: running ++ .step i :: draining)).TakesNothing i (.step i) :=
    fun _ => ⟨j', hj', by rw [hr']; rintro ⟨⟩⟩
  refine along_append.2 ⟨along_append.2 ⟨H.runs.mono hmid, hthrow, ?_⟩, hreport, trivial⟩
  have hdrains := H.drains.mono hmid
  rw [run_append] at hdrains
  exact hdrains

/-! ### What is called again -/

/-- What is called again in a world goes on as the job `i` does in another one, in which it looks
for the next notification in a pass of a runtime at `now`. -/
structure Resumes (i : Nat) (id : RuntimeId) (now : Time) (j' : Job E) (w w' : World E) : Prop where
  /-- A pass goes on as the job does. -/
  pass : ∀ taken, j'.task = .pass id now taken →
    (w.perform (.start (.runReady j'.seat id now))).GoesOnAs w.jobs.length i taken
      (w'.perform (.start (.runReady j'.seat id now)))
  /-- An event loop begins a pass at the clock. -/
  begins : ∀ limit ms k, ((w.perform (.start (.runLoop j'.seat id limit))).run ms).jobs[
      w.jobs.length]? = some k → k.focus = .take → k.task = .loop id none limit →
    let w₁ := (w.perform (.start (.runLoop j'.seat id limit))).run ms
    w₁.perform (.step w.jobs.length) = w₁.inPassAt w.jobs.length w₁.host.platform.clock
  /-- An event loop that has begun a pass goes on as the job does, were that in a pass of the same
  time. -/
  loop : ∀ limit t ms k, j'.task = .loop id (some now) limit → .step i ∉ ms →
    ((w.perform (.start (.runLoop j'.seat id limit))).run ms).jobs[w.jobs.length]? = some k →
    k.focus = .take → k.task = .loop id (some t) limit →
    ((w.perform (.start (.runLoop j'.seat id limit))).run ms).GoesOnAs w.jobs.length i 0
      (((w'.perform (.start (.runLoop j'.seat id limit))).run ms).inPassAt i t)
  /-- The job is in a pass at `now` as it is. -/
  inPass : ∀ ms, .step i ∉ ms → (w'.run ms).inPassAt i now = w'.run ms

/-- The course of a callback that ends with an exception, from its call to the end of the job that
has called it, and what this consumes. -/
structure Uncaught (w : World E) (i : Nat) (id : RuntimeId) (now : Time) (n : Notification)
    (e : Exception E.Value) (running draining : List (Move E)) : Prop where
  /-- The job is handed the notification, and at no other runtime anything is handed out. -/
  handed : w.handed (.step i) = fun id' => if id = id' then some (now, n) else none
  /-- That notification is consumed, and then its callback does what it is asked for. -/
  consumed : ∃ d d₁ d', w.host.desk? id = some d ∧ d.Consumed now n d₁ ∧
    Desk.After (w.asked (.step i) id) d₁ d' ∧ (w.perform (.step i)).host.desk? id = some d'
  /-- From then on the job takes no notification, and does no more at the desks than its callback
  and the microtasks are asked for. -/
  asksOnly : (w.perform (.step i)).Along (AsksOnly i) (running ++ .step i :: draining ++ [.step i])
  /-- The callback is called, and ends with the exception. -/
  throws : ∃ j, (w.run (.step i :: running)).jobs[i]? = some j ∧
    j.Throws (w.run (.step i :: running)).host.engines e
  /-- Microtasks are run once, to their end, before the job ends. -/
  events : record (jobEvents i) w (.step i :: running ++ .step i :: draining ++ [.step i]) =
    [.polled, .called, .drained, .settled, .ended]
  /-- Had the callback returned, the same moves would have done the same to the host and to all
  other jobs; the job would look for the next notification; and what is called again goes on as it
  would have done. -/
  excused : ∃ j', ∀ v,
    let w₁ := w.run (.step i :: running ++ .step i :: draining ++ [.step i])
    let w₁' := ((w.run (.step i :: running)).excuse i v).run (.step i :: draining ++ [.step i])
    w₁'.host = w₁.host ∧ w₁'.jobs = w₁.jobs.set i j' ∧
      j'.focus = .take ∧ j'.pass? = some (id, now) ∧
      ∀ ms, .step i ∉ ms → Resumes i id now j' (w₁.run ms) (w₁'.run ms)

/-- What is called again goes on as a job that has been spared. -/
theorem Alike.resumes_of_spares (H : w.Alike (Job.Spares (id, now) e) i i w') (hw : w.Reached)
    (hj' : w'.jobs[i]? = some j') : Resumes i id now j' w w' := by
  obtain ⟨_, j'', -, hj'', hspares⟩ := H.job
  obtain rfl : j' = j'' := Option.some.inj (hj'.symm.trans hj'')
  have hinPass (ms : List (Move E)) (hms : .step i ∉ ms) :
      (w'.run ms).inPassAt i now = w'.run ms := by
    have hp : j'.pass? = some (id, now) := hspares.eq_turnTo ▸ hspares.pass?_eq
    exact inPassAt_of_pass? (job_run_idle hj' hms) hp
  refine ⟨fun taken ht => ?_, fun limit ms k hk hf ht => perform_step_begins hk hf ht,
    fun limit t ms k ht hms hk hf hkt => ?_, hinPass⟩
  · have hagain : j'.again? = some (.runReady j'.seat id now) := by rw [Job.again?, ht]
    have hnone : .step i ∉ ([] : List (Move E)) := List.not_mem_nil
    have hgoes := H.resumes (t := now) hw hj' hagain hnone List.getElem?_concat_length rfl
      (by rw [ht]; rfl)
    have hsame := hinPass [.start (.runReady j'.seat id now)] (by simp)
    rw [run_cons, run_nil] at hsame
    rwa [run_nil, run_nil, hsame, ht] at hgoes
  · have hagain : j'.again? = some (.runLoop j'.seat id limit) := by rw [Job.again?, ht]
    have hgoes := H.resumes (t := t) hw hj' hagain hms hk hf (by rw [hkt, ht]; rfl)
    rwa [ht] at hgoes

/-- The notification that a job is handed whose callback it calls is consumed. -/
theorem consumed_of_calls (hw : w.Reached) (hj : w.jobs[i]? = some j)
    (H : j.Calls w.host id now n) : ∃ d d₁ d', w.host.desk? id = some d ∧ d.Consumed now n d₁ ∧
      Desk.After (w.asked (.step i) id) d₁ d' ∧ (w.perform (.step i)).host.desk? id = some d' := by
  obtain ⟨h₁, hn⟩ := H.handed
  obtain ⟨d, d₁, hd, hout, -⟩ := Host.takeNext_desk hn
  have hdelivers := Desk.handOut_delivers hout
  have hdeeds : j.deeds w.host id = .hand now :: w.asked (.step i) id := by
    rw [Job.deeds, Job.handed?_deeds H.focus_eq H.pass?_eq hn, Host.deedsAt_self, asked,
      World.invocation?, hj]
    rfl
  have hafter := (j.step_does w.host).desks id
  rw [hd, hdeeds] at hafter
  rw [perform, hj]
  cases hd' : (j.step w.host).1.desk? id with
  | none =>
    rw [hd'] at hafter
    cases hafter
  | some d' =>
    rw [hd'] at hafter
    cases hafter with
    | some hafter =>
      exact ⟨d, _, d', hd, hdelivers.consumed (hw.agrees hd) (hw.coherent hd), hafter, rfl⟩

/-- Microtasks are run once, to their end, before the job ends. -/
theorem Throwing.events (hw : w.Reached) (H : w.Throwing i id now n e running draining) :
    record (jobEvents i) w (.step i :: running ++ .step i :: draining ++ [.step i]) =
      [.polled, .called, .drained, .settled, .ended] := by
  obtain ⟨j, hj, hcalls⟩ := H.calls
  obtain ⟨j₁, hj₁, -, hfirst, -⟩ := hw.follow_perform hj (.step i)
  have hev : w.jobEvents i (.step i) = [.polled, .called] := by
    simp only [jobEvents, if_pos, hj, Option.map_some, Option.getD_some, hcalls.events]
  obtain ⟨j', hj', hrest⟩ := (hw.perform (.step i)).follow_record hj₁
    (running ++ .step i :: draining ++ [.step i])
  obtain ⟨j'', _, hj'', -, hspares⟩ := (H.excused E.undefined).job
  obtain ⟨hpolled, hcalled⟩ :=
    events_of_takesNothing (List.getElem?_eq_some_iff.1 hj₁).1 H.takesNothing
  have howed : j₁.duty = .owed := by
    have hclear : j.duty = .clear := by rw [Job.duty, hcalls.focus_eq]
    rw [hclear, hev] at hfirst
    exact (Option.some.inj hfirst).symm
  have hover : j'.duty = .over := by
    obtain rfl : j' = j'' := Option.some.inj (hj'.symm.trans hj'')
    exact Job.duty_eq_over.2 ⟨_, hspares.focus_eq⟩
  rw [howed, hover] at hrest
  have hlast := Duty.follow_owed_over hrest hpolled hcalled
  rw [List.cons_append, List.cons_append, record, hev, hlast]
  rfl

theorem Throwing.uncaught (hw : w.Reached) (H : w.Throwing i id now n e running draining) :
    w.Uncaught i id now n e running draining := by
  obtain ⟨j, hj, hcalls⟩ := H.calls
  obtain ⟨j₁, hj₁, hp, hthrows⟩ := H.throws
  obtain ⟨h₁, hn⟩ := hcalls.handed
  have hi : i < (w.perform (.step i)).jobs.length :=
    Nat.lt_of_lt_of_le (List.getElem?_eq_some_iff.1 hj).1 (w.length_jobs_le_perform _)
  refine ⟨?_, consumed_of_calls hw hj hcalls, ?_, ⟨j₁, hj₁, hthrows⟩, ?_, ?_⟩
  · rw [handed, hj]
    simp only [Option.map_some, Option.getD_some,
      Job.handed?_eq hcalls.focus_eq hcalls.pass?_eq, hn]
  · exact H.takesNothing.mono fun w m hm => hm.asksOnly
  · exact H.events hw
  · obtain ⟨j₂, -, hj₂, -, -⟩ := (H.excused E.undefined).job
    refine ⟨j₂.turnTo .take, fun v => ?_⟩
    have halike := H.excused v
    obtain ⟨j₂', j', hj₂', hj', hspares⟩ := halike.job
    obtain rfl : j₂ = j₂' := Option.some.inj (hj₂.symm.trans hj₂')
    obtain rfl := hspares.eq_turnTo
    refine ⟨halike.host_eq, List.ext_getElem? fun k => ?_, rfl, hspares.pass?_eq, fun ms hms =>
      (halike.idle hms).resumes_of_spares ((hw.run _).run ms) (job_run_idle hj' hms)⟩
    by_cases hik : i = k
    · subst hik
      rw [hj', List.getElem?_set_self (List.getElem?_eq_some_iff.1 hj₂).1]
    · rw [List.getElem?_set_ne hik, halike.others k (Ne.symm hik) (Ne.symm hik)]

/-- An uncaught exception consumes the notification of its callback and nothing else. In every run,
if a pass or an event loop ends with an exception, then it has been handed a notification the
callback of which has ended with that exception; this notification has been consumed as if the
callback had returned; and what is called again goes on as the other would have done, an event loop
in a pass at the clock. -/
theorem exception_consumesItsOwn (engines : E.State) (platform : Platform)
    (profiles : Seat → Profile) (ms : List (Move E)) (i : Nat) (j : Job E)
    (e : Exception E.Value) (hj : ((initial engines platform profiles).run ms).jobs[i]? = some j)
    (hp : j.task.polls = true) (hrunning : ¬j.IsOver)
    (he : (j.step ((initial engines platform profiles).run ms).host).2.focus = .over (.failed e)) :
    ∃ before running draining id now n,
      ms = before ++ (.step i :: running ++ .step i :: draining) ∧
        ((initial engines platform profiles).run before).Uncaught i id now n e running
          draining := by
  have hw₀ : (initial engines platform profiles : World E).Reached :=
    ⟨engines, platform, profiles, [], rfl⟩
  obtain ⟨before, running, draining, id, now, n, hms, H⟩ :=
    exists_throwing hw₀ rfl hj hp hrunning he
  exact ⟨before, running, draining, id, now, n, hms, H.uncaught (hw₀.run before)⟩

/-- An engine with a function that throws, one that does nothing, and one that leaves the process
with exit code 3. -/
def throwingEngine : Script.State :=
  let leave : Json := .array [.string "g", .string "process", .string "exit"]
  let functions : List (List Json) :=
    [[.array [.string "throw", .string "late"]], [],
      [.array [.string "call", leave, .null, .int 3]]]
  functions.foldl (fun s body => (s.newOf (.function body none)).2)
    (Script.State.empty.seat [] [] [])

/-- A host with that engine. -/
def throwingWorld : World Script.engine := initial throwingEngine {} fun _ => ⟨⟨1⟩, 0⟩

/-- A run in which a timeout of 10 is started with the function that throws, an interval of 10 with
the one that does nothing, and a timeout of 35 with the one that leaves; then the event loop is
called and takes so many steps. The timeout of 10 is called with the sixth, it has ended with the
twelfth, and the job ends with the fifteenth. -/
def throwingRun (k : Nat) : List (Move Script.engine) :=
  [.attach 0 {} (.ofFiles "/"), .setTimer ⟨1⟩ .timeout (.object 1) (.ofNat 10),
    .setTimer ⟨1⟩ .interval (.object 2) (.ofNat 10),
    .setTimer ⟨1⟩ .timeout (.object 3) (.ofNat 35), .start (.runLoop 0 ⟨1⟩ 1000)] ++
    List.replicate k (.step 0)

/-- In that run the event loop ends with an exception, which consumes the timeout of 10. -/
theorem throwingRun_uncaught : ∃ e before running draining id now n,
    throwingRun 14 = before ++ (.step 0 :: running ++ .step 0 :: draining) ∧
      (throwingWorld.run before).Uncaught 0 id now n e running draining := by
  obtain ⟨j, hj, hends⟩ := Option.map_eq_some_iff.1 (show
    ((throwingWorld.run (throwingRun 14)).jobs[0]?.map fun j => (j.task.polls, decide j.IsOver,
      (j.step (throwingWorld.run (throwingRun 14)).host).2.exception?.isSome)) =
        some (true, false, true) by decide +kernel)
  obtain ⟨hp, hrest⟩ := Prod.mk.inj hends
  obtain ⟨hrunning, hfails⟩ := Prod.mk.inj hrest
  obtain ⟨e, he⟩ := Option.isSome_iff_exists.1 hfails
  exact ⟨e, exception_consumesItsOwn (E := Script.engine) throwingEngine {} (fun _ => ⟨⟨1⟩, 0⟩)
    (throwingRun 14) 0 j e hj hp (of_decide_eq_false hrunning) (Job.exception?_eq_some.1 he)⟩

/-- Before the event loop is called again there, the clock moves to 30. Then the interval is handed
out once before the loop is left. Had the timeout of 10 returned, the interval would be handed out
twice, for the pass at 10 would go on. -/
theorem throwingRun_readsClock :
    let w := throwingWorld.run (throwingRun 15)
    let w' := ((throwingWorld.run (throwingRun 12)).excuse 0 Script.Value.undefined).run
      (List.replicate 3 (.step 0))
    let clock : Move Script.engine := .outside w.host.engines { w.host.platform with clock := 30 }
    let again : List (Move Script.engine) :=
      .start (.runLoop 0 ⟨1⟩ 1000) :: List.replicate 30 (.step 1)
    let goOn : List (Move Script.engine) := List.replicate 36 (.step 0)
    (w.jobs[0]?.bind Job.exception?).isSome = true ∧
      (((w.perform clock).run again).jobs[1]?.bind Job.exitCode? = some 3 ∧
        ((w'.perform clock).run goOn).jobs[0]?.bind Job.exitCode? = some 3) ∧
      record (handings ⟨1⟩) (w.perform clock) again = [(30, .timer ⟨2⟩), (35, .timer ⟨3⟩)] ∧
      record (handings ⟨1⟩) (w'.perform clock) goOn =
        [(10, .timer ⟨2⟩), (30, .timer ⟨2⟩), (35, .timer ⟨3⟩)] :=
  ⟨by decide +kernel, ⟨by decide +kernel, by decide +kernel⟩, by decide +kernel, by decide +kernel⟩

end World

end ScriptHost
