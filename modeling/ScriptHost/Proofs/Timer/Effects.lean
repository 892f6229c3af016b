import ScriptHost.Proofs.Timer.Loop

/-!
# Scheduling calls are all or nothing

A script schedules by starting and cancelling timers, by queueing callbacks before the next timer
and by leaving the process. Each of these calls may fail: its arguments may be missing or of the
wrong type, its engine may have no runtime, the loop may have no place for a timer. All that can
fail comes before anything is changed, so a call that throws has changed nothing; a call that
returns has changed the scheduler and the loop alike, and nothing besides.

## Main definitions

* `Desk.Started`, `Desk.Cancelled`, `Desk.Queued`: what a call does to a scheduler and its loop,
  both told by what they hold afterwards.
* `Host.Changes`: one runtime and the numbering of timers have changed.
* `Request.Effect`: the complete effect of a call that returns.

## Main results

* `Request.serve_spec`: a request is refused and changes nothing, or has its complete effect.
* `Native.scheduling_allOrNothing`: a call throws and changes nothing, or has its complete effect.
-/

namespace ScriptHost

variable {V : Type} {E : Engine}

/-! ### Effects on a scheduler and its loop -/

namespace EventLoop

/-- A killed timer is queued for its deadline no more. -/
theorem mem_queue_kill (l : EventLoop) (id : TimerId) (p : Time × TimerId) :
    p ∈ (l.kill id).queue ↔ p ∈ l.queue ∧ ¬(p.2 = id ∧ l.deadline? id = some p.1) := by
  rw [kill, deadline?]
  split
  · next timer ht =>
    rw [List.mem_filter, ht, Option.map_some, Option.some_inj, Bool.not_eq_true',
      beq_eq_false_iff_ne, ne_eq, Prod.ext_iff, and_comm (a := p.1 = _), eq_comm (a := p.1)]
  · next hnone => simp [hnone]

/-- A kill leaves all but the timers alone. -/
theorem kill_eq (l : EventLoop) (id : TimerId) :
    l.kill id = { l with live := (l.kill id).live, queue := (l.kill id).queue } := by
  rw [kill]
  split <;> rfl

end EventLoop

namespace Desk

/-- A timer has been started: the scheduler holds its callback, and the loop its deadline. -/
structure Started (kind : TimerKind) (callback : V) (delay : Double) (d d' : Desk V) : Prop where
  timers : ∀ kind' timer, (d'.1.timers kind').get? timer =
    if kind' = kind ∧ timer = ⟨d.2.nextTimer⟩ then some callback
    else (d.1.timers kind').get? timer
  ticks : d'.1.ticks = d.1.ticks
  nextTickId : d'.1.nextTickId = d.1.nextTickId
  live : ∀ timer, d'.2.loop.live.get? timer =
    if timer = ⟨d.2.nextTimer⟩ then
      some ⟨d.2.clock + delayOf delay, if kind = .interval then some (delayOf delay) else none⟩
    else d.2.loop.live.get? timer
  queue : ∀ p, p ∈ d'.2.loop.queue ↔
    p = (d.2.clock + delayOf delay, ⟨d.2.nextTimer⟩) ∨ p ∈ d.2.loop.queue
  loop : d'.2.loop = { d.2.loop with live := d'.2.loop.live, queue := d'.2.loop.queue }
  nextTimer : d'.2.nextTimer = d.2.nextTimer + 1

/-- A timer has been cancelled: neither the scheduler nor the loop holds it any more. -/
structure Cancelled (kind : TimerKind) (timer : TimerId) (d d' : Desk V) : Prop where
  timers : ∀ kind' timer', (d'.1.timers kind').get? timer' =
    if kind' = kind ∧ timer' = timer then none else (d.1.timers kind').get? timer'
  ticks : d'.1.ticks = d.1.ticks
  nextTickId : d'.1.nextTickId = d.1.nextTickId
  live : ∀ timer', d'.2.loop.live.get? timer' =
    if timer' = timer then none else d.2.loop.live.get? timer'
  queue : ∀ p, p ∈ d'.2.loop.queue ↔
    p ∈ d.2.loop.queue ∧ ¬(p.2 = timer ∧ d.2.loop.deadline? timer = some p.1)
  loop : d'.2.loop = { d.2.loop with live := d'.2.loop.live, queue := d'.2.loop.queue }
  nextTimer : d'.2.nextTimer = d.2.nextTimer

/-- A callback has been queued: the scheduler holds it, and its event is the last that is posted. -/
structure Queued (callback : V) (d d' : Desk V) : Prop where
  ticks : ∀ tick, d'.1.ticks.get? tick =
    if tick = ⟨d.1.nextTickId⟩ then some callback else d.1.ticks.get? tick
  nextTickId : d'.1.nextTickId = d.1.nextTickId + 1
  timers : ∀ kind, d'.1.timers kind = d.1.timers kind
  posted : d'.2.loop.posted = d.2.loop.posted ++ [⟨d.1.nextTickId⟩]
  loop : d'.2.loop = { d.2.loop with posted := d'.2.loop.posted, wakeup := true }
  nextTimer : d'.2.nextTimer = d.2.nextTimer

/-- A start is refused and changes nothing, or it starts the timer with the next number. -/
theorem setTimer_spec (d : Desk V) (kind : TimerKind) (callback : V) (delay : Double) :
    (∃ e, d.1.setTimer d.2 kind callback delay = (.error e, d)) ∨
      ∃ d', d.1.setTimer d.2 kind callback delay = (.ok ⟨d.2.nextTimer⟩, d') ∧
        Started kind callback delay d d' := by
  rcases d.1.setTimer_cases d.2 kind callback delay with hrefused | hstarted
  · exact .inl ⟨_, hrefused⟩
  · refine .inr ⟨_, hstarted, ?_⟩
    refine ⟨fun kind' timer => ?_, Scheduler.ticks_withTimers ..,
      Scheduler.nextTickId_withTimers .., fun timer => ?_, fun p => mem_enqueue, rfl, rfl⟩
    · rw [Scheduler.timers_withTimers]
      by_cases hkind : kind' = kind
      · rw [if_pos hkind, Table.get?_insert, hkind]
        simp only [true_and]
      · rw [if_neg hkind, if_neg fun h => hkind h.1]
    · simp only [EventLoop.arm, Table.get?_insert, beq_iff_eq]

/-- A cancellation of a timer that has no callback of the kind changes nothing; any other cancels
the timer. -/
theorem clearTimer_spec (d : Desk V) (kind : TimerKind) (timer : TimerId) :
    if (d.1.timers kind).contains timer then
      Cancelled kind timer d (d.1.clearTimer d.2 kind timer)
    else d.1.clearTimer d.2 kind timer = d := by
  rw [Scheduler.clearTimer]
  split
  · refine ⟨fun kind' timer' => ?_, Scheduler.ticks_withTimers ..,
      Scheduler.nextTickId_withTimers .., fun timer' => ?_,
      fun p => d.2.loop.mem_queue_kill timer p,
      d.2.loop.kill_eq timer, rfl⟩
    · rw [Scheduler.timers_withTimers]
      by_cases hkind : kind' = kind
      · rw [if_pos hkind, Table.get?_erase, hkind]
        simp only [true_and]
      · rw [if_neg hkind, if_neg fun h => hkind h.1]
    · change (d.2.loop.kill timer).live.get? timer' = _
      rw [EventLoop.live_kill, Table.get?_erase]
  · rfl

/-- A callback is always queued. -/
theorem nextTick_spec (d : Desk V) (callback : V) :
    Queued callback d (d.1.nextTick d.2 callback).2 :=
  ⟨fun _ => Table.get?_insert .., rfl, fun kind => by cases kind <;> rfl, rfl, rfl, rfl⟩

end Desk

/-! ### Effects on a host -/

namespace Host

variable {h h' : Host E} {id : RuntimeId} {r r' : Runtime E}

theorem Alike.refl (h : Host E) : h.Alike h := ⟨fun _ => rfl, rfl⟩

/-- One runtime has changed in its scheduler, its loop and its exit code, and so has the numbering
of timers; nothing else has. -/
structure Changes (h h' : Host E) (id : RuntimeId) (r r' : Runtime E) : Prop where
  before : h.runtimes.get? id = some r
  after : h'.runtimes.get? id = some r'
  others : ∀ id', id' ≠ id → h'.runtimes.get? id' = h.runtimes.get? id'
  runtime : r' = { r with scheduler := r'.scheduler, loop := r'.loop, exitCode := r'.exitCode }
  rest : h' = { h with runtimes := h'.runtimes, nextTimer := h'.nextTimer }

/-- A host in which a runtime has another desk. -/
def withDesk (h : Host E) (id : RuntimeId) (r : Runtime E) (d : Desk E.Value) : Host E :=
  { h.put id { r with scheduler := d.1, loop := d.2.loop } with nextTimer := d.2.nextTimer }

/-- A desk that has not moved in time is the desk of the runtime that has it. -/
theorem loopSeat_withDesk (h : Host E) (id : RuntimeId) (r : Runtime E) {d : Desk E.Value}
    (hclock : d.2.clock = h.platform.clock) :
    (h.withDesk id r d).loopSeat { r with scheduler := d.1, loop := d.2.loop } = d.2 :=
  congrArg (fun clock => LoopSeat.mk d.2.loop clock d.2.nextTimer) hclock.symm

theorem changes_withDesk (hr : h.runtimes.get? id = some r) (d : Desk E.Value) :
    h.Changes (h.withDesk id r d) id r { r with scheduler := d.1, loop := d.2.loop } where
  before := hr
  after := Table.get?_insert_self ..
  others id' hid := by
    rw [withDesk, put, Table.get?_insert, if_neg hid]
  runtime := rfl
  rest := rfl

/-- A scheduler is used with its loop. -/
theorem scheduling?_withDesk {α : Type} (hr : h.runtimes.get? id = some r)
    {f : Scheduler E.Value → LoopSeat → α × Scheduler E.Value × LoopSeat} {a : α}
    {d : Desk E.Value} (hf : f r.scheduler (h.loopSeat r) = (a, d)) :
    h.scheduling? id f = some (a, h.withDesk id r d) := by
  rw [scheduling?_of_get? hr, hf]
  rfl

/-- A runtime that keeps its desk has not changed. -/
theorem withDesk_alike (hr : h.runtimes.get? id = some r) :
    h.Alike (h.withDesk id r (r.scheduler, h.loopSeat r)) :=
  scheduling?_alike (fun _ _ => rfl) (scheduling?_withDesk (f := fun s l => ((), s, l)) hr rfl)

theorem changes_put (hr : h.runtimes.get? id = some r)
    (hr' : r' = { r with scheduler := r'.scheduler, loop := r'.loop, exitCode := r'.exitCode }) :
    h.Changes (h.put id r') id r r' where
  before := hr
  after := Table.get?_insert_self ..
  others id' hid := by
    rw [put, Table.get?_insert, if_neg hid]
  runtime := hr'
  rest := rfl

end Host

namespace Request

/-- A request that schedules or leaves the process. -/
def Schedules : Request E → Prop
  | .require _ | .resolve _ => False
  | _ => True

/-- The complete effect of a request on a runtime `r`, by its answer `v`, the runtime `r'` and the
host afterwards. -/
def Effect (h h' : Host E) (r r' : Runtime E) : Request E → E.Value → Prop
  | .setTimer kind callback delay, v =>
    v = E.number (TimerFunction.handleOf ⟨h.nextTimer⟩) ∧ r'.exitCode = r.exitCode ∧
      Desk.Started kind callback delay (r.scheduler, h.loopSeat r) (r'.scheduler, h'.loopSeat r')
  | .clearTimer kind timer, v =>
    v = E.undefined ∧ r'.exitCode = r.exitCode ∧
      if (r.scheduler.timers kind).contains timer then
        Desk.Cancelled kind timer (r.scheduler, h.loopSeat r) (r'.scheduler, h'.loopSeat r')
      else (r'.scheduler, h'.loopSeat r') = (r.scheduler, h.loopSeat r)
  | .clearNothing, v =>
    v = E.undefined ∧ r'.exitCode = r.exitCode ∧
      (r'.scheduler, h'.loopSeat r') = (r.scheduler, h.loopSeat r)
  | .nextTick callback, v =>
    v = E.undefined ∧ r'.exitCode = r.exitCode ∧
      Desk.Queued callback (r.scheduler, h.loopSeat r) (r'.scheduler, h'.loopSeat r')
  | .exit code, v =>
    v = E.undefined ∧ r'.exitCode = some code ∧ r'.scheduler = r.scheduler ∧
      h'.loopSeat r' = { h.loopSeat r with
        loop := { r.loop with stopped := true, wakeup := true } }
  | .require _, _ | .resolve _, _ => False

variable {h : Host E} {id : RuntimeId} {r : Runtime E}

/-- A request to schedule is refused and changes nothing, or has its complete effect. -/
theorem serve_spec (hr : h.runtimes.get? id = some r) {q : Request E} (hq : q.Schedules)
    (seat : Seat) :
    (∃ e h', q.serve id seat h = (.error e, h') ∧ h.Alike h') ∨
      ∃ v h' r', q.serve id seat h = (.ok (.value v), h') ∧ h.Changes h' id r r' ∧
        q.Effect h h' r r' v := by
  cases q with
  | setTimer kind callback delay =>
    rcases Desk.setTimer_spec (r.scheduler, h.loopSeat r) kind callback delay with
      ⟨e, hset⟩ | ⟨d, hset, hstarted⟩
    · have hset : h.setTimer? id kind callback delay = some (.error e, _) :=
        Host.scheduling?_withDesk hr hset
      refine .inl ⟨.fault e, _, ?_, Host.withDesk_alike hr⟩
      rw [serve, Action.bind_def, using?, hset]
      rfl
    · have hclock : d.2.clock = h.platform.clock :=
        (congrArg (fun x => x.2.2.clock) hset).symm.trans (Desk.setTimer_clock ..)
      have hset : h.setTimer? id kind callback delay = some (.ok ⟨h.nextTimer⟩, _) :=
        Host.scheduling?_withDesk hr hset
      refine .inr ⟨_, _, _, ?_, Host.changes_withDesk hr d, rfl, rfl, ?_⟩
      · rw [serve, Action.bind_def, using?, hset]
        rfl
      · rw [Host.loopSeat_withDesk h id r hclock]
        exact hstarted
  | clearTimer kind timer =>
    have hspec := Desk.clearTimer_spec (r.scheduler, h.loopSeat r) kind timer
    have hclock := Desk.clearTimer_clock r.scheduler (h.loopSeat r) kind timer
    generalize hd : r.scheduler.clearTimer (h.loopSeat r) kind timer = d at hspec hclock
    have hclear : h.clearTimer? id kind timer = some ((), h.withDesk id r d) :=
      Host.scheduling?_withDesk hr (congrArg (Prod.mk ()) hd)
    refine .inr ⟨E.undefined, _, _, ?_, Host.changes_withDesk hr d, rfl, rfl, ?_⟩
    · rw [serve, Action.bind_def, using?, hclear]
      rfl
    · rw [Host.loopSeat_withDesk h id r hclock]
      exact hspec
  | clearNothing =>
    have hnothing : h.scheduling? id (fun s l => ((), s, l)) = some ((), _) :=
      Host.scheduling?_withDesk hr rfl
    refine .inr ⟨E.undefined, _, _, ?_, Host.changes_withDesk hr (r.scheduler, h.loopSeat r), rfl,
      rfl, ?_⟩
    · rw [serve, Action.bind_def, using?, hnothing]
      rfl
    · rw [Host.loopSeat_withDesk h id r rfl]
  | nextTick callback =>
    have hspec := Desk.nextTick_spec (r.scheduler, h.loopSeat r) callback
    generalize hd : r.scheduler.nextTick (h.loopSeat r) callback = p at hspec
    have hclock : p.2.2.clock = h.platform.clock := by rw [← hd]; rfl
    have hqueue : h.nextTick? id callback = some (p.1, h.withDesk id r p.2) :=
      Host.scheduling?_withDesk hr hd
    refine .inr ⟨E.undefined, _, _, ?_, Host.changes_withDesk hr p.2, rfl, rfl, ?_⟩
    · rw [serve, Action.bind_def, using?, hqueue]
      rfl
    · rw [Host.loopSeat_withDesk h id r hclock]
      exact hspec
  | exit code =>
    refine .inr ⟨E.undefined, h.exit id code, { r with exitCode := some code, loop := r.loop.stop },
      rfl, ?_, rfl, rfl, rfl, ?_⟩
    · rw [Host.exit, Host.update_of_get? _ hr]
      exact Host.changes_put hr rfl
    · rw [Host.exit, Host.update_of_get? _ hr]
      rfl
  | require q => exact hq.elim
  | resolve q => exact hq.elim

end Request

/-! ### Native functions -/

namespace Native

/-- A function that schedules or leaves the process. -/
def Schedules : Native → Prop
  | .timer _ | .process .nextTick | .process .exit => True
  | _ => False

variable {f : Native}

/-- What holds of all that a check lets pass. -/
theorem of_checked {α β : Type} {P : β → Prop} {check : Except Fault α} {g : α → Except Fault β}
    (hg : ∀ a b, g a = .ok b → P b) : ∀ b, check >>= g = .ok b → P b := by
  rcases check with e | a
  · intro b hb
    cases hb
  · exact hg a

/-- What such a function asks for is to schedule or to leave, unless it finds a fault. -/
theorem Schedules.request? (hf : f.Schedules) (s : E.State) (args : List E.Value) :
    ∃ r, f.request? s args = some r ∧ ∀ q, r = .ok q → q.Schedules := by
  unfold Native.request?
  split
  · refine ⟨_, rfl, of_checked fun _ => of_checked fun _ q hq => ?_⟩
    obtain rfl := Except.ok.inj hq
    trivial
  · refine ⟨_, rfl, of_checked fun handle q hq => ?_⟩
    obtain rfl := Except.ok.inj hq
    cases TimerId.ofHandle? handle <;> trivial
  · refine ⟨_, rfl, of_checked fun _ q hq => ?_⟩
    obtain rfl := Except.ok.inj hq
    trivial
  · refine ⟨_, rfl, of_checked fun _ q hq => ?_⟩
    obtain rfl := Except.ok.inj hq
    trivial
  · exact hf.elim
  · exact hf.elim
  · next hset hclear htick hexit hrequire hresolve =>
    cases f with
    | timer f => cases f with
      | set kind => exact absurd rfl (hset kind)
      | clear kind => exact absurd rfl (hclear kind)
    | process f => cases f with
      | nextTick => exact absurd rfl htick
      | exit => exact absurd rfl hexit
      | cwd => exact hf.elim
    | _ => exact hf.elim

/-- A call of a function that schedules or leaves the process is all or nothing, whatever its
arguments and whatever the state of the engines and runtimes. If it throws, nothing has changed. If
it returns, its arguments are those of a request, its engine is attached to a runtime, and the
request has had its complete effect on the scheduler, the loop and the exit code of this runtime and
on the numbering of timers, and none besides. -/
theorem scheduling_allOrNothing (hf : f.Schedules) (this : E.Value) (args : List E.Value)
    (seat : Seat) (h : Host E) :
    (∀ e h', f.invoke this args seat h = (.error e, h') → h.Alike h') ∧
      ∀ reply h', f.invoke this args seat h = (.ok reply, h') →
        ∃ q id r r' v, f.request? h.engines args = some (.ok q) ∧ h.attached seat = some id ∧
          reply = .value v ∧ h.Changes h' id r r' ∧ q.Effect h h' r r' v := by
  obtain ⟨checked, hrequest, hschedules⟩ := hf.request? h.engines args
  rw [invoke_eq_ask hrequest, hrequest]
  rcases checked with e | q
  · exact ⟨fun _ _ he => (Prod.mk.inj he).2 ▸ .refl h, fun _ _ he => by cases he⟩
  change (∀ e h', Request.ask (h.attached seat) q seat h = (.error e, h') → h.Alike h') ∧
    ∀ reply h', Request.ask (h.attached seat) q seat h = (.ok reply, h') → _
  cases hseat : h.attached seat with
  | none => exact ⟨fun _ _ he => (Prod.mk.inj he).2 ▸ .refl h, fun _ _ he => by cases he⟩
  | some id =>
    obtain ⟨r, hr⟩ := Host.exists_of_attached hseat
    rw [Request.ask]
    rcases Request.serve_spec hr (hschedules q rfl) seat with
      ⟨e, h₁, hserve, halike⟩ | ⟨v, h₁, r₁, hserve, hchanges, heffect⟩
    · rw [hserve]
      exact ⟨fun _ _ he => (Prod.mk.inj he).2 ▸ halike, fun _ _ he => by cases he⟩
    · rw [hserve]
      refine ⟨fun _ _ he => (by cases he), fun reply h' he => ?_⟩
      obtain ⟨hreply, rfl⟩ := Prod.mk.inj he
      exact ⟨q, id, r, r₁, v, rfl, rfl, (Except.ok.inj hreply).symm, hchanges, heffect⟩

/-- A host with a runtime whose only place is taken by a timeout. -/
def fullHost : Host Script.engine :=
  ((World.ofForms {}).run [.attach 0 { maxTimers := 1 } (.ofFiles "/"),
    .setTimer ⟨1⟩ .timeout (.object 54) .zero]).host

/-- A script calls a function on timers in that host. -/
def fullCall (f : TimerFunction) (arg : Script.Value) :
    Except (Exception Script.Value) (Reply Script.engine) × Host Script.engine :=
  (timer f).invoke (E := Script.engine) Script.Value.undefined [arg] 0 fullHost

/-- A script that starts an interval there gets an exception, and nothing changes; a script that
cancels the timeout by its handle changes its runtime. -/
theorem fullHost_allOrNothing :
    (∃ e h', fullCall (.set .interval) (.object 54) = (.error e, h') ∧ fullHost.Alike h') ∧
    ∃ reply h' id r r', fullCall (.clear .timeout) (.number (.ofNat 1)) = (.ok reply, h') ∧
      fullHost.Changes h' id r r' := by
  have H (f : TimerFunction) (arg : Script.Value) :=
    scheduling_allOrNothing (E := Script.engine) (f := timer f) trivial Script.Value.undefined [arg]
      0 fullHost
  constructor
  · have hthrows : (fullCall (.set .interval) (.object 54)).1.isOk = false := by decide +kernel
    generalize hcall : fullCall (.set .interval) (.object 54) = p at hthrows
    rcases p with ⟨e | reply, h'⟩
    · exact ⟨e, h', rfl, (H (.set .interval) (.object 54)).1 e h' hcall⟩
    · cases hthrows
  · have hreturns : (fullCall (.clear .timeout) (.number (.ofNat 1))).1.isOk = true := by
      decide +kernel
    generalize hcall : fullCall (.clear .timeout) (.number (.ofNat 1)) = p at hreturns
    rcases p with ⟨e | reply, h'⟩
    · cases hreturns
    · obtain ⟨-, id, r, r', -, -, -, -, hchanges, -⟩ :=
        (H (.clear .timeout) (.number (.ofNat 1))).2 reply h' hcall
      exact ⟨reply, h', id, r, r', rfl, hchanges⟩

end Native

end ScriptHost
