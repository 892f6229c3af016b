import ScriptHost.Timer.Scheduler
import Mathlib.Logic.Relation

/-!
# What happens at a desk

A desk is the scheduler of a runtime together with its loop, the clock and the numbering of timers.
All that happens at a desk is that a timer or an event is registered, cancelled or taken by hand,
that the loop is asked to stop or is told to forget a wakeup, that time goes by and other runtimes
number their timers, and, apart from all these, that the loop hands out a notification.

## Main definitions

* `EventLoop.Polls`: the four things that a poll of a loop does.
* `Desk.Shift`: what happens at a desk while the loop hands out nothing.
* `Desk.Delivers`: the loop hands out a notification, and its callback is taken.
* `Desk.Turn`: at most one notification, and then any number of shifts.
* `Desk.Deed`, `Desk.perform`: what is done at a desk on purpose, and what it leads to.
* `Desk.Drift`, `Desk.After`: what comes about besides, and a desk after some deeds.
* `Desk.fresh`: the desk of a runtime that has just been made.

## Main results

* `EventLoop.polls`: every poll does one of the four things.
* `Desk.Turn.invariant`: what shifts and deliveries keep is kept by turns.
* `Desk.After.turn`: deeds after at most one that hands out a notification are a turn.
-/

namespace ScriptHost

open Relation (ReflTransGen)

/-! ### Operations -/

namespace EventLoop

/-- A loop that starts a timer puts it in and keeps the others. -/
theorem eq_arm_of_start {l l' : EventLoop} {id : TimerId} {now : Time} {delay : Span}
    {repeating : Bool} (h : l.start id now delay repeating = some l') :
    l' = l.arm id ⟨now + delay, if repeating then some delay else none⟩ := by
  rw [start] at h
  split at h
  · cases h
  · exact (Option.some.inj h).symm

/-- A killed timer is dropped; a name that is not live is not there to be dropped. -/
theorem live_kill (l : EventLoop) (id : TimerId) : (l.kill id).live = l.live.erase id := by
  rw [kill]
  split
  · rfl
  · next hnone => exact (Table.erase_of_notMem (Table.get?_eq_none_iff.1 hnone)).symm

theorem kill_of_get?_none {l : EventLoop} {id : TimerId} (h : l.live.get? id = none) :
    l.kill id = l := by
  rw [kill, h]

theorem queue_kill_sublist (l : EventLoop) (id : TimerId) : (l.kill id).queue.Sublist l.queue := by
  rw [kill]
  split
  · exact List.filter_sublist
  · exact .refl _

/-- The four things a poll at `now` does. -/
inductive Polls (l : EventLoop) (now : Time) : Option (Notification × EventLoop) → Prop
  /-- Nothing is posted, and the first timer of the queue is not due. -/
  | nothing (hposted : l.posted = []) (hahead : ∀ p ∈ l.queue.head?, now < p.1) : Polls l now none
  /-- The oldest posted event is handed out. -/
  | posted {tick : TickId} {rest : List TickId} (hposted : l.posted = tick :: rest) :
      Polls l now (some (.posted tick, { l with posted := rest }))
  /-- The first timer of the queue is handed out and is gone. -/
  | once {met : Time} {id : TimerId} {queue : List (Time × TimerId)} (hposted : l.posted = [])
      (hqueue : l.queue = (met, id) :: queue) (hdue : met ≤ now)
      (hevery : (l.live.get? id).bind Timer.every = none) :
      Polls l now (some (.timer id, { l with queue := queue, live := l.live.erase id }))
  /-- The first timer of the queue is handed out and armed again. -/
  | again {met : Time} {id : TimerId} {queue : List (Time × TimerId)} {interval : Span}
      (hposted : l.posted = []) (hqueue : l.queue = (met, id) :: queue) (hdue : met ≤ now)
      (hevery : (l.live.get? id).bind Timer.every = some interval) :
      Polls l now (some (.timer id,
        { l with queue := queue }.arm id ⟨nextDeadlineOf met now interval, some interval⟩))

/-- Every poll does one of the four things. -/
theorem polls (l : EventLoop) (now : Time) : l.Polls now (l.poll now) := by
  rw [poll]
  split
  · next tick rest hposted => exact .posted hposted
  · next hposted =>
    split
    · next hqueue => exact .nothing hposted (by simp [hqueue])
    · next met id queue hqueue =>
      split
      · next hahead => exact .nothing hposted (by simpa [hqueue] using hahead)
      · next hdue =>
        have hdue := Nat.le_of_not_lt hdue
        dsimp only
        split
        · next interval hevery => exact .again hposted hqueue hdue hevery
        · next hevery => exact .once hposted hqueue hdue hevery

theorem polls_of_poll {l l' : EventLoop} {now : Time} {n : Notification}
    (h : l.poll now = some (n, l')) : l.Polls now (some (n, l')) := h ▸ l.polls now

end EventLoop

namespace LoopSeat

variable {s s' : LoopSeat} {now : Time} {delay : Span} {repeating : Bool}

/-- A start is refused and changes nothing, or it arms a timer under the next number. -/
theorem startAt_cases (s : LoopSeat) (now : Time) (delay : Span) (repeating : Bool) :
    s.startAt now delay repeating = (none, s) ∨
      s.startAt now delay repeating = (some ⟨s.nextTimer⟩, ⟨s.loop.arm ⟨s.nextTimer⟩
        ⟨now + delay, if repeating then some delay else none⟩, s.clock, s.nextTimer + 1⟩) := by
  rw [startAt]
  split
  · next l hl => exact .inr (by rw [EventLoop.eq_arm_of_start hl])
  · exact .inl rfl

/-- A timer that is started gets the next number. -/
theorem startAt_some {id : TimerId} (h : s.startAt now delay repeating = (some id, s')) :
    id = ⟨s.nextTimer⟩ ∧ s' = ⟨s.loop.arm ⟨s.nextTimer⟩
      ⟨now + delay, if repeating then some delay else none⟩, s.clock, s.nextTimer + 1⟩ := by
  rcases s.startAt_cases now delay repeating with hrefused | hstarted
  · cases hrefused.symm.trans h
  · obtain ⟨hid, hs⟩ := Prod.mk.inj (h.symm.trans hstarted)
    exact ⟨Option.some.inj hid, hs⟩

end LoopSeat

namespace Scheduler

/-- A start is refused and changes nothing, or it arms a timer under the next number and keeps the
callback under that number. -/
theorem setTimer_cases {V : Type} (s : Scheduler V) (l : LoopSeat) (kind : TimerKind) (callback : V)
    (delay : Double) :
    s.setTimer l kind callback delay =
        (.error (.resource (kind.setter ++ ": unable to start timer")), s, l) ∨
      s.setTimer l kind callback delay =
        (.ok ⟨l.nextTimer⟩,
          s.withTimers kind ((s.timers kind).insert ⟨l.nextTimer⟩ callback),
          ⟨l.loop.arm ⟨l.nextTimer⟩ ⟨l.clock + delayOf delay,
            if kind == .interval then some (delayOf delay) else none⟩,
            l.clock, l.nextTimer + 1⟩) := by
  have hstart : TimerHost.start l (delayOf delay) (kind == .interval) =
      l.startAt l.clock (delayOf delay) (kind == .interval) := rfl
  rw [setTimer, hstart]
  rcases l.startAt_cases l.clock (delayOf delay) (kind == .interval) with hrefused | hstarted
  · exact .inl (by rw [hrefused])
  · exact .inr (by rw [hstarted])

/-- Taking the callback of a timer does what cancelling it as a timeout does. -/
theorem take_timer {V H : Type} [TimerHost H] (s : Scheduler V) (h : H) (id : TimerId) :
    (s.take h (.timer id)).2 = s.clearTimer h .timeout id := by
  rcases hs : s.timeouts.get? id with _ | callback <;>
    simp [take, clearTimer, timers, withTimers, hs, ← Table.isSome_get?]

end Scheduler

/-! ### Desks -/

/-- The scheduler of a runtime at its loop. -/
abbrev Desk (V : Type) : Type := Scheduler V × LoopSeat

namespace Desk

variable {V : Type}

/-- A desk at which nothing is pending. -/
def fresh (capacity : Nat) (clock : Time) (nextTimer : Nat) : Desk V :=
  (.empty, ⟨.ofCapacity capacity, clock, nextTimer⟩)

/-- What happens at a desk while its loop hands out nothing. -/
inductive Shift : Desk V → Desk V → Prop
  /-- A timer is started, or refused. -/
  | setTimer (d : Desk V) (kind : TimerKind) (callback : V) (delay : Double) :
      Shift d (d.1.setTimer d.2 kind callback delay).2
  /-- A timer is cancelled. -/
  | clearTimer (d : Desk V) (kind : TimerKind) (id : TimerId) : Shift d (d.1.clearTimer d.2 kind id)
  /-- An event is posted. -/
  | nextTick (d : Desk V) (callback : V) : Shift d (d.1.nextTick d.2 callback).2
  /-- The callback of a notification is taken, whether the loop has handed it out or not. -/
  | take (d : Desk V) (n : Notification) : Shift d (d.1.take d.2 n).2
  /-- The loop is asked to stop. -/
  | stop (d : Desk V) : Shift d (d.1, { d.2 with loop := d.2.loop.stop })
  /-- A wait uses up the wakeup that was left. -/
  | forget (d : Desk V) : Shift d (d.1, { d.2 with loop := { d.2.loop with wakeup := false } })
  /-- Time goes by, and timers of other runtimes are numbered. -/
  | elapse (d : Desk V) {clock : Time} {nextTimer : Nat} (hclock : d.2.clock ≤ clock)
      (hnext : d.2.nextTimer ≤ nextTimer) : Shift d (d.1, ⟨d.2.loop, clock, nextTimer⟩)

/-- The loop hands out a notification at `now`, and its callback is taken. -/
def Delivers (now : Time) (n : Notification) (d d' : Desk V) : Prop :=
  d.2.loop.stopped = false ∧ ∃ l, d.2.loop.poll now = some (n, l) ∧
    d' = (d.1.take { d.2 with loop := l } n).2

/-- What a move does at a desk: the loop hands out the notification, if there is one, and then comes
what may. -/
def Turn : Option (Time × Notification) → Desk V → Desk V → Prop
  | none, d, d' => ReflTransGen Shift d d'
  | some (now, n), d, d' => ∃ d₁, Delivers now n d d₁ ∧ ReflTransGen Shift d₁ d'

/-- What every shift keeps is kept by any number of them. -/
theorem shifts_invariant {P : Desk V → Prop} (hshift : ∀ d d', P d → Shift d d' → P d')
    {d d' : Desk V} (hd : P d) (h : ReflTransGen Shift d d') : P d' := by
  induction h with
  | refl => exact hd
  | tail _ hs ih => exact hshift _ _ ih hs

/-- What shifts and deliveries keep is kept by turns. -/
theorem Turn.invariant {P : Desk V → Prop} (hshift : ∀ d d', P d → Shift d d' → P d')
    (hdeliver : ∀ now n d d', P d → Delivers now n d d' → P d')
    {o : Option (Time × Notification)} {d d' : Desk V} (hd : P d) (h : Turn o d d') : P d' := by
  match o, h with
  | none, h => exact shifts_invariant hshift hd h
  | some (now, n), ⟨d₁, h₁, h⟩ => exact shifts_invariant hshift (hdeliver _ _ _ _ hd h₁) h

/-! ### The clock and the numbering -/

theorem setTimer_seat (s : Scheduler V) (l : LoopSeat) (kind : TimerKind) (callback : V)
    (delay : Double) : (s.setTimer l kind callback delay).2.2 =
      (l.startAt l.clock (delayOf delay) (kind == .interval)).2 := by
  rw [Scheduler.setTimer]
  change _ = (TimerHost.start l _ _).2
  split <;> simp_all

theorem setTimer_clock (s : Scheduler V) (l : LoopSeat) (kind : TimerKind) (callback : V)
    (delay : Double) : (s.setTimer l kind callback delay).2.2.clock = l.clock := by
  rcases s.setTimer_cases l kind callback delay with hrefused | hstarted
  · rw [hrefused]
  · rw [hstarted]

theorem clearTimer_clock (s : Scheduler V) (l : LoopSeat) (kind : TimerKind) (id : TimerId) :
    (s.clearTimer l kind id).2.clock = l.clock := by
  rw [Scheduler.clearTimer]
  split <;> rfl

theorem clearTimer_nextTimer (s : Scheduler V) (l : LoopSeat) (kind : TimerKind) (id : TimerId) :
    (s.clearTimer l kind id).2.nextTimer = l.nextTimer := by
  rw [Scheduler.clearTimer]
  split <;> rfl

theorem take_clock (s : Scheduler V) (l : LoopSeat) (n : Notification) :
    (s.take l n).2.2.clock = l.clock := by
  unfold Scheduler.take
  split
  · split <;> rfl
  · rfl

theorem take_nextTimer (s : Scheduler V) (l : LoopSeat) (n : Notification) :
    (s.take l n).2.2.nextTimer = l.nextTimer := by
  unfold Scheduler.take
  split
  · split <;> rfl
  · rfl

/-- Shifts do not take back a number. -/
theorem Shift.nextTimer_le {d d' : Desk V} (h : Shift d d') : d.2.nextTimer ≤ d'.2.nextTimer := by
  cases h with
  | setTimer kind callback delay =>
    rcases d.1.setTimer_cases d.2 kind callback delay with hrefused | hstarted
    · exact Nat.le_of_eq (by rw [hrefused])
    · exact Nat.le_of_lt (by rw [hstarted]; exact Nat.lt_succ_self _)
  | clearTimer kind id => exact Nat.le_of_eq (clearTimer_nextTimer ..).symm
  | take n => exact Nat.le_of_eq (take_nextTimer ..).symm
  | elapse hclock hnext => exact hnext
  | _ => exact Nat.le_refl _

/-! ### Deeds -/

/-- What is done at a desk. -/
inductive Deed (V : Type) where
  /-- The loop hands out the next notification of a pass, and its callback is taken. -/
  | hand (now : Time)
  /-- The callback of a notification is taken by hand. -/
  | take (n : Notification)
  /-- A timer is started. -/
  | set (kind : TimerKind) (callback : V) (delay : Double)
  /-- A timer is cancelled. -/
  | clear (kind : TimerKind) (id : TimerId)
  /-- An event is posted. -/
  | tick (callback : V)

/-- A deed that is not that of a notification. -/
def Deed.IsAsked : Deed V → Prop
  | .hand _ | .take _ => False
  | .set .. | .clear .. | .tick _ => True

/-- What the loop hands out at `now`, and the desk after that; a stopped loop hands out nothing. -/
def handOut (d : Desk V) (now : Time) : Option (Notification × Desk V) :=
  if d.2.loop.stopped then none
  else (d.2.loop.poll now).map fun p => (p.1, (d.1, { d.2 with loop := p.2 }))

/-- A desk after a deed. -/
def perform (d : Desk V) : Deed V → Desk V
  | .hand now =>
    match d.handOut now with
    | none => d
    | some (n, d) => (d.1.take d.2 n).2
  | .take n => (d.1.take d.2 n).2
  | .set kind callback delay => (d.1.setTimer d.2 kind callback delay).2
  | .clear kind id => d.1.clearTimer d.2 kind id
  | .tick callback => (d.1.nextTick d.2 callback).2

/-- A desk after some deeds. -/
def performAll (d : Desk V) (as : List (Deed V)) : Desk V := as.foldl perform d

/-- What comes about at a desk besides deeds. -/
inductive Drift : Desk V → Desk V → Prop
  /-- The loop is asked to stop. -/
  | stop (d : Desk V) : Drift d (d.1, { d.2 with loop := d.2.loop.stop })
  /-- A wait uses up the wakeup that was left. -/
  | forget (d : Desk V) : Drift d (d.1, { d.2 with loop := { d.2.loop with wakeup := false } })
  /-- Time goes by, and timers of other runtimes are numbered. -/
  | elapse (d : Desk V) {clock : Time} {nextTimer : Nat} (hclock : d.2.clock ≤ clock)
      (hnext : d.2.nextTimer ≤ nextTimer) : Drift d (d.1, ⟨d.2.loop, clock, nextTimer⟩)

/-- A desk after some deeds and what has come about besides. -/
def After (as : List (Deed V)) (d d' : Desk V) : Prop := ReflTransGen Drift (d.performAll as) d'

theorem Drift.shift {d d' : Desk V} (h : Drift d d') : Shift d d' := by
  cases h with
  | stop => exact .stop d
  | forget => exact .forget d
  | elapse hclock hnext => exact .elapse d hclock hnext

/-- The loop hands out a notification without asking the scheduler or numbering a timer. -/
theorem handOut_keeps {d d₁ : Desk V} {now : Time} {n : Notification}
    (h : d.handOut now = some (n, d₁)) : d₁.1 = d.1 ∧ d₁.2.nextTimer = d.2.nextTimer := by
  rw [handOut] at h
  split at h
  · cases h
  · obtain ⟨p, -, he⟩ := Option.map_eq_some_iff.1 h
    obtain ⟨-, rfl⟩ := Prod.mk.inj he
    exact ⟨rfl, rfl⟩

theorem handOut_delivers {d d₁ : Desk V} {now : Time} {n : Notification}
    (h : d.handOut now = some (n, d₁)) : Delivers now n d (d.perform (.hand now)) := by
  rw [perform, h]
  rw [handOut] at h
  split at h
  · cases h
  · next hstop =>
    obtain ⟨⟨n', l⟩, hpoll, he⟩ := Option.map_eq_some_iff.1 h
    obtain ⟨rfl, rfl⟩ := Prod.mk.inj he
    exact ⟨Bool.eq_false_iff.2 hstop, l, hpoll, rfl⟩

/-- A deed other than that of the loop is a shift. -/
theorem perform_shift (d : Desk V) {a : Deed V} (ha : ∀ now, a ≠ .hand now) :
    Shift d (d.perform a) := by
  cases a with
  | hand now => exact absurd rfl (ha now)
  | take n => exact .take d n
  | set kind callback delay => exact .setTimer d kind callback delay
  | clear kind id => exact .clearTimer d kind id
  | tick callback => exact .nextTick d callback

/-- What shifts and deliveries keep is kept by deeds. -/
theorem performAll_invariant {P : Desk V → Prop} (hshift : ∀ d d', P d → Shift d d' → P d')
    (hdeliver : ∀ now n d d', P d → Delivers now n d d' → P d') {d : Desk V} (hd : P d)
    (as : List (Deed V)) :
    P (d.performAll as) := by
  induction as generalizing d with
  | nil => exact hd
  | cons a as ih =>
    refine ih ?_
    by_cases ha : ∃ now, a = .hand now
    · obtain ⟨now, rfl⟩ := ha
      cases hout : d.handOut now with
      | none => rwa [perform, hout]
      | some p => exact hdeliver now p.1 _ _ hd (handOut_delivers hout)
    · exact hshift _ _ hd (d.perform_shift fun now he => ha ⟨now, he⟩)

theorem After.shifts {d d' : Desk V} {as : List (Deed V)} (h : After as d d')
    (has : ∀ now, .hand now ∉ as) : ReflTransGen Shift d d' := by
  induction as generalizing d with
  | nil => exact ReflTransGen.mono (fun _ _ => Drift.shift) _ _ h
  | cons a as ih =>
    have hne (now : Time) : a ≠ .hand now := fun he => has now (he ▸ List.mem_cons_self ..)
    exact .head (d.perform_shift hne) (ih h fun now hm => has now (List.mem_cons_of_mem a hm))

/-- Deeds after at most one that hands out a notification are a turn. -/
theorem After.turn {d d' : Desk V} {o : Option (Time × Notification)} {as : List (Deed V)}
    (h : After (o.toList.map (fun p => .hand p.1) ++ as) d d')
    (ho : ∀ now n, o = some (now, n) → ∃ d₁, d.handOut now = some (n, d₁))
    (has : ∀ now, .hand now ∉ as) : Turn o d d' := by
  match o, ho, h with
  | none, _, h => exact h.shifts has
  | some (now, n), ho, h =>
    obtain ⟨d₁, hd₁⟩ := ho now n rfl
    exact ⟨_, handOut_delivers hd₁, After.shifts h has⟩

/-- A deed other than that of the loop takes no time. -/
theorem clock_perform (d : Desk V) {a : Deed V} (ha : ∀ now, a ≠ .hand now) :
    (d.perform a).2.clock = d.2.clock := by
  cases a with
  | hand now => exact absurd rfl (ha now)
  | take n => exact take_clock ..
  | set kind callback delay => exact setTimer_clock ..
  | clear kind id => exact clearTimer_clock ..
  | tick callback => rfl

theorem clock_performAll (d : Desk V) {as : List (Deed V)} (has : ∀ now, .hand now ∉ as) :
    (d.performAll as).2.clock = d.2.clock := by
  induction as generalizing d with
  | nil => rfl
  | cons a as ih =>
    have hne (now : Time) : a ≠ .hand now := fun he => has now (he ▸ List.mem_cons_self ..)
    exact (ih (d.perform a) fun now hm => has now (List.mem_cons_of_mem a hm)).trans
      (d.clock_perform hne)

theorem nextTimer_le_performAll (d : Desk V) {as : List (Deed V)} (has : ∀ now, .hand now ∉ as) :
    d.2.nextTimer ≤ (d.performAll as).2.nextTimer :=
  shifts_invariant (P := fun d' => d.2.nextTimer ≤ d'.2.nextTimer)
    (fun _ _ hd hs => Nat.le_trans hd hs.nextTimer_le) (Nat.le_refl _) (After.shifts .refl has)

end Desk

namespace EventLoop

/-- A wait that is over at once makes the loop forget a wakeup at most. -/
theorem eq_of_wait_over {l l' : EventLoop} {now : Time} (h : l.wait now = .over l') :
    l' = l ∨ l' = { l with wakeup := false } := by
  rw [wait] at h
  split at h
  · exact .inl (Waiting.over.inj h).symm
  · split at h
    · exact .inr (Waiting.over.inj h).symm
    · cases h

/-- A wait lasts for a deadline that is still to come. -/
theorem lt_of_wait_lasting {l : EventLoop} {now deadline : Time}
    (h : l.wait now = .lasting (some deadline)) : now < deadline := by
  rw [wait] at h
  split at h
  · cases h
  · next hover =>
    split at h
    · cases h
    · have hd : l.nextDeadline = some deadline := Waiting.lasting.inj h
      simp_all

/-- A wait does not turn back the clock, and makes the loop forget a wakeup at most. -/
theorem waitUntil_spec (l : EventLoop) (now limit : Time) :
    now ≤ (l.waitUntil now limit).2.1 ∧
      ((l.waitUntil now limit).2.2 = l ∨
        (l.waitUntil now limit).2.2 = { l with wakeup := false }) := by
  rw [waitUntil]
  split
  · next h => exact ⟨Nat.le_refl _, eq_of_wait_over h⟩
  · next deadline h =>
    split
    · exact ⟨Nat.le_of_lt (lt_of_wait_lasting h), .inl rfl⟩
    · exact ⟨Nat.le_max_left .., .inl rfl⟩
  · exact ⟨Nat.le_max_left .., .inl rfl⟩

end EventLoop

end ScriptHost
