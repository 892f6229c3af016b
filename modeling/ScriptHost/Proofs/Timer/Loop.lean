import ScriptHost.Proofs.Timer.Capacity
import ScriptHost.Proofs.Timer.Queue

/-!
# Loops in operation

A loop is operated by starting, killing and polling its timers, by posting events, by waiting and by
asking it to stop. Meanwhile the clock is set to any time, and other loops number their timers.
Polls and starts may name moments in any order, and intervals may be empty. Whatever is done, the
queue holds the deadlines of the live timers, every live timer has a place, and its number has been
given.

## Main definitions

* `EventLoop.deadline?`: when a live timer is due.
* `EventLoop.polled`: a loop after a poll.
* `LoopSeat.Operation`, `LoopSeat.perform`, `LoopSeat.run`: what is done with a loop at a seat.
* `LoopSeat.Reached`: a seat whose loop has been operated from the beginning.
* `LoopSeat.Sound`: queue, places and numbers fit the live timers.

## Main results

* `LoopSeat.Sound.perform`: every operation keeps a loop sound.
* `LoopSeat.Reached.sound`: so a loop is sound at any time.
-/

namespace ScriptHost

namespace EventLoop

/-- When a live timer is due. -/
def deadline? (l : EventLoop) (id : TimerId) : Option Time := (l.live.get? id).map Timer.deadline

/-- A loop after a poll. -/
def polled (l : EventLoop) (now : Time) : EventLoop :=
  match l.poll now with
  | some (_, l') => l'
  | none => l

theorem polled_of_poll {l l' : EventLoop} {now : Time} {n : Notification}
    (h : l.poll now = some (n, l')) : l.polled now = l' := by
  rw [polled, h]

theorem polled_of_poll_none {l : EventLoop} {now : Time} (h : l.poll now = none) :
    l.polled now = l := by
  rw [polled, h]

/-- A wait leaves the timers, the posted events and the places alone. -/
theorem waitUntil_keeps (l : EventLoop) (now limit : Time) :
    (l.waitUntil now limit).2.2.live = l.live ∧ (l.waitUntil now limit).2.2.queue = l.queue ∧
      (l.waitUntil now limit).2.2.posted = l.posted ∧
      (l.waitUntil now limit).2.2.capacity = l.capacity := by
  rcases (l.waitUntil_spec now limit).2 with h | h <;> simp [h]

end EventLoop

namespace LoopSeat

/-- What is done with a loop, with the clock and with the numbering of timers. -/
inductive Operation where
  /-- A timer is started at `now`. -/
  | start (now : Time) (delay : Span) (repeating : Bool)
  /-- A timer is killed. -/
  | kill (id : TimerId)
  /-- The loop is polled at `now`. -/
  | poll (now : Time)
  /-- An event is posted. -/
  | post (tick : TickId)
  /-- The loop is asked to stop. -/
  | stop
  /-- The next event is waited for, until `limit` at the latest. -/
  | wait (limit : Time)
  /-- The clock is set, ahead or back. -/
  | setClock (clock : Time)
  /-- Other loops number timers of theirs. -/
  | number (count : Nat)
deriving DecidableEq

/-- A seat after an operation. -/
def perform (s : LoopSeat) : Operation → LoopSeat
  | .start now delay repeating => (s.startAt now delay repeating).2
  | .kill id => { s with loop := s.loop.kill id }
  | .poll now => { s with loop := s.loop.polled now }
  | .post tick => { s with loop := s.loop.post tick }
  | .stop => { s with loop := s.loop.stop }
  | .wait limit =>
    let (_, clock, loop) := s.loop.waitUntil s.clock limit
    { s with loop, clock }
  | .setClock clock => { s with clock }
  | .number count => { s with nextTimer := s.nextTimer + count }

/-- A seat after some operations. -/
def run (s : LoopSeat) (os : List Operation) : LoopSeat := os.foldl perform s

/-- A seat whose loop has been operated from the beginning, when it held nothing. -/
def Reached (s : LoopSeat) : Prop :=
  ∃ capacity clock nextTimer os, s = run ⟨.ofCapacity capacity, clock, nextTimer⟩ os

/-- The queue holds the deadlines of the live timers, each of these has a place of its own, and
their numbers have been given. -/
structure Sound (s : LoopSeat) : Prop where
  queues : Queues s.loop.queue s.loop.live
  places : s.loop.HasPlaces
  lt_nextTimer : ∀ id ∈ s.loop.live.keys, id.val < s.nextTimer

variable {s s' : LoopSeat}

theorem Sound.next_notMem (h : s.Sound) : (⟨s.nextTimer⟩ : TimerId) ∉ s.loop.live.keys :=
  fun hmem => Nat.lt_irrefl _ (h.lt_nextTimer _ hmem)

/-- What does not touch the timers keeps a loop sound. -/
theorem Sound.of_eq (h : s.Sound) (hlive : s'.loop.live = s.loop.live)
    (hqueue : s'.loop.queue = s.loop.queue) (hcapacity : s'.loop.capacity = s.loop.capacity)
    (hnext : s.nextTimer ≤ s'.nextTimer) : s'.Sound where
  queues := by rw [hlive, hqueue]; exact h.queues
  places := h.places.of_sublist (by rw [hlive]) hcapacity
  lt_nextTimer id hid := Nat.lt_of_lt_of_le (h.lt_nextTimer id (hlive ▸ hid)) hnext

/-- A timer is started under the next number, or refused. -/
theorem Sound.startAt (h : s.Sound) (now : Time) (delay : Span) (repeating : Bool) :
    (s.startAt now delay repeating).2.Sound := by
  rw [LoopSeat.startAt]
  split
  · next l hl =>
    have harm := EventLoop.eq_arm_of_start hl
    refine ⟨?_, h.places.start h.next_notMem hl, fun id hid => ?_⟩
    · rw [harm]
      exact h.queues.insert (Table.get?_eq_none_iff.2 h.next_notMem) _
    · rw [harm, EventLoop.arm, Table.keys_insert, if_neg h.next_notMem] at hid
      rcases List.mem_append.1 hid with hid | hid
      · exact Nat.lt_succ_of_lt (h.lt_nextTimer id hid)
      · rw [List.mem_singleton.1 hid]
        exact Nat.lt_succ_self _
  · exact h

theorem Sound.kill (h : s.Sound) (id : TimerId) : Sound { s with loop := s.loop.kill id } where
  queues := h.queues.kill id
  places := h.places.kill id
  lt_nextTimer id' hid := h.lt_nextTimer id' ((s.loop.keys_kill_sublist id).subset hid)

theorem Sound.polled (h : s.Sound) (now : Time) : Sound { s with loop := s.loop.polled now } := by
  rcases hpoll : s.loop.poll now with _ | ⟨n, l⟩
  · rw [EventLoop.polled_of_poll_none hpoll]
    exact h
  · rw [EventLoop.polled_of_poll hpoll]
    exact ⟨h.queues.poll hpoll, h.places.poll hpoll,
      fun id hid => h.lt_nextTimer id ((EventLoop.keys_poll_sublist hpoll).subset hid)⟩

/-- Every operation keeps a loop sound. -/
theorem Sound.perform (h : s.Sound) (o : Operation) : (s.perform o).Sound := by
  cases o with
  | start now delay repeating => exact h.startAt now delay repeating
  | kill id => exact h.kill id
  | poll now => exact h.polled now
  | wait limit =>
    obtain ⟨hlive, hqueue, -, hcapacity⟩ := s.loop.waitUntil_keeps s.clock limit
    exact h.of_eq hlive hqueue hcapacity (Nat.le_refl _)
  | number count => exact h.of_eq rfl rfl rfl (Nat.le_add_right ..)
  | _ => exact h.of_eq rfl rfl rfl (Nat.le_refl _)

theorem Sound.run (h : s.Sound) (os : List Operation) : (s.run os).Sound := by
  induction os generalizing s with
  | nil => exact h
  | cons o os ih => exact ih (h.perform o)

theorem sound_ofCapacity (capacity : Nat) (clock : Time) (nextTimer : Nat) :
    Sound ⟨.ofCapacity capacity, clock, nextTimer⟩ where
  queues := ⟨.nil, by simp [EventLoop.ofCapacity]⟩
  places := ⟨by simp [EventLoop.ofCapacity], Nat.zero_le _⟩
  lt_nextTimer := by simp [EventLoop.ofCapacity]

/-- A loop that has been operated is sound. -/
theorem Reached.sound (h : s.Reached) : s.Sound := by
  obtain ⟨capacity, clock, nextTimer, os, rfl⟩ := h
  exact (sound_ofCapacity capacity clock nextTimer).run os

end LoopSeat

end ScriptHost
