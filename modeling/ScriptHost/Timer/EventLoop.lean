import ScriptHost.Table
import ScriptHost.Timer.Delay

/-!
# The event loop

An event loop holds posted events and live timers and hands them out as notifications: posted
events first, in the order in which they were posted, then timers that are due, the earliest
deadline first and among equal deadlines the older timer. It runs no callback.

Numbers of timers come from one counter for all loops; `LoopSeat` is a loop together with that
counter and the clock.

## Main definitions

* `EventLoop`: live timers, the queue of deadlines, posted events, capacity and state.
* `EventLoop.start`, `EventLoop.kill`, `EventLoop.post`, `EventLoop.stop`: changing a loop.
* `EventLoop.poll`: the next notification at a moment.
* `EventLoop.wait`, `EventLoop.waitUntil`: when a wait for the next event is over.
* `TimerHost`: what a scheduler asks of a loop.
-/

namespace ScriptHost

/-- A live timer. -/
structure Timer where
  /-- When it is due. -/
  deadline : Time
  /-- The interval of a repeating timer. -/
  every : Option Span
deriving DecidableEq

/-- A notification handed out by an event loop. -/
inductive Notification where
  /-- A timer has come due. -/
  | timer (id : TimerId)
  /-- A posted event has reached the front. -/
  | posted (tick : TickId)
deriving DecidableEq

/-- An event loop. -/
structure EventLoop where
  /-- The live timers. -/
  live : Table TimerId Timer
  /-- The deadlines of the live timers, earliest first. -/
  queue : List (Time × TimerId)
  /-- The posted events, oldest first. -/
  posted : List TickId
  /-- How many timers may be live at once. -/
  capacity : Nat
  /-- Whether the loop has been asked to stop. -/
  stopped : Bool
  /-- Whether the next wait that finds nothing to do returns at once; left by a post or a stop. -/
  wakeup : Bool

namespace EventLoop

/-- A loop without timers and events. -/
def ofCapacity (capacity : Nat) : EventLoop :=
  ⟨.empty, [], [], capacity, false, false⟩

/-- Whether the first of two deadlines comes first; among equal ones the older timer does. -/
def before (a b : Time × TimerId) : Bool := a.1 < b.1 || (a.1 == b.1 && a.2.val < b.2.val)

/-- A deadline put into its place in a queue. -/
def enqueue (e : Time × TimerId) : List (Time × TimerId) → List (Time × TimerId)
  | [] => [e]
  | f :: q => if before e f then e :: f :: q else f :: enqueue e q

/-- Puts a timer in, live and queued. -/
def arm (l : EventLoop) (id : TimerId) (timer : Timer) : EventLoop :=
  { l with live := l.live.insert id timer, queue := enqueue (timer.deadline, id) l.queue }

/-- Starts the timer `id` at `now`; `none` if the loop holds as many timers as it may. -/
def start (l : EventLoop) (id : TimerId) (now : Time) (delay : Span) (repeating : Bool) :
    Option EventLoop :=
  if l.capacity ≤ l.live.size then none
  else some (l.arm id ⟨now + delay, if repeating then some delay else none⟩)

/-- Takes a live timer out; a name that is not live changes nothing. -/
def kill (l : EventLoop) (id : TimerId) : EventLoop :=
  match l.live.get? id with
  | some timer =>
    let queue := l.queue.filter fun e => !(e == (timer.deadline, id))
    { l with live := l.live.erase id, queue }
  | none => l

/-- Queues a posted event. -/
def post (l : EventLoop) (tick : TickId) : EventLoop :=
  { l with posted := l.posted ++ [tick], wakeup := true }

/-- Asks the loop to stop. -/
def stop (l : EventLoop) : EventLoop := { l with stopped := true, wakeup := true }

/-- The next deadline of a timer that met the deadline `met` and is delivered at `now`: one interval
later, counted from `now` if that has passed too. -/
def nextDeadlineOf (met now : Time) (interval : Span) : Time :=
  if met + interval ≤ now then now + interval else met + interval

/-- The next notification at `now`, and the loop after it. A delivered timer is gone, or armed again
if it repeats. -/
def poll (l : EventLoop) (now : Time) : Option (Notification × EventLoop) :=
  match l.posted with
  | tick :: rest => some (.posted tick, { l with posted := rest })
  | [] =>
    match l.queue with
    | [] => none
    | (met, id) :: queue =>
      if now < met then none
      else
        let l := { l with queue := queue }
        match (l.live.get? id).bind Timer.every with
        | some interval =>
          some (.timer id, l.arm id ⟨nextDeadlineOf met now interval, some interval⟩)
        | none => some (.timer id, { l with live := l.live.erase id })

/-- The earliest deadline. -/
def nextDeadline (l : EventLoop) : Option Time := l.queue.head?.map Prod.fst

/-- Whether an event is posted. -/
def hasPosted (l : EventLoop) : Bool := !l.posted.isEmpty

/-- Whether a timer is live. -/
def isLive (l : EventLoop) (id : TimerId) : Bool := l.live.contains id

/-- Whether nothing is pending. -/
def isIdle (l : EventLoop) : Bool := !l.hasPosted && l.live.isEmpty

/-! ### Waiting -/

/-- How a wait begins. -/
inductive Waiting where
  /-- It is over at once. -/
  | over (l : EventLoop)
  /-- It lasts until the next deadline; without one, for ever. -/
  | lasting (deadline : Option Time)

/-- A wait at `now`. It is over at once if the loop is stopped, an event is posted or a timer is
due; failing these, a wakeup that was left ends it and is used up. -/
def wait (l : EventLoop) (now : Time) : Waiting :=
  if l.stopped || l.hasPosted || l.nextDeadline.any (· ≤ now) then .over l
  else if l.wakeup then .over { l with wakeup := false }
  else .lasting l.nextDeadline

/-- A wait at `now` that is given up at `limit`, or at once if that has passed: whether it ended by
itself, when it ended, and the loop. A deadline at the limit itself is still waited for. -/
def waitUntil (l : EventLoop) (now limit : Time) : Bool × Time × EventLoop :=
  match l.wait now with
  | .over l => (true, now, l)
  | .lasting (some deadline) =>
    if deadline ≤ limit then (true, deadline, l) else (false, max now limit, l)
  | .lasting none => (false, max now limit, l)

/-- A loop as it is written in messages. -/
def summary (l : EventLoop) : String :=
  "EventLoop \x7b live_timers: " ++ toString l.live.size ++ ", posted: " ++
    toString l.posted.length ++ ", stopped: " ++ (if l.stopped then "true" else "false") ++ " \x7d"

end EventLoop

/-! ### Hosts of timers -/

/-- What a scheduler asks of the loop that it drives. -/
class TimerHost (H : Type) where
  /-- Starts a timer, if the loop can. -/
  start : H → Span → Bool → Option TimerId × H
  /-- Takes a timer out. -/
  kill : H → TimerId → H
  /-- Queues a posted event. -/
  post : H → TickId → H

/-- An event loop with the clock and with the counter that numbers the timers of all loops. -/
structure LoopSeat where
  /-- The loop. -/
  loop : EventLoop
  /-- The time by the clock. -/
  clock : Time
  /-- The number of the next timer of any loop. -/
  nextTimer : Nat

namespace LoopSeat

/-- Starts a timer at `now`. A refused start uses up no number. -/
def startAt (s : LoopSeat) (now : Time) (delay : Span) (repeating : Bool) :
    Option TimerId × LoopSeat :=
  match s.loop.start ⟨s.nextTimer⟩ now delay repeating with
  | some l => (some ⟨s.nextTimer⟩, { s with loop := l, nextTimer := s.nextTimer + 1 })
  | none => (none, s)

instance : TimerHost LoopSeat where
  start s delay repeating := s.startAt s.clock delay repeating
  kill s id := { s with loop := s.loop.kill id }
  post s tick := { s with loop := s.loop.post tick }

end LoopSeat

end ScriptHost
