import ScriptHost.Fault
import ScriptHost.Timer.EventLoop

/-!
# The scheduler

A scheduler owns every callback from its registration until it is run or cancelled. The loop that
it drives sees names only.

## Main definitions

* `Scheduler`: the callbacks of timeouts, intervals and ticks.
* `Scheduler.setTimer`, `Scheduler.clearTimer`, `Scheduler.nextTick`: registering and cancelling.
* `Scheduler.take`: the callback that a notification asks for.
* `LoopRecord`: a host that writes down what it is asked.
-/

namespace ScriptHost

/-- The callbacks of one runtime that are still to be run. -/
structure Scheduler (V : Type) where
  /-- The callbacks of one-shot timers. -/
  timeouts : Table TimerId V
  /-- The callbacks of repeating timers. -/
  intervals : Table TimerId V
  /-- The callbacks of posted events. -/
  ticks : Table TickId V
  /-- The number of the next posted event. -/
  nextTickId : Nat

/-- The two kinds of timers. -/
inductive TimerKind where
  /-- A timer that fires once. -/
  | timeout
  /-- A timer that fires again and again. -/
  | interval
deriving DecidableEq

/-- The function that starts timers of a kind. -/
def TimerKind.setter : TimerKind → String
  | timeout => "setTimeout"
  | interval => "setInterval"

/-- The function that cancels timers of a kind. -/
def TimerKind.clearer : TimerKind → String
  | timeout => "clearTimeout"
  | interval => "clearInterval"

namespace Scheduler

variable {V H : Type} [TimerHost H]

/-- A scheduler without callbacks. -/
def empty : Scheduler V := ⟨.empty, .empty, .empty, 1⟩

/-- The callbacks of the timers of a kind. -/
def timers (s : Scheduler V) : TimerKind → Table TimerId V
  | .timeout => s.timeouts
  | .interval => s.intervals

/-- Other callbacks for the timers of a kind. -/
def withTimers (s : Scheduler V) : TimerKind → Table TimerId V → Scheduler V
  | .timeout, t => { s with timeouts := t }
  | .interval, t => { s with intervals := t }

/-- Registers the callback of a timer that is started after `delay`; nothing is registered if the
host starts none. -/
def setTimer (s : Scheduler V) (h : H) (kind : TimerKind) (callback : V) (delay : Double) :
    Except Fault TimerId × Scheduler V × H :=
  match TimerHost.start h (delayOf delay) (kind == .interval) with
  | (some id, h) => (.ok id, s.withTimers kind ((s.timers kind).insert id callback), h)
  | (none, h) => (.error (.resource (kind.setter ++ ": unable to start timer")), s, h)

/-- Cancels a live timer of a kind; any other name changes nothing. -/
def clearTimer (s : Scheduler V) (h : H) (kind : TimerKind) (id : TimerId) : Scheduler V × H :=
  if (s.timers kind).contains id then
    (s.withTimers kind ((s.timers kind).erase id), TimerHost.kill h id)
  else (s, h)

/-- Registers the callback of a posted event. -/
def nextTick (s : Scheduler V) (h : H) (callback : V) : TickId × Scheduler V × H :=
  let tick : TickId := ⟨s.nextTickId⟩
  (tick, { s with ticks := s.ticks.insert tick callback, nextTickId := s.nextTickId + 1 },
    TimerHost.post h tick)

/-- The callback that a notification asks for. Those of one-shot timers and posted events are given
up with it; a name that is not registered has none. -/
def take (s : Scheduler V) (h : H) : Notification → Option V × Scheduler V × H
  | .timer id =>
    match s.timeouts.get? id with
    | some callback =>
      (some callback, { s with timeouts := s.timeouts.erase id }, TimerHost.kill h id)
    | none => (s.intervals.get? id, s, h)
  | .posted tick => (s.ticks.get? tick, { s with ticks := s.ticks.erase tick }, h)

/-- Whether a timer has a callback. -/
def isLive (s : Scheduler V) (id : TimerId) : Bool :=
  s.timeouts.contains id || s.intervals.contains id

/-- A scheduler as it is written in messages. -/
def summary (s : Scheduler V) : String :=
  "Scheduler \x7b timeouts: " ++ toString s.timeouts.size ++ ", intervals: " ++
    toString s.intervals.size ++ ", ticks: " ++ toString s.ticks.size ++ " \x7d"

end Scheduler

/-! ### A host that records -/

/-- A request to a host of timers. -/
inductive LoopRequest where
  /-- Start a timer; it was accepted or not. -/
  | start (delay : Span) (repeating accepted : Bool)
  /-- Take a timer out. -/
  | kill (id : TimerId)
  /-- Queue a posted event. -/
  | post (tick : TickId)
deriving DecidableEq

/-- A host that writes down its requests, numbers timers from one on, and refuses to start more than
`limit` of them. -/
structure LoopRecord where
  /-- The requests so far. -/
  requests : List LoopRequest
  /-- How many timers it has started. -/
  started : Nat
  /-- How many timers it starts at most. -/
  limit : Option Nat

namespace LoopRecord

instance : TimerHost LoopRecord where
  start r delay repeating :=
    let accepted := !r.limit.any (· ≤ r.started)
    let requests := r.requests ++ [.start delay repeating accepted]
    if accepted then (some ⟨r.started + 1⟩, { r with requests, started := r.started + 1 })
    else (none, { r with requests })
  kill r id := { r with requests := r.requests ++ [.kill id] }
  post r tick := { r with requests := r.requests ++ [.post tick] }

end LoopRecord

end ScriptHost
