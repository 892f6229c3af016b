import ScriptHost.Native.Invoke

/-!
# Jobs

A job is one errand of a host: to evaluate a script, to load a module, to deliver a notification, to
run what is ready, or to run the event loop. It is carried out in small steps, each a change of the
host and of the job, so that everything that happens between two calls of the host's user can be
followed step by step.

The stack of a job holds what waits for a result, innermost first: scripts in the middle of a native
call, modules whose body is being evaluated, and renderings. Microtasks are run only while the stack
is empty: after each callback that was delivered, before a load from the top level ends, and when
the event loop is entered.

## Main definitions

* `Task`, `Frame`, `Focus`, `Job`: what is to be done, what waits, what is being done.
* `Outcome`: how a job ends.
* `Job.step`: one step.
* `Job.run`: steps up to the end of a job.
-/

namespace ScriptHost

/-- What a job is to do. -/
inductive Task where
  /-- Evaluate a script. -/
  | evaluate
  /-- Load a module from the top level; if it is named as the main one, it must export something. -/
  | require (main : Option String)
  /-- Deliver one notification. -/
  | deliver
  /-- Deliver everything that is ready at `now`; so many notifications are taken already. -/
  | pass (owner : RuntimeId) (now : Time) (taken : Nat)
  /-- Run the event loop, in a pass at `now` if one has begun; waiting is given up at `limit`. -/
  | loop (owner : RuntimeId) (now : Option Time) (limit : Time)

/-- How a job ends. -/
inductive Outcome (V : Type) where
  /-- With a value. -/
  | returned (v : V)
  /-- A notification is delivered. -/
  | delivered
  /-- So many notifications were taken. -/
  | handled (count : Nat)
  /-- The event loop is left with an exit code. -/
  | exited (code : Int)
  /-- Waiting was given up. -/
  | expired
  /-- With an exception. -/
  | failed (e : Exception V)
  /-- The host has broken a rule of its own and says which. -/
  | broken (message : String)

/-- What waits for a result. -/
inductive Frame (E : Engine) where
  /-- A script in the middle of a native call. -/
  | script (rest : E.Script)
  /-- A module whose body is being evaluated. -/
  | module (l : Loading E.Value)
  /-- A rendering, for the text of a value. -/
  | rendering (r : Rendering E.Value) (v : E.Value)

/-- The result of a call that may raise a fault. -/
abbrev Result (E : Engine) : Type := Except (Exception E.Value) E.Value

/-- What a job is doing. -/
inductive Focus (E : Engine) where
  /-- A script runs. -/
  | script (s : E.Script)
  /-- Values are being rendered. -/
  | rendering (r : Rendering E.Value)
  /-- A result goes to what waits for it. -/
  | result (r : Result E)
  /-- The next notification is to be taken. -/
  | take
  /-- The job has ended. -/
  | over (o : Outcome E.Value)

/-- An errand of a host. -/
structure Job (E : Engine) where
  /-- The seat of the engine that runs all scripts of the job. -/
  seat : Seat
  /-- What is to be done. -/
  task : Task
  /-- The result that waits for the microtasks, while these are running. -/
  waiting : Option (Result E)
  /-- What waits for a result, innermost first. -/
  stack : List (Frame E)
  /-- What is being done. -/
  focus : Focus E

namespace Job

variable {E : Engine}

/-- The job with another focus. -/
def turnTo (j : Job E) (focus : Focus E) : Job E := { j with focus }

/-- The job that waits with a frame while something else is done. -/
def push (j : Job E) (frame : Frame E) (focus : Focus E) : Job E :=
  { j with stack := frame :: j.stack, focus }

/-- Does an action of the engines and goes on with its result. -/
def act {α : Type} (h : Host E) (j : Job E) (x : HostAction E α)
    (next : Host E → α → Host E × Job E) : Host E × Job E :=
  match x j.seat h with
  | (.ok a, h) => next h a
  | (.error e, h) => (h, j.turnTo (.result (.error e)))

/-! ### Calls -/

/-- Goes on with what a native function has replied. -/
def answer (h : Host E) (j : Job E) : Reply E → Host E × Job E
  | .value v => (h, j.turnTo (.result (.ok v)))
  | .render r => (h, j.turnTo (.rendering r))
  | .evaluate l scope =>
    let (s, engines) := E.evaluate j.seat scope h.engines
    ({ h with engines }, j.push (.module l) (.script s))

/-- Calls a native function. -/
def native (h : Host E) (j : Job E) (f : Native) (this : E.Value) (args : List E.Value) :
    Host E × Job E :=
  j.act h (f.invoke this args) fun h reply => j.answer h reply

/-- Calls a value. -/
def call (h : Host E) (j : Job E) (f this : E.Value) (args : List E.Value) : Host E × Job E :=
  match E.call j.seat f this args h.engines with
  | (.script s, engines) => ({ h with engines }, j.turnTo (.script s))
  | (.native f, engines) => j.native { h with engines } f this args
  | (.refused v, engines) => ({ h with engines }, j.turnTo (.result (.error (.thrown v))))

/-- The result of a native function as its caller sees it: a fault is made into an error object. -/
def settle (seat : Seat) (r : Result E) (s : E.State) : Except E.Value E.Value × E.State :=
  match r with
  | .ok v => (.ok v, s)
  | .error (.thrown v) => (.error v, s)
  | .error (.fault f) => let (v, s) := E.newError seat f.kind f.bare s; (.error v, s)

/-! ### Renderings -/

/-- Ends a rendering: its text is the result, or is printed. -/
def finishRendering (h : Host E) (j : Job E) (r : Rendering E.Value) : Host E × Job E :=
  match r.sink with
  | .result => (h, j.turnTo (.result (.ok (E.string r.text))))
  | .line stream =>
    ({ h with platform := h.platform.print stream r.text }, j.turnTo (.result (.ok E.undefined)))

/-- Renders the next piece. -/
def render (h : Host E) (j : Job E) (r : Rendering E.Value) : Host E × Job E :=
  match r.pieces with
  | [] => j.finishRendering h r
  | .literal s :: pieces => (h, j.turnTo (.rendering ({ r with pieces }.write s)))
  | .argument d v :: pieces =>
    let r := { r with pieces }
    match Rendering.form E h.engines v d with
    | .text s => (h, j.turnTo (.rendering (r.write s)))
    | .stringified =>
      match Rendering.stringifier E j.seat h.engines with
      | (none, engines) =>
        ({ h with engines }, j.turnTo (.rendering (r.write (E.display engines v))))
      | (some (json, f), engines) =>
        (j.push (.rendering r v) j.focus).call { h with engines } f json [v]

/-! ### Notifications -/

/-- Delivers a notification: its callback is called with the global object as `this` and without
arguments. A notification without a callback is passed over. -/
def deliver (h : Host E) (j : Job E) (owner : RuntimeId) (n : Notification) (stale : Focus E) :
    Host E × Job E :=
  match h.takeCallback owner n with
  | (none, h) => (h, j.turnTo stale)
  | (some callback, h) => j.call h callback (E.globalObject j.seat h.engines) []

/-- Leaves the event loop or waits for the next pass, once nothing is ready. -/
def rest (h : Host E) (j : Job E) (owner : RuntimeId) (limit : Time) : Host E × Job E :=
  match h.runtimes.get? owner with
  | none => (h, j.turnTo (.over .expired))
  | some r =>
    if r.loop.stopped || (r.config.exitWhenIdle && r.loop.isIdle) then
      (h, j.turnTo (.over (.exited r.exitStatus)))
    else
      let (woke, now, loop) := r.loop.waitUntil h.platform.clock limit
      let h := (h.put owner { r with loop }).setClock now
      if woke then (h, { j with task := .loop owner none limit, focus := .take })
      else (h, j.turnTo (.over .expired))

/-- Takes the next notification of a pass. A pass of the event loop begins by reading the clock. -/
def takeNext (h : Host E) (j : Job E) : Host E × Job E :=
  match j.task with
  | .pass owner now taken =>
    match h.takeNext owner now with
    | none => (h, j.turnTo (.over (.handled taken)))
    | some (n, h) => { j with task := .pass owner now (taken + 1) }.deliver h owner n .take
  | .loop owner none limit => (h, { j with task := .loop owner (some h.platform.clock) limit })
  | .loop owner (some now) limit =>
    match h.takeNext owner now with
    | none => j.rest h owner limit
    | some (n, h) => j.deliver h owner n .take
  | _ => (h, j.turnTo (.over .delivered))

/-! ### Results -/

/-- Enters an evaluated module as loaded; its exports are the result. -/
def enterLoaded (h : Host E) (j : Job E) (l : Loading E.Value) : Host E × Job E :=
  j.act h l.markLoaded fun h _ =>
    match l.cache? h with
    | none => (h, j.turnTo (.over (.broken (ModuleTable.cacheClash l.id))))
    | some h => j.act h (Loading.exportsOf l.object) fun h exports =>
      (h, j.turnTo (.result (.ok exports)))

/-- Hands a result to what waits for it. -/
def resume (h : Host E) (j : Job E) (frame : Frame E) (r : Result E) : Host E × Job E :=
  match frame with
  | .script rest =>
    let (r, engines) := settle j.seat r h.engines
    ({ h with engines }, j.turnTo (.script (E.resume rest r)))
  | .rendering rendering v =>
    (h, j.turnTo (.rendering (rendering.write (Rendering.stringifiedText E h.engines v r))))
  | .module l =>
    j.act h l.finish fun h _ =>
      match r with
      | .error e => (h, j.turnTo (.result (.error e)))
      | .ok _ => j.enterLoaded h l

/-- Runs the microtasks; a result waits for them. -/
def drain (h : Host E) (j : Job E) (r : Result E) : Host E × Job E :=
  let (s, engines) := E.microtasks j.seat h.engines
  ({ h with engines }, { j with waiting := some r, focus := .script s })

/-- How a job that evaluates or loads ends with a result. -/
def outcome (task : Task) : Result E → Outcome E.Value
  | .error e => .failed e
  | .ok v =>
    match task with
    | .require (some id) =>
      if E.isUndefined v then
        .failed (.fault (.other ("main module '" ++ id ++ "' produced no exports")))
      else .returned v
    | .deliver => .delivered
    | _ => .returned v

/-- What a job does with the result of its script. -/
def conclude (h : Host E) (j : Job E) (r : Result E) : Host E × Job E :=
  match j.task with
  | .evaluate => (h, j.turnTo (.over (outcome j.task r)))
  | .require _ => j.drain h r
  | .deliver | .pass .. | .loop .. =>
    let (r, engines) := settle j.seat r h.engines
    j.drain { h with engines } (r.mapError .thrown)

/-- What a job does once the microtasks have run. -/
def proceed (h : Host E) (j : Job E) (r : Result E) : Host E × Job E :=
  let j := { j with waiting := none }
  match j.task, r with
  | .pass .., .ok _ | .loop .., .ok _ => (h, j.turnTo .take)
  | task, r => (h, j.turnTo (.over (outcome task r)))

/-! ### Steps -/

/-- One step of a job. -/
def step (h : Host E) (j : Job E) : Host E × Job E :=
  match j.focus with
  | .over _ => (h, j)
  | .take => j.takeNext h
  | .rendering r => j.render h r
  | .script s =>
    match E.step j.seat s h.engines with
    | (.running s, engines) => ({ h with engines }, j.turnTo (.script s))
    | (.returned v, engines) => ({ h with engines }, j.turnTo (.result (.ok v)))
    | (.threw v, engines) => ({ h with engines }, j.turnTo (.result (.error (.thrown v))))
    | (.native f this args s, engines) =>
      (j.push (.script s) j.focus).native { h with engines } f this args
  | .result r =>
    match j.stack with
    | frame :: stack => { j with stack }.resume h frame r
    | [] =>
      match j.waiting with
      | none => j.conclude h r
      | some r => j.proceed h r

/-- Steps up to the end of a job, at most `fuel` of them; without an outcome if they do not
suffice. -/
def run : Nat → Host E → Job E → Option (Outcome E.Value) × Host E
  | 0, h, _ => (none, h)
  | fuel + 1, h, j =>
    match j.focus with
    | .over o => (some o, h)
    | _ => let (h, j) := j.step h; run fuel h j

/-! ### Beginnings -/

/-- The job of a task, with a focus. -/
def start (seat : Seat) (task : Task) (focus : Focus E) : Job E := ⟨seat, task, none, [], focus⟩

/-- Evaluates a script. -/
def evaluate (seat : Seat) (s : E.Script) : Job E := start seat .evaluate (.script s)

/-- Loads a module from the top level. -/
def require (h : Host E) (seat : Seat) (owner : RuntimeId) (q : Question) (main : Option String) :
    Host E × Job E :=
  let j := start seat (.require main) .take
  j.act h (Loading.require owner q) fun h reply => j.answer h reply

/-- Delivers one notification. -/
def notify (h : Host E) (seat : Seat) (owner : RuntimeId) (n : Notification) : Host E × Job E :=
  (start seat .deliver .take).deliver h owner n (.over .delivered)

/-- Delivers everything that is ready at `now`. -/
def runReady (seat : Seat) (owner : RuntimeId) (now : Time) : Job E :=
  start seat (.pass owner now 0) .take

/-- Runs the event loop; waiting is given up at `limit`. -/
def runLoop (h : Host E) (seat : Seat) (owner : RuntimeId) (limit : Time) : Host E × Job E :=
  (start seat (.loop owner none limit) .take).drain h (.ok E.undefined)

end Job

end ScriptHost
