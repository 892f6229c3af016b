import ScriptHost.Proofs.Host.Registration
import ScriptHost.Proofs.Host.WorldDesks

/-!
# What native functions act on

Native functions hold no state of their own. A function on timers, on modules or of the process
object asks something of the runtime that the engine of its caller is attached to at the moment of
the call: the same that an embedder asks of this runtime directly. If there is none, the function
throws and changes nothing.

## Main definitions

* `Request`: what a native function may ask of a runtime.
* `Request.serve`: what the runtime does then.
* `Native.request?`: what a native function asks for by its arguments.

## Main results

* `Native.invoke_eq_ask`: a native function asks the attached runtime.
* `Native.invoke_of_detached`: without one it throws and changes nothing.
* `World.attached_of_invocation?`: a function called by a job finds the runtime that its engine had
  when the step of the job began.
-/

namespace ScriptHost

open Host

variable {E : Engine} {α : Type}

/-- What a native function may ask of a runtime. -/
inductive Request (E : Engine) where
  /-- To start a timer. -/
  | setTimer (kind : TimerKind) (callback : E.Value) (delay : Double)
  /-- To cancel a timer. -/
  | clearTimer (kind : TimerKind) (timer : TimerId)
  /-- To cancel nothing, since a number is the handle of no timer. -/
  | clearNothing
  /-- To queue a callback before the next timer. -/
  | nextTick (callback : E.Value)
  /-- To record an exit code and to stop the loop. -/
  | exit (code : Int)
  /-- To load a module. -/
  | require (q : Question)
  /-- To tell the canonical id of a specifier. -/
  | resolve (q : Question)

namespace Request

/-- A use of a runtime, or a fault if it is not alive. -/
def using? (x : Host E → Option (α × Host E)) : HostAction E α := fun seat h =>
  match x h with
  | some (a, h) => (.ok a, h)
  | none => HostAction.detached seat h

/-- What a runtime does for a request. -/
def serve (id : RuntimeId) : Request E → HostAction E (Reply E)
  | setTimer kind callback delay => do
    let timer ← Action.ofExcept (← using? fun h => h.setTimer? id kind callback delay)
    return .value (E.number (TimerFunction.handleOf timer))
  | clearTimer kind timer => do
    using? fun h => h.clearTimer? id kind timer
    return .value E.undefined
  | clearNothing => do
    using? fun h => h.scheduling? id fun s l => ((), s, l)
    return .value E.undefined
  | nextTick callback => do
    let _ ← using? fun h => h.nextTick? id callback
    return .value E.undefined
  | exit code => do
    Action.modify fun h => h.exit id code
    return .value E.undefined
  | require q => Loading.require id q
  | resolve q => return .value (E.string (← Loading.resolve id q))

/-- What comes of a request to a runtime, if there is one. -/
def ask : Option RuntimeId → Request E → HostAction E (Reply E)
  | some id, r => r.serve id
  | none, _ => HostAction.detached

end Request

/-- What a native function asks of a runtime by its arguments, or the fault that it finds in them. A
function that asks nothing of a runtime has no request. -/
def Native.request? (f : Native) (s : E.State) (args : List E.Value) :
    Option (Except Fault (Request E)) :=
  match f with
  | .timer (.set kind) => some do
    let callback ← Arguments.callable E s args 0 kind.setter "callback"
    let delay ← Arguments.number E args 1 kind.setter "delay"
    return .setTimer kind callback delay
  | .timer (.clear kind) => some do
    let handle ← Arguments.number E args 0 kind.clearer "id"
    return ((TimerId.ofHandle? handle).map (.clearTimer kind)).getD .clearNothing
  | .process .nextTick => some do
    return .nextTick (← Arguments.callable E s args 0 "process.nextTick" "callback")
  | .process .exit => some do return .exit (← ProcessFunction.exitArgument args)
  | .module .require => some do return .require (← ModuleFunction.question "require" args)
  | .module .resolve => some do return .resolve (← ModuleFunction.question "require.resolve" args)
  | _ => none

variable {h : Host E} {seat : Seat} {id : RuntimeId} {f : Native} {this : E.Value}
  {args : List E.Value}

/-! ### Checks and uses -/

section Bind

variable {β γ : Type} {seat : Seat} {h : Host E}

theorem Action.ofExcept_bind (r : Except Fault α) (g : α → Except Fault β)
    (f : β → HostAction E γ) :
    Action.ofExcept (r >>= g) >>= f =
      Action.ofExcept r >>= fun a => Action.ofExcept (g a) >>= f := by
  cases r <;> rfl

/-- What follows a check matters only for what passes it. -/
theorem Action.check_congr {r : Except Fault α} {f g : α → HostAction E β}
    (hfg : ∀ a, r = .ok a → f a seat h = g a seat h) :
    (Action.ofExcept r >>= f) seat h = (Action.ofExcept r >>= g) seat h := by
  cases r with
  | ok a => exact hfg a rfl
  | error e => rfl

theorem HostAction.argument_bind (g : E.State → Except Fault α) (f : α → HostAction E β) :
    (argument g >>= f) seat h = (Action.ofExcept (g h.engines) >>= f) seat h := by
  rw [Action.bind_def, Action.bind_def]
  rfl

/-- The scheduler of the attached runtime is used, if there is one. -/
theorem HostAction.scheduling_bind
    (f : Scheduler E.Value → LoopSeat → α × Scheduler E.Value × LoopSeat)
    (k : α → HostAction E β) : (scheduling f >>= k) seat h =
      match h.attached seat with
      | some id => (Request.using? (fun h => h.scheduling? id f) >>= k) seat h
      | none => HostAction.detached seat h := by
  cases hid : h.attached seat with
  | none => simp only [Action.bind_def, scheduling, hid, Option.bind_none, detached]
  | some id =>
    cases hs : h.scheduling? id f <;>
      simp only [Action.bind_def, scheduling, Request.using?, hid, hs, Option.bind_some]

theorem HostAction.attached_bind (k : RuntimeId → HostAction E β) : (attached >>= k) seat h =
    match h.attached seat with
    | some id => k id seat h
    | none => HostAction.detached seat h := by
  rw [Action.bind_def, attached]
  cases h.attached seat <;> rfl

end Bind

open ScriptHost.Action HostAction

/-- A native function asks the runtime that the engine of its caller is attached to. -/
theorem Native.invoke_eq_ask {r : Except Fault (Request E)}
    (hr : f.request? h.engines args = some r) : f.invoke this args seat h =
      (Action.ofExcept r >>= Request.ask (h.attached seat)) seat h := by
  unfold request? at hr
  split at hr <;> cases hr
  · simp only [invoke, TimerFunction.invoke, TimerFunction.start, LawfulMonad.bind_assoc,
      ofExcept_bind, argument_bind]
    refine check_congr fun callback _ => check_congr fun delay _ => ?_
    rw [scheduling_bind]
    cases h.attached seat <;> rfl
  · simp only [invoke, TimerFunction.invoke, TimerFunction.cancel, LawfulMonad.bind_assoc,
      ofExcept_bind]
    refine check_congr fun handle _ => ?_
    rw [scheduling_bind]
    cases h.attached seat with
    | none => rfl
    | some id => cases TimerId.ofHandle? handle <;> rfl
  · simp only [invoke, ProcessFunction.invoke, ProcessFunction.queue, LawfulMonad.bind_assoc,
      ofExcept_bind, argument_bind]
    refine check_congr fun callback _ => ?_
    rw [scheduling_bind]
    cases h.attached seat <;> rfl
  · simp only [invoke, ProcessFunction.invoke, ProcessFunction.leave, LawfulMonad.bind_assoc,
      ofExcept_bind]
    refine check_congr fun code _ => ?_
    rw [attached_bind]
    cases h.attached seat <;> rfl
  · simp only [invoke, ModuleFunction.invoke, ofExcept_bind]
    refine check_congr fun q _ => ?_
    rw [attached_bind]
    cases h.attached seat <;> rfl
  · simp only [invoke, ModuleFunction.invoke, ofExcept_bind]
    refine check_congr fun q _ => ?_
    rw [attached_bind]
    cases h.attached seat <;> rfl

/-- Without an attached runtime, a function that asks something of one throws and changes nothing.
-/
theorem Native.invoke_of_detached {r : Except Fault (Request E)}
    (hr : f.request? h.engines args = some r) (hid : h.attached seat = none) :
    ∃ e, f.invoke this args seat h = (.error e, h) := by
  rw [invoke_eq_ask hr, hid]
  cases r with
  | ok r => exact ⟨_, rfl⟩
  | error e => exact ⟨_, rfl⟩

/-! ### Calls that jobs make -/

namespace Host

/-- What changes beside the runtimes. -/
theorem Aside.confined {P : RuntimeId → Prop} {h' : Host E} (H : h.Aside h') : Confined P h h' := by
  obtain ⟨engines, platform, -, rfl⟩ := H
  exact ⟨rfl, rfl, rfl, rfl, fun _ => rfl, fun _ _ => rfl⟩

theorem takeCallback_confined (h : Host E) (owner : RuntimeId) (n : Notification) :
    Confined (fun _ => True) h (h.takeCallback owner n).2 := by
  have H : LooksSame 0 (fun _ => True) h h := .refl fun _ _ => trivial
  exact (H.takeCallback trivial n).2.confined

theorem takeNext_confined {owner : RuntimeId} {now : Time} {n : Notification} {h₁ : Host E}
    (hn : h.takeNext owner now = some (n, h₁)) : Confined (fun _ => True) h h₁ := by
  have H : LooksSame 0 (fun _ => True) h h := .refl fun _ _ => trivial
  rcases H.takeNext (P := fun _ => True) trivial now with ⟨hnone, -⟩ | ⟨n', h', k', hh, -, H'⟩
  · rw [hn] at hnone
    cases hnone
  · rw [hn] at hh
    obtain ⟨rfl, rfl⟩ := Prod.mk.inj (Option.some.inj hh)
    exact H'.confined

end Host

section Within

variable {R : Host E → Host E → Prop} {j : Job E} {v : Invocation E}

theorem Job.within_of_calls? (hengines : ∀ (h : Host E) engines, R h { h with engines })
    {f this : E.Value} {args : List E.Value} (hv : j.calls? h f this args = some v) :
    R h v.host := by
  rw [calls?] at hv
  split at hv
  · obtain rfl := Option.some.inj hv
    exact hengines h _
  · cases hv

theorem Job.within_of_delivers? (hengines : ∀ (h : Host E) engines, R h { h with engines })
    {owner : RuntimeId} {n : Notification} (hv : j.delivers? h owner n = some v) :
    R (h.takeCallback owner n).2 v.host := by
  rw [delivers?] at hv
  split at hv
  · cases hv
  · next callback h₁ ht =>
    rw [ht]
    exact within_of_calls? hengines hv

variable [IsPreorder (Host E) R]

theorem Job.within_of_renders? (hengines : ∀ (h : Host E) engines, R h { h with engines })
    {r : Rendering E.Value} (hv : j.renders? h r = some v) : R h v.host := by
  rw [renders?] at hv
  split at hv
  · split at hv
    · exact trans_of R (hengines h _) (within_of_calls? hengines hv)
    · cases hv
  · cases hv

/-- A native function is called by a job in a host in which nothing has changed but the engines,
once a notification has been taken and its callback. -/
theorem Job.within_of_invocation? (hengines : ∀ (h : Host E) engines, R h { h with engines })
    (hnext : ∀ (h : Host E) owner now n h₁, h.takeNext owner now = some (n, h₁) → R h h₁)
    (htake : ∀ (h : Host E) owner n, R h (h.takeCallback owner n).2)
    (hv : j.invocation? h = some v) : R h v.host := by
  rw [invocation?] at hv
  split at hv
  · split at hv
    · obtain rfl := Option.some.inj hv
      exact hengines h _
    · cases hv
  · exact within_of_renders? hengines hv
  · obtain ⟨⟨n, h₁⟩, hn, hv⟩ := Option.bind_eq_some_iff.1 hv
    exact trans_of R (hnext h _ _ n h₁ hn)
      (trans_of R (htake h₁ _ n) (within_of_delivers? hengines hv))
  · cases hv

/-- A native function is called in a move in a host in which nothing has changed but the engines,
once a notification has been taken and its callback. -/
theorem World.within_of_invocation? (hengines : ∀ (h : Host E) engines, R h { h with engines })
    (hnext : ∀ (h : Host E) owner now n h₁, h.takeNext owner now = some (n, h₁) → R h h₁)
    (htake : ∀ (h : Host E) owner n, R h (h.takeCallback owner n).2) {w : World E} {m : Move E}
    (hv : w.invocation? m = some v) : R w.host v.host := by
  cases m with
  | start errand =>
    cases errand with
    | notify seat owner n =>
      exact trans_of R (htake w.host owner n) (Job.within_of_delivers? hengines hv)
    | _ => cases hv
  | step i =>
    obtain ⟨j, -, hv⟩ := Option.bind_eq_some_iff.1 hv
    exact Job.within_of_invocation? hengines hnext htake hv
  | _ => cases hv

end Within

/-- A native function that a move calls finds the runtimes attached that were attached before the
move. -/
theorem World.attached_of_invocation? {w : World E} {m : Move E} {v : Invocation E}
    (hv : w.invocation? m = some v) (seat : Seat) :
    v.host.attached seat = w.host.attached seat := by
  have H : Confined (fun _ => True) w.host v.host :=
    within_of_invocation? (fun h engines => (h.aside_engines engines).confined)
      (fun _ _ _ _ _ hn => takeNext_confined hn) takeCallback_confined hv
  exact H.attached_eq seat

end ScriptHost
