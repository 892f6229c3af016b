import ScriptHost.Proofs.Host.WorldDesks

/-!
# What lasts of a runtime

A runtime keeps its configuration and its resolver for good. Its loop may hold as many timers as the
configuration says, is asked to stop or is not, and an exit code is recorded or is not. Of all this
only the last two ever change, and they do so by a request to stop alone: the embedder makes one
without an exit code, a script makes one with an exit code. Nothing takes such a request back, and no
runtime gets the number of one that has gone.

## Main definitions

* `Status`: what lasts of a runtime.
* `Status.halt`, `Status.haltAll`: a status after requests to stop.
* `Host.Halts`, `Host.SameStatuses`: hosts before and after requests to stop, or without any.
* `Native.halt?`, `Invocation.halts`, `World.halts`: the request that is made by a native function,
  and by a move.
* `World.haltRequests`: the requests to a runtime that is there.

## Main results

* `Native.invoke_halts`, `Job.step_halts`, `World.perform_status`: what native functions, steps and
  moves make of statuses.
* `World.status_record`: the status of a runtime is that of a new one after all requests to it.
-/

namespace ScriptHost

open ScriptHost.Action (Within)
open Host HostAction

variable {V : Type} {E : Engine} {α : Type}

/-! ### Loops -/

namespace EventLoop

/-- What only a request to stop changes of a loop: its capacity, and whether it has been asked. -/
def standing (l : EventLoop) : Nat × Bool := (l.capacity, l.stopped)

theorem kill_standing (l : EventLoop) (id : TimerId) : (l.kill id).standing = l.standing := by
  rw [kill]
  split <;> rfl

theorem poll_standing {l l' : EventLoop} {now : Time} {n : Notification}
    (h : l.poll now = some (n, l')) : l'.standing = l.standing := by
  cases polls_of_poll h <;> rfl

theorem waitUntil_standing (l : EventLoop) (now limit : Time) :
    (l.waitUntil now limit).2.2.standing = l.standing := by
  rcases (l.waitUntil_spec now limit).2 with h | h
  · rw [h]
  · rw [h]
    rfl

end EventLoop

namespace Desk

theorem setTimer_standing (s : Scheduler V) (l : LoopSeat) (kind : TimerKind) (callback : V)
    (delay : Double) :
    (s.setTimer l kind callback delay).2.2.loop.standing = l.loop.standing := by
  rcases s.setTimer_cases l kind callback delay with hrefused | hstarted
  · rw [hrefused]
  · rw [hstarted]
    rfl

theorem clearTimer_standing (s : Scheduler V) (l : LoopSeat) (kind : TimerKind) (id : TimerId) :
    (s.clearTimer l kind id).2.loop.standing = l.loop.standing := by
  rw [Scheduler.clearTimer]
  split
  · exact l.loop.kill_standing id
  · rfl

theorem take_standing (s : Scheduler V) (l : LoopSeat) (n : Notification) :
    (s.take l n).2.2.loop.standing = l.loop.standing := by
  cases n with
  | timer id => rw [Scheduler.take_timer, clearTimer_standing]
  | posted tick => rfl

end Desk

/-! ### Statuses -/

/-- What lasts of a runtime. -/
structure Status where
  /-- Its configuration. -/
  config : Config
  /-- Its resolver. -/
  resolver : Resolver
  /-- How many timers its loop may hold. -/
  capacity : Nat
  /-- Whether its loop has been asked to stop. -/
  stopped : Bool
  /-- The exit code that has been recorded. -/
  exitCode : Option Int

/-- The last exit code in some requests to stop, each with an exit code or without one. -/
def lastCode (cs : List (Option Int)) : Option Int := (cs.filterMap id).getLast?

namespace Status

/-- The status of a runtime that has just been made. -/
def fresh (config : Config) (resolver : Resolver) : Status :=
  ⟨config, resolver, config.maxTimers, false, none⟩

/-- A status after a request to stop, with an exit code or without one. -/
def halt (s : Status) (code? : Option Int) : Status :=
  { s with stopped := true, exitCode := code?.or s.exitCode }

/-- A status after some requests to stop. -/
def haltAll (s : Status) (cs : List (Option Int)) : Status := cs.foldl halt s

variable (s : Status) (cs : List (Option Int))

theorem haltAll_append (cs' : List (Option Int)) :
    s.haltAll (cs ++ cs') = (s.haltAll cs).haltAll cs' :=
  List.foldl_append

/-- Requests to stop leave alone what a runtime was made with. -/
theorem haltAll_made : (s.haltAll cs).config = s.config ∧ (s.haltAll cs).resolver = s.resolver ∧
    (s.haltAll cs).capacity = s.capacity := by
  induction cs generalizing s with
  | nil => exact ⟨rfl, rfl, rfl⟩
  | cons c cs ih => exact ih (s.halt c)

/-- A loop that has been asked to stop stays so. -/
theorem haltAll_stopped : (s.haltAll cs).stopped = (s.stopped || !cs.isEmpty) := by
  have hstays (s : Status) (cs : List (Option Int)) (hs : s.stopped = true) :
      (s.haltAll cs).stopped = true := by
    induction cs generalizing s with
    | nil => exact hs
    | cons c cs ih => exact ih (s.halt c) rfl
  cases cs with
  | nil => exact (Bool.or_false _).symm
  | cons c cs => rw [List.isEmpty_cons, Bool.not_false, Bool.or_true]; exact hstays (s.halt c) cs rfl

/-- The exit code that counts is the last one. -/
theorem haltAll_exitCode : (s.haltAll cs).exitCode = (lastCode cs).or s.exitCode := by
  induction cs generalizing s with
  | nil => rfl
  | cons c cs ih =>
    refine (ih (s.halt c)).trans ?_
    cases c with
    | none => rfl
    | some code =>
      change (lastCode cs).or (some code) = Option.or (List.getLast? (code :: _)) _
      rw [lastCode, List.getLast?_cons]
      cases (cs.filterMap id).getLast? <;> rfl

end Status

/-- What lasts of a runtime. -/
def Runtime.status (r : Runtime E) : Status :=
  ⟨r.config, r.resolver, r.loop.capacity, r.loop.stopped, r.exitCode⟩

namespace Host

/-- What lasts of the runtime of a number. -/
def status? (h : Host E) (id : RuntimeId) : Option Status :=
  (h.runtimes.get? id).map Runtime.status

/-- The same runtimes after some requests to stop. -/
structure Halts (cs : RuntimeId → List (Option Int)) (h h' : Host E) : Prop where
  statuses : ∀ id, h'.status? id = (h.status? id).map fun s => s.haltAll (cs id)

/-- The same runtimes, and no request to stop. -/
abbrev SameStatuses : Host E → Host E → Prop := Halts fun _ => []

/-- A request to one runtime, if there is one and it is made of any. -/
def haltsAt (o : Option RuntimeId) (c : Option (Option Int)) (id : RuntimeId) :
    List (Option Int) :=
  if o = some id then c.toList else []

variable {cs : RuntimeId → List (Option Int)} {h h₁ h₂ h' : Host E} {id : RuntimeId}

@[simp]
theorem haltsAt_none (o : Option RuntimeId) : haltsAt o none = fun _ => [] :=
  funext fun _ => ite_self _

theorem SameStatuses.of_eq (H : ∀ id, h'.status? id = h.status? id) : h.SameStatuses h' :=
  ⟨fun id => (H id).trans Option.map_id'.symm⟩

theorem SameStatuses.status?_eq (H : h.SameStatuses h') (id : RuntimeId) :
    h'.status? id = h.status? id :=
  (H.statuses id).trans Option.map_id'

instance : IsPreorder (Host E) SameStatuses where
  refl _ := .of_eq fun _ => rfl
  trans _ _ _ H H' := .of_eq fun id => (H'.status?_eq id).trans (H.status?_eq id)

theorem Halts.of_same (H : h₁.Halts cs h₂) (hbefore : h.SameStatuses h₁)
    (hafter : h₂.SameStatuses h') : h.Halts cs h' := by
  refine ⟨fun id => ?_⟩
  rw [hafter.status?_eq, H.statuses id, hbefore.status?_eq]

theorem status?_of_get? {r : Runtime E} (hr : h.runtimes.get? id = some r) :
    h.status? id = some r.status := by
  rw [status?, hr]
  rfl

theorem status?_put (h : Host E) (id id' : RuntimeId) (r : Runtime E) :
    (h.put id r).status? id' = if id' = id then some r.status else h.status? id' := by
  simp only [status?, put, Table.get?_insert]
  split <;> rfl

theorem Aside.sameStatuses (H : h.Aside h') : h.SameStatuses h' := by
  obtain ⟨engines, platform, -, rfl⟩ := H
  exact .of_eq fun _ => rfl

/-- A runtime has changed in what does not last. -/
theorem SameStatuses.of_insert {r r' : Runtime E} (hr : h.runtimes.get? id = some r)
    (hs : r'.status = r.status) (hruntimes : h'.runtimes = h.runtimes.insert id r') :
    h.SameStatuses h' := by
  refine .of_eq fun id' => ?_
  rw [status?, hruntimes]
  refine (status?_put h id id' r').trans ?_
  split
  · next hid => rw [hid, status?_of_get? hr, hs]
  · rfl

theorem SameStatuses.put {r r' : Runtime E} (hr : h.runtimes.get? id = some r)
    (hs : r'.status = r.status) : h.SameStatuses (h.put id r') :=
  .of_insert hr hs rfl

theorem status_of_standing {r : Runtime E} {s : Scheduler E.Value} {l : EventLoop}
    (hl : l.standing = r.loop.standing) :
    Runtime.status { r with scheduler := s, loop := l } = r.status := by
  obtain ⟨hcapacity, hstopped⟩ := Prod.mk.inj hl
  exact congrArg₂ (Status.mk r.config r.resolver · · r.exitCode) hcapacity hstopped

/-- A change of a runtime that is a request to stop. -/
theorem halts_update {f : Runtime E → Runtime E} {c : Option Int}
    (hf : ∀ r, (f r).status = r.status.halt c) (h : Host E) (id : RuntimeId) :
    h.Halts (haltsAt (some id) (some c)) (h.update id f) := by
  refine ⟨fun id' => ?_⟩
  rw [update, haltsAt]
  cases hr : h.runtimes.get? id with
  | none =>
    by_cases hid : id = id'
    · subst hid
      rw [status?, hr]
      rfl
    · rw [if_neg fun he => hid (Option.some.inj he)]
      exact Option.map_id'.symm
  | some r =>
    refine (status?_put ..).trans ?_
    by_cases hid : id = id'
    · subst hid
      rw [if_pos rfl, if_pos rfl, status?_of_get? hr, hf]
      rfl
    · rw [if_neg (Ne.symm hid), if_neg fun he => hid (Option.some.inj he)]
      exact Option.map_id'.symm

theorem stopLoop_halts (h : Host E) (id : RuntimeId) :
    h.Halts (haltsAt (some id) (some none)) (h.stopLoop id) :=
  halts_update (fun _ => rfl) h id

theorem exit_halts (h : Host E) (id : RuntimeId) (code : Int) :
    h.Halts (haltsAt (some id) (some (some code))) (h.exit id code) :=
  halts_update (fun _ => rfl) h id

/-- A use of the scheduler and the loop that is no request to stop. -/
theorem scheduling?_sameStatuses
    {f : Scheduler E.Value → LoopSeat → α × Scheduler E.Value × LoopSeat}
    (hf : ∀ s l, (f s l).2.2.loop.standing = l.loop.standing) (h : Host E) (id : RuntimeId) :
    h.SameStatuses (((h.scheduling? id f).map Prod.snd).getD h) := by
  rw [scheduling?]
  cases hr : h.runtimes.get? id with
  | none => exact refl_of SameStatuses h
  | some r =>
    exact .of_insert hr (status_of_standing (hf r.scheduler (h.loopSeat r))) rfl

theorem takeCallback_sameStatuses (h : Host E) (id : RuntimeId) (n : Notification) :
    h.SameStatuses (h.takeCallback id n).2 := by
  have H := scheduling?_sameStatuses (fun s l => Desk.take_standing s l n) h id
  rw [takeCallback]
  revert H
  cases h.scheduling? id fun s l => s.take l n <;> exact fun H => H

theorem takeNext_sameStatuses {now : Time} {n : Notification}
    (hn : h.takeNext id now = some (n, h₁)) : h.SameStatuses h₁ := by
  obtain ⟨r, hr, hn⟩ := Option.bind_eq_some_iff.1 hn
  obtain ⟨-, hn⟩ := Option.ite_none_left_eq_some.1 hn
  obtain ⟨⟨n', l⟩, hpoll, he⟩ := Option.map_eq_some_iff.1 hn
  obtain ⟨-, rfl⟩ := Prod.mk.inj he
  exact .put hr (status_of_standing (EventLoop.poll_standing hpoll))

end Host

/-! ### Native functions -/

/-- The exit code with which a native function asks a loop to stop. -/
def Native.halt? (f : Native) (args : List E.Value) : Option (Option Int) :=
  match f with
  | .process .exit => (ProcessFunction.exitArgument args).toOption.map some
  | _ => none

theorem HostAction.scheduling_sameStatuses
    {f : Scheduler E.Value → LoopSeat → α × Scheduler E.Value × LoopSeat}
    (hf : ∀ s l, (f s l).2.2.loop.standing = l.loop.standing) :
    Within SameStatuses (scheduling f) := by
  intro seat h
  rw [scheduling]
  cases h.attached seat with
  | none => exact refl_of SameStatuses h
  | some id =>
    have H := scheduling?_sameStatuses hf h id
    revert H
    rw [Option.bind_some]
    cases h.scheduling? id f <;> exact fun H => H

theorem TimerFunction.invoke_sameStatuses (f : TimerFunction) (args : List E.Value) :
    Within SameStatuses (f.invoke args) := by
  cases f with
  | set kind =>
    exact ((argument_aside _).mono fun _ _ => Aside.sameStatuses).bind fun callback =>
      (Within.ofExcept _).bind fun delay =>
        (scheduling_sameStatuses fun s l => Desk.setTimer_standing s l kind callback delay).bind
          fun r => (Within.ofExcept r).bind fun _ => .pure _
  | clear kind =>
    refine (Within.ofExcept _).bind fun handle =>
      (scheduling_sameStatuses fun s l => ?_).bind fun _ => .pure _
    cases TimerId.ofHandle? handle with
    | none => rfl
    | some id => exact Desk.clearTimer_standing s l kind id

theorem ProcessFunction.queue_sameStatuses (args : List E.Value) :
    Within SameStatuses (queue args) :=
  ((argument_aside _).mono fun _ _ => Aside.sameStatuses).bind fun _ =>
    (scheduling_sameStatuses fun _ _ => rfl).bind fun _ => .pure _

/-- The process object makes a request to stop, if its argument is valid and there is a runtime. -/
theorem ProcessFunction.leave_halts (args : List E.Value) (seat : Seat) (h : Host E) :
    h.Halts (haltsAt (h.attached seat) ((Native.process .exit).halt? args))
      (leave args seat h).2 := by
  rw [leave, Action.bind_def]
  change h.Halts (haltsAt _ ((exitArgument args).toOption.map some)) _
  cases exitArgument args with
  | error e =>
    rw [Except.toOption, Option.map_none, haltsAt_none]
    exact refl_of SameStatuses h
  | ok code =>
    change h.Halts _ ((HostAction.attached >>= fun id => _ : HostAction E E.Value) seat h).2
    rw [Action.bind_def, HostAction.attached]
    cases h.attached seat with
    | none =>
      have hnone (c : Option (Option Int)) : haltsAt none c = fun _ => [] :=
        funext fun _ => if_neg (by rintro ⟨⟩)
      rw [hnone]
      exact refl_of SameStatuses h
    | some id => exact exit_halts h id code

namespace Loading

variable (owner : RuntimeId)

theorem ask_sameStatuses (q : Question) :
    Within SameStatuses (ask owner q : HostAction E ResolvedModule) := by
  intro seat h
  rw [ask]
  split
  · exact refl_of SameStatuses h
  · next r hr => exact .put hr rfl

theorem changeTables_sameStatuses (f : ModuleTable E.Value → ModuleTable E.Value) :
    Within SameStatuses (changeTables owner f : HostAction E Unit) := by
  intro seat h
  change h.SameStatuses (h.update owner _)
  rw [update]
  split
  · next r hr => exact .put hr rfl
  · exact refl_of SameStatuses h

theorem ofEngines_sameStatuses (x : EngineAction E α) : Within SameStatuses (ofEngines x) :=
  (ofEngines_aside x).mono fun _ _ => Aside.sameStatuses

theorem require_sameStatuses (q : Question) :
    Within SameStatuses (require owner q : HostAction E (Reply E)) := by
  have hfind : Within SameStatuses (find owner q : HostAction E (Origin E.Value)) := by
    refine Within.bind (.of_eq fun _ _ => rfl) fun table => ?_
    split
    · exact .pure _
    · split
      · exact .pure _
      · refine (ask_sameStatuses owner q).bind fun m => Within.bind (.of_eq fun _ _ => rfl)
          fun table => ?_
        split <;> exact .pure _
  refine hfind.bind fun origin => ?_
  cases origin with
  | native exports => exact .pure _
  | object object => exact (ofEngines_sameStatuses _).bind fun _ => .pure _
  | resolved m =>
    refine Within.bind (.of_eq fun _ _ => rfl) fun require => Within.bind ?_ fun _ => .pure _
    exact (ofEngines_sameStatuses _).bind fun _ => (ofEngines_sameStatuses _).bind fun _ =>
      (ofEngines_sameStatuses _).bind fun _ => (changeTables_sameStatuses owner _).bind fun _ =>
        .pure _

theorem resolve_sameStatuses (q : Question) :
    Within SameStatuses (resolve owner q : HostAction E String) := by
  refine Within.bind (.of_eq fun _ _ => rfl) fun table => ?_
  split
  · exact .pure _
  · exact (ask_sameStatuses owner q).bind fun _ => .pure _

theorem cache_sameStatuses {h h' : Host E} {l : Loading E.Value} (hc : l.cache? h = some h') :
    h.SameStatuses h' := by
  rw [cache?] at hc
  split at hc
  · obtain rfl := Option.some.inj hc
    exact refl_of SameStatuses h
  · next r hr =>
    obtain ⟨modules, -, rfl⟩ := Option.map_eq_some_iff.1 hc
    exact .put hr rfl

end Loading

theorem ModuleFunction.invoke_sameStatuses (f : ModuleFunction) (args : List E.Value) :
    Within SameStatuses (f.invoke args) := by
  cases f with
  | require =>
    exact (Within.ofExcept _).bind fun q => Within.bind (.of_eq attached_eq) fun id =>
      Loading.require_sameStatuses id q
  | resolve =>
    exact (Within.ofExcept _).bind fun q => Within.bind (.of_eq attached_eq) fun id =>
      (Loading.resolve_sameStatuses id q).bind fun _ => .pure _

/-- What follows an action and makes no request to stop. -/
theorem Host.Halts.bind {β : Type} {cs : RuntimeId → List (Option Int)} {h : Host E} {seat : Seat}
    {x : HostAction E α} {f : α → HostAction E β} (H : h.Halts cs (x seat h).2)
    (hf : ∀ a, (f a).Within SameStatuses) : h.Halts cs ((x >>= f) seat h).2 := by
  rw [Action.bind_def]
  revert H
  rcases x seat h with ⟨e | a, h'⟩
  · exact fun H => H
  · exact fun H => H.of_same (refl_of SameStatuses h) (hf a seat h')

/-- A native function makes the request to stop that its arguments say, to the runtime that its
caller is attached to, and no other. -/
theorem Native.invoke_halts (f : Native) (this : E.Value) (args : List E.Value) (seat : Seat)
    (h : Host E) :
    h.Halts (haltsAt (h.attached seat) (f.halt? args)) (f.invoke this args seat h).2 := by
  by_cases hf : f = .process .exit
  · subst hf
    exact (ProcessFunction.leave_halts args seat h).bind fun _ => .pure _
  · have hnone : f.halt? args = none := by
      unfold halt?
      split
      · exact absurd rfl hf
      · rfl
    rw [hnone, haltsAt_none]
    exact f.invoke_within (fun _ _ => Aside.sameStatuses)
      (fun g args _ => g.invoke_sameStatuses args)
      (fun args _ => ProcessFunction.queue_sameStatuses args) (fun _ he => absurd he hf)
      (fun g args _ => g.invoke_sameStatuses args) this args seat h

/-- The request to stop that a call of a native function makes. -/
def Invocation.halts (v : Invocation E) : RuntimeId → List (Option Int) :=
  haltsAt (v.host.attached v.job.seat) (v.native.halt? v.args)

/-- The request that is made, if a native function is called. -/
def Invocation.halts? : Option (Invocation E) → RuntimeId → List (Option Int)
  | none => fun _ => []
  | some v => v.halts

/-! ### Steps of jobs -/

namespace Job

variable {h : Host E} {j : Job E}

theorem act_sameStatuses {x : HostAction E α} (hx : x.Within SameStatuses)
    {next : Host E → α → Host E × Job E}
    (hnext : ∀ (h : Host E) (a : α), h.SameStatuses (next h a).1) :
    h.SameStatuses (j.act h x next).1 := by
  have hs := hx j.seat h
  rw [act]
  revert hs
  rcases x j.seat h with ⟨e | a, h'⟩
  · exact fun hs => hs
  · exact fun hs => trans_of SameStatuses hs (hnext h' a)

theorem answer_sameStatuses (h : Host E) (j : Job E) (reply : Reply E) :
    h.SameStatuses (j.answer h reply).1 := by
  cases reply with
  | value v => exact refl_of SameStatuses h
  | render r => exact refl_of SameStatuses h
  | evaluate l scope => exact (h.aside_engines _).sameStatuses

theorem perform_halts (v : Invocation E) : v.host.Halts v.halts v.perform.1 := by
  have H := v.native.invoke_halts v.this v.args v.job.seat v.host
  rw [Invocation.perform, native, act]
  revert H
  rcases v.native.invoke v.this v.args v.job.seat v.host with ⟨e | reply, h'⟩
  · exact fun H => H
  · exact fun H => H.of_same (refl_of SameStatuses _) (answer_sameStatuses h' v.job reply)

theorem GoesOn.halts {o : Option (Invocation E)} {p : Host E × Job E} (H : GoesOn h j o p) :
    h.Halts (Invocation.halts? o) p.1 := by
  cases H with
  | aside hh _ _ => exact hh.sameStatuses
  | @native v hh _ => exact (perform_halts v).of_same hh.sameStatuses (refl_of SameStatuses _)

theorem resume_module_sameStatuses (h : Host E) (j : Job E) (l : Loading E.Value) (r : Result E) :
    h.SameStatuses (j.resume h (.module l) r).1 := by
  refine act_sameStatuses (Loading.changeTables_sameStatuses _ _) fun h _ => ?_
  cases r with
  | error e => exact refl_of SameStatuses h
  | ok v =>
    refine act_sameStatuses (Loading.ofEngines_sameStatuses _) fun h _ => ?_
    split
    · exact refl_of SameStatuses h
    · next h' hc =>
      exact trans_of SameStatuses (Loading.cache_sameStatuses hc)
        (act_sameStatuses (Loading.ofEngines_sameStatuses _) fun h _ => refl_of SameStatuses h)

theorem rest_sameStatuses (h : Host E) (j : Job E) (owner : RuntimeId) (limit : Time) :
    h.SameStatuses (j.rest h owner limit).1 := by
  rw [rest]
  cases hr : h.runtimes.get? owner with
  | none => exact refl_of SameStatuses h
  | some r =>
    dsimp only
    split
    · exact refl_of SameStatuses h
    · have hs := status_of_standing (r := r) (s := r.scheduler)
        (r.loop.waitUntil_standing h.platform.clock limit)
      split
      · exact .of_insert hr hs rfl
      · exact .of_insert hr hs rfl

/-- A step makes the request to stop of the native function that it calls, and no other. -/
theorem step_halts (h : Host E) (j : Job E) :
    h.Halts (Invocation.halts? (j.invocation? h)) (j.step h).1 := by
  have H := j.step_steps h
  generalize j.step h = p at H
  cases H with
  | goesOn _ _ H => exact H.halts
  | handed hf hp hn _ _ _ H =>
    exact H.halts.of_same (trans_of SameStatuses (takeNext_sameStatuses hn)
      (takeCallback_sameStatuses ..)) (refl_of SameStatuses _)
  | begins hf ht =>
    rw [invocation?_of_pass hf (by rw [pass?, ht]; rfl)]
    exact refl_of SameStatuses h
  | rests hf ht hn =>
    rw [invocation?_of_take hf (by rw [pass?, ht]; rfl), hn]
    exact rest_sameStatuses ..
  | ends hf hs =>
    rw [invocation?_of_result hf]
    exact resume_module_sameStatuses ..

end Job

theorem Errand.begin_halts (h : Host E) (errand : Errand E) :
    h.Halts (Invocation.halts? (errand.invocation? h)) (errand.begin h).1 := by
  cases errand with
  | evaluate seat s => exact refl_of SameStatuses h
  | require seat owner q main =>
    exact Job.act_sameStatuses (Loading.require_sameStatuses owner q) fun h reply =>
      Job.answer_sameStatuses h _ reply
  | notify seat owner n =>
    exact (Job.notify_goesOn h seat owner n).halts.of_same (takeCallback_sameStatuses ..)
      (refl_of SameStatuses _)
  | runReady seat owner now => exact refl_of SameStatuses h
  | runLoop seat owner limit => exact (h.aside_engines _).sameStatuses

/-! ### Moves -/

namespace Host

variable {h h' : Host E} {id : RuntimeId} {s' : Status}

theorem detach_status? (h : Host E) (seat : Seat) (id id' : RuntimeId)
    (hs : (h.detach seat id).status? id' = some s') : h.status? id' = some s' := by
  simp only [status?, detach, Table.get?_erase] at hs
  split at hs
  · cases hs
  · exact hs

theorem drop_status? (h : Host E) (seat : Seat) (hs : (h.drop seat).status? id = some s') :
    h.status? id = some s' := by
  rw [drop] at hs
  split at hs
  · exact detach_status? _ _ _ _ hs
  · exact hs

/-- A runtime that is there after one has been attached was there before, or is the new one. -/
theorem attach_status? (h : Host E) (seat : Seat) (config : Config) (resolver : Resolver)
    (hs : (h.attach seat config resolver).2.status? id = some s') :
    h.status? id = some s' ∨ id = ⟨h.nextRuntime⟩ ∧
      h.nextRuntime < (h.attach seat config resolver).2.nextRuntime ∧
      s' = .fresh config resolver := by
  rcases h.attach_cases seat config resolver with
    ⟨engines, he⟩ | ⟨require, h₁, h₂, hruntimes, -, -, hnext, hinstalled, hend⟩
  · rw [he] at hs
    exact .inl hs
  · have hinstall : h₁.SameStatuses h₂ := by
      rw [hinstalled]
      exact Install.runtime_within (fun _ _ => Aside.sameStatuses)
        (fun _ _ => Loading.changeTables_sameStatuses _ _) config require seat h₁
    have hdesks : h₁.SameDesks h₂ := by
      rw [hinstalled]
      exact Install.runtime_sameDesks ⟨h.nextRuntime⟩ config require seat h₁
    have hafter : h₂.status? id = some s' ∧
        (h.attach seat config resolver).2.nextRuntime = h₂.nextRuntime := by
      rcases hend with ⟨held, he⟩ | he
      · rw [he] at hs ⊢
        exact ⟨hs, rfl⟩
      · rw [he] at hs ⊢
        exact ⟨detach_status? _ _ _ _ hs, rfl⟩
    rw [hinstall.status?_eq, status?, hruntimes, Table.get?_insert] at hafter
    obtain ⟨hs', hnext'⟩ := hafter
    split at hs'
    · next hid =>
      refine .inr ⟨hid, ?_, (Option.some.inj hs').symm⟩
      rw [hnext', hdesks.nextRuntime_eq, hnext]
      exact Nat.lt_succ_self _
    · exact .inl hs'

theorem attachFiles_status? (h : Host E) (seat : Seat) (config : Config)
    (hs : (h.attachFiles seat config).2.status? id = some s') :
    h.status? id = some s' ∨ id = ⟨h.nextRuntime⟩ ∧
      h.nextRuntime < (h.attachFiles seat config).2.nextRuntime ∧
      ∃ base, s' = .fresh config (.ofFiles base) := by
  have hattach (base : String) (hs : (h.attach seat config (.ofFiles base)).2.status? id = some s') :
      h.status? id = some s' ∨ id = ⟨h.nextRuntime⟩ ∧
        h.nextRuntime < (h.attach seat config (.ofFiles base)).2.nextRuntime ∧
        ∃ base, s' = .fresh config (.ofFiles base) := by
    rcases h.attach_status? seat config (.ofFiles base) hs with hs | ⟨hid, hlt, hs⟩
    · exact .inl hs
    · exact .inr ⟨hid, hlt, base, hs⟩
  rw [attachFiles] at hs ⊢
  split at hs
  · exact hattach _ hs
  · split at hs
    · exact hattach _ hs
    · exact .inl hs

end Host

namespace World

/-- The request to stop that a move makes. -/
def halts (w : World E) : Move E → RuntimeId → List (Option Int)
  | .stop id => haltsAt (some id) (some none)
  | m => Invocation.halts? (w.invocation? m)

/-- The request to stop that a move makes to a runtime that is there. -/
def haltRequests (id : RuntimeId) (w : World E) (m : Move E) : List (Option Int) :=
  match w.host.status? id with
  | none => []
  | some _ => w.halts m id

variable {w : World E} {m : Move E} {id : RuntimeId} {s s' : Status}

/-- A runtime that is there after a move was there before, and the move has made its request to stop
and has changed nothing else that lasts; or it is a new one. -/
theorem perform_status (hs : (w.perform m).host.status? id = some s') :
    (∃ s, w.host.status? id = some s ∧ s' = s.haltAll (w.halts m id)) ∨
      id = ⟨w.host.nextRuntime⟩ ∧ w.host.nextRuntime < (w.perform m).host.nextRuntime ∧
        ∃ config resolver, s' = .fresh config resolver := by
  have hhalts {h : Host E} (hs : h.status? id = some s') (H : w.host.Halts (w.halts m) h) :
      ∃ s, w.host.status? id = some s ∧ s' = s.haltAll (w.halts m id) := by
    rw [H.statuses id] at hs
    obtain ⟨s, hs, he⟩ := Option.map_eq_some_iff.1 hs
    exact ⟨s, hs, he.symm⟩
  have hsame {h : Host E} (hnone : w.halts m id = []) (H : w.host.SameStatuses h)
      (hs : h.status? id = some s') :
      ∃ s, w.host.status? id = some s ∧ s' = s.haltAll (w.halts m id) := by
    rw [H.status?_eq] at hs
    exact ⟨s', hs, by rw [hnone]; rfl⟩
  cases m with
  | outside engines platform => exact .inl (hsame rfl (refl_of SameStatuses w.host) hs)
  | attach seat config resolver =>
    rcases w.host.attach_status? seat config resolver hs with hs | ⟨hid, hlt, hs⟩
    · exact .inl ⟨s', hs, rfl⟩
    · exact .inr ⟨hid, hlt, config, resolver, hs⟩
  | attachFiles seat config =>
    rcases w.host.attachFiles_status? seat config hs with hs | ⟨hid, hlt, base, hs⟩
    · exact .inl ⟨s', hs, rfl⟩
    · exact .inr ⟨hid, hlt, config, .ofFiles base, hs⟩
  | drop seat => exact .inl ⟨s', w.host.drop_status? seat hs, rfl⟩
  | setTimer id' kind callback delay =>
    exact .inl (hsame rfl (scheduling?_sameStatuses
      (fun s l => Desk.setTimer_standing s l kind callback delay) w.host id') hs)
  | clearTimer id' kind timer =>
    exact .inl (hsame rfl (scheduling?_sameStatuses
      (fun s l => Desk.clearTimer_standing s l kind timer) w.host id') hs)
  | nextTick id' callback =>
    exact .inl (hsame rfl (scheduling?_sameStatuses (fun _ _ => rfl) w.host id') hs)
  | stop id' => exact .inl (hhalts hs (stopLoop_halts w.host id'))
  | start errand => exact .inl (hhalts hs (errand.begin_halts w.host))
  | step i =>
    refine .inl ?_
    simp only [perform, halts, invocation?] at hs ⊢
    cases hj : w.jobs[i]? with
    | none =>
      rw [hj] at hs
      exact ⟨s', hs, rfl⟩
    | some j =>
      rw [hj] at hs
      rw [(j.step_halts w.host).statuses id] at hs
      obtain ⟨s, hs, he⟩ := Option.map_eq_some_iff.1 hs
      exact ⟨s, hs, he.symm⟩

theorem haltRequests_of_status (hs : w.host.status? id = some s) :
    haltRequests id w m = w.halts m id := by
  rw [haltRequests, hs]

theorem haltRequests_of_none (hs : w.host.status? id = none) : haltRequests id w m = [] := by
  rw [haltRequests, hs]

/-- A runtime that has been made and is there after a move was there before. -/
theorem perform_status_of_lt (hid : id.val < w.host.nextRuntime)
    (hs : (w.perform m).host.status? id = some s') :
    ∃ s, w.host.status? id = some s ∧ s' = s.haltAll (haltRequests id w m) := by
  rcases perform_status hs with ⟨s, hs, he⟩ | ⟨rfl, -⟩
  · exact ⟨s, hs, by rw [haltRequests_of_status hs, he]⟩
  · exact absurd hid (Nat.lt_irrefl _)

theorem nextRuntime_le_run (w : World E) (ms : List (Move E)) :
    w.host.nextRuntime ≤ (w.run ms).host.nextRuntime :=
  run_invariant (P := fun w' => w.host.nextRuntime ≤ w'.host.nextRuntime) (Nat.le_refl _)
    (fun w' m hle => Nat.le_trans hle (w'.nextRuntime_le_perform m)) ms

/-- A runtime that has been made and is there after a run was there before, and has had the requests
to stop of the run. -/
theorem run_status (hid : id.val < w.host.nextRuntime) (ms : List (Move E))
    (hs : (w.run ms).host.status? id = some s') :
    ∃ s, w.host.status? id = some s ∧ s' = s.haltAll (record (haltRequests id) w ms) := by
  induction ms generalizing w with
  | nil => exact ⟨s', hs, rfl⟩
  | cons m ms ih =>
    obtain ⟨s₁, hs₁, rfl⟩ := ih (Nat.lt_of_lt_of_le hid (w.nextRuntime_le_perform m)) hs
    obtain ⟨s, hs₀, rfl⟩ := perform_status_of_lt hid hs₁
    exact ⟨s, hs₀, by rw [record, Status.haltAll_append]⟩

/-- What is known of a runtime by the requests to stop so far: its status, if it is there; and if it
is still to be made, it is not there and there have been no requests. -/
structure HasStatus (id : RuntimeId) (cs : List (Option Int)) (w : World E) : Prop where
  status : ∀ s, w.host.status? id = some s →
    ∃ config resolver, s = (Status.fresh config resolver).haltAll cs
  unborn : w.host.nextRuntime ≤ id.val → cs = [] ∧ w.host.status? id = none

/-- The status of a runtime is that of a new one after all requests to stop. -/
theorem status_record (engines : E.State) (platform : Platform) (profiles : Seat → Profile)
    (id : RuntimeId) (ms : List (Move E)) :
    ((initial engines platform profiles).run ms).HasStatus id
      (record (haltRequests id) (initial engines platform profiles) ms) := by
  have hinitial : (initial engines platform profiles).HasStatus id [] :=
    ⟨by rintro s ⟨⟩, fun _ => ⟨rfl, rfl⟩⟩
  refine record_invariant (P := HasStatus id) (Q := fun _ _ => True) (fun cs w m H _ => ?_)
    hinitial ms (along_true _ ms)
  have hnone (hs : w.host.status? id = none) : cs ++ haltRequests id w m = cs := by
    rw [haltRequests_of_none hs, List.append_nil]
  refine ⟨fun s' hs' => ?_, fun hle => ?_⟩
  · rcases perform_status hs' with ⟨s, hs, rfl⟩ | ⟨hid, -, config, resolver, rfl⟩
    · obtain ⟨config, resolver, rfl⟩ := H.status s hs
      exact ⟨config, resolver, by rw [haltRequests_of_status hs, Status.haltAll_append]⟩
    · obtain ⟨hcs, hs⟩ := H.unborn (Nat.le_of_eq (congrArg RuntimeId.val hid).symm)
      exact ⟨config, resolver, by rw [hnone hs, hcs]; rfl⟩
  · obtain ⟨hcs, hs⟩ := H.unborn (Nat.le_trans (w.nextRuntime_le_perform m) hle)
    refine ⟨(hnone hs).trans hcs, Option.eq_none_iff_forall_ne_some.2 fun s' hs' => ?_⟩
    rcases perform_status hs' with ⟨s, hs₀, -⟩ | ⟨hid, hlt, -⟩
    · exact nomatch hs.symm.trans hs₀
    · rw [hid] at hle
      exact absurd hle (Nat.not_le.2 hlt)

end World

end ScriptHost
