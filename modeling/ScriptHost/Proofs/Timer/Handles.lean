import ScriptHost.Proofs.Number.Equality
import ScriptHost.Proofs.Timer.Capacity
import ScriptHost.Proofs.Timer.Effects

/-!
# Handles of timers

A script knows a timer by its handle, the double nearest to its number, and cancels it by a double.
Timers of all runtimes are numbered together, from one on. Up to `2 ^ 53` the number is held without
rounding; so as long as no more timers have been started, different timers have different handles,
and a double names a live timer exactly if it equals its handle. What equals no handle of a live
timer names none: neither a fraction, nor a number that is not positive, nor one beyond the numbers
of timers, however it is rounded on its way back.

## Main definitions

* `Desk.Numbered`: the live timers at a desk have numbers from one on.
* `Invocation.handle?`, `World.handles`: the handles of the timers that a call and a move start.
* `Host.HandlesExact`: what starting and cancelling a timer by its handle comes to.

## Main results

* `TimerId.ofHandle?_eq_some_iff`, `TimerId.ofHandle?_iff_equal`: the numbers that name a timer.
* `Native.invoke_set_spec`, `Native.invoke_clear_spec`: what scripts that start and cancel get.
* `World.handles_exact`: a handle names its own timer in every run.
-/

namespace ScriptHost

open TimerFunction (handleOf)

variable {V : Type} {E : Engine}

/-! ### Numbers that name timers -/

namespace TimerId

variable {t t' : TimerId} {x : Double}

/-- A timer is named by its number alone, unless it has the largest number that there is. -/
theorem ofHandle?_eq_some_iff (ht : t.val < maxTimerNumber) :
    ofHandle? x = some t ↔
      x.isFinite = true ∧ 0 < t.val ∧ x.units = t.val * Double.unitsPerOne := by
  have hmax : maxTimerNumber < Nat.pow 2 64 := by decide
  constructor
  · intro h
    obtain ⟨hcond, he⟩ := Option.ite_none_right_eq_some.1 h
    simp only [Bool.and_eq_true] at hcond
    obtain ⟨⟨⟨hfinite, hleast⟩, hintegral⟩, -⟩ := hcond
    have hunits := Double.units_eq_of_isIntegral hintegral
    have hone := (Double.atLeast_iff_of_units hunits hfinite 1).1 hleast
    have hval : min x.integerPart.toNat maxTimerNumber = t.val :=
      congrArg val (Option.some.inj he)
    -- A number below the largest one has not been cut down to it.
    have hpart : x.integerPart = t.val := by omega
    rw [hpart] at hunits hone
    exact ⟨hfinite, by omega, hunits⟩
  · rintro ⟨hfinite, hpos, hunits⟩
    have hleast := (Double.atLeast_iff_of_units hunits hfinite 1).2 (by omega)
    have hexceeds : x.exceeds (Nat.pow 2 64) = false := by
      rw [← Bool.not_eq_true, Double.exceeds_iff_of_units hunits hfinite]
      omega
    rw [ofHandle?, hfinite, hleast, Double.isIntegral_of_units hunits, hexceeds,
      Double.integerPart_of_units hunits, Int.toNat_natCast, Nat.min_eq_left (Nat.le_of_lt ht)]
    rfl

theorem lt_maxTimerNumber (ht : t.val ≤ 2 ^ 53) : t.val < maxTimerNumber :=
  Nat.lt_of_le_of_lt ht (by decide)

/-- A number names a timer whose handle is exact if it equals that handle. -/
theorem ofHandle?_iff_equal (hpos : 0 < t.val) (ht : t.val ≤ 2 ^ 53) :
    ofHandle? x = some t ↔ (handleOf t).equal x = true := by
  rw [ofHandle?_eq_some_iff (lt_maxTimerNumber ht), handleOf, Double.equal_ofNat_iff ht]
  exact and_congr_right fun _ => and_iff_right hpos

/-- Different timers have different handles. -/
theorem equal_handleOf_iff (ht : t.val ≤ 2 ^ 53) (ht' : t'.val ≤ 2 ^ 53) :
    (handleOf t).equal (handleOf t') = true ↔ t = t' := by
  rw [handleOf, handleOf, Double.equal_ofNat_ofNat ht ht']
  exact ⟨fun h => congrArg mk h, congrArg val⟩

end TimerId

/-! ### Numbers at a desk -/

namespace Desk

variable {d d' : Desk V}

/-- The live timers have numbers from one on, and so has the next one. -/
structure Numbered (d : Desk V) : Prop where
  next_pos : 0 < d.2.nextTimer
  live_pos : ∀ timer ∈ d.2.loop.live.keys, 0 < timer.val

/-- A desk that holds no other timers than before. -/
theorem Numbered.of_sublist (H : d.Numbered)
    (hkeys : d'.2.loop.live.keys.Sublist d.2.loop.live.keys)
    (hnext : d.2.nextTimer ≤ d'.2.nextTimer) : d'.Numbered :=
  ⟨Nat.lt_of_lt_of_le H.next_pos hnext, fun timer htimer => H.live_pos timer (hkeys.subset htimer)⟩

theorem keys_clearTimer_sublist (s : Scheduler V) (l : LoopSeat) (kind : TimerKind)
    (timer : TimerId) :
    (s.clearTimer l kind timer).2.loop.live.keys.Sublist l.loop.live.keys := by
  rw [Scheduler.clearTimer]
  split
  · exact l.loop.keys_kill_sublist timer
  · exact .refl _

theorem keys_take_sublist (s : Scheduler V) (l : LoopSeat) (n : Notification) :
    (s.take l n).2.2.loop.live.keys.Sublist l.loop.live.keys := by
  cases n with
  | timer id =>
    rw [Scheduler.take_timer]
    exact keys_clearTimer_sublist ..
  | posted tick => exact .refl _

theorem Shift.numbered (H : d.Numbered) (hs : Shift d d') : d'.Numbered := by
  have hnext := hs.nextTimer_le
  cases hs with
  | setTimer kind callback delay =>
    rcases setTimer_spec d kind callback delay with ⟨e, hset⟩ | ⟨d', hset, hstarted⟩
    · rwa [hset]
    · rw [hset] at hnext ⊢
      refine ⟨Nat.lt_of_lt_of_le H.next_pos hnext, fun timer htimer => ?_⟩
      by_cases hnew : timer = ⟨d.2.nextTimer⟩
      · exact hnew ▸ H.next_pos
      -- Any other timer that is live has been so before.
      · refine H.live_pos timer (not_not.1 fun hold => ?_)
        rw [← Table.get?_eq_none_iff] at hold
        refine Table.get?_eq_none_iff.1 ?_ htimer
        rw [hstarted.live, if_neg hnew, hold]
  | clearTimer kind timer => exact H.of_sublist (keys_clearTimer_sublist ..) hnext
  | take n => exact H.of_sublist (keys_take_sublist ..) hnext
  | _ => exact H.of_sublist (.refl _) hnext

theorem Delivers.numbered {now : Time} {n : Notification} (H : d.Numbered)
    (hd : Delivers now n d d') : d'.Numbered := by
  obtain ⟨-, l, hpoll, rfl⟩ := hd
  exact H.of_sublist ((keys_take_sublist ..).trans (EventLoop.keys_poll_sublist hpoll))
    (Nat.le_of_eq (take_nextTimer d.1 { d.2 with loop := l } n).symm)

theorem Numbered.performAll (H : d.Numbered) (as : List (Deed V)) : (d.performAll as).Numbered :=
  performAll_invariant (fun _ _ H hs => hs.numbered H) (fun _ _ _ _ H hd => hd.numbered H) H as

theorem numbered_fresh (capacity : Nat) (clock : Time) {nextTimer : Nat} (hnext : 0 < nextTimer) :
    Numbered (fresh capacity clock nextTimer : Desk V) :=
  ⟨hnext, fun _ htimer => nomatch htimer⟩

/-- As long as no number above `2 ^ 53` has been given, the live timers have exact handles. -/
theorem Numbered.handle_bounds (H : d.Numbered) (A : d.Agrees) (hnext : d.2.nextTimer ≤ 2 ^ 53 + 1)
    {kind : TimerKind} {timer : TimerId} (htimer : timer ∈ (d.1.timers kind).keys) :
    0 < timer.val ∧ timer.val ≤ 2 ^ 53 := by
  have hkind := (A.timers kind timer).1 htimer
  have hlive : d.2.loop.kind? timer ≠ none := by
    rw [hkind]
    exact Option.some_ne_none kind
  have hkey : timer ∈ d.2.loop.live.keys := by
    obtain ⟨row, hrow, -⟩ := Option.map_eq_some_iff.1 hkind
    exact Table.mem_keys_of_get? hrow
  have hlt := Nat.lt_of_lt_of_le (A.timers_lt timer hlive) hnext
  exact ⟨H.live_pos timer hkey, Nat.le_of_lt_succ hlt⟩

end Desk

/-! ### Calls of native functions -/

namespace Native

variable {h h' : Host E} {id : RuntimeId} {r : Runtime E} {seat : Seat} {kind : TimerKind}
  {this : E.Value} {args : List E.Value}

theorem request?_set (kind : TimerKind) (s : E.State) (args : List E.Value) :
    (∃ e, (timer (.set kind)).request? s args = some (.error e)) ∨
      ∃ callback delay, (timer (.set kind)).request? s args =
        some (.ok (.setTimer kind callback delay)) := by
  rw [request?]
  cases Arguments.callable E s args 0 kind.setter "callback" with
  | error e => exact .inl ⟨e, rfl⟩
  | ok callback =>
    cases Arguments.number E args 1 kind.setter "delay" with
    | error e => exact .inl ⟨e, rfl⟩
    | ok delay => exact .inr ⟨callback, delay, rfl⟩

/-- A script that starts a timer gets the handle of the timer with the next number. -/
theorem invoke_set_spec {reply : Reply E}
    (hcall : (timer (.set kind)).invoke this args seat h = (.ok reply, h')) :
    ∃ id r r' callback delay, h.attached seat = some id ∧
      reply = .value (E.number (handleOf ⟨h.nextTimer⟩)) ∧ h.Changes h' id r r' ∧
      Desk.Started kind callback delay (r.scheduler, h.loopSeat r)
        (r'.scheduler, h'.loopSeat r') := by
  rcases request?_set kind h.engines args with ⟨e, hrequest⟩ | ⟨callback, delay, hrequest⟩
  · rw [invoke_eq_ask hrequest] at hcall
    cases hcall
  rw [invoke_eq_ask hrequest] at hcall
  cases hseat : h.attached seat with
  | none =>
    rw [hseat] at hcall
    cases hcall
  | some id =>
    rw [hseat] at hcall
    change Request.serve id (.setTimer kind callback delay) seat h = _ at hcall
    obtain ⟨r, hr⟩ := Host.exists_of_attached hseat
    rcases Request.serve_spec hr (q := .setTimer kind callback delay) trivial seat with
      ⟨e, h₁, hserve, -⟩ | ⟨v, h₁, r', hserve, hchanges, rfl, -, hstarted⟩
    · rw [hserve] at hcall
      cases hcall
    · rw [hserve] at hcall
      cases hcall
      exact ⟨id, r, r', callback, delay, rfl, rfl, hchanges, hstarted⟩

/-- A script that cancels by a number cancels the live timer of the kind that the number names; if
it names none, nothing changes. -/
theorem invoke_clear_spec {x : Double} (hseat : h.attached seat = some id)
    (hr : h.runtimes.get? id = some r)
    (hx : Arguments.number E args 0 kind.clearer "id" = .ok x) (this : E.Value) :
    ∃ h', (timer (.clear kind)).invoke this args seat h = (.ok (.value E.undefined), h') ∧
      ((∃ timer r', timer ∈ (r.scheduler.timers kind).keys ∧ TimerId.ofHandle? x = some timer ∧
          h.Changes h' id r r' ∧ r'.exitCode = r.exitCode ∧
          Desk.Cancelled kind timer (r.scheduler, h.loopSeat r) (r'.scheduler, h'.loopSeat r')) ∨
        (∀ timer ∈ (r.scheduler.timers kind).keys, TimerId.ofHandle? x ≠ some timer) ∧
          h.Alike h') := by
  by_cases hlive : ∃ timer ∈ (r.scheduler.timers kind).keys, TimerId.ofHandle? x = some timer
  · obtain ⟨timer, hkey, htimer⟩ := hlive
    have hspec := Desk.clearTimer_spec (r.scheduler, h.loopSeat r) kind timer
    rw [if_pos (Table.contains_iff_mem_keys.2 hkey)] at hspec
    have hclock := Desk.clearTimer_clock r.scheduler (h.loopSeat r) kind timer
    generalize hd : r.scheduler.clearTimer (h.loopSeat r) kind timer = d at hspec hclock
    have hclear : h.clearTimer? id kind timer = some ((), h.withDesk id r d) :=
      Host.scheduling?_withDesk hr (congrArg (Prod.mk ()) hd)
    refine ⟨_, invoke_clear hseat hx htimer hclear this,
      .inl ⟨timer, _, hkey, htimer, Host.changes_withDesk hr d, rfl, ?_⟩⟩
    rw [Host.loopSeat_withDesk h id r hclock]
    exact hspec
  · obtain ⟨h', hcancel, halike⟩ := TimerFunction.cancel_alike hseat hx
      fun timer r' htimer hr' => by
        obtain rfl := Option.some.inj (hr.symm.trans hr')
        have hspec := Desk.clearTimer_spec (r.scheduler, h.loopSeat r) kind timer
        rwa [if_neg fun hkey => hlive ⟨timer, Table.contains_iff_mem_keys.1 hkey, htimer⟩] at hspec
    refine ⟨h', ?_, .inr ⟨fun timer hkey htimer => hlive ⟨timer, hkey, htimer⟩, halike⟩⟩
    change (TimerFunction.cancel kind args >>= fun v => pure (Reply.value v)) seat h = _
    rw [Action.bind_def, hcancel]
    rfl

end Native

/-! ### Handles that are returned -/

namespace Invocation

variable {v : Invocation E}

/-- What a native function returns that starts a timer. -/
def handle? (v : Invocation E) : Option E.Value :=
  match v.native, (v.native.invoke v.this v.args v.job.seat v.host).1 with
  | .timer (.set _), .ok (.value handle) => some handle
  | _, _ => none

/-- What the job does with the answer of a native function numbers no timer. -/
theorem nextTimer_perform (v : Invocation E) :
    v.perform.1.nextTimer = (v.native.invoke v.this v.args v.job.seat v.host).2.nextTimer := by
  rw [perform, Job.native, Job.act]
  rcases v.native.invoke v.this v.args v.job.seat v.host with ⟨e | reply, h'⟩
  · rfl
  · exact (Job.answer_sameDesks h' v.job reply).nextTimer_eq

/-- What is returned is the handle of the timer with the next number, which is used up. -/
theorem handle?_spec {x : E.Value} (hx : v.handle? = some x) :
    x = E.number (handleOf ⟨v.host.nextTimer⟩) ∧ v.host.nextTimer < v.perform.1.nextTimer := by
  rw [nextTimer_perform]
  unfold handle? at hx
  split at hx
  · next kind handle hnative hreply =>
    obtain rfl := Option.some.inj hx
    rw [hnative] at hreply ⊢
    obtain ⟨_, _, _, _, _, -, hvalue, -, hstarted⟩ := Native.invoke_set_spec (Prod.ext hreply rfl)
    exact ⟨Reply.value.inj hvalue, Nat.lt_of_lt_of_eq (Nat.lt_succ_self _) hstarted.nextTimer.symm⟩
  · cases hx

end Invocation

/-! ### Timers with handles -/

/-- The handles of a runtime name its timers: what a script gets for a timer is the number of that
timer and of no other, and what it cancels by a number is the timer whose handle equals the number.
-/
structure Host.HandlesExact (h : Host E) (id : RuntimeId) (r : Runtime E) : Prop where
  /-- A timer of a kind is live in the scheduler and in the loop alike. -/
  live : ∀ kind timer, timer ∈ (r.scheduler.timers kind).keys ↔ r.loop.kind? timer = some kind
  /-- Live timers, of one kind or of both, have different handles. -/
  distinct : ∀ kind kind', ∀ timer ∈ (r.scheduler.timers kind).keys,
    ∀ timer' ∈ (r.scheduler.timers kind').keys,
      (handleOf timer).equal (handleOf timer') = true → timer = timer'
  /-- A script that starts a timer gets the handle of one that is new to all runtimes. -/
  set : ∀ kind seat this args reply h', h.attached seat = some id →
    (Native.timer (.set kind)).invoke this args seat h = (.ok reply, h') →
    reply = .value (E.number (handleOf ⟨h.nextTimer⟩)) ∧
      (∀ id' r' kind', h.runtimes.get? id' = some r' →
        ⟨h.nextTimer⟩ ∉ (r'.scheduler.timers kind').keys) ∧
      ∃ r' callback delay, h.Changes h' id r r' ∧
        Desk.Started kind callback delay (r.scheduler, h.loopSeat r) (r'.scheduler, h'.loopSeat r')
  /-- A script that cancels by a number cancels the live timer of the kind whose handle equals the
  number; if there is none, nothing changes. -/
  clear : ∀ kind seat this args x, h.attached seat = some id →
    Arguments.number E args 0 kind.clearer "id" = .ok x →
    ∃ h', (Native.timer (.clear kind)).invoke this args seat h = (.ok (.value E.undefined), h') ∧
      ((∃ timer r', timer ∈ (r.scheduler.timers kind).keys ∧ (handleOf timer).equal x = true ∧
          h.Changes h' id r r' ∧ r'.exitCode = r.exitCode ∧
          Desk.Cancelled kind timer (r.scheduler, h.loopSeat r) (r'.scheduler, h'.loopSeat r')) ∨
        (∀ timer ∈ (r.scheduler.timers kind).keys, (handleOf timer).equal x = false) ∧ h.Alike h')

namespace World

variable {w : World E} {m : Move E} {v : Invocation E} {id : RuntimeId} {d : Desk E.Value}

/-! ### Numbers along a run -/

/-- Timers are numbered from one on in every world. -/
theorem Reached.numbered (hw : w.Reached) (hd : w.host.desk? id = some d) : d.Numbered := by
  obtain ⟨engines, platform, profiles, ms, rfl⟩ := hw
  refine (run_invariant (P := fun w => 0 < w.host.nextTimer ∧
    ∀ id d, w.host.desk? id = some d → d.Numbered) ⟨Nat.one_pos, by rintro id d ⟨⟩⟩ ?_ ms).2 id d hd
  refine fun w m H => ⟨Nat.lt_of_lt_of_le H.1 (w.nextTimer_le_perform m), fun id d' hd' => ?_⟩
  by_cases hm : ∃ engines platform, m = .outside engines platform
  · obtain ⟨engines, platform, rfl⟩ := hm
    rw [outside_desk?] at hd'
    obtain ⟨d, hd, rfl⟩ := Option.map_eq_some_iff.1 hd'
    exact (H.2 id d hd).of_sublist (.refl _) (Nat.le_refl _)
  · have hgrows := w.perform_inside_grows fun engines platform h => hm ⟨engines, platform, h⟩
    rcases hgrows.desks id d' hd' with ⟨d, hd, hturn⟩ | ⟨-, -, capacity, hs⟩
    · exact hturn.invariant (fun _ _ H hs => hs.numbered H) (fun _ _ _ _ H hd => hd.numbered H)
        (H.2 id d hd)
    · exact Desk.shifts_invariant (fun _ _ H hs => hs.numbered H) (Desk.numbered_fresh _ _ H.1) hs

/-- At every moment the desks agree with their loops, and their timers are numbered from one on. -/
theorem Moment.desk {taken : RuntimeId → List (Desk.Deed E.Value)} {h : Host E} {r : Runtime E}
    (hw : w.Reached) (hmoment : w.Moment taken h) (hr : h.runtimes.get? id = some r) :
    Desk.Agrees (r.scheduler, h.loopSeat r) ∧ Desk.Numbered (r.scheduler, h.loopSeat r) := by
  have hdesk := hmoment.arrives.desks id
  rw [Host.desk?_of_get? hr] at hdesk
  obtain ⟨d, hd, hperform⟩ := Option.map_eq_some_iff.1 hdesk.symm
  rw [← hperform]
  exact ⟨Desk.performAll_invariant (fun _ _ H hs => hs.agrees H) (fun _ _ _ _ H hd => hd.agrees H)
    (hw.agrees hd) _, (hw.numbered hd).performAll _⟩

/-! ### Handles along a run -/

/-- The handles of the timers that a move starts: the number that a script gets, and if the embedder
starts one, the number that a script would get for it. -/
def handles (w : World E) : Move E → List E.Value
  | .setTimer id kind callback delay =>
    match w.host.setTimer? id kind callback delay with
    | some (.ok timer, _) => [E.number (handleOf timer)]
    | _ => []
  | m => ((w.invocation? m).bind Invocation.handle?).toList

/-- A move starts one timer at most, and uses up its number. -/
theorem handles_cases (w : World E) (m : Move E) :
    w.handles m = [] ∨ w.handles m = [E.number (handleOf ⟨w.host.nextTimer⟩)] ∧
      w.host.nextTimer < (w.perform m).host.nextTimer := by
  -- Unless the embedder starts a timer, it is a native function that the move calls.
  have hcall (hm : w.handles m = ((w.invocation? m).bind Invocation.handle?).toList) :
      w.handles m = [] ∨ w.handles m = [E.number (handleOf ⟨w.host.nextTimer⟩)] ∧
        w.host.nextTimer < (w.perform m).host.nextTimer := by
    cases hx : (w.invocation? m).bind Invocation.handle? with
    | none => exact .inl (by rw [hm, hx]; rfl)
    | some x =>
      obtain ⟨v, hv, hhandle⟩ := Option.bind_eq_some_iff.1 hx
      obtain ⟨rfl, hlt⟩ := Invocation.handle?_spec hhandle
      rw [hm, hx, perform_of_invocation? hv, ← (arrives_of_invocation? hv).nextTimer_eq]
      exact .inr ⟨rfl, hlt⟩
  cases m with
  | setTimer id kind callback delay =>
    cases hr : w.host.runtimes.get? id with
    | none => exact .inl (by rw [handles, Host.setTimer?, Host.scheduling?, hr]; rfl)
    | some r =>
      rcases Desk.setTimer_spec (r.scheduler, w.host.loopSeat r) kind callback delay with
        ⟨e, hset⟩ | ⟨d, hset, hstarted⟩
      · have hset : w.host.setTimer? id kind callback delay = some (.error e, _) :=
          Host.scheduling?_withDesk hr hset
        exact .inl (by rw [handles, hset])
      · have hset : w.host.setTimer? id kind callback delay = some (.ok ⟨w.host.nextTimer⟩, _) :=
          Host.scheduling?_withDesk hr hset
        rw [handles, perform, hset]
        exact .inr ⟨rfl, Nat.lt_of_lt_of_eq (Nat.lt_succ_self _) hstarted.nextTimer.symm⟩
  | _ => exact hcall rfl

/-- These are handles of timers with rising numbers, all of which have been given. -/
def Issued (xs : List E.Value) (w : World E) : Prop :=
  ∃ ts : List TimerId, xs = ts.map (fun t => E.number (handleOf t)) ∧
    ts.Pairwise (fun t t' => t.val < t'.val) ∧ ∀ t ∈ ts, t.val < w.host.nextTimer

theorem Issued.perform {xs : List E.Value} (H : w.Issued xs) (m : Move E) :
    (w.perform m).Issued (xs ++ w.handles m) := by
  obtain ⟨ts, rfl, hrising, hlt⟩ := H
  rcases w.handles_cases m with hnone | ⟨hone, hnext⟩
  · rw [hnone, List.append_nil]
    exact ⟨ts, rfl, hrising, fun t ht => Nat.lt_of_lt_of_le (hlt t ht) (w.nextTimer_le_perform m)⟩
  · refine ⟨ts ++ [⟨w.host.nextTimer⟩], by rw [hone, List.map_append]; rfl, ?_, fun t ht => ?_⟩
    · exact List.pairwise_append.2 ⟨hrising, List.pairwise_singleton .., fun t ht t' ht' =>
        List.mem_singleton.1 ht' ▸ hlt t ht⟩
    · rcases List.mem_append.1 ht with hold | hnew
      · exact Nat.lt_trans (hlt t hold) hnext
      · exact List.mem_singleton.1 hnew ▸ hnext

theorem issued_record (engines : E.State) (platform : Platform) (profiles : Seat → Profile)
    (ms : List (Move E)) : ((initial engines platform profiles).run ms).Issued
      (record handles (initial engines platform profiles) ms) :=
  record_invariant (P := fun xs w => w.Issued xs) (fun _ _ m H _ => H.perform m)
    ⟨[], rfl, .nil, nofun⟩ ms (along_true _ ms)

/-- Handles are exact as long as no number above `2 ^ 53` has been given to a timer. -/
theorem Moment.handlesExact {taken : RuntimeId → List (Desk.Deed E.Value)} {h : Host E}
    {r : Runtime E} (hw : w.Reached) (hmoment : w.Moment taken h)
    (hr : h.runtimes.get? id = some r) (hnext : w.host.nextTimer ≤ 2 ^ 53 + 1) :
    h.HandlesExact id r := by
  obtain ⟨hagrees, hnumbered⟩ := hmoment.desk hw hr
  have hlow : h.nextTimer ≤ 2 ^ 53 + 1 := hmoment.arrives.nextTimer_eq ▸ hnext
  have hbounds {kind : TimerKind} {timer : TimerId}
      (hkey : timer ∈ (r.scheduler.timers kind).keys) : 0 < timer.val ∧ timer.val ≤ 2 ^ 53 :=
    hnumbered.handle_bounds hagrees hlow hkey
  constructor
  case live => exact hagrees.timers
  case distinct =>
    intro kind kind' timer hkey timer' hkey' hequal
    exact (TimerId.equal_handleOf_iff (hbounds hkey).2 (hbounds hkey').2).1 hequal
  case set =>
    intro kind seat this args reply h' hseat hcall
    obtain ⟨id₁, r₁, r', callback, delay, hseat₁, hvalue, hchanges, hstarted⟩ :=
      Native.invoke_set_spec hcall
    obtain rfl := Option.some.inj (hseat.symm.trans hseat₁)
    obtain rfl := Option.some.inj (hr.symm.trans hchanges.before)
    refine ⟨hvalue, fun id' r₂ kind' hr₂ hkey => ?_, r', callback, delay, hchanges, hstarted⟩
    obtain ⟨hagrees₂, -⟩ := hmoment.desk hw hr₂
    refine Nat.lt_irrefl h.nextTimer (hagrees₂.timers_lt ⟨h.nextTimer⟩ ?_)
    rw [(hagrees₂.timers kind' _).1 hkey]
    exact Option.some_ne_none kind'
  case clear =>
    intro kind seat this args x hseat hx
    obtain ⟨h', hcall, hcase⟩ := Native.invoke_clear_spec hseat hr hx this
    refine ⟨h', hcall, hcase.imp ?_ ?_⟩
    · rintro ⟨timer, r', hkey, hhandle, hchanges, hexit, hcancelled⟩
      rw [TimerId.ofHandle?_iff_equal (hbounds hkey).1 (hbounds hkey).2] at hhandle
      exact ⟨timer, r', hkey, hhandle, hchanges, hexit, hcancelled⟩
    · rintro ⟨hnone, halike⟩
      refine ⟨fun timer hkey => ?_, halike⟩
      rw [← Bool.not_eq_true, ← TimerId.ofHandle?_iff_equal (hbounds hkey).1 (hbounds hkey).2]
      exact hnone timer hkey

/-- A handle names its own timer and no other, as long as no number above `2 ^ 53` has been given to
a timer. The handles of all timers that are started along a run, for whichever runtimes, are
different numbers. At every moment, between moves and whenever a script calls a native function, a
script that starts a timer gets the handle of that timer; and one that cancels by a number, whatever
the number, cancels the live timer of its runtime and of the kind whose handle equals the number,
and changes nothing if there is none. -/
theorem handles_exact (engines : E.State) (platform : Platform) (profiles : Seat → Profile)
    (ms : List (Move E)) :
    let w := (initial engines platform profiles).run ms
    w.host.nextTimer ≤ 2 ^ 53 + 1 →
      (∃ ts : List TimerId, record handles (initial engines platform profiles) ms =
          ts.map (fun t => E.number (handleOf t)) ∧
        ts.Pairwise fun t t' => t ≠ t' ∧ (handleOf t).equal (handleOf t') = false) ∧
      ∀ taken h id r, w.Moment taken h → h.runtimes.get? id = some r → h.HandlesExact id r := by
  intro w hnext
  have hw : w.Reached := ⟨engines, platform, profiles, ms, rfl⟩
  refine ⟨?_, fun taken h id r hmoment hr => hmoment.handlesExact hw hr hnext⟩
  obtain ⟨ts, hrecord, hrising, hlt⟩ := issued_record engines platform profiles ms
  refine ⟨ts, hrecord, hrising.imp_of_mem fun {t t'} ht ht' hval => ?_⟩
  have hne : t ≠ t' := fun he => Nat.ne_of_lt hval (congrArg TimerId.val he)
  have hle (t : TimerId) (ht : t ∈ ts) : t.val ≤ 2 ^ 53 :=
    Nat.le_of_lt_succ (Nat.lt_of_lt_of_le (hlt t ht) hnext)
  refine ⟨hne, ?_⟩
  rw [← Bool.not_eq_true, TimerId.equal_handleOf_iff (hle t ht) (hle t' ht')]
  exact hne

/-- A run in which a timeout and an interval are started. -/
def twoTimersRun : List (Move Script.engine) :=
  [.attach 0 {} (.ofFiles "/"), .setTimer ⟨1⟩ .timeout (.object 54) .zero,
    .setTimer ⟨1⟩ .interval (.object 54) .zero]

/-- A script cancels a timeout by a number after that run. -/
def twoTimersCall (x : Double) :
    Except (Exception Script.Value) (Reply Script.engine) × Host Script.engine :=
  (Native.timer (.clear .timeout)).invoke (E := Script.engine) Script.Value.undefined [.number x] 0
    ((ofForms {}).run twoTimersRun).host

/-- The number one is the handle of the timeout and cancels it; two is that of the interval and
cancels no timeout. -/
theorem twoTimersRun_handles :
    (∃ h' r r', twoTimersCall (.ofNat 1) = (.ok (.value Script.Value.undefined), h') ∧
      Desk.Cancelled .timeout ⟨1⟩ (r.scheduler, ((ofForms {}).run twoTimersRun).host.loopSeat r)
        (r'.scheduler, h'.loopSeat r')) ∧
    ∃ h', twoTimersCall (.ofNat 2) = (.ok (.value Script.Value.undefined), h') ∧
      ((ofForms {}).run twoTimersRun).host.Alike h' := by
  obtain ⟨-, H⟩ := handles_exact (E := Script.engine) (Script.State.empty.seat [] [] []) {}
    (fun _ => ⟨⟨1⟩, 0⟩) twoTimersRun (by decide +kernel)
  obtain ⟨r, hr, hkeys⟩ := Option.map_eq_some_iff.1 (show
    (((ofForms {}).run twoTimersRun).host.runtimes.get? ⟨1⟩).map
      (fun r => (r.scheduler.timers .timeout).keys) = some [⟨1⟩] by decide +kernel)
  have hseat : ((ofForms {}).run twoTimersRun).host.attached 0 = some ⟨1⟩ := by decide +kernel
  have hclear (x : Double) := (H _ _ _ r .between hr).clear .timeout 0 Script.Value.undefined
    [.number x] x hseat rfl
  rw [hkeys] at hclear
  constructor
  · obtain ⟨h', hcall, ⟨timer, r', htimer, -, -, -, hcancelled⟩ | ⟨hnone, -⟩⟩ := hclear (.ofNat 1)
    · obtain rfl := List.mem_singleton.1 htimer
      exact ⟨h', r, r', hcall, hcancelled⟩
    · have hequal : (handleOf ⟨1⟩).equal (.ofNat 1) = true := by decide +kernel
      exact nomatch hequal.symm.trans (hnone ⟨1⟩ (List.mem_singleton_self _))
  · obtain ⟨h', hcall, ⟨timer, r', htimer, hequal, -⟩ | ⟨-, halike⟩⟩ := hclear (.ofNat 2)
    · obtain rfl := List.mem_singleton.1 htimer
      have hunequal : (handleOf ⟨1⟩).equal (.ofNat 2) = false := by decide +kernel
      exact nomatch hunequal.symm.trans hequal
    · exact ⟨h', hcall, halike⟩

end World

end ScriptHost
