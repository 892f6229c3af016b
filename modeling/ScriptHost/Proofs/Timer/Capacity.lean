import ScriptHost.Proofs.Host.Moments
import ScriptHost.Proofs.Timer.Callbacks

/-!
# Places for timers

A loop has as many places for timers as its runtime is configured for. Live timers are counted in
the loop, which refuses a timer that finds no place, while their callbacks are held by the scheduler.
Both always hold the same timers, each once: those that have been started and are not done. So a
start is refused exactly when all places are taken. A timeout gives up its place before its callback
is called, a cancelled timer at once; an interval keeps the one place that it has.

## Main definitions

* `Scheduler.liveTimers`: how many timers are live.
* `EventLoop.HasPlaces`, `Desk.Fits`: every live timer has a place of its own.
* `Host.Starts`, `Host.Cancels`, `Host.PlacesExact`: what places there are, and what starting and
  cancelling do about them.

## Main results

* `World.Reached.fits`: the live timers of every runtime have a place each.
* `World.capacity_exact`: the places are exact at every moment of every run.
-/

namespace ScriptHost

variable {V : Type} {E : Engine}

/-! ### Loops -/

namespace EventLoop

/-- Every live timer has a place of its own. -/
structure HasPlaces (l : EventLoop) : Prop where
  nodup : l.live.keys.Nodup
  le_capacity : l.live.size ≤ l.capacity

variable {l l' : EventLoop}

/-- A loop that holds no other timers than before. -/
theorem HasPlaces.of_sublist (H : l.HasPlaces) (hkeys : l'.live.keys.Sublist l.live.keys)
    (hcapacity : l'.capacity = l.capacity) : l'.HasPlaces := by
  refine ⟨H.nodup.sublist hkeys, ?_⟩
  have hle := hkeys.length_le
  rw [Table.length_keys, Table.length_keys] at hle
  exact hcapacity ▸ Nat.le_trans hle H.le_capacity

theorem keys_kill_sublist (l : EventLoop) (id : TimerId) :
    (l.kill id).live.keys.Sublist l.live.keys := by
  rw [live_kill, Table.keys_erase]
  exact List.filter_sublist

theorem keys_poll_sublist {now : Time} {n : Notification} (h : l.poll now = some (n, l')) :
    l'.live.keys.Sublist l.live.keys := by
  cases polls_of_poll h with
  | posted hposted => exact .refl _
  | once hposted hqueue hdue hevery =>
    rw [Table.keys_erase]
    exact List.filter_sublist
  | again hposted hqueue hdue hevery =>
    obtain ⟨timer, htimer, -⟩ := Option.bind_eq_some_iff.1 hevery
    -- A repeating timer is written over itself.
    rw [arm, Table.keys_insert, if_pos (Table.mem_keys_of_get? htimer)]

theorem HasPlaces.kill (H : l.HasPlaces) (id : TimerId) : (l.kill id).HasPlaces :=
  H.of_sublist (l.keys_kill_sublist id) (congrArg Prod.fst (l.kill_standing id))

theorem HasPlaces.poll (H : l.HasPlaces) {now : Time} {n : Notification}
    (h : l.poll now = some (n, l')) : l'.HasPlaces :=
  H.of_sublist (keys_poll_sublist h) (congrArg Prod.fst (poll_standing h))

/-- A timer with a new name takes up a place. -/
theorem HasPlaces.start (H : l.HasPlaces) {id : TimerId} (hid : id ∉ l.live.keys) {now : Time}
    {delay : Span} {repeating : Bool} (h : l.start id now delay repeating = some l') :
    l'.HasPlaces := by
  obtain rfl := eq_arm_of_start h
  obtain ⟨hroom, -⟩ := Option.ite_none_left_eq_some.1 h
  refine ⟨Table.nodup_keys_insert H.nodup id _, ?_⟩
  rw [arm, Table.size_insert_of_notMem hid]
  exact Nat.lt_of_not_le hroom

end EventLoop

namespace LoopSeat

variable {s : LoopSeat} {now : Time} {delay : Span} {repeating : Bool}

theorem startAt_of_full (h : s.loop.capacity ≤ s.loop.live.size) :
    s.startAt now delay repeating = (none, s) := by
  rw [startAt, EventLoop.start, if_pos h]

theorem startAt_of_room (h : s.loop.live.size < s.loop.capacity) :
    ∃ s', s.startAt now delay repeating = (some ⟨s.nextTimer⟩, s') := by
  rw [startAt, EventLoop.start, if_neg (Nat.not_le.2 h)]
  exact ⟨_, rfl⟩

end LoopSeat

/-! ### Live timers -/

namespace Scheduler

/-- How many timers are live: timeouts and intervals. -/
def liveTimers (s : Scheduler V) : Nat := s.timeouts.size + s.intervals.size

variable {s : Scheduler V}

theorem liveTimers_withTimers (s : Scheduler V) (kind : TimerKind) (t : Table TimerId V) :
    (s.withTimers kind t).liveTimers + (s.timers kind).size = s.liveTimers + t.size := by
  cases kind <;> simp only [liveTimers, withTimers, timers] <;> omega

theorem liveTimers_insert {kind : TimerKind} {timer : TimerId}
    (htimer : timer ∉ (s.timers kind).keys) (callback : V) :
    (s.withTimers kind ((s.timers kind).insert timer callback)).liveTimers = s.liveTimers + 1 := by
  have hwith := s.liveTimers_withTimers kind ((s.timers kind).insert timer callback)
  rw [Table.size_insert_of_notMem htimer] at hwith
  omega

theorem liveTimers_erase {kind : TimerKind} {timer : TimerId} (hnodup : (s.timers kind).keys.Nodup)
    (htimer : timer ∈ (s.timers kind).keys) :
    (s.withTimers kind ((s.timers kind).erase timer)).liveTimers + 1 = s.liveTimers := by
  have hwith := s.liveTimers_withTimers kind ((s.timers kind).erase timer)
  have hsize := Table.size_erase hnodup htimer
  omega

/-- A timer that is cancelled gives up its place; if it is not live, nothing changes. -/
theorem liveTimers_clearTimer {H : Type} [TimerHost H] (h : H) {kind : TimerKind} (timer : TimerId)
    (hnodup : (s.timers kind).keys.Nodup) :
    (s.clearTimer h kind timer).1.liveTimers + (if timer ∈ (s.timers kind).keys then 1 else 0) =
      s.liveTimers := by
  rw [clearTimer]
  by_cases htimer : timer ∈ (s.timers kind).keys
  · rw [if_pos (Table.contains_iff_mem_keys.2 htimer), if_pos htimer]
    exact liveTimers_erase hnodup htimer
  · rw [if_neg (mt Table.contains_iff_mem_keys.1 htimer), if_neg htimer]
    rfl

end Scheduler

/-! ### Desks -/

namespace Desk

/-- The scheduler at a desk agrees with the loop, and every live timer has a place of its own. -/
structure Fits (d : Desk V) : Prop where
  agrees : d.Agrees
  places : d.2.loop.HasPlaces

variable {d d' : Desk V}

/-- The next timer has a new name. -/
theorem Agrees.next_notMem (H : d.Agrees) : (⟨d.2.nextTimer⟩ : TimerId) ∉ d.2.loop.live.keys := by
  intro hmem
  refine Nat.lt_irrefl _ (H.timers_lt ⟨d.2.nextTimer⟩ fun hnone => ?_)
  exact Table.get?_eq_none_iff.1 (Option.map_eq_none_iff.1 hnone) hmem

/-- A timer has a callback of one kind exactly if it is live. -/
theorem Agrees.mem_keys (H : d.Agrees) (timer : TimerId) :
    timer ∈ d.1.timeouts.keys ++ d.1.intervals.keys ↔ timer ∈ d.2.loop.live.keys := by
  have htimeouts := H.timers .timeout timer
  have hintervals := H.timers .interval timer
  have hlive : timer ∈ d.2.loop.live.keys ↔ d.2.loop.kind? timer ≠ none := by
    rw [EventLoop.kind?, ne_eq, Option.map_eq_none_iff, Table.get?_eq_none_iff, not_not]
  rw [List.mem_append, hlive]
  refine (or_congr htimeouts hintervals).trans ?_
  rcases d.2.loop.kind? timer with _ | _ | _ <;> simp

theorem fits_fresh (capacity : Nat) (clock : Time) (nextTimer : Nat) :
    Fits (fresh capacity clock nextTimer : Desk V) :=
  ⟨agrees_fresh capacity clock nextTimer, .nil, Nat.zero_le _⟩

/-- All that happens at a desk while nothing is handed out keeps the places. -/
theorem Shift.fits (H : d.Fits) (hs : Shift d d') : d'.Fits := by
  refine ⟨hs.agrees H.agrees, ?_⟩
  have hclear (kind : TimerKind) (id : TimerId) :
      (d.1.clearTimer d.2 kind id).2.loop.HasPlaces := by
    rw [Scheduler.clearTimer]
    split
    · exact H.places.kill id
    · exact H.places
  cases hs with
  | setTimer kind callback delay =>
    rw [setTimer_seat, LoopSeat.startAt]
    split
    · next hstart => exact H.places.start H.agrees.next_notMem hstart
    · exact H.places
  | clearTimer kind id => exact hclear kind id
  | take n =>
    cases n with
    | timer id =>
      rw [Scheduler.take_timer]
      exact hclear .timeout id
    | posted tick => exact H.places
  | nextTick callback => exact ⟨H.places.nodup, H.places.le_capacity⟩
  | stop => exact ⟨H.places.nodup, H.places.le_capacity⟩
  | forget => exact ⟨H.places.nodup, H.places.le_capacity⟩
  | elapse hclock hnext => exact H.places

theorem Delivers.fits {now : Time} {n : Notification} (H : d.Fits) (hd : Delivers now n d d') :
    d'.Fits := by
  refine ⟨hd.agrees H.agrees, ?_⟩
  obtain ⟨-, l, hpoll, rfl⟩ := hd
  have hl := H.places.poll hpoll
  cases n with
  | timer id =>
    rw [Scheduler.take_timer, Scheduler.clearTimer]
    split
    · exact hl.kill id
    · exact hl
  | posted tick => exact hl

theorem Fits.performAll (H : d.Fits) (as : List (Deed V)) : (d.performAll as).Fits :=
  performAll_invariant (fun _ _ H hs => hs.fits H) (fun _ _ _ _ H hd => hd.fits H) H as

variable {es : List (CallbackEvent V)}

/-- The loop holds the timers that have a callback, each once. -/
theorem Fits.keys_perm (H : d.Fits) (A : d.1.Accounts d.2.nextTimer es) :
    (d.1.timeouts.keys ++ d.1.intervals.keys).Perm d.2.loop.live.keys := by
  have hnodup : (d.1.timeouts.keys ++ d.1.intervals.keys).Nodup := by
    refine List.nodup_append.2 ⟨(A.timers .timeout).nodup_keys (A.names.nodup .timeout),
      (A.timers .interval).nodup_keys (A.names.nodup .interval), fun timer ht timer' hi he => ?_⟩
    have hkind := (H.agrees.timers .timeout timer).1 ht
    rw [(H.agrees.timers .interval timer).1 (he ▸ hi)] at hkind
    cases hkind
  exact (List.perm_ext_iff_of_nodup hnodup H.places.nodup).2 H.agrees.mem_keys

theorem Fits.liveTimers_eq (H : d.Fits) (A : d.1.Accounts d.2.nextTimer es) :
    d.1.liveTimers = d.2.loop.live.size := by
  have hlength := (H.keys_perm A).length_eq
  rwa [List.length_append, Table.length_keys, Table.length_keys, Table.length_keys] at hlength

/-- A start that finds all places taken is refused, and nothing changes. -/
theorem Fits.setTimer_of_full (H : d.Fits) (A : d.1.Accounts d.2.nextTimer es)
    (hfull : d.1.liveTimers = d.2.loop.capacity) (kind : TimerKind) (callback : V)
    (delay : Double) : d.1.setTimer d.2 kind callback delay =
      (.error (.resource (kind.setter ++ ": unable to start timer")), d) := by
  rw [H.liveTimers_eq A] at hfull
  have hstart : TimerHost.start d.2 (delayOf delay) (kind == .interval) = (none, d.2) :=
    LoopSeat.startAt_of_full (Nat.le_of_eq hfull.symm)
  rw [Scheduler.setTimer, hstart]

/-- A start that finds a place takes it up. -/
theorem Fits.setTimer_of_room (H : d.Fits) (A : d.1.Accounts d.2.nextTimer es)
    (hroom : d.1.liveTimers ≠ d.2.loop.capacity) (kind : TimerKind) (callback : V)
    (delay : Double) : ∃ d', d.1.setTimer d.2 kind callback delay = (.ok ⟨d.2.nextTimer⟩, d') ∧
      d'.1.liveTimers = d.1.liveTimers + 1 := by
  rw [H.liveTimers_eq A] at hroom
  obtain ⟨s', hstart⟩ : ∃ s', TimerHost.start d.2 (delayOf delay) (kind == .interval) =
      (some (⟨d.2.nextTimer⟩ : TimerId), s') :=
    LoopSeat.startAt_of_room (Nat.lt_of_le_of_ne H.places.le_capacity hroom)
  refine ⟨_, by rw [Scheduler.setTimer, hstart], Scheduler.liveTimers_insert ?_ callback⟩
  intro hmem
  have hlt := H.agrees.timers_lt _ (by rw [(H.agrees.timers kind _).1 hmem]; rintro ⟨⟩)
  exact Nat.lt_irrefl _ hlt

end Desk

namespace World

variable {w : World E} {id : RuntimeId}

/-- What becomes of the callbacks of a runtime by deeds at its desk. -/
def eventsOf (w : World E) (id : RuntimeId) (taken : RuntimeId → List (Desk.Deed E.Value)) :
    List (CallbackEvent E.Value) :=
  ((w.host.desk? id).map fun d => d.events (taken id)).getD []

/-- The desks of a world fit their loops. -/
theorem Reached.fits (hw : w.Reached) {d : Desk E.Value} (hd : w.host.desk? id = some d) :
    d.Fits := by
  obtain ⟨engines, platform, profiles, ms, rfl⟩ := hw
  exact desk_invariant Desk.fits_fresh (fun _ _ h hs => hs.fits h) (fun _ _ _ _ h hd => hd.fits h)
    (fun _ _ h => ⟨h.agrees.of_kind? (fun _ => rfl) rfl (Nat.le_refl _), h.places⟩) engines platform
    profiles ms hd

end World

/-! ### Starting and cancelling -/

namespace Host

/-- What starting a timer comes to: it is refused exactly if all places are taken, and then nothing
changes; else it takes up one place. -/
structure Starts (h : Host E) (id : RuntimeId) (r : Runtime E) (kind : TimerKind)
    (result : Except Fault TimerId) (h' : Host E) : Prop where
  refused_iff : result = .error (.resource (kind.setter ++ ": unable to start timer")) ↔
    r.scheduler.liveTimers = r.config.maxTimers
  refused : r.scheduler.liveTimers = r.config.maxTimers → h.Alike h'
  started : r.scheduler.liveTimers ≠ r.config.maxTimers → result = .ok ⟨h.nextTimer⟩ ∧
    ∃ r', h'.runtimes.get? id = some r' ∧ r'.scheduler.liveTimers = r.scheduler.liveTimers + 1

/-- What cancelling a timer comes to: it gives up its place, if it is a live one of the kind. -/
def Cancels (id : RuntimeId) (r : Runtime E) (kind : TimerKind) (timer : TimerId) (h' : Host E) :
    Prop :=
  ∃ r', h'.runtimes.get? id = some r' ∧ r'.scheduler.liveTimers +
    (if timer ∈ (r.scheduler.timers kind).keys then 1 else 0) = r.scheduler.liveTimers

/-- The places of a runtime are those of its live timers, given the events so far. -/
structure PlacesExact (h : Host E) (id : RuntimeId) (es : List (CallbackEvent E.Value))
    (r : Runtime E) : Prop where
  /-- There are no more live timers than places. -/
  le_max : r.scheduler.liveTimers ≤ r.config.maxTimers
  /-- The loop holds the timers that have a callback, each once. -/
  holds : (r.scheduler.timeouts.keys ++ r.scheduler.intervals.keys).Perm r.loop.live.keys
  /-- The timers that have been started are those that are done and those that are live. -/
  balance : (timerIds .timeout es ++ timerIds .interval es).Perm
    (ended .timeout es ++ ended .interval es ++ r.loop.live.keys)
  /-- No name is given to two timers. -/
  nodup : (timerIds .timeout es ++ timerIds .interval es).Nodup
  /-- A timeout has no place from the moment on at which its callback is taken to be run. -/
  fired : ∀ timer callback, .fired .timeout timer callback ∈ es → timer ∉ r.loop.live.keys
  /-- An interval has one place until it is cancelled, however often it fires. -/
  interval : ∀ timer ∈ timerIds .interval es, timer ∉ cancellations .interval es →
    r.loop.live.keys.count timer = 1
  /-- A timer is started by hand. -/
  set : ∀ kind callback delay, ∃ result h', h.setTimer? id kind callback delay = some (result, h') ∧
    h.Starts id r kind result h'
  /-- A timer is started by a script, with valid arguments. -/
  setByScript : ∀ kind seat this args callback delay, h.attached seat = some id →
    Arguments.callable E h.engines args 0 kind.setter "callback" = .ok callback →
    Arguments.number E args 1 kind.setter "delay" = .ok delay →
    ∃ result h', (Native.timer (.set kind)).invoke this args seat h =
        ((result.mapError Exception.fault).map
          fun timer => .value (E.number (TimerFunction.handleOf timer)), h') ∧
      h.Starts id r kind result h'
  /-- A timer is cancelled by hand. -/
  clear : ∀ kind timer, ∃ h', h.clearTimer? id kind timer = some ((), h') ∧
    Cancels id r kind timer h'
  /-- A timer is cancelled by a script, by its handle. -/
  clearByScript : ∀ kind seat this args handle timer, h.attached seat = some id →
    Arguments.number E args 0 kind.clearer "id" = .ok handle →
    TimerId.ofHandle? handle = some timer →
    ∃ h', (Native.timer (.clear kind)).invoke this args seat h = (.ok (.value E.undefined), h') ∧
      Cancels id r kind timer h'

variable {h : Host E} {id : RuntimeId} {r : Runtime E} {es : List (CallbackEvent E.Value)}

theorem scheduling?_of_get? {α : Type} (hr : h.runtimes.get? id = some r)
    (f : Scheduler E.Value → LoopSeat → α × Scheduler E.Value × LoopSeat) :
    h.scheduling? id f = some ((f r.scheduler (h.loopSeat r)).1,
      { h.put id { r with
          scheduler := (f r.scheduler (h.loopSeat r)).2.1
          loop := (f r.scheduler (h.loopSeat r)).2.2.loop } with
        nextTimer := (f r.scheduler (h.loopSeat r)).2.2.nextTimer }) := by
  rw [scheduling?, hr]
  rfl

/-- A timer is started in one of the places that the loop of a runtime has. -/
theorem exists_starts (hr : h.runtimes.get? id = some r)
    (H : Desk.Fits (r.scheduler, h.loopSeat r)) (A : r.scheduler.Accounts h.nextTimer es)
    (hcapacity : r.loop.capacity = r.config.maxTimers) (kind : TimerKind) (callback : E.Value)
    (delay : Double) : ∃ result h', h.setTimer? id kind callback delay = some (result, h') ∧
      h.Starts id r kind result h' := by
  let d : Desk E.Value := (r.scheduler, h.loopSeat r)
  have hcapacity : d.2.loop.capacity = r.config.maxTimers := hcapacity
  by_cases hfull : r.scheduler.liveTimers = r.config.maxTimers
  · have hset := H.setTimer_of_full A (hfull.trans hcapacity.symm) kind callback delay
    have hs : h.setTimer? id kind callback delay = some _ := scheduling?_of_get? hr _
    refine ⟨_, _, hs, ⟨fun _ => hfull, fun _ => congrArg Prod.fst hset⟩, fun _ => ?_,
      fun hroom => absurd hfull hroom⟩
    refine scheduling?_alike (fun r' hr' => ?_) hs
    obtain rfl := Option.some.inj (hr.symm.trans hr')
    exact congrArg Prod.snd hset
  · obtain ⟨d', hset, hlive⟩ :=
      H.setTimer_of_room A (fun he => hfull (he.trans hcapacity)) kind callback delay
    have hresult : (r.scheduler.setTimer (h.loopSeat r) kind callback delay).1 = .ok ⟨h.nextTimer⟩ :=
      congrArg Prod.fst hset
    refine ⟨_, _, scheduling?_of_get? hr _, ⟨fun he => ?_, fun he => absurd he hfull⟩,
      fun he => absurd he hfull, fun _ => ⟨hresult, _, Table.get?_insert_self .., ?_⟩⟩
    · exact nomatch hresult.symm.trans he
    · exact (congrArg (fun p => p.2.1.liveTimers) hset).trans hlive

theorem exists_cancels (hr : h.runtimes.get? id = some r)
    (A : r.scheduler.Accounts h.nextTimer es) (kind : TimerKind) (timer : TimerId) :
    ∃ h', h.clearTimer? id kind timer = some ((), h') ∧ Cancels id r kind timer h' :=
  ⟨_, scheduling?_of_get? hr _, _, Table.get?_insert_self ..,
    Scheduler.liveTimers_clearTimer _ timer ((A.timers kind).nodup_keys (A.names.nodup kind))⟩

end Host

namespace Native

variable {h h' : Host E} {id : RuntimeId} {seat : Seat} {kind : TimerKind} {args : List E.Value}

/-- A script that starts a timer does what the embedder does, and gets the handle of the timer. -/
theorem invoke_set {callback : E.Value} {delay : Double} {result : Except Fault TimerId}
    (hseat : h.attached seat = some id)
    (hcallback : Arguments.callable E h.engines args 0 kind.setter "callback" = .ok callback)
    (hdelay : Arguments.number E args 1 kind.setter "delay" = .ok delay)
    (hset : h.setTimer? id kind callback delay = some (result, h')) (this : E.Value) :
    (Native.timer (.set kind)).invoke this args seat h =
      ((result.mapError Exception.fault).map
        fun timer => .value (E.number (TimerFunction.handleOf timer)), h') := by
  have hrequest : (Native.timer (.set kind)).request? h.engines args =
      some (.ok (.setTimer kind callback delay)) := by
    rw [request?, hcallback, hdelay]
    rfl
  rw [invoke_eq_ask hrequest, hseat]
  change (Request.serve id (.setTimer kind callback delay)) seat h = _
  rw [Request.serve, Action.bind_def, Request.using?, hset]
  cases result <;> rfl

/-- A script that cancels a timer does what the embedder does. -/
theorem invoke_clear {handle : Double} {timer : TimerId} (hseat : h.attached seat = some id)
    (hhandle : Arguments.number E args 0 kind.clearer "id" = .ok handle)
    (htimer : TimerId.ofHandle? handle = some timer)
    (hclear : h.clearTimer? id kind timer = some ((), h')) (this : E.Value) :
    (Native.timer (.clear kind)).invoke this args seat h = (.ok (.value E.undefined), h') := by
  have hrequest : (Native.timer (.clear kind)).request? h.engines args =
      some (.ok (.clearTimer kind timer)) := by
    rw [request?, hhandle]
    change some (Except.ok (((TimerId.ofHandle? handle).map _).getD _)) = _
    rw [htimer]
    rfl
  rw [invoke_eq_ask hrequest, hseat]
  change (Request.serve id (.clearTimer kind timer)) seat h = _
  rw [Request.serve, Action.bind_def, Request.using?, hclear]
  rfl

end Native

/-! ### The whole life of a runtime -/

/-- An interval is done when it has been cancelled. -/
theorem ended_interval_eq (es : List (CallbackEvent V)) :
    ended .interval es = cancellations .interval es := by
  refine congrArg (List.filterMap · es) (funext fun e => ?_)
  rcases e with _ | ⟨_ | _, timer, _ | _⟩ | ⟨_ | _, timer, _⟩ | _ | _ <;> rfl

theorem Host.placesExact {h : Host E} {id : RuntimeId} {r : Runtime E}
    {es : List (CallbackEvent E.Value)} (hr : h.runtimes.get? id = some r)
    (H : Desk.Fits (r.scheduler, h.loopSeat r)) (A : r.scheduler.Accounts h.nextTimer es)
    (hcapacity : r.loop.capacity = r.config.maxTimers) : h.PlacesExact id es r := by
  have hperm := H.keys_perm A
  have hbalance : (timerIds .timeout es ++ timerIds .interval es).Perm
      (ended .timeout es ++ ended .interval es ++ r.loop.live.keys) := by
    refine ((A.timers .timeout).balance.append (A.timers .interval).balance).trans ?_
    rw [List.append_assoc, List.append_assoc]
    refine (List.Perm.append_left _ ?_)
    rw [← List.append_assoc]
    exact (List.perm_append_comm.append_right _).trans
      ((List.append_assoc ..) ▸ hperm.append_left _)
  have hnodup := A.nodup_timerIds
  have hdisjoint := List.nodup_append.1 (hbalance.nodup_iff.1 hnodup)
  constructor
  case le_max =>
    rw [H.liveTimers_eq A, ← hcapacity]
    exact H.places.le_capacity
  case holds => exact hperm
  case balance => exact hbalance
  case nodup => exact hnodup
  case fired =>
    intro timer callback hfired hlive
    have hended : timer ∈ ended .timeout es := by
      refine (ended_timeout_perm es).mem_iff.2 (List.mem_append_left _ ?_)
      exact List.mem_map.2 ⟨(timer, callback), mem_firings.2 hfired, rfl⟩
    exact hdisjoint.2.2 timer (List.mem_append_left _ hended) timer hlive rfl
  case interval =>
    intro timer htimer hcancelled
    have hlive : timer ∈ r.loop.live.keys := by
      refine hperm.mem_iff.1 (List.mem_append_right _ ?_)
      refine ((A.timers .interval).mem_keys (A.names.nodup .interval) timer).2 ⟨htimer, ?_⟩
      rwa [ended_interval_eq]
    exact List.count_eq_one_of_mem hdisjoint.2.1 hlive
  case set => exact exists_starts hr H A hcapacity
  case setByScript =>
    intro kind seat this args callback delay hseat hcallback hdelay
    obtain ⟨result, h', hset, hstarts⟩ := exists_starts hr H A hcapacity kind callback delay
    exact ⟨result, h', Native.invoke_set hseat hcallback hdelay hset this, hstarts⟩
  case clear => exact exists_cancels hr A
  case clearByScript =>
    intro kind seat this args handle timer hseat hhandle htimer
    obtain ⟨h', hclear, hcancels⟩ := exists_cancels hr A kind timer
    exact ⟨h', Native.invoke_clear hseat hhandle htimer hclear this, hcancels⟩

namespace World

/-- The loop of a runtime may hold as many timers as the runtime is configured for. -/
theorem capacity_eq (engines : E.State) (platform : Platform) (profiles : Seat → Profile)
    (ms : List (Move E)) {id : RuntimeId} {s : Status}
    (hs : ((initial engines platform profiles).run ms).host.status? id = some s) :
    s.capacity = s.config.maxTimers := by
  obtain ⟨config, resolver, rfl⟩ := (status_record engines platform profiles id ms).status s hs
  obtain ⟨hconfig, -, hcapacity⟩ := (Status.fresh config resolver).haltAll_made
    (record (haltRequests id) (initial engines platform profiles) ms)
  rw [hconfig, hcapacity]
  rfl

/-- The places for timers are exact and none is lost. At every moment of every run, between moves
and whenever a script calls a native function, a runtime has no more live timers than it is
configured for, and each of them has one place in the loop; starting a timer, by hand or by a
script, is refused exactly if all places are taken; cancelling one gives its place up at once; a
timeout has none any more when its callback is run, and an interval has one until it is cancelled.
-/
theorem capacity_exact (engines : E.State) (platform : Platform) (profiles : Seat → Profile)
    (id : RuntimeId) (ms : List (Move E)) :
    let w := (initial engines platform profiles).run ms
    let es := record (callbackEvents id) (initial engines platform profiles) ms
    ∀ taken h r, w.Moment taken h → h.runtimes.get? id = some r →
      h.PlacesExact id (es ++ w.eventsOf id taken) r := by
  intro w es taken h r hmoment hr
  have hreached : w.Reached := ⟨engines, platform, profiles, ms, rfl⟩
  have hdesk := hmoment.arrives.desks id
  rw [Host.desk?_of_get? hr] at hdesk
  obtain ⟨d, hd, hperform⟩ := Option.map_eq_some_iff.1 hdesk.symm
  have hfits : Desk.Fits (r.scheduler, h.loopSeat r) :=
    hperform ▸ (hreached.fits hd).performAll (taken id)
  have haccounts : r.scheduler.Accounts h.nextTimer (es ++ w.eventsOf id taken) := by
    have hallowed : ∀ a ∈ taken id, True := fun _ _ => trivial
    have H := Desk.events_invariant (A := fun _ => True)
      (P := fun es (d : Desk E.Value) => d.1.Accounts d.2.nextTimer es)
      (fun _ _ a _ H => Desk.accounts_perform H a)
      ((accounts_record engines platform profiles id ms).desk d hd) hallowed
    rw [hperform] at H
    rw [eventsOf, hd]
    exact H
  have hcapacity : r.loop.capacity = r.config.maxTimers := by
    have hs := hmoment.sameStatuses.status?_eq id
    rw [Host.status?_of_get? hr] at hs
    exact capacity_eq engines platform profiles ms hs.symm
  exact Host.placesExact hr hfits haccounts hcapacity

/-- A run in which a runtime with one place for timers is attached, a timeout is started, and what is
ready at its deadline is to be delivered. -/
def crowdedRun : List (Move Script.engine) :=
  [.attach 0 { maxTimers := 1 } (.ofFiles "/"), .setTimer ⟨1⟩ .timeout (.object 54) .zero,
    .start (.runReady 0 ⟨1⟩ 1)]

/-- After that run an interval is refused; when the callback of the timeout is called in the next
move, the place is free, and an interval can be started. -/
theorem crowdedRun_exact :
    (∃ h', ((ofForms {}).run crowdedRun).host.setTimer? ⟨1⟩ .interval (.object 54) .zero =
      some (.error (.resource "setInterval: unable to start timer"), h')) ∧
    ∃ v h', ((ofForms {}).run crowdedRun).invocation? (.step 0) = some v ∧
      v.host.setTimer? ⟨1⟩ .interval (.object 54) .zero = some (.ok ⟨2⟩, h') := by
  have H := capacity_exact (E := Script.engine) (Script.State.empty.seat [] [] []) {}
    (fun _ => ⟨⟨1⟩, 0⟩) ⟨1⟩ crowdedRun
  constructor
  · obtain ⟨r, hr, hplaces⟩ := Option.map_eq_some_iff.1 (show
      (((ofForms {}).run crowdedRun).host.runtimes.get? ⟨1⟩).map
        (fun r => (r.scheduler.liveTimers, r.config.maxTimers)) = some (1, 1) by decide +kernel)
    obtain ⟨hlive, hmax⟩ := Prod.mk.inj hplaces
    obtain ⟨result, h', hset, hstarts⟩ := (H _ _ r .between hr).set .interval (.object 54) .zero
    rw [hstarts.refused_iff.2 (hlive.trans hmax.symm)] at hset
    exact ⟨h', hset⟩
  · obtain ⟨v, hv, hcall⟩ := Option.map_eq_some_iff.1 (show
      (((ofForms {}).run crowdedRun).invocation? (.step 0)).map
        (fun v => ((v.host.runtimes.get? ⟨1⟩).map
          fun r => (r.scheduler.liveTimers, r.config.maxTimers), v.host.nextTimer)) =
        some (some (0, 1), 2) by decide +kernel)
    obtain ⟨hplaces, hnext⟩ := Prod.mk.inj hcall
    obtain ⟨r, hr, hplaces⟩ := Option.map_eq_some_iff.1 hplaces
    obtain ⟨hlive, hmax⟩ := Prod.mk.inj hplaces
    obtain ⟨result, h', hset, hstarts⟩ := (H _ _ r (.call hv) hr).set .interval (.object 54) .zero
    have hroom : r.scheduler.liveTimers ≠ r.config.maxTimers := by
      rw [hlive, hmax]
      exact Nat.zero_ne_one
    rw [(hstarts.started hroom).1, hnext] at hset
    exact ⟨v, h', hv, hset⟩

end World

end ScriptHost
