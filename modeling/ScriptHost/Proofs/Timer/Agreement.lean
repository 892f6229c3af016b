import ScriptHost.Proofs.Host.WorldDesks
import Mathlib.Data.List.Count

/-!
# The scheduler and its loop agree

A scheduler keeps the callbacks of what its loop keeps pending, and the two are changed by different
functions. They never disagree: the callbacks of each kind of timer are those of the live timers of
that kind, and every posted event that still has a callback waits in the loop once.

That a new timer gets a number which no live timer has, and a new event one above those of the
events that wait, is part of what is carried from one moment to the next.

## Main definitions

* `EventLoop.kind?`: the kind of a live timer.
* `Runtime.InStep`: what agreement comes to for a runtime.
* `Desk.Agrees`: agreement, and that new numbers are new.

## Main results

* `Desk.Shift.agrees`, `Desk.Delivers.agrees`: all that happens at a desk keeps agreement.
* `World.run_inStep`: every runtime of every reachable world is in step.
-/

namespace ScriptHost

variable {V : Type} {E : Engine}

/-- The kind of a timer: whether it repeats. -/
def Timer.kind (timer : Timer) : TimerKind := if timer.every.isSome then .interval else .timeout

namespace EventLoop

variable {l : EventLoop}

/-- The kind of a live timer. -/
def kind? (l : EventLoop) (id : TimerId) : Option TimerKind := (l.live.get? id).map Timer.kind

theorem kind?_eq_timeout {id : TimerId} :
    l.kind? id = some .timeout ↔ ∃ deadline, l.live.get? id = some ⟨deadline, none⟩ := by
  rw [kind?]
  rcases l.live.get? id with _ | ⟨deadline, _ | interval⟩ <;> simp [Timer.kind]

theorem kind?_eq_interval {id : TimerId} :
    l.kind? id = some .interval ↔
      ∃ deadline interval, l.live.get? id = some ⟨deadline, some interval⟩ := by
  rw [kind?]
  rcases l.live.get? id with _ | ⟨deadline, _ | interval⟩ <;> simp [Timer.kind]

/-! ### Changing a loop -/

theorem kind?_arm (l : EventLoop) (id id' : TimerId) (timer : Timer) :
    (l.arm id timer).kind? id' = if id' = id then some timer.kind else l.kind? id' := by
  simp only [kind?, arm, Table.get?_insert]
  split <;> rfl

theorem kind?_kill (l : EventLoop) (id id' : TimerId) :
    (l.kill id).kind? id' = if id' = id then none else l.kind? id' := by
  simp only [kind?, live_kill, Table.get?_erase]
  split <;> rfl

theorem posted_kill (l : EventLoop) (id : TimerId) : (l.kill id).posted = l.posted := by
  rw [kill]
  split <;> rfl

/-- What a loop hands out: the first posted event, or a timer, which stays live if it repeats. -/
theorem poll_kind? {now : Time} {n : Notification} {l' : EventLoop}
    (h : l.poll now = some (n, l')) :
    (∃ tick rest, n = .posted tick ∧ l.posted = tick :: rest ∧ l' = { l with posted := rest }) ∨
      ∃ id, n = .timer id ∧ l.posted = [] ∧ l'.posted = [] ∧
        ∀ id', l'.kind? id' =
          if id' = id ∧ l.kind? id = some .timeout then none else l.kind? id' := by
  cases polls_of_poll h with
  | @posted tick rest hp => exact .inl ⟨tick, rest, rfl, hp, rfl⟩
  | @again met id queue interval hp hqueue hdue he =>
    refine .inr ⟨id, rfl, hp, hp, fun id' => ?_⟩
    have hk : l.kind? id = some .interval := by
      obtain ⟨timer, ht, he⟩ := Option.bind_eq_some_iff.1 he
      change (l.live.get? id).map Timer.kind = _
      simp_all [Timer.kind]
    have hnot : ¬(id' = id ∧ l.kind? id = some .timeout) := by simp [hk]
    rw [if_neg hnot]
    refine (kind?_arm _ id id' _).trans ?_
    split
    · next hid => rw [hid, hk]; rfl
    · rfl
  | @once met id queue hp hqueue hdue he =>
    refine .inr ⟨id, rfl, hp, hp, fun id' => ?_⟩
    have hk : l.kind? id = none ∨ l.kind? id = some .timeout := by
      rw [kind?]
      rcases hl : l.live.get? id with _ | ⟨deadline, _ | interval⟩
      · exact .inl rfl
      · exact .inr rfl
      · simp_all
    change ((l.live.erase id).get? id').map Timer.kind = _
    rw [Table.get?_erase]
    by_cases hid : id' = id
    · subst hid
      rcases hk with hk | hk <;> simp [hk]
    · simp [hid, kind?]

end EventLoop

namespace Scheduler

variable {H : Type} [TimerHost H]

theorem timers_withTimers (s : Scheduler V) (kind kind' : TimerKind) (t : Table TimerId V) :
    (s.withTimers kind t).timers kind' = if kind' = kind then t else s.timers kind' := by
  cases kind <;> cases kind' <;> rfl

theorem ticks_withTimers (s : Scheduler V) (kind : TimerKind) (t : Table TimerId V) :
    (s.withTimers kind t).ticks = s.ticks := by
  cases kind <;> rfl

theorem nextTickId_withTimers (s : Scheduler V) (kind : TimerKind) (t : Table TimerId V) :
    (s.withTimers kind t).nextTickId = s.nextTickId := by
  cases kind <;> rfl

end Scheduler

/-! ### Agreement -/

/-- The scheduler of a runtime and its loop agree about what is pending. -/
structure Runtime.InStep (r : Runtime E) : Prop where
  /-- Timeouts are the live timers that fire once. -/
  timeouts : ∀ id, id ∈ r.scheduler.timeouts.keys ↔
    ∃ deadline, r.loop.live.get? id = some ⟨deadline, none⟩
  /-- Intervals are the live timers that repeat. -/
  intervals : ∀ id, id ∈ r.scheduler.intervals.keys ↔
    ∃ deadline interval, r.loop.live.get? id = some ⟨deadline, some interval⟩
  /-- No timer is both. -/
  disjoint : ∀ id ∈ r.scheduler.timeouts.keys, id ∉ r.scheduler.intervals.keys
  /-- An event with a callback waits in the loop once. -/
  ticks : ∀ tick ∈ r.scheduler.ticks.keys, r.loop.posted.count tick = 1
  /-- Events wait in the order of their numbers. -/
  posted : r.loop.posted.Pairwise fun tick tick' => tick.val < tick'.val

namespace Desk

/-- The scheduler at a desk agrees with the loop, and numbers that are given next are new. -/
structure Agrees (d : Desk V) : Prop where
  timers : ∀ kind id, id ∈ (d.1.timers kind).keys ↔ d.2.loop.kind? id = some kind
  ticks : ∀ tick ∈ d.1.ticks.keys, d.2.loop.posted.count tick = 1
  posted : d.2.loop.posted.Pairwise fun tick tick' => tick.val < tick'.val
  timers_lt : ∀ id, d.2.loop.kind? id ≠ none → id.val < d.2.nextTimer
  posted_lt : ∀ tick ∈ d.2.loop.posted, tick.val < d.1.nextTickId

theorem Agrees.inStep {r : Runtime E} {s : LoopSeat} (h : Agrees (r.scheduler, s))
    (hs : s.loop = r.loop) : r.InStep where
  timeouts id := by rw [← EventLoop.kind?_eq_timeout, ← hs]; exact h.timers .timeout id
  intervals id := by rw [← EventLoop.kind?_eq_interval, ← hs]; exact h.timers .interval id
  disjoint id ht hi := by
    have hkind := ((h.timers .timeout id).1 ht).symm.trans ((h.timers .interval id).1 hi)
    cases hkind
  ticks := hs ▸ h.ticks
  posted := hs ▸ h.posted

theorem agrees_fresh (capacity : Nat) (clock : Time) (nextTimer : Nat) :
    Agrees (fresh capacity clock nextTimer : Desk V) where
  timers kind id := by cases kind <;> simp [fresh, Scheduler.empty, Scheduler.timers,
    EventLoop.ofCapacity, EventLoop.kind?]
  ticks := by simp [fresh, Scheduler.empty]
  posted := .nil
  timers_lt := by simp [fresh, EventLoop.ofCapacity, EventLoop.kind?]
  posted_lt := by simp [fresh, EventLoop.ofCapacity]

/-- What changes neither the kinds of the live timers nor the events that wait. -/
theorem Agrees.of_kind? {s : Scheduler V} {l l' : LoopSeat} (h : Agrees (s, l))
    (hkind : ∀ id, l'.loop.kind? id = l.loop.kind? id) (hposted : l'.loop.posted = l.loop.posted)
    (hnext : l.nextTimer ≤ l'.nextTimer) : Agrees (s, l') where
  timers kind id := by rw [hkind]; exact h.timers kind id
  ticks := by rw [hposted]; exact h.ticks
  posted := by rw [hposted]; exact h.posted
  timers_lt id hid := Nat.lt_of_lt_of_le (h.timers_lt id (by rwa [← hkind])) hnext
  posted_lt := by rw [hposted]; exact h.posted_lt

/-- A timer is taken out of the scheduler and of the loop, and nothing else is. -/
theorem Agrees.remove {s : Scheduler V} {l l' : LoopSeat} (h : Agrees (s, l)) {kind : TimerKind}
    {id : TimerId} (hid : l.loop.kind? id = some kind)
    (hkind : ∀ id', l'.loop.kind? id' = if id' = id then none else l.loop.kind? id')
    (hposted : l'.loop.posted = l.loop.posted) (hnext : l'.nextTimer = l.nextTimer) :
    Agrees (s.withTimers kind ((s.timers kind).erase id), l') where
  timers kind' id' := by
    rw [Scheduler.timers_withTimers, hkind]
    by_cases hi : id' = id
    · subst hi
      rw [if_pos rfl]
      split
      · simp [Table.keys_erase]
      · next hne =>
        rw [h.timers kind' id', hid]
        simpa using Ne.symm hne
    · rw [if_neg hi, ← h.timers kind' id']
      split
      · next hk => simp [Table.keys_erase, hi, hk]
      · rfl
  ticks := by rw [Scheduler.ticks_withTimers, hposted]; exact h.ticks
  posted := by rw [hposted]; exact h.posted
  timers_lt id' hlive := by
    rw [hnext]
    refine h.timers_lt id' fun hnone => hlive ?_
    rw [hkind, hnone, ite_self]
  posted_lt := by rw [Scheduler.nextTickId_withTimers, hposted]; exact h.posted_lt

/-! ### What happens at a desk -/

variable {d d' : Desk V}

theorem Agrees.setTimer (h : Agrees d) (kind : TimerKind) (callback : V) (delay : Double) :
    Agrees (d.1.setTimer d.2 kind callback delay).2 := by
  obtain ⟨s, l⟩ := d
  rcases s.setTimer_cases l kind callback delay with hrefused | hstarted
  · rw [hrefused]
    exact h
  · rw [hstarted]
    have hnew : l.loop.kind? ⟨l.nextTimer⟩ = none := by
      by_contra hlive
      exact Nat.lt_irrefl _ (h.timers_lt _ hlive)
    refine ⟨fun kind' id => ?_, ?_, h.posted, fun id hid => ?_, ?_⟩
    · rw [Scheduler.timers_withTimers, EventLoop.kind?_arm]
      have hold := h.timers kind' id
      by_cases hid : id = ⟨l.nextTimer⟩
      · subst hid
        rw [hnew] at hold
        cases kind <;> cases kind' <;> simp_all [Table.keys_insert, Timer.kind]
      · rw [if_neg hid, ← hold]
        split
        · next hk => subst hk; rw [Table.keys_insert]; split <;> simp [hid]
        · rfl
    · rw [Scheduler.ticks_withTimers]; exact h.ticks
    · change id.val < l.nextTimer + 1
      rw [EventLoop.kind?_arm] at hid
      split at hid
      · next he => subst he; exact Nat.lt_succ_self _
      · exact Nat.lt_succ_of_lt (h.timers_lt id hid)
    · rw [Scheduler.nextTickId_withTimers]; exact h.posted_lt

theorem Agrees.clearTimer (h : Agrees d) (kind : TimerKind) (id : TimerId) :
    Agrees (d.1.clearTimer d.2 kind id) := by
  rw [Scheduler.clearTimer]
  split
  · next hc =>
    exact h.remove ((h.timers kind id).1 (Table.contains_iff_mem_keys.1 hc))
      (d.2.loop.kind?_kill id) (d.2.loop.posted_kill id) rfl
  · exact h

theorem Agrees.nextTick (h : Agrees d) (callback : V) :
    Agrees (d.1.nextTick d.2 callback).2 := by
  have hnew : (⟨d.1.nextTickId⟩ : TickId) ∉ d.2.loop.posted :=
    fun hm => Nat.lt_irrefl _ (h.posted_lt _ hm)
  have hposted : (d.2.loop.posted ++ [(⟨d.1.nextTickId⟩ : TickId)]).Pairwise
      fun tick tick' => tick.val < tick'.val := by
    refine List.pairwise_append.2 ⟨h.posted, List.pairwise_singleton .., ?_⟩
    intro tick htick tick' htick'
    rw [List.mem_singleton.1 htick']
    exact h.posted_lt tick htick
  refine ⟨h.timers, fun tick htick => ?_, hposted, h.timers_lt, fun tick htick => ?_⟩
  · change (d.2.loop.posted ++ [(⟨d.1.nextTickId⟩ : TickId)]).count tick = 1
    change tick ∈ (d.1.ticks.insert ⟨d.1.nextTickId⟩ callback).keys at htick
    rw [List.count_append]
    by_cases ht : tick = ⟨d.1.nextTickId⟩
    · subst ht
      rw [List.count_eq_zero_of_not_mem hnew, List.count_singleton_self]
    · have hold : tick ∈ d.1.ticks.keys := by
        rw [Table.keys_insert] at htick
        split at htick
        · exact htick
        · simpa [ht] using htick
      rw [h.ticks tick hold, List.count_eq_zero_of_not_mem (by simpa using ht)]
  · rcases List.mem_append.1 htick with hm | hm
    · exact Nat.lt_succ_of_lt (h.posted_lt tick hm)
    · rw [List.mem_singleton.1 hm]
      exact Nat.lt_succ_self _

/-- An event that is taken by hand loses its callback and waits on. -/
theorem Agrees.take (h : Agrees d) (n : Notification) : Agrees (d.1.take d.2 n).2 := by
  cases n with
  | timer id =>
    rw [Scheduler.take_timer]
    exact h.clearTimer .timeout id
  | posted tick =>
    refine ⟨h.timers, fun tick' ht => h.ticks tick' ?_, h.posted, h.timers_lt, h.posted_lt⟩
    exact (List.mem_filter.1 (by rwa [← Table.keys_erase])).1

/-- All that happens at a desk while nothing is handed out keeps agreement. -/
theorem Shift.agrees (h : Agrees d) (hs : Shift d d') : Agrees d' := by
  cases hs with
  | setTimer kind callback delay => exact h.setTimer kind callback delay
  | clearTimer kind id => exact h.clearTimer kind id
  | nextTick callback => exact h.nextTick callback
  | take n => exact h.take n
  | stop => exact h.of_kind? (fun _ => rfl) rfl (Nat.le_refl _)
  | forget => exact h.of_kind? (fun _ => rfl) rfl (Nat.le_refl _)
  | elapse hclock hnext => exact h.of_kind? (fun _ => rfl) rfl hnext

/-- A notification takes its callback along, unless it is that of a repeating timer, which stays
live. -/
theorem Delivers.agrees {now : Time} {n : Notification} (h : Agrees d) (hd : Delivers now n d d') :
    Agrees d' := by
  obtain ⟨s, seat⟩ := d
  obtain ⟨-, l, hpoll, rfl⟩ := hd
  rcases EventLoop.poll_kind? hpoll with ⟨tick, rest, rfl, hp, rfl⟩ | ⟨id, rfl, hp, hp', hkind⟩
  · have hpairwise := h.posted
    rw [hp] at hpairwise
    refine ⟨h.timers, fun tick' ht => ?_, hpairwise.of_cons, h.timers_lt, fun tick' ht => ?_⟩
    · change tick' ∈ (s.ticks.erase tick).keys at ht
      rw [Table.keys_erase, List.mem_filter] at ht
      have hne : tick' ≠ tick := by simpa using ht.2
      have hcount := h.ticks tick' ht.1
      rwa [hp, List.count_cons_of_ne hne.symm] at hcount
    · exact h.posted_lt tick' (hp ▸ List.mem_cons_of_mem tick ht)
  · rw [Scheduler.take_timer]
    by_cases hid : seat.loop.kind? id = some .timeout
    · have hc : (s.timers .timeout).contains id = true :=
        Table.contains_iff_mem_keys.2 ((h.timers .timeout id).2 hid)
      rw [Scheduler.clearTimer, if_pos hc]
      refine h.remove hid (fun id' => ?_) ?_ rfl
      · change (l.kill id).kind? id' = _
        rw [EventLoop.kind?_kill, hkind]
        split <;> simp_all
      · exact (l.posted_kill id).trans (hp'.trans hp.symm)
    · have hc : ¬ (s.timers .timeout).contains id = true :=
        fun hc => hid ((h.timers .timeout id).1 (Table.contains_iff_mem_keys.1 hc))
      rw [Scheduler.clearTimer, if_neg hc]
      refine h.of_kind? (fun id' => ?_) (hp'.trans hp.symm) (Nat.le_refl _)
      exact (hkind id').trans (if_neg fun hboth => hid hboth.2)

end Desk

namespace World

/-- The desks of a world agree with their loops. -/
theorem Reached.agrees {w : World E} (hw : w.Reached) {id : RuntimeId} {d : Desk E.Value}
    (hd : w.host.desk? id = some d) : d.Agrees := by
  obtain ⟨engines, platform, profiles, ms, rfl⟩ := hw
  exact desk_invariant Desk.agrees_fresh (fun _ _ h hs => hs.agrees h)
    (fun _ _ _ _ h hd => hd.agrees h)
    (fun _ _ h => h.of_kind? (fun _ => rfl) rfl (Nat.le_refl _)) engines platform profiles ms hd

theorem Reached.inStep {w : World E} (hw : w.Reached) {id : RuntimeId} {r : Runtime E}
    (hr : w.host.runtimes.get? id = some r) : r.InStep :=
  (hw.agrees (Host.desk?_of_get? hr)).inStep rfl

/-- Every runtime of a world is in step with its loop. -/
def InStep (w : World E) : Prop := ∀ id r, w.host.runtimes.get? id = some r → r.InStep

/-- Whatever is done with the runtimes of a host, by hand, by jobs and by the scripts that these
run, in whichever order and at whichever times: at every moment every runtime is in step. -/
theorem run_inStep (engines : E.State) (platform : Platform) (profiles : Seat → Profile)
    (ms : List (Move E)) : ((initial engines platform profiles).run ms).InStep := by
  intro id r hr
  have hreached : ((initial engines platform profiles).run ms).Reached :=
    ⟨engines, platform, profiles, ms, rfl⟩
  exact hreached.inStep hr

end World

end ScriptHost
