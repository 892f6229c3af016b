import ScriptHost.Proofs.Timer.Order

/-!
# Timers in virtual time

In virtual time the clock stands still while the library and the scripts work, and jumps to the
awaited moment while the event loop waits. A wait does not go beyond a deadline that is still to
come, and whatever is queued in between falls due later than what it takes the place of. So from the
moment at which a call of the event loop begins on, the clock never passes a queued deadline that
had not passed then, and every timer is delivered when its deadline comes.

## Main definitions

* `World.awaits?`: the runtime for whose event loop a move waits.
* `World.VirtualTime`: the clock moves only while the event loop of a runtime waits.
* `World.Punctual`: what holds of a world while a call of the event loop lasts.

## Main results

* `EventLoop.waitUntil_le`: a wait does not go beyond a queued deadline.
* `World.Punctual.perform`: moves in virtual time keep a world punctual.
* `World.Punctual.delivery`: a timer is delivered at its deadline, or at once if that had passed.
-/

namespace ScriptHost

variable {E : Engine}

/-! ### Waiting for the first deadline -/

namespace EventLoop

/-- The first deadline of a queue is that of no later one. -/
theorem nextDeadline_le {l : EventLoop} (hsorted : l.queue.Pairwise Earlier) {deadline : Time}
    (hd : l.nextDeadline = some deadline) {q : Time × TimerId} (hq : q ∈ l.queue) :
    deadline ≤ q.1 := by
  obtain ⟨first, hfirst, rfl⟩ := Option.map_eq_some_iff.1 hd
  obtain ⟨rest, hrest⟩ := List.head?_eq_some_iff.1 hfirst
  rw [hrest] at hsorted hq
  rcases List.mem_cons.1 hq with rfl | hq
  · exact Nat.le_refl _
  · exact ((List.pairwise_cons.1 hsorted).1 q hq).le

theorem nextDeadline_of_wait_lasting {l : EventLoop} {now : Time} {deadline : Option Time}
    (hw : l.wait now = .lasting deadline) : l.nextDeadline = deadline := by
  rw [wait] at hw
  split at hw
  · cases hw
  · split at hw
    · cases hw
    · exact Waiting.lasting.inj hw

/-- A wait is over at once, or does not go beyond any queued deadline. -/
theorem waitUntil_le {l : EventLoop} (hsorted : l.queue.Pairwise Earlier) (now limit : Time)
    {q : Time × TimerId} (hq : q ∈ l.queue) :
    (l.waitUntil now limit).2.1 = now ∨ (l.waitUntil now limit).2.1 ≤ q.1 := by
  rw [waitUntil]
  split
  · exact .inl rfl
  · next deadline hw =>
    have hle := nextDeadline_le hsorted (nextDeadline_of_wait_lasting hw) hq
    split
    · exact .inr hle
    · next hlate =>
      have hnow := Nat.le_trans (Nat.le_of_lt (lt_of_wait_lasting hw)) hle
      have hlimit := Nat.le_trans (Nat.le_of_lt (Nat.lt_of_not_le hlate)) hle
      exact .inr (Nat.max_le.2 ⟨hnow, hlimit⟩)
  · next hw =>
    -- Without a deadline there is nothing in the queue.
    have hnone := nextDeadline_of_wait_lasting hw
    rw [nextDeadline, Option.map_eq_none_iff, List.head?_eq_none_iff] at hnone
    rw [hnone] at hq
    cases hq

end EventLoop

/-! ### What is queued in a turn -/

/-- What is queued after a turn was queued before, perhaps for an earlier deadline, or has been
started in the turn and falls due after the clock. -/
theorem Desk.Turn.queue_later {V : Type} {d d' : Desk V} {o : Option (Time × Notification)}
    (h : d.2.Coherent) (ht : Turn o d d') {q : Time × TimerId} (hq : q ∈ d'.2.loop.queue) :
    (∃ p ∈ d.2.loop.queue, p.1 ≤ q.1) ∨ d.2.clock < q.1 := by
  by_cases ho : ∃ now id, o = some (now, .timer id)
  · obtain ⟨now, id, rfl⟩ := ho
    obtain ⟨met, -, hmet, hdue, -, hqueue⟩ := ht.timer_spec h
    rcases hqueue q hq with ⟨hold, -⟩ | ⟨-, hlater⟩ | ⟨-, -, hnew⟩
    · exact .inl ⟨q, hold, Nat.le_refl _⟩
    · exact .inl ⟨_, hmet, Nat.le_of_lt (Nat.lt_of_le_of_lt hdue hlater)⟩
    · exact .inr hnew
  · rcases (ht.follows h fun now id he => ho ⟨now, id, he⟩).queue q hq with hold | ⟨-, -, hnew⟩
    · exact .inl ⟨q, hold, Nat.le_refl _⟩
    · exact .inr hnew

/-! ### Moves in virtual time -/

/-- The runtime for whose event loop a job waits in its next step, once nothing is ready. -/
def Job.awaits? (h : Host E) (j : Job E) : Option RuntimeId :=
  match j.focus, j.task with
  | .take, .loop owner (some now) _ =>
    if (h.takeNext owner now).isNone then some owner else none
  | _, _ => none

theorem Job.step_of_awaits? {h : Host E} {j : Job E} {owner : RuntimeId}
    (ha : j.awaits? h = some owner) : ∃ limit, j.step h = j.rest h owner limit := by
  unfold awaits? at ha
  split at ha
  · next owner' now limit hf ht =>
    obtain ⟨hnone, he⟩ := Option.ite_none_right_eq_some.1 ha
    obtain rfl := Option.some.inj he
    refine ⟨limit, ?_⟩
    simp only [step, hf, takeNext, ht, Option.isNone_iff_eq_none.1 hnone]
  · cases ha

namespace World

/-- The runtime for whose event loop a move waits. -/
def awaits? (w : World E) : Move E → Option RuntimeId
  | .step i => w.jobs[i]?.bind (Job.awaits? w.host)
  | _ => none

/-- The clock moves only while the event loop of a runtime waits. -/
def VirtualTime (owner : RuntimeId) (w : World E) (m : Move E) : Prop :=
  w.awaits? m = some owner ∨ (w.perform m).host.platform.clock = w.host.platform.clock

instance (owner : RuntimeId) (w : World E) (m : Move E) : Decidable (w.VirtualTime owner m) :=
  inferInstanceAs (Decidable (_ ∨ _))

variable {owner : RuntimeId} {i : Nat} {began : Time} {w : World E} {m : Move E}

/-- What holds of a world while a job runs the event loop of a runtime in virtual time: once the
clock has moved since the job began, it has passed no queued deadline, and the pass of the job is not
ahead of it. -/
structure Punctual (owner : RuntimeId) (i : Nat) (began : Time) (w : World E) : Prop where
  reached : w.Reached
  lt_jobs : i < w.jobs.length
  began_le : began ≤ w.host.platform.clock
  clock_le : ∀ d, w.host.desk? owner = some d → ∀ q ∈ d.2.loop.queue,
    w.host.platform.clock = began ∨ w.host.platform.clock ≤ q.1
  pass_le : ∀ j id now, w.jobs[i]? = some j → j.pass? = some (id, now) →
    now ≤ w.host.platform.clock

/-- A wait for the event loop of a runtime leaves its queue alone, and is over at once or passes no
queued deadline. -/
theorem rest_queue {h : Host E} (j : Job E) (limit : Time) {d' : Desk E.Value}
    (hsorted : ∀ d, h.desk? owner = some d → d.2.loop.queue.Pairwise Earlier)
    (hd' : (j.rest h owner limit).1.desk? owner = some d') :
    ∃ d, h.desk? owner = some d ∧ d'.2.loop.queue = d.2.loop.queue ∧ ∀ q ∈ d.2.loop.queue,
      (j.rest h owner limit).1.platform.clock = h.platform.clock ∨
        (j.rest h owner limit).1.platform.clock ≤ q.1 := by
  rw [Job.rest] at hd' ⊢
  cases hr : h.runtimes.get? owner with
  | none =>
    rw [hr] at hd'
    exact ⟨d', hd', rfl, fun _ _ => .inl rfl⟩
  | some r =>
    rw [hr] at hd'
    dsimp only at hd' ⊢
    split at hd'
    · next hleave =>
      rw [if_pos hleave]
      exact ⟨d', hd', rfl, fun _ _ => .inl rfl⟩
    · next hstays =>
      rw [if_neg hstays]
      have hd := Host.desk?_of_get? hr
      have hloop := (r.loop.waitUntil_spec h.platform.clock limit).2
      have hle (q) (hq : q ∈ r.loop.queue) := EventLoop.waitUntil_le (hsorted _ hd)
        h.platform.clock limit hq
      change ∀ q ∈ _, (r.loop.waitUntil _ _).2.1 = _ ∨ (r.loop.waitUntil _ _).2.1 ≤ _ at hle
      revert hloop hle hd'
      generalize r.loop.waitUntil h.platform.clock limit = wait
      obtain ⟨woke, now, loop⟩ := wait
      intro hd' hloop hle
      have hqueue : d'.2.loop.queue = r.loop.queue := by
        have hd' : ((h.put owner { r with loop }).setClock now).desk? owner = some d' := by
          cases woke <;> exact hd'
        simp only [Host.desk?, Host.setClock, Host.put, Table.get?_insert_self,
          Option.map_some, Option.some.injEq] at hd'
        subst hd'
        rcases hloop with rfl | rfl <;> rfl
      cases woke <;> exact ⟨_, hd, hqueue, hle⟩

namespace Punctual

/-- A world in which a call of the event loop has just begun. -/
theorem start (hw : w.Reached) (seat : Seat) (owner : RuntimeId) (limit : Time) :
    Punctual owner w.jobs.length w.host.platform.clock
      (w.perform (.start (.runLoop seat owner limit))) := by
  have hjob : (w.perform (.start (.runLoop seat owner limit))).jobs[w.jobs.length]? =
      some (Job.runLoop w.host seat owner limit).2 := List.getElem?_concat_length ..
  constructor
  case reached => exact hw.run [.start (.runLoop seat owner limit)]
  case lt_jobs => simp [World.perform]
  case began_le => exact Nat.le_refl _
  case clock_le => exact fun d hd q hq => .inl rfl
  case pass_le =>
    intro j id now hj hp
    obtain rfl := Option.some.inj (hjob.symm.trans hj)
    cases hp

theorem clock_le_perform (hm : VirtualTime owner w m) :
    w.host.platform.clock ≤ (w.perform m).host.platform.clock := by
  rcases hm with ha | hclock
  · refine (w.perform_inside_grows fun engines platform he => ?_).clock_le
    subst he
    cases ha
  · exact Nat.le_of_eq hclock.symm

/-- A queued deadline that had not passed when the job began is not passed by a move. -/
theorem clock_le_queue (H : Punctual owner i began w) (hm : VirtualTime owner w m)
    {d' : Desk E.Value} (hd' : (w.perform m).host.desk? owner = some d') {q : Time × TimerId}
    (hq : q ∈ d'.2.loop.queue) :
    (w.perform m).host.platform.clock = began ∨ (w.perform m).host.platform.clock ≤ q.1 := by
  rcases hm with ha | hclock
  · -- The event loop waits: nothing is queued meanwhile.
    cases m with
    | step k =>
      obtain ⟨j, hj, ha⟩ := Option.bind_eq_some_iff.1 ha
      obtain ⟨limit, hrest⟩ := Job.step_of_awaits? ha
      simp only [World.perform, hj, hrest] at hd' ⊢
      obtain ⟨d, hd, hqueue, hle⟩ := rest_queue j limit
        (fun d hd => (H.reached.coherent hd).queues.sorted) hd'
      rw [hqueue] at hq
      rcases hle q hq with hstill | hle
      · rw [hstill]
        exact H.clock_le d hd q hq
      · exact .inr hle
    | _ => cases ha
  · -- The clock stands still.
    rw [hclock]
    rcases (w.perform_grows m (Nat.le_of_eq hclock.symm)).desks owner d' hd' with
      ⟨d, hd, hturn⟩ | ⟨-, -, capacity, hs⟩
    · rcases hturn.queue_later (H.reached.coherent hd) hq with ⟨p, hp, hle⟩ | hnew
      · exact (H.clock_le d hd p hp).imp_right fun hold => Nat.le_trans hold hle
      · exact .inr (Nat.le_of_lt ((desk?_seat hd).1 ▸ hnew))
    · have hfollows := Desk.follows_of_shifts (Desk.coherent_fresh ..) hs
      rcases hfollows.queue q hq with hold | ⟨-, -, hnew⟩
      · cases hold
      · exact .inr (Nat.le_of_lt hnew)

/-- Moves in virtual time keep a world punctual. -/
theorem perform (H : Punctual owner i began w) (hm : VirtualTime owner w m) :
    Punctual owner i began (w.perform m) := by
  have hclock := clock_le_perform hm
  constructor
  case reached => exact H.reached.run [m]
  case lt_jobs => exact Nat.lt_of_lt_of_le H.lt_jobs (w.length_jobs_le_perform m)
  case began_le => exact Nat.le_trans H.began_le hclock
  case clock_le => exact fun d' hd' q hq => H.clock_le_queue hm hd' hq
  case pass_le =>
    intro j' id now hj' hp
    rcases job_perform hj' with ⟨j, hj, ⟨-, rfl⟩ | ⟨-, rfl⟩⟩ | ⟨-, -, hi, -⟩
    · rcases j.step_pass? w.host with hsame | hnone | ⟨owner', -, hbegun⟩
      · exact Nat.le_trans (H.pass_le j id now hj (hsame ▸ hp)) hclock
      · cases hnone.symm.trans hp
      · obtain ⟨-, rfl⟩ := Prod.mk.inj (Option.some.inj (hbegun.symm.trans hp))
        exact hclock
    · exact Nat.le_trans (H.pass_le _ id now hj hp) hclock
    · exact absurd hi (Nat.ne_of_lt H.lt_jobs)

theorem run (H : Punctual owner i began w) {ms : List (Move E)}
    (hms : w.Along (VirtualTime owner) ms) : Punctual owner i began (w.run ms) := by
  induction ms generalizing w with
  | nil => exact H
  | cons m ms ih => exact ih (H.perform hms.1) hms.2

/-- A timer that the job is handed is delivered at its deadline, or when the job began if that had
passed then. -/
theorem delivery (H : Punctual owner i began w) {now : Time} {timer : TimerId}
    (hn : w.handed (.step i) owner = some (now, .timer timer)) :
    ∃ a, w.delivery owner (.step i) = some a ∧ a.timer = timer ∧
      a.clock = max a.deadline began := by
  cases hi : w.jobs[i]? with
  | none => simp [handed, hi] at hn
  | some j =>
    have hn' : j.handed? w.host owner = some (now, .timer timer) := by
      simpa [handed, hi] using hn
    obtain ⟨hp, r, hr⟩ := Job.pass?_of_handed? hn'
    have hd := Host.desk?_of_get? hr
    obtain ⟨d', hd', hturn⟩ := (j.step_turns w.host).of_some_left hd
    rw [hn'] at hturn
    obtain ⟨met, hlive, hmem, hdue, -⟩ := hturn.timer_spec (H.reached.coherent hd)
    obtain ⟨a, ha, hmet⟩ := delivery_of_handed hn hd hlive
    obtain ⟨rfl, rfl⟩ := Prod.mk.inj hmet
    obtain ⟨-, -, -, -, -, -, -, -, -, -, hclock⟩ := delivery_spec ha
    have hdue := Nat.le_trans hdue (H.pass_le j owner now hi hp)
    refine ⟨a, ha, rfl, hclock.trans ?_⟩
    rcases H.clock_le _ hd _ hmem with hbegan | hpunctual
    · rw [hbegan] at hdue ⊢
      exact (Nat.max_eq_right hdue).symm
    · have hmet := Nat.le_antisymm hpunctual hdue
      exact hmet.trans (Nat.max_eq_left (hmet ▸ H.began_le)).symm

end Punctual

end World

end ScriptHost
