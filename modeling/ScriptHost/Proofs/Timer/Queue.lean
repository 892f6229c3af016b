import ScriptHost.Proofs.Timer.Desk

/-!
# The queue of deadlines

The queue of a loop holds the deadlines of its live timers, each once and the earliest first. A
timer that is started falls due after the clock, since every delay is at least one millisecond long,
and a repeating timer that has been handed out falls due after the pass that handed it out. So what
comes into a queue comes behind all that has been handed out.

## Main definitions

* `Earlier`: the order of deadlines, the older timer first among equal ones.
* `Queues`: a queue holds the deadlines of live timers.
* `LoopSeat.Coherent`: the queue of a loop at a seat holds the deadlines of its live timers.
* `LoopSeat.Follows`: what is queued afterwards was queued before or falls due after the clock.

## Main results

* `Desk.Shift.follows`: shifts start timers that fall due after the clock, and no others.
* `Desk.Delivers.timer_spec`: the timer that is handed out was the first of the queue, and whatever
  is queued afterwards comes behind it.
-/

namespace ScriptHost

open Relation (ReflTransGen)
open EventLoop (enqueue before)

/-- A deadline comes first if it is the earlier one, or the same and that of the older timer. -/
def Earlier (p q : Time × TimerId) : Prop := p.1 < q.1 ∨ p.1 = q.1 ∧ p.2.val < q.2.val

theorem Earlier.trans {p q r : Time × TimerId} (hpq : Earlier p q) (hqr : Earlier q r) :
    Earlier p r := by
  rcases hpq with hpq | ⟨hpq, hpq'⟩ <;> rcases hqr with hqr | ⟨hqr, hqr'⟩
  · exact .inl (Nat.lt_trans hpq hqr)
  · exact .inl (hqr ▸ hpq)
  · exact .inl (hpq ▸ hqr)
  · exact .inr ⟨hpq.trans hqr, Nat.lt_trans hpq' hqr'⟩

theorem Earlier.le {p q : Time × TimerId} (h : Earlier p q) : p.1 ≤ q.1 :=
  h.elim Nat.le_of_lt fun h => Nat.le_of_eq h.1

theorem Earlier.ne {p q : Time × TimerId} (h : Earlier p q) : p ≠ q := by
  rintro rfl
  exact h.elim (Nat.lt_irrefl _) fun h => Nat.lt_irrefl _ h.2

theorem before_iff {p q : Time × TimerId} : before p q = true ↔ Earlier p q := by
  simp [before, Earlier]

/-- Of two deadlines of different timers one comes first. -/
theorem earlier_of_not_before {p q : Time × TimerId} (h : ¬before p q = true) (hne : p.2 ≠ q.2) :
    Earlier q p := by
  rw [before_iff] at h
  have hval : p.2.val ≠ q.2.val := fun he => hne (congrArg TimerId.mk he)
  rcases Nat.lt_trichotomy p.1 q.1 with hlt | heq | hgt
  · exact absurd (.inl hlt) h
  · rcases Nat.lt_or_gt_of_ne hval with hlt | hgt
    · exact absurd (.inr ⟨heq, hlt⟩) h
    · exact .inr ⟨heq.symm, hgt⟩
  · exact .inl hgt

theorem delayOf_pos (x : Double) : 0 < delayOf x := by
  rw [delayOf]
  split
  · exact Nat.one_pos
  · split
    · exact Nat.one_pos
    · change 0 < x.integerPart.toNat
      omega

/-! ### Queues -/

theorem mem_enqueue {e p : Time × TimerId} {q : List (Time × TimerId)} :
    p ∈ enqueue e q ↔ p = e ∨ p ∈ q := by
  induction q with
  | nil => simp [enqueue]
  | cons f q ih =>
    rw [enqueue]
    split
    · exact List.mem_cons
    · rw [List.mem_cons, ih, List.mem_cons]
      exact or_left_comm

/-- A deadline of a new timer finds its place. -/
theorem sorted_enqueue {e : Time × TimerId} {q : List (Time × TimerId)} (hq : q.Pairwise Earlier)
    (hnew : ∀ f ∈ q, e.2 ≠ f.2) : (enqueue e q).Pairwise Earlier := by
  induction q with
  | nil => exact List.pairwise_singleton ..
  | cons f q ih =>
    obtain ⟨hf, hq⟩ := List.pairwise_cons.1 hq
    rw [enqueue]
    split
    · next hb =>
      have hef := before_iff.1 hb
      refine List.pairwise_cons.2 ⟨fun p hp => ?_, List.pairwise_cons.2 ⟨hf, hq⟩⟩
      rcases List.mem_cons.1 hp with rfl | hp
      · exact hef
      · exact hef.trans (hf p hp)
    · next hb =>
      have hfe := earlier_of_not_before hb (hnew f (List.mem_cons_self ..))
      refine List.pairwise_cons.2
        ⟨fun p hp => ?_, ih hq fun g hg => hnew g (List.mem_cons_of_mem f hg)⟩
      rcases mem_enqueue.1 hp with rfl | hp
      · exact hfe
      · exact hf p hp

/-- A queue holds the deadlines of live timers, the earliest first. -/
structure Queues (q : List (Time × TimerId)) (live : Table TimerId Timer) : Prop where
  sorted : q.Pairwise Earlier
  mem_iff : ∀ deadline id, (deadline, id) ∈ q ↔ (live.get? id).map Timer.deadline = some deadline

namespace Queues

variable {q : List (Time × TimerId)} {live : Table TimerId Timer}

theorem congr (h : Queues q live) {live' : Table TimerId Timer}
    (hlive : ∀ id, live'.get? id = live.get? id) : Queues q live' :=
  ⟨h.sorted, fun deadline id => by rw [hlive]; exact h.mem_iff deadline id⟩

/-- A new timer is put in. -/
theorem insert (h : Queues q live) {id : TimerId} (hid : live.get? id = none) (timer : Timer) :
    Queues (enqueue (timer.deadline, id) q) (live.insert id timer) := by
  refine ⟨sorted_enqueue h.sorted fun f hf => ?_, fun deadline id' => ?_⟩
  · rintro rfl
    have hmem := (h.mem_iff f.1 f.2).1 hf
    rw [hid] at hmem
    cases hmem
  · rw [mem_enqueue, Table.get?_insert, h.mem_iff]
    by_cases hi : id' = id
    · subst hi
      simp [hid, eq_comm]
    · simp [hi]

/-- A timer is taken out. -/
theorem erase (h : Queues q live) {id : TimerId} {q' : List (Time × TimerId)} (hq' : q'.Sublist q)
    (hmem : ∀ p, p ∈ q' ↔ p ∈ q ∧ p.2 ≠ id) : Queues q' (live.erase id) := by
  refine ⟨h.sorted.sublist hq', fun deadline id' => ?_⟩
  rw [hmem, h.mem_iff, Table.get?_erase]
  by_cases hi : id' = id <;> simp [hi]

/-- The deadline of a timer that is queued is the one that it has. -/
theorem eq_deadline (h : Queues q live) {p : Time × TimerId} (hp : p ∈ q) {timer : Timer}
    (ht : live.get? p.2 = some timer) : p.1 = timer.deadline := by
  have hmem := (h.mem_iff p.1 p.2).1 hp
  rw [ht] at hmem
  exact (Option.some.inj hmem).symm

/-- The first timer of a queue is live, with that deadline. -/
theorem first (h : Queues q live) {met : Time} {id : TimerId} {rest : List (Time × TimerId)}
    (hq : q = (met, id) :: rest) : ∃ every, live.get? id = some ⟨met, every⟩ := by
  have hmem := (h.mem_iff met id).1 (hq ▸ List.mem_cons_self ..)
  obtain ⟨⟨deadline, every⟩, hlive, rfl⟩ := Option.map_eq_some_iff.1 hmem
  exact ⟨every, hlive⟩

/-- The first of a queue is taken out. -/
theorem tail {met : Time} {id : TimerId} (h : Queues ((met, id) :: q) live) :
    Queues q (live.erase id) := by
  refine h.erase (List.sublist_cons_self ..) fun p => ⟨fun hp => ?_, fun hp => ?_⟩
  · refine ⟨List.mem_cons_of_mem _ hp, fun hpid => ?_⟩
    -- A timer that is queued twice would have two deadlines.
    have hfirst := (h.mem_iff met id).1 (List.mem_cons_self ..)
    have hthen := (h.mem_iff p.1 p.2).1 (List.mem_cons_of_mem _ hp)
    rw [hpid, hfirst] at hthen
    exact ((List.pairwise_cons.1 h.sorted).1 p hp).ne (Prod.ext (Option.some.inj hthen) hpid.symm)
  · rcases List.mem_cons.1 hp.1 with rfl | hp'
    · exact absurd rfl hp.2
    · exact hp'

/-- A timer that is out of the queue is put back. -/
theorem rearm {id : TimerId} (h : Queues q (live.erase id)) (timer : Timer) :
    Queues (enqueue (timer.deadline, id) q) (live.insert id timer) := by
  refine (h.insert (Table.get?_erase_self ..) timer).congr fun id' => ?_
  simp only [Table.get?_insert, Table.get?_erase]
  split <;> rfl

/-- A kill takes out whatever is queued for the timer, since only its own deadline is. -/
theorem queue_kill {l : EventLoop} (h : Queues l.queue l.live) (id : TimerId) :
    (l.kill id).queue = l.queue.filter fun p => p.2 ≠ id := by
  rw [EventLoop.kill]
  split
  · next timer ht =>
    refine List.filter_congr fun p hp => ?_
    by_cases hid : p.2 = id
    · have he : p = (timer.deadline, id) := Prod.ext (h.eq_deadline hp (hid ▸ ht)) hid
      simp [he]
    · have hne : p ≠ (timer.deadline, id) := fun he => hid (congrArg Prod.snd he)
      simp [hid, hne]
  · next hnone =>
    refine (List.filter_eq_self.2 fun p hp => decide_eq_true ?_).symm
    rintro rfl
    have hlive := (h.mem_iff p.1 p.2).1 hp
    rw [hnone] at hlive
    cases hlive

/-- A timer is killed. -/
theorem kill {l : EventLoop} (h : Queues l.queue l.live) (id : TimerId) :
    Queues (l.kill id).queue (l.kill id).live := by
  rw [h.queue_kill id, l.live_kill id]
  exact h.erase List.filter_sublist fun p => by simp [List.mem_filter]

/-- A loop is polled. -/
theorem poll {l l' : EventLoop} (h : Queues l.queue l.live) {now : Time} {n : Notification}
    (hpoll : l.poll now = some (n, l')) : Queues l'.queue l'.live := by
  cases EventLoop.polls_of_poll hpoll with
  | posted hposted => exact h
  | once hposted hqueue hdue hevery =>
    rw [hqueue] at h
    exact h.tail
  | again hposted hqueue hdue hevery =>
    rw [hqueue] at h
    exact h.tail.rearm _

end Queues

/-! ### Loops -/

namespace LoopSeat

/-- The queue of a loop at a seat holds the deadlines of its live timers, intervals are not empty,
and the numbers of live timers have been given. -/
structure Coherent (s : LoopSeat) : Prop where
  queues : Queues s.loop.queue s.loop.live
  interval_pos : ∀ id timer interval, s.loop.live.get? id = some timer →
    timer.every = some interval → 0 < interval
  lt_nextTimer : ∀ id timer, s.loop.live.get? id = some timer → id.val < s.nextTimer

/-- What is queued afterwards was queued before, or is the deadline of a timer that has been started
since and falls due after the clock. -/
structure Follows (s s' : LoopSeat) : Prop where
  coherent : s'.Coherent
  queue : ∀ p ∈ s'.loop.queue,
    p ∈ s.loop.queue ∨ s.nextTimer ≤ p.2.val ∧ p.2.val < s'.nextTimer ∧ s.clock < p.1
  clock_le : s.clock ≤ s'.clock
  nextTimer_le : s.nextTimer ≤ s'.nextTimer

variable {s s' : LoopSeat}

theorem Coherent.lt_of_mem (h : s.Coherent) {p : Time × TimerId} (hp : p ∈ s.loop.queue) :
    p.2.val < s.nextTimer := by
  have hlive := (h.queues.mem_iff p.1 p.2).1 hp
  obtain ⟨timer, ht, -⟩ := Option.map_eq_some_iff.1 hlive
  exact h.lt_nextTimer p.2 timer ht

/-- What changes nothing in the queue and among the live timers. -/
theorem Coherent.follows_of_eq (h : s.Coherent) (hlive : s'.loop.live = s.loop.live)
    (hqueue : s'.loop.queue = s.loop.queue) (hclock : s.clock ≤ s'.clock)
    (hnext : s.nextTimer ≤ s'.nextTimer) : s.Follows s' where
  coherent := by
    refine ⟨?_, ?_, fun id timer ht => Nat.lt_of_lt_of_le (h.lt_nextTimer id timer ?_) hnext⟩
    · rw [hlive, hqueue]; exact h.queues
    · rw [hlive]; exact h.interval_pos
    · rwa [← hlive]
  queue p hp := .inl (hqueue ▸ hp)
  clock_le := hclock
  nextTimer_le := hnext

theorem Coherent.follows_refl (h : s.Coherent) : s.Follows s :=
  h.follows_of_eq rfl rfl (Nat.le_refl _) (Nat.le_refl _)

theorem Follows.trans {s₁ : LoopSeat} (h : s.Follows s₁) (h' : s₁.Follows s') : s.Follows s' where
  coherent := h'.coherent
  queue p hp := by
    have hclock := h.clock_le
    have hnext := h.nextTimer_le
    rcases h'.queue p hp with hp | ⟨hle, hlt, hdue⟩
    · rcases h.queue p hp with hp | ⟨hle, -, hdue⟩
      · exact .inl hp
      · exact .inr ⟨hle, Nat.lt_of_lt_of_le (h.coherent.lt_of_mem ‹_›) h'.nextTimer_le, hdue⟩
    · exact .inr ⟨Nat.le_trans hnext hle, hlt, Nat.lt_of_le_of_lt hclock hdue⟩
  clock_le := Nat.le_trans h.clock_le h'.clock_le
  nextTimer_le := Nat.le_trans h.nextTimer_le h'.nextTimer_le

/-- A timer is started under the next number. -/
theorem Coherent.arm (h : s.Coherent) {delay : Span} (hdelay : 0 < delay) (repeating : Bool) :
    s.Follows ⟨s.loop.arm ⟨s.nextTimer⟩ ⟨s.clock + delay, if repeating then some delay else none⟩,
      s.clock, s.nextTimer + 1⟩ := by
  have hnew : s.loop.live.get? ⟨s.nextTimer⟩ = none := by
    rw [Option.eq_none_iff_forall_ne_some]
    intro timer ht
    exact Nat.lt_irrefl _ (h.lt_nextTimer _ timer ht)
  refine ⟨⟨h.queues.insert hnew _, fun id timer interval ht hi => ?_, fun id timer ht => ?_⟩,
    fun p hp => ?_, Nat.le_refl _, Nat.le_succ _⟩
  · simp only [EventLoop.arm, Table.get?_insert] at ht
    split at ht
    · obtain rfl := Option.some.inj ht
      cases repeating <;> simp_all
    · exact h.interval_pos id timer interval ht hi
  · simp only [EventLoop.arm, Table.get?_insert] at ht
    split at ht
    · next he => rw [he]; exact Nat.lt_succ_self _
    · exact Nat.lt_succ_of_lt (h.lt_nextTimer id timer ht)
  · rcases mem_enqueue.1 hp with rfl | hp
    · exact .inr ⟨Nat.le_refl _, Nat.lt_succ_self _, Nat.lt_add_of_pos_right hdelay⟩
    · exact .inl hp

/-- A timer has been taken out of the loop and of its queue. -/
theorem Coherent.of_erase (h : s.Coherent) {id : TimerId} {l : EventLoop}
    (hq : Queues l.queue l.live) (hlive : l.live = s.loop.live.erase id) :
    Coherent { s with loop := l } := by
  have hold (id' : TimerId) (timer : Timer) (ht : l.live.get? id' = some timer) :
      s.loop.live.get? id' = some timer := by
    rw [hlive, Table.get?_erase] at ht
    split at ht
    · cases ht
    · exact ht
  refine ⟨hq, fun id' timer interval ht => ?_, fun id' timer ht => ?_⟩
  · exact h.interval_pos id' timer interval (hold id' timer ht)
  · exact h.lt_nextTimer id' timer (hold id' timer ht)

/-- A timer is taken out. -/
theorem Coherent.kill (h : s.Coherent) (id : TimerId) :
    s.Follows { s with loop := s.loop.kill id } :=
  ⟨h.of_erase (h.queues.kill id) (s.loop.live_kill id),
    fun _ hp => .inl ((s.loop.queue_kill_sublist id).subset hp), Nat.le_refl _, Nat.le_refl _⟩

/-- A repeating timer is put back under its name. -/
theorem Coherent.of_rearm (h : s.Coherent) {id : TimerId} {l : EventLoop}
    (hq : Queues l.queue l.live) {interval : Span} (hpos : 0 < interval) {timer : Timer}
    (ht : s.loop.live.get? id = some timer) {deadline : Time}
    (hlive : l.live = s.loop.live.insert id ⟨deadline, some interval⟩) :
    Coherent { s with loop := l } := by
  refine ⟨hq, fun id' timer' interval' ht' hi => ?_, fun id' timer' ht' => ?_⟩
  · simp only [hlive, Table.get?_insert] at ht'
    split at ht'
    · obtain rfl := Option.some.inj ht'
      exact Option.some.inj hi ▸ hpos
    · exact h.interval_pos id' timer' interval' ht' hi
  · simp only [hlive, Table.get?_insert] at ht'
    split at ht'
    · next he => exact he ▸ h.lt_nextTimer id timer ht
    · exact h.lt_nextTimer id' timer' ht'

/-- The next deadline of a repeating timer comes after the pass. -/
theorem lt_nextDeadlineOf (met now : Time) {interval : Span} (h : 0 < interval) :
    now < EventLoop.nextDeadlineOf met now interval := by
  rw [EventLoop.nextDeadlineOf]
  split
  · exact Nat.lt_add_of_pos_right h
  · next hlater => exact Nat.lt_of_not_le hlater

/-- The timer that a loop hands out was the first of its queue and due, and whatever is queued
afterwards comes behind it: it was queued before, or it is the same timer, due after the pass. -/
theorem Coherent.poll_timer (h : s.Coherent) {now : Time} {id : TimerId} {l : EventLoop}
    (hpoll : s.loop.poll now = some (.timer id, l)) :
    ∃ met, (s.loop.live.get? id).map Timer.deadline = some met ∧ (met, id) ∈ s.loop.queue ∧
      met ≤ now ∧ Coherent { s with loop := l } ∧
      ∀ p ∈ l.queue, p ∈ s.loop.queue ∧ Earlier (met, id) p ∨ p.2 = id ∧ now < p.1 := by
  have hq := h.queues
  have hfirst {met : Time} {queue : List (Time × TimerId)}
      (hqueue : s.loop.queue = (met, id) :: queue) :
      (met, id) ∈ s.loop.queue ∧ ∀ p ∈ queue, p ∈ s.loop.queue ∧ Earlier (met, id) p := by
    rw [hqueue] at hq ⊢
    exact ⟨List.mem_cons_self .., fun p hp =>
      ⟨List.mem_cons_of_mem _ hp, (List.pairwise_cons.1 hq.sorted).1 p hp⟩⟩
  cases EventLoop.polls_of_poll hpoll with
  | @once met _ queue hposted hqueue hdue hevery =>
    obtain ⟨hmem, hbehind⟩ := hfirst hqueue
    refine ⟨met, (hq.mem_iff met id).1 hmem, hmem, hdue, ?_, fun p hp => .inl (hbehind p hp)⟩
    exact h.of_erase (hq.poll hpoll) rfl
  | @again met _ queue interval hposted hqueue hdue hevery =>
    obtain ⟨hmem, hbehind⟩ := hfirst hqueue
    obtain ⟨timer, ht, he⟩ := Option.bind_eq_some_iff.1 hevery
    have hpos := h.interval_pos _ timer interval ht he
    refine ⟨met, (hq.mem_iff met id).1 hmem, hmem, hdue, ?_, fun p hp => ?_⟩
    · exact h.of_rearm (hq.poll hpoll) hpos ht rfl
    · rcases mem_enqueue.1 hp with rfl | hp
      · exact .inr ⟨rfl, lt_nextDeadlineOf met now hpos⟩
      · exact .inl (hbehind p hp)

/-- A posted event that is handed out leaves the timers alone. -/
theorem Coherent.poll_posted (h : s.Coherent) {now : Time} {tick : TickId} {l : EventLoop}
    (hpoll : s.loop.poll now = some (.posted tick, l)) : s.Follows { s with loop := l } := by
  cases EventLoop.polls_of_poll hpoll with
  | posted hposted => exact h.follows_of_eq rfl rfl (Nat.le_refl _) (Nat.le_refl _)

end LoopSeat

/-! ### Desks -/

namespace Desk

variable {V : Type} {d d' : Desk V}

theorem coherent_fresh (capacity : Nat) (clock : Time) (nextTimer : Nat) :
    (fresh capacity clock nextTimer : Desk V).2.Coherent where
  queues := ⟨.nil, by simp [fresh, EventLoop.ofCapacity]⟩
  interval_pos := by simp [fresh, EventLoop.ofCapacity]
  lt_nextTimer := by simp [fresh, EventLoop.ofCapacity]

theorem follows_clearTimer (h : d.2.Coherent) (kind : TimerKind) (id : TimerId) :
    d.2.Follows (d.1.clearTimer d.2 kind id).2 := by
  rw [Scheduler.clearTimer]
  split
  · exact h.kill id
  · exact h.follows_refl

theorem follows_take (h : d.2.Coherent) (n : Notification) :
    d.2.Follows (d.1.take d.2 n).2.2 := by
  cases n with
  | timer id =>
    rw [Scheduler.take_timer]
    exact follows_clearTimer h .timeout id
  | posted tick => exact h.follows_refl

/-- Shifts start timers that fall due after the clock, and queue nothing else. -/
theorem Shift.follows (h : d.2.Coherent) (hs : Shift d d') : d.2.Follows d'.2 := by
  cases hs with
  | setTimer kind callback delay =>
    rcases d.1.setTimer_cases d.2 kind callback delay with hrefused | hstarted
    · rw [hrefused]
      exact h.follows_refl
    · rw [hstarted]
      exact h.arm (delayOf_pos delay) _
  | clearTimer kind id => exact follows_clearTimer h kind id
  | nextTick callback => exact h.follows_of_eq rfl rfl (Nat.le_refl _) (Nat.le_refl _)
  | take n => exact follows_take h n
  | stop => exact h.follows_of_eq rfl rfl (Nat.le_refl _) (Nat.le_refl _)
  | forget => exact h.follows_of_eq rfl rfl (Nat.le_refl _) (Nat.le_refl _)
  | elapse hclock hnext => exact h.follows_of_eq rfl rfl hclock hnext

theorem follows_of_shifts (h : d.2.Coherent) (hs : ReflTransGen Shift d d') :
    d.2.Follows d'.2 := by
  induction hs with
  | refl => exact h.follows_refl
  | tail _ hs ih => exact ih.trans (hs.follows ih.coherent)

/-- A turn without a timer. -/
theorem Turn.follows {o : Option (Time × Notification)} (h : d.2.Coherent) (ht : Turn o d d')
    (ho : ∀ now id, o ≠ some (now, .timer id)) : d.2.Follows d'.2 := by
  match o, ht with
  | none, hs => exact follows_of_shifts h hs
  | some (now, .timer id), _ => exact absurd rfl (ho now id)
  | some (now, .posted tick), ⟨d₁, ⟨_, l, hpoll, hd₁⟩, hs⟩ =>
    subst hd₁
    have hpolled := h.poll_posted hpoll
    have htaken : d.2.Follows (d.1.take { d.2 with loop := l } (.posted tick)).2.2 := hpolled
    exact htaken.trans (follows_of_shifts htaken.coherent hs)

/-- The timer that is handed out in a turn was the first of the queue and due. Whatever is queued
afterwards comes behind it: it was queued before, or it is the same timer, due after the pass, or it
has been started in the turn and falls due after the clock. -/
theorem Turn.timer_spec {now : Time} {id : TimerId} (h : d.2.Coherent)
    (ht : Turn (some (now, .timer id)) d d') :
    ∃ met, (d.2.loop.live.get? id).map Timer.deadline = some met ∧ (met, id) ∈ d.2.loop.queue ∧
      met ≤ now ∧ d'.2.Coherent ∧
      ∀ p ∈ d'.2.loop.queue, p ∈ d.2.loop.queue ∧ Earlier (met, id) p ∨ p.2 = id ∧ now < p.1 ∨
        d.2.nextTimer ≤ p.2.val ∧ p.2.val < d'.2.nextTimer ∧ d.2.clock < p.1 := by
  obtain ⟨d₁, ⟨-, l, hpoll, hd₁⟩, hs⟩ := ht
  subst hd₁
  obtain ⟨met, hmet, hmem, hdue, hcoherent, hbehind⟩ := h.poll_timer hpoll
  have htaken := follows_take (d := (d.1, { d.2 with loop := l })) hcoherent (.timer id)
  have hfollows := htaken.trans (follows_of_shifts htaken.coherent hs)
  refine ⟨met, hmet, hmem, hdue, hfollows.coherent, fun p hp => ?_⟩
  rcases hfollows.queue p hp with hp | hnew
  · rcases hbehind p hp with hold | hagain
    · exact .inl hold
    · exact .inr (.inl hagain)
  · exact .inr (.inr hnew)

theorem Turn.coherent {o : Option (Time × Notification)} (h : d.2.Coherent) (ht : Turn o d d') :
    d'.2.Coherent := by
  by_cases ho : ∃ now id, o = some (now, .timer id)
  · obtain ⟨now, id, rfl⟩ := ho
    obtain ⟨-, -, -, -, hcoherent, -⟩ := ht.timer_spec h
    exact hcoherent
  · exact (ht.follows h fun now id he => ho ⟨now, id, he⟩).coherent

end Desk

end ScriptHost
