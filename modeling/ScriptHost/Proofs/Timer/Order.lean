import ScriptHost.Proofs.Host.WorldDesks
import ScriptHost.Proofs.Timer.Queue

/-!
# The order of timers

Over the whole life of a runtime its timers are delivered in the order of their deadlines, and among
equal deadlines the older timer first, as long as the clock does not go back and no pass runs ahead
of it. What is queued comes behind all that has been delivered: a timer that is started falls due
after the clock, and one that repeats falls due after the pass.

## Main definitions

* `Happening`, `World.happenings`: what happens to the timers of a runtime, read off the moves.
* `startedSince`: the timers that have been started since a job has begun its pass.
* `World.Timely`: moves that neither turn back the clock nor run ahead of it.
* `World.InOrder`: what holds of a world and of what has happened so far.

## Main results

* `World.inOrder_perform`: timely moves keep the order.
* `World.timers_inOrder`: the order of deliveries over the whole life of a runtime.
-/

namespace ScriptHost

variable {E : Engine}

/-! ### What happens to timers -/

/-- A delivery of a timer. -/
structure Delivery where
  /-- The number of the job that delivers it. -/
  job : Nat
  /-- The deadline that it meets. -/
  deadline : Time
  /-- The timer. -/
  timer : TimerId
  /-- The time by the clock. -/
  clock : Time
deriving DecidableEq

/-- The deadline that a delivery meets, with the timer. -/
def Delivery.met (a : Delivery) : Time × TimerId := (a.deadline, a.timer)

/-- What happens to the timers of a runtime. -/
inductive Happening where
  /-- A job begins a pass. -/
  | began (job : Nat)
  /-- A timer is delivered. -/
  | delivered (a : Delivery)
  /-- A timer is started. -/
  | started (timer : TimerId)
deriving DecidableEq

/-- The deliveries, oldest first. -/
def deliveries (hs : List Happening) : List Delivery :=
  hs.filterMap fun
    | .delivered a => some a
    | _ => none

/-- The timers that have been started, oldest first. -/
def starts (hs : List Happening) : List TimerId :=
  hs.filterMap fun
    | .started timer => some timer
    | _ => none

/-- The timers that a job has seen started in its pass, with what happens next. -/
def Happening.track (job : Nat) (timers : List TimerId) : Happening → List TimerId
  | .began job' => if job' = job then [] else timers
  | .delivered _ => timers
  | .started timer => timers ++ [timer]

/-- The timers that have been started since a job has begun its pass. -/
def startedSince (job : Nat) (hs : List Happening) : List TimerId :=
  hs.foldl (Happening.track job) []

/-- A job that is begun is in a pass only if it runs what is ready. -/
theorem Errand.eq_of_pass? {h : Host E} {errand : Errand E} {id : RuntimeId} {now : Time}
    (hp : (errand.begin h).2.pass? = some (id, now)) : ∃ seat, errand = .runReady seat id now := by
  cases errand with
  | evaluate seat s => cases hp
  | require seat owner q main =>
    have ht := Job.act_task (x := Loading.require owner q) (h := h)
      (j := Job.start seat (.require main) .take) fun h reply => Job.answer_task h _ reply
    have hp : (Job.require h seat owner q main).2.pass? = some (id, now) := hp
    rw [Job.require, Job.pass?_eq_of_task ht] at hp
    cases hp
  | notify seat owner n =>
    rw [begin, Job.pass?_eq_of_task (Job.notify_goesOn ..).task] at hp
    cases hp
  | runReady seat owner now' =>
    obtain ⟨rfl, rfl⟩ := Prod.mk.inj (Option.some.inj hp)
    exact ⟨seat, rfl⟩
  | runLoop seat owner limit => cases hp

namespace World

/-- The job that begins a pass of a runtime in a move. -/
def beginning (w : World E) (id : RuntimeId) : Move E → Option Nat
  | .start (.runReady _ owner _) => if owner = id then some w.jobs.length else none
  | .step i => if w.jobs[i]?.bind Job.begins? = some id then some i else none
  | _ => none

/-- The delivery that a move makes for a runtime. -/
def delivery (w : World E) (id : RuntimeId) (m : Move E) : Option Delivery :=
  match m, w.handed m id, w.host.desk? id with
  | .step i, some (_, .timer timer), some d =>
    (d.2.loop.live.get? timer).map fun t => ⟨i, t.deadline, timer, w.host.platform.clock⟩
  | _, _, _ => none

/-- The timers that a move starts: those to which it gives numbers. -/
def started (w : World E) (m : Move E) : List TimerId :=
  (List.range' w.host.nextTimer ((w.perform m).host.nextTimer - w.host.nextTimer)).map TimerId.mk

/-- What a move does to the timers of a runtime. -/
def happenings (id : RuntimeId) (w : World E) (m : Move E) : List Happening :=
  (w.beginning id m).toList.map .began ++ (w.delivery id m).toList.map .delivered ++
    (w.started m).map .started

/-- The clock is not turned back, and no pass of the runtime runs ahead of it. -/
def Timely (id : RuntimeId) (w : World E) : Move E → Prop
  | .outside _ platform => w.host.platform.clock ≤ platform.clock
  | .start (.runReady _ owner now) => owner = id → now ≤ w.host.platform.clock
  | _ => True

variable {id : RuntimeId} {w : World E} {m : Move E} {hs : List Happening}

/-! ### Reading what has happened -/

theorem mem_started {timer : TimerId} :
    timer ∈ w.started m ↔
      w.host.nextTimer ≤ timer.val ∧ timer.val < (w.perform m).host.nextTimer := by
  simp only [started, List.mem_map, List.mem_range'_1]
  constructor
  · rintro ⟨n, ⟨hle, hlt⟩, rfl⟩
    refine ⟨hle, ?_⟩
    change n < _
    omega
  · rintro ⟨hle, hlt⟩
    exact ⟨timer.val, ⟨hle, by omega⟩, rfl⟩

theorem deliveries_happenings (hs : List Happening) :
    deliveries (hs ++ happenings id w m) = deliveries hs ++ (w.delivery id m).toList := by
  have hbegan (l : List Nat) : deliveries (l.map .began) = [] := by
    induction l <;> simp_all [deliveries]
  have hdelivered (l : List Delivery) : deliveries (l.map .delivered) = l := by
    induction l <;> simp_all [deliveries]
  have hstarted (l : List TimerId) : deliveries (l.map .started) = [] := by
    induction l <;> simp_all [deliveries]
  simp only [deliveries, happenings, List.filterMap_append] at *
  rw [hbegan, hdelivered, hstarted, List.nil_append, List.append_nil]

theorem starts_happenings (hs : List Happening) :
    starts (hs ++ happenings id w m) = starts hs ++ w.started m := by
  have hbegan (l : List Nat) : starts (l.map .began) = [] := by
    induction l <;> simp_all [starts]
  have hdelivered (l : List Delivery) : starts (l.map .delivered) = [] := by
    induction l <;> simp_all [starts]
  have hstarted (l : List TimerId) : starts (l.map .started) = l := by
    induction l <;> simp_all [starts]
  simp only [starts, happenings, List.filterMap_append] at *
  rw [hbegan, hdelivered, hstarted, List.append_nil, List.nil_append]

theorem foldl_track_started (job : Nat) (l ts : List TimerId) :
    (l.map Happening.started).foldl (Happening.track job) ts = ts ++ l := by
  induction l generalizing ts with
  | nil => exact (List.append_nil ts).symm
  | cons t l ih =>
    rw [List.map_cons, List.foldl_cons, ih]
    exact List.append_cons ts t l |>.symm

theorem startedSince_happenings (job : Nat) (hs : List Happening) :
    startedSince job (hs ++ happenings id w m) =
      (if w.beginning id m = some job then [] else startedSince job hs) ++ w.started m := by
  simp only [startedSince, happenings, List.foldl_append, foldl_track_started]
  congr 1
  have hdelivered (ts : List TimerId) : ((w.delivery id m).toList.map Happening.delivered).foldl
      (Happening.track job) ts = ts := by
    cases w.delivery id m <;> rfl
  rw [hdelivered]
  cases w.beginning id m with
  | none => rfl
  | some job' =>
    change Happening.track job _ (.began job') = _
    simp only [Happening.track, Option.some.injEq]

/-! ### What a move does -/

theorem desk?_seat {h : Host E} {d : Desk E.Value} (hd : h.desk? id = some d) :
    d.2.clock = h.platform.clock ∧ d.2.nextTimer = h.nextTimer := by
  obtain ⟨r, -, rfl⟩ := Option.map_eq_some_iff.1 hd
  exact ⟨rfl, rfl⟩

theorem Timely.clock_le (hm : Timely id w m) :
    w.host.platform.clock ≤ (w.perform m).host.platform.clock := by
  by_cases ho : ∃ engines platform, m = .outside engines platform
  · obtain ⟨engines, platform, rfl⟩ := ho
    exact hm
  · exact (w.perform_inside_grows fun engines platform h => ho ⟨engines, platform, h⟩).clock_le

/-- A job that is there begins a pass only in a step of its own. -/
theorem beginning_ne {i : Nat} {j : Job E} (hj : w.jobs[i]? = some j) (hm : m ≠ .step i) :
    w.beginning id m ≠ some i := by
  have hlt := (List.getElem?_eq_some_iff.1 hj).1
  cases m with
  | start errand =>
    cases errand <;> simp [beginning]
    omega
  | step k =>
    have hik : k ≠ i := fun hik => hm (by rw [hik])
    simp only [beginning]
    split
    · simpa using hik
    · simp
  | _ => rintro ⟨⟩

/-- A job that is in a pass after a move was in it before, or begins it with the move. -/
theorem pass?_perform (hm : Timely id w m) {i : Nat} {j' : Job E} {now : Time}
    (hj' : (w.perform m).jobs[i]? = some j') (hp : j'.pass? = some (id, now)) :
    (∃ j, w.jobs[i]? = some j ∧ j.pass? = some (id, now) ∧ w.beginning id m ≠ some i) ∨
      w.beginning id m = some i ∧ now ≤ w.host.platform.clock := by
  obtain ⟨j, hj, ⟨rfl, rfl⟩ | ⟨hne, rfl⟩⟩ | ⟨errand, rfl, rfl, rfl⟩ := job_perform hj'
  · rcases j.step_pass? w.host with hsame | hnone | ⟨owner, hbegins, hbegun⟩
    · rw [hsame] at hp
      refine .inl ⟨j, hj, hp, ?_⟩
      have hbegins : j.begins? = none := Job.begins?_of_pass? hp
      simp [beginning, hj, hbegins]
    · rw [hnone] at hp
      cases hp
    · rw [hbegun] at hp
      obtain ⟨rfl, rfl⟩ := Prod.mk.inj (Option.some.inj hp)
      exact .inr ⟨by simp [beginning, hj, hbegins], Nat.le_refl _⟩
  · exact .inl ⟨j', hj, hp, beginning_ne hj hne⟩
  · obtain ⟨seat, rfl⟩ := Errand.eq_of_pass? hp
    exact .inr ⟨by simp [beginning], hm rfl⟩

/-- A delivery is made in a pass of its job, at a desk that is there. -/
theorem delivery_spec {a : Delivery} (ha : w.delivery id m = some a) :
    ∃ j now d d', w.jobs[a.job]? = some j ∧ j.pass? = some (id, now) ∧
      w.host.desk? id = some d ∧ (d.2.loop.live.get? a.timer).map Timer.deadline = some a.deadline ∧
      (w.perform m).host.desk? id = some d' ∧
      Desk.Turn (some (now, .timer a.timer)) d d' ∧ a.clock = w.host.platform.clock := by
  unfold delivery at ha
  split at ha
  · next i now timer d hd hn =>
    obtain ⟨t, ht, rfl⟩ := Option.map_eq_some_iff.1 ha
    cases hi : w.jobs[i]? with
    | none => simp [handed, hi] at hn
    | some j =>
      have hn' : j.handed? w.host id = some (now, .timer timer) := by simpa [handed, hi] using hn
      have hturns := j.step_turns w.host
      obtain ⟨d', hd', hturn⟩ := hturns.of_some_left hd
      refine ⟨j, now, d, d', rfl, (Job.pass?_of_handed? hn').1, hd, by rw [ht]; rfl, ?_, ?_, rfl⟩
      · simpa only [perform, hi] using hd'
      · rwa [hn'] at hturn
  · cases ha

/-- A live timer that is handed out is delivered. -/
theorem delivery_of_handed {now : Time} {timer : TimerId}
    (hn : w.handed m id = some (now, .timer timer)) {d : Desk E.Value}
    (hd : w.host.desk? id = some d) {met : Time}
    (ht : (d.2.loop.live.get? timer).map Timer.deadline = some met) :
    ∃ a, w.delivery id m = some a ∧ a.met = (met, timer) := by
  cases m with
  | step i =>
    obtain ⟨t, hlive, rfl⟩ := Option.map_eq_some_iff.1 ht
    refine ⟨⟨i, t.deadline, timer, w.host.platform.clock⟩, ?_, rfl⟩
    unfold delivery
    rw [hn, hd]
    change Option.map _ (d.2.loop.live.get? timer) = _
    rw [hlive]
    rfl
  | _ => cases hn

/-- The queue of every loop is coherent in every world, whatever the clock does. -/
theorem Reached.coherent {w : World E} (hw : w.Reached) {id : RuntimeId} {d : Desk E.Value}
    (hd : w.host.desk? id = some d) : d.2.Coherent := by
  obtain ⟨engines, platform, profiles, ms, rfl⟩ := hw
  exact desk_invariant (P := fun d => d.2.Coherent) Desk.coherent_fresh
    (fun _ _ h hs => (hs.follows h).coherent)
    (fun now n _ d' h hd => Desk.Turn.coherent (o := some (now, n)) h ⟨d', hd, .refl⟩)
    (fun _ _ h => ⟨h.queues, h.interval_pos, h.lt_nextTimer⟩) engines platform profiles ms hd

/-! ### The order -/

/-- What holds of a world and of what has happened to the timers of one runtime so far. What is
queued comes behind all that has been delivered, and a timer that has been started since a job has
begun its pass falls due after that pass. -/
structure InOrder (id : RuntimeId) (hs : List Happening) (w : World E) : Prop where
  deliveries_sorted : (deliveries hs).Pairwise fun a b => Earlier a.met b.met
  starts_sorted : (starts hs).Pairwise fun timer timer' => timer.val < timer'.val
  starts_lt : ∀ timer ∈ starts hs, timer.val < w.host.nextTimer
  deadline_le : ∀ a ∈ deliveries hs, a.deadline ≤ a.clock
  clock_le : ∀ a ∈ deliveries hs, a.clock ≤ w.host.platform.clock
  pass_le : ∀ (i : Nat) (j : Job E) (now : Time), w.jobs[i]? = some j → j.pass? = some (id, now) →
    now ≤ w.host.platform.clock
  coherent : ∀ d, w.host.desk? id = some d → d.2.Coherent
  queued_behind : ∀ d, w.host.desk? id = some d → ∀ q ∈ d.2.loop.queue,
    ∀ a ∈ deliveries hs, Earlier a.met q
  queued_later : ∀ d, w.host.desk? id = some d → ∀ q ∈ d.2.loop.queue,
    ∀ (i : Nat) (j : Job E) (now : Time), w.jobs[i]? = some j → j.pass? = some (id, now) →
      q.2 ∈ startedSince i hs → now < q.1

namespace InOrder

theorem initial (id : RuntimeId) (engines : E.State) (platform : Platform)
    (profiles : Seat → Profile) : InOrder id [] (initial engines platform profiles) where
  deliveries_sorted := .nil
  starts_sorted := .nil
  starts_lt := by rintro _ ⟨⟩
  deadline_le := by rintro _ ⟨⟩
  clock_le := by rintro _ ⟨⟩
  pass_le := by rintro _ _ _ ⟨⟩
  coherent := by rintro _ ⟨⟩
  queued_behind := by rintro _ ⟨⟩
  queued_later := by rintro _ ⟨⟩

/-- A delivery is that of a queued timer, in a pass that does not come before its deadline. -/
theorem delivery_queued (H : InOrder id hs w) {a : Delivery} (ha : w.delivery id m = some a) :
    ∃ j now d, w.jobs[a.job]? = some j ∧ j.pass? = some (id, now) ∧ w.host.desk? id = some d ∧
      a.met ∈ d.2.loop.queue ∧ a.deadline ≤ now ∧ a.clock = w.host.platform.clock := by
  obtain ⟨j, now, d, d', hj, hp, hd, hlive, -, hturn, hclock⟩ := delivery_spec ha
  obtain ⟨met, hmet, hmem, hdue, -⟩ := hturn.timer_spec (H.coherent d hd)
  obtain rfl := Option.some.inj (hlive.symm.trans hmet)
  exact ⟨j, now, d, hj, hp, hd, hmem, hdue, hclock⟩

/-- What is queued after a move has been started in it and falls due after the clock, or was queued
before, behind what the move delivers, or is what the move delivers with a later deadline. -/
theorem queue_perform (H : InOrder id hs w) (hm : Timely id w m) {d' : Desk E.Value}
    (hd' : (w.perform m).host.desk? id = some d') :
    d'.2.Coherent ∧ ∀ q ∈ d'.2.loop.queue,
      (q.2 ∈ w.started m ∧ w.host.platform.clock < q.1) ∨
      (∃ d, w.host.desk? id = some d ∧ q ∈ d.2.loop.queue ∧
        ∀ a, w.delivery id m = some a → Earlier a.met q) ∨
      ∃ a, w.delivery id m = some a ∧ q.2 = a.timer ∧ a.deadline < q.1 := by
  have hseat' := desk?_seat hd'
  cases ha : w.delivery id m with
  | some a =>
    obtain ⟨j, now, d, d₁, -, -, hd, hlive, hd₁, hturn, -⟩ := delivery_spec ha
    obtain rfl := Option.some.inj (hd'.symm.trans hd₁)
    have hseat := desk?_seat hd
    obtain ⟨met, hmet, -, hdue, hcoherent, hqueue⟩ := hturn.timer_spec (H.coherent d hd)
    obtain rfl := Option.some.inj (hlive.symm.trans hmet)
    refine ⟨hcoherent, fun q hq => ?_⟩
    rcases hqueue q hq with ⟨hold, hbehind⟩ | ⟨hagain, hlater⟩ | ⟨hle, hlt, hdue'⟩
    · exact .inr (.inl ⟨d, hd, hold, fun b hb => Option.some.inj hb ▸ hbehind⟩)
    · exact .inr (.inr ⟨a, rfl, hagain, Nat.lt_of_le_of_lt hdue hlater⟩)
    · exact .inl ⟨mem_started.2 ⟨hseat.2 ▸ hle, hseat'.2 ▸ hlt⟩, hseat.1 ▸ hdue'⟩
  | none =>
    -- Without a delivery the desk has only shifted, or taken a posted event, or is new.
    have hfollows : ∃ s : LoopSeat, s.clock = w.host.platform.clock ∧
        s.nextTimer = w.host.nextTimer ∧ s.Follows d'.2 ∧
        ∀ q ∈ s.loop.queue, ∃ d, w.host.desk? id = some d ∧ q ∈ d.2.loop.queue := by
      rcases (w.perform_grows m hm.clock_le).desks id d' hd' with
        ⟨d, hd, hturn⟩ | ⟨-, -, capacity, hs'⟩
      · have hcoherent := H.coherent d hd
        refine ⟨d.2, (desk?_seat hd).1, (desk?_seat hd).2, ?_, fun q hq => ⟨d, hd, hq⟩⟩
        refine hturn.follows hcoherent fun now timer hn => ?_
        rw [hn] at hturn
        obtain ⟨met, hmet, -⟩ := hturn.timer_spec hcoherent
        obtain ⟨a, ha', -⟩ := delivery_of_handed hn hd hmet
        rw [ha] at ha'
        cases ha'
      · exact ⟨_, rfl, rfl, Desk.follows_of_shifts (Desk.coherent_fresh ..) hs', by rintro q ⟨⟩⟩
    obtain ⟨s, hclock, hnext, hfollows, hold⟩ := hfollows
    refine ⟨hfollows.coherent, fun q hq => ?_⟩
    rcases hfollows.queue q hq with hq | ⟨hle, hlt, hdue⟩
    · obtain ⟨d, hd, hq⟩ := hold q hq
      exact .inr (.inl ⟨d, hd, hq, by rintro a ⟨⟩⟩)
    · exact .inl ⟨mem_started.2 ⟨hnext ▸ hle, hseat'.2 ▸ hlt⟩, hclock ▸ hdue⟩

/-- What a move delivers is due by the clock. -/
theorem deadline_le_clock (H : InOrder id hs w) {a : Delivery} (ha : w.delivery id m = some a) :
    a.deadline ≤ w.host.platform.clock := by
  obtain ⟨j, now, -, hj, hp, -, -, hdue, -⟩ := H.delivery_queued ha
  exact Nat.le_trans hdue (H.pass_le _ j now hj hp)

/-- A timer that has been queued has not been started in the move. -/
theorem not_mem_started (H : InOrder id hs w) {d : Desk E.Value} (hd : w.host.desk? id = some d)
    {q : Time × TimerId} (hq : q ∈ d.2.loop.queue) : q.2 ∉ w.started m := by
  intro hmem
  have hlt := (H.coherent d hd).lt_of_mem hq
  rw [(desk?_seat hd).2] at hlt
  exact Nat.lt_irrefl _ (Nat.lt_of_lt_of_le hlt (mem_started.1 hmem).1)

theorem pass_le_perform (H : InOrder id hs w) (hm : Timely id w m) {i : Nat} {j' : Job E}
    {now : Time} (hj' : (w.perform m).jobs[i]? = some j') (hp : j'.pass? = some (id, now)) :
    now ≤ w.host.platform.clock := by
  rcases pass?_perform hm hj' hp with ⟨j, hj, hp, -⟩ | ⟨-, hle⟩
  · exact H.pass_le i j now hj hp
  · exact hle

theorem queued_behind_perform (H : InOrder id hs w) (hm : Timely id w m) {d' : Desk E.Value}
    (hd' : (w.perform m).host.desk? id = some d') {q : Time × TimerId} (hq : q ∈ d'.2.loop.queue)
    {a : Delivery} (ha : a ∈ deliveries hs ∨ w.delivery id m = some a) : Earlier a.met q := by
  rcases (H.queue_perform hm hd').2 q hq with
    ⟨-, hdue⟩ | ⟨d, hd, hq, hbehind⟩ | ⟨b, hb, -, hlater⟩
  · rcases ha with ha | ha
    · have hle := Nat.le_trans (H.deadline_le a ha) (H.clock_le a ha)
      exact .inl (Nat.lt_of_le_of_lt hle hdue)
    · exact .inl (Nat.lt_of_le_of_lt (H.deadline_le_clock ha) hdue)
  · rcases ha with ha | ha
    · exact H.queued_behind d hd q hq a ha
    · exact hbehind a ha
  · rcases ha with ha | ha
    · obtain ⟨-, -, d, -, -, hd, hmem, -⟩ := H.delivery_queued hb
      have hbehind := H.queued_behind d hd _ hmem a ha
      exact .inl (Nat.lt_of_le_of_lt hbehind.le hlater)
    · obtain rfl := Option.some.inj (ha.symm.trans hb)
      exact .inl hlater

/-- A timer that was queued and started since a job began its pass falls due after that pass, and so
it does with a later deadline. -/
theorem queued_later_of_mem (H : InOrder id hs w) (hm : Timely id w m) {d : Desk E.Value}
    (hd : w.host.desk? id = some d) {q : Time × TimerId} (hq : q ∈ d.2.loop.queue) {i : Nat}
    {j' : Job E} {now : Time} (hj' : (w.perform m).jobs[i]? = some j')
    (hp : j'.pass? = some (id, now)) (hmem : q.2 ∈ startedSince i (hs ++ happenings id w m)) :
    now < q.1 := by
  rw [startedSince_happenings] at hmem
  have hmem := (List.mem_append.1 hmem).resolve_right (H.not_mem_started hd hq)
  rcases pass?_perform hm hj' hp with ⟨j, hj, hp, hne⟩ | ⟨hbegins, -⟩
  · rw [if_neg hne] at hmem
    exact H.queued_later d hd q hq i j now hj hp hmem
  · rw [if_pos hbegins] at hmem
    cases hmem

theorem queued_later_perform (H : InOrder id hs w) (hm : Timely id w m) {d' : Desk E.Value}
    (hd' : (w.perform m).host.desk? id = some d') {q : Time × TimerId} (hq : q ∈ d'.2.loop.queue)
    {i : Nat} {j' : Job E} {now : Time} (hj' : (w.perform m).jobs[i]? = some j')
    (hp : j'.pass? = some (id, now)) (hmem : q.2 ∈ startedSince i (hs ++ happenings id w m)) :
    now < q.1 := by
  rcases (H.queue_perform hm hd').2 q hq with ⟨-, hdue⟩ | ⟨d, hd, hq, -⟩ | ⟨b, hb, hqb, hlater⟩
  · -- What has been started in the move itself falls due after the clock, and so after every pass.
    exact Nat.lt_of_le_of_lt (H.pass_le_perform hm hj' hp) hdue
  · exact H.queued_later_of_mem hm hd hq hj' hp hmem
  · obtain ⟨-, -, d, -, -, hd, hmet, -⟩ := H.delivery_queued hb
    rw [hqb] at hmem
    exact Nat.lt_trans (H.queued_later_of_mem hm hd hmet hj' hp hmem) hlater

/-- Timely moves keep the order. -/
theorem perform (H : InOrder id hs w) (hm : Timely id w m) :
    InOrder id (hs ++ happenings id w m) (w.perform m) := by
  have hgrows := w.perform_grows m hm.clock_le
  constructor
  case deliveries_sorted =>
    rw [deliveries_happenings]
    refine List.pairwise_append.2 ⟨H.deliveries_sorted, ?_, fun a ha b hb => ?_⟩
    · cases w.delivery id m <;> simp
    · obtain ⟨-, -, d, -, -, hd, hmem, -⟩ := H.delivery_queued (Option.mem_toList.1 hb)
      exact H.queued_behind d hd _ hmem a ha
  case starts_sorted =>
    rw [starts_happenings]
    refine List.pairwise_append.2 ⟨H.starts_sorted, ?_, fun timer ht timer' ht' => ?_⟩
    · exact List.pairwise_map.2 (List.pairwise_lt_range' ..)
    · exact Nat.lt_of_lt_of_le (H.starts_lt timer ht) (mem_started.1 ht').1
  case starts_lt =>
    rw [starts_happenings]
    intro timer ht
    rcases List.mem_append.1 ht with ht | ht
    · exact Nat.lt_of_lt_of_le (H.starts_lt timer ht) hgrows.nextTimer_le
    · exact (mem_started.1 ht).2
  case deadline_le =>
    rw [deliveries_happenings]
    intro a ha
    rcases List.mem_append.1 ha with ha | ha
    · exact H.deadline_le a ha
    · have ha := Option.mem_toList.1 ha
      obtain ⟨-, -, -, -, -, -, -, -, hclock⟩ := H.delivery_queued ha
      exact hclock ▸ H.deadline_le_clock ha
  case clock_le =>
    rw [deliveries_happenings]
    intro a ha
    rcases List.mem_append.1 ha with ha | ha
    · exact Nat.le_trans (H.clock_le a ha) hgrows.clock_le
    · obtain ⟨-, -, -, -, -, -, -, -, hclock⟩ := H.delivery_queued (Option.mem_toList.1 ha)
      exact hclock ▸ hgrows.clock_le
  case pass_le =>
    intro i j' now hj' hp
    exact Nat.le_trans (H.pass_le_perform hm hj' hp) hgrows.clock_le
  case coherent => exact fun d' hd' => (H.queue_perform hm hd').1
  case queued_behind =>
    rw [deliveries_happenings]
    intro d' hd' q hq a ha
    exact H.queued_behind_perform hm hd' hq ((List.mem_append.1 ha).imp_right Option.mem_toList.1)
  case queued_later =>
    exact fun d' hd' q hq i j' now hj' hp hmem => H.queued_later_perform hm hd' hq hj' hp hmem

end InOrder

theorem record_inOrder (engines : E.State) (platform : Platform) (profiles : Seat → Profile)
    (id : RuntimeId) (ms : List (Move E))
    (hms : (initial engines platform profiles).Along (Timely id) ms) :
    InOrder id (record (happenings id) (initial engines platform profiles) ms)
      ((initial engines platform profiles).run ms) :=
  record_invariant (P := InOrder id) (fun _ _ _ H hm => H.perform hm)
    (InOrder.initial id engines platform profiles) ms hms

/-- Over the whole life of a runtime, if the clock does not go back and no pass runs ahead of it:
timers are delivered in strictly increasing order of deadline and number, and are numbered in the
order in which they are started; each is delivered when its deadline has come; and no pass delivers
a timer that has been started since the pass began. -/
theorem timers_inOrder (engines : E.State) (platform : Platform) (profiles : Seat → Profile)
    (id : RuntimeId) (ms : List (Move E))
    (hms : (initial engines platform profiles).Along (Timely id) ms) :
    let w := initial engines platform profiles
    let hs := record (happenings id) w ms
    (deliveries hs).Pairwise (fun a b => Earlier a.met b.met) ∧
      (starts hs).Pairwise (fun timer timer' => timer.val < timer'.val) ∧
      (∀ a ∈ deliveries hs, a.deadline ≤ a.clock) ∧
      ∀ ms₁ m ms₂, ms = ms₁ ++ m :: ms₂ → ∀ a, (w.run ms₁).delivery id m = some a →
        a.timer ∉ startedSince a.job (record (happenings id) w ms₁) := by
  intro w hs
  have H := record_inOrder engines platform profiles id ms hms
  refine ⟨H.deliveries_sorted, H.starts_sorted, H.deadline_le, fun ms₁ m ms₂ hsplit a ha hmem => ?_⟩
  have hms₁ : w.Along (Timely id) ms₁ := along_of_append (hsplit ▸ hms)
  have H₁ := record_inOrder engines platform profiles id ms₁ hms₁
  obtain ⟨j, now, d, hj, hp, hd, hmet, hdue, -⟩ := H₁.delivery_queued ha
  have hlater := H₁.queued_later d hd _ hmet a.job j now hj hp hmem
  exact Nat.lt_irrefl _ (Nat.lt_of_lt_of_le hlater hdue)

/-- A run in which a runtime is attached, an interval and a timeout are started with delays that are
not delays, and the event loop is run. -/
def timerRun : List (Move Script.engine) :=
  [.attach 0 {} (.ofFiles "/"), .setTimer ⟨1⟩ .interval (.object 54) .nan,
    .setTimer ⟨1⟩ .timeout (.object 54) .zero, .start (.runLoop 0 ⟨1⟩ 10)] ++
  List.replicate 20 (.step 0)

/-- In that run the interval is delivered twice, and the timeout in between. -/
theorem timerRun_inOrder :
    deliveries (record (happenings ⟨1⟩) (ofForms {}) timerRun) =
        [⟨0, 1, ⟨1⟩, 1⟩, ⟨0, 1, ⟨2⟩, 1⟩, ⟨0, 2, ⟨1⟩, 2⟩] ∧
      (deliveries (record (happenings ⟨1⟩) (ofForms {}) timerRun)).Pairwise
        fun a b => Earlier a.met b.met :=
  ⟨by decide +kernel,
    (timers_inOrder _ _ _ ⟨1⟩ timerRun (by simp [timerRun, Along, Timely, List.replicate])).1⟩

end World

end ScriptHost
