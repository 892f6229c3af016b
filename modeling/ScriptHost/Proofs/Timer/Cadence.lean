import ScriptHost.Proofs.Timer.Loop
import Mathlib.Tactic.Ring

/-!
# The cadence of an interval

An interval that has been started is armed for one interval later. Every poll that hands it out arms
it again, one interval after the deadline that was met, or, if the poll comes so late that this has
passed too, one interval after the poll. So deadlines only ever lie further apart than the interval:
whatever else is done with the loop and whenever it is polled, deliveries come no earlier and in no
greater number than the interval allows, and as long as no delivery is late by an interval or more,
the deadlines do not drift.

## Main definitions

* `LoopSeat.Delivery`, `LoopSeat.deliveries`: the polls that hand out a timer.
* `LoopSeat.Delivery.Punctual`: a delivery that is late by less than an interval.
* `LoopSeat.KeepsCadence`: what the deliveries of an interval keep to.

## Main results

* `EventLoop.nextDeadlineOf_spec`: where the next deadline lies.
* `LoopSeat.Sound.perform_interval`: an operation delivers an interval and arms it again, or leaves
  it as it is.
* `LoopSeat.interval_cadence`: every interval keeps its cadence.
-/

namespace ScriptHost

open EventLoop (nextDeadlineOf)

/-! ### The next deadline -/

/-- The next deadline comes after the poll, by one interval at most, and no earlier than one
interval after the deadline that was met: exactly then unless that has passed. -/
theorem EventLoop.nextDeadlineOf_spec {met now : Time} {interval : Span} (hpos : 0 < interval)
    (hdue : met ≤ now) :
    now < nextDeadlineOf met now interval ∧ nextDeadlineOf met now interval ≤ now + interval ∧
      met + interval ≤ nextDeadlineOf met now interval ∧
      (now < met + interval → nextDeadlineOf met now interval = met + interval) := by
  refine ⟨LoopSeat.lt_nextDeadlineOf met now hpos, ?_⟩
  rw [nextDeadlineOf]
  split
  · next hpassed =>
    exact ⟨Nat.le_refl _, Nat.le_trans hpassed (Nat.le_add_right ..),
      fun hlt => absurd hpassed (Nat.not_le.2 hlt)⟩
  · exact ⟨Nat.add_le_add_right hdue _, Nat.le_refl _, fun _ => rfl⟩

namespace LoopSeat

/-! ### Deliveries -/

/-- A poll that hands out a timer. -/
structure Delivery where
  /-- When the loop is polled. -/
  now : Time
  /-- The loop before the poll. -/
  before : EventLoop
  /-- The loop after it. -/
  after : EventLoop

/-- A delivery of `id` that is late by less than an interval. -/
def Delivery.Punctual (x : Delivery) (id : TimerId) (interval : Span) : Prop :=
  ∃ met, x.before.deadline? id = some met ∧ x.now < met + interval

/-- The delivery of `id` that an operation is. -/
def delivery? (s : LoopSeat) (id : TimerId) : Operation → Option Delivery
  | .poll now =>
    match s.loop.poll now with
    | some (.timer id', l) => if id' = id then some ⟨now, s.loop, l⟩ else none
    | _ => none
  | _ => none

/-- The deliveries of `id` among some operations, one after the other. -/
def deliveries (s : LoopSeat) (id : TimerId) : List Operation → List Delivery
  | [] => []
  | o :: os => (s.delivery? id o).toList ++ (s.perform o).deliveries id os

/-- What the deliveries of an interval `id` keep to if it was due at `due` before them and is due at
`next` after them. -/
structure KeepsCadence (id : TimerId) (interval : Span) (due next : Time) (xs : List Delivery) :
    Prop where
  /-- Deliveries come no earlier than the interval allows. -/
  spaced : ∀ k x, xs[k]? = some x → due + k * interval ≤ x.now
  /-- The next deadline comes after a delivery, by one interval at most. -/
  ahead : ∀ x ∈ xs, ∃ deadline, x.after.deadline? id = some deadline ∧ x.now < deadline ∧
    deadline ≤ x.now + interval
  /-- Without late deliveries there is no drift. -/
  steady : (∀ x ∈ xs, x.Punctual id interval) → next = due + xs.length * interval

namespace KeepsCadence

variable {id : TimerId} {interval : Span} {due next : Time} {xs : List Delivery}

theorem nil : KeepsCadence id interval due due [] where
  spaced k x hx := by simp at hx
  ahead x hx := by simp at hx
  steady _ := by simp

/-- A delivery at or after the deadline comes first. -/
theorem cons {x : Delivery} (hpos : 0 < interval) (hmet : x.before.deadline? id = some due)
    (hdue : due ≤ x.now)
    (hafter : x.after.deadline? id = some (nextDeadlineOf due x.now interval))
    (h : KeepsCadence id interval (nextDeadlineOf due x.now interval) next xs) :
    KeepsCadence id interval due next (x :: xs) := by
  obtain ⟨hlt, hle, hfar, hexact⟩ := EventLoop.nextDeadlineOf_spec hpos hdue
  refine ⟨fun k y hy => ?_, fun y hy => ?_, fun hall => ?_⟩
  · cases k with
    | zero =>
      obtain rfl : x = y := by simpa using hy
      simpa using hdue
    | succ k =>
      calc due + (k + 1) * interval = due + interval + k * interval := by ring
        _ ≤ nextDeadlineOf due x.now interval + k * interval := Nat.add_le_add_right hfar _
        _ ≤ y.now := h.spaced k y (by simpa using hy)
  · rcases List.mem_cons.1 hy with rfl | hy
    · exact ⟨_, hafter, hlt, hle⟩
    · exact h.ahead y hy
  · obtain ⟨met, hmet', hlate⟩ := hall x (List.mem_cons_self ..)
    obtain rfl : due = met := Option.some.inj (hmet.symm.trans hmet')
    have hsteady := h.steady fun y hy => hall y (List.mem_cons_of_mem x hy)
    rw [hsteady, hexact hlate, List.length_cons]
    ring

/-- In no time are there more deliveries than the interval allows. -/
theorem countP_le (hpos : 0 < interval) {begun : Time}
    (h : KeepsCadence id interval (begun + interval) next xs) (t : Time) :
    xs.countP (fun x => x.now ≤ t) ≤ (t - begun) / interval := by
  -- All but the first `(t - begun) / interval` deliveries come after `t`.
  have hlate : (xs.drop ((t - begun) / interval)).countP (fun x => x.now ≤ t) = 0 := by
    rw [List.countP_eq_zero]
    intro x hx
    obtain ⟨k, hk⟩ := List.mem_iff_getElem?.1 hx
    rw [List.getElem?_drop] at hk
    have hlt : t < x.now :=
      calc t ≤ begun + (t - begun) := Nat.sub_le_iff_le_add'.1 (Nat.le_refl _)
        _ < begun + ((t - begun) / interval * interval + interval) :=
          Nat.add_lt_add_left (Nat.lt_div_mul_add hpos) _
        _ = begun + interval + (t - begun) / interval * interval := by ring
        _ ≤ begun + interval + ((t - begun) / interval + k) * interval :=
          Nat.add_le_add_left (Nat.mul_le_mul_right _ (Nat.le_add_right ..)) _
        _ ≤ x.now := h.spaced _ x hk
    simpa using hlt
  calc xs.countP (fun x => x.now ≤ t)
      = (xs.take ((t - begun) / interval)).countP (fun x => x.now ≤ t) +
          (xs.drop ((t - begun) / interval)).countP (fun x => x.now ≤ t) := by
        rw [← List.countP_append, List.take_append_drop]
    _ ≤ (t - begun) / interval := by
        rw [hlate, Nat.add_zero]
        exact Nat.le_trans List.countP_le_length (List.length_take_le ..)

end KeepsCadence

/-! ### Operations -/

variable {s s₁ : LoopSeat} {id : TimerId}

/-- A poll that hands out something else, or nothing, leaves a live timer alone. -/
theorem Sound.poll_interval (h : s.Sound) {met : Time} {interval : Span}
    (hlive : s.loop.live.get? id = some ⟨met, some interval⟩) (now : Time) :
    s.delivery? id (.poll now) = none ∧
        (s.loop.polled now).live.get? id = some ⟨met, some interval⟩ ∨
      s.delivery? id (.poll now) = some ⟨now, s.loop, s.loop.polled now⟩ ∧ met ≤ now ∧
        (s.loop.polled now).live.get? id =
          some ⟨nextDeadlineOf met now interval, some interval⟩ := by
  have hpolls := s.loop.polls now
  rw [delivery?, EventLoop.polled]
  cases hpoll : s.loop.poll now with
  | none => exact .inl ⟨rfl, hlive⟩
  | some p =>
    rw [hpoll] at hpolls
    cases hpolls with
    | posted hposted => exact .inl ⟨rfl, hlive⟩
    | @once met' id' queue hposted hqueue hdue hevery =>
      have hne : id' ≠ id := by
        rintro rfl
        simp [hlive] at hevery
      refine .inl ⟨if_neg hne, ?_⟩
      rw [Table.get?_erase, if_neg hne.symm, hlive]
    | @again met' id' queue interval' hposted hqueue hdue hevery =>
      by_cases hid : id' = id
      · subst hid
        have hmet : met' = met := h.queues.eq_deadline (p := (met', id'))
          (hqueue ▸ List.mem_cons_self ..) hlive
        have hinterval : interval = interval' := by simpa [hlive] using hevery
        subst hmet hinterval
        exact .inr ⟨if_pos rfl, hdue, Table.get?_insert_self ..⟩
      · refine .inl ⟨if_neg hid, ?_⟩
        rw [EventLoop.arm, Table.get?_insert, if_neg (Ne.symm hid), hlive]

/-- An operation other than killing it delivers an interval and arms it again, or leaves it as it
is. -/
theorem Sound.perform_interval (h : s.Sound) {met : Time} {interval : Span}
    (hlive : s.loop.live.get? id = some ⟨met, some interval⟩) {o : Operation}
    (ho : o ≠ .kill id) :
    s.delivery? id o = none ∧ (s.perform o).loop.live.get? id = some ⟨met, some interval⟩ ∨
      ∃ now, s.delivery? id o = some ⟨now, s.loop, (s.perform o).loop⟩ ∧ met ≤ now ∧
        (s.perform o).loop.live.get? id =
          some ⟨nextDeadlineOf met now interval, some interval⟩ := by
  cases o with
  | poll now =>
    rcases h.poll_interval hlive now with hleft | hdelivered
    · exact .inl hleft
    · exact .inr ⟨now, hdelivered⟩
  | start now delay repeating =>
    refine .inl ⟨rfl, ?_⟩
    rw [LoopSeat.perform, LoopSeat.startAt]
    split
    · next l hl =>
      have hne : id ≠ ⟨s.nextTimer⟩ := by
        rintro rfl
        exact h.next_notMem (Table.mem_keys_of_get? hlive)
      rw [EventLoop.eq_arm_of_start hl, EventLoop.arm, Table.get?_insert, if_neg hne, hlive]
    · exact hlive
  | kill id' =>
    have hne : id ≠ id' := by
      rintro rfl
      exact ho rfl
    refine .inl ⟨rfl, ?_⟩
    rw [LoopSeat.perform, EventLoop.live_kill, Table.get?_erase, if_neg hne, hlive]
  | wait limit =>
    refine .inl ⟨rfl, ?_⟩
    rw [LoopSeat.perform, (s.loop.waitUntil_keeps s.clock limit).1, hlive]
  | _ => exact .inl ⟨rfl, hlive⟩

/-- An interval that is not killed stays live, and its deliveries keep its cadence. -/
theorem Sound.run_interval (h : s.Sound) {due : Time} {interval : Span} (hpos : 0 < interval)
    (hlive : s.loop.live.get? id = some ⟨due, some interval⟩) {os : List Operation}
    (hos : .kill id ∉ os) :
    ∃ next, (s.run os).loop.deadline? id = some next ∧
      KeepsCadence id interval due next (s.deliveries id os) := by
  induction os generalizing s due with
  | nil => exact ⟨due, by rw [LoopSeat.run, List.foldl_nil, EventLoop.deadline?, hlive]; rfl, .nil⟩
  | cons o os ih =>
    obtain ⟨ho, hos⟩ : o ≠ .kill id ∧ .kill id ∉ os := by
      simpa [eq_comm] using hos
    rw [deliveries]
    rcases h.perform_interval hlive ho with ⟨hnone, hkept⟩ | ⟨now, hsome, hdue, hagain⟩
    · rw [hnone]
      exact ih (h.perform o) hkept hos
    · obtain ⟨next, hnext, hcadence⟩ := ih (h.perform o) hagain hos
      rw [hsome]
      refine ⟨next, hnext, hcadence.cons hpos ?_ hdue ?_⟩
      · rw [EventLoop.deadline?, hlive]
        rfl
      · rw [EventLoop.deadline?, hagain]
        rfl

/-- Every interval keeps its cadence. From when it is started, the delivery number `k + 1` comes no
earlier than `k + 1` intervals later, so that by no time `t` there are more deliveries than
intervals have gone by. After a delivery the next deadline comes within one interval. As long as no
delivery is late by an interval or more, the timer is due the number of its next delivery in
intervals after it was started. All this holds whatever else is done with the loop, and whenever it
is polled. -/
theorem interval_cadence (hs : s.Reached) {begun : Time} {interval : Span} (hpos : 0 < interval)
    (hstart : s.startAt begun interval true = (some id, s₁)) {os : List Operation}
    (hos : .kill id ∉ os) :
    (∀ k x, (s₁.deliveries id os)[k]? = some x → begun + (k + 1) * interval ≤ x.now) ∧
    (∀ t, (s₁.deliveries id os).countP (fun x => x.now ≤ t) ≤ (t - begun) / interval) ∧
    (∀ x ∈ s₁.deliveries id os, ∃ deadline, x.after.deadline? id = some deadline ∧
      x.now < deadline ∧ deadline ≤ x.now + interval) ∧
    ∃ next, (s₁.run os).loop.deadline? id = some next ∧
      ((∀ x ∈ s₁.deliveries id os, x.Punctual id interval) →
        next = begun + ((s₁.deliveries id os).length + 1) * interval) := by
  have hsound : s₁.Sound := by
    have h := hs.sound.startAt begun interval true
    rwa [hstart] at h
  have hlive : s₁.loop.live.get? id = some ⟨begun + interval, some interval⟩ := by
    obtain ⟨rfl, rfl⟩ := startAt_some hstart
    exact Table.get?_insert_self ..
  obtain ⟨next, hnext, hcadence⟩ := hsound.run_interval hpos hlive hos
  refine ⟨fun k x hx => ?_, hcadence.countP_le hpos, hcadence.ahead, next, hnext, fun hall => ?_⟩
  · calc begun + (k + 1) * interval = begun + interval + k * interval := by ring
      _ ≤ x.now := hcadence.spaced k x hx
  · rw [hcadence.steady hall]
    ring

/-- A loop with one place, in which an interval of ten has been started at the beginning. -/
def metronome : LoopSeat := (LoopSeat.startAt ⟨.ofCapacity 1, 0, 0⟩ 0 10 true).2

/-- Of four polls, the third far behind the second and the last at a time that has passed, two hand
out the interval: no more than intervals have gone by. -/
theorem metronome_cadence :
    (metronome.deliveries ⟨0⟩ [.poll 13, .poll 14, .poll 95, .poll 40]).map Delivery.now =
        [13, 95] ∧
      ∀ t, (metronome.deliveries ⟨0⟩ [.poll 13, .poll 14, .poll 95, .poll 40]).countP
        (fun x => x.now ≤ t) ≤ (t - 0) / 10 :=
  ⟨by decide +kernel,
    (interval_cadence ⟨1, 0, 0, [], rfl⟩ (by decide) rfl (by decide)).2.1⟩

end LoopSeat

end ScriptHost
