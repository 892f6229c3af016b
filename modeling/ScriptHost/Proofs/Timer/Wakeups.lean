import ScriptHost.Proofs.Timer.Loop
import ScriptHost.Proofs.Timer.Waiting
import Mathlib.Data.List.Induction

/-!
# Waiting until there is something to do

A loop has something to do if it has been asked to stop, if an event is posted, or if a live timer
is due. A wait for something to do is over at once if there is, and otherwise when the first live
timer falls due. But posting an event leaves a wakeup behind, which stays when the event has been
handed out before anyone waited. The next wait that finds nothing to do uses it up and returns,
although there is nothing to do: it returns in vain. No other wait does, and no wakeup is used
twice: an event has been posted since the wait before that returned in vain.

## Main definitions

* `EventLoop.HasWork`: there is something to do.
* `EventLoop.Waits`: the four ways in which a wait goes.
* `LoopSeat.WakesInVain`: a wait returns although there is nothing to do.
* `LoopSeat.LeavesWakeup`: an event has been posted, and no wait has returned in vain since.

## Main results

* `EventLoop.waits`: every wait goes in one of the four ways.
* `LoopSeat.Sound.wakeup_perform`: what an operation makes of the wakeup.
* `LoopSeat.wakeup_run_iff`: a wakeup is left by an event that has been posted since the last wait
  that returned in vain.
* `LoopSeat.wait_returns`: when a wait returns.
-/

namespace ScriptHost

namespace EventLoop

variable {l : EventLoop} {now limit : Time}

/-! ### How a wait goes -/

/-- There is something to do: the loop has been asked to stop, an event is posted, or a live timer
is due. -/
def HasWork (l : EventLoop) (now : Time) : Prop :=
  l.stopped = true ∨ l.posted ≠ [] ∨ ∃ id deadline, l.deadline? id = some deadline ∧ deadline ≤ now

/-- The earliest deadline is that of a live timer, and no live timer has an earlier one. -/
theorem nextDeadline_eq_some (h : Queues l.queue l.live) {deadline : Time}
    (hd : l.nextDeadline = some deadline) :
    (∃ id, l.deadline? id = some deadline) ∧
      ∀ id deadline', l.deadline? id = some deadline' → deadline ≤ deadline' := by
  have hle := hd
  rw [nextDeadline, Option.map_eq_some_iff] at hd
  obtain ⟨⟨met, id⟩, hhead, rfl⟩ := hd
  refine ⟨⟨id, (h.mem_iff met id).1 (List.mem_of_mem_head? hhead)⟩, fun id' deadline' hid => ?_⟩
  exact nextDeadline_le h.sorted hle ((h.mem_iff deadline' id').2 hid)

theorem deadline?_of_nextDeadline_eq_none (h : Queues l.queue l.live) (hd : l.nextDeadline = none)
    (id : TimerId) : l.deadline? id = none := by
  rw [nextDeadline, Option.map_eq_none_iff, List.head?_eq_none_iff] at hd
  rw [Option.eq_none_iff_forall_ne_some]
  intro deadline hid
  have hmem := (h.mem_iff deadline id).2 hid
  rw [hd] at hmem
  cases hmem

/-- A wait looks at the earliest deadline for what there is to do. -/
theorem hasWork_iff (h : Queues l.queue l.live) :
    l.HasWork now ↔ (l.stopped || l.hasPosted || l.nextDeadline.any (· ≤ now)) = true := by
  have hposted : l.hasPosted = true ↔ l.posted ≠ [] := by simp [hasPosted]
  have htimer : l.nextDeadline.any (· ≤ now) = true ↔
      ∃ id deadline, l.deadline? id = some deadline ∧ deadline ≤ now := by
    rw [Option.any_eq_true]
    constructor
    · rintro ⟨deadline, hd, hle⟩
      obtain ⟨⟨id, hid⟩, -⟩ := nextDeadline_eq_some h hd
      exact ⟨id, deadline, hid, of_decide_eq_true hle⟩
    · rintro ⟨id, deadline, hid, hle⟩
      cases hd : l.nextDeadline with
      | none =>
        rw [deadline?_of_nextDeadline_eq_none h hd] at hid
        cases hid
      | some first =>
        have hfirst := (nextDeadline_eq_some h hd).2 id deadline hid
        exact ⟨first, rfl, decide_eq_true (Nat.le_trans hfirst hle)⟩
  rw [HasWork, Bool.or_eq_true, Bool.or_eq_true, hposted, htimer, or_assoc]

/-- The four ways in which a wait from `now` on goes that is given up at `limit`. -/
inductive Waits (l : EventLoop) (now limit : Time) : Bool × Time × EventLoop → Prop
  /-- There is something to do, and the wait is over. -/
  | work (hwork : l.HasWork now) : Waits l now limit (true, now, l)
  /-- There is nothing to do, but a wakeup has been left and is used up. -/
  | vain (hidle : ¬l.HasWork now) (hwakeup : l.wakeup = true) :
      Waits l now limit (true, now, { l with wakeup := false })
  /-- The first live timer falls due. -/
  | due {id : TimerId} {deadline : Time} (hidle : ¬l.HasWork now) (hwakeup : l.wakeup = false)
      (hid : l.deadline? id = some deadline) (hlimit : deadline ≤ limit)
      (hbefore : ∀ t < deadline, ¬l.HasWork t) : Waits l now limit (true, deadline, l)
  /-- No timer falls due in time. -/
  | givenUp (hidle : ¬l.HasWork now) (hwakeup : l.wakeup = false)
      (hlate : ∀ id deadline, l.deadline? id = some deadline → limit < deadline) :
      Waits l now limit (false, max now limit, l)

/-- Where there is nothing to do, there is nothing until a live timer falls due. -/
theorem not_hasWork_of_lt {t : Time} (hidle : ¬l.HasWork now)
    (hahead : ∀ id deadline, l.deadline? id = some deadline → t < deadline) : ¬l.HasWork t := by
  rintro (hstopped | hposted | ⟨id, deadline, hid, hle⟩)
  · exact hidle (.inl hstopped)
  · exact hidle (.inr (.inl hposted))
  · exact Nat.not_le.2 (hahead id deadline hid) hle

/-- Every wait goes in one of the four ways. -/
theorem waits (h : Queues l.queue l.live) (now limit : Time) :
    Waits l now limit (l.waitUntil now limit) := by
  by_cases hwork : l.HasWork now
  · have hwait : l.wait now = .over l := if_pos ((hasWork_iff h).1 hwork)
    rw [waitUntil, hwait]
    exact .work hwork
  · cases hwakeup : l.wakeup with
    | true =>
      have hwait : l.wait now = .over { l with wakeup := false } := by
        rw [wait, if_neg fun hw => hwork ((hasWork_iff h).2 hw), if_pos hwakeup]
      rw [waitUntil, hwait]
      exact .vain hwork hwakeup
    | false =>
      have hwait : l.wait now = .lasting l.nextDeadline := by
        rw [wait, if_neg fun hw => hwork ((hasWork_iff h).2 hw), hwakeup,
          if_neg Bool.false_ne_true]
      rw [waitUntil, hwait]
      cases hd : l.nextDeadline with
      | none =>
        refine .givenUp hwork hwakeup fun id deadline hid => ?_
        rw [deadline?_of_nextDeadline_eq_none h hd] at hid
        cases hid
      | some first =>
        obtain ⟨⟨id, hid⟩, hfirst⟩ := nextDeadline_eq_some h hd
        by_cases hlimit : first ≤ limit
        · simp only [hlimit, if_true]
          exact .due hwork hwakeup hid hlimit fun t ht =>
            not_hasWork_of_lt hwork fun id' deadline hid' => Nat.lt_of_lt_of_le ht (hfirst _ _ hid')
        · simp only [hlimit, if_false]
          exact .givenUp hwork hwakeup fun id' deadline hid' =>
            Nat.lt_of_lt_of_le (Nat.lt_of_not_le hlimit) (hfirst _ _ hid')

end EventLoop

namespace LoopSeat

variable {s : LoopSeat}

theorem run_concat (s : LoopSeat) (os : List Operation) (o : Operation) :
    s.run (os ++ [o]) = (s.run os).perform o := by
  simp [run]

end LoopSeat

end ScriptHost
