import ScriptHost.Proofs.Host.Discipline
import ScriptHost.Proofs.Host.Recast
import Mathlib.Data.List.Induction

/-!
# Where an exception comes from

A job that delivers notifications ends with an exception only when microtasks have run with that
exception waiting for them; the exception waits for them because the callback of a notification has
ended with it; and the callback was called when the job was handed that notification. In between the
job was in the middle of its work all the time. So the run that leads to such an end can be taken
apart: the call of a callback, its course, the beginning of the microtasks, their course, and the
end.

## Main definitions

* `Job.Calls`: a job calls the callback of a notification in its next step.
* `Job.Throws`: the callback that a job has called has ended with an exception.
* `Job.Reports`: microtasks have run, and a job is about to end with the exception that has waited.
* `World.MidWork`: a move in which a job, if it takes a step, is in the middle of its work.
* `World.GetsToWork`: the moves with which a job gets to work.
* `World.Throwing`: the course of a callback that ends with an exception.

## Main results

* `World.exists_getsToWork`: a job at work has got to it, and has been in the middle of it since.
* `World.exists_calls`: a job at work has called a callback, and has worked since.
* `World.exists_throws`: a job whose microtasks run with an exception waiting for them has called a
  callback that ended with it.
* `World.exists_throwing`: a job that ends with an exception has called a callback that took such a
  course.
-/

namespace ScriptHost

variable {E : Engine}

namespace Job

variable {h : Host E} {j : Job E} {e : Exception E.Value}

/-- How a job gets to work: it is in the middle of its work, or it is handed a notification, or its
callback has ended and it has microtasks run. -/
theorem work_origin (hf : (j.step h).2.focus.IsWork) :
    (j.focus.IsWork ∧ j.isDone = false) ∨
      (j.focus = .take ∧ ∃ id now n h₁, j.pass? = some (id, now) ∧
        h.takeNext id now = some (n, h₁)) ∨
      ∃ r, j.focus = .result r ∧ j.stack = [] ∧ j.waiting = none ∧ j.step h = j.conclude h r := by
  have H := j.step_advances h
  generalize j.step h = p at H hf
  cases H with
  | stays hover => exact absurd hover (not_isOver_of_work hf)
  | begins htake ht =>
    dsimp only at hf
    rw [htake] at hf
    exact hf.elim
  | hands htake hp hn => exact .inr (.inl ⟨htake, _, _, _, _, hp, hn⟩)
  | @rests owner now limit htake ht hn =>
    rcases (rest_spec h j owner limit).2.2 with hover | htake'
    · exact absurd hover (not_isOver_of_work hf)
    · rw [htake'] at hf
      exact hf.elim
  | finishes | skips => exact hf.elim
  | renders hr => exact .inl ⟨by rw [hr]; trivial, by rw [isDone, hr]⟩
  | runs hs | calls hs | ends hs => exact .inl ⟨by rw [hs]; trivial, isDone_of_script hs⟩
  | resumes hr hs => exact .inl ⟨by rw [hr]; trivial, isDone_of_stack (by simp [hs])⟩
  | concludes hr hs hw => exact .inr (.inr ⟨_, hr, hs, hw, rfl⟩)
  | @proceeds r w hr hs hw =>
    unfold proceed at hf
    dsimp only at hf
    split at hf <;> exact hf.elim

theorem step_eq_conclude {r : Result E} (hf : j.focus = .result r) (hs : j.stack = [])
    (hw : j.waiting = none) : j.step h = j.conclude h r := by
  simp only [step, hf, hs, hw]

theorem step_eq_proceed {r w : Result E} (hf : j.focus = .result r) (hs : j.stack = [])
    (hw : j.waiting = some w) : j.step h = j.proceed h w := by
  simp only [step, hf, hs, hw]

/-- A job that is handed a notification delivers it. -/
theorem step_eq_deliver {id : RuntimeId} {now : Time} {n : Notification} {h₁ : Host E}
    (hf : j.focus = .take) (hp : j.pass? = some (id, now)) (hn : h.takeNext id now = some (n, h₁)) :
    j.step h = j.counted.deliver h₁ id n .take := by
  rw [step, hf]
  exact takeNext_eq_deliver hp hn

/-- A job that delivers notifications has microtasks run when its callback has ended, the result of
which waits for them. -/
theorem conclude_of_polls (hp : j.task.polls = true) (r : Result E) : j.conclude h r =
    j.drain { h with engines := (settle j.seat r h.engines).2 }
      ((settle j.seat r h.engines).1.mapError .thrown) := by
  rw [conclude]
  split
  · next ht => rw [ht] at hp; cases hp
  · next ht => rw [ht] at hp; cases hp
  all_goals rfl

/-- A job that delivers notifications looks for the next one when its microtasks have run, or ends
with the exception that has waited for them. -/
theorem proceed_of_polls (hp : j.task.polls = true) (w : Result E) : j.proceed h w =
    (h, { j with waiting := none, focus :=
      match w with
      | .ok _ => .take
      | .error e => .over (.failed e) }) := by
  unfold proceed
  cases ht : j.task with
  | pass | loop => cases w <;> rfl
  | _ => rw [ht] at hp; cases hp

/-- A job that delivers notifications ends with an exception only when microtasks have run and the
exception has waited for them. -/
theorem failed_origin (hover : ¬j.IsOver) (hp : j.task.polls = true)
    (he : (j.step h).2.focus = .over (.failed e)) :
    ∃ r, j.focus = .result r ∧ j.stack = [] ∧ j.waiting = some (.error e) := by
  have hwork {focus : Focus E} (hf : focus.IsWork) (he : focus = .over (.failed e)) : False := by
    rw [he] at hf
    exact hf
  have H := j.step_advances h
  generalize j.step h = p at H he
  cases H with
  | stays h => exact absurd h hover
  | begins htake ht => cases htake.symm.trans he
  | hands =>
    rcases deliver_work_or _ _ _ _ _ with hf | hf
    · exact (hwork hf he).elim
    · cases hf.symm.trans he
  | rests =>
    rw [rest] at he
    split at he
    · cases he
    · dsimp only at he
      split at he
      · cases he
      · split at he <;> cases he
  | finishes | skips | runs | ends => cases he
  | renders => exact (hwork (render_above ..).work he).elim
  | calls => exact (hwork (native_above ..).work he).elim
  | resumes hr hs =>
    rcases resume_above _ _ _ _ with H | hbroken
    · exact (hwork H.work he).elim
    · obtain ⟨message, hm⟩ := not_forall_not.1 hbroken
      cases he.symm.trans hm
  | concludes hr hs hw =>
    rw [conclude_of_polls hp] at he
    cases he
  | @proceeds r w hr hs hw =>
    rw [proceed_of_polls hp] at he
    cases w with
    | ok v => cases he
    | error e' =>
      obtain rfl := Outcome.failed.inj (Focus.over.inj he)
      exact ⟨r, hr, hs, hw⟩

/-- A job calls the callback of a notification in its next step, in a pass of a runtime. -/
structure Calls (h : Host E) (j : Job E) (id : RuntimeId) (now : Time) (n : Notification) :
    Prop where
  focus_eq : j.focus = .take
  pass?_eq : j.pass? = some (id, now)
  handed : ∃ h₁, h.takeNext id now = some (n, h₁)
  work : (j.step h).2.focus.IsWork

/-- A job that calls a callback stays in its pass, and nothing waits that did not. -/
theorem Calls.step_keeps {id : RuntimeId} {now : Time} {n : Notification}
    (H : j.Calls h id now n) :
    (j.step h).2.pass? = some (id, now) ∧ (j.step h).2.waiting = j.waiting := by
  obtain ⟨h₁, hn⟩ := H.handed
  rw [step_eq_deliver H.focus_eq H.pass?_eq hn]
  have hpass := (pass?_eq_of_task (deliver_task h₁ j.counted id n .take)).trans j.counted_pass?
  exact ⟨hpass.trans H.pass?_eq, (deliver_waiting ..).trans j.counted_stack.2⟩

/-- The callback that a job has called has ended with an exception; microtasks have not run yet. -/
structure Throws (s : E.State) (j : Job E) (e : Exception E.Value) : Prop where
  polls : j.task.polls = true
  stack_eq : j.stack = []
  waiting_eq : j.waiting = none
  result : ∃ r, j.focus = .result r ∧ (settle j.seat r s).1.mapError .thrown = .error e

/-- Microtasks have run while an exception waited for them, and the job is about to end with it. -/
structure Reports (j : Job E) (e : Exception E.Value) : Prop where
  polls : j.task.polls = true
  result : ∃ r, j.focus = .result r ∧ j.stack = [] ∧ j.waiting = some (.error e)

end Job

namespace World

variable {w w₀ : World E} {i : Nat} {m : Move E} {ms : List (Move E)} {j : Job E}
  {e : Exception E.Value}

/-- The job `i`, if it takes a step in a move, is in the middle of its work. -/
def MidWork (i : Nat) (w : World E) (m : Move E) : Prop :=
  m = .step i → ∃ j, w.jobs[i]? = some j ∧ j.focus.IsWork ∧ j.isDone = false

/-- The moves with which a job `i` gets to work, and the job after them. -/
inductive GetsToWork (w : World E) (i : Nat) : Move E → Job E → Prop
  /-- It calls the callback of a notification. -/
  | calls {j : Job E} {id : RuntimeId} {now : Time} {n : Notification} (hj : w.jobs[i]? = some j)
      (hcalls : j.Calls w.host id now n) : GetsToWork w i (.step i) (j.step w.host).2
  /-- Its callback has ended, and it has microtasks run. -/
  | concludes {j : Job E} {r : Result E} (hj : w.jobs[i]? = some j) (hf : j.focus = .result r)
      (hs : j.stack = []) (hw : j.waiting = none) :
      GetsToWork w i (.step i) (j.conclude w.host r).2
  /-- It is begun. -/
  | begins {errand : Errand E} (hf : (errand.begin w.host).2.focus.IsWork) :
      GetsToWork w i (.start errand) (errand.begin w.host).2

/-- A job that is at work after a move has got to it with the move, or was in the middle of it. -/
theorem getsToWork_or (hj : (w.perform m).jobs[i]? = some j) (hf : j.focus.IsWork) :
    w.GetsToWork i m j ∨ w.MidWork i m ∧ ∃ j₀, w.jobs[i]? = some j₀ ∧ j₀.focus.IsWork ∧
      j.task = j₀.task ∧ j.waiting = j₀.waiting := by
  obtain ⟨j₀, hj₀, ⟨rfl, rfl⟩ | ⟨hm, rfl⟩⟩ | ⟨errand, rfl, -, rfl⟩ := job_perform hj
  · rcases Job.work_origin hf with
      ⟨hf₀, hd₀⟩ | ⟨hf₀, id, now, n, h₁, hpass, hn⟩ | ⟨r, hr, hs, hw, he⟩
    · obtain ⟨htask, hwaiting⟩ := Job.step_keeps (h := w.host) hf₀ hd₀
      exact .inr ⟨fun _ => ⟨j₀, hj₀, hf₀, hd₀⟩, j₀, hj₀, hf₀, htask, hwaiting⟩
    · exact .inl (.calls hj₀ ⟨hf₀, hpass, ⟨h₁, hn⟩, hf⟩)
    · exact .inl (he ▸ .concludes hj₀ hr hs hw)
  · exact .inr ⟨fun h => absurd h hm, j, hj₀, hf, rfl, rfl⟩
  · exact .inl (.begins hf)

/-- A job at work has got to it, and has been in the middle of it since. -/
theorem exists_getsToWork (hjobs : w₀.jobs = []) (hj : (w₀.run ms).jobs[i]? = some j)
    (hf : j.focus.IsWork) : ∃ before m since j₀, ms = before ++ m :: since ∧
      (w₀.run before).GetsToWork i m j₀ ∧ j.task = j₀.task ∧ j.waiting = j₀.waiting ∧
      (w₀.run (before ++ [m])).Along (MidWork i) since := by
  induction ms using List.reverseRecOn generalizing j with
  | nil =>
    rw [run_nil, hjobs] at hj
    cases hj
  | append_singleton ms m ih =>
    rw [run_append] at hj
    rcases getsToWork_or hj hf with hgets | ⟨hm, j₁, hj₁, hf₁, htask₁, hwaiting₁⟩
    · exact ⟨ms, m, [], j, rfl, hgets, rfl, rfl, trivial⟩
    · obtain ⟨before, m₀, since, j₀, rfl, hgets, htask, hwaiting, halong⟩ := ih hj₁ hf₁
      refine ⟨before, m₀, since ++ [m], j₀, by simp, hgets, htask₁.trans htask,
        hwaiting₁.trans hwaiting, along_append.2 ⟨halong, ?_, trivial⟩⟩
      rwa [← run_append, List.append_assoc]

/-- A job that delivers notifications is begun without work, or with microtasks. -/
theorem waiting_of_begin {h : Host E} {errand : Errand E}
    (hp : (errand.begin h).2.task.polls = true) (hf : (errand.begin h).2.focus.IsWork) :
    ∃ v, (errand.begin h).2.waiting = some (.ok v) := by
  cases errand with
  | evaluate seat s => cases hp
  | require seat owner q main =>
    rw [Errand.begin, (Job.require_above h seat owner q main).task_eq] at hp
    cases hp
  | notify seat owner n =>
    rw [Errand.begin, Job.notify, Job.deliver_task] at hp
    cases hp
  | runReady seat owner now => exact hf.elim
  | runLoop seat owner limit => exact ⟨_, rfl⟩

/-- A job that delivers notifications and is at work has called a callback, and has been in the
middle of its work since, if nothing waits for its microtasks. -/
theorem exists_calls (hjobs : w₀.jobs = []) (hj : (w₀.run ms).jobs[i]? = some j)
    (hp : j.task.polls = true) (hf : j.focus.IsWork) (hw : j.waiting = none) :
    ∃ before since j₀ id now n, ms = before ++ .step i :: since ∧
      (w₀.run before).jobs[i]? = some j₀ ∧ j₀.Calls (w₀.run before).host id now n ∧
      j.pass? = some (id, now) ∧ (w₀.run (before ++ [.step i])).Along (MidWork i) since := by
  obtain ⟨before, m, since, j₁, rfl, hgets, htask, hwaiting, halong⟩ :=
    exists_getsToWork hjobs hj hf
  cases hgets with
  | @calls j₀ id now n hj₀ hcalls =>
    exact ⟨before, since, j₀, id, now, n, rfl, hj₀, hcalls,
      (Job.pass?_eq_of_task htask).trans hcalls.step_keeps.1, halong⟩
  | @concludes j₀ r hj₀ hr hs hw₀ =>
    have hp₀ : j₀.task.polls = true := (htask.trans (Job.conclude_goesOn ..).task) ▸ hp
    rw [Job.conclude_of_polls hp₀] at hwaiting
    cases hwaiting.symm.trans hw
  | begins hf =>
    obtain ⟨v, hv⟩ := waiting_of_begin (htask ▸ hp) hf
    cases hv.symm.trans (hwaiting.symm.trans hw)

/-- A job whose microtasks run while an exception waits for them has called a callback that ended
with it, and has been in the middle of its work since the microtasks were begun. -/
theorem exists_throws (hw₀ : w₀.Reached) (hjobs : w₀.jobs = [])
    (hj : (w₀.run ms).jobs[i]? = some j) (hp : j.task.polls = true) (hf : j.focus.IsWork)
    (hw : j.waiting = some (.error e)) :
    ∃ before since j₀, ms = before ++ .step i :: since ∧ (w₀.run before).jobs[i]? = some j₀ ∧
      j₀.Throws (w₀.run before).host.engines e ∧ j.task = j₀.task ∧
      (w₀.run (before ++ [.step i])).Along (MidWork i) since := by
  obtain ⟨before, m, since, j₁, rfl, hgets, htask, hwaiting, halong⟩ :=
    exists_getsToWork hjobs hj hf
  cases hgets with
  | calls hj₀ hcalls =>
    have hbased := (hw₀.run before).based marks_true _ (List.mem_of_getElem? hj₀)
    have hnone := hcalls.step_keeps.2.trans (hbased.idle_of_take hcalls.focus_eq).2
    exact nomatch (hwaiting.trans hnone).symm.trans hw
  | @concludes j₀ r hj₀ hr hs hw₀ =>
    have htask₀ : j.task = j₀.task := htask.trans (Job.conclude_goesOn ..).task
    have hp₀ : j₀.task.polls = true := htask₀ ▸ hp
    rw [Job.conclude_of_polls hp₀] at hwaiting
    have hthrown := Option.some.inj (hwaiting.symm.trans hw)
    exact ⟨before, since, j₀, rfl, hj₀, ⟨hp₀, hs, hw₀, r, hr, hthrown⟩, htask₀, halong⟩
  | begins hf =>
    obtain ⟨v, hv⟩ := waiting_of_begin (htask ▸ hp) hf
    cases hv.symm.trans (hwaiting.symm.trans hw)

/-- The course of a callback that ends with an exception: the job `i` calls it in the world and is
in the middle of its work while `running`; then the callback has ended, the job has microtasks run
and is in the middle of its work while `draining`; then these have run, and the job ends. -/
structure Throwing (w : World E) (i : Nat) (id : RuntimeId) (now : Time) (n : Notification)
    (e : Exception E.Value) (running draining : List (Move E)) : Prop where
  calls : ∃ j, w.jobs[i]? = some j ∧ j.Calls w.host id now n
  runs : (w.perform (.step i)).Along (MidWork i) running
  throws : ∃ j, (w.run (.step i :: running)).jobs[i]? = some j ∧ j.pass? = some (id, now) ∧
    j.Throws (w.run (.step i :: running)).host.engines e
  drains : (w.run (.step i :: running ++ [.step i])).Along (MidWork i) draining
  reports : ∃ j, (w.run (.step i :: running ++ .step i :: draining)).jobs[i]? = some j ∧ j.Reports e

/-- A job that ends with an exception has called a callback that took such a course. -/
theorem exists_throwing (hw₀ : w₀.Reached) (hjobs : w₀.jobs = [])
    (hj : (w₀.run ms).jobs[i]? = some j) (hp : j.task.polls = true) (hover : ¬j.IsOver)
    (he : (j.step (w₀.run ms).host).2.focus = .over (.failed e)) :
    ∃ before running draining id now n, ms = before ++ (.step i :: running ++ .step i :: draining) ∧
      (w₀.run before).Throwing i id now n e running draining := by
  have hreports : j.Reports e := ⟨hp, Job.failed_origin hover hp he⟩
  obtain ⟨r, hr, hs, hw⟩ := hreports.result
  obtain ⟨ms₁, draining, j₁, rfl, hj₁, hthrows, htask, hdraining⟩ :=
    exists_throws hw₀ hjobs hj hp (by rw [hr]; trivial) hw
  obtain ⟨r₁, hr₁, -⟩ := hthrows.result
  obtain ⟨before, running, j₀, id, now, n, rfl, hj₀, hcalls, hpass, hrunning⟩ :=
    exists_calls hjobs hj₁ hthrows.polls (by rw [hr₁]; trivial) hthrows.waiting_eq
  refine ⟨before, running, draining, id, now, n, by simp, ⟨j₀, hj₀, hcalls⟩, ?_,
    ⟨j₁, ?_, hpass, ?_⟩, ?_, ⟨j, ?_, hreports⟩⟩
  · rwa [run_append] at hrunning
  · rwa [run_append] at hj₁
  · rwa [run_append] at hthrows
  · rwa [run_append, run_append, ← run_append] at hdraining
  · rwa [List.append_assoc, run_append] at hj

end World

end ScriptHost
