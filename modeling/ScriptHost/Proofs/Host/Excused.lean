import ScriptHost.Proofs.Host.Likeness
import ScriptHost.Proofs.Host.Origins

/-!
# Excused exceptions

An exception that ends a callback is excused if the callback is taken to have returned instead, with
some value, in the state in which it has ended. An excused run makes the same moves as the run that
is ended by the exception, and it does the same to the host: all the difference is that the job
looks for the next notification in the end, where otherwise it ends itself.

When the task of the ended job is then called again, in both worlds, the new job goes on as the
excused one does, once it has begun a pass. The new job of an event loop has microtasks run first
and begins a pass at the clock; so it goes on as the excused one does, were that in a pass of that
time.

## Main definitions

* `World.excuse`: the world in which a callback has returned where it has ended with an exception.
* `Job.again?`: the errand to do a task again.
* `World.inPassAt`: the world in which the pass of a job is at another time.

## Main results

* `World.Throwing.excused`: an excused run does the same to the host.
* `World.Alike.resumes`: the task that is called again goes on as the excused job does.
-/

namespace ScriptHost

variable {E : Engine}

/-! ### Excused jobs -/

namespace Job

/-- The first job runs microtasks in a pass while an exception waits for them, and the second does
the same while a value waits. -/
structure Pardons (p : RuntimeId × Time) (e : Exception E.Value) (v : E.Value) (j j' : Job E) :
    Prop where
  pass?_eq : j.pass? = some p
  waiting_eq : j.waiting = some (.error e)
  eq_recast : j' = j.recast j.task (some (.ok v))

/-- The first job has ended in a pass with an exception, where the second looks for the next
notification. -/
structure Spares (p : RuntimeId × Time) (e : Exception E.Value) (j j' : Job E) : Prop where
  pass?_eq : j.pass? = some p
  focus_eq : j.focus = .over (.failed e)
  eq_turnTo : j' = j.turnTo .take

variable {h : Host E} {j j' : Job E} {p : RuntimeId × Time} {e : Exception E.Value} {v : E.Value}

theorem Pardons.step (H : j.Pardons p e v j') (hf : j.focus.IsWork) (hd : j.isDone = false) :
    (j'.step h).1 = (j.step h).1 ∧ (j.step h).2.Pardons p e v (j'.step h).2 := by
  obtain ⟨hp, hw, rfl⟩ := H
  obtain ⟨htask, hwaiting⟩ := step_keeps (h := h) hf hd
  rw [step_recast hf hd]
  refine ⟨rfl, (pass?_eq_of_task htask).trans hp, hwaiting.trans hw, ?_⟩
  rw [htask]
  rfl

/-- Once microtasks have run, the job ends with the exception, and the other one goes on. -/
theorem Pardons.reports (H : j.Pardons p e v j') (hr : j.Reports e) :
    (j'.step h).1 = (j.step h).1 ∧ (j.step h).2.Spares p e (j'.step h).2 := by
  obtain ⟨hp, hw, rfl⟩ := H
  obtain ⟨r, hf, hs, -⟩ := hr.result
  have hf' : (j.recast j.task (some (.ok v))).focus = .result r := hf
  have hs' : (j.recast j.task (some (.ok v))).stack = [] := hs
  have hp' : (j.recast j.task (some (.ok v))).task.polls = true := hr.polls
  rw [step_eq_proceed hf hs hw, step_eq_proceed hf' hs' rfl, proceed_of_polls hr.polls,
    proceed_of_polls hp']
  exact ⟨rfl, hp, rfl, rfl⟩

/-- The job whose callback has ended, had that returned a value instead. A fault with which it has
ended is made into an error object all the same. -/
def excuse (v : E.Value) (h : Host E) (j : Job E) : Host E × Job E :=
  match j.focus with
  | .result r =>
    ({ h with engines := (settle j.seat r h.engines).2 }, j.turnTo (.result (.ok v)))
  | _ => (h, j)

/-- The job has microtasks run, whether the callback is excused or not. -/
theorem Throws.step (H : j.Throws h.engines e) (hp : j.pass? = some p) (v : E.Value) :
    ((j.excuse v h).2.step (j.excuse v h).1).1 = (j.step h).1 ∧
      (j.step h).2.Pardons p e v ((j.excuse v h).2.step (j.excuse v h).1).2 := by
  obtain ⟨r, hf, he⟩ := H.result
  have hexcuse : j.excuse v h = ({ h with engines := (settle j.seat r h.engines).2 },
      j.turnTo (.result (.ok v))) := by
    rw [excuse, hf]
  have hreturned (h : Host E) : (j.turnTo (.result (.ok v))).step h = j.drain h (.ok v) := by
    have hp' : (j.turnTo (.result (.ok v))).task.polls = true := H.polls
    have hf' : (j.turnTo (.result (.ok v))).focus = .result (.ok v) := rfl
    rw [step_eq_conclude hf' H.stack_eq H.waiting_eq, conclude_of_polls hp']
    rfl
  rw [hexcuse, step_eq_conclude hf H.stack_eq H.waiting_eq, conclude_of_polls H.polls, he]
  dsimp only
  rw [hreturned]
  exact ⟨rfl, hp, rfl, rfl⟩

end Job

namespace World

/-- The world in which the callback of the job `i` has returned a value where it has ended with an
exception. -/
def excuse (i : Nat) (v : E.Value) (w : World E) : World E :=
  match w.jobs[i]? with
  | none => w
  | some j => ⟨(j.excuse v w.host).1, w.jobs.set i (j.excuse v w.host).2⟩

variable {w w' : World E} {i : Nat} {id : RuntimeId} {now : Time} {n : Notification}
  {e : Exception E.Value} {v : E.Value} {running draining : List (Move E)}

/-- Microtasks are begun, whether the callback is excused or not. -/
theorem excuse_alike {j : Job E} (hj : w.jobs[i]? = some j) (H : j.Throws w.host.engines e)
    (hp : j.pass? = some (id, now)) : (w.perform (.step i)).Alike (Job.Pardons (id, now) e v) i i
      ((w.excuse i v).perform (.step i)) := by
  have hlt := (List.getElem?_eq_some_iff.1 hj).1
  have hexcuse : w.excuse i v = ⟨(j.excuse v w.host).1, w.jobs.set i (j.excuse v w.host).2⟩ := by
    rw [excuse, hj]
  obtain ⟨hhost, hpardons⟩ := H.step hp v
  simp only [hexcuse, perform, hj, List.getElem?_set_self hlt]
  refine ⟨hhost, by simp, fun k hki _ => ?_, _, _, ?_, ?_, hpardons⟩
  · simp only [List.getElem?_set_ne (Ne.symm hki)]
  · simp only [List.getElem?_set_self hlt]
  · simp only [List.set_set, List.getElem?_set_self hlt]

/-- An excused run does the same to the host, and in the end the job looks for the next
notification. -/
theorem Throwing.excused (H : w.Throwing i id now n e running draining) (v : E.Value) :
    (w.run (.step i :: running ++ .step i :: draining ++ [.step i])).Alike
      (Job.Spares (id, now) e) i i
      (((w.run (.step i :: running)).excuse i v).run (.step i :: draining ++ [.step i])) := by
  obtain ⟨j, hj, hp, hthrows⟩ := H.throws
  have hbegun := excuse_alike (v := v) hj hthrows hp
  have hkeeps : (w.run (.step i :: running ++ [.step i])).Along
      (KeepsAlike (Job.Pardons (id, now) e v) i i) draining := by
    refine H.drains.mono fun w m hm => ⟨fun _ => rfl, fun hi j j' hj hR => ?_⟩
    obtain ⟨j₁, hj₁, hf, hd⟩ := hm hi
    obtain rfl := Option.some.inj (hj₁.symm.trans hj)
    exact hR.step hf hd
  rw [run_append] at hkeeps
  have hdrained := Alike.run hbegun hkeeps
  rw [Move.takenBy_self, List.map_id] at hdrained
  have hmoves : w.run (.step i :: running ++ .step i :: draining) =
      (((w.run (.step i :: running)).perform (.step i)).run draining) := by
    rw [run_append, run_cons]
  rw [run_append _ _ [.step i], run_append _ _ [.step i], hmoves]
  refine hdrained.step_job fun j₁ j₁' hj₁ hR => ?_
  obtain ⟨j₂, hj₂, hreports⟩ := H.reports
  rw [hmoves] at hj₂
  obtain rfl := Option.some.inj (hj₂.symm.trans hj₁)
  exact hR.reports hreports

end World

/-! ### Calling again -/

namespace Task

/-- The task in a pass at `t`; the time of a pass that was given stays. -/
def inPassAt (t : Time) : Task → Task
  | .loop owner _ limit => .loop owner (some t) limit
  | task => task

/-- How many notifications have been taken in a pass. -/
def taken : Task → Nat
  | .pass _ _ taken => taken
  | _ => 0

/-- The task with nothing taken yet. -/
def untaken : Task → Task
  | .pass owner now _ => .pass owner now 0
  | task => task

theorem counting_untaken (t : Time) (task : Task) :
    (task.inPassAt t).untaken.counting task.taken = task.inPassAt t := by
  cases task with
  | pass owner now taken => exact congrArg (Task.pass owner now) (Nat.zero_add taken)
  | _ => rfl

end Task

namespace Job

/-- The job in a pass at `t`. -/
def inPassAt (t : Time) (j : Job E) : Job E := { j with task := j.task.inPassAt t }

/-- The errand to do again what the job was to do. -/
def again? (j : Job E) : Option (Errand E) :=
  match j.task with
  | .pass owner now _ => some (.runReady j.seat owner now)
  | .loop owner _ limit => some (.runLoop j.seat owner limit)
  | _ => none

theorem again?_seat {j : Job E} {again : Errand E} (h : j.again? = some again) :
    again.seat = j.seat := by
  rw [again?] at h
  split at h
  · obtain rfl := Option.some.inj h
    rfl
  · obtain rfl := Option.some.inj h
    rfl
  · cases h

/-- A job in its pass stays in it at that time. -/
theorem inPassAt_of_pass? {j : Job E} {id : RuntimeId} {t : Time} (h : j.pass? = some (id, t)) :
    j.inPassAt t = j := by
  obtain ⟨seat, task, waiting, stack, focus⟩ := j
  cases task with
  | loop owner now limit =>
    obtain ⟨now', rfl, he⟩ := Option.map_eq_some_iff.1 h
    obtain ⟨-, rfl⟩ := Prod.mk.inj he
    rfl
  | _ => rfl

/-- Two jobs that look for notifications in the same pass are the same but for what they have taken.
-/
theorem inPassAt_eq_counting {j k : Job E} {t : Time} (hj : j.focus = .take) (hk : k.focus = .take)
    (hseat : k.seat = j.seat) (hstack : k.stack = j.stack) (hwaiting : k.waiting = j.waiting)
    (ht : k.task = (j.task.inPassAt t).untaken) : j.inPassAt t = k.counting j.task.taken := by
  rw [inPassAt, counting, hseat, hstack, hwaiting, ht, Task.counting_untaken, hk, hj]
  rfl

end Job

namespace World

variable {w w' : World E} {i : Nat} {j j' k : Job E} {e : Exception E.Value} {again : Errand E}
  {ms : List (Move E)} {t : Time}

/-- The world in which the pass of the job `i` is at `t`. -/
def inPassAt (i : Nat) (t : Time) (w : World E) : World E :=
  ⟨w.host, w.jobs.modify i (Job.inPassAt t)⟩

theorem inPassAt_of_pass? {id : RuntimeId} (hj : w.jobs[i]? = some j)
    (hp : j.pass? = some (id, t)) : w.inPassAt i t = w := by
  have hjobs : w.jobs.modify i (Job.inPassAt t) = w.jobs := by
    refine List.ext_getElem? fun k => ?_
    rw [List.getElem?_modify]
    by_cases hik : i = k
    · subst hik
      simp only [if_pos, hj, Option.map_eq_map, Option.map_some, Job.inPassAt_of_pass? hp]
    · simp only [if_neg hik, Option.map_eq_map, Option.map_id']
  rw [inPassAt, hjobs]

/-- The job of an event loop that looks for notifications outside a pass begins one at the clock. -/
theorem perform_step_begins {owner : RuntimeId} {limit : Time} (hj : w.jobs[i]? = some j)
    (hf : j.focus = .take) (ht : j.task = .loop owner none limit) :
    w.perform (.step i) = w.inPassAt i w.host.platform.clock := by
  have hstep : j.step w.host = (w.host, j.inPassAt w.host.platform.clock) := by
    obtain ⟨seat, task, waiting, stack, focus⟩ := j
    subst hf ht
    rfl
  simp only [perform, hj, hstep, inPassAt, List.modify_eq_set_getElem?, Option.map_eq_map,
    Option.map_some, Option.getD_some]

/-- A job that is there stays, at its seat and in the task that it was given. -/
theorem Reached.continues_run (hw : w.Reached) (hj : w.jobs[i]? = some j) (ms : List (Move E)) :
    ∃ j', (w.run ms).jobs[i]? = some j' ∧ j.Continues j' := by
  induction ms generalizing w j with
  | nil => exact ⟨j, hj, rfl, rfl⟩
  | cons m ms ih =>
    have hlt : i < (w.perform m).jobs.length :=
      Nat.lt_of_lt_of_le (List.getElem?_eq_some_iff.1 hj).1 (w.length_jobs_le_perform m)
    obtain ⟨j₁, hj₁⟩ : ∃ j₁, (w.perform m).jobs[i]? = some j₁ := ⟨_, List.getElem?_eq_getElem hlt⟩
    have hu := (hw.perform m).unbroken j₁ (List.mem_of_getElem? hj₁)
    obtain ⟨j', hj', hcontinues⟩ := ih (hw.perform m) hj₁
    refine ⟨j', hj', ?_⟩
    obtain ⟨j₀, hj₀, ⟨rfl, rfl⟩ | ⟨hm, rfl⟩⟩ | ⟨errand, -, rfl, -⟩ := job_perform hj₁
    · obtain rfl := Option.some.inj (hj₀.symm.trans hj)
      exact (Job.step_continues hu).trans hcontinues
    · obtain rfl := Option.some.inj (hj₀.symm.trans hj)
      exact hcontinues
    · exact absurd (List.getElem?_eq_some_iff.1 hj).1 (Nat.lt_irrefl _)

/-- A task that is called again goes on as the excused job does, once it has begun a pass, were that
in a pass of the same time. -/
theorem Alike.resumes {p : RuntimeId × Time} (H : w.Alike (Job.Spares p e) i i w') (hw : w.Reached)
    (hj' : w'.jobs[i]? = some j') (hagain : j'.again? = some again) (hms : .step i ∉ ms)
    (hk : ((w.perform (.start again)).run ms).jobs[w.jobs.length]? = some k) (hf : k.focus = .take)
    (ht : k.task = (j'.task.inPassAt t).untaken) :
    ((w.perform (.start again)).run ms).GoesOnAs w.jobs.length i j'.task.taken
      (((w'.perform (.start again)).run ms).inPassAt i t) := by
  obtain ⟨j, j'', hj, hj'', -, hover, hspared⟩ := H.job
  obtain rfl := Option.some.inj (hj'.symm.trans hj'')
  have hi : i < w.jobs.length := (List.getElem?_eq_some_iff.1 hj).1
  have hms' : .step i ∉ Move.start again :: ms := by simpa using hms
  have halike := H.idle hms'
  have hj₁ := job_run_idle hj' hms'
  rw [run_cons, run_cons] at halike
  rw [run_cons] at hj₁
  have hbegun : (w.perform (.start again)).jobs[w.jobs.length]? = some (again.begin w.host).2 :=
    List.getElem?_concat_length
  obtain ⟨k', hk', hcontinues⟩ := (hw.perform (.start again)).continues_run hbegun ms
  obtain rfl := Option.some.inj (hk'.symm.trans hk)
  have hseat : k'.seat = j'.seat :=
    hcontinues.seat_eq.trans ((again.begin_seat w.host).trans (Job.again?_seat hagain))
  obtain ⟨hstack, hwaiting⟩ := (((hw.perform (.start again)).run ms).based marks_true k'
    (List.mem_of_getElem? hk)).idle_of_take hf
  obtain ⟨hstack', hwaiting'⟩ := (hw.based marks_true j (List.mem_of_getElem? hj)).idle
    (by rw [hover]; exact id)
  have hcounting : j'.inPassAt t = k'.counting j'.task.taken := by
    subst hspared
    exact Job.inPassAt_eq_counting rfl hf hseat (hstack.trans hstack'.symm)
      (hwaiting.trans hwaiting'.symm) ht
  refine Alike.goesOnAs ⟨halike.host_eq, ?_, fun l hl hli => ?_, k', j'.inPassAt t, hk,
    ?_, hcounting⟩
  · rw [inPassAt, List.length_modify, halike.length_eq]
  · simp only [inPassAt, List.getElem?_modify, if_neg (Ne.symm hli), Option.map_eq_map,
      Option.map_id', halike.others l hli hli]
  · simp only [inPassAt, List.getElem?_modify, if_pos, hj₁, Option.map_eq_map, Option.map_some]

end World

end ScriptHost
