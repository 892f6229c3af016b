import ScriptHost.Proofs.Host.Rounds

/-!
# What work does not look at

While a job works, it looks neither at its task nor at the result that waits for its microtasks; it
is only when its work is done, or when it takes a notification, that these decide how it goes on.
And how many notifications a job has taken in its pass decides nothing but what it reports in the
end. So two jobs that differ in no more than this change a host alike.

## Main definitions

* `Job.recast`: a job with another task and another result that waits.
* `Job.counting`: a job that has taken some notifications more.

## Main results

* `Job.step_recast`: a step of a job at work does not depend on its task and on what waits.
* `Job.step_keeps`, `Job.step_work`: a job whose work is not done works on, in the same task.
* `Job.step_counting`: no step depends on the number of notifications taken.
-/

namespace ScriptHost

variable {E : Engine} {α : Type}

namespace Job

variable {h : Host E} {j : Job E} {t : Task} {w : Option (Result E)}

/-- The job with another task and another result that waits. -/
def recast (j : Job E) (t : Task) (w : Option (Result E)) : Job E :=
  { j with task := t, waiting := w }

/-- What a step comes to if the job is recast after it. -/
def recastAfter (t : Task) (w : Option (Result E)) (p : Host E × Job E) : Host E × Job E :=
  (p.1, p.2.recast t w)

theorem recast_seat : (j.recast t w).seat = j.seat := rfl

/-! ### Work -/

theorem act_recast {x : HostAction E α} {next next' : Host E → α → Host E × Job E}
    (hnext : ∀ h a, next' h a = recastAfter t w (next h a)) :
    (j.recast t w).act h x next' = recastAfter t w (j.act h x next) := by
  rw [act, act, recast_seat]
  rcases x j.seat h with ⟨e | a, h'⟩
  · rfl
  · exact hnext h' a

theorem answer_recast (reply : Reply E) :
    (j.recast t w).answer h reply = recastAfter t w (j.answer h reply) := by
  cases reply <;> rfl

theorem native_recast (f : Native) (this : E.Value) (args : List E.Value) :
    (j.recast t w).native h f this args = recastAfter t w (j.native h f this args) :=
  act_recast fun _ reply => answer_recast reply

theorem call_recast (f this : E.Value) (args : List E.Value) :
    (j.recast t w).call h f this args = recastAfter t w (j.call h f this args) := by
  rw [call, call, recast_seat]
  rcases E.call j.seat f this args h.engines with ⟨s | f | v, engines⟩
  · rfl
  · exact native_recast f this args
  · rfl

theorem render_recast (r : Rendering E.Value) :
    (j.recast t w).render h r = recastAfter t w (j.render h r) := by
  rw [render, render]
  rcases r.pieces with _ | ⟨s | ⟨d, v⟩, pieces⟩
  · rw [finishRendering, finishRendering]
    cases r.sink <;> rfl
  · rfl
  · dsimp only
    cases Rendering.form E h.engines v d with
    | text s => rfl
    | stringified =>
      dsimp only
      rw [recast_seat]
      rcases Rendering.stringifier E j.seat h.engines with ⟨_ | ⟨json, f⟩, engines⟩
      · rfl
      · exact call_recast (j := j.push (.rendering { r with pieces } v) j.focus) f json [v]

theorem enterLoaded_recast (l : Loading E.Value) :
    (j.recast t w).enterLoaded h l = recastAfter t w (j.enterLoaded h l) := by
  rw [enterLoaded, enterLoaded]
  refine act_recast fun h _ => ?_
  cases l.cache? h with
  | none => rfl
  | some h => exact act_recast fun _ _ => rfl

theorem resume_recast (frame : Frame E) (r : Result E) :
    (j.recast t w).resume h frame r = recastAfter t w (j.resume h frame r) := by
  cases frame with
  | script rest => rfl
  | rendering rendering v => rfl
  | module l =>
    rw [resume, resume]
    refine act_recast fun h _ => ?_
    cases r with
    | error e => rfl
    | ok v => exact enterLoaded_recast l

/-- A step of a job at work does not depend on its task and on what waits. -/
theorem step_recast (hf : j.focus.IsWork) (hd : j.isDone = false) :
    (j.recast t w).step h = recastAfter t w (j.step h) := by
  obtain ⟨seat, task, waiting, stack, focus⟩ := j
  cases focus with
  | take => exact hf.elim
  | «over» o => exact hf.elim
  | rendering r => exact render_recast (j := ⟨seat, task, waiting, stack, .rendering r⟩) r
  | script s =>
    simp only [step, recast]
    rcases E.step seat s h.engines with ⟨s' | v | v | ⟨f, this, args, rest⟩, engines⟩
    · rfl
    · rfl
    · rfl
    · exact native_recast (j := push ⟨seat, task, waiting, stack, .script s⟩ (.script rest) _)
        f this args
  | result r =>
    cases stack with
    | nil => cases hd
    | cons frame stack =>
      exact resume_recast (j := ⟨seat, task, waiting, stack, .result r⟩) frame r

/-- A job whose work is not done keeps its task, and what waits goes on waiting. -/
theorem step_keeps (hf : j.focus.IsWork) (hd : j.isDone = false) :
    (j.step h).2.task = j.task ∧ (j.step h).2.waiting = j.waiting := by
  have H : j.step h = recastAfter j.task j.waiting (j.step h) := step_recast hf hd
  exact ⟨congrArg (fun p => p.2.task) H, congrArg (fun p => p.2.waiting) H⟩

/-- A job whose work is not done works on, or the host has broken a rule. -/
theorem step_work (hf : j.focus.IsWork) (hd : j.isDone = false) :
    (j.step h).2.focus.IsWork ∨ ¬(j.step h).2.Unbroken := by
  have hnot (hf' : j.focus = .take ∨ j.IsOver) : False := by
    rcases hf' with hf' | ⟨o, hf'⟩ <;> rw [hf'] at hf <;> exact hf
  have hdone {r : Result E} (hf' : j.focus = .result r) (hs : j.stack = []) : False := by
    rw [isDone, hf', hs] at hd
    cases hd
  have H := j.step_advances h
  generalize j.step h = p at H
  cases H with
  | stays hf' => exact (hnot (.inr hf')).elim
  | renders => exact .inl (render_above ..).work
  | calls => exact .inl (native_above ..).work
  | runs | ends => exact .inl trivial
  | resumes hf' hs => exact (resume_above ..).imp_left Above.work
  | concludes hf' hs | proceeds hf' hs => exact (hdone hf' hs).elim
  | _ hf' => exact (hnot (.inl hf')).elim

end Job

/-! ### Counts -/

/-- The task with `c` notifications more taken in its pass. -/
def Task.counting (c : Nat) : Task → Task
  | .pass owner now taken => .pass owner now (taken + c)
  | task => task

/-- The outcome with `c` notifications more. -/
def Outcome.counting {V : Type} (c : Nat) : Outcome V → Outcome V
  | .handled count => .handled (count + c)
  | o => o

/-- The same focus, but for an outcome with `c` notifications more. -/
def Focus.counting (c : Nat) : Focus E → Focus E
  | .over o => .over (o.counting c)
  | focus => focus

theorem Focus.counting_of_work {c : Nat} {focus : Focus E} (hf : focus.IsWork) :
    focus.counting c = focus := by
  cases focus with
  | «over» o => exact hf.elim
  | _ => rfl

namespace Job

variable {h : Host E} {j : Job E} {c : Nat}

/-- The job, had it taken `c` notifications more in its pass. -/
def counting (c : Nat) (j : Job E) : Job E :=
  { j with task := j.task.counting c, focus := j.focus.counting c }

/-- What a step comes to if the count of the job is changed after it. -/
def countingAfter (c : Nat) (p : Host E × Job E) : Host E × Job E := (p.1, p.2.counting c)

theorem counting_eq_recast (hf : j.focus.IsWork ∨ j.focus = .take) :
    j.counting c = j.recast (j.task.counting c) j.waiting := by
  have hfocus : j.focus.counting c = j.focus :=
    hf.elim Focus.counting_of_work fun hf => by rw [hf]; rfl
  rw [counting, recast, hfocus]

/-- A result is no count. -/
theorem counting_outcome (t : Task) (r : Result E) :
    (Focus.over (outcome t r) : Focus E).counting c = .over (outcome (t.counting c) r) := by
  cases r with
  | error e => rfl
  | ok v =>
    cases t with
    | require main =>
      cases main with
      | none => rfl
      | some id =>
        simp only [outcome, Task.counting]
        split <;> rfl
    | _ => rfl

/-- The callback of a notification is called whatever the task and what waits. -/
theorem deliver_recast {t : Task} {w : Option (Result E)} (owner : RuntimeId) (n : Notification)
    (stale : Focus E) : (j.recast t w).deliver h owner n stale =
      recastAfter t w (j.deliver h owner n stale) := by
  rw [deliver, deliver]
  rcases h.takeCallback owner n with ⟨_ | callback, h'⟩
  · rfl
  · exact call_recast ..

theorem deliver_waiting (h : Host E) (j : Job E) (owner : RuntimeId) (n : Notification)
    (stale : Focus E) : (j.deliver h owner n stale).2.waiting = j.waiting := by
  rw [deliver]
  split
  · rfl
  · exact (call_above ..).waiting_eq

theorem deliver_counting (owner : RuntimeId) (n : Notification) :
    ({ j with task := j.task.counting c } : Job E).deliver h owner n .take =
      countingAfter c (j.deliver h owner n .take) := by
  have H : (j.recast (j.task.counting c) j.waiting).deliver h owner n .take = _ :=
    deliver_recast owner n .take
  have hwork : (j.deliver h owner n .take).2.focus.IsWork ∨
      (j.deliver h owner n .take).2.focus = .take := deliver_work_or ..
  refine H.trans (Prod.ext rfl ?_)
  rw [countingAfter, counting_eq_recast hwork, recastAfter, deliver_task, deliver_waiting]

theorem rest_counting {owner : RuntimeId} {now limit : Time}
    (ht : j.task = .loop owner (some now) limit) (hf : j.focus = .take) :
    j.rest h owner limit = countingAfter c (j.rest h owner limit) := by
  obtain ⟨seat, task, waiting, stack, focus⟩ := j
  obtain rfl : task = .loop owner (some now) limit := ht
  obtain rfl : focus = .take := hf
  rw [rest]
  split
  · rfl
  · dsimp only
    split
    · rfl
    · split <;> rfl

/-- A notification is taken whatever the count. -/
theorem takeNext_counting (hf : j.focus = .take) :
    (j.counting c).takeNext h = countingAfter c (j.takeNext h) := by
  obtain ⟨seat, task, waiting, stack, focus⟩ := j
  obtain rfl : focus = .take := hf
  cases task with
  | pass owner now taken =>
    simp only [takeNext, counting, Task.counting]
    cases h.takeNext owner now with
    | none => rfl
    | some p =>
      have htaken : taken + c + 1 = taken + 1 + c := Nat.add_right_comm ..
      rw [htaken]
      exact deliver_counting (j := ⟨seat, .pass owner now (taken + 1), waiting, stack, .take⟩) ..
  | loop owner now limit =>
    cases now with
    | none => rfl
    | some now =>
      simp only [takeNext, counting, Task.counting]
      cases h.takeNext owner now with
      | none => exact rest_counting rfl rfl
      | some p =>
        exact deliver_counting (j := ⟨seat, .loop owner (some now) limit, waiting, stack, .take⟩) ..
  | _ => rfl

theorem conclude_counting {r : Result E} (hf : j.focus = .result r) :
    (j.counting c).conclude h r = countingAfter c (j.conclude h r) := by
  obtain ⟨seat, task, waiting, stack, focus⟩ := j
  obtain rfl : focus = .result r := hf
  cases task with
  | evaluate => cases r <;> rfl
  | _ => rfl

theorem proceed_counting {r w : Result E} (hf : j.focus = .result r) :
    (j.counting c).proceed h w = countingAfter c (j.proceed h w) := by
  obtain ⟨seat, task, waiting, stack, focus⟩ := j
  obtain rfl : focus = .result r := hf
  cases task with
  | require main =>
    rw [countingAfter, counting]
    exact Prod.ext rfl (congrArg (Job.mk seat (.require main) none stack)
      (counting_outcome (.require main) w).symm)
  | _ => cases w <;> rfl

/-- No step depends on the number of notifications that a job has taken. -/
theorem step_counting (h : Host E) (j : Job E) :
    (j.counting c).step h = countingAfter c (j.step h) := by
  by_cases hwork : j.focus.IsWork ∧ j.isDone = false
  · obtain ⟨hf, hd⟩ := hwork
    obtain ⟨htask, hwaiting⟩ := step_keeps (h := h) hf hd
    have hafter : (j.step h).2.focus.counting c = (j.step h).2.focus := by
      rcases step_work (h := h) hf hd with hf' | hbroken
      · exact Focus.counting_of_work hf'
      · obtain ⟨message, hf'⟩ := not_forall_not.1 hbroken
        rw [hf']
        rfl
    rw [counting_eq_recast (.inl hf), step_recast hf hd]
    rw [recastAfter, countingAfter, counting, recast, hafter, htask, hwaiting]
  have hf₀ : (j.counting c).focus = j.focus.counting c := rfl
  cases hf : j.focus with
  | take =>
    rw [step, hf₀, hf, step, hf]
    exact takeNext_counting hf
  | «over» o =>
    rw [step, hf₀, hf, step, hf]
    rfl
  | result r =>
    cases hs : j.stack with
    | cons frame stack =>
      exact absurd ⟨by rw [hf]; trivial, isDone_of_stack (by simp [hs])⟩ hwork
    | nil =>
      have hs₀ : (j.counting c).stack = [] := hs
      have hw₀ : (j.counting c).waiting = j.waiting := rfl
      rw [step, hf₀, hf, step, hf]
      dsimp only [Focus.counting]
      rw [hs₀, hs]
      dsimp only
      rw [hw₀]
      cases j.waiting with
      | none => exact conclude_counting hf
      | some w => exact proceed_counting hf
  | rendering r => exact absurd ⟨by rw [hf]; trivial, by rw [isDone, hf]⟩ hwork
  | script s => exact absurd ⟨by rw [hf]; trivial, isDone_of_script hf⟩ hwork

end Job

end ScriptHost
