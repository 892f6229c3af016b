import ScriptHost.Proofs.Host.Steps

/-!
# The course of a job

A job takes notifications, works, has its microtasks run, and ends. While it works, all that calls
and results do is put frames on its stack and take them off again; its task and the result that
waits stay as they are. It is only with an empty stack that the result of its work leads on.

## Main definitions

* `Focus.IsWork`: scripts, renderings and results.
* `Job.Above`: a job works on, above the stack that it had.
* `Job.Advances`: where a step of a job leads, by where the job is.

## Main results

* `Job.step_advances`: every step leads where `Job.Advances` says.
* `Job.exited_spec`: when a job leaves the event loop with an exit code.
-/

namespace ScriptHost

variable {E : Engine} {α : Type}

/-- Scripts, renderings and results are work. -/
def Focus.IsWork : Focus E → Prop
  | .script _ | .rendering _ | .result _ => True
  | .take | .over _ => False

/-- A job has ended. -/
def Job.IsOver (j : Job E) : Prop := ∃ o, j.focus = .over o

namespace Job

variable {h h' : Host E} {j j' : Job E}

/-- A job works on, above the stack that it had. -/
structure Above (j j' : Job E) : Prop where
  seat_eq : j'.seat = j.seat
  task_eq : j'.task = j.task
  waiting_eq : j'.waiting = j.waiting
  stack_suffix : j.stack <:+ j'.stack
  work : j'.focus.IsWork

/-! ### Work -/

theorem above_turnTo (j : Job E) {focus : Focus E} (hf : focus.IsWork) :
    j.Above (j.turnTo focus) :=
  ⟨rfl, rfl, rfl, List.suffix_rfl, hf⟩

theorem above_push (j : Job E) (frame : Frame E) {focus : Focus E} (hf : focus.IsWork) :
    j.Above (j.push frame focus) :=
  ⟨rfl, rfl, rfl, List.suffix_cons .., hf⟩

/-- What is above the stack with one more frame is above the stack. -/
theorem Above.of_push {frame : Frame E} {focus : Focus E} (H : (j.push frame focus).Above j') :
    j.Above j' :=
  ⟨H.seat_eq, H.task_eq, H.waiting_eq, (List.suffix_cons ..).trans H.stack_suffix, H.work⟩

theorem act_above {x : HostAction E α} {next : Host E → α → Host E × Job E}
    (hnext : ∀ h a, j.Above (next h a).2) : j.Above (j.act h x next).2 := by
  rw [act]
  split
  · exact hnext ..
  · exact j.above_turnTo trivial

theorem answer_above (h : Host E) (j : Job E) (reply : Reply E) :
    j.Above (j.answer h reply).2 := by
  cases reply with
  | value v => exact j.above_turnTo trivial
  | render r => exact j.above_turnTo trivial
  | evaluate l scope => exact j.above_push _ trivial

theorem native_above (h : Host E) (j : Job E) (f : Native) (this : E.Value)
    (args : List E.Value) : j.Above (j.native h f this args).2 :=
  act_above fun h reply => answer_above h j reply

theorem call_above (h : Host E) (j : Job E) (f this : E.Value) (args : List E.Value) :
    j.Above (j.call h f this args).2 := by
  rw [call]
  split
  · exact j.above_turnTo trivial
  · exact native_above ..
  · exact j.above_turnTo trivial

theorem render_above (h : Host E) (j : Job E) (r : Rendering E.Value) :
    j.Above (j.render h r).2 := by
  rw [render]
  split
  · rw [finishRendering]
    split <;> exact j.above_turnTo trivial
  · exact j.above_turnTo trivial
  · dsimp only
    split
    · exact j.above_turnTo trivial
    · split
      · exact j.above_turnTo trivial
      · exact (call_above ..).of_push

/-- A job that has entered a module as loaded works on, or the host has broken a rule. -/
theorem enterLoaded_above (h : Host E) (j : Job E) (l : Loading E.Value) :
    j.Above (j.enterLoaded h l).2 ∨ ¬(j.enterLoaded h l).2.Unbroken := by
  rw [enterLoaded, act]
  split
  · split
    · exact .inr fun hu => hu _ rfl
    · exact .inl (act_above fun _ _ => j.above_turnTo trivial)
  · exact .inl (j.above_turnTo trivial)

/-- A job whose result goes to a frame works on, or the host has broken a rule. -/
theorem resume_above (h : Host E) (j : Job E) (frame : Frame E) (r : Result E) :
    j.Above (j.resume h frame r).2 ∨ ¬(j.resume h frame r).2.Unbroken := by
  cases frame with
  | script rest => exact .inl (j.above_turnTo trivial)
  | rendering rendering v => exact .inl (j.above_turnTo trivial)
  | module l =>
    rw [resume, act]
    split
    · cases r with
      | error e => exact .inl (j.above_turnTo trivial)
      | ok v => exact enterLoaded_above ..
    · exact .inl (j.above_turnTo trivial)

theorem resume_above_of_unbroken {frame : Frame E} {r : Result E}
    (hu : (j.resume h frame r).2.Unbroken) : j.Above (j.resume h frame r).2 :=
  (resume_above h j frame r).resolve_right (not_not_intro hu)

/-! ### Steps -/

/-- Where a step of a job leads, by where the job is. -/
inductive Advances (h : Host E) (j : Job E) : Host E × Job E → Prop
  /-- It has ended. -/
  | stays (hf : j.IsOver) : Advances h j (h, j)
  /-- It begins a pass of the event loop. -/
  | begins {owner : RuntimeId} {limit : Time} (hf : j.focus = .take)
      (ht : j.task = .loop owner none limit) :
      Advances h j (h, { j with task := .loop owner (some h.platform.clock) limit })
  /-- A notification is taken in a pass. Its callback is called, or it is passed over. -/
  | hands {owner : RuntimeId} {now : Time} {n : Notification} {h₁ : Host E}
      (hf : j.focus = .take) (hp : j.pass? = some (owner, now))
      (hn : h.takeNext owner now = some (n, h₁)) :
      Advances h j (j.counted.deliver h₁ owner n .take)
  /-- Nothing is ready any more in a pass of the event loop. -/
  | rests {owner : RuntimeId} {now limit : Time} (hf : j.focus = .take)
      (ht : j.task = .loop owner (some now) limit) (hn : h.takeNext owner now = none) :
      Advances h j (j.rest h owner limit)
  /-- Nothing is ready any more in another pass. -/
  | finishes {owner : RuntimeId} {now : Time} {taken : Nat} (hf : j.focus = .take)
      (ht : j.task = .pass owner now taken) (hn : h.takeNext owner now = none) :
      Advances h j (h, j.turnTo (.over (.handled taken)))
  /-- It has nothing to take. -/
  | skips (hf : j.focus = .take) (hp : ∀ owner now taken, j.task ≠ .pass owner now taken)
      (hl : ∀ owner now limit, j.task ≠ .loop owner now limit) :
      Advances h j (h, j.turnTo (.over .delivered))
  /-- It renders. -/
  | renders {r : Rendering E.Value} (hf : j.focus = .rendering r) : Advances h j (j.render h r)
  /-- Its script runs on. -/
  | runs {s s' : E.Script} {engines : E.State} (hf : j.focus = .script s)
      (hs : E.step j.seat s h.engines = (.running s', engines)) :
      Advances h j ({ h with engines }, j.turnTo (.script s'))
  /-- Its script calls a native function. -/
  | calls {s rest : E.Script} {f : Native} {this : E.Value} {args : List E.Value}
      {engines : E.State} (hf : j.focus = .script s)
      (hs : E.step j.seat s h.engines = (.native f this args rest, engines)) :
      Advances h j ((j.push (.script rest) j.focus).native { h with engines } f this args)
  /-- Its script ends with a value or by a throw. -/
  | ends {s : E.Script} {engines : E.State} {r : Result E} (hf : j.focus = .script s)
      (hs : (∃ v, E.step j.seat s h.engines = (.returned v, engines) ∧ r = .ok v) ∨
        ∃ v, E.step j.seat s h.engines = (.threw v, engines) ∧ r = .error (.thrown v)) :
      Advances h j ({ h with engines }, j.turnTo (.result r))
  /-- Its result goes to what waits for it. -/
  | resumes {r : Result E} {frame : Frame E} {stack : List (Frame E)} (hf : j.focus = .result r)
      (hs : j.stack = frame :: stack) : Advances h j ({ j with stack }.resume h frame r)
  /-- It has come to the end of its work. -/
  | concludes {r : Result E} (hf : j.focus = .result r) (hs : j.stack = [])
      (hw : j.waiting = none) : Advances h j (j.conclude h r)
  /-- Its microtasks have run. -/
  | proceeds {r w : Result E} (hf : j.focus = .result r) (hs : j.stack = [])
      (hw : j.waiting = some w) : Advances h j (j.proceed h w)

theorem takeNext_advances (hf : j.focus = .take) : Advances h j (j.takeNext h) := by
  cases ht : j.task with
  | pass owner now taken =>
    have hp : j.pass? = some (owner, now) := by rw [pass?, ht]
    cases hn : h.takeNext owner now with
    | none =>
      simp only [takeNext, ht, hn]
      exact .finishes hf ht hn
    | some p =>
      rw [takeNext_eq_deliver hp hn]
      exact .hands hf hp hn
  | loop owner now limit =>
    cases now with
    | none =>
      simp only [takeNext, ht]
      exact .begins hf ht
    | some now =>
      have hp : j.pass? = some (owner, now) := by rw [pass?, ht]; rfl
      cases hn : h.takeNext owner now with
      | none =>
        simp only [takeNext, ht, hn]
        exact .rests hf ht hn
      | some p =>
        rw [takeNext_eq_deliver hp hn]
        exact .hands hf hp hn
  | _ =>
    simp only [takeNext, ht]
    exact .skips hf (by simp [ht]) (by simp [ht])

/-- Every step of a job leads where it is said to. -/
theorem step_advances (h : Host E) (j : Job E) : Advances h j (j.step h) := by
  cases hf : j.focus with
  | take =>
    rw [step, hf]
    exact takeNext_advances hf
  | «over» o =>
    rw [step, hf]
    exact .stays ⟨o, hf⟩
  | rendering r =>
    rw [step, hf]
    exact .renders hf
  | script s =>
    rcases hs : E.step j.seat s h.engines with ⟨s' | v | v | ⟨f, this, args, rest⟩, engines⟩
    · simp only [step, hf, hs]
      exact .runs hf hs
    · simp only [step, hf, hs]
      exact .ends hf (.inl ⟨v, hs, rfl⟩)
    · simp only [step, hf, hs]
      exact .ends hf (.inr ⟨v, hs, rfl⟩)
    · simp only [step, hf, hs]
      exact hf ▸ .calls hf hs
  | result r =>
    cases hs : j.stack with
    | cons frame stack =>
      simp only [step, hf, hs]
      exact hf ▸ .resumes hf hs
    | nil =>
      cases hw : j.waiting with
      | none =>
        simp only [step, hf, hs, hw]
        exact .concludes hf hs hw
      | some w =>
        simp only [step, hf, hs, hw]
        exact .proceeds hf hs hw

/-! ### Leaving the event loop -/

theorem deliver_work_or (h : Host E) (j : Job E) (owner : RuntimeId) (n : Notification)
    (stale : Focus E) : (j.deliver h owner n stale).2.focus.IsWork ∨
      (j.deliver h owner n stale).2.focus = stale := by
  rw [deliver]
  split
  · exact .inr rfl
  · exact .inl (call_above ..).work

theorem outcome_ne_exited (task : Task) (r : Result E) (code : Int) :
    outcome task r ≠ .exited code := by
  rcases outcome_cases task r with ⟨v, h⟩ | h | ⟨e, h⟩ <;> rw [h] <;> rintro ⟨⟩

theorem rest_of_exited {owner : RuntimeId} {limit : Time} {code : Int}
    (he : (j.rest h owner limit).2.focus = .over (.exited code)) :
    ∃ r, h.runtimes.get? owner = some r ∧ code = r.exitStatus ∧ (j.rest h owner limit).1 = h ∧
      (r.loop.stopped = true ∨ r.config.exitWhenIdle = true ∧ r.loop.isIdle = true) := by
  rw [rest] at he ⊢
  cases hr : h.runtimes.get? owner with
  | none => rw [hr] at he; cases he
  | some r =>
    rw [hr] at he
    dsimp only at he ⊢
    split at he
    · next hleave =>
      rw [if_pos hleave]
      cases he
      exact ⟨r, rfl, rfl, rfl, by simpa using hleave⟩
    · split at he <;> cases he

/-- A job leaves the event loop of a runtime with an exit code only in a pass in which nothing is
ready any more, and then only if the loop has been asked to stop, or is idle and may be left then.
-/
theorem exited_spec {code : Int} (hj : ¬j.IsOver)
    (he : (j.step h).2.focus = .over (.exited code)) :
    ∃ owner now limit r, j.task = .loop owner (some now) limit ∧
      h.runtimes.get? owner = some r ∧ code = r.exitStatus ∧ (j.step h).1 = h ∧
      (r.loop.stopped = true ∨ r.config.exitWhenIdle = true ∧ r.loop.isIdle = true) := by
  have H := j.step_advances h
  have habove {j₁ j' : Job E} (H : j₁.Above j') : j'.focus ≠ .over (.exited code) := by
    intro hf
    have hw := H.work
    rw [hf] at hw
    exact hw
  generalize j.step h = p at H he
  cases H with
  | stays hf => exact absurd hf hj
  | begins hf _ => exact nomatch hf.symm.trans he
  | hands =>
    rcases deliver_work_or _ _ _ _ _ with hw | hstale
    · rw [he] at hw
      exact hw.elim
    · exact nomatch hstale.symm.trans he
  | @rests owner now limit _ ht _ =>
    obtain ⟨r, hr, hcode, hh, hleave⟩ := rest_of_exited he
    exact ⟨owner, now, limit, r, ht, hr, hcode, hh, hleave⟩
  | finishes => cases he
  | skips => cases he
  | renders => exact absurd he (habove (render_above ..))
  | runs => cases he
  | calls => exact absurd he (habove (native_above ..))
  | ends => cases he
  | @resumes r frame stack =>
    rcases resume_above h { j with stack } frame r with H | hbroken
    · exact absurd he (habove H)
    · refine (hbroken fun message hm => ?_).elim
      exact nomatch he.symm.trans hm
  | concludes =>
    rw [conclude] at he
    split at he
    · exact absurd (Focus.over.inj he) (outcome_ne_exited _ _ _)
    all_goals cases he
  | proceeds =>
    unfold proceed at he
    dsimp only at he
    split at he
    · cases he
    · cases he
    · exact absurd (Focus.over.inj he) (outcome_ne_exited _ _ _)

end Job

end ScriptHost
