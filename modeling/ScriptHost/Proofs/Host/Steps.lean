import ScriptHost.Host.Job
import ScriptHost.Proofs.Host.Within

/-!
# What a step of a job does

Most steps leave the runtimes of a host alone or call one native function. The others are a few: a
job takes a notification, begins a pass of the event loop, waits for the next one, or has come to
the end of the body of a module. What is to be shown of every step is shown of these kinds of steps.

## Main definitions

* `Job.loadings`: the modules whose bodies a job is evaluating, innermost first.
* `Job.pass?`: the pass that a job is in; `Job.begins?`: the one that it begins in its next step.
* `Job.handed?`: the notification that a job is handed in its next step.
* `Invocation`, `Job.invocation?`: the native function that a job calls in its next step.
* `Job.GoesOn`: what a job does that neither takes a notification nor ends the body of a module.
* `Job.Steps`: the kinds of steps.

## Main results

* `Job.step_steps`: every step is of one of these kinds.
* `Job.step_pass?`: after a step a job is in the pass in which it was, in none, or in one that it
  has begun at the clock.
-/

namespace ScriptHost

variable {E : Engine}

open Host

/-- The module whose body a frame waits for. -/
def Frame.loading? : Frame E → Option (Loading E.Value)
  | .module l => some l
  | _ => none

/-- A call of a native function by a job. -/
structure Invocation (E : Engine) where
  /-- The host in which it is called. -/
  host : Host E
  /-- The job that waits for its result. -/
  job : Job E
  /-- The function. -/
  native : Native
  /-- The value of `this`. -/
  this : E.Value
  /-- The arguments. -/
  args : List E.Value

/-- What a call of a native function leads to. -/
def Invocation.perform (v : Invocation E) : Host E × Job E :=
  v.job.native v.host v.native v.this v.args

namespace Job

/-- The modules whose bodies a job is evaluating, innermost first. -/
def loadings (j : Job E) : List (Loading E.Value) := j.stack.filterMap Frame.loading?

/-- The host has not broken a rule of its own. -/
def Unbroken (j : Job E) : Prop := ∀ message, j.focus ≠ .over (.broken message)

/-- The pass that a job is in: its runtime and its time. -/
def pass? (j : Job E) : Option (RuntimeId × Time) :=
  match j.task with
  | .pass owner now _ => some (owner, now)
  | .loop owner now _ => now.map fun now => (owner, now)
  | _ => none

/-- The runtime whose pass a job begins in its next step. -/
def begins? (j : Job E) : Option RuntimeId :=
  match j.focus, j.task with
  | .take, .loop owner none _ => some owner
  | _, _ => none

/-- The notification that the loop of a runtime hands out to a job in its next step, with the time
of the pass. -/
def handed? (h : Host E) (j : Job E) (id : RuntimeId) : Option (Time × Notification) :=
  match j.focus, j.pass? with
  | .take, some (owner, now) =>
    if owner = id then (h.takeNext owner now).map fun p => (now, p.1) else none
  | _, _ => none

variable {h h₁ : Host E} {j j₁ : Job E} {p : Host E × Job E}

/-! ### The pass of a job -/

theorem pass?_eq_of_task (ht : j₁.task = j.task) : j₁.pass? = j.pass? := by
  rw [pass?, pass?, ht]

/-- A job that is in a pass does not begin one. -/
theorem begins?_of_pass? {owner : RuntimeId} {now : Time} (hp : j.pass? = some (owner, now)) :
    j.begins? = none := by
  rw [begins?]
  split
  · next ht =>
    simp only [pass?, ht] at hp
    cases hp
  · rfl

theorem handed?_of_focus (hf : j.focus ≠ .take) : j.handed? h = fun _ => none := by
  funext id
  rw [handed?]
  split
  · next htake _ => exact absurd htake hf
  · rfl

theorem handed?_of_pass {id : RuntimeId} (hp : ∀ now, j.pass? ≠ some (id, now)) :
    j.handed? h id = none := by
  rw [handed?]
  split
  · next owner now _ hpass =>
    rw [if_neg]
    rintro rfl
    exact hp now hpass
  · rfl

theorem handed?_eq (hf : j.focus = .take) {owner : RuntimeId} {now : Time}
    (hp : j.pass? = some (owner, now)) : j.handed? h = fun id =>
      if owner = id then (h.takeNext owner now).map fun p => (now, p.1) else none := by
  funext id
  simp only [handed?, hf, hp]

/-- A notification is handed to a job in a pass, by a runtime that is there. -/
theorem pass?_of_handed? {id : RuntimeId} {now : Time} {n : Notification}
    (hn : j.handed? h id = some (now, n)) :
    j.pass? = some (id, now) ∧ ∃ r, h.runtimes.get? id = some r := by
  rw [handed?] at hn
  split at hn
  · next owner now' _ hp =>
    split at hn
    · next hid =>
      subst hid
      obtain ⟨⟨n', h'⟩, ht, he⟩ := Option.map_eq_some_iff.1 hn
      obtain ⟨rfl, -⟩ := Prod.mk.inj he
      obtain ⟨r, hr, -⟩ := Option.bind_eq_some_iff.1 ht
      exact ⟨hp, r, hr⟩
    · cases hn
  · cases hn

/-! ### Native calls -/

/-- The call of a native function that calling a value is. -/
def calls? (h : Host E) (j : Job E) (f this : E.Value) (args : List E.Value) :
    Option (Invocation E) :=
  match E.call j.seat f this args h.engines with
  | (.native g, engines) => some ⟨{ h with engines }, j, g, this, args⟩
  | _ => none

/-- The call of a native function in rendering the next piece. -/
def renders? (h : Host E) (j : Job E) (r : Rendering E.Value) : Option (Invocation E) :=
  match r.pieces with
  | .argument d v :: pieces =>
    match Rendering.form E h.engines v d, Rendering.stringifier E j.seat h.engines with
    | .stringified, (some (json, f), engines) =>
      (j.push (.rendering { r with pieces } v) j.focus).calls? { h with engines } f json [v]
    | _, _ => none
  | _ => none

/-- The call of a native function in delivering a notification. -/
def delivers? (h : Host E) (j : Job E) (owner : RuntimeId) (n : Notification) :
    Option (Invocation E) :=
  match h.takeCallback owner n with
  | (none, _) => none
  | (some callback, h) => j.calls? h callback (E.globalObject j.seat h.engines) []

/-- The job once it has taken one notification more. -/
def counted (j : Job E) : Job E :=
  match j.task with
  | .pass owner now taken => { j with task := .pass owner now (taken + 1) }
  | _ => j

theorem counted_focus (j : Job E) : j.counted.focus = j.focus := by
  rw [counted]
  split <;> rfl

theorem counted_pass? (j : Job E) : j.counted.pass? = j.pass? := by
  rw [counted]
  split
  · next ht => rw [pass?, pass?, ht]
  · rfl

theorem counted_loadings (j : Job E) : j.counted.loadings = j.loadings := by
  rw [counted]
  split <;> rfl

/-- The native function that a job calls in its next step. -/
def invocation? (h : Host E) (j : Job E) : Option (Invocation E) :=
  match j.focus, j.pass? with
  | .script s, _ =>
    match E.step j.seat s h.engines with
    | (.native f this args rest, engines) =>
      some ⟨{ h with engines }, j.push (.script rest) j.focus, f, this, args⟩
    | _ => none
  | .rendering r, _ => j.renders? h r
  | .take, some (owner, now) =>
    (h.takeNext owner now).bind fun p => j.counted.delivers? p.2 owner p.1
  | _, _ => none

theorem invocation?_of_result {r : Result E} (hf : j.focus = .result r) :
    j.invocation? h = none := by
  simp only [invocation?, hf]

theorem invocation?_of_take (hf : j.focus = .take) {owner : RuntimeId} {now : Time}
    (hp : j.pass? = some (owner, now)) :
    j.invocation? h = (h.takeNext owner now).bind fun p => j.counted.delivers? p.2 owner p.1 := by
  simp only [invocation?, hf, hp]

theorem invocation?_of_pass (hf : j.focus = .take) (hp : j.pass? = none) :
    j.invocation? h = none := by
  simp only [invocation?, hf, hp]

/-! ### Going on -/

/-- The same job as far as its task and the modules that it is evaluating go. -/
structure Keeps (j j' : Job E) : Prop where
  task : j'.task = j.task
  loadings : j'.loadings = j.loadings

/-- What a job does that neither takes a notification nor ends the body of a module, with the native
function that it calls. -/
inductive GoesOn (h : Host E) (j : Job E) : Option (Invocation E) → Host E × Job E → Prop
  /-- It leaves the runtimes alone. -/
  | aside {h' : Host E} {j' : Job E} (hh : h.Aside h') (hj : j.Keeps j')
      (hu : j.Unbroken → j'.Unbroken) : GoesOn h j none (h', j')
  /-- It calls a native function. -/
  | native {v : Invocation E} (hh : h.Aside v.host) (hj : j.Keeps v.job) :
      GoesOn h j (some v) v.perform

namespace GoesOn

variable {o : Option (Invocation E)}

/-- What a job goes on with after it has left the runtimes alone. -/
theorem of_aside (H : GoesOn h₁ j₁ o p) (hh : h.Aside h₁) (hj : j.Keeps j₁)
    (hu : j.Unbroken → j₁.Unbroken) : GoesOn h j o p := by
  cases H with
  | aside hh' hj' hu' =>
    exact .aside (trans_of Aside hh hh')
      ⟨hj'.task.trans hj.task, hj'.loadings.trans hj.loadings⟩ fun h => hu' (hu h)
  | native hh' hj' =>
    exact .native (trans_of Aside hh hh')
      ⟨hj'.task.trans hj.task, hj'.loadings.trans hj.loadings⟩

theorem turnTo (hh : h.Aside h₁) {focus : Focus E}
    (hf : ∀ message, focus ≠ .over (.broken message)) : GoesOn h j none (h₁, j.turnTo focus) :=
  .aside hh ⟨rfl, rfl⟩ fun _ => hf

end GoesOn

theorem call_goesOn (h : Host E) (j : Job E) (f this : E.Value) (args : List E.Value) :
    GoesOn h j (j.calls? h f this args) (j.call h f this args) := by
  rw [call, calls?]
  rcases E.call j.seat f this args h.engines with ⟨s | g | v, engines⟩
  · exact .turnTo (h.aside_engines _) (by rintro _ ⟨⟩)
  · exact .native (v := ⟨{ h with engines }, j, g, this, args⟩) (h.aside_engines _) ⟨rfl, rfl⟩
  · exact .turnTo (h.aside_engines _) (by rintro _ ⟨⟩)

theorem render_goesOn (h : Host E) (j : Job E) (r : Rendering E.Value) :
    GoesOn h j (j.renders? h r) (j.render h r) := by
  have hrefl : h.Aside h := refl_of Aside h
  rw [render, renders?]
  rcases r.pieces with _ | ⟨s | ⟨d, v⟩, pieces⟩
  · change GoesOn h j none (j.finishRendering h r)
    rw [finishRendering]
    split
    · exact .turnTo hrefl (by rintro _ ⟨⟩)
    · next stream _ =>
      refine .turnTo ⟨h.engines, h.platform.print stream r.text, ?_, rfl⟩ (by rintro _ ⟨⟩)
      cases stream <;> rfl
  · exact .turnTo hrefl (by rintro _ ⟨⟩)
  · dsimp only
    rcases Rendering.form E h.engines v d with text | _
    · exact .turnTo hrefl (by rintro _ ⟨⟩)
    · rcases Rendering.stringifier E j.seat h.engines with ⟨_ | ⟨json, f⟩, engines⟩
      · exact .turnTo (h.aside_engines _) (by rintro _ ⟨⟩)
      · exact (call_goesOn ..).of_aside (h.aside_engines _) ⟨rfl, rfl⟩ id

theorem deliver_goesOn (h : Host E) (j : Job E) (owner : RuntimeId) (n : Notification)
    {stale : Focus E} (hs : ∀ message, stale ≠ .over (.broken message)) :
    GoesOn (h.takeCallback owner n).2 j (j.delivers? h owner n) (j.deliver h owner n stale) := by
  rw [deliver, delivers?]
  rcases h.takeCallback owner n with ⟨_ | callback, h'⟩
  · exact .turnTo (refl_of Aside h') hs
  · exact call_goesOn ..

theorem notify_goesOn (h : Host E) (seat : Seat) (owner : RuntimeId) (n : Notification) :
    GoesOn (h.takeCallback owner n).2 (start seat .deliver .take)
      ((start seat .deliver .take).delivers? h owner n) (notify h seat owner n) :=
  deliver_goesOn h _ owner n (by rintro _ ⟨⟩)

/-- A result is returned or delivered, or else the job fails. -/
theorem outcome_cases (task : Task) (r : Result E) : (∃ v, outcome task r = .returned v) ∨
    outcome task r = .delivered ∨ ∃ e, outcome task r = .failed e := by
  unfold outcome
  split
  · exact .inr (.inr ⟨_, rfl⟩)
  · split
    · split
      · exact .inr (.inr ⟨_, rfl⟩)
      · exact .inl ⟨_, rfl⟩
    · exact .inr (.inl rfl)
    · exact .inl ⟨_, rfl⟩

theorem outcome_ne_broken (task : Task) (r : Result E) (message : String) :
    outcome task r ≠ .broken message := by
  rcases outcome_cases task r with ⟨v, h⟩ | h | ⟨e, h⟩ <;> rw [h] <;> rintro ⟨⟩

theorem conclude_goesOn (h : Host E) (j : Job E) (r : Result E) :
    GoesOn h j none (j.conclude h r) := by
  rw [conclude]
  split
  · exact .turnTo (refl_of Aside h)
      fun message hm => outcome_ne_broken _ _ message (Focus.over.inj hm)
  all_goals exact .aside ⟨_, h.platform, rfl, rfl⟩ ⟨rfl, rfl⟩ fun _ => by rintro _ ⟨⟩

theorem proceed_goesOn (h : Host E) (j : Job E) (r : Result E) :
    GoesOn h j none (j.proceed h r) := by
  have hrefl : h.Aside h := refl_of Aside h
  unfold proceed
  dsimp only
  split
  · exact .aside hrefl ⟨rfl, rfl⟩ fun _ => by rintro _ ⟨⟩
  · exact .aside hrefl ⟨rfl, rfl⟩ fun _ => by rintro _ ⟨⟩
  · exact .aside hrefl ⟨rfl, rfl⟩
      fun _ message hm => outcome_ne_broken _ _ message (Focus.over.inj hm)

/-- A result goes to a script or to a rendering. -/
theorem resume_goesOn {frame : Frame E} {stack : List (Frame E)} (hs : j.stack = frame :: stack)
    (hframe : frame.loading? = none) (r : Result E) :
    GoesOn h j none ({ j with stack }.resume h frame r) := by
  have hl : { j with stack }.loadings = j.loadings := by
    rw [loadings, loadings, hs, List.filterMap_cons_none hframe]
  cases frame with
  | script rest => exact .aside (h.aside_engines _) ⟨rfl, hl⟩ fun _ => by rintro _ ⟨⟩
  | rendering rendering v => exact .aside (refl_of Aside h) ⟨rfl, hl⟩ fun _ => by rintro _ ⟨⟩
  | module l => cases hframe

/-! ### Steps -/

/-- The kinds of steps. -/
inductive Steps (h : Host E) (j : Job E) : Host E × Job E → Prop
  /-- The job is handed no notification, has not come to the end of a body, and goes on. -/
  | goesOn {p : Host E × Job E} (hh : j.handed? h = fun _ => none)
      (he : ∀ r l stack, j.focus = .result r → j.stack ≠ .module l :: stack)
      (H : GoesOn h j (j.invocation? h) p) : Steps h j p
  /-- It is handed a notification, whose callback is taken and called. -/
  | handed {owner : RuntimeId} {now : Time} {n : Notification} {h₁ : Host E} {j₁ : Job E}
      {p : Host E × Job E} (hf : j.focus = .take) (hp : j.pass? = some (owner, now))
      (hn : h.takeNext owner now = some (n, h₁)) (hf₁ : j₁.focus = j.focus)
      (hp₁ : j₁.pass? = j.pass?) (hl₁ : j₁.loadings = j.loadings)
      (H : GoesOn (h₁.takeCallback owner n).2 j₁ (j.invocation? h) p) : Steps h j p
  /-- It begins a pass of the event loop by reading the clock. -/
  | begins {owner : RuntimeId} {limit : Time} (hf : j.focus = .take)
      (ht : j.task = .loop owner none limit) :
      Steps h j (h, { j with task := .loop owner (some h.platform.clock) limit })
  /-- Nothing is ready any more in a pass of the event loop. -/
  | rests {owner : RuntimeId} {now limit : Time} (hf : j.focus = .take)
      (ht : j.task = .loop owner (some now) limit) (hn : h.takeNext owner now = none) :
      Steps h j (j.rest h owner limit)
  /-- It has come to the end of the body of a module. -/
  | ends {r : Result E} {l : Loading E.Value} {stack : List (Frame E)} (hf : j.focus = .result r)
      (hs : j.stack = .module l :: stack) : Steps h j ({ j with stack }.resume h (.module l) r)

/-- A job in a pass delivers what it is handed. -/
theorem takeNext_eq_deliver {owner : RuntimeId} {now : Time} {n : Notification}
    (hp : j.pass? = some (owner, now)) (hn : h.takeNext owner now = some (n, h₁)) :
    j.takeNext h = j.counted.deliver h₁ owner n .take := by
  rw [pass?] at hp
  split at hp
  · next owner' now' taken ht =>
    obtain ⟨rfl, rfl⟩ := Prod.mk.inj (Option.some.inj hp)
    simp only [takeNext, counted, ht, hn]
  · next owner' now' limit ht =>
    obtain ⟨_, hnow, he⟩ := Option.map_eq_some_iff.1 hp
    obtain ⟨rfl, rfl⟩ := Prod.mk.inj he
    rw [hnow] at ht
    simp only [takeNext, counted, ht, hn]
  · cases hp

theorem deliver_steps {owner : RuntimeId} {now : Time} {n : Notification} (hf : j.focus = .take)
    (hp : j.pass? = some (owner, now)) (hn : h.takeNext owner now = some (n, h₁)) :
    Steps h j (j.counted.deliver h₁ owner n .take) := by
  have hv : j.invocation? h = j.counted.delivers? h₁ owner n := by
    rw [invocation?_of_take hf hp, hn]
    rfl
  refine .handed hf hp hn (counted_focus j) (counted_pass? j) (counted_loadings j) ?_
  rw [hv]
  exact deliver_goesOn h₁ j.counted owner n (by rintro _ ⟨⟩)

theorem takeNext_steps (hf : j.focus = .take) : Steps h j (j.takeNext h) := by
  have hends (r : Result E) (l : Loading E.Value) (stack : List (Frame E))
      (hr : j.focus = .result r) : j.stack ≠ .module l :: stack := by
    rw [hf] at hr
    cases hr
  have hover {o : Outcome E.Value} (hh : j.handed? h = fun _ => none)
      (hv : j.invocation? h = none) (ho : ∀ message, o ≠ .broken message) :
      Steps h j (h, j.turnTo (.over o)) := by
    refine .goesOn hh hends ?_
    rw [hv]
    exact .turnTo (refl_of Aside h) fun message hm => ho message (Focus.over.inj hm)
  rw [takeNext]
  split
  · next owner now taken ht =>
    have hp : j.pass? = some (owner, now) := by rw [pass?, ht]
    have hcounted : j.counted = { j with task := .pass owner now (taken + 1) } := by
      rw [counted, ht]
    split
    · next hn =>
      have hv : j.invocation? h = none := by rw [invocation?_of_take hf hp, hn]; rfl
      exact hover (by rw [handed?_eq hf hp, hn]; simp) hv (by rintro _ ⟨⟩)
    · next n h₁ hn =>
      rw [← hcounted]
      exact deliver_steps hf hp hn
  · next owner limit ht => exact .begins hf ht
  · next owner now limit ht =>
    have hp : j.pass? = some (owner, now) := by rw [pass?, ht]; rfl
    have hcounted : j.counted = j := by rw [counted, ht]
    split
    · next hn => exact .rests hf ht hn
    · next n h₁ hn =>
      have H : Steps h j (j.counted.deliver h₁ owner n .take) := deliver_steps hf hp hn
      rwa [hcounted] at H
  · next hpass hbegin hloop =>
    have hp : j.pass? = none := by
      rw [pass?]
      split
      · next ht => exact absurd ht (hpass _ _ _)
      · next owner now limit ht =>
        cases now with
        | none => rfl
        | some now => exact absurd ht (hloop _ _ _)
      · rfl
    refine hover ?_ (invocation?_of_pass hf hp) (by rintro _ ⟨⟩)
    funext id
    exact handed?_of_pass fun now => by rw [hp]; rintro ⟨⟩

/-- Every step is of one of the kinds of steps. -/
theorem step_steps (h : Host E) (j : Job E) : Steps h j (j.step h) := by
  cases hf : j.focus with
  | take =>
    rw [step, hf]
    exact takeNext_steps hf
  | result r =>
    have hhanded : j.handed? h = fun _ => none := handed?_of_focus (by rw [hf]; rintro ⟨⟩)
    have hgoes {p : Host E × Job E} (hs : ∀ l stack, j.stack ≠ .module l :: stack)
        (H : GoesOn h j none p) : Steps h j p :=
      .goesOn hhanded (fun _ l stack _ => hs l stack) (invocation?_of_result hf ▸ H)
    rw [step, hf]
    dsimp only
    cases hs : j.stack with
    | nil =>
      refine hgoes (by simp [hs]) ?_
      dsimp only
      split
      · exact conclude_goesOn ..
      · exact proceed_goesOn ..
    | cons frame stack =>
      cases frame with
      | module l => exact hf ▸ .ends hf hs
      | script rest => exact hgoes (by simp [hs]) (hf ▸ resume_goesOn hs rfl r)
      | rendering rendering v => exact hgoes (by simp [hs]) (hf ▸ resume_goesOn hs rfl r)
  | rendering r =>
    refine .goesOn (handed?_of_focus (by simp [hf])) (by simp [hf]) ?_
    simp only [step, invocation?, hf]
    exact render_goesOn ..
  | «over» o =>
    refine .goesOn (handed?_of_focus (by simp [hf])) (by simp [hf]) ?_
    simp only [step, invocation?, hf]
    exact .aside (refl_of Aside h) ⟨rfl, rfl⟩ id
  | script s =>
    refine .goesOn (handed?_of_focus (by simp [hf])) (by simp [hf]) ?_
    simp only [step, invocation?, hf]
    rcases E.step j.seat s h.engines with ⟨s' | v | v | ⟨f, this, args, rest⟩, engines⟩
    · exact .turnTo (h.aside_engines _) (by rintro _ ⟨⟩)
    · exact .turnTo (h.aside_engines _) (by rintro _ ⟨⟩)
    · exact .turnTo (h.aside_engines _) (by rintro _ ⟨⟩)
    · exact .native
        (v := ⟨{ h with engines }, j.push (.script rest) (.script s), f, this, args⟩)
        (h.aside_engines engines) ⟨rfl, rfl⟩

/-- A step that calls a native function ends with the call. -/
theorem step_of_invocation? {v : Invocation E} (hv : j.invocation? h = some v) :
    j.step h = v.perform := by
  have H := j.step_steps h
  have hgoes {h₁ : Host E} {j₁ : Job E} {p : Host E × Job E}
      (H : GoesOn h₁ j₁ (j.invocation? h) p) : p = v.perform := by
    rw [hv] at H
    cases H
    rfl
  generalize j.step h = p at H
  cases H with
  | goesOn _ _ H => exact hgoes H
  | handed _ _ _ _ _ _ H => exact hgoes H
  | begins hf ht => exact nomatch hv.symm.trans (invocation?_of_pass hf (by rw [pass?, ht]; rfl))
  | rests hf ht hn =>
    rw [invocation?_of_take hf (by rw [pass?, ht]; rfl), hn] at hv
    cases hv
  | ends hf _ => exact nomatch hv.symm.trans (invocation?_of_result hf)

/-- The job that waits for a native function is evaluating what it was. -/
theorem loadings_of_invocation? {v : Invocation E} (hv : j.invocation? h = some v) :
    v.job.loadings = j.loadings := by
  have H := j.step_steps h
  have hgoes {h₁ : Host E} {j₁ : Job E} {p : Host E × Job E}
      (H : GoesOn h₁ j₁ (j.invocation? h) p) : v.job.loadings = j₁.loadings := by
    rw [hv] at H
    cases H with
    | native _ hj => exact hj.loadings
  generalize j.step h = p at H
  cases H with
  | goesOn _ _ H => exact hgoes H
  | handed _ _ _ _ _ hl₁ H => exact (hgoes H).trans hl₁
  | begins hf ht => exact nomatch hv.symm.trans (invocation?_of_pass hf (by rw [pass?, ht]; rfl))
  | rests hf ht hn =>
    rw [invocation?_of_take hf (by rw [pass?, ht]; rfl), hn] at hv
    cases hv
  | ends hf _ => exact nomatch hv.symm.trans (invocation?_of_result hf)

theorem job_of_calls? {f this : E.Value} {args : List E.Value} {v : Invocation E}
    (hv : j.calls? h f this args = some v) : v.job = j := by
  rw [calls?] at hv
  split at hv
  · exact Option.some.inj hv ▸ rfl
  · cases hv

theorem job_of_delivers? {owner : RuntimeId} {n : Notification} {v : Invocation E}
    (hv : j.delivers? h owner n = some v) : v.job = j := by
  rw [delivers?] at hv
  split at hv
  · cases hv
  · exact job_of_calls? hv

/-! ### Passes -/

theorem act_task {α : Type} {x : HostAction E α} {next : Host E → α → Host E × Job E}
    (hnext : ∀ h a, (next h a).2.task = j.task) : (j.act h x next).2.task = j.task := by
  rw [act]
  split
  · exact hnext ..
  · rfl

theorem answer_task (h : Host E) (j : Job E) (reply : Reply E) :
    (j.answer h reply).2.task = j.task := by
  cases reply <;> rfl

theorem GoesOn.task {o : Option (Invocation E)} (H : GoesOn h j o p) : p.2.task = j.task := by
  cases H with
  | aside _ hj _ => exact hj.task
  | native _ hj => exact (act_task fun h reply => answer_task h _ reply).trans hj.task

theorem resume_module_task (h : Host E) (j : Job E) (l : Loading E.Value) (r : Result E) :
    (j.resume h (.module l) r).2.task = j.task := by
  refine act_task fun h _ => ?_
  cases r with
  | error e => rfl
  | ok v =>
    refine act_task fun h _ => ?_
    split
    · rfl
    · exact act_task fun _ _ => rfl

theorem rest_pass? (h : Host E) (j : Job E) (owner : RuntimeId) (limit : Time) :
    (j.rest h owner limit).2.pass? = j.pass? ∨ (j.rest h owner limit).2.pass? = none := by
  rw [rest]
  split
  · exact .inl rfl
  · dsimp only
    split
    · exact .inl rfl
    · split
      · exact .inr rfl
      · exact .inl rfl

/-- After a step a job is in the pass in which it was, in none, or in one that it has begun at the
clock. -/
theorem step_pass? (h : Host E) (j : Job E) :
    (j.step h).2.pass? = j.pass? ∨ (j.step h).2.pass? = none ∨
      ∃ owner, j.begins? = some owner ∧ (j.step h).2.pass? = some (owner, h.platform.clock) := by
  have H := j.step_steps h
  generalize j.step h = p at H
  cases H with
  | goesOn _ _ H => exact .inl (pass?_eq_of_task H.task)
  | handed _ _ _ _ hp₁ _ H => exact .inl ((pass?_eq_of_task H.task).trans hp₁)
  | begins hf ht => exact .inr (.inr ⟨_, by rw [begins?, hf, ht], rfl⟩)
  | rests _ _ _ => exact (rest_pass? ..).imp id .inl
  | ends _ _ => exact .inl (pass?_eq_of_task (resume_module_task ..))

end Job

end ScriptHost
