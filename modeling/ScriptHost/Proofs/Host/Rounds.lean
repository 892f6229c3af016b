import ScriptHost.Proofs.Host.Operations
import ScriptHost.Proofs.Host.Stages

/-!
# The rounds of a job

A job goes in rounds. It looks for a notification, calls the callback, and has microtasks run; when
these have run, it looks for the next one or ends. At every moment it is clear from the job alone
what it owes: nothing, the running of microtasks, or their end.

While microtasks run, the script that runs them is at the bottom of the job: it is the focus with an
empty stack, or it is the last frame of the stack.

## Main definitions

* `Job.Event`, `Job.events`, `Errand.events`: what happens in a step of a job, and when it is begun.
* `Duty`, `Duty.next`: what a job owes, and what this becomes with an event.
* `Job.duty`: what a job owes, read off the job.
* `Job.Based`: the script that runs the microtasks is at the bottom of the job.

## Main results

* `Job.step_based`: the script that runs the microtasks stays at the bottom.
* `Job.step_follows`, `Errand.begin_follows`: every step of a job does what the job owes.
-/

namespace ScriptHost

variable {E : Engine}

/-! ### Events -/

namespace Job

/-- What happens in the rounds of a job. -/
inductive Event where
  /-- It looks for the next notification. -/
  | polled
  /-- The callback of a notification is called. -/
  | called
  /-- It has microtasks run. -/
  | drained
  /-- The microtasks have run. -/
  | settled
  /-- It ends: with a result, or with the exception that it reports. -/
  | ended
deriving DecidableEq

instance : (j : Job E) → Decidable j.IsOver
  | ⟨_, _, _, _, .over o⟩ => isTrue ⟨o, rfl⟩
  | ⟨_, _, _, _, .take⟩ | ⟨_, _, _, _, .script _⟩ | ⟨_, _, _, _, .rendering _⟩
  | ⟨_, _, _, _, .result _⟩ => isFalse nofun

/-- A notification is delivered: its callback is called, unless it has none. -/
def callEvents (h : Host E) (owner : RuntimeId) (n : Notification) : List Event :=
  match (h.takeCallback owner n).1 with
  | none => []
  | some _ => [.called]

/-- The end of a job, if it has ended. -/
def ending (j : Job E) : List Event := if j.IsOver then [.ended] else []

/-- What happens in the next step of a job, its end apart. -/
def doings (h : Host E) (j : Job E) : List Event :=
  match j.focus with
  | .take =>
    match j.pass? with
    | none => []
    | some (owner, now) => .polled ::
      match h.takeNext owner now with
      | none => []
      | some (n, h) => callEvents h owner n
  | .script s =>
    match (E.step j.seat s h.engines).1 with
    | .returned _ | .threw _ => if j.stack.isEmpty && j.waiting.isSome then [.settled] else []
    | _ => []
  | .result _ => if j.drains then [.drained] else []
  | _ => []

/-- What happens in the next step of a job. -/
def events (h : Host E) (j : Job E) : List Event :=
  if j.IsOver then [] else j.doings h ++ (j.step h).2.ending

end Job

/-- What happens when a job is begun, its end apart. -/
def Errand.doings (h : Host E) : Errand E → List Job.Event
  | .notify _ owner n => Job.callEvents h owner n
  | .runLoop .. => [.drained]
  | _ => []

/-- What happens when a job is begun. -/
def Errand.events (h : Host E) (errand : Errand E) : List Job.Event :=
  errand.doings h ++ (errand.begin h).2.ending

/-! ### Duties -/

/-- What a job owes. -/
inductive Duty where
  /-- Nothing. -/
  | clear
  /-- Microtasks are to be run. -/
  | owed
  /-- They are being run. -/
  | running
  /-- The job has ended. -/
  | over
deriving DecidableEq

namespace Duty

/-- What a job owes after an event; nothing if the event is against what it owes. -/
def next : Duty → Job.Event → Option Duty
  | .clear, .polled => some .clear
  | .clear, .called => some .owed
  | .clear, .ended => some .over
  | .owed, .drained => some .running
  | .running, .settled => some .clear
  | _, _ => none

/-- What a job owes after events. -/
def follow (d : Duty) (es : List Job.Event) : Option Duty := es.foldlM next d

theorem follow_append (d : Duty) (es es' : List Job.Event) :
    d.follow (es ++ es') = (d.follow es).bind fun d => d.follow es' :=
  List.foldlM_append ..

end Duty

/-! ### Tasks -/

/-- The task as it was given, however far it has come. -/
def Task.origin : Task → Task
  | .pass owner now _ => .pass owner now 0
  | .loop owner _ limit => .loop owner none limit
  | task => task

/-- A job of the task looks for notifications. -/
def Task.polls : Task → Bool
  | .pass .. | .loop .. => true
  | .evaluate | .require _ | .deliver => false

/-- What a job of the task owes at first. -/
def Task.opening : Task → Duty
  | .require _ | .loop .. => .owed
  | .evaluate | .deliver | .pass .. => .clear

theorem Task.polls_of_origin {t t' : Task} (ht : t'.origin = t.origin) : t'.polls = t.polls := by
  have horigin (t : Task) : t.origin.polls = t.polls := by cases t <;> rfl
  rw [← horigin t', ht, horigin]

theorem Task.opening_of_origin {t t' : Task} (ht : t'.origin = t.origin) :
    t'.opening = t.opening := by
  have horigin (t : Task) : t.origin.opening = t.opening := by cases t <;> rfl
  rw [← horigin t', ht, horigin]

/-! ### Jobs at work -/

namespace Job

variable {h : Host E} {j j' : Job E} {D : E.Script → Prop}

/-- The work of a job is done: its result has nothing to go to. -/
def isDone (j : Job E) : Bool :=
  match j.focus, j.stack with
  | .result _, [] => true
  | _, _ => false

/-- What a job owes that works. -/
def workDuty (j : Job E) : Duty :=
  match j.waiting with
  | some _ => if j.isDone then .clear else .running
  | none =>
    match j.task with
    | .evaluate => .clear
    | _ => .owed

/-- What a job owes. -/
def duty (j : Job E) : Duty :=
  match j.focus with
  | .over _ => .over
  | .take => .clear
  | _ => j.workDuty

theorem duty_of_work (hf : j.focus.IsWork) : j.duty = j.workDuty := by
  unfold duty
  split
  · next hf' => rw [hf'] at hf; exact hf.elim
  · next hf' => rw [hf'] at hf; exact hf.elim
  · rfl

theorem not_isOver_of_work (hf : j.focus.IsWork) : ¬j.IsOver := by
  rintro ⟨o, ho⟩
  rw [ho] at hf
  exact hf

theorem ending_of_work (hf : j.focus.IsWork) : j.ending = [] := if_neg (not_isOver_of_work hf)

theorem isDone_of_stack (hs : j.stack ≠ []) : j.isDone = false := by
  unfold isDone
  split
  · next hs' => exact absurd hs' hs
  · rfl

/-- A job that works on owes what it owed. -/
theorem duty_eq_of_work (hj : j.focus.IsWork) (hj' : j'.focus.IsWork) (htask : j'.task = j.task)
    (hwaiting : j'.waiting = j.waiting)
    (hdone : j.waiting ≠ none → j.isDone = false ∧ j'.isDone = false) : j'.duty = j.duty := by
  rw [duty_of_work hj, duty_of_work hj', workDuty, workDuty, htask, hwaiting]
  cases hw : j.waiting with
  | none => rfl
  | some w =>
    obtain ⟨hj, hj'⟩ := hdone (by simp [hw])
    simp only [hj, hj']

/-! ### The bottom of a job -/

/-- The script that runs the microtasks is at the bottom of a job, and nothing is there while the
job does not work. -/
structure Based (D : E.Script → Prop) (j : Job E) : Prop where
  idle : ¬j.focus.IsWork → j.stack = [] ∧ j.waiting = none
  focus : j.waiting ≠ none → j.stack = [] →
    (∃ s, j.focus = .script s ∧ D s) ∨ ∃ r, j.focus = .result r
  bottom : j.waiting ≠ none → ∀ frame, j.stack.getLast? = some frame →
    ∃ rest, frame = .script rest ∧ ∀ x, D (E.resume rest x)

theorem based_of_waiting (hw : j.waiting = none) (hs : ¬j.focus.IsWork → j.stack = []) :
    j.Based D :=
  ⟨fun hf => ⟨hs hf, hw⟩, fun hn => absurd hw hn, fun hn => absurd hw hn⟩

theorem Based.idle_of_take (hb : j.Based D) (hf : j.focus = .take) :
    j.stack = [] ∧ j.waiting = none :=
  hb.idle (by rw [hf]; exact id)

/-- What is put on a stack that is not empty leaves the bottom as it is. -/
theorem Above.based (H : j.Above j') (hb : j.Based D) (hs : j.waiting ≠ none → j.stack ≠ []) :
    j'.Based D := by
  refine ⟨fun hf => absurd H.work hf, fun hw hnil => ?_, fun hw frame hlast => ?_⟩
  · rw [H.waiting_eq] at hw
    exact absurd (List.suffix_nil.1 (hnil ▸ H.stack_suffix)) (hs hw)
  · rw [H.waiting_eq] at hw
    obtain ⟨above, habove⟩ := H.stack_suffix
    rw [← habove, List.getLast?_append_of_ne_nil _ (hs hw)] at hlast
    exact hb.bottom hw frame hlast

theorem push_stack_ne_nil {frame : Frame E} {focus : Focus E} :
    (j.push frame focus).stack ≠ [] :=
  List.cons_ne_nil frame j.stack

/-- A native function is called on top of the script that calls it. -/
theorem Based.calls (M : E.Marks D) (hb : j.Based D) {s rest : E.Script} {f : Native}
    {this : E.Value} {args : List E.Value} {engines engines' : E.State} (hf : j.focus = .script s)
    (hs : E.step j.seat s engines = (.native f this args rest, engines')) :
    (j.push (.script rest) j.focus).Based D := by
  refine ⟨fun hidle => absurd ?_ hidle, fun _ hnil => (nomatch hnil), fun hw frame hlast => ?_⟩
  · rw [push, hf]
    trivial
  · cases hstack : j.stack with
    | nil =>
      obtain ⟨s', hf', hD⟩ | ⟨r, hr⟩ := hb.focus hw hstack
      · obtain rfl : s = s' := Focus.script.inj (hf.symm.trans hf')
        rw [push, hstack] at hlast
        exact ⟨rest, (Option.some.inj hlast).symm, M.native hD hs⟩
      · exact nomatch hf.symm.trans hr
    | cons frame' stack =>
      rw [push, hstack, List.getLast?_cons_cons, ← hstack] at hlast
      exact hb.bottom hw frame hlast

/-- A result goes to the frame that waits for it, and the bottom stays what it is. -/
theorem Based.resumes (hb : j.Based D) {frame : Frame E} {stack : List (Frame E)} {r : Result E}
    (hf : j.focus = .result r) (hs : j.stack = frame :: stack)
    (hu : (({ j with stack } : Job E).resume h frame r).2.Unbroken) :
    (({ j with stack } : Job E).resume h frame r).2.Based D := by
  have H := resume_above_of_unbroken hu
  by_cases hw : j.waiting = none
  · exact based_of_waiting (H.waiting_eq.trans hw) fun hidle => absurd H.work hidle
  · cases stack with
    | nil =>
      obtain ⟨rest, rfl, hD⟩ := hb.bottom hw frame (by rw [hs]; rfl)
      exact ⟨fun hidle => absurd H.work hidle, fun _ _ => .inl ⟨_, rfl, hD _⟩,
        fun _ _ hlast => (nomatch hlast)⟩
    | cons frame' stack =>
      refine H.based ⟨fun hidle => absurd ?_ hidle, fun _ hnil => (nomatch hnil),
        fun _ last hlast => hb.bottom hw last ?_⟩ fun _ => List.cons_ne_nil frame' stack
      · rw [hf]
        trivial
      · rw [hs, List.getLast?_cons_cons]
        exact hlast

theorem rest_spec (h : Host E) (j : Job E) (owner : RuntimeId) (limit : Time) :
    (j.rest h owner limit).2.stack = j.stack ∧ (j.rest h owner limit).2.waiting = j.waiting ∧
      ((j.rest h owner limit).2.IsOver ∨ (j.rest h owner limit).2.focus = .take) := by
  rw [rest]
  split
  · exact ⟨rfl, rfl, .inl ⟨_, rfl⟩⟩
  · split
    · exact ⟨rfl, rfl, .inl ⟨_, rfl⟩⟩
    · dsimp only
      split
      · exact ⟨rfl, rfl, .inr rfl⟩
      · exact ⟨rfl, rfl, .inl ⟨_, rfl⟩⟩

theorem counted_stack (j : Job E) : j.counted.stack = j.stack ∧ j.counted.waiting = j.waiting := by
  rw [counted]
  split <;> exact ⟨rfl, rfl⟩

theorem deliver_based (hs : j.stack = []) (hw : j.waiting = none) (owner : RuntimeId)
    (n : Notification) (stale : Focus E) : (j.deliver h owner n stale).2.Based D := by
  rw [deliver]
  split
  · exact based_of_waiting hw fun _ => hs
  · exact based_of_waiting ((call_above ..).waiting_eq.trans hw) fun hidle =>
      absurd (call_above ..).work hidle

theorem drain_based (M : E.Marks D) (hs : j.stack = []) (h : Host E) (r : Result E) :
    (j.drain h r).2.Based D :=
  ⟨fun hidle => absurd trivial hidle, fun _ _ => .inl ⟨_, rfl, M.begun ..⟩,
    fun _ frame hlast => nomatch (hs ▸ hlast : ([] : List (Frame E)).getLast? = some frame)⟩

theorem conclude_based (M : E.Marks D) (hs : j.stack = []) (hw : j.waiting = none)
    (r : Result E) : (j.conclude h r).2.Based D := by
  rw [conclude]
  split
  · exact based_of_waiting hw fun _ => hs
  all_goals exact drain_based M hs ..

theorem proceed_stack (h : Host E) (j : Job E) (r : Result E) :
    (j.proceed h r).2.stack = j.stack ∧ (j.proceed h r).2.waiting = none := by
  unfold proceed
  dsimp only
  split <;> exact ⟨rfl, rfl⟩

/-- The script that runs the microtasks stays at the bottom of a job. -/
theorem step_based (M : E.Marks D) (hb : j.Based D) (hu : (j.step h).2.Unbroken) :
    (j.step h).2.Based D := by
  have H := j.step_advances h
  generalize j.step h = p at H hu
  cases H with
  | stays => exact hb
  | begins hf =>
    obtain ⟨hs, hw⟩ := hb.idle_of_take hf
    exact based_of_waiting hw fun _ => hs
  | hands hf =>
    obtain ⟨hs, hw⟩ := hb.idle_of_take hf
    obtain ⟨hstack, hwaiting⟩ := j.counted_stack
    exact deliver_based (hstack.trans hs) (hwaiting.trans hw) ..
  | @rests owner now limit hf =>
    obtain ⟨hs, hw⟩ := hb.idle_of_take hf
    obtain ⟨hstack, hwaiting, -⟩ := rest_spec h j owner limit
    exact based_of_waiting (hwaiting.trans hw) fun _ => hstack.trans hs
  | finishes hf | skips hf =>
    obtain ⟨hs, hw⟩ := hb.idle_of_take hf
    exact based_of_waiting hw fun _ => hs
  | renders hf =>
    refine (render_above ..).based hb fun hw hs => ?_
    obtain ⟨s, hf', -⟩ | ⟨r, hf'⟩ := hb.focus hw hs <;> exact nomatch hf.symm.trans hf'
  | runs hf hstep =>
    refine ⟨fun hidle => absurd trivial hidle, fun hw hs => ?_, hb.bottom⟩
    obtain ⟨s, hf', hD⟩ | ⟨r, hf'⟩ := hb.focus hw hs
    · obtain rfl := Focus.script.inj (hf.symm.trans hf')
      exact .inl ⟨_, rfl, M.running hD hstep⟩
    · exact nomatch hf.symm.trans hf'
  | calls hf hstep => exact (native_above ..).based (hb.calls M hf hstep) fun _ => push_stack_ne_nil
  | ends => exact ⟨fun hidle => absurd trivial hidle, fun _ _ => .inr ⟨_, rfl⟩, hb.bottom⟩
  | resumes hf hs => exact hb.resumes hf hs hu
  | concludes hf hs hw => exact conclude_based M hs hw _
  | @proceeds r w hf hs hw =>
    obtain ⟨hstack, hwaiting⟩ := j.proceed_stack h w
    exact based_of_waiting hwaiting fun _ => hstack.trans hs

/-! ### What a job does -/

theorem ending_of_over {o : Outcome E.Value} (hf : j.focus = .over o) : j.ending = [.ended] :=
  if_pos ⟨o, hf⟩

theorem ending_of_take (hf : j.focus = .take) : j.ending = [] := by
  refine if_neg ?_
  rintro ⟨o, ho⟩
  exact nomatch hf.symm.trans ho

/-- A job that owes nothing goes on or ends. -/
theorem clear_follow_ending (hj : j.IsOver ∨ j.focus = .take) :
    Duty.clear.follow j.ending = some j.duty := by
  rcases hj with ⟨o, hf⟩ | hf
  · rw [ending_of_over hf, duty, hf]
    rfl
  · rw [ending_of_take hf, duty, hf]
    rfl

/-- The call of a callback makes the running of microtasks due. -/
theorem deliver_follows (hw : j.waiting = none) (ht : j.task ≠ .evaluate) (owner : RuntimeId)
    (n : Notification) {stale : Focus E} (hstale : stale = .take ∨ ∃ o, stale = .over o) :
    Duty.clear.follow (callEvents h owner n ++ (j.deliver h owner n stale).2.ending) =
      some (j.deliver h owner n stale).2.duty := by
  rw [callEvents, deliver]
  rcases h.takeCallback owner n with ⟨_ | callback, h'⟩
  · exact clear_follow_ending (hstale.symm.imp (fun ho => ho) fun hf => hf)
  · have H := call_above h' j callback (E.globalObject j.seat h'.engines) []
    dsimp only
    rw [ending_of_work H.work, duty_of_work H.work, workDuty, H.waiting_eq, hw, H.task_eq]
    cases ht' : j.task with
    | evaluate => exact absurd ht' ht
    | _ => rfl

theorem Based.stack_ne_nil_of_rendering (hb : j.Based D) {r : Rendering E.Value}
    (hf : j.focus = .rendering r) (hw : j.waiting ≠ none) : j.stack ≠ [] := by
  intro hs
  obtain ⟨s, hf', -⟩ | ⟨r, hf'⟩ := hb.focus hw hs <;> exact nomatch hf.symm.trans hf'

theorem isDone_of_script {s : E.Script} (hf : j.focus = .script s) : j.isDone = false := by
  rw [isDone, hf]

/-- A job that works on above a stack that is not empty has not done its work. -/
theorem Above.isDone_eq (H : j.Above j') (hs : j.stack ≠ []) : j'.isDone = false :=
  isDone_of_stack fun hnil => hs (List.suffix_nil.1 (hnil ▸ H.stack_suffix))

/-- Nothing happens while a job works on. -/
theorem Above.follows (H : j.Above j') (hj : j.focus.IsWork)
    (hdone : j.waiting ≠ none → j.isDone = false ∧ j'.isDone = false) :
    j.duty.follow ([] ++ j'.ending) = some j'.duty := by
  rw [ending_of_work H.work, duty_eq_of_work hj H.work H.task_eq H.waiting_eq hdone]
  rfl

/-- Nothing happens when a result goes to the frame that waits for it. -/
theorem Based.resumes_follows (hb : j.Based D) {frame : Frame E} {stack : List (Frame E)}
    {r : Result E} (hf : j.focus = .result r) (hs : j.stack = frame :: stack)
    (hu : (({ j with stack } : Job E).resume h frame r).2.Unbroken) :
    j.duty.follow ([] ++ (({ j with stack } : Job E).resume h frame r).2.ending) =
      some (({ j with stack } : Job E).resume h frame r).2.duty := by
  have H := resume_above_of_unbroken hu
  have hduty : (({ j with stack } : Job E).resume h frame r).2.duty = j.duty := by
    refine duty_eq_of_work (by rw [hf]; trivial) H.work H.task_eq H.waiting_eq fun hw => ?_
    refine ⟨isDone_of_stack (by simp [hs]), ?_⟩
    cases stack with
    | nil =>
      obtain ⟨rest, rfl, -⟩ := hb.bottom hw frame (by rw [hs]; rfl)
      rfl
    | cons frame' stack => exact H.isDone_eq (List.cons_ne_nil frame' stack)
  rw [ending_of_work H.work, hduty]
  rfl

theorem pass?_of_task (hp : ∀ owner now taken, j.task ≠ .pass owner now taken)
    (hl : ∀ owner now limit, j.task ≠ .loop owner now limit) : j.pass? = none := by
  rw [pass?]
  split
  · next ht => exact absurd ht (hp _ _ _)
  · next ht => exact absurd ht (hl _ _ _)
  · rfl

theorem task_ne_evaluate_of_pass? {owner : RuntimeId} {now : Time}
    (hp : j.pass? = some (owner, now)) : j.task ≠ .evaluate := by
  intro ht
  rw [pass?, ht] at hp
  cases hp

/-- The end of the script that runs the microtasks settles what was owed. -/
theorem ends_follows {s : E.Script} {engines : E.State} {r : Result E}
    (hf : j.focus = .script s)
    (hs : (∃ v, E.step j.seat s h.engines = (.returned v, engines) ∧ r = .ok v) ∨
      ∃ v, E.step j.seat s h.engines = (.threw v, engines) ∧ r = .error (.thrown v)) :
    j.duty.follow (j.doings h ++ (j.turnTo (.result r)).ending) =
      some (j.turnTo (.result r)).duty := by
  have H : j.Above (j.turnTo (.result r)) := j.above_turnTo trivial
  have hj : j.focus.IsWork := by rw [hf]; trivial
  have hdoings : j.doings h = if j.stack.isEmpty && j.waiting.isSome then [.settled] else [] := by
    obtain ⟨v, hs, -⟩ | ⟨v, hs, -⟩ := hs <;> simp only [doings, hf, hs]
  rw [hdoings]
  split
  · next hbottom =>
    obtain ⟨hstack, hw⟩ := Bool.and_eq_true_iff.1 hbottom
    obtain ⟨w, hw⟩ := Option.isSome_iff_exists.1 hw
    rw [ending_of_work H.work, duty_of_work hj, duty_of_work H.work, workDuty, workDuty,
      H.waiting_eq, hw, isDone_of_script hf, isDone, turnTo, List.isEmpty_iff.1 hstack]
    rfl
  · next hbottom =>
    refine H.follows hj fun hw => ⟨isDone_of_script hf, isDone_of_stack fun hstack => ?_⟩
    have hsome := Option.isSome_iff_ne_none.2 hw
    exact hbottom (Bool.and_eq_true_iff.2 ⟨List.isEmpty_iff.2 hstack, hsome⟩)

/-- A job that has come to the end of its work has microtasks run, or has evaluated its script. -/
theorem conclude_follows {r : Result E} (hf : j.focus = .result r) (hs : j.stack = [])
    (hw : j.waiting = none) :
    j.duty.follow (j.doings h ++ (j.conclude h r).2.ending) = some (j.conclude h r).2.duty := by
  have hdrain (h : Host E) (r : Result E) :
      Duty.owed.follow ([.drained] ++ (j.drain h r).2.ending) = some (j.drain h r).2.duty := rfl
  have hduty : j.duty = j.workDuty := duty_of_work (by rw [hf]; trivial)
  rw [hduty, workDuty, hw, doings, hf, conclude]
  cases ht : j.task with
  | evaluate =>
    simp only [drains, hf, hs, hw, ht]
    rfl
  | require main =>
    simp only [drains, hf, hs, hw, ht]
    exact hdrain ..
  | deliver | pass | loop =>
    simp only [drains, hf, hs, hw, ht]
    exact hdrain ..

/-- A job whose microtasks have run takes the next notification or ends. -/
theorem proceed_follows (h : Host E) (j : Job E) (r : Result E) :
    Duty.clear.follow ([] ++ (j.proceed h r).2.ending) = some (j.proceed h r).2.duty := by
  refine clear_follow_ending ?_
  unfold proceed
  dsimp only
  split
  · exact .inr rfl
  · exact .inr rfl
  · exact .inl ⟨_, rfl⟩

/-- Every step of a job does what the job owes. -/
theorem step_follows (hb : j.Based D) (hu : (j.step h).2.Unbroken) :
    j.duty.follow (j.events h) = some (j.step h).2.duty := by
  by_cases hover : j.IsOver
  · obtain ⟨o, hf⟩ := hover
    rw [events, if_pos ⟨o, hf⟩, step, hf]
    rfl
  have H := j.step_advances h
  have hclear (hf : j.focus = .take) : j.duty = .clear := by rw [duty, hf]
  rw [events, if_neg hover]
  generalize j.step h = p at H hu ⊢
  cases H with
  | stays hf => exact absurd hf hover
  | @begins owner limit hf ht =>
    have hp : j.pass? = none := by rw [pass?, ht]; rfl
    simp only [hclear hf, doings, hf, hp]
    rfl
  | @hands owner now n h₁ hf hp hn =>
    obtain ⟨-, hw⟩ := hb.idle_of_take hf
    simp only [hclear hf, doings, hf, hp, hn]
    exact deliver_follows (j.counted_stack.2.trans hw)
      (task_ne_evaluate_of_pass? (j.counted_pass?.trans hp)) owner n (.inl rfl)
  | @rests owner now limit hf ht hn =>
    have hp : j.pass? = some (owner, now) := by rw [pass?, ht]; rfl
    simp only [hclear hf, doings, hf, hp, hn]
    exact clear_follow_ending (rest_spec h j owner limit).2.2
  | @finishes owner now taken hf ht hn =>
    have hp : j.pass? = some (owner, now) := by rw [pass?, ht]
    simp only [hclear hf, doings, hf, hp, hn]
    rfl
  | skips hf hp hl =>
    simp only [hclear hf, doings, hf, pass?_of_task hp hl]
    rfl
  | @renders r hf =>
    have H := render_above h j r
    simp only [doings, hf]
    refine H.follows (by rw [hf]; trivial) fun hw => ?_
    have hs := hb.stack_ne_nil_of_rendering hf hw
    exact ⟨isDone_of_stack hs, H.isDone_eq hs⟩
  | @runs s s' engines hf hs =>
    simp only [doings, hf, hs]
    have H : j.Above (j.turnTo (.script s')) := j.above_turnTo trivial
    exact H.follows (by rw [hf]; trivial) fun _ => ⟨isDone_of_script hf, rfl⟩
  | @calls s rest f this args engines hf hs =>
    have H := native_above { h with engines } (j.push (.script rest) j.focus) f this args
    simp only [doings, hf, hs] at H ⊢
    exact H.of_push.follows (by rw [hf]; trivial) fun _ =>
      ⟨isDone_of_script hf, H.isDone_eq push_stack_ne_nil⟩
  | ends hf hs => exact ends_follows hf hs
  | resumes hf hs =>
    simp only [doings, hf, drains, hs]
    exact hb.resumes_follows hf hs hu
  | concludes hf hs hw => exact conclude_follows hf hs hw
  | @proceeds r w hf hs hw =>
    have hduty : j.duty = .clear := by
      rw [duty_of_work (by rw [hf]; trivial), workDuty, hw, isDone, hf, hs]
      rfl
    simp only [doings, hf, drains, hs, hw, hduty]
    exact proceed_follows ..

/-! ### Tasks -/

/-- The same job as far as its seat and the task go that it was given. -/
structure Continues (j j' : Job E) : Prop where
  seat_eq : j'.seat = j.seat
  origin_eq : j'.task.origin = j.task.origin

theorem Continues.trans {j₁ j₂ j₃ : Job E} (H : j₁.Continues j₂) (H' : j₂.Continues j₃) :
    j₁.Continues j₃ :=
  ⟨H'.seat_eq.trans H.seat_eq, H'.origin_eq.trans H.origin_eq⟩

theorem Above.continues (H : j.Above j') : j.Continues j' := ⟨H.seat_eq, by rw [H.task_eq]⟩

theorem counted_continues (j : Job E) : j.Continues j.counted := by
  rw [counted]
  split
  · next ht => exact ⟨rfl, by rw [ht]; rfl⟩
  · exact ⟨rfl, rfl⟩

theorem deliver_task (h : Host E) (j : Job E) (owner : RuntimeId) (n : Notification)
    (stale : Focus E) : (j.deliver h owner n stale).2.task = j.task := by
  rw [deliver]
  split
  · rfl
  · exact (call_above ..).task_eq

theorem deliver_continues (h : Host E) (j : Job E) (owner : RuntimeId) (n : Notification)
    (stale : Focus E) : j.Continues (j.deliver h owner n stale).2 := by
  rw [deliver]
  split
  · exact ⟨rfl, rfl⟩
  · exact (call_above ..).continues

theorem rest_continues {owner : RuntimeId} {now limit : Time}
    (ht : j.task = .loop owner (some now) limit) : j.Continues (j.rest h owner limit).2 := by
  rw [rest]
  split
  · exact ⟨rfl, rfl⟩
  · dsimp only
    split
    · exact ⟨rfl, rfl⟩
    · split
      · exact ⟨rfl, by rw [ht]; rfl⟩
      · exact ⟨rfl, rfl⟩

/-- A job stays at its seat and goes on with the task that it was given. -/
theorem step_continues (hu : (j.step h).2.Unbroken) : j.Continues (j.step h).2 := by
  have H := j.step_advances h
  generalize j.step h = p at H hu
  cases H with
  | begins hf ht => exact ⟨rfl, by rw [ht]; rfl⟩
  | hands => exact j.counted_continues.trans (deliver_continues ..)
  | rests hf ht hn => exact rest_continues ht
  | renders => exact (render_above ..).continues
  | calls => exact (native_above ..).of_push.continues
  | resumes =>
    have H := resume_above_of_unbroken hu
    exact ⟨H.seat_eq, by rw [H.task_eq]⟩
  | concludes =>
    rw [conclude]
    split <;> exact ⟨rfl, rfl⟩
  | proceeds =>
    unfold proceed
    dsimp only
    split <;> exact ⟨rfl, rfl⟩
  | _ => exact ⟨rfl, rfl⟩

theorem eq_ended_of_mem_ending {e : Event} (he : e ∈ j.ending) : e = .ended := by
  rw [ending] at he
  split at he
  · exact List.mem_singleton.1 he
  · cases he

theorem pass?_of_not_polls (ht : j.task.polls = false) : j.pass? = none := by
  rw [pass?]
  split
  · next ht' => rw [ht'] at ht; cases ht
  · next ht' => rw [ht'] at ht; cases ht
  · rfl

theorem doings_of_focus (hf : j.focus ≠ .take) {e : Event} (he : e ∈ j.doings h) :
    e = .drained ∨ e = .settled := by
  rw [doings] at he
  split at he
  · next hf' => exact absurd hf' hf
  · split at he
    · split at he
      · exact .inr (List.mem_singleton.1 he)
      · cases he
    · split at he
      · exact .inr (List.mem_singleton.1 he)
      · cases he
    · cases he
  · split at he
    · exact .inl (List.mem_singleton.1 he)
    · cases he
  · cases he

theorem doings_of_not_polls (ht : j.task.polls = false) {e : Event} (he : e ∈ j.doings h) :
    e = .drained ∨ e = .settled := by
  by_cases hf : j.focus = .take
  · simp only [doings, hf, pass?_of_not_polls ht] at he
    cases he
  · exact doings_of_focus hf he

theorem events_of_doings (hd : ∀ e ∈ j.doings h, e = .drained ∨ e = .settled) :
    .polled ∉ j.events h ∧ .called ∉ j.events h := by
  have hevents (e : Event) (he : e ∈ j.events h) : (e = .drained ∨ e = .settled) ∨ e = .ended := by
    rw [events] at he
    split at he
    · cases he
    · exact (List.mem_append.1 he).imp (hd e) eq_ended_of_mem_ending
  constructor <;> intro he <;> obtain (he | he) | he := hevents _ he <;> cases he

/-- A job whose task does not look for notifications does not look for any, and calls no callback
in its steps. -/
theorem events_of_not_polls (ht : j.task.polls = false) :
    .polled ∉ j.events h ∧ .called ∉ j.events h :=
  events_of_doings fun _ he => doings_of_not_polls ht he

/-! ### Beginnings -/

theorem require_above (h : Host E) (seat : Seat) (owner : RuntimeId) (q : Question)
    (main : Option String) : (start seat (.require main) .take : Job E).Above
      (require h seat owner q main).2 :=
  act_above fun h reply => answer_above h _ reply

end Job

theorem Errand.begin_seat (h : Host E) (errand : Errand E) :
    (errand.begin h).2.seat = errand.seat := by
  cases errand with
  | require seat owner q main => exact (Job.require_above h seat owner q main).seat_eq
  | notify seat owner n => exact (Job.deliver_continues ..).seat_eq
  | _ => rfl

/-- The script that runs the microtasks is at the bottom of a job that is begun. -/
theorem Errand.begin_based {D : E.Script → Prop} (M : E.Marks D) (h : Host E) (errand : Errand E) :
    (errand.begin h).2.Based D := by
  cases errand with
  | evaluate seat s => exact Job.based_of_waiting rfl fun _ => rfl
  | require seat owner q main =>
    have H := Job.require_above h seat owner q main
    exact Job.based_of_waiting H.waiting_eq fun hidle => absurd H.work hidle
  | notify seat owner n => exact Job.deliver_based rfl rfl ..
  | runReady seat owner now => exact Job.based_of_waiting rfl fun _ => rfl
  | runLoop seat owner limit => exact Job.drain_based M rfl ..

/-- The beginning of a job does what its task owes at first. -/
theorem Errand.begin_follows (h : Host E) (errand : Errand E) :
    (errand.begin h).2.task.opening.follow (errand.events h) = some (errand.begin h).2.duty := by
  cases errand with
  | evaluate seat s => rfl
  | require seat owner q main =>
    have H := Job.require_above h seat owner q main
    rw [events, begin, Job.ending_of_work H.work, Job.duty_of_work H.work, Job.workDuty,
      H.waiting_eq, H.task_eq]
    rfl
  | notify seat owner n =>
    rw [events, doings, begin, Job.notify, Job.deliver_task]
    exact Job.deliver_follows rfl (by rintro ⟨⟩) owner n (.inr ⟨_, rfl⟩)
  | runReady seat owner now => rfl
  | runLoop seat owner limit => rfl

/-- What may happen when a job is begun. -/
theorem Errand.events_cases (h : Host E) (errand : Errand E) :
    errand.events h = [] ∨ errand.events h = [.drained] ∨ (errand.begin h).2.task = .deliver ∧
      (errand.events h = [.called] ∨ errand.events h = [.ended]) := by
  cases errand with
  | evaluate seat s => exact .inl rfl
  | require seat owner q main =>
    exact .inl (Job.ending_of_work (Job.require_above h seat owner q main).work)
  | notify seat owner n =>
    refine .inr (.inr ⟨Job.deliver_task .., ?_⟩)
    rw [events, doings, Job.callEvents, begin, Job.notify, Job.deliver]
    rcases h.takeCallback owner n with ⟨_ | callback, h'⟩
    · exact .inr rfl
    · dsimp only
      rw [Job.ending_of_work (Job.call_above ..).work]
      exact .inl rfl
  | runReady seat owner now => exact .inl rfl
  | runLoop seat owner limit => exact .inr (.inl rfl)

end ScriptHost
