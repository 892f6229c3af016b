import ScriptHost.Proofs.Host.Rounds
import ScriptHost.Proofs.Module.History

/-!
# The discipline of a job

What a job owes orders what happens to it. Each callback is followed by one running of microtasks,
and these have run before the job looks for the next notification or ends; a load has them run once
before it ends, and the event loop has them run at first. Nothing else has them run.

## Main definitions

* `Job.Disciplined`: the order in which the events of a job happen.
* `World.jobEvents`: what happens to a job in a move.

## Main results

* `Duty.follow_eq_owed`: microtasks are owed at first, or because a callback has just been called.
* `World.Reached.based`: along every run the script that runs the microtasks is at the bottom.
* `World.rounds_disciplined`: in every run the events of every job happen in their order.
-/

namespace ScriptHost

variable {E : Engine}

/-! ### The events of a job -/

namespace Duty

variable {d d' : Duty} {e : Job.Event} {es es' : List Job.Event}

theorem eq_called_of_next (h : d.next e = some .owed) : e = .called := by
  cases d <;> cases e <;> cases h
  rfl

theorem eq_ended_of_next (h : d.next e = some .over) : e = .ended := by
  cases d <;> cases e <;> cases h
  rfl

theorem eq_owed_of_next_called (h : d.next .called = some d') : d' = .owed := by
  cases d <;> cases h
  rfl

theorem eq_of_next_drained (h : d.next .drained = some d') : d = .owed := by
  cases d <;> cases h
  rfl

theorem eq_over_of_next_ended (h : d.next .ended = some d') : d' = .over := by
  cases d <;> cases h
  rfl

theorem follow_over (h : follow .over es = some d) : es = [] := by
  cases es with
  | nil => rfl
  | cons e es => cases e <;> cases h

theorem follow_running (h : follow .running es = some d) :
    es = [] ∨ ∃ es', es = .settled :: es' ∧ follow .clear es' = some d := by
  cases es with
  | nil => exact .inl rfl
  | cons e es =>
    cases e with
    | settled => exact .inr ⟨es, rfl, h⟩
    | _ => cases h

theorem follow_owed (h : follow .owed es = some d) :
    es = [] ∨ ∃ es', es = .drained :: es' ∧ follow .running es' = some d := by
  cases es with
  | nil => exact .inl rfl
  | cons e es =>
    cases e with
    | drained => exact .inr ⟨es, rfl, h⟩
    | _ => cases h

/-- What was owed before an event. -/
theorem follow_split (h : d.follow (es ++ e :: es') = some d') :
    ∃ d₁ d₂, d.follow es = some d₁ ∧ d₁.next e = some d₂ ∧ d₂.follow es' = some d' := by
  rw [follow_append] at h
  obtain ⟨d₁, h₁, h⟩ := Option.bind_eq_some_iff.1 h
  obtain ⟨d₂, h₂, h⟩ := Option.bind_eq_some_iff.1 h
  exact ⟨d₁, d₂, h₁, h₂, h⟩

/-- Microtasks are owed at first, or because a callback has just been called. -/
theorem follow_eq_owed (h : d.follow es = some .owed) :
    es = [] ∧ d = .owed ∨ ∃ es', es = es' ++ [.called] := by
  rcases List.eq_nil_or_concat es with rfl | ⟨es', e, rfl⟩
  · exact .inl ⟨rfl, Option.some.inj h⟩
  · rw [List.concat_eq_append] at h ⊢
    obtain ⟨d₁, d₂, -, hnext, hnil⟩ := follow_split h
    obtain rfl : d₂ = .owed := Option.some.inj hnil
    exact .inr ⟨es', by rw [eq_called_of_next hnext]⟩

/-- A job that has ended has done so in its last event. -/
theorem follow_eq_over (h : d.follow es = some .over) (hd : d ≠ .over) :
    ∃ es', es = es' ++ [.ended] := by
  rcases List.eq_nil_or_concat es with rfl | ⟨es', e, rfl⟩
  · exact absurd (Option.some.inj h) hd
  · rw [List.concat_eq_append] at h ⊢
    obtain ⟨d₁, d₂, -, hnext, hnil⟩ := follow_split h
    obtain rfl : d₂ = .over := Option.some.inj hnil
    exact ⟨es', by rw [eq_ended_of_next hnext]⟩

/-- Without notifications, a job that owes nothing ends. -/
theorem follow_clear (h : follow .clear es = some d) (hpolled : .polled ∉ es)
    (hcalled : .called ∉ es) : es <+: [.ended] := by
  cases es with
  | nil => exact List.nil_prefix
  | cons e es =>
    cases e with
    | polled => exact absurd (List.mem_cons_self ..) hpolled
    | called => exact absurd (List.mem_cons_self ..) hcalled
    | ended =>
      obtain rfl := follow_over h
      exact List.prefix_rfl
    | _ => cases h

/-- Without notifications, a job that owes microtasks has them run once and ends. -/
theorem follow_owed_clear (h : follow .owed es = some d) (hpolled : .polled ∉ es)
    (hcalled : .called ∉ es.tail) : es <+: [.drained, .settled, .ended] := by
  obtain rfl | ⟨es, rfl, h⟩ := follow_owed h
  · exact List.nil_prefix
  obtain rfl | ⟨es, rfl, h⟩ := follow_running h
  · exact ⟨_, rfl⟩
  have H := follow_clear h (fun he => hpolled (by simp [he])) fun he => hcalled (by simp [he])
  simpa using H

/-- A job that owes nothing, and looks for no notifications, calls at most one callback. -/
theorem follow_clear_called (h : follow .clear es = some d) (hpolled : .polled ∉ es)
    (hcalled : .called ∉ es.tail) :
    es <+: [.called, .drained, .settled, .ended] ∨ es <+: [.ended] := by
  cases es with
  | nil => exact .inr List.nil_prefix
  | cons e es =>
    cases e with
    | called =>
      have H := follow_owed_clear h (fun he => hpolled (List.mem_cons_of_mem _ he)) fun he =>
        hcalled (List.mem_of_mem_tail he)
      exact .inl ((List.prefix_cons_inj _).2 H)
    | _ => exact .inr (follow_clear h hpolled (List.not_mem_cons_of_ne_of_not_mem nofun hcalled))

end Duty

namespace Job

variable {h : Host E} {j : Job E} {D : E.Script → Prop} {es : List Event}

/-- What has happened to a job so far. -/
structure InRounds (j : Job E) (es : List Event) : Prop where
  follows : j.task.opening.follow es = some j.duty
  polled : j.task.polls = false → .polled ∉ es
  called : j.task.polls = false → .called ∉ es.tail
  evaluates : j.task = .evaluate → .called ∉ es
  begun : j.task.polls = true → j.task.opening = .owed → es ≠ []

/-- The order in which the events of a job happen. -/
structure Disciplined (j : Job E) (es : List Event) : Prop where
  /-- The call of a callback is followed by the running of microtasks, and nothing else happens
  before these have run. -/
  called : ∀ es₁ es₂, es = es₁ ++ .called :: es₂ →
    es₂ <+: [.drained, .settled] ∨ [.drained, .settled] <+: es₂
  /-- Microtasks are run right after the call of a callback, and at first for a load and in the
  event loop, but never else. -/
  drained : ∀ es₁ es₂, es = es₁ ++ .drained :: es₂ →
    (∃ es₀, es₁ = es₀ ++ [.called]) ∨ es₁ = [] ∧ j.task.opening = .owed
  /-- A load has them run once, before it ends. -/
  require : ∀ main, j.task = .require main → es <+: [.drained, .settled, .ended]
  /-- The event loop begins with them. -/
  loop : ∀ owner now limit, j.task = .loop owner now limit → [.drained] <+: es
  /-- The delivery of a notification has them run once after its callback; if the notification is
  stale, it just ends. -/
  deliver : j.task = .deliver →
    es <+: [.called, .drained, .settled, .ended] ∨ es <+: [.ended]
  /-- The evaluation of a script does not have them run. -/
  evaluate : j.task = .evaluate → es <+: [.ended]
  /-- Nothing happens after the end. -/
  ended : ∀ es₁ es₂, es = es₁ ++ .ended :: es₂ → es₂ = []
  /-- The end is the end of the job. -/
  isOver : .ended ∈ es ↔ j.IsOver

theorem duty_eq_over : j.duty = .over ↔ j.IsOver := by
  constructor
  · intro hd
    by_contra hover
    rw [duty] at hd
    split at hd
    · next o ho => exact hover ⟨o, ho⟩
    · cases hd
    · rw [workDuty] at hd
      split at hd <;> split at hd <;> cases hd
  · rintro ⟨o, ho⟩
    rw [duty, ho]

theorem InRounds.step (H : j.InRounds es) (hb : j.Based D) (hu : (j.step h).2.Unbroken) :
    (j.step h).2.InRounds (es ++ j.events h) := by
  have horigin := (step_continues hu).origin_eq
  have hpolls := Task.polls_of_origin horigin
  have hopening := Task.opening_of_origin horigin
  refine ⟨?_, fun ht he => ?_, fun ht he => ?_, fun ht he => ?_, fun ht ho hnil => ?_⟩
  · rw [hopening, Duty.follow_append, H.follows]
    exact step_follows hb hu
  · rw [hpolls] at ht
    exact (List.mem_append.1 he).elim (H.polled ht) (events_of_not_polls ht).1
  · rw [hpolls] at ht
    cases es with
    | nil => exact (events_of_not_polls ht).2 (List.mem_of_mem_tail he)
    | cons e es => exact (List.mem_append.1 he).elim (H.called ht) (events_of_not_polls ht).2
  · have htask : j.task = .evaluate := by
      rw [ht] at horigin
      cases ht' : j.task <;> rw [ht'] at horigin <;> cases horigin
    refine (List.mem_append.1 he).elim (H.evaluates htask) ?_
    exact (events_of_not_polls (by rw [htask]; rfl)).2
  · rw [hpolls] at ht
    rw [hopening] at ho
    exact H.begun ht ho (List.append_eq_nil_iff.1 hnil).1

/-- The events of a job happen in their order. -/
theorem InRounds.disciplined (H : j.InRounds es) : j.Disciplined es := by
  have hfollows := H.follows
  have hended (es₁ es₂ : List Event) (he : es = es₁ ++ .ended :: es₂) :
      es₂ = [] ∧ j.duty = .over := by
    obtain ⟨d₁, d₂, -, hnext, hrest⟩ := Duty.follow_split (he ▸ hfollows)
    obtain rfl := Duty.eq_over_of_next_ended hnext
    obtain rfl := Duty.follow_over hrest
    exact ⟨rfl, (Option.some.inj hrest).symm⟩
  constructor
  case called =>
    rintro es₁ es₂ rfl
    obtain ⟨d₁, d₂, -, hnext, hrest⟩ := Duty.follow_split hfollows
    obtain rfl := Duty.eq_owed_of_next_called hnext
    obtain rfl | ⟨es₃, rfl, hrest⟩ := Duty.follow_owed hrest
    · exact .inl List.nil_prefix
    obtain rfl | ⟨es₄, rfl, -⟩ := Duty.follow_running hrest
    · exact .inl ⟨_, rfl⟩
    · exact .inr ⟨es₄, rfl⟩
  case drained =>
    rintro es₁ es₂ rfl
    obtain ⟨d₁, d₂, hbefore, hnext, -⟩ := Duty.follow_split hfollows
    obtain rfl := Duty.eq_of_next_drained hnext
    exact (Duty.follow_eq_owed hbefore).symm
  case require =>
    intro main ht
    rw [ht] at hfollows
    exact Duty.follow_owed_clear hfollows (H.polled (by rw [ht]; rfl)) (H.called (by rw [ht]; rfl))
  case loop =>
    intro owner now limit ht
    rw [ht] at hfollows
    obtain rfl | ⟨es, rfl, -⟩ := Duty.follow_owed hfollows
    · exact absurd rfl (H.begun (by rw [ht]; rfl) (by rw [ht]; rfl))
    · exact ⟨es, rfl⟩
  case deliver =>
    intro ht
    rw [ht] at hfollows
    exact Duty.follow_clear_called hfollows (H.polled (by rw [ht]; rfl))
      (H.called (by rw [ht]; rfl))
  case evaluate =>
    intro ht
    rw [ht] at hfollows
    exact Duty.follow_clear hfollows (H.polled (by rw [ht]; rfl)) (H.evaluates ht)
  case ended => exact fun es₁ es₂ he => (hended es₁ es₂ he).1
  case isOver =>
    rw [← duty_eq_over]
    constructor
    · intro he
      obtain ⟨es₁, es₂, he⟩ := List.append_of_mem he
      exact (hended es₁ es₂ he).2
    · intro hd
      rw [hd] at hfollows
      obtain ⟨es', rfl⟩ := Duty.follow_eq_over hfollows (by cases j.task <;> rintro ⟨⟩)
      exact List.mem_append_right _ (List.mem_singleton_self _)

end Job

/-- The beginning of a job is the beginning of its rounds. -/
theorem Errand.begin_inRounds (h : Host E) (errand : Errand E) :
    (errand.begin h).2.InRounds (errand.events h) := by
  have hfollows := errand.begin_follows h
  have hcases := errand.events_cases h
  refine ⟨hfollows, fun ht he => ?_, fun ht he => ?_, fun ht he => ?_, fun ht ho hnil => ?_⟩
  · rcases hcases with hev | hev | ⟨-, hev | hev⟩ <;> rw [hev] at he <;> simp at he
  · rcases hcases with hev | hev | ⟨-, hev | hev⟩ <;> rw [hev] at he <;> simp at he
  · rcases hcases with hev | hev | ⟨ht', -⟩
    · rw [hev] at he; cases he
    · rw [hev] at he; simp at he
    · exact nomatch ht.symm.trans ht'
  · cases errand with
    | evaluate seat s => cases ht
    | require seat owner q main =>
      rw [begin, (Job.require_above h seat owner q main).task_eq] at ht
      cases ht
    | notify seat owner n =>
      rw [begin, Job.notify, Job.deliver_task] at ht
      cases ht
    | runReady seat owner now => cases ho
    | runLoop seat owner limit => cases hnil

namespace World

/-- What happens to the job of a number in a move. -/
def jobEvents (i : Nat) (w : World E) : Move E → List Job.Event
  | .start errand => if w.jobs.length = i then errand.events w.host else []
  | .step k => if k = i then ((w.jobs[i]?).map fun j => j.events w.host).getD [] else []
  | _ => []

theorem Reached.unbroken {w : World E} (hw : w.Reached) : ∀ j ∈ w.jobs, j.Unbroken := by
  obtain ⟨engines, platform, profiles, ms, rfl⟩ := hw
  exact (run_modulesAgree engines platform profiles ms).unbroken

theorem Reached.perform {w : World E} (hw : w.Reached) (m : Move E) : (w.perform m).Reached :=
  hw.run [m]

/-- The script that runs the microtasks is at the bottom of every job. -/
theorem Reached.based {D : E.Script → Prop} (M : E.Marks D) {w : World E} (hw : w.Reached) :
    ∀ j ∈ w.jobs, j.Based D := by
  obtain ⟨engines, platform, profiles, ms, rfl⟩ := hw
  have hinitial : (initial engines platform profiles : World E).Reached :=
    ⟨engines, platform, profiles, [], rfl⟩
  refine (run_invariant (P := fun w => w.Reached ∧ ∀ j ∈ w.jobs, j.Based D)
    ⟨hinitial, by rintro _ ⟨⟩⟩ (fun w m hw => ⟨hw.1.perform m, fun j' hj' => ?_⟩) ms).2
  have hu := (hw.1.perform m).unbroken j' hj'
  obtain ⟨i, hi⟩ := List.mem_iff_getElem?.1 hj'
  obtain ⟨j, hj, ⟨-, rfl⟩ | ⟨-, rfl⟩⟩ | ⟨errand, -, -, rfl⟩ := job_perform hi
  · exact Job.step_based M (hw.2 j (List.mem_of_getElem? hj)) hu
  · exact hw.2 j' (List.mem_of_getElem? hj)
  · exact errand.begin_based M w.host

theorem jobEvents_of_ne {w : World E} {i : Nat} {m : Move E} {j : Job E} (hj : w.jobs[i]? = some j)
    (hm : m ≠ .step i) : w.jobEvents i m = [] := by
  cases m with
  | start errand =>
    have hlt := (List.getElem?_eq_some_iff.1 hj).1
    exact if_neg (Nat.ne_of_gt hlt)
  | step k => exact if_neg fun hk => hm (by rw [hk])
  | _ => rfl

/-- Nothing happens to a job that has not been begun. -/
theorem jobEvents_of_perform_none {w : World E} {i : Nat} {m : Move E}
    (hnone : (w.perform m).jobs[i]? = none) : w.jobEvents i m = [] := by
  have hlen : (w.perform m).jobs.length ≤ i := List.getElem?_eq_none_iff.1 hnone
  cases m with
  | start errand =>
    rw [perform, List.length_append, List.length_singleton] at hlen
    exact if_neg (Nat.ne_of_lt hlen)
  | step k =>
    have hbefore := List.getElem?_eq_none (Nat.le_trans (w.length_jobs_le_perform (.step k)) hlen)
    rw [jobEvents, hbefore]
    split <;> rfl
  | _ => rfl

theorem marks_true : E.Marks fun _ => True :=
  ⟨fun _ _ => trivial, fun _ _ => trivial, fun _ _ _ => trivial⟩

/-- What has happened to a job so far, and nothing if it has not been begun. -/
theorem record_inRounds (engines : E.State) (platform : Platform) (profiles : Seat → Profile)
    (i : Nat) (ms : List (Move E)) :
    ∀ j, ((initial engines platform profiles).run ms).jobs[i]? = some j →
      j.InRounds (record (jobEvents i) (initial engines platform profiles) ms) := by
  let P (es : List Job.Event) (w : World E) : Prop := w.Reached ∧ (w.jobs[i]? = none → es = []) ∧
    ∀ j, w.jobs[i]? = some j → j.InRounds es
  have hinitial : P [] (initial engines platform profiles) :=
    ⟨⟨engines, platform, profiles, [], rfl⟩, fun _ => rfl, by rintro _ ⟨⟩⟩
  refine (record_invariant (Q := fun _ _ => True) (P := P)
    (fun es w m hw _ => ⟨hw.1.perform m, fun hnone => ?_, fun j' hj' => ?_⟩)
    hinitial ms (along_true _ ms)).2.2
  · have hlen := List.getElem?_eq_none_iff.1 hnone
    rw [jobEvents_of_perform_none hnone, List.append_nil]
    exact hw.2.1 (List.getElem?_eq_none (Nat.le_trans (w.length_jobs_le_perform m) hlen))
  · obtain ⟨hreached, hbegun, hjobs⟩ := hw
    have hmem := List.mem_of_getElem? hj'
    have hu := (hreached.perform m).unbroken j' hmem
    obtain ⟨j, hj, ⟨rfl, rfl⟩ | ⟨hm, rfl⟩⟩ | ⟨errand, rfl, rfl, rfl⟩ := job_perform hj'
    · have hev : w.jobEvents i (.step i) = j.events w.host := by simp [jobEvents, hj]
      rw [hev]
      exact (hjobs j hj).step (hreached.based marks_true j (List.mem_of_getElem? hj)) hu
    · rw [jobEvents_of_ne hj hm, List.append_nil]
      exact hjobs j' hj
    · rw [hbegun (List.getElem?_eq_none (Nat.le_refl _)), jobEvents, if_pos rfl]
      exact errand.begin_inRounds w.host

/-- In every run the events of every job happen in their order. -/
theorem rounds_disciplined (engines : E.State) (platform : Platform) (profiles : Seat → Profile)
    (ms : List (Move E)) (i : Nat) (j : Job E)
    (hj : ((initial engines platform profiles).run ms).jobs[i]? = some j) :
    j.Disciplined (record (jobEvents i) (initial engines platform profiles) ms) :=
  (record_inRounds engines platform profiles i ms j hj).disciplined

end World

end ScriptHost
