import ScriptHost.Proofs.Host.Discipline
import ScriptHost.Proofs.Script.Microtasks

/-!
# Microtasks along runs

Microtasks are run by jobs alone, when no script of the job is running or waiting, once after each
callback, before each load from the top level ends, and when the event loop begins. While they wait
they stand in a queue, and the running of microtasks does not end before the queue is empty. So what
a callback has queued, and what that has queued in turn, has been run before another callback is
called.

## Main definitions

* `Job.ScriptFree`: no script runs in a job, and none waits in it.
* `World.seatEvents`: what happens to the jobs of an engine in a move.
* `World.startedMicrotasks`, `World.queuedMicrotasks`: the microtasks that a move starts, and those
  that it queues.
* `World.Untouched`, `World.OneAtATime`: runs in which nothing outside of the library touches the
  microtasks, and in which an engine has one job at a time.

## Main results

* `World.drains_run`: microtasks are run exactly when a job has them run.
* `World.waiting_run`: microtasks are started in the order in which they were queued.
* `World.waiting_of_settled`: when a job's microtasks have run, none waits.
* `World.microtasks_disciplined`: the discipline of microtasks in every run.
-/

namespace ScriptHost

variable {E : Engine}

namespace Job

/-- No script runs in a job, and none waits in it: neither a callback nor the body of a module. -/
def ScriptFree (j : Job E) : Prop := j.stack = [] ∧ ∀ s, j.focus ≠ .script s

/-- The microtask that a job starts in its next step. -/
def starts? (Q : E.Microtasks) (h : Host E) (j : Job E) : Option E.Value :=
  match j.focus with
  | .script s => Q.starts? j.seat s h.engines
  | _ => none

variable {Q : E.Microtasks} {h : Host E} {j : Job E} {seat : Seat}

theorem count_drained_ending (j : Job E) : j.ending.count .drained = 0 := by
  rw [ending]
  split <;> rfl

theorem count_drained_callEvents (h : Host E) (owner : RuntimeId) (n : Notification) :
    (callEvents h owner n).count .drained = 0 := by
  rw [callEvents]
  split <;> rfl

/-- A step has microtasks run once or not at all. -/
theorem count_drained_events (h : Host E) (j : Job E) :
    (j.events h).count .drained = if j.drains then 1 else 0 := by
  by_cases hover : j.IsOver
  · obtain ⟨o, hf⟩ := hover
    rw [events, if_pos ⟨o, hf⟩, drains, hf]
    rfl
  rw [events, if_neg hover, List.count_append, count_drained_ending, Nat.add_zero]
  cases hf : j.focus with
  | take =>
    simp only [doings, hf, drains]
    split
    · rfl
    · split
      · rfl
      · exact count_drained_callEvents ..
  | script s =>
    simp only [doings, hf, drains]
    split
    · split <;> rfl
    · split <;> rfl
    · rfl
  | result r =>
    simp only [doings, hf]
    split <;> rfl
  | _ => simp only [doings, hf, drains]; rfl

theorem scriptFree_of_drains (hd : j.drains = true) : j.ScriptFree ∧ ¬j.IsOver := by
  rw [drains] at hd
  split at hd
  · cases hd
  · next hf hs _ _ =>
    rw [ScriptFree, IsOver, hf]
    exact ⟨⟨hs, by rintro _ ⟨⟩⟩, by rintro ⟨_, ⟨⟩⟩⟩
  · cases hd

/-- Only the step of its script does something to the microtasks that wait. -/
theorem step_waiting (hQ : Q.Lawful) (h : Host E) (j : Job E) (seat : Seat) :
    Q.waiting seat (j.step h).1.engines = Q.waiting seat (j.stepped h) := by
  obtain ⟨s, hs, he⟩ := j.step_operates hQ.operates h
  rw [he, ← (hs seat).2]
  split
  · exact hQ.run_waiting ..
  · rfl

theorem stepped_waiting_of_ne (hQ : Q.Lawful) (hne : seat ≠ j.seat) :
    Q.waiting seat (j.stepped h) = Q.waiting seat h.engines := by
  unfold stepped
  split
  · exact hQ.step_others _ _ _ _ hne
  · rfl

theorem stepped_waiting_of_starts (hQ : Q.Lawful) {v : E.Value} (hv : j.starts? Q h = some v) :
    Q.waiting j.seat h.engines = v :: Q.waiting j.seat (j.stepped h) := by
  cases hf : j.focus with
  | script s =>
    rw [starts?, hf] at hv
    rw [stepped, hf]
    exact hQ.step_starts _ _ _ _ hv
  | _ =>
    rw [starts?, hf] at hv
    cases hv

theorem stepped_waiting_of_none (hQ : Q.Lawful) (hv : j.starts? Q h = none) :
    Q.waiting j.seat h.engines <+: Q.waiting j.seat (j.stepped h) := by
  cases hf : j.focus with
  | script s =>
    rw [starts?, hf] at hv
    rw [stepped, hf]
    exact hQ.step_queues _ _ _ hv
  | _ => exact ⟨[], by rw [stepped, hf, List.append_nil]⟩

/-- A running of microtasks is counted for its engine. -/
theorem counts_of_drains (hQ : Q.Lawful) (seat seat' : Seat) (b : Bool) (s : E.State) :
    Q.drains seat' (if b then (E.microtasks seat s).2 else s) =
      (Q.drains seat' s).map (· + if seat = seat' then if b then 1 else 0 else 0) := by
  cases b with
  | false => simp
  | true =>
    by_cases hseat : seat = seat'
    · subst hseat
      simpa using hQ.run_drains seat s
    · simp [hseat, hQ.run_others seat seat' s (Ne.symm hseat)]

/-- A step counts as a running of microtasks for its engine exactly if it has them run. -/
theorem step_counts (hQ : Q.Lawful) (h : Host E) (j : Job E) (seat : Seat) :
    Q.drains seat (j.step h).1.engines = (Q.drains seat h.engines).map
      (· + if j.seat = seat then (j.events h).count .drained else 0) := by
  obtain ⟨s, hs, he⟩ := j.step_operates hQ.operates h
  have hstepped : Q.drains seat (j.stepped h) = Q.drains seat h.engines := by
    unfold stepped
    split
    · exact hQ.step_drains ..
    · rfl
  rw [he, count_drained_events, ← hstepped, ← (hs seat).1]
  exact counts_of_drains hQ ..

/-- The running of microtasks ends with the script at the bottom of a job. -/
theorem settled_spec (hs : .settled ∈ j.events h) :
    ∃ s, j.focus = .script s ∧ j.stack = [] ∧ j.waiting ≠ none ∧
      ∃ v s', E.step j.seat s h.engines = (.returned v, s') ∨
        E.step j.seat s h.engines = (.threw v, s') := by
  have hbottom (he : .settled ∈
      if j.stack.isEmpty && j.waiting.isSome then [Event.settled] else []) :
      j.stack = [] ∧ j.waiting ≠ none := by
    split at he
    · next hb => simpa [Option.isSome_iff_ne_none] using hb
    · cases he
  rw [events] at hs
  split at hs
  · cases hs
  rcases List.mem_append.1 hs with hs | hs
  · cases hf : j.focus with
    | take =>
      simp only [doings, hf, callEvents] at hs
      split at hs
      · cases hs
      · split at hs
        · simp at hs
        · split at hs <;> simp at hs
    | script s =>
      simp only [doings, hf] at hs
      rcases hstep : E.step j.seat s h.engines with ⟨s₁ | v | v | ⟨f, this, args, rest⟩, s'⟩ <;>
        simp only [hstep] at hs
      case running | native => cases hs
      · obtain ⟨hstack, hw⟩ := hbottom hs
        exact ⟨s, rfl, hstack, hw, v, s', .inl hstep⟩
      · obtain ⟨hstack, hw⟩ := hbottom hs
        exact ⟨s, rfl, hstack, hw, v, s', .inr hstep⟩
    | result r =>
      simp only [doings, hf] at hs
      split at hs <;> simp at hs
    | _ =>
      simp only [doings, hf] at hs
      cases hs
  · cases eq_ended_of_mem_ending hs

/-- When the microtasks of a job have run, none waits. -/
theorem stepped_waiting_of_settled (hQ : Q.Lawful) (hb : j.Based Q.Runner)
    (hs : .settled ∈ j.events h) : Q.waiting j.seat (j.stepped h) = [] := by
  obtain ⟨s, hf, hstack, hw, v, s', hstep⟩ := settled_spec hs
  obtain ⟨s₁, hf₁, hrunner⟩ | ⟨r, hf₁⟩ := hb.focus hw hstack
  · obtain rfl := Focus.script.inj (hf.symm.trans hf₁)
    rw [stepped, hf]
    obtain hstep | hstep := hstep
    · simpa only [hstep] using hQ.returned _ _ _ _ _ hrunner hstep
    · simpa only [hstep] using hQ.threw _ _ _ _ _ hrunner hstep
  · rw [hf] at hf₁
    cases hf₁

end Job

namespace Errand

variable {Q : E.Microtasks}

theorem count_drained_events (h : Host E) (errand : Errand E) :
    (errand.events h).count .drained = if errand.drains then 1 else 0 := by
  rw [events, List.count_append, Job.count_drained_ending, Nat.add_zero]
  cases errand with
  | notify seat owner n => exact Job.count_drained_callEvents ..
  | _ => rfl

theorem begin_waiting (hQ : Q.Lawful) (h : Host E) (errand : Errand E) (seat : Seat) :
    Q.waiting seat (errand.begin h).1.engines = Q.waiting seat h.engines := by
  obtain ⟨s, hs, he⟩ := errand.begin_operates hQ.operates h
  rw [he, ← (hs seat).2]
  split
  · exact hQ.run_waiting ..
  · rfl

/-- The beginning of a job counts as a running of microtasks exactly if it has them run. -/
theorem begin_counts (hQ : Q.Lawful) (h : Host E) (errand : Errand E) (seat : Seat) :
    Q.drains seat (errand.begin h).1.engines = (Q.drains seat h.engines).map
      (· + if errand.seat = seat then (errand.events h).count .drained else 0) := by
  obtain ⟨s, hs, he⟩ := errand.begin_operates hQ.operates h
  rw [he, count_drained_events, ← (hs seat).1]
  exact Job.counts_of_drains hQ ..

end Errand

namespace World

variable {Q : E.Microtasks} {w : World E} {m : Move E}

/-- What happens to the jobs of the engine at a seat in a move. -/
def seatEvents (seat : Seat) (w : World E) : Move E → List Job.Event
  | .start errand => if errand.seat = seat then errand.events w.host else []
  | .step i =>
    match w.jobs[i]? with
    | some j => if j.seat = seat then j.events w.host else []
    | none => []
  | _ => []

/-- The microtask that a move starts for the engine at a seat. -/
def startedMicrotasks (Q : E.Microtasks) (seat : Seat) (w : World E) : Move E → List E.Value
  | .step i =>
    match w.jobs[i]? with
    | some j => if j.seat = seat then (j.starts? Q w.host).toList else []
    | none => []
  | _ => []

/-- The microtasks that a move queues for the engine at a seat: those that wait after it behind the
ones that were left. -/
def queuedMicrotasks (Q : E.Microtasks) (seat : Seat) (w : World E) (m : Move E) : List E.Value :=
  (Q.waiting seat (w.perform m).host.engines).drop
    ((Q.waiting seat w.host.engines).length - (w.startedMicrotasks Q seat m).length)

/-- What lies outside of the library does not touch the microtasks in a move. -/
def Untouched (Q : E.Microtasks) (w : World E) : Move E → Prop
  | .outside engines _ => Q.Same w.host.engines engines
  | _ => True

/-- Moves other than those of jobs leave the microtasks alone. -/
theorem perform_same (hQ : Q.Lawful) (hm : w.Untouched Q m) (hstart : ∀ errand, m ≠ .start errand)
    (hstep : ∀ i, m ≠ .step i) : Q.Same w.host.engines (w.perform m).host.engines := by
  have hasked {α : Type} {id : RuntimeId}
      {f : Scheduler E.Value → LoopSeat → α × Scheduler E.Value × LoopSeat} :
      Q.Same w.host.engines
        (((w.host.scheduling? id f).map Prod.snd).getD w.host).engines := by
    cases hs : w.host.scheduling? id f with
    | none => exact refl_of Q.Same _
    | some p =>
      have he : p.2.engines = w.host.engines := Host.scheduling?_engines hs
      rw [Option.map_some, Option.getD_some, he]
      exact refl_of Q.Same _
  cases m with
  | outside engines platform => exact hm
  | attach seat config resolver =>
    exact Host.attach_operates hQ.operates w.host seat config resolver
  | attachFiles seat config => exact Host.attachFiles_operates hQ.operates w.host seat config
  | drop seat =>
    simp only [perform, Host.drop]
    split <;> exact refl_of Q.Same _
  | setTimer | clearTimer | nextTick => exact hasked
  | stop id =>
    simp only [perform, Host.stopLoop, Host.update_engines]
    exact refl_of Q.Same _
  | start errand => exact absurd rfl (hstart errand)
  | step i => exact absurd rfl (hstep i)

/-- In a move microtasks are run exactly when a job has them run. -/
theorem perform_counts (hQ : Q.Lawful) (hm : w.Untouched Q m) (seat : Seat) :
    Q.drains seat (w.perform m).host.engines =
      (Q.drains seat w.host.engines).map (· + (w.seatEvents seat m).count .drained) := by
  have hnone (d : Option Nat) : d = d.map (· + ([] : List Job.Event).count .drained) := by simp
  cases m with
  | start errand =>
    rw [perform, errand.begin_counts hQ, seatEvents]
    split <;> rfl
  | step i =>
    rw [perform, seatEvents]
    cases w.jobs[i]? with
    | none => exact hnone _
    | some j =>
      dsimp only
      rw [j.step_counts hQ]
      split <;> rfl
  | _ =>
    have H := perform_same hQ hm (by rintro _ ⟨⟩) (by rintro _ ⟨⟩)
    exact (H seat).1.trans (hnone _)

/-- A move starts the microtask that has waited longest, or queues microtasks behind those that
wait. -/
theorem perform_waiting (hQ : Q.Lawful) (hm : w.Untouched Q m) (seat : Seat) :
    w.startedMicrotasks Q seat m ++ Q.waiting seat (w.perform m).host.engines =
      Q.waiting seat w.host.engines ++ w.queuedMicrotasks Q seat m := by
  have hqueues (hs : w.startedMicrotasks Q seat m = [])
      (H : Q.waiting seat w.host.engines <+: Q.waiting seat (w.perform m).host.engines) :
      w.startedMicrotasks Q seat m ++ Q.waiting seat (w.perform m).host.engines =
        Q.waiting seat w.host.engines ++ w.queuedMicrotasks Q seat m := by
    rw [queuedMicrotasks, hs]
    exact (List.prefix_iff_eq_append.1 H).symm
  have hsame (hs : w.startedMicrotasks Q seat m = [])
      (H : Q.waiting seat (w.perform m).host.engines = Q.waiting seat w.host.engines) :=
    hqueues hs (H ▸ List.prefix_rfl)
  cases m with
  | start errand => exact hsame rfl (errand.begin_waiting hQ w.host seat)
  | step i =>
    cases hj : w.jobs[i]? with
    | none => exact hsame (by simp only [startedMicrotasks, hj]) (by simp only [perform, hj])
    | some j =>
      have hafter : Q.waiting seat (w.perform (.step i)).host.engines =
          Q.waiting seat (j.stepped w.host) := by
        simp only [perform, hj]
        exact j.step_waiting hQ w.host seat
      by_cases hseat : j.seat = seat
      · subst hseat
        cases hv : j.starts? Q w.host with
        | none =>
          refine hqueues (by simp [startedMicrotasks, hj, hv]) ?_
          rw [hafter]
          exact Job.stepped_waiting_of_none hQ hv
        | some v =>
          have hstarted : w.startedMicrotasks Q j.seat (.step i) = [v] := by
            simp [startedMicrotasks, hj, hv]
          have hbefore := Job.stepped_waiting_of_starts hQ hv
          rw [queuedMicrotasks, hstarted, hbefore, hafter]
          simp
      · refine hsame (by simp [startedMicrotasks, hj, hseat]) (hafter.trans ?_)
        exact Job.stepped_waiting_of_ne hQ (Ne.symm hseat)
  | _ =>
    have H := perform_same hQ hm (by rintro _ ⟨⟩) (by rintro _ ⟨⟩)
    exact hsame rfl (H seat).2

/-- Along a run microtasks are run exactly when a job has them run. -/
theorem drains_run (hQ : Q.Lawful) {ms : List (Move E)} (hms : w.Along (Untouched Q) ms)
    (seat : Seat) : Q.drains seat (w.run ms).host.engines =
      (Q.drains seat w.host.engines).map (· + (record (seatEvents seat) w ms).count .drained) := by
  induction ms generalizing w with
  | nil => simp [record]
  | cons m ms ih =>
    rw [run_cons, ih hms.2, perform_counts hQ hms.1, record, List.count_append, Option.map_map]
    congr 1
    funext n
    simp [Nat.add_assoc]

/-- Along a run microtasks are started in the order in which they were queued. -/
theorem waiting_run (hQ : Q.Lawful) {ms : List (Move E)} (hms : w.Along (Untouched Q) ms)
    (seat : Seat) :
    record (startedMicrotasks Q seat) w ms ++ Q.waiting seat (w.run ms).host.engines =
      Q.waiting seat w.host.engines ++ record (queuedMicrotasks Q seat) w ms := by
  induction ms generalizing w with
  | nil => simp [record]
  | cons m ms ih =>
    rw [run_cons, record, record, List.append_assoc, ih hms.2, ← List.append_assoc,
      perform_waiting hQ hms.1, List.append_assoc]

/-! ### When microtasks are run -/

/-- An engine has one job at a time: another is begun only when it has ended. -/
def OneAtATime (w : World E) : Move E → Prop
  | .start errand => ∀ j ∈ w.jobs, j.seat = errand.seat → j.IsOver
  | _ => True

instance (w : World E) : (m : Move E) → Decidable (w.OneAtATime m)
  | .start errand =>
    inferInstanceAs (Decidable (∀ j ∈ w.jobs, j.seat = errand.seat → j.IsOver))
  | .outside .. | .attach .. | .attachFiles .. | .drop _ | .setTimer .. | .clearTimer ..
  | .nextTick .. | .stop _ | .step _ => isTrue trivial

/-- Of two jobs of an engine, one has ended. -/
def Alone (w : World E) : Prop :=
  ∀ (i k : Nat) (j j' : Job E), i ≠ k → w.jobs[i]? = some j → w.jobs[k]? = some j' →
    j.seat = j'.seat → j.IsOver ∨ j'.IsOver

theorem scriptFree_of_isOver {j : Job E} (hb : j.Based fun _ => True) (hj : j.IsOver) :
    j.ScriptFree := by
  obtain ⟨o, ho⟩ := hj
  have hidle := hb.idle (by rw [ho]; exact id)
  rw [Job.ScriptFree, ho]
  exact ⟨hidle.1, by rintro _ ⟨⟩⟩

/-- A job after a move is at the seat at which it was, and stays ended; or it has been begun. -/
theorem Reached.seat_perform (hw : w.Reached) {i : Nat} {j' : Job E}
    (hj' : (w.perform m).jobs[i]? = some j') :
    (∃ j, w.jobs[i]? = some j ∧ j'.seat = j.seat ∧ (j.IsOver → j'.IsOver)) ∨
      ∃ errand, m = .start errand ∧ i = w.jobs.length ∧ j'.seat = errand.seat := by
  have hu := (hw.perform m).unbroken j' (List.mem_of_getElem? hj')
  obtain ⟨j, hj, ⟨-, rfl⟩ | ⟨-, rfl⟩⟩ | ⟨errand, hm, hi, rfl⟩ := job_perform hj'
  · refine .inl ⟨j, hj, (Job.step_continues hu).seat_eq, ?_⟩
    rintro ⟨o, ho⟩
    exact ⟨o, by rw [Job.step, ho]; exact ho⟩
  · exact .inl ⟨j', hj, rfl, id⟩
  · exact .inr ⟨errand, hm, hi, errand.begin_seat w.host⟩

theorem Alone.perform (H : w.Alone) (hw : w.Reached) (hm : w.OneAtATime m) :
    (w.perform m).Alone := by
  intro i k j j' hne hi hk hseat
  obtain ⟨j₁, hj₁, hseat₁, hover₁⟩ | ⟨errand, rfl, hi', hseat₁⟩ := hw.seat_perform hi <;>
    obtain ⟨j₂, hj₂, hseat₂, hover₂⟩ | ⟨errand', hm', hk', hseat₂⟩ := hw.seat_perform hk
  · have hboth := H i k j₁ j₂ hne hj₁ hj₂ (hseat₁.symm.trans (hseat.trans hseat₂))
    exact hboth.imp hover₁ hover₂
  · subst hm'
    have hover := hm j₁ (List.mem_of_getElem? hj₁) (hseat₁.symm.trans (hseat.trans hseat₂))
    exact .inl (hover₁ hover)
  · have hover := hm j₂ (List.mem_of_getElem? hj₂)
      (hseat₂.symm.trans (hseat.symm.trans hseat₁))
    exact .inr (hover₂ hover)
  · exact absurd (hi'.trans hk'.symm) hne

theorem Alone.run (H : w.Alone) (hw : w.Reached) {ms : List (Move E)}
    (hms : w.Along OneAtATime ms) : (w.run ms).Alone := by
  induction ms generalizing w with
  | nil => exact H
  | cons m ms ih => exact ih (H.perform hw hms.1) (hw.perform m) hms.2

/-- Microtasks are run by a job in which there is no script. -/
theorem scriptFree_of_drained {i : Nat} {j : Job E} (hj : w.jobs[i]? = some j)
    (hd : .drained ∈ w.jobEvents i m) : j.ScriptFree ∧ ¬j.IsOver ∧ m = .step i := by
  by_cases hm : m = .step i
  · subst hm
    have hev : w.jobEvents i (.step i) = j.events w.host := by simp [jobEvents, hj]
    rw [hev] at hd
    have hcount := List.count_pos_iff.2 hd
    rw [Job.count_drained_events] at hcount
    have hdrains : j.drains = true := by
      by_contra hn
      simp [hn] at hcount
    obtain ⟨hfree, hover⟩ := Job.scriptFree_of_drains hdrains
    exact ⟨hfree, hover, rfl⟩
  · rw [jobEvents_of_ne hj hm] at hd
    cases hd

/-- If an engine has one job at a time, there is no script in any of its jobs when microtasks are
run for it. -/
theorem Alone.scriptFree (H : w.Alone) (hw : w.Reached) (hm : w.OneAtATime m) {i : Nat}
    (hd : .drained ∈ w.jobEvents i m) {j' : Job E} (hj' : (w.perform m).jobs[i]? = some j') :
    ∀ j ∈ w.jobs, j.seat = j'.seat → j.ScriptFree := by
  intro j hj hseat
  have hb := hw.based marks_true j hj
  obtain ⟨j₁, hj₁, hseat₁, -⟩ | ⟨errand, rfl, -, hseat₁⟩ := hw.seat_perform hj'
  · obtain ⟨hfree, hover, -⟩ := scriptFree_of_drained hj₁ hd
    obtain ⟨k, hk⟩ := List.mem_iff_getElem?.1 hj
    by_cases hik : i = k
    · subst hik
      rw [hj₁] at hk
      exact Option.some.inj hk ▸ hfree
    · exact scriptFree_of_isOver hb
        ((H i k j₁ j hik hj₁ hk (hseat₁.symm.trans hseat.symm)).resolve_left hover)
  · exact scriptFree_of_isOver hb (hm j hj (hseat.trans hseat₁))

/-- When the microtasks of a job have run, none waits for its engine. -/
theorem waiting_of_settled (hQ : Q.Lawful) (hw : w.Reached) {i : Nat} {j : Job E}
    (hj : w.jobs[i]? = some j) (hs : .settled ∈ w.jobEvents i m) :
    Q.waiting j.seat (w.perform m).host.engines = [] := by
  have hm : m = .step i := by
    by_contra hm
    rw [jobEvents_of_ne hj hm] at hs
    cases hs
  subst hm
  have hev : w.jobEvents i (.step i) = j.events w.host := by simp [jobEvents, hj]
  rw [hev] at hs
  have hb := hw.based hQ.marks j (List.mem_of_getElem? hj)
  have hafter : (w.perform (.step i)).host = (j.step w.host).1 := by simp only [perform, hj]
  rw [hafter, j.step_waiting hQ]
  exact Job.stepped_waiting_of_settled hQ hb hs

/-- The discipline of microtasks in a run. -/
structure KeepsDiscipline (w₀ : World E) (ms : List (Move E)) : Prop where
  /-- Jobs have them run once after each callback and before anything else happens, once in each
  load, and at the beginning of the event loop, but never else. -/
  jobs : ∀ (i : Nat) (j : Job E), (w₀.run ms).jobs[i]? = some j →
    j.Disciplined (record (jobEvents i) w₀ ms)
  /-- A job has them run when there is no script in it. -/
  scriptFree : ∀ (i : Nat) (m : Move E), .drained ∈ (w₀.run ms).jobEvents i m →
    ∀ j, (w₀.run ms).jobs[i]? = some j → j.ScriptFree
  /-- If each engine has one job at a time, there is no script in any job of the engine then. -/
  seatFree : ∀ (i : Nat) (m : Move E), .drained ∈ (w₀.run ms).jobEvents i m →
    w₀.Along OneAtATime (ms ++ [m]) →
    ∀ j', (w₀.run (ms ++ [m])).jobs[i]? = some j' →
      ∀ j ∈ (w₀.run ms).jobs, j.seat = j'.seat → j.ScriptFree
  /-- Native functions do not have them run, whichever they are and wherever they are called. -/
  natives : ∀ Q : E.Microtasks, Q.Lawful →
    ∀ (f : Native) (this : E.Value) (args : List E.Value) (seat : Seat) (h : Host E),
      Q.Same h.engines (f.invoke this args seat h).2.engines
  /-- For each engine they are run as often as its jobs have them run. -/
  counted : ∀ Q : E.Microtasks, Q.Lawful → w₀.Along (Untouched Q) ms →
    ∀ seat, Q.drains seat (w₀.run ms).host.engines = (Q.drains seat w₀.host.engines).map
      (· + (record (seatEvents seat) w₀ ms).count .drained)
  /-- When the microtasks of a job have run, none waits for its engine, and all that have been
  queued so far have been started, in the order in which they were queued. -/
  settled : ∀ Q : E.Microtasks, Q.Lawful → ∀ (i : Nat) (j : Job E) (m : Move E),
    (w₀.run ms).jobs[i]? = some j → .settled ∈ (w₀.run ms).jobEvents i m →
    Q.waiting j.seat (w₀.run (ms ++ [m])).host.engines = [] ∧
      (w₀.Along (Untouched Q) (ms ++ [m]) → record (startedMicrotasks Q j.seat) w₀ (ms ++ [m]) =
        Q.waiting j.seat w₀.host.engines ++ record (queuedMicrotasks Q j.seat) w₀ (ms ++ [m]))

/-- In every run the discipline of microtasks is kept. -/
theorem microtasks_disciplined (engines : E.State) (platform : Platform)
    (profiles : Seat → Profile) (ms : List (Move E)) :
    (initial engines platform profiles).KeepsDiscipline ms := by
  have hinitial : (initial engines platform profiles : World E).Reached :=
    ⟨engines, platform, profiles, [], rfl⟩
  have hlast (m : Move E) : (initial engines platform profiles).run (ms ++ [m]) =
      ((initial engines platform profiles).run ms).perform m := run_append ..
  constructor
  case jobs => exact rounds_disciplined engines platform profiles ms
  case scriptFree => exact fun i m hd j hj => (scriptFree_of_drained hj hd).1
  case seatFree =>
    intro i m hd hone j' hj'
    obtain ⟨hms, hm, -⟩ := along_append.1 hone
    have halone : (initial engines platform profiles : World E).Alone := by rintro _ _ _ _ _ ⟨⟩
    rw [hlast] at hj'
    exact (halone.run hinitial hms).scriptFree (hinitial.run ms) hm hd hj'
  case natives =>
    exact fun Q hQ f this args seat h => f.invoke_operates hQ.operates this args seat h
  case counted => exact fun Q hQ hms seat => drains_run hQ hms seat
  case settled =>
    intro Q hQ i j m hj hs
    have hnone := waiting_of_settled hQ (hinitial.run ms) hj hs
    rw [← hlast] at hnone
    refine ⟨hnone, fun hms => ?_⟩
    have hwaiting := waiting_run hQ hms j.seat
    rwa [hnone, List.append_nil] at hwaiting

/-- An engine with two functions: the first queues a microtask that queues another one, the second
throws. -/
def callbackEngine : Script.State :=
  let nested : Json := .array [.string "microtask", .array [.string "fn"]]
  let queues : List Json := [.array [.string "microtask", .array [.string "fn", nested]]]
  let s := ((Script.State.empty.seat [] [] []).newOf (.function queues none)).2
  (s.newOf (.function [.array [.string "throw", .string "late"]] none)).2

/-- A host with that engine. -/
def callbackWorld : World Script.engine := initial callbackEngine {} fun _ => ⟨⟨1⟩, 0⟩

/-- A run in which both functions are queued before the next timer, and then everything that is
ready is delivered, with so many steps. -/
def callbackRun (n : Nat) : List (Move Script.engine) :=
  [.attach 0 {} (.ofFiles "/"), .nextTick ⟨1⟩ (.object 1), .nextTick ⟨1⟩ (.object 2),
    .start (.runReady 0 ⟨1⟩ 0)] ++ List.replicate n (.step 0)

theorem callbackRun_succ (n : Nat) : callbackRun (n + 1) = callbackRun n ++ [.step 0] := by
  rw [callbackRun, callbackRun, List.append_assoc, List.replicate_succ']

theorem callbackRun_untouched (n : Nat) :
    callbackWorld.Along (Untouched Script.microtasks) (callbackRun n) := by
  refine along_of_forall fun m hm w => ?_
  rcases List.mem_append.1 hm with hm | hm
  · simp only [List.mem_cons, List.not_mem_nil, or_false] at hm
    rcases hm with rfl | rfl | rfl | rfl <;> trivial
  · rw [List.eq_of_mem_replicate hm]
    trivial

/-- In that run microtasks are run once after each of the two callbacks, when the first has returned
and when the second has thrown, and no script is there when they are. Both microtasks of the first
callback have been started when its microtasks have run. -/
theorem callbackRun_disciplined :
    (∃ j, (callbackWorld.run (callbackRun 36)).jobs[0]? = some j ∧ j.Disciplined
      [.polled, .called, .drained, .settled, .polled, .called, .drained, .settled, .ended]) ∧
    (∀ j ∈ (callbackWorld.run (callbackRun 8)).jobs, j.seat = 0 → j.ScriptFree) ∧
    Script.microtasks.drains 0 (callbackWorld.run (callbackRun 36)).host.engines = some 2 ∧
    record (startedMicrotasks Script.microtasks 0) callbackWorld (callbackRun 25) =
      record (queuedMicrotasks Script.microtasks 0) callbackWorld (callbackRun 25) ∧
    (record (startedMicrotasks Script.microtasks 0) callbackWorld (callbackRun 25)).length = 2 := by
  have H (n : Nat) : callbackWorld.KeepsDiscipline (callbackRun n) :=
    microtasks_disciplined (E := Script.engine) callbackEngine {} (fun _ => ⟨⟨1⟩, 0⟩)
      (callbackRun n)
  have hjob (n : Nat) (h : ((callbackWorld.run (callbackRun n)).jobs[0]?.map Job.seat) = some 0) :
      ∃ j, (callbackWorld.run (callbackRun n)).jobs[0]? = some j ∧ j.seat = 0 :=
    Option.map_eq_some_iff.1 h
  refine ⟨?_, ?_, ?_, ?_, ?_⟩
  · obtain ⟨j, hj, -⟩ := hjob 36 (by decide +kernel)
    have hevents : record (jobEvents 0) callbackWorld (callbackRun 36) =
        [.polled, .called, .drained, .settled, .polled, .called, .drained, .settled, .ended] := by
      decide +kernel
    exact ⟨j, hj, hevents ▸ (H 36).jobs 0 j hj⟩
  · obtain ⟨j', hj', hseat⟩ := hjob (8 + 1) (by decide +kernel)
    rw [callbackRun_succ] at hj'
    have hfree := (H 8).seatFree 0 (.step 0) (by decide +kernel) (by decide +kernel) j' hj'
    rwa [hseat] at hfree
  · rw [(H 36).counted _ Script.microtasks_lawful (callbackRun_untouched 36)]
    decide +kernel
  · obtain ⟨j, hj, hseat⟩ := hjob 24 (by decide +kernel)
    have hsettled := (H 24).settled _ Script.microtasks_lawful 0 j (.step 0) hj (by decide +kernel)
    have hnone : Script.microtasks.waiting 0 callbackWorld.host.engines = [] := by decide +kernel
    rw [hseat, ← callbackRun_succ, hnone, List.nil_append] at hsettled
    exact hsettled.2 (callbackRun_untouched 25)
  · decide +kernel

end World

end ScriptHost
