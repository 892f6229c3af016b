import ScriptHost.Proofs.Host.Recast
import ScriptHost.Proofs.Host.WorldDesks

/-!
# Worlds alike but for a job

Two worlds are alike but for a job if they have the same host and the same jobs, except that one job
of the first is stood in for by a job of the second, which may have another number. Runs of two such
worlds are compared move by move: whatever is done in the first is done in the second, and where the
job takes a step in the first, its stand-in takes one in the second. As long as these steps do the
same to the host, the worlds stay alike and hand out the same notifications.

## Main definitions

* `Move.takenBy`: a move with the steps of a job left to its stand-in.
* `World.Alike`: two worlds alike but for a job and its stand-in.
* `World.handings`: the notifications that a move hands out for a runtime.
* `World.GoesOnAs`: whatever is done, a job goes on as another one does in another world.

## Main results

* `World.Alike.run`: worlds stay alike along a run.
* `World.Alike.idle`: they stay alike but for a job that takes no step.
* `World.Alike.goesOnAs`: a job goes on as its stand-in does that has taken more notifications.
-/

namespace ScriptHost

variable {E : Engine}

/-- A move, the steps of the job `n` being left to the job `i`. -/
def Move.takenBy (n i : Nat) : Move E → Move E
  | .step k => if k = n then .step i else .step k
  | m => m

theorem Move.takenBy_self (i : Nat) : Move.takenBy (E := E) i i = id := by
  funext m
  cases m with
  | step k =>
    rw [takenBy]
    split
    · next hk => rw [hk]; rfl
    · rfl
  | _ => rfl

namespace World

/-- The second world is like the first, but for the job `n` of the first, for which the job `i` of
the second stands in. -/
structure Alike (R : Job E → Job E → Prop) (n i : Nat) (w w' : World E) : Prop where
  host_eq : w'.host = w.host
  length_eq : w'.jobs.length = w.jobs.length
  others : ∀ k, k ≠ n → k ≠ i → w'.jobs[k]? = w.jobs[k]?
  job : ∃ j j', w.jobs[n]? = some j ∧ w'.jobs[i]? = some j' ∧ R j j'

/-- The steps of a job and of its stand-in do the same to the host and leave them related; and a
stand-in with another number takes no step of its own. -/
def KeepsAlike (R : Job E → Job E → Prop) (n i : Nat) (w : World E) (m : Move E) : Prop :=
  (m = .step i → n = i) ∧
    (m = .step n → ∀ j j', w.jobs[n]? = some j → R j j' →
      (j'.step w.host).1 = (j.step w.host).1 ∧ R (j.step w.host).2 (j'.step w.host).2)

variable {R : Job E → Job E → Prop} {n i : Nat} {w w' : World E} {m : Move E}

namespace Alike

/-- A move that changes the host, and no job, alike. -/
theorem of_jobs_eq (H : w.Alike R n i w') {h h' : Host E} (hh : h' = h) :
    Alike R n i ⟨h, w.jobs⟩ ⟨h', w'.jobs⟩ :=
  ⟨hh, H.length_eq, H.others, H.job⟩

theorem lt_length (H : w.Alike R n i w') : n < w.jobs.length ∧ i < w.jobs.length := by
  obtain ⟨j, j', hj, hj', -⟩ := H.job
  exact ⟨(List.getElem?_eq_some_iff.1 hj).1, H.length_eq ▸ (List.getElem?_eq_some_iff.1 hj').1⟩

/-- The same job is begun in both worlds. -/
theorem start (H : w.Alike R n i w') (errand : Errand E) :
    (w.perform (.start errand)).Alike R n i (w'.perform (.start errand)) := by
  obtain ⟨hn, hi⟩ := H.lt_length
  have hi' : i < w'.jobs.length := H.length_eq ▸ hi
  obtain ⟨j, j', hj, hj', hR⟩ := H.job
  refine ⟨by simp only [perform, H.host_eq], by simp [perform, H.length_eq], fun k hkn hki => ?_, j,
    j', ?_, ?_, hR⟩
  · simp only [perform, H.host_eq, List.getElem?_append, H.length_eq, H.others k hkn hki]
  · simp only [perform, List.getElem?_append_left hn, hj]
  · simp only [perform, List.getElem?_append_left hi', hj']

/-- The same other job takes a step in both worlds. -/
theorem step_other (H : w.Alike R n i w') {k : Nat} (hkn : k ≠ n) (hki : k ≠ i) :
    (w.perform (.step k)).Alike R n i (w'.perform (.step k)) := by
  simp only [perform, H.others k hkn hki]
  cases w.jobs[k]? with
  | none => exact H
  | some j₁ =>
    obtain ⟨j, j', hj, hj', hR⟩ := H.job
    refine ⟨by simp only [H.host_eq], by simp [H.length_eq], fun k' hn hi => ?_, j, j', ?_, ?_, hR⟩
    · simp only [List.getElem?_set, H.host_eq, H.length_eq, H.others k' hn hi]
    · simp only [List.getElem?_set_ne hkn, hj]
    · simp only [List.getElem?_set_ne hki, hj']

/-- The job and its stand-in take a step. -/
theorem step_job (H : w.Alike R n i w') {R' : Job E → Job E → Prop}
    (hstep : ∀ j j', w.jobs[n]? = some j → R j j' →
      (j'.step w.host).1 = (j.step w.host).1 ∧ R' (j.step w.host).2 (j'.step w.host).2) :
    (w.perform (.step n)).Alike R' n i (w'.perform (.step i)) := by
  obtain ⟨hn, hi⟩ := H.lt_length
  have hi' : i < w'.jobs.length := H.length_eq ▸ hi
  obtain ⟨j, j', hj, hj', hR⟩ := H.job
  obtain ⟨hh, hR'⟩ := hstep j j' hj hR
  simp only [perform, hj, hj', H.host_eq]
  refine ⟨hh, by simp [H.length_eq], fun k hkn hki => ?_, _, _, ?_, ?_, hR'⟩
  · simp only [List.getElem?_set_ne (Ne.symm hkn), List.getElem?_set_ne (Ne.symm hki),
      H.others k hkn hki]
  · simp only [List.getElem?_set_self hn]
  · simp only [List.getElem?_set_self hi']

/-- Worlds stay alike with a move. -/
theorem perform (H : w.Alike R n i w') (hm : w.KeepsAlike R n i m) :
    (w.perform m).Alike R n i (w'.perform (m.takenBy n i)) := by
  cases m with
  | step k =>
    rw [Move.takenBy]
    split
    · next hk =>
      subst hk
      exact H.step_job (hm.2 rfl)
    · next hk =>
      refine H.step_other hk ?_
      rintro rfl
      exact hk (hm.1 rfl).symm
  | start errand => exact H.start errand
  | _ => exact H.of_jobs_eq (by simp only [H.host_eq])

/-- Worlds stay alike along a run. -/
theorem run (H : w.Alike R n i w') {ms : List (Move E)} (hms : w.Along (KeepsAlike R n i) ms) :
    (w.run ms).Alike R n i (w'.run (ms.map (Move.takenBy n i))) := by
  induction ms generalizing w w' with
  | nil => exact H
  | cons m ms ih => exact ih (H.perform hms.1) hms.2

end Alike

/-- A job that takes no step stays what it is. -/
theorem job_run_idle {j : Job E} (hj : w.jobs[i]? = some j) {ms : List (Move E)}
    (hms : .step i ∉ ms) : (w.run ms).jobs[i]? = some j := by
  induction ms generalizing w with
  | nil => exact hj
  | cons m ms ih =>
    have hlt : i < (w.perform m).jobs.length :=
      Nat.lt_of_lt_of_le (List.getElem?_eq_some_iff.1 hj).1 (w.length_jobs_le_perform m)
    refine ih ?_ fun hm => hms (List.mem_cons_of_mem m hm)
    obtain ⟨j', hj'⟩ : ∃ j', (w.perform m).jobs[i]? = some j' := ⟨_, List.getElem?_eq_getElem hlt⟩
    obtain ⟨j₀, hj₀, ⟨rfl, -⟩ | ⟨-, rfl⟩⟩ | ⟨errand, -, rfl, -⟩ := job_perform hj'
    · exact absurd (List.mem_cons_self ..) hms
    · rw [hj', ← hj₀, hj]
    · exact absurd (List.getElem?_eq_some_iff.1 hj).1 (Nat.lt_irrefl _)

/-- While a job takes no step, the worlds stay alike but for it. -/
theorem Alike.idle (H : w.Alike R i i w') {ms : List (Move E)} (hms : .step i ∉ ms) :
    (w.run ms).Alike R i i (w'.run ms) := by
  have hkeeps : w.Along (KeepsAlike R i i) ms := along_of_forall fun m hm _ =>
    ⟨fun _ => rfl, fun hmi => absurd (hmi ▸ hm) hms⟩
  have halike := H.run hkeeps
  rwa [Move.takenBy_self, List.map_id] at halike

/-! ### Notifications -/

/-- The notification that a move hands out for a runtime, with the time of the pass, if there is
one. -/
def handings (id : RuntimeId) (w : World E) (m : Move E) : List (Time × Notification) :=
  (w.handed m id).toList

theorem Alike.handed_eq (H : w.Alike R n i w') (hm : m = .step i → n = i)
    (hR : ∀ j j', R j j' → j'.handed? w.host = j.handed? w.host) :
    w'.handed (m.takenBy n i) = w.handed m := by
  cases m with
  | step k =>
    rw [Move.takenBy]
    split
    · next hk =>
      subst hk
      obtain ⟨j, j', hj, hj', hjj'⟩ := H.job
      simp only [handed, hj, hj', H.host_eq, Option.map_some, hR j j' hjj']
    · next hk =>
      have hki : k ≠ i := by
        rintro rfl
        exact hk (hm rfl).symm
      simp only [handed, H.others k hk hki, H.host_eq]
  | _ => rfl

/-- Worlds that stay alike hand out the same. -/
theorem Alike.record_handings (H : w.Alike R n i w')
    (hR : ∀ h j j', R j j' → j'.handed? h = j.handed? h) {ms : List (Move E)}
    (hms : w.Along (KeepsAlike R n i) ms) (id : RuntimeId) :
    record (handings id) w' (ms.map (Move.takenBy n i)) = record (handings id) w ms := by
  induction ms generalizing w w' with
  | nil => rfl
  | cons m ms ih =>
    rw [List.map_cons, record, record, ih (H.perform hms.1) hms.2, handings, handings,
      H.handed_eq hms.1.1 (hR w.host)]

/-! ### Going on -/

/-- The job `n` of a world goes on as the job `i` of another one does. Whatever is done, and alike
in both worlds but for the steps of these jobs, the hosts are the same, the same notifications are
handed out in the same order, and the two jobs are the same, `c` notifications more having been
taken by the second. -/
def GoesOnAs (n i c : Nat) (w w' : World E) : Prop :=
  ∀ ms : List (Move E), .step i ∉ ms →
    (w'.run (ms.map (Move.takenBy n i))).host = (w.run ms).host ∧
      (∀ id, record (handings id) w' (ms.map (Move.takenBy n i)) = record (handings id) w ms) ∧
      (w'.run (ms.map (Move.takenBy n i))).jobs[i]? = (w.run ms).jobs[n]?.map (Job.counting c)

end World

theorem Job.handed?_counting (h : Host E) (j : Job E) (c : Nat) :
    (j.counting c).handed? h = j.handed? h := by
  obtain ⟨seat, task, waiting, stack, focus⟩ := j
  cases focus with
  | take =>
    cases task with
    | loop owner now limit => cases now <;> rfl
    | _ => rfl
  | _ =>
    rw [handed?_of_focus (by rintro ⟨⟩), handed?_of_focus (by rintro ⟨⟩)]

/-- A job goes on as its stand-in does that has taken more notifications. -/
theorem World.Alike.goesOnAs {n i c : Nat} {w w' : World E}
    (H : w.Alike (fun j j' => j' = j.counting c) n i w') : w.GoesOnAs n i c w' := by
  intro ms hms
  have hkeeps : w.Along (KeepsAlike (fun j j' => j' = j.counting c) n i) ms := by
    refine along_of_forall fun m hm w => ⟨?_, fun _ j j' _ hj' => ?_⟩
    · rintro rfl
      exact absurd hm hms
    · subst hj'
      rw [Job.step_counting]
      exact ⟨rfl, rfl⟩
  have hafter := H.run hkeeps
  obtain ⟨j, j', hj, hj', hjj'⟩ := hafter.job
  refine ⟨hafter.host_eq, H.record_handings (fun h j j' hj' => ?_) hkeeps, ?_⟩
  · rw [hj', Job.handed?_counting]
  · rw [hj, hj', hjj']
    rfl

end ScriptHost
