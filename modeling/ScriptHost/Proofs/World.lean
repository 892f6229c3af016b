import ScriptHost.Host.Attachment
import ScriptHost.Host.Job
import ScriptHost.Script.Engine
import Mathlib.Data.List.Basic

/-!
# Worlds and their runs

A world is a host with the jobs that have been begun on it. It changes by moves: the embedder uses a
runtime directly, attaches or drops one, begins a job, or lets a job take its next step; and what
lies outside of the library, the engines and the platform, may change at any moment. A run is a list
of moves. Since every step of a job is a move of its own, the worlds along a run are all the moments
between steps, those in which script code is running included, and a job may be overtaken at any of
them: native functions of the embedder use a runtime from within a callback, and several engines are
driven by turns.

## Main definitions

* `Errand`, `Errand.begin`: the jobs that an embedder begins.
* `World`, `Move`, `World.perform`, `World.run`: worlds, their moves and their runs.
* `World.initial`, `World.ofForms`: a host without runtimes and without jobs.
* `World.record`: what is observed along a run.
* `World.Reached`: the worlds that runs lead to.

## Main results

* `World.run_invariant`: what holds at first and is kept by every move holds after every run.
* `World.record_invariant`: the same for what has been observed so far together with the world.
* `World.job_perform`: what a job is after a move.
-/

namespace ScriptHost

/-- A job that an embedder begins. -/
inductive Errand (E : Engine) where
  /-- Evaluate a script. -/
  | evaluate (seat : Seat) (s : E.Script)
  /-- Load a module from the top level. -/
  | require (seat : Seat) (owner : RuntimeId) (q : Question) (main : Option String)
  /-- Deliver a notification, whichever it is. -/
  | notify (seat : Seat) (owner : RuntimeId) (n : Notification)
  /-- Deliver everything that is ready at a moment. -/
  | runReady (seat : Seat) (owner : RuntimeId) (now : Time)
  /-- Run the event loop. -/
  | runLoop (seat : Seat) (owner : RuntimeId) (limit : Time)

/-- The host and the job of an errand that has been begun. -/
def Errand.begin {E : Engine} (h : Host E) : Errand E → Host E × Job E
  | .evaluate seat s => (h, Job.evaluate seat s)
  | .require seat owner q main => Job.require h seat owner q main
  | .notify seat owner n => Job.notify h seat owner n
  | .runReady seat owner now => (h, Job.runReady seat owner now)
  | .runLoop seat owner limit => Job.runLoop h seat owner limit

/-- The seat of an errand. -/
def Errand.seat {E : Engine} : Errand E → Seat
  | .evaluate seat _ | .require seat .. | .notify seat .. | .runReady seat .. | .runLoop seat .. =>
    seat

/-- A move of a world. -/
inductive Move (E : Engine) where
  /-- The engines and the platform change, the clock included. -/
  | outside (engines : E.State) (platform : Platform)
  /-- A runtime is attached to an engine. -/
  | attach (seat : Seat) (config : Config) (resolver : Resolver)
  /-- A runtime that resolves modules from the files is attached to an engine. -/
  | attachFiles (seat : Seat) (config : Config)
  /-- The runtime of an engine is taken away. -/
  | drop (seat : Seat)
  /-- A timer is started for a runtime. -/
  | setTimer (id : RuntimeId) (kind : TimerKind) (callback : E.Value) (delay : Double)
  /-- A timer is cancelled. -/
  | clearTimer (id : RuntimeId) (kind : TimerKind) (timer : TimerId)
  /-- A callback is queued before the next timer. -/
  | nextTick (id : RuntimeId) (callback : E.Value)
  /-- The event loop of a runtime is asked to stop. -/
  | stop (id : RuntimeId)
  /-- A job is begun. -/
  | start (errand : Errand E)
  /-- The job of a number takes a step. -/
  | step (i : Nat)

/-- A host with the jobs that have been begun on it. -/
structure World (E : Engine) where
  /-- The host. -/
  host : Host E
  /-- The jobs, oldest first; those that have ended stay. -/
  jobs : List (Job E)

namespace World

variable {E : Engine} {α : Type}

/-- A host without runtimes and without jobs. -/
def initial (engines : E.State) (platform : Platform) (profiles : Seat → Profile) : World E :=
  ⟨.ofEngines engines platform profiles, []⟩

/-- A host of one form engine, without runtimes and without jobs. -/
def ofForms (platform : Platform) : World Script.engine :=
  initial (Script.State.empty.seat [] [] []) platform fun _ => ⟨⟨1⟩, 0⟩

/-- The world after a move. -/
def perform (w : World E) : Move E → World E
  | .outside engines platform => { w with host := { w.host with engines, platform } }
  | .attach seat config resolver => { w with host := (w.host.attach seat config resolver).2 }
  | .attachFiles seat config => { w with host := (w.host.attachFiles seat config).2 }
  | .drop seat => { w with host := w.host.drop seat }
  | .setTimer id kind callback delay =>
    { w with host := ((w.host.setTimer? id kind callback delay).map Prod.snd).getD w.host }
  | .clearTimer id kind timer =>
    { w with host := ((w.host.clearTimer? id kind timer).map Prod.snd).getD w.host }
  | .nextTick id callback =>
    { w with host := ((w.host.nextTick? id callback).map Prod.snd).getD w.host }
  | .stop id => { w with host := w.host.stopLoop id }
  | .start errand => ⟨(errand.begin w.host).1, w.jobs ++ [(errand.begin w.host).2]⟩
  | .step i =>
    match w.jobs[i]? with
    | none => w
    | some j => ⟨(j.step w.host).1, w.jobs.set i (j.step w.host).2⟩

/-- The world after a run. -/
def run (w : World E) (ms : List (Move E)) : World E := ms.foldl perform w

/-- What is observed along a run, move by move. -/
def record (observe : World E → Move E → List α) (w : World E) : List (Move E) → List α
  | [] => []
  | m :: ms => observe w m ++ record observe (w.perform m) ms

/-- Every move of a run is as it should be in the world in which it is made. -/
def Along (Q : World E → Move E → Prop) (w : World E) : List (Move E) → Prop
  | [] => True
  | m :: ms => Q w m ∧ Along Q (w.perform m) ms

instance instDecidableAlong {Q : World E → Move E → Prop} [∀ w m, Decidable (Q w m)] (w : World E) :
    (ms : List (Move E)) → Decidable (w.Along Q ms)
  | [] => inferInstanceAs (Decidable True)
  | m :: ms =>
    have : Decidable (Along Q (w.perform m) ms) := instDecidableAlong ..
    inferInstanceAs (Decidable (Q w m ∧ Along Q (w.perform m) ms))

@[simp]
theorem run_nil (w : World E) : w.run [] = w := rfl

@[simp]
theorem run_cons (w : World E) (m : Move E) (ms : List (Move E)) :
    w.run (m :: ms) = (w.perform m).run ms := rfl

theorem run_append (w : World E) (ms ms' : List (Move E)) :
    w.run (ms ++ ms') = (w.run ms).run ms' :=
  List.foldl_append

theorem record_append (observe : World E → Move E → List α) (w : World E) (ms ms' : List (Move E)) :
    record observe w (ms ++ ms') = record observe w ms ++ record observe (w.run ms) ms' := by
  induction ms generalizing w with
  | nil => rfl
  | cons m ms ih => rw [List.cons_append, record, ih, record, run_cons, List.append_assoc]

theorem along_of_forall {Q : World E → Move E → Prop} {w : World E} {ms : List (Move E)}
    (h : ∀ m ∈ ms, ∀ w, Q w m) : w.Along Q ms := by
  induction ms generalizing w with
  | nil => trivial
  | cons m ms ih =>
    exact ⟨h m (List.mem_cons_self ..) w, ih fun m hm => h m (List.mem_cons_of_mem _ hm)⟩

theorem along_true (w : World E) (ms : List (Move E)) : w.Along (fun _ _ => True) ms :=
  along_of_forall fun _ _ _ => trivial

theorem along_append {Q : World E → Move E → Prop} {w : World E} {ms ms' : List (Move E)} :
    w.Along Q (ms ++ ms') ↔ w.Along Q ms ∧ (w.run ms).Along Q ms' := by
  induction ms generalizing w with
  | nil => exact (iff_of_eq (true_and _)).symm
  | cons m ms ih => exact (and_congr_right' ih).trans and_assoc.symm

theorem along_of_append {Q : World E → Move E → Prop} {w : World E} {ms ms' : List (Move E)}
    (h : w.Along Q (ms ++ ms')) : w.Along Q ms :=
  (along_append.1 h).1

/-- What holds along a run holds of each of its moves. -/
theorem Along.at_prefix {Q : World E → Move E → Prop} {w : World E} {ms ms' : List (Move E)}
    {m : Move E} (h : w.Along Q ms) (hms' : ms' ++ [m] <+: ms) : Q (w.run ms') m := by
  obtain ⟨rest, rfl⟩ := hms'
  exact (along_append.1 (along_of_append h)).2.1

theorem Along.mono {Q Q' : World E → Move E → Prop} (hQ : ∀ w m, Q w m → Q' w m) {w : World E}
    {ms : List (Move E)} (h : w.Along Q ms) : w.Along Q' ms := by
  induction ms generalizing w with
  | nil => trivial
  | cons m ms ih => exact ⟨hQ w m h.1, ih h.2⟩

/-- A world that a run leads to, from a host without runtimes and without jobs. -/
def Reached (w : World E) : Prop :=
  ∃ (engines : E.State) (platform : Platform) (profiles : Seat → Profile) (ms : List (Move E)),
    w = (initial engines platform profiles).run ms

theorem Reached.run {w : World E} (hw : w.Reached) (ms : List (Move E)) : (w.run ms).Reached := by
  obtain ⟨engines, platform, profiles, ms₀, rfl⟩ := hw
  exact ⟨engines, platform, profiles, ms₀ ++ ms, (run_append ..).symm⟩

/-! ### Jobs -/

/-- A job after a move: it has taken a step, has stayed as it was, or has been begun. -/
theorem job_perform {w : World E} {m : Move E} {i : Nat} {j' : Job E}
    (hj' : (w.perform m).jobs[i]? = some j') :
    (∃ j, w.jobs[i]? = some j ∧
      (m = .step i ∧ j' = (j.step w.host).2 ∨ m ≠ .step i ∧ j' = j)) ∨
    ∃ errand, m = .start errand ∧ i = w.jobs.length ∧ j' = (errand.begin w.host).2 := by
  cases m with
  | start errand =>
    simp only [perform] at hj'
    rcases Nat.lt_or_ge i w.jobs.length with hlt | hge
    · rw [List.getElem?_append_left hlt] at hj'
      exact .inl ⟨j', hj', .inr ⟨nofun, rfl⟩⟩
    · rw [List.getElem?_append_right hge] at hj'
      obtain ⟨hlen, rfl⟩ := List.getElem?_eq_some_iff.1 hj'
      have hi : i = w.jobs.length := by
        rw [List.length_singleton] at hlen
        omega
      exact .inr ⟨errand, rfl, hi, List.getElem_singleton ..⟩
  | step k =>
    cases hk : w.jobs[k]? with
    | none =>
      simp only [perform, hk] at hj'
      refine .inl ⟨j', hj', .inr ⟨?_, rfl⟩⟩
      rintro ⟨⟩
      exact nomatch hk.symm.trans hj'
    | some j =>
      simp only [perform, hk] at hj'
      by_cases hik : k = i
      · subst hik
        obtain ⟨hlt, -⟩ := List.getElem?_eq_some_iff.1 hk
        rw [List.getElem?_set_self hlt] at hj'
        exact .inl ⟨j, hk, .inl ⟨rfl, (Option.some.inj hj').symm⟩⟩
      · rw [List.getElem?_set_ne hik] at hj'
        refine .inl ⟨j', hj', .inr ⟨?_, rfl⟩⟩
        rintro ⟨⟩
        exact hik rfl
  | _ => exact .inl ⟨j', hj', .inr ⟨nofun, rfl⟩⟩

/-- A job that is there stays. -/
theorem length_jobs_le_perform (w : World E) (m : Move E) :
    w.jobs.length ≤ (w.perform m).jobs.length := by
  cases m with
  | start errand => simp [perform]
  | step i =>
    rw [perform]
    split
    · exact Nat.le_refl _
    · exact Nat.le_of_eq (List.length_set ..).symm
  | _ => exact Nat.le_refl _

/-! ### Invariants -/

/-- What holds at first and is kept by every move holds after every run. -/
theorem run_invariant {P : World E → Prop} {w : World E} (hw : P w)
    (hstep : ∀ w m, P w → P (w.perform m)) (ms : List (Move E)) : P (w.run ms) := by
  induction ms generalizing w with
  | nil => exact hw
  | cons m ms ih => exact ih (hstep w m hw)

/-- A property of what has been observed and of the world that every proper move keeps. -/
theorem record_invariant {observe : World E → Move E → List α} {Q : World E → Move E → Prop}
    {P : List α → World E → Prop}
    (hstep : ∀ as w m, P as w → Q w m → P (as ++ observe w m) (w.perform m))
    {as : List α} {w : World E} (hw : P as w) (ms : List (Move E)) (hms : w.Along Q ms) :
    P (as ++ record observe w ms) (w.run ms) := by
  induction ms generalizing as w with
  | nil => simpa [record] using hw
  | cons m ms ih =>
    have h := ih (hstep as w m hw hms.1) hms.2
    rwa [List.append_assoc] at h

/-- What stands in a record that has grown by one is the new one or stood there before. -/
theorem split_of_concat {as as₁ as₂ : List α} {a b : α} (h : as ++ [a] = as₁ ++ b :: as₂) :
    (as = as₁ ∧ a = b) ∨ ∃ as₃, as = as₁ ++ b :: as₃ ∧ as₂ = as₃ ++ [a] := by
  have hprefix : as₁ ++ [b] <+: as ++ [a] := ⟨as₂, by simp [h]⟩
  rcases List.prefix_concat_iff.1 hprefix with hall | ⟨as₃, rfl⟩
  · obtain ⟨hbefore, hlast⟩ := List.append_inj' hall rfl
    exact .inl ⟨hbefore.symm, (List.cons.inj hlast).1.symm⟩
  · have hrest : as₃ ++ [a] = as₂ := by simpa using h
    exact .inr ⟨as₃, by simp, hrest.symm⟩

end World

end ScriptHost
