import ScriptHost.Proofs.Module.History

/-!
# Modules that were not loaded

A call of the function that loads modules may evaluate many of them, and any of these may fail, be
caught, and be tried again. When the call is over, whichever way it ends, no evaluation is left over
from it, and what is new among the loaded modules has been evaluated during the call. A module whose
last evaluation was aborted is as if it had never been asked for.

## Main definitions

* `LastAborted`: the last thing that has become of a module is that it was aborted.
* `RequireCall`, `World.requires?`: a call of the function that loads modules.
* `World.loadingsOf`: the modules that a job is evaluating.

## Main results

* `World.not_known_of_lastAborted`: an aborted module is neither loaded nor being evaluated.
* `World.require_leavesNoTrace`: what a call leaves behind.
-/

namespace ScriptHost

variable {E : Engine} {V : Type}

open Host

/-- The last thing that has become of a module is that it was aborted. -/
def LastAborted (key : RuntimeId × String) (es : List (ModuleEvent V)) : Prop :=
  ∃ es₁ es₂, es = es₁ ++ .aborted key :: es₂ ∧ ∀ e ∈ es₂, e.key ≠ key

theorem not_lastAborted_nil {key : RuntimeId × String} :
    ¬LastAborted key ([] : List (ModuleEvent V)) := by
  rintro ⟨es₁, es₂, hes, -⟩
  exact absurd (congrArg List.length hes) (by simp)

theorem LastAborted.of_concat {key : RuntimeId × String} {es : List (ModuleEvent V)}
    {e : ModuleEvent V} (h : LastAborted key (es ++ [e])) :
    e = .aborted key ∨ e.key ≠ key ∧ LastAborted key es := by
  obtain ⟨es₁, es₂, hes, hlast⟩ := h
  rcases World.split_of_concat hes with ⟨-, he⟩ | ⟨es₃, hbefore, rfl⟩
  · exact .inl he
  · exact .inr ⟨hlast e (by simp), es₁, es₃, hbefore, fun e' he' => hlast e' (by simp [he'])⟩

/-- A call of the function that loads modules: the job that makes it, and what waits there for its
result. -/
structure RequireCall (E : Engine) where
  /-- The number of the job. -/
  job : Nat
  /-- What waits for the result, innermost first. -/
  stack : List (Frame E)

/-- The call has come to its end in a world, with a result. -/
def RequireCall.EndsWith (c : RequireCall E) (w : World E) (r : Result E) : Prop :=
  ∃ j, w.jobs[c.job]? = some j ∧ j.stack = c.stack ∧ j.focus = .result r

/-- The value that is being thrown. -/
def Focus.thrown? : Focus E → Option E.Value
  | .result (.error (.thrown v)) => some v
  | _ => none

theorem Focus.eq_of_thrown? {focus : Focus E} {v : E.Value} (h : focus.thrown? = some v) :
    focus = .result (.error (.thrown v)) := by
  unfold thrown? at h
  split at h
  · rw [Option.some.inj h]
  · cases h

/-- The call of the function that loads modules that calling a native function is. -/
def Invocation.requires? (v : Invocation E) (i : Nat) : Option (RequireCall E) :=
  if v.native = .module .require then some ⟨i, v.job.stack⟩ else none

namespace World

/-- The modules that are being evaluated or are loaded. -/
def known (w : World E) (done : List (Loading E.Value)) : List (RuntimeId × String) :=
  (w.loadings ++ done).map Loading.key

variable {w w' : World E} {done : List (Loading E.Value)} {key : RuntimeId × String}

theorem completions_eq (w : World E) (ms : List (Move E)) :
    record (fun w m => (w.completion m).toList) w ms = completed (record moduleEvents w ms) := by
  induction ms generalizing w with
  | nil => rfl
  | cons m ms ih =>
    rw [record, record, ih, completed_append, moduleEvents, completed_toList, completion_eq]

/-- A move that is not made by a job does nothing with evaluations. -/
theorem perform_evaluates (hu : ∀ j ∈ w.jobs, j.Unbroken) (m : Move E) :
    w.moduleEvent? m = none ∧ (w.perform m).jobs = w.jobs ∨
      w.Evaluates (w.perform m) (w.moduleEvent? m) := by
  cases m with
  | start errand => exact .inr (w.start_evaluates errand)
  | step i =>
    cases hj : w.jobs[i]? with
    | none => exact .inl ⟨by simp only [moduleEvent?, hj, Option.bind_none],
        by simp only [perform, hj]⟩
    | some j => exact .inr (step_evaluates hj (hu j (List.mem_of_getElem? hj)))
  | _ => exact .inl ⟨rfl, rfl⟩

/-- A module that is not known is in neither table. -/
theorem ModulesAgree.not_known_iff (H : w.ModulesAgree done) {id : RuntimeId} {s : String}
    {t : ModuleTable E.Value} (ht : w.host.modules? id = some t) :
    (id, s) ∉ w.known done ↔ t.cached.get? s = none ∧ t.loading.get? s = none := by
  have hholds := H.holds id t ht
  constructor
  · intro hk
    refine ⟨Option.eq_none_iff_forall_ne_some.2 fun c hc => hk ?_,
      Option.eq_none_iff_forall_ne_some.2 fun v hv => hk ?_⟩
    · obtain ⟨l, hl, hkey, -⟩ := (hholds.cached s c).1 hc
      exact List.mem_map.2 ⟨l, List.mem_append_right _ hl, hkey⟩
    · obtain ⟨l, hl, hkey, -⟩ := (hholds.loading s v).1 hv
      exact List.mem_map.2 ⟨l, List.mem_append_left _ hl, hkey⟩
  · rintro ⟨hc, hl⟩ hk
    obtain ⟨l, hmem, hkey⟩ := List.mem_map.1 hk
    rcases List.mem_append.1 hmem with hmem | hmem
    · cases hl.symm.trans ((hholds.loading s _).2 ⟨l, hmem, hkey, rfl⟩)
    · cases hc.symm.trans ((hholds.cached s _).2 ⟨l, hmem, hkey, rfl⟩)

/-- A module that is known after something has been done with evaluations has been known before or
has just begun to be evaluated, and it has not just been aborted. -/
theorem ModulesAgree.known_of_evaluates (H : w.ModulesAgree done)
    {o : Option (ModuleEvent E.Value)} (he : w.Evaluates w' o)
    (hk : key ∈ w'.known (done ++ (o.bind ModuleEvent.completed?).toList)) :
    (key ∈ w.known done ∨ ∃ l, o = some (.began l) ∧ l.key = key) ∧ o ≠ some (.aborted key) := by
  obtain @⟨j, p, rest, he, -, -, -, hls, hls'⟩ := he
  have hmem (ls : List (Loading E.Value)) (hperm : ls.Perm (w.loadings ++ done))
      (hk : key ∈ ls.map Loading.key) : key ∈ w.known done :=
    (hperm.map Loading.key).mem_iff.1 hk
  -- A module that is not evaluated any more was there before, and so were the others.
  have hended {l : Loading E.Value} (hls : w.loadings.Perm (l :: w'.loadings))
      (hk : key ∈ w'.known done) : key ∈ w.known done :=
    hmem _ (hls.append_right done).symm (List.mem_cons_of_mem _ hk)
  cases he with
  | idle hm hl hu ho =>
    rw [hl] at hls'
    rw [ho.completed?, Option.toList_none, List.append_nil] at hk
    have hk := hmem _ ((hls'.trans hls.symm).append_right done) hk
    refine ⟨.inl hk, fun he => ?_⟩
    obtain ⟨owner, id, t, he, ht, hnone⟩ := ho _ he
    obtain rfl := ModuleEvent.aborted.inj he
    exact (H.not_known_iff ht).2 hnone hk
  | @begins l t ht hcached hloading hm hl hp =>
    rw [hl] at hls'
    have hperm : (w'.loadings ++ done).Perm (l :: (w.loadings ++ done)) :=
      (hls'.trans (hls.symm.cons l)).append_right done
    have hk : key ∈ (w'.loadings ++ done).map Loading.key := by
      simpa [known, ModuleEvent.completed?] using hk
    refine ⟨?_, nofun⟩
    rcases List.mem_cons.1 ((hperm.map _).mem_iff.1 hk) with hk | hk
    · exact .inr ⟨l, rfl, hk.symm⟩
    · exact .inl hk
  | @fails l hm hl hp =>
    rw [hl] at hls
    have hls := hls.trans (hls'.symm.cons l)
    have hk : key ∈ w'.known done := by simpa [ModuleEvent.completed?] using hk
    refine ⟨.inl (hended hls hk), fun he => ?_⟩
    obtain rfl := ModuleEvent.aborted.inj (Option.some.inj he)
    exact (List.nodup_cons.1 (H.nodup_of_ended hls)).1 hk
  | @completes l hnew hm hl hp =>
    rw [hl] at hls
    have hls := hls.trans (hls'.symm.cons l)
    exact ⟨.inl (hmem _ (ModulesAgree.perm_of_completed hls) hk), nofun⟩
  | @breaks l t ht hcached hl =>
    rw [hl] at hls
    have hk : key ∈ w'.known done := by simpa using hk
    exact ⟨.inl (hended (hls.trans (hls'.symm.cons l)) hk), nofun⟩

theorem ModulesAgree.known_perform (H : w.ModulesAgree done) {m : Move E}
    (hk : key ∈ (w.perform m).known (done ++ (w.completion m).toList)) :
    (key ∈ w.known done ∨ ∃ l, w.moduleEvent? m = some (.began l) ∧ l.key = key) ∧
      w.moduleEvent? m ≠ some (.aborted key) := by
  rw [completion_eq] at hk
  rcases perform_evaluates H.unbroken m with ⟨hnone, hjobs⟩ | he
  · rw [hnone, Option.bind_none, Option.toList_none, List.append_nil, known, loadings, hjobs] at hk
    exact ⟨.inl hk, fun he => by simp [hnone] at he⟩
  · exact H.known_of_evaluates he hk

theorem completed_perform (es : List (ModuleEvent E.Value)) (m : Move E) :
    done ++ completed (es ++ moduleEvents w m) =
      done ++ completed es ++ (w.completion m).toList := by
  rw [completed_append, moduleEvents, completed_toList, completion_eq, List.append_assoc]

theorem ModulesAgree.perform_completed {es : List (ModuleEvent E.Value)}
    (H : w.ModulesAgree (done ++ completed es)) (m : Move E) :
    (w.perform m).ModulesAgree (done ++ completed (es ++ moduleEvents w m)) :=
  completed_perform es m ▸ H.perform m

/-- What is completed along a run agrees with the world after it, if it did before. -/
theorem ModulesAgree.run (H : w.ModulesAgree done) (ms : List (Move E)) :
    (w.run ms).ModulesAgree (done ++ completed (record moduleEvents w ms)) := by
  have hinitial : w.ModulesAgree (done ++ completed []) := (List.append_nil done).symm ▸ H
  exact record_invariant (Q := fun _ _ => True)
    (P := fun es w => w.ModulesAgree (done ++ completed es))
    (fun _ _ m H _ => H.perform_completed m) hinitial ms (along_true w ms)

/-- A module that was aborted last of all is not known. -/
theorem not_known_of_lastAborted (H : w.ModulesAgree done) (ms : List (Move E))
    (hlast : LastAborted key (record moduleEvents w ms)) :
    key ∉ (w.run ms).known (done ++ completed (record moduleEvents w ms)) := by
  let P (es : List (ModuleEvent E.Value)) (w : World E) : Prop :=
    w.ModulesAgree (done ++ completed es) ∧
      ∀ key, LastAborted key es → key ∉ w.known (done ++ completed es)
  have hstep (es : List (ModuleEvent E.Value)) (w : World E) (m : Move E) (hw : P es w) :
      P (es ++ moduleEvents w m) (w.perform m) := by
    obtain ⟨H, hknown⟩ := hw
    refine ⟨H.perform_completed m, fun key hlast hk => ?_⟩
    rw [completed_perform] at hk
    obtain ⟨hbefore, hnot⟩ := H.known_perform hk
    rw [moduleEvents] at hlast
    cases ho : w.moduleEvent? m with
    | none =>
      rw [ho, Option.toList_none, List.append_nil] at hlast
      rcases hbefore with hbefore | ⟨l, hl, -⟩
      · exact hknown key hlast hbefore
      · exact nomatch ho.symm.trans hl
    | some e =>
      rw [ho, Option.toList_some] at hlast
      rcases hlast.of_concat with rfl | ⟨hne, hlast⟩
      · exact hnot ho
      · rcases hbefore with hbefore | ⟨l, hl, hkey⟩
        · exact hknown key hlast hbefore
        · obtain rfl := Option.some.inj (ho.symm.trans hl)
          exact hne hkey
  have hinitial : P [] w :=
    ⟨(List.append_nil done).symm ▸ H, fun _ h => absurd h not_lastAborted_nil⟩
  exact (record_invariant (Q := fun _ _ => True) (fun es w m hw _ => hstep es w m hw) hinitial ms
    (along_true w ms)).2 key hlast

/-! ### Calls -/

/-- The modules that a job is evaluating; a job that has not been begun evaluates none. -/
def loadingsOf (w : World E) (i : Nat) : List (Loading E.Value) :=
  (w.jobs[i]?.map Job.loadings).getD []

theorem mem_loadings {l : Loading E.Value} : l ∈ w.loadings ↔ ∃ i, l ∈ w.loadingsOf i := by
  rw [loadings, List.mem_flatMap]
  constructor
  · rintro ⟨j, hj, hl⟩
    obtain ⟨i, hi⟩ := List.mem_iff_getElem?.1 hj
    refine ⟨i, ?_⟩
    rw [loadingsOf, hi]
    exact hl
  · rintro ⟨i, hl⟩
    rw [loadingsOf] at hl
    cases hi : w.jobs[i]? with
    | none => simp [hi] at hl
    | some j =>
      rw [hi] at hl
      exact ⟨j, List.mem_of_getElem? hi, hl⟩

/-- The call of the function that loads modules that a move is, from the top level or by a native
function. -/
def requires? (w : World E) : Move E → Option (RequireCall E)
  | .start (.require ..) => some ⟨w.jobs.length, []⟩
  | .start errand => (errand.invocation? w.host).bind fun v => v.requires? w.jobs.length
  | .step i => (w.jobs[i]?.bind (Job.invocation? w.host)).bind fun v => v.requires? i
  | _ => none

/-- What waits for the result of a call has the modules that its job is evaluating. -/
theorem loadings_of_requires? {m : Move E} {c : RequireCall E} (hc : w.requires? m = some c) :
    c.stack.filterMap Frame.loading? = w.loadingsOf c.job := by
  have hnative {v : Invocation E} {i : Nat} (hv : v.requires? i = some c) :
      c = ⟨i, v.job.stack⟩ := by
    obtain ⟨-, he⟩ := Option.ite_none_right_eq_some.1 hv
    exact (Option.some.inj he).symm
  have hnew : w.loadingsOf w.jobs.length = [] := by
    rw [loadingsOf, List.getElem?_eq_none (Nat.le_refl _)]
    rfl
  cases m with
  | step i =>
    obtain ⟨v, hv, hc⟩ := Option.bind_eq_some_iff.1 hc
    obtain ⟨j, hj, hv⟩ := Option.bind_eq_some_iff.1 hv
    rw [hnative hc, loadingsOf, hj]
    exact Job.loadings_of_invocation? hv
  | start errand =>
    cases errand with
    | require seat owner q main =>
      obtain rfl := Option.some.inj hc
      exact hnew.symm
    | notify seat owner n =>
      obtain ⟨v, hv, hc⟩ := Option.bind_eq_some_iff.1 hc
      rw [hnative hc, hnew, Job.job_of_delivers? hv]
      rfl
    | _ => cases hc
  | _ => cases hc

/-- The table of evaluations in progress is that of the modules that are being evaluated. -/
theorem ModulesAgree.loading_eq (H : w.ModulesAgree done) {done' : List (Loading E.Value)}
    (H' : w'.ModulesAgree done') (hmem : ∀ l, l ∈ w'.loadings ↔ l ∈ w.loadings) {id : RuntimeId}
    {t t' : ModuleTable E.Value} (ht : w.host.modules? id = some t)
    (ht' : w'.host.modules? id = some t') (s : String) :
    t'.loading.get? s = t.loading.get? s := by
  refine Option.ext fun v => ?_
  rw [(H'.holds id t' ht').loading s v, (H.holds id t ht).loading s v]
  exact exists_congr fun l => and_congr_left fun _ => hmem l

/-- A call of the function that loads modules, from the top level or from a script, comes to its
end, whichever way it does, and the other jobs evaluate the modules that they did. Then the table of
evaluations in progress is what it was; the modules that were loaded are so as before; those that
are new there have been evaluated and marked in between; and a module that was aborted last of all
is not there, so that a later question that leads to it has it evaluated with new objects. -/
theorem require_leavesNoTrace (w : World E) (hw : w.Reached) (m : Move E) (ms : List (Move E))
    (c : RequireCall E) (result : Result E) (hcall : w.requires? m = some c)
    (hend : c.EndsWith (w.run (m :: ms)) result)
    (hothers : ∀ i, i ≠ c.job → (w.run (m :: ms)).loadingsOf i = w.loadingsOf i) :
    let w' := w.run (m :: ms)
    let es := record moduleEvents w (m :: ms)
    (∀ id r r', w.host.runtimes.get? id = some r → w'.host.runtimes.get? id = some r' →
      (∀ s, r'.modules.loading.get? s = r.modules.loading.get? s) ∧
      ∀ s entry, r'.modules.cached.get? s = some entry ↔
        r.modules.cached.get? s = some entry ∨
          ∃ l, .completed l ∈ es ∧ l.key = (id, s) ∧ l.entry = entry) ∧
    ∀ later id s, LastAborted (id, s) (es ++ record moduleEvents w' later) →
      ∀ r, (w'.run later).host.runtimes.get? id = some r →
        r.modules.cached.get? s = none ∧ r.modules.loading.get? s = none ∧
        ∀ q mod seat engines, r.Asks (w'.run later).host.platform q mod → mod.id = s →
          (Loading.require id q seat { (w'.run later).host with engines }).1 =
            (Loading.objects id mod r.requireFunction seat engines).1.map
              fun p => .evaluate p.1 p.2 := by
  intro w' es
  obtain ⟨engines, platform, profiles, ms₀, rfl⟩ := hw
  set w : World E := (initial engines platform profiles).run ms₀
  have H : w.ModulesAgree
      (completed (record moduleEvents (initial engines platform profiles) ms₀)) :=
    completions_eq (initial engines platform profiles) ms₀ ▸
      run_modulesAgree engines platform profiles ms₀
  generalize completed (record moduleEvents (initial engines platform profiles) ms₀) = done at H
  have H' : w'.ModulesAgree (done ++ completed es) := H.run (m :: ms)
  refine ⟨fun id r r' hr hr' => ⟨fun s => ?_, fun s entry => ?_⟩, fun later id s hlast r hr => ?_⟩
  · refine H.loading_eq H' (fun l => ?_) (modules?_of_get? hr) (modules?_of_get? hr') s
    obtain ⟨j, hj, hstack, -⟩ := hend
    have hcaller : w'.loadingsOf c.job = w.loadingsOf c.job := by
      rw [← loadings_of_requires? hcall, loadingsOf, hj, ← hstack]
      rfl
    rw [mem_loadings, mem_loadings]
    refine exists_congr fun i => ?_
    by_cases hi : i = c.job
    · rw [hi, hcaller]
    · rw [hothers i hi]
  · rw [(H'.holds id _ (modules?_of_get? hr')).cached s entry,
      (H.holds id _ (modules?_of_get? hr)).cached s entry]
    simp only [List.mem_append, mem_completed, or_and_right, exists_or]
  · have hevents : es ++ record moduleEvents w' later = record moduleEvents w (m :: ms ++ later) :=
      (record_append ..).symm
    rw [hevents] at hlast
    have hrun : w.run (m :: ms ++ later) = w'.run later := run_append ..
    have hk := not_known_of_lastAborted H (m :: ms ++ later) hlast
    have Hlater := H.run (m :: ms ++ later)
    rw [hrun] at hk Hlater
    obtain ⟨hcached, hloading⟩ := (Hlater.not_known_iff (modules?_of_get? hr)).1 hk
    refine ⟨hcached, hloading, fun q mod seat engines hq hid => ?_⟩
    subst hid
    have hr' : (Host.runtimes { (w'.run later).host with engines }).get? id = some r := hr
    rw [Loading.require_of_new hr' hq hcached hloading seat, Loading.evaluation_result]
    rfl

/-- A runtime is attached for which one module loads another and throws after that. -/
def failWorld : World Script.engine :=
  (ofForms {}).run [.attach 0 {} (.ofAnswers ⟨[
    ("./a", .ok ⟨"/a", "/a", "[[\"require\",\"./b\"],[\"throw\",\"no\"]]"⟩),
    ("./b", .ok ⟨"/b", "/b", "[]"⟩)]⟩)]

/-- That module is loaded from the top level. -/
def failMove : Move Script.engine := .start (.require 0 ⟨1⟩ ⟨"./a", none⟩ none)

/-- The call ends with what was thrown. Afterwards no evaluation is in progress, and of the two
modules only the other is loaded. -/
theorem failRun_leavesNoTrace :
    let w' := failWorld.run (failMove :: List.replicate 17 (.step 0))
    RequireCall.EndsWith ⟨0, []⟩ w' (.error (.thrown (.string "no"))) ∧
      ∃ r, w'.host.runtimes.get? ⟨1⟩ = some r ∧ (∀ s, r.modules.loading.get? s = none) ∧
        r.modules.cached.get? "/a" = none ∧
        r.modules.cached.get? "/b" = some ⟨.object 67, "/b"⟩ := by
  intro w'
  have hend : RequireCall.EndsWith ⟨0, []⟩ w' (.error (.thrown (.string "no"))) := by
    have hjob : w'.jobs[0]?.any fun j =>
        j.stack.isEmpty && j.focus.thrown? = some (.string "no") := by decide +kernel
    obtain ⟨j, hj, hends⟩ := (Option.any_eq_true _ _).1 hjob
    rw [Bool.and_eq_true, List.isEmpty_iff, decide_eq_true_iff] at hends
    exact ⟨j, hj, hends.1, Focus.eq_of_thrown? hends.2⟩
  have hothers (i : Nat) (hi : i ≠ 0) : w'.loadingsOf i = failWorld.loadingsOf i := by
    have hjobs : w'.jobs.length = 1 := by decide +kernel
    rw [loadingsOf, loadingsOf, List.getElem?_eq_none (by omega), List.getElem?_eq_none]
    exact Nat.zero_le i
  have hreached : failWorld.Reached := ⟨_, _, _, _, rfl⟩
  have hevents : record moduleEvents failWorld (failMove :: List.replicate 17 (.step 0)) =
      [.began ⟨⟨1⟩, "/a", "/a", .object 65⟩, .began ⟨⟨1⟩, "/b", "/b", .object 67⟩,
        .completed ⟨⟨1⟩, "/b", "/b", .object 67⟩, .aborted (⟨1⟩, "/a")] := by decide +kernel
  obtain ⟨hsame, hafresh⟩ := require_leavesNoTrace failWorld hreached failMove
    (List.replicate 17 (.step 0)) ⟨0, []⟩ _ rfl hend hothers
  have hbefore : (failWorld.host.runtimes.get? ⟨1⟩).any fun r => r.modules.loading.isEmpty := by
    decide +kernel
  have hafter : (w'.host.runtimes.get? ⟨1⟩).isSome := by decide +kernel
  obtain ⟨r, hr, hempty⟩ := (Option.any_eq_true _ _).1 hbefore
  obtain ⟨r', hr'⟩ := Option.isSome_iff_exists.1 hafter
  obtain ⟨hloading, hcached⟩ := hsame ⟨1⟩ r r' hr hr'
  have hlast : LastAborted (⟨1⟩, "/a")
      (record moduleEvents failWorld (failMove :: List.replicate 17 (.step 0))) :=
    hevents ▸ ⟨_ :: _ :: _ :: [], [], rfl, by simp⟩
  rw [hevents] at hcached
  refine ⟨hend, r', hr', fun s => ?_, ?_, (hcached "/b" _).2 (.inr
    ⟨⟨⟨1⟩, "/b", "/b", .object 67⟩, ?_, rfl, rfl⟩)⟩
  · rw [hloading s, Table.get?, List.isEmpty_iff.1 hempty]
    rfl
  · exact (hafresh [] ⟨1⟩ "/a" ((List.append_nil _).symm ▸ hlast) r' hr').1
  · exact .tail _ (.tail _ (.head _))

end World

end ScriptHost
