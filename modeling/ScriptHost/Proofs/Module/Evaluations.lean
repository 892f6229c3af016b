import ScriptHost.Proofs.Host.Steps
import ScriptHost.Proofs.Module.Tables
import ScriptHost.Proofs.World

/-!
# Evaluations of modules

The modules whose bodies a job is evaluating are the module frames on its stack. A step of a job
leaves them and the module tables alone, or begins an evaluation, or ends one, and in each case the
change of the stack and the change of the tables go together.

## Main definitions

* `Job.completes?`: the evaluation that a job completes in its next step.
* `Job.moduleEvent?`: what becomes of a module in the next step of a job.
* `Job.Evaluates`: what a step does with evaluations.

## Main results

* `Job.step_evaluates`: what a step does with evaluations, and what becomes of a module.
* `Errand.begin_evaluates`: what beginning a job does with them.
-/

namespace ScriptHost

variable {E : Engine} {α : Type}

open Host

/-- The tables once an evaluated module has been entered as loaded. -/
def ModuleTable.complete {V : Type} (t : ModuleTable V) (l : Loading V) : ModuleTable V :=
  { t.finishLoading l.id with cached := t.cached.insert l.id ⟨l.object, l.filename⟩ }

namespace Job

/-- The evaluation that a job completes in its next step: its body has ended with a value, its
module object can be marked, and its id is not taken. -/
def completes? (h : Host E) (j : Job E) : Option (Loading E.Value) :=
  match j.focus, j.stack with
  | .result (.ok _), .module l :: _ =>
    match (l.finish >>= fun _ => l.markLoaded) j.seat h with
    | (.ok _, h) => (l.cache? h).map fun _ => l
    | (.error _, _) => none
  | _, _ => none

/-- What becomes of a module in the next step of a job: its evaluation ends, or the native function
that is called makes something of it. -/
def moduleEvent? (h : Host E) (j : Job E) : Option (ModuleEvent E.Value) :=
  match j.focus, j.stack with
  | .result (.error _), .module l :: _ => some (.aborted l.key)
  | .result (.ok _), .module l :: _ =>
    match (l.finish >>= fun _ => l.markLoaded) j.seat h with
    | (.ok _, h) => (l.cache? h).map fun _ => .completed l
    | (.error _, _) => some (.aborted l.key)
  | _, _ => (j.invocation? h).bind fun v => v.native.moduleEvent? v.args v.job.seat v.host

/-- What a step does with evaluations, and what becomes of a module. -/
inductive Evaluates (h : Host E) (j : Job E) :
    Host E × Job E → Option (ModuleEvent E.Value) → Prop
  /-- It does nothing with them. -/
  | idle {p o} (hm : h.SameModules p.1) (hl : p.2.loadings = j.loadings) (hu : p.2.Unbroken)
      (ho : h.Refuses o) : Evaluates h j p o
  /-- It begins that of a module that is neither loaded nor being evaluated. -/
  | begins {p} {l : Loading E.Value} {t : ModuleTable E.Value}
      (ht : h.modules? l.owner = some t) (hcached : t.cached.get? l.id = none)
      (hloading : t.loading.get? l.id = none)
      (hm : h.ChangesModules l.owner (fun t => t.beginLoading l.id l.object) p.1)
      (hl : p.2.loadings = l :: j.loadings) (hu : p.2.Unbroken) :
      Evaluates h j p (some (.began l))
  /-- It ends the innermost one, and the module is not loaded. -/
  | fails {p} {l : Loading E.Value}
      (hm : h.ChangesModules l.owner (fun t => t.finishLoading l.id) p.1)
      (hl : j.loadings = l :: p.2.loadings) (hu : p.2.Unbroken) :
      Evaluates h j p (some (.aborted l.key))
  /-- It completes the innermost one. -/
  | completes {p} {l : Loading E.Value}
      (hnew : ∀ t, h.modules? l.owner = some t → t.cached.get? l.id = none)
      (hm : h.ChangesModules l.owner (fun t => t.complete l) p.1)
      (hl : j.loadings = l :: p.2.loadings) (hu : p.2.Unbroken) :
      Evaluates h j p (some (.completed l))
  /-- It would have to complete the innermost one, but that module is loaded. -/
  | breaks {p} {l : Loading E.Value} {t : ModuleTable E.Value} (ht : h.modules? l.owner = some t)
      (hcached : t.cached.get? l.id ≠ none) (hl : j.loadings = l :: p.2.loadings) :
      Evaluates h j p none

end Job

/-- No native function completes the evaluation of a module. -/
theorem Loading.event?_completed (owner : RuntimeId) (q : Question) (seat : Seat) (h : Host E) :
    (Loading.event? owner q seat h).bind ModuleEvent.completed? = none := by
  unfold Loading.event?
  split
  · split <;> rfl
  · rfl

theorem Native.moduleEvent?_completed (f : Native) (args : List E.Value) (seat : Seat)
    (h : Host E) : (f.moduleEvent? args seat h).bind ModuleEvent.completed? = none := by
  unfold Native.moduleEvent?
  split
  · exact Loading.event?_completed ..
  · rfl

namespace Job

/-- The evaluation that is completed is that of the event. -/
theorem completes?_eq (h : Host E) (j : Job E) :
    j.completes? h = (j.moduleEvent? h).bind ModuleEvent.completed? := by
  rw [completes?, moduleEvent?]
  split
  · next l stack hf hs =>
    rw [hf, hs]
    dsimp only
    rcases (l.finish >>= fun _ => l.markLoaded) j.seat h with ⟨e | _, h₁⟩
    · rfl
    · dsimp only
      cases l.cache? h₁ <;> rfl
  · next hend =>
    split
    · rfl
    · next hf hs => exact absurd hs (hend _ _ _ hf)
    · cases j.invocation? h with
      | none => rfl
      | some v => exact (v.native.moduleEvent?_completed v.args v.job.seat v.host).symm

variable {h h₁ : Host E} {j j₁ : Job E}

/-- A body has ended with a value, and its module can be marked and entered as loaded. -/
theorem moduleEvent?_of_completed {l : Loading E.Value} {stack : List (Frame E)} {v : E.Value}
    (hf : j.focus = .result (.ok v)) (hs : j.stack = .module l :: stack) {h₂ h₃ : Host E}
    (hfinish : l.finish j.seat h = (.ok (), h₁)) (hmark : l.markLoaded j.seat h₁ = (.ok (), h₂))
    (hcache : l.cache? h₂ = some h₃) : j.moduleEvent? h = some (.completed l) := by
  simp only [moduleEvent?, hf, hs, Action.bind_def, hfinish, hmark, hcache, Option.map_some]

theorem Evaluates.of_same {p : Host E × Job E} {o : Option (ModuleEvent E.Value)}
    (H : Evaluates h₁ j₁ p o) (hm₁ : h.SameModules h₁) (hl₁ : j₁.loadings = j.loadings) :
    Evaluates h j p o := by
  have hafter := refl_of SameModules p.1
  cases H with
  | idle hm hl hu ho => exact .idle (trans_of SameModules hm₁ hm) (hl.trans hl₁) hu (ho.of_same hm₁)
  | begins ht hcached hloading hm hl hu =>
    exact .begins (hm₁ _ ▸ ht) hcached hloading (hm.of_same hm₁ hafter) (hl₁ ▸ hl) hu
  | fails hm hl hu => exact .fails (hm.of_same hm₁ hafter) (hl₁ ▸ hl) hu
  | completes hnew hm hl hu =>
    exact .completes (fun t ht => hnew t (by rw [hm₁, ht])) (hm.of_same hm₁ hafter) (hl₁ ▸ hl) hu
  | breaks ht hcached hl => exact .breaks (hm₁ _ ▸ ht) hcached (hl₁ ▸ hl)

/-- What turns to something else does nothing with evaluations. -/
theorem evaluates_turnTo (hm : h.SameModules h₁) {focus : Focus E}
    (hf : ∀ message, focus ≠ .over (.broken message)) {o : Option (ModuleEvent E.Value)}
    (ho : h.Refuses o) : Evaluates h j (h₁, j.turnTo focus) o :=
  .idle hm rfl hf ho

theorem sameModules_engines (h : Host E) (engines : E.State) :
    h.SameModules { h with engines } :=
  fun _ => rfl

/-! ### Calls -/

/-- What goes on with a reply does nothing with evaluations or begins one. -/
theorem reply_evaluates {x : HostAction E (Reply E)} {o : Option (ModuleEvent E.Value)}
    (hx : h.Replies (x j.seat h) o) :
    Evaluates h j (j.act h x fun h reply => j.answer h reply) o := by
  rw [act]
  revert hx
  rcases x j.seat h with ⟨e | reply, h'⟩ <;> intro hx
  · cases hx with
    | direct hm _ ho => exact evaluates_turnTo hm (by rintro _ ⟨⟩) ho
  · cases hx with
    | direct hm hp ho =>
      cases reply with
      | value v => exact evaluates_turnTo hm (by rintro _ ⟨⟩) ho
      | render r => exact evaluates_turnTo hm (by rintro _ ⟨⟩) ho
      | evaluate l scope => exact absurd rfl (hp _ rfl l scope)
    | evaluate ht hcached hloading hm =>
      refine .begins ht hcached hloading (hm.of_same (refl_of SameModules h) ?_) rfl ?_
      · exact sameModules_engines h' _
      · rintro _ ⟨⟩

theorem native_evaluates (h : Host E) (j : Job E) (f : Native) (this : E.Value)
    (args : List E.Value) :
    Evaluates h j (j.native h f this args) (f.moduleEvent? args j.seat h) :=
  reply_evaluates (f.invoke_replies this args j.seat h)

/-- A job that goes on does nothing with evaluations or begins one. -/
theorem GoesOn.evaluates {o : Option (Invocation E)} {p : Host E × Job E} (H : GoesOn h j o p)
    (hu : j.Unbroken) :
    Evaluates h j p (o.bind fun v => v.native.moduleEvent? v.args v.job.seat v.host) := by
  cases H with
  | aside hh hj hu' => exact .idle hh.sameModules hj.loadings (hu' hu) h.refuses_none
  | native hh hj => exact (native_evaluates ..).of_same hh.sameModules hj.loadings

/-! ### Notifications -/

theorem sameModules_takeCallback (h : Host E) (owner : RuntimeId) (n : Notification) :
    h.SameModules (h.takeCallback owner n).2 := by
  rw [takeCallback]
  rcases hs : h.scheduling? owner fun s l => s.take l n with _ | ⟨a, h'⟩
  · exact refl_of SameModules h
  · exact sameModules_scheduling hs

theorem rest_evaluates (h : Host E) (j : Job E) (owner : RuntimeId) (limit : Time) :
    Evaluates h j (j.rest h owner limit) none := by
  rw [rest]
  split
  · exact evaluates_turnTo (refl_of SameModules h) (by rintro _ ⟨⟩) h.refuses_none
  · next r hr =>
    dsimp only
    split
    · exact evaluates_turnTo (refl_of SameModules h) (by rintro _ ⟨⟩) h.refuses_none
    · have hm : h.SameModules ((h.put owner { r with
          loop := (r.loop.waitUntil h.platform.clock limit).2.2 }).setClock
            (r.loop.waitUntil h.platform.clock limit).2.1) :=
        sameModules_put hr rfl
      split
      · exact .idle hm rfl (by rintro _ ⟨⟩) h.refuses_none
      · exact evaluates_turnTo hm (by rintro _ ⟨⟩) h.refuses_none

theorem sameModules_takeNext {owner : RuntimeId} {now : Time} {n : Notification}
    (hn : h.takeNext owner now = some (n, h₁)) : h.SameModules h₁ := by
  rw [Host.takeNext] at hn
  obtain ⟨r, hr, hn⟩ := Option.bind_eq_some_iff.1 hn
  split at hn
  · cases hn
  · obtain ⟨⟨n', l⟩, -, he⟩ := Option.map_eq_some_iff.1 hn
    obtain ⟨-, rfl⟩ := Prod.mk.inj he
    exact sameModules_put hr rfl

/-! ### Ends of evaluations -/

theorem cache?_some {l : Loading E.Value} (hc : l.cache? h = some h₁) :
    (∀ t, h.modules? l.owner = some t → t.cached.get? l.id = none) ∧
      h.ChangesModules l.owner
        (fun t => { t with cached := t.cached.insert l.id ⟨l.object, l.filename⟩ }) h₁ := by
  rw [Loading.cache?] at hc
  split at hc
  · next hr =>
    obtain rfl := Option.some.inj hc
    have hnone : h.modules? l.owner = none := by rw [modules?, hr]; rfl
    refine ⟨fun t ht => ?_, fun id => ?_⟩
    · rw [hnone] at ht
      cases ht
    · split
      · next hid => rw [hid, hnone]; rfl
      · rfl
  · next r hr =>
    have hsome : h.modules? l.owner = some r.modules := modules?_of_get? hr
    obtain ⟨modules, hcache, rfl⟩ := Option.map_eq_some_iff.1 hc
    rw [ModuleTable.cache?] at hcache
    split at hcache
    · cases hcache
    · next hnew =>
      obtain rfl := Option.some.inj hcache
      refine ⟨fun t ht => ?_, fun id => ?_⟩
      · obtain rfl := Option.some.inj (hsome.symm.trans ht)
        rw [← Table.isSome_get?] at hnew
        simpa using hnew
      · rw [modules?_put]
        split
        · next hid => rw [hid, hsome]; rfl
        · rfl

theorem cache?_none {l : Loading E.Value} (hc : l.cache? h = none) :
    ∃ t, h.modules? l.owner = some t ∧ t.cached.get? l.id ≠ none := by
  rw [Loading.cache?] at hc
  split at hc
  · cases hc
  · next r hr =>
    refine ⟨r.modules, modules?_of_get? hr, ?_⟩
    have hcache := Option.map_eq_none_iff.1 hc
    rw [ModuleTable.cache?] at hcache
    split at hcache
    · next hold =>
      rw [← Table.isSome_get?, Option.isSome_iff_ne_none] at hold
      exact hold
    · cases hcache

/-- What happens once a body has ended with a value. -/
theorem enterLoaded_evaluates {l : Loading E.Value}
    (hfinish : h.ChangesModules l.owner (fun t => t.finishLoading l.id) h₁)
    (hl : j.loadings = l :: j₁.loadings) :
    Evaluates h j (j₁.enterLoaded h₁ l)
      (match l.markLoaded j₁.seat h₁ with
        | (.ok _, h) => (l.cache? h).map fun _ => .completed l
        | (.error _, _) => some (.aborted l.key)) := by
  have hfinish := hfinish.of_same (refl_of SameModules h)
    (Loading.markLoaded_sameModules l j₁.seat h₁)
  unfold enterLoaded act
  revert hfinish
  rcases l.markLoaded j₁.seat h₁ with ⟨e | _, h₂⟩ <;> intro hfinish
  · exact .fails hfinish hl (by rintro _ ⟨⟩)
  · dsimp only at hfinish ⊢
    rcases hc : l.cache? h₂ with _ | h₃
    · obtain ⟨t, ht, hold⟩ := cache?_none hc
      rw [hfinish l.owner, if_pos rfl] at ht
      obtain ⟨t, ht₀, rfl⟩ := Option.map_eq_some_iff.1 ht
      exact .breaks ht₀ hold hl
    · obtain ⟨hnew, hcached⟩ := cache?_some hc
      have hcomplete := (hfinish.trans hcached).of_same (refl_of SameModules h)
        (Loading.exportsOf_sameModules l.object j₁.seat h₃)
      have hnew (t : ModuleTable E.Value) (ht : h.modules? l.owner = some t) :
          t.cached.get? l.id = none :=
        hnew (t.finishLoading l.id) (by rw [hfinish l.owner, if_pos rfl, ht]; rfl)
      revert hcomplete
      dsimp only
      rcases Loading.exportsOf l.object j₁.seat h₃ with ⟨e | v, h₄⟩ <;> intro hcomplete
      · exact .completes hnew hcomplete hl (by rintro _ ⟨⟩)
      · exact .completes hnew hcomplete hl (by rintro _ ⟨⟩)

/-- The end of the evaluation of a body. -/
theorem resume_module_evaluates {l : Loading E.Value} {stack : List (Frame E)}
    (hs : j.stack = .module l :: stack) {r : Result E} (hf : j.focus = .result r) :
    Evaluates h j ({ j with stack }.resume h (.module l) r) (j.moduleEvent? h) := by
  have hl : j.loadings = l :: { j with stack }.loadings := by rw [loadings, hs]; rfl
  have hfinish := changesModules_update h l.owner fun t => t.finishLoading l.id
  unfold moduleEvent? resume
  rw [hf, hs]
  cases r with
  | error e => exact .fails hfinish hl (by rintro _ ⟨⟩)
  | ok v => exact enterLoaded_evaluates hfinish hl

/-- What becomes of a module when the end of a body has not come. -/
theorem moduleEvent?_of_goesOn
    (he : ∀ r l stack, j.focus = .result r → j.stack ≠ .module l :: stack) :
    j.moduleEvent? h =
      (j.invocation? h).bind fun v => v.native.moduleEvent? v.args v.job.seat v.host := by
  rw [moduleEvent?]
  split
  · next hf hs => exact absurd hs (he _ _ _ hf)
  · next hf hs => exact absurd hs (he _ _ _ hf)
  · rfl

/-- What a step does with evaluations, and what becomes of a module. -/
theorem step_evaluates (h : Host E) (hu : j.Unbroken) :
    Evaluates h j (j.step h) (j.moduleEvent? h) := by
  have H := j.step_steps h
  generalize j.step h = p at H
  have htake (hf : j.focus = .take) := moduleEvent?_of_goesOn (h := h) (j := j)
    fun r _ _ hr => by rw [hf] at hr; cases hr
  cases H with
  | goesOn _ he H =>
    rw [moduleEvent?_of_goesOn he]
    exact H.evaluates hu
  | handed hf _ hn hf₁ _ hl₁ H =>
    rw [htake hf]
    have hu₁ : Job.Unbroken _ := fun message hm => hu message (hf₁.symm.trans hm)
    refine (H.evaluates hu₁).of_same ?_ hl₁
    exact trans_of SameModules (sameModules_takeNext hn) (sameModules_takeCallback _ _ _)
  | begins hf ht =>
    rw [htake hf, invocation?_of_pass hf (by rw [pass?, ht]; rfl)]
    exact .idle (refl_of SameModules h) rfl hu h.refuses_none
  | rests hf ht hn =>
    rw [htake hf, invocation?_of_take hf (by rw [pass?, ht]; rfl), hn]
    exact rest_evaluates ..
  | ends hf hs => exact resume_module_evaluates hs hf

end Job

/-- What becomes of a module when a job is begun. -/
def Errand.moduleEvent? (h : Host E) : Errand E → Option (ModuleEvent E.Value)
  | .require seat owner q _ => Loading.event? owner q seat h
  | .notify seat owner n => ((Job.start seat .deliver .take).delivers? h owner n).bind fun v =>
    v.native.moduleEvent? v.args v.job.seat v.host
  | _ => none

/-- No evaluation is completed when a job is begun. -/
theorem Errand.moduleEvent?_completed (h : Host E) (errand : Errand E) :
    (errand.moduleEvent? h).bind ModuleEvent.completed? = none := by
  cases errand with
  | require seat owner q main => exact Loading.event?_completed ..
  | notify seat owner n =>
    rw [moduleEvent?]
    cases (Job.start seat .deliver .take).delivers? h owner n with
    | none => rfl
    | some v => exact v.native.moduleEvent?_completed v.args v.job.seat v.host
  | _ => rfl

/-- Beginning a job does with evaluations what a job does that evaluates nothing. -/
theorem Errand.begin_evaluates (h : Host E) (errand : Errand E) :
    ∃ j : Job E, j.loadings = [] ∧ Job.Evaluates h j (errand.begin h) (errand.moduleEvent? h) := by
  have hidle : h.SameModules h := refl_of SameModules h
  cases errand with
  | evaluate seat s =>
    exact ⟨Job.evaluate seat s, rfl, .idle hidle rfl (by rintro _ ⟨⟩) h.refuses_none⟩
  | require seat owner q main =>
    exact ⟨Job.start seat (.require main) .take, rfl,
      Job.reply_evaluates (Loading.require_replies owner q seat h)⟩
  | notify seat owner n =>
    have hu : (Job.start seat .deliver .take : Job E).Unbroken := by rintro _ ⟨⟩
    exact ⟨Job.start seat .deliver .take, rfl,
      ((Job.notify_goesOn ..).evaluates hu).of_same (Job.sameModules_takeCallback _ _ _) rfl⟩
  | runReady seat owner now =>
    exact ⟨Job.runReady seat owner now, rfl, .idle hidle rfl (by rintro _ ⟨⟩) h.refuses_none⟩
  | runLoop seat owner limit =>
    exact ⟨Job.start seat .evaluate .take, rfl,
      .idle (fun _ => rfl) rfl (by rintro _ ⟨⟩) h.refuses_none⟩

end ScriptHost
