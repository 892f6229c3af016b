import ScriptHost.Proofs.Host.Steps
import ScriptHost.Proofs.Module.Tables
import ScriptHost.Proofs.World
import ScriptHost.Proofs.Host.Views

/-!
# What a job sees of a host

The runtimes that a job uses are the one that its task names, those of the modules that it is
evaluating, and the one that its engine is attached to. A step of a job keeps to these: it is the
same step in hosts that look the same from the seat of the job, and it leaves all other runtimes as
they are.

## Main definitions

* `Job.Uses`: the runtimes that a job names are in a set.
* `Job.Alike`: jobs have gone on alike in two hosts that looked the same.
* `World.Uses`: a move is made at a seat with the runtimes of a set.
* `World.LooksSame`: two worlds look the same from a seat.

## Main results

* `Job.step_alike`: a step of a job is the same in hosts that look the same.
* `Errand.begin_alike`: so is the beginning of a job.
* `World.perform_looksSame`: so is a move of a world at the seat.
-/

namespace ScriptHost

open ScriptHost.Action (KeepsTo Yields)
open Host

variable {E : Engine} {α β : Type}

/-! ### Where jobs are begun -/

/-- The runtime that an errand names. -/
def Errand.owner? : Errand E → Option RuntimeId
  | .evaluate .. => none
  | .require _ owner .. | .notify _ owner .. | .runReady _ owner .. | .runLoop _ owner .. =>
    some owner

variable {seat : Seat} {P : RuntimeId → Prop} {h h' k k' : Host E}

/-! ### The modules that are to be evaluated -/

theorem Action.Yields.bind_of {σ : Type} {Q : β → Prop} {P : α → Prop} {x : Action E σ β}
    {f : β → Action E σ α} (hx : x.Yields Q) (hf : ∀ b, Q b → (f b).Yields P) :
    Yields P (x >>= f) := by
  intro seat s a s' h
  rw [bind_def] at h
  rcases hxs : x seat s with ⟨_ | b, s₁⟩ <;> rw [hxs] at h
  · cases h
  · exact hf b (hx seat s b s₁ hxs) seat s₁ a s' h

/-- The module that a reply has evaluated belongs to a runtime. -/
def Reply.Of (owner : RuntimeId) (reply : Reply E) : Prop :=
  ∀ l scope, reply = .evaluate l scope → l.owner = owner

namespace Loading

theorem enter_yields (owner : RuntimeId) (m : ResolvedModule) (require : E.Value) :
    (enter owner m require).Yields fun p => p.1.owner = owner :=
  .bind fun _ => .bind fun _ => .bind fun _ => .bind fun _ => .pure rfl

theorem require_yields (owner : RuntimeId) (q : Question) :
    (require owner q : HostAction E (Reply E)).Yields (Reply.Of owner) := by
  refine .bind fun origin => ?_
  cases origin with
  | native exports => exact .pure (by rintro _ _ ⟨⟩)
  | object object => exact .bind fun _ => .pure (by rintro _ _ ⟨⟩)
  | resolved m =>
    refine .bind fun _ => .bind_of (enter_yields owner m _) fun p hp => .pure ?_
    rintro l scope ⟨⟩
    exact hp

end Loading

/-- A native function has modules evaluated of the runtime that its caller is attached to. -/
theorem Native.attached_of_evaluate {f : Native} {this : E.Value} {args : List E.Value}
    {l : Loading E.Value} {scope : ModuleScope E.Value}
    (hr : f.invoke this args seat h = (.ok (.evaluate l scope), h')) :
    h.attached seat = some l.owner := by
  by_cases hf : f = .module .require
  · subst hf
    change (Action.ofExcept (ModuleFunction.question "require" args) >>= fun q =>
      HostAction.attached >>= fun owner => Loading.require owner q) seat h = _ at hr
    rw [Action.bind_def] at hr
    cases hq : ModuleFunction.question "require" args with
    | error e => rw [hq] at hr; cases hr
    | ok q =>
      rw [hq] at hr
      change (HostAction.attached >>= fun owner => Loading.require owner q) seat h = _ at hr
      rw [Action.bind_def, HostAction.attached] at hr
      cases hid : h.attached seat with
      | none => rw [hid] at hr; cases hr
      | some id =>
        rw [hid] at hr
        exact congrArg some (Loading.require_yields id q seat h _ h' hr l scope rfl).symm
  · exact absurd rfl (Native.invoke_isDirect hf this args seat h _ h' hr l scope)

/-! ### Notifications in hosts that look the same -/

namespace Host

variable {owner : RuntimeId}

theorem LooksSame.setClock (H : LooksSame seat P h k) (t : Time) :
    Parallel seat P h (h.setClock t) (k.setClock t) :=
  H.aside H.engines_eq (by rw [H.platform_eq])

theorem LooksSame.takeNext (H : LooksSame seat P h k) (hid : P owner) (now : Time) :
    (h.takeNext owner now = none ∧ k.takeNext owner now = none) ∨
      ∃ n h' k', h.takeNext owner now = some (n, h') ∧ k.takeNext owner now = some (n, k') ∧
        Parallel seat P h h' k' := by
  rw [Host.takeNext, Host.takeNext, H.runtimes_eq owner hid]
  rcases hr : h.runtimes.get? owner with _ | r
  · exact .inl ⟨rfl, rfl⟩
  · simp only [Option.bind_eq_bind, Option.bind_some]
    split
    · exact .inl ⟨rfl, rfl⟩
    · rcases r.loop.poll now with _ | ⟨n, loop⟩
      · exact .inl ⟨rfl, rfl⟩
      · exact .inr ⟨n, _, _, rfl, rfl, H.put_same hid hr rfl⟩

theorem LooksSame.takeCallback (H : LooksSame seat P h k) (hid : P owner) (n : Notification) :
    (k.takeCallback owner n).1 = (h.takeCallback owner n).1 ∧
      Parallel seat P h (h.takeCallback owner n).2 (k.takeCallback owner n).2 := by
  rw [Host.takeCallback, Host.takeCallback]
  rcases H.scheduling? hid fun s l => s.take l n with ⟨hh, hk⟩ | ⟨a, h', k', hh, hk, H'⟩
  · rw [hh, hk]
    exact ⟨rfl, .refl H⟩
  · rw [hh, hk]
    exact ⟨rfl, H'⟩

end Host

/-! ### The runtimes that a job names -/

/-- The runtime that a task names. -/
def Task.owner? : Task → Option RuntimeId
  | .pass owner _ _ | .loop owner _ _ => some owner
  | _ => none

namespace Job

/-- The runtimes that a job names are in a set: the one of its task, and those of the modules that
it is evaluating. -/
structure Uses (P : RuntimeId → Prop) (j : Job E) : Prop where
  task : ∀ owner, j.task.owner? = some owner → P owner
  loadings : ∀ l ∈ j.loadings, P l.owner

/-- Two hosts that looked the same have gone on alike with a job at a seat: the jobs are the same,
the hosts look the same, and the first has changed within a set of runtimes, which the job uses. -/
structure Alike (seat : Seat) (P : RuntimeId → Prop) (h : Host E) (p q : Host E × Job E) :
    Prop where
  job_eq : q.2 = p.2
  hosts : Parallel seat P h p.1 q.1
  seat_eq : p.2.seat = seat
  uses : p.2.Uses P

variable {j j' : Job E} {p q : Host E × Job E}

theorem Uses.mono {Q : RuntimeId → Prop} (hj : j.Uses P) (hPQ : ∀ id, P id → Q id) : j.Uses Q :=
  ⟨fun owner ho => hPQ _ (hj.task owner ho), fun l hl => hPQ _ (hj.loadings l hl)⟩

theorem Uses.of_eq (hj : j.Uses P) (ht : j'.task.owner? = j.task.owner?)
    (hl : ∀ l ∈ j'.loadings, l ∈ j.loadings) : j'.Uses P :=
  ⟨ht ▸ hj.task, fun l hmem => hj.loadings l (hl l hmem)⟩

theorem Uses.turnTo (hj : j.Uses P) (focus : Focus E) : (j.turnTo focus).Uses P :=
  hj.of_eq rfl fun _ => id

/-- A job that waits for something that names no module. -/
theorem Uses.push (hj : j.Uses P) {frame : Frame E} (hframe : frame.loading? = none)
    (focus : Focus E) : (j.push frame focus).Uses P := by
  refine hj.of_eq rfl fun l hl => ?_
  rwa [Job.loadings, Job.push, List.filterMap_cons_none hframe] at hl

theorem Uses.start (focus : Focus E) (seat : Seat) {task : Task}
    (ht : ∀ owner, task.owner? = some owner → P owner) : (Job.start seat task focus).Uses P :=
  ⟨ht, by rintro l ⟨⟩⟩

/-- What goes on after hosts that looked the same have changed alike. -/
theorem Alike.of_parallel (H : Parallel seat P h h' k') (Hp : Alike seat P h' p q) :
    Alike seat P h p q :=
  ⟨Hp.job_eq, H.trans Hp.hosts, Hp.seat_eq, Hp.uses⟩

theorem Alike.of_looks (H : LooksSame seat P h k) (hs : j.seat = seat) (hj : j.Uses P) :
    Alike seat P h (h, j) (k, j) :=
  ⟨rfl, .refl H, hs, hj⟩

/-! ### Going on -/

theorem act_alike {x : HostAction E α} {next : Host E → α → Host E × Job E}
    (hx : KeepsTo j.seat P x) (H : LooksSame j.seat P h k) (hj : j.Uses P)
    (hnext : ∀ a h' k', x j.seat h = (.ok a, h') → LooksSame j.seat P h' k' →
      Alike j.seat P h' (next h' a) (next k' a)) :
    Alike j.seat P h (j.act h x next) (j.act k x next) := by
  obtain ⟨hr, Hx⟩ := hx H
  rw [act, act]
  rcases hxh : x j.seat h with ⟨r, h'⟩
  rcases hxk : x j.seat k with ⟨r', k'⟩
  rw [hxh, hxk] at hr Hx
  obtain rfl : r' = r := hr
  cases r' with
  | ok a => exact .of_parallel Hx (hnext a h' k' hxh Hx.looks)
  | error e => exact .of_parallel Hx (.of_looks Hx.looks rfl (hj.turnTo _))

theorem answer_alike (H : LooksSame j.seat P h k) (hj : j.Uses P) {reply : Reply E}
    (hreply : ∀ l scope, reply = .evaluate l scope → P l.owner) :
    Alike j.seat P h (j.answer h reply) (j.answer k reply) := by
  cases reply with
  | value v => exact .of_looks H rfl (hj.turnTo _)
  | render r => exact .of_looks H rfl (hj.turnTo _)
  | evaluate l scope =>
    simp only [answer, H.engines_eq]
    refine .of_parallel (H.aside_engines _) (.of_looks (H.aside_engines _).looks rfl
      ⟨hj.task, fun l' hl' => ?_⟩)
    rcases List.mem_cons.1 hl' with rfl | hl'
    · exact hreply _ scope rfl
    · exact hj.loadings l' hl'

theorem native_alike (H : LooksSame j.seat P h k) (hj : j.Uses P) (f : Native) (this : E.Value)
    (args : List E.Value) : Alike j.seat P h (j.native h f this args) (j.native k f this args) := by
  refine act_alike (f.invoke_keepsTo this args) H hj fun reply h' k' hr H' => ?_
  refine answer_alike H' hj fun l scope he => ?_
  subst he
  exact H.registered_mem _ (registered?_of_attached (Native.attached_of_evaluate hr))

theorem call_alike (H : LooksSame j.seat P h k) (hj : j.Uses P) (f this : E.Value)
    (args : List E.Value) : Alike j.seat P h (j.call h f this args) (j.call k f this args) := by
  simp only [call, H.engines_eq]
  rcases E.call j.seat f this args h.engines with ⟨s | g | v, engines⟩
  · exact .of_parallel (H.aside_engines _)
      (.of_looks (H.aside_engines _).looks rfl (hj.turnTo _))
  · exact .of_parallel (H.aside_engines _) (native_alike (H.aside_engines _).looks hj ..)
  · exact .of_parallel (H.aside_engines _)
      (.of_looks (H.aside_engines _).looks rfl (hj.turnTo _))

theorem finishRendering_alike (H : LooksSame j.seat P h k) (hj : j.Uses P)
    (r : Rendering E.Value) :
    Alike j.seat P h (j.finishRendering h r) (j.finishRendering k r) := by
  rw [finishRendering, finishRendering]
  split
  · exact .of_looks H rfl (hj.turnTo _)
  · rw [H.platform_eq]
    exact .of_parallel (H.aside_platform _)
      (.of_looks (H.aside_platform _).looks rfl (hj.turnTo _))

theorem render_alike (H : LooksSame j.seat P h k) (hj : j.Uses P) (r : Rendering E.Value) :
    Alike j.seat P h (j.render h r) (j.render k r) := by
  simp only [render, H.engines_eq]
  rcases r.pieces with _ | ⟨s | ⟨d, v⟩, pieces⟩
  · exact finishRendering_alike H hj r
  · exact .of_looks H rfl (hj.turnTo _)
  · dsimp only
    rcases Rendering.form E h.engines v d with text | _
    · exact .of_looks H rfl (hj.turnTo _)
    · rcases Rendering.stringifier E j.seat h.engines with ⟨_ | ⟨json, f⟩, engines⟩
      · exact .of_parallel (H.aside_engines _)
          (.of_looks (H.aside_engines _).looks rfl (hj.turnTo _))
      · exact .of_parallel (H.aside_engines _)
          (call_alike (j := j.push _ j.focus) (H.aside_engines _).looks (hj.push rfl _) ..)

/-! ### Notifications -/

theorem deliver_alike (H : LooksSame j.seat P h k) (hj : j.Uses P) {owner : RuntimeId}
    (hid : P owner) (n : Notification) (stale : Focus E) :
    Alike j.seat P h (j.deliver h owner n stale) (j.deliver k owner n stale) := by
  obtain ⟨hr, Ht⟩ := H.takeCallback hid n
  rw [deliver, deliver]
  rcases hh : h.takeCallback owner n with ⟨r, h'⟩
  rcases hk : k.takeCallback owner n with ⟨r', k'⟩
  rw [hh, hk] at hr Ht
  obtain rfl : r' = r := hr
  cases r' with
  | none => exact .of_parallel Ht (.of_looks Ht.looks rfl (hj.turnTo _))
  | some callback =>
    dsimp only
    rw [Ht.looks.engines_eq]
    exact .of_parallel Ht (call_alike Ht.looks hj ..)

theorem rest_alike (H : LooksSame j.seat P h k) (hj : j.Uses P) {owner : RuntimeId} (hid : P owner)
    (limit : Time) : Alike j.seat P h (j.rest h owner limit) (j.rest k owner limit) := by
  rw [rest, rest, H.runtimes_eq owner hid]
  rcases hr : h.runtimes.get? owner with _ | r
  · exact .of_looks H rfl (hj.turnTo _)
  · dsimp only
    split
    · exact .of_looks H rfl (hj.turnTo _)
    · rw [H.platform_eq]
      rcases r.loop.waitUntil h.platform.clock limit with ⟨woke, now, loop⟩
      have Hput : Parallel j.seat P h (h.put owner { r with loop }) (k.put owner { r with loop }) :=
        H.put_same hid hr rfl
      have Hset := Hput.trans (Hput.looks.setClock now)
      cases woke with
      | false => exact .of_parallel Hset (.of_looks Hset.looks rfl (hj.turnTo _))
      | true =>
        refine .of_parallel Hset (.of_looks Hset.looks rfl ⟨fun owner' ho => ?_, hj.loadings⟩)
        cases ho
        exact hid

theorem takeNext_alike (H : LooksSame j.seat P h k) (hj : j.Uses P) :
    Alike j.seat P h (j.takeNext h) (j.takeNext k) := by
  rw [takeNext, takeNext]
  split
  · next owner now taken ht =>
    have hid : P owner := hj.task owner (by rw [ht]; rfl)
    have hj' : Uses P { j with task := .pass owner now (taken + 1) } :=
      hj.of_eq (by rw [ht]; rfl) fun _ => id
    rcases H.takeNext hid now with ⟨hh, hk⟩ | ⟨n, h', k', hh, hk, H'⟩
    · rw [hh, hk]
      exact .of_looks H rfl (hj.turnTo _)
    · rw [hh, hk]
      exact .of_parallel H'
        (deliver_alike (j := { j with task := .pass owner now (taken + 1) }) H'.looks hj' hid ..)
  · next owner limit ht =>
    rw [H.platform_eq]
    exact .of_looks H rfl (hj.of_eq (by rw [ht]; rfl) fun _ => id)
  · next owner now limit ht =>
    have hid : P owner := hj.task owner (by rw [ht]; rfl)
    rcases H.takeNext hid now with ⟨hh, hk⟩ | ⟨n, h', k', hh, hk, H'⟩
    · rw [hh, hk]
      exact rest_alike H hj hid limit
    · rw [hh, hk]
      exact .of_parallel H' (deliver_alike H'.looks hj hid ..)
  · exact .of_looks H rfl (hj.turnTo _)

/-! ### Results -/

theorem enterLoaded_alike (H : LooksSame j.seat P h k) (hj : j.Uses P) {l : Loading E.Value}
    (hid : P l.owner) : Alike j.seat P h (j.enterLoaded h l) (j.enterLoaded k l) := by
  refine act_alike (HostAction.ofEngines_keepsTo _) H hj fun _ h' k' _ H' => ?_
  rcases Loading.cache?_parallel H' hid with ⟨hh, hk⟩ | ⟨h'', k'', hh, hk, H''⟩
  · simp only [hh, hk]
    exact .of_looks H' rfl (hj.turnTo _)
  · simp only [hh, hk]
    exact .of_parallel H'' (act_alike (HostAction.ofEngines_keepsTo _) H''.looks hj
      fun _ _ _ _ H => .of_looks H rfl (hj.turnTo _))

theorem resume_alike {frame : Frame E} {stack : List (Frame E)} (hs : j.stack = frame :: stack)
    (H : LooksSame j.seat P h k) (hj : j.Uses P) (r : Result E) :
    Alike j.seat P h ({ j with stack }.resume h frame r) ({ j with stack }.resume k frame r) := by
  have hrest : Uses P { j with stack } := by
    refine hj.of_eq rfl fun l hl => ?_
    rw [loadings, hs]
    exact (List.sublist_cons_self ..).filterMap _ |>.subset hl
  cases frame with
  | script rest =>
    simp only [resume, H.engines_eq]
    exact .of_parallel (H.aside_engines _)
      (.of_looks (H.aside_engines _).looks rfl (hrest.turnTo _))
  | rendering rendering v =>
    simp only [resume, H.engines_eq]
    exact .of_looks H rfl (hrest.turnTo _)
  | module l =>
    have hid : P l.owner := hj.loadings l (by rw [loadings, hs]; exact List.mem_cons_self)
    simp only [resume]
    refine act_alike (j := { j with stack }) (Loading.changeTables_keepsTo hid _) H hrest
      fun _ h' k' _ H' => ?_
    cases r with
    | error e => exact .of_looks H' rfl (hrest.turnTo _)
    | ok v => exact enterLoaded_alike (j := { j with stack }) H' hrest hid

theorem drain_alike (H : LooksSame j.seat P h k) (hj : j.Uses P) (r : Result E) :
    Alike j.seat P h (j.drain h r) (j.drain k r) := by
  simp only [drain, H.engines_eq]
  exact .of_parallel (H.aside_engines _)
    (.of_looks (H.aside_engines _).looks rfl (hj.of_eq rfl fun _ => id))

theorem conclude_alike (H : LooksSame j.seat P h k) (hj : j.Uses P) (r : Result E) :
    Alike j.seat P h (j.conclude h r) (j.conclude k r) := by
  rw [conclude, conclude]
  split
  · exact .of_looks H rfl (hj.turnTo _)
  · exact drain_alike H hj r
  all_goals
    rw [H.engines_eq]
    exact .of_parallel (H.aside_engines _) (drain_alike (H.aside_engines _).looks hj _)

theorem proceed_alike (H : LooksSame j.seat P h k) (hj : j.Uses P) (r : Result E) :
    Alike j.seat P h (j.proceed h r) (j.proceed k r) := by
  unfold proceed
  dsimp only
  split <;> exact .of_looks H rfl (hj.of_eq rfl fun _ => id)

/-! ### Steps -/

/-- A step of a job is the same in hosts that look the same, and changes no runtimes but those that
the job may use. -/
theorem step_alike (H : LooksSame j.seat P h k) (hj : j.Uses P) :
    Alike j.seat P h (j.step h) (j.step k) := by
  rw [step, step]
  split
  · exact .of_looks H rfl hj
  · exact takeNext_alike H hj
  · exact render_alike H hj _
  · next s _ =>
    rw [H.engines_eq]
    rcases E.step j.seat s h.engines with ⟨s' | v | v | ⟨f, this, args, rest⟩, engines⟩
    · exact .of_parallel (H.aside_engines _)
        (.of_looks (H.aside_engines _).looks rfl (hj.turnTo _))
    · exact .of_parallel (H.aside_engines _)
        (.of_looks (H.aside_engines _).looks rfl (hj.turnTo _))
    · exact .of_parallel (H.aside_engines _)
        (.of_looks (H.aside_engines _).looks rfl (hj.turnTo _))
    · exact .of_parallel (H.aside_engines _)
        (native_alike (j := j.push _ j.focus) (H.aside_engines _).looks (hj.push rfl _) ..)
  · next r _ =>
    cases hs : j.stack with
    | cons frame stack => exact resume_alike hs H hj r
    | nil =>
      dsimp only
      split
      · exact conclude_alike H hj r
      · exact proceed_alike H hj _

/-! ### Beginnings -/

theorem require_alike (H : LooksSame seat P h k) {owner : RuntimeId} (hid : P owner) (q : Question)
    (main : Option String) :
    Alike seat P h (Job.require h seat owner q main) (Job.require k seat owner q main) := by
  have hj : (Job.start seat (.require main) (.take : Focus E)).Uses P := .start _ _ (by rintro _ ⟨⟩)
  refine act_alike (j := Job.start seat (.require main) .take) (Loading.require_keepsTo hid q) H hj
    fun reply h' k' hr H' => ?_
  refine answer_alike (j := Job.start seat (.require main) .take) H' hj fun l scope he => ?_
  subst he
  rwa [Loading.require_yields owner q seat h _ h' hr l scope rfl]

theorem notify_alike (H : LooksSame seat P h k) {owner : RuntimeId} (hid : P owner)
    (n : Notification) : Alike seat P h (Job.notify h seat owner n) (Job.notify k seat owner n) :=
  deliver_alike (j := Job.start seat .deliver .take) H (.start _ _ (by rintro _ ⟨⟩)) hid ..

theorem runLoop_alike (H : LooksSame seat P h k) {owner : RuntimeId} (hid : P owner)
    (limit : Time) : Alike seat P h (Job.runLoop h seat owner limit)
      (Job.runLoop k seat owner limit) := by
  refine drain_alike (j := Job.start seat (.loop owner none limit) .take) H (.start _ _ ?_) _
  rintro _ ⟨⟩
  exact hid

end Job

/-- A job is begun alike in hosts that look the same. -/
theorem Errand.begin_alike {errand : Errand E} (H : LooksSame errand.seat P h k)
    (hid : ∀ owner, errand.owner? = some owner → P owner) :
    Job.Alike errand.seat P h (errand.begin h) (errand.begin k) := by
  cases errand with
  | evaluate seat s => exact .of_looks H rfl (.start _ _ (by rintro _ ⟨⟩))
  | require seat owner q main => exact Job.require_alike H (hid owner rfl) q main
  | notify seat owner n => exact Job.notify_alike H (hid owner rfl) n
  | runReady seat owner now =>
    refine .of_looks H rfl (.start _ _ ?_)
    rintro _ ⟨⟩
    exact hid owner rfl
  | runLoop seat owner limit => exact Job.runLoop_alike H (hid owner rfl) limit

/-! ### Worlds -/

namespace World

/-- A move is made at a seat with the runtimes of a set: one of them is used directly, a job is
begun there, or a job that is there takes a step. -/
def Uses (w : World E) (seat : Seat) (P : RuntimeId → Prop) : Move E → Prop
  | .setTimer id .. | .clearTimer id .. | .nextTick id .. | .stop id => P id
  | .start errand => errand.seat = seat ∧ ∀ owner, errand.owner? = some owner → P owner
  | .step i => ∀ j, w.jobs[i]? = some j → j.seat = seat ∧ j.Uses P
  | _ => False

/-- Two worlds look the same from a seat: their hosts do, and the jobs at the seat are the same. -/
structure LooksSame (seat : Seat) (P : RuntimeId → Prop) (w v : World E) : Prop where
  hosts : Host.LooksSame seat P w.host v.host
  length_eq : v.jobs.length = w.jobs.length
  jobs_iff : ∀ (i : Nat) (j : Job E), j.seat = seat → (v.jobs[i]? = some j ↔ w.jobs[i]? = some j)

variable {w v : World E}

theorem LooksSame.refl (hP : ∀ id, w.host.registered? seat = some id → P id) :
    LooksSame seat P w w :=
  ⟨.refl hP, rfl, fun _ _ _ => Iff.rfl⟩

/-- The hosts have changed, and the jobs have not. -/
theorem LooksSame.of_hosts (H : LooksSame seat P w v) {Q : RuntimeId → Prop}
    (Hh : Host.LooksSame seat Q h k) :
    LooksSame seat Q { w with host := h } { v with host := k } :=
  ⟨Hh, H.length_eq, H.jobs_iff⟩

theorem scheduling?_parallel (H : Host.LooksSame seat P h k) {id : RuntimeId} (hid : P id)
    (f : Scheduler E.Value → LoopSeat → α × Scheduler E.Value × LoopSeat) :
    Parallel seat P h (((h.scheduling? id f).map Prod.snd).getD h)
      (((k.scheduling? id f).map Prod.snd).getD k) := by
  rcases H.scheduling? hid f with ⟨hh, hk⟩ | ⟨a, h', k', hh, hk, H'⟩
  · rw [hh, hk]
    exact .refl H
  · rw [hh, hk]
    exact H'

/-- A move at a seat is the same in worlds that look the same from there, and changes no runtimes
but those that it may use. -/
theorem perform_looksSame (H : LooksSame seat P w v) {m : Move E} (hm : w.Uses seat P m) :
    LooksSame seat P (w.perform m) (v.perform m) ∧ Confined P w.host (w.perform m).host := by
  have hdirect {h' k' : Host E} (Hp : Parallel seat P w.host h' k') :
      LooksSame seat P { w with host := h' } { v with host := k' } ∧ Confined P w.host h' :=
    ⟨H.of_hosts Hp.looks, Hp.confined⟩
  cases m with
  | setTimer id kind callback delay => exact hdirect (scheduling?_parallel H.hosts hm _)
  | clearTimer id kind timer => exact hdirect (scheduling?_parallel H.hosts hm _)
  | nextTick id callback => exact hdirect (scheduling?_parallel H.hosts hm _)
  | stop id => exact hdirect (H.hosts.update hm fun _ => rfl)
  | start errand =>
    obtain ⟨rfl, hid⟩ := hm
    have Hb := Errand.begin_alike H.hosts hid
    refine ⟨⟨Hb.hosts.looks, ?_, fun i j hj => ?_⟩, Hb.hosts.confined⟩
    · simp only [perform, List.length_append, H.length_eq, List.length_singleton]
    · simp only [perform, List.getElem?_append, H.length_eq, Hb.job_eq]
      split
      · exact H.jobs_iff i j hj
      · rfl
  | step i =>
    cases hi : w.jobs[i]? with
    | none =>
      have hv : v.jobs[i]? = none := by
        rw [List.getElem?_eq_none_iff] at hi ⊢
        exact H.length_eq ▸ hi
      simp only [perform, hi, hv]
      exact ⟨H, refl_of (Confined P) w.host⟩
    | some j =>
      obtain ⟨hs, hj⟩ := hm j hi
      subst hs
      have Hs := Job.step_alike H.hosts hj
      simp only [perform, hi, (H.jobs_iff i j rfl).2 hi]
      refine ⟨⟨Hs.hosts.looks, ?_, fun i' j' hj' => ?_⟩, Hs.hosts.confined⟩
      · simp only [List.length_set, H.length_eq]
      · simp only [List.getElem?_set, H.length_eq, Hs.job_eq]
        split
        · rfl
        · exact H.jobs_iff i' j' hj'
  | outside | attach | attachFiles | drop => exact hm.elim

/-- The jobs after a move at a seat were there before, or they are at the seat and use the runtimes
that the move may use. -/
theorem mem_jobs_perform {m : Move E} (hP : ∀ id, w.host.registered? seat = some id → P id)
    (hm : w.Uses seat P m) {j : Job E} (hj : j ∈ (w.perform m).jobs) :
    j ∈ w.jobs ∨ j.seat = seat ∧ j.Uses P := by
  have H : Host.LooksSame seat P w.host w.host := .refl hP
  cases m with
  | start errand =>
    obtain ⟨rfl, hid⟩ := hm
    have Hb := Errand.begin_alike H hid
    refine (List.mem_append.1 hj).imp_right fun hj => ?_
    obtain rfl := List.mem_singleton.1 hj
    exact ⟨Hb.seat_eq, Hb.uses⟩
  | step i =>
    cases hi : w.jobs[i]? with
    | none => exact .inl (by simpa only [perform, hi] using hj)
    | some j' =>
      obtain ⟨rfl, hu⟩ := hm j' hi
      have Hs := Job.step_alike H hu
      simp only [perform, hi] at hj
      rcases List.mem_or_eq_of_mem_set hj with hj | rfl
      · exact .inl hj
      · exact .inr ⟨Hs.seat_eq, Hs.uses⟩
  | setTimer | clearTimer | nextTick | stop => exact .inl hj
  | outside | attach | attachFiles | drop => exact hm.elim

end World

end ScriptHost
