import ScriptHost.Proofs.Module.Failures
import ScriptHost.Proofs.Module.Identity
import ScriptHost.Proofs.Module.Questions
import ScriptHost.Proofs.Module.Resolvers

/-!
# Loading and resolving

Loading a module has a short cut that telling its id has not: a specifier that is the id of a loaded
module is not put to the resolver. If the resolver keeps to its ids, the short cut makes no
difference, since whatever is loaded or being evaluated has been answered with by the resolver. So
the two functions agree: a native module is named and served without the resolver, what one function
names the other serves, and where one fails the other fails likewise and nothing comes of it.

## Main definitions

* `Runtime.serve`: what a runtime serves a module with.
* `Loading.Agree`: the two functions agree on a question.
* `World.KnownAnswered`: what is known of a runtime has been answered with by its resolver.

## Main results

* `Loading.agree_of_answered`: they agree where a loaded id is answered with.
* `World.require_agrees`: they agree at all moments of all runs.
-/

namespace ScriptHost

variable {E : Engine}

open Host

/-- What a runtime serves a module with: what the module object exports at that moment, if the module
is loaded or being evaluated, or else an evaluation with new objects. -/
def Runtime.serve (r : Runtime E) (owner : RuntimeId) (m : ResolvedModule) (seat : Seat)
    (engines : E.State) : Except (Exception E.Value) (Reply E) :=
  match r.modules.cached.get? m.id, r.modules.loading.get? m.id with
  | some c, _ => (Job.exportsOf seat c.object engines).map .value
  | none, some object => (Job.exportsOf seat object engines).map .value
  | none, none =>
    (Loading.objects owner m r.requireFunction seat engines).1.map fun p => .evaluate p.1 p.2

namespace Loading

variable {owner : RuntimeId} {q : Question} {seat : Seat} {h : Host E} {r : Runtime E}
  {m : ResolvedModule} {exports : E.Value} {e : Fault}

/-- The function that loads modules and the one that tells their ids agree on a question. -/
structure Agree (r : Runtime E) (owner : RuntimeId) (q : Question) (seat : Seat) (h : Host E) :
    Prop where
  /-- A native module is named and served without the resolver. -/
  native : ∀ exports, r.modules.natives.get? q.specifier = some exports →
    resolve owner q seat h = (.ok q.specifier, h) ∧
      require owner q seat h = (.ok (.value exports), h)
  /-- The module that is named is served. -/
  resolved : r.modules.natives.get? q.specifier = none →
    ∀ s h', resolve owner q seat h = (.ok s, h') →
      ∃ m, r.resolver.answer h.platform r.questions q = .ok m ∧ m.id = s ∧
        (require owner q seat h).1 = r.serve owner m seat h.engines ∧
        ∀ l scope, (require owner q seat h).1 = .ok (.evaluate l scope) →
          l = ⟨owner, s, m.filename, scope.module⟩
  /-- If no module is named, none is served, for the same reason, and nothing comes of it. -/
  failed : ∀ e h', resolve owner q seat h = (.error e, h') →
    require owner q seat h = (.error e, h') ∧ event? owner q seat h = none ∧ h.SameModules h' ∧
      h'.engines = h.engines

/-! ### The two functions -/

theorem resolve_of_native (hr : h.runtimes.get? owner = some r)
    (hn : r.modules.natives.get? q.specifier = some exports) (seat : Seat) :
    resolve owner q seat h = (.ok q.specifier, h) := by
  have hcontains : r.modules.natives.contains q.specifier = true := by
    rw [← Table.isSome_get?, hn]
    rfl
  rw [resolve]
  rw [Action.bind_def, tables_eq, modules?_of_get? hr]
  dsimp only [Option.getD_some]
  rw [hcontains]
  rfl

/-- The id of a module that is not native is what the resolver says. -/
theorem resolve_of_other (hr : h.runtimes.get? owner = some r)
    (hn : r.modules.natives.get? q.specifier = none) (seat : Seat) :
    resolve owner q seat h =
      (((r.resolver.answer h.platform r.questions q).map ResolvedModule.id).mapError .fault,
        h.put owner { r with questions := r.questions ++ [q] }) := by
  have hcontains : r.modules.natives.contains q.specifier = false := by
    rw [← Table.isSome_get?, hn]
    rfl
  rw [resolve]
  rw [Action.bind_def, tables_eq, modules?_of_get? hr]
  dsimp only [Option.getD_some]
  rw [hcontains]
  change (ask owner q >>= fun m => pure m.id) seat h = _
  rw [Action.bind_def]
  simp only [ask, hr]
  cases r.resolver.answer h.platform r.questions q <;> rfl

theorem require_of_native (hr : h.runtimes.get? owner = some r)
    (hn : r.modules.natives.get? q.specifier = some exports) (seat : Seat) :
    require owner q seat h = (.ok (.value exports), h) := by
  rw [require]
  rw [Action.bind_def, find_of_native (modules?_of_get? hr) hn]
  rfl

/-- What the resolver answers with is served. -/
theorem require_of_asks (hr : h.runtimes.get? owner = some r) (hq : r.Asks h.platform q m)
    (seat : Seat) : (require owner q seat h).1 = r.serve owner m seat h.engines := by
  have hf := find_of_asks hr hq seat
  rw [Runtime.serve]
  cases hc : r.modules.cached.get? m.id with
  | some c =>
    simp only [hc] at hf
    exact require_of_found hf rfl
  | none =>
    cases hl : r.modules.loading.get? m.id with
    | some object =>
      simp only [hc, hl] at hf
      exact require_of_found hf rfl
    | none => exact require_result_of_new hr hq hc hl seat

/-- What has begun to be evaluated is the module that is served. -/
theorem serve_evaluates {l : Loading E.Value} {scope : ModuleScope E.Value} {engines : E.State}
    (hs : r.serve owner m seat engines = .ok (.evaluate l scope)) :
    l = ⟨owner, m.id, m.filename, scope.module⟩ := by
  have hvalue {result : Result E} (hs : result.map Reply.value = .ok (.evaluate l scope)) :
      False := by
    cases result <;> cases hs
  rw [Runtime.serve] at hs
  split at hs
  · exact (hvalue hs).elim
  · exact (hvalue hs).elim
  · have hyields := objects_yields owner m r.requireFunction seat engines
    rcases hobjects : objects owner m r.requireFunction seat engines with ⟨e | p, s⟩ <;>
      rw [hobjects] at hs
    · cases hs
    · have hp := hyields p s hobjects
      cases hs
      exact hp

/-- The two functions agree on a question if the resolver answers it with the module that it names as
it is written, should that be loaded. -/
theorem agree_of_answered (hr : h.runtimes.get? owner = some r)
    (hcached : ∀ c, r.modules.cached.get? q.specifier = some c →
      ∃ m, r.resolver.answer h.platform r.questions q = .ok m ∧ m.id = q.specifier)
    (seat : Seat) : Agree r owner q seat h := by
  refine ⟨fun exports hn => ⟨resolve_of_native hr hn seat, require_of_native hr hn seat⟩,
    fun hn s h' hs => ?_, fun e h' he => ?_⟩
  · rw [resolve_of_other hr hn] at hs
    cases ha : r.resolver.answer h.platform r.questions q with
    | error e =>
      rw [ha] at hs
      cases hs
    | ok m =>
      rw [ha] at hs
      obtain rfl : m.id = s := Except.ok.inj (Prod.mk.inj hs).1
      have hserve : (require owner q seat h).1 = r.serve owner m seat h.engines := by
        cases hc : r.modules.cached.get? q.specifier with
        | none => exact require_of_asks hr ⟨hn, hc, ha⟩ seat
        | some c =>
          obtain ⟨m', ha', hid⟩ := hcached c hc
          obtain rfl := Except.ok.inj (ha.symm.trans ha')
          rw [Runtime.serve, hid, hc]
          exact require_of_found (find_of_cached (modules?_of_get? hr) hn hc seat) rfl
      exact ⟨m, rfl, rfl, hserve, fun l scope hl => serve_evaluates (hserve.symm.trans hl)⟩
  · cases hn : r.modules.natives.get? q.specifier with
    | some exports =>
      rw [resolve_of_native hr hn] at he
      cases he
    | none =>
      rw [resolve_of_other hr hn] at he
      cases ha : r.resolver.answer h.platform r.questions q with
      | ok m =>
        rw [ha] at he
        cases he
      | error fault =>
        rw [ha] at he
        cases he
        have hc : r.modules.cached.get? q.specifier = none := by
          refine Option.eq_none_iff_forall_ne_some.2 fun c hc => ?_
          obtain ⟨m, hm, -⟩ := hcached c hc
          exact nomatch ha.symm.trans hm
        have hf := find_of_error hr hn hc ha seat
        refine ⟨?_, ?_, sameModules_put hr rfl, rfl⟩
        · rw [require]
          rw [Action.bind_def, hf]
        · rw [event?, hf]

end Loading

namespace World

/-! ### What is known has been answered with -/

/-- Every module of a runtime that is loaded or being evaluated has been answered with by its
resolver, on one of some platforms. -/
def KnownAnswered (id : RuntimeId) (P : Platform → Prop) (done : List (Loading E.Value))
    (w : World E) : Prop :=
  ∀ s, (id, s) ∈ w.known done → ∀ status, w.host.status? id = some status →
    ∃ p questions q m, P p ∧ status.resolver.answer p questions q = .ok m ∧ m.id = s

variable {w : World E} {done : List (Loading E.Value)} {id : RuntimeId} {P : Platform → Prop}

/-- A runtime that has modules has been made. -/
theorem ModulesAgree.lt_of_known (H : w.ModulesAgree done) {s : String}
    (hk : (id, s) ∈ w.known done) : id.val < w.host.nextRuntime := by
  obtain ⟨l, hl, hkey⟩ := List.mem_map.1 hk
  exact (Prod.mk.inj hkey).1 ▸ H.owner_lt l hl

theorem ModulesAgree.lt_of_status (H : w.ModulesAgree done) {status : Status}
    (hs : w.host.status? id = some status) : id.val < w.host.nextRuntime := by
  obtain ⟨r, hr, -⟩ := Option.map_eq_some_iff.1 hs
  exact H.lives id r.modules (modules?_of_get? hr)

theorem KnownAnswered.perform (HA : w.KnownAnswered id P done) (H : w.ModulesAgree done)
    (hP : ∀ r, w.host.runtimes.get? id = some r → P w.host.platform) (m : Move E) :
    (w.perform m).KnownAnswered id P (done ++ (w.completion m).toList) := by
  intro s hk status hs
  -- The runtime was there before the move, and its resolver is what it was.
  have hbefore (hlt : id.val < w.host.nextRuntime) : ∃ status₀,
      w.host.status? id = some status₀ ∧ status.resolver = status₀.resolver := by
    obtain ⟨status₀, hs₀, rfl⟩ := perform_status_of_lt hlt hs
    exact ⟨status₀, hs₀, (status₀.haltAll_made _).2.1⟩
  obtain ⟨hknown | ⟨l, hl, hkey⟩, -⟩ := H.known_perform hk
  · obtain ⟨status₀, hs₀, hresolver⟩ := hbefore (H.lt_of_known hknown)
    rw [hresolver]
    exact HA s hknown status₀ hs₀
  · obtain ⟨rfl, rfl⟩ := Prod.mk.inj hkey
    obtain ⟨q, m', -, ⟨status₁, questions, hs₁, hanswer⟩, hid, -⟩ := began_answered hl
    obtain ⟨status₀, hs₀, hresolver⟩ := hbefore (H.lt_of_status hs₁)
    obtain rfl := Option.some.inj (hs₀.symm.trans hs₁)
    rw [hresolver]
    obtain ⟨r, hr, -⟩ := Option.map_eq_some_iff.1 hs₀
    exact ⟨w.host.platform, questions, q, m', hP r hr, hanswer, hid.symm⟩

/-- Along a run, what is known of a runtime has been answered with by its resolver, if the platform is
one of some as long as the runtime is there. -/
theorem run_knownAnswered (engines : E.State) (platform : Platform) (profiles : Seat → Profile)
    {ms : List (Move E)}
    (hP : (initial engines platform profiles).Along
      (fun w _ => ∀ r, w.host.runtimes.get? id = some r → P w.host.platform) ms) :
    ((initial engines platform profiles).run ms).KnownAnswered id P
      (record (fun w m => (w.completion m).toList) (initial engines platform profiles) ms) := by
  have hinitial : (initial engines platform profiles).KnownAnswered id P [] := by
    rintro s hk status ⟨⟩
  exact (record_invariant (P := fun done w => w.ModulesAgree done ∧ w.KnownAnswered id P done)
    (fun done w m H hP => ⟨H.1.perform m, H.2.perform H.1 hP m⟩)
    ⟨ModulesAgree.initial engines platform profiles, hinitial⟩ ms hP).2

/-! ### Agreement -/

/-- Loading and resolving agree. At every moment of every run, whatever has been loaded, aborted or
is being evaluated by then, and for every question from every directory: a native module is named
and served without the resolver; what the one function names is the module that the other serves;
and where the one fails the other fails with the same exception, and nothing comes of it. For this
the resolver must keep to its ids on the platforms that the runtime has seen. That is so with files,
as long as they stay as they are, and with sources under absolute paths. -/
theorem require_agrees (engines : E.State) (platform : Platform) (profiles : Seat → Profile)
    (id : RuntimeId) (ms : List (Move E)) :
    (∀ P : Platform → Prop,
      (initial engines platform profiles).Along
        (fun w _ => ∀ r, w.host.runtimes.get? id = some r → P w.host.platform) ms →
      ∀ taken h r, ((initial engines platform profiles).run ms).Moment taken h →
        h.runtimes.get? id = some r → P h.platform → r.resolver.Stable P →
          ∀ q seat, Loading.Agree r id q seat h) ∧
      (∀ t base, t.WellFormed → (Resolver.ofFiles base).Stable fun p => p.files = t) ∧
      ∀ base sources, (∀ filename ∈ sources.keys, Path.isAbsolute filename = true) →
        (Resolver.ofSources base sources).Stable fun _ => True := by
  refine ⟨fun P hP taken h r hmoment hr hp hstable q seat => ?_,
    fun t base H => Resolver.ofFiles_stable H base,
    fun base sources habsolute => Resolver.ofSources_stable base habsolute⟩
  have hknown := run_knownAnswered engines platform profiles hP
  have H := run_modulesAgree engines platform profiles ms
  generalize (initial engines platform profiles).run ms = w at hmoment hknown H
  generalize record _ _ ms = done at hknown H
  have hr' : w.host.status? id = some r.status :=
    (hmoment.sameStatuses.status?_eq id).symm.trans (status?_of_get? hr)
  have hmodules : w.host.modules? id = some r.modules :=
    (hmoment.sameModules id).symm.trans (modules?_of_get? hr)
  refine Loading.agree_of_answered hr (fun c hc => ?_) seat
  obtain ⟨l, hl, hkey, -⟩ := ((H.holds id _ hmodules).cached _ c).1 hc
  obtain ⟨p, questions, q', m, hp', hanswer, hid⟩ := hknown q.specifier
    (List.mem_map.2 ⟨l, List.mem_append_right _ hl, hkey⟩) _ hr'
  have hagain := hstable p questions q' m hp' hanswer h.platform r.questions q.dir hp
  rw [hid] at hagain
  exact ⟨m, hagain, hid⟩

/-- A runtime that has been attached keeps the resolver that it was given. -/
theorem run_attach_resolver {seat : Seat} {config : Config} {resolver : Resolver} {r : Runtime E}
    (hid : id = ⟨w.host.nextRuntime⟩) (hnew : w.host.runtimes.get? id = none)
    (hmade : id.val < (w.perform (.attach seat config resolver)).host.nextRuntime)
    (ms : List (Move E))
    (hr : (w.run (.attach seat config resolver :: ms)).host.runtimes.get? id = some r) :
    r.resolver = resolver := by
  subst hid
  obtain ⟨status, hs, he⟩ := run_status hmade ms (status?_of_get? hr)
  obtain ⟨r₀, hr₀, rfl⟩ := Option.map_eq_some_iff.1 hs
  have hkept : r.status.resolver = r₀.status.resolver := by
    rw [he, (r₀.status.haltAll_made _).2.1]
  exact hkept.trans (attach_resolver hnew hr₀)

/-- The sources of two modules, of which the second one loads the first. -/
def sourceTable : Table String String := ⟨[("/a", "[]"), ("/b", "[[\"require\",\"./a\"]]")]⟩

/-- A runtime that resolves them is attached, and the second one is loaded from the top level. -/
def sourceRun : List (Move Script.engine) :=
  .attach 0 {} (.ofSources "/" sourceTable) :: .start (.require 0 ⟨1⟩ ⟨"./b", none⟩ none) ::
    List.replicate 16 (.step 0)

/-- After that run both are loaded. Asked for by the id as it is written or by a relative path, from
another directory, the first one is named and served alike. -/
theorem sourceRun_agrees :
    let h := ((ofForms {}).run sourceRun).host
    ∃ r, h.runtimes.get? ⟨1⟩ = some r ∧ r.modules.cached.keys = ["/a", "/b"] ∧
      Loading.Agree r ⟨1⟩ ⟨"/a", some "/c"⟩ 0 h ∧ Loading.Agree r ⟨1⟩ ⟨"../a", some "/c"⟩ 0 h ∧
      (Loading.resolve ⟨1⟩ ⟨"/a", some "/c"⟩ 0 h).1.toOption = some "/a" ∧
      (Loading.resolve ⟨1⟩ ⟨"../a", some "/c"⟩ 0 h).1.toOption = some "/a" := by
  intro h
  obtain ⟨hagree, -, hsources⟩ := require_agrees (E := Script.engine)
    (Script.State.empty.seat [] [] []) {} (fun _ => ⟨⟨1⟩, 0⟩) ⟨1⟩ sourceRun
  have hloaded : (h.runtimes.get? ⟨1⟩).any fun r => r.modules.cached.keys = ["/a", "/b"] := by
    decide +kernel
  obtain ⟨r, hr, hkeys⟩ := (Option.any_eq_true _ _).1 hloaded
  have hresolver : r.resolver = .ofSources "/" sourceTable :=
    run_attach_resolver (w := ofForms {}) rfl rfl (by decide +kernel) _ hr
  have hstable : r.resolver.Stable fun _ => True :=
    hresolver ▸ hsources "/" sourceTable (by decide +kernel)
  have hboth := hagree (fun _ => True) (along_of_forall fun _ _ _ _ _ => trivial) _ h r .between hr
    trivial hstable
  exact ⟨r, hr, of_decide_eq_true hkeys, hboth _ 0, hboth _ 0, by decide +kernel, by decide +kernel⟩

end World

end ScriptHost
