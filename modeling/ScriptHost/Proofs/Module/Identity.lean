import ScriptHost.Proofs.Module.History

/-!
# The identity of modules

At every moment the tables of a runtime say which bodies are being evaluated: the bodies on the
stacks of the jobs, each of another module, and none of a module that is loaded. The evaluation of a
module is completed once at most, and from then on every question that leads to it has what the same
module object exports as its result.

## Main definitions

* `World.bodies`: the ids of the modules of a runtime whose bodies are being evaluated.
* `World.LoadsInStep`: what the tables say of the bodies on the stacks.
* `Job.exportsOf`: what a module object exports, read at a seat.

## Main results

* `World.run_loadsInStep`: at every moment the tables and the stacks are in step.
* `World.loaded_once`: a module is loaded once, and it stays the one that is answered with.
-/

namespace ScriptHost

variable {E : Engine}

namespace Job

/-- What a module object exports, read at a seat. -/
def exportsOf (seat : Seat) (object : E.Value) (engines : E.State) : Result E :=
  (E.getProperty seat object "exports" engines).1.mapError .thrown

/-- What goes on with a reply that is a value or an exception. -/
theorem act_answer {h : Host E} {j : Job E} {x : HostAction E (Reply E)} {r : Result E}
    (hx : (x j.seat h).1 = r.map .value) :
    (j.act h x fun h reply => j.answer h reply).2 = j.turnTo (.result r) := by
  rw [act]
  revert hx
  rcases x j.seat h with ⟨e | reply, h'⟩ <;> rcases r with e' | v <;> rintro ⟨⟩ <;> rfl

variable {h : Host E} {owner : RuntimeId} {q : Question} {r : Runtime E} {id : String}
  {c : CachedModule E.Value}

/-- A question from the top level that a loaded module answers. -/
theorem require_of_answers (hr : h.runtimes.get? owner = some r)
    (hc : r.modules.cached.get? id = some c) (hq : r.Answers h.platform q id) (seat : Seat)
    (main : Option String) :
    (require h seat owner q main).2 =
      (start seat (.require main) .take).turnTo (.result (exportsOf seat c.object h.engines)) :=
  act_answer (Loading.require_of_answers hr hc hq seat)

/-- A question from a script that a loaded module answers. -/
theorem native_of_answers (hr : h.runtimes.get? owner = some r)
    (hc : r.modules.cached.get? id = some c) (hq : r.Answers h.platform q id) {j : Job E}
    (hj : h.attached j.seat = some owner) {args : List E.Value}
    (hargs : ModuleFunction.question "require" args = .ok q) (this : E.Value) :
    (j.native h (.module .require) this args).2 =
      j.turnTo (.result (exportsOf j.seat c.object h.engines)) := by
  have hinvoke : (Native.module .require).invoke this args j.seat h =
      Loading.require owner q j.seat h := by
    change (Action.ofExcept (ModuleFunction.question "require" args) >>= fun q =>
      HostAction.attached >>= fun id => Loading.require id q) j.seat h = _
    rw [hargs, Action.bind_def]
    change (HostAction.attached >>= fun id => Loading.require id q) j.seat h = _
    rw [Action.bind_def, HostAction.attached, hj]
  exact act_answer (hinvoke ▸ Loading.require_of_answers hr hc hq j.seat)

end Job

namespace World

/-- The ids of the modules of a runtime whose bodies are being evaluated. -/
def bodies (w : World E) (id : RuntimeId) : List String :=
  (w.loadings.filter fun l => l.owner = id).map Loading.id

/-- The tables of the runtimes are in step with the bodies on the stacks of the jobs. -/
structure LoadsInStep (w : World E) : Prop where
  /-- The table of evaluations in progress has the ids of the bodies on the stacks. -/
  loading : ∀ id r, w.host.runtimes.get? id = some r →
    r.modules.loading.keys.Perm (w.bodies id)
  /-- No two bodies belong to one module. -/
  nodup : ∀ id, (w.bodies id).Nodup
  /-- No body belongs to a loaded module. -/
  uncached : ∀ id r, w.host.runtimes.get? id = some r →
    ∀ s ∈ w.bodies id, s ∉ r.modules.cached.keys
  /-- A body begins to be evaluated only if its module is neither being evaluated nor loaded. -/
  begins : ∀ seat engines owner q l scope h',
    Loading.require owner q seat { w.host with engines } = (.ok (.evaluate l scope), h') →
      ∀ r, w.host.runtimes.get? l.owner = some r →
        l.id ∉ r.modules.loading.keys ∧ l.id ∉ r.modules.cached.keys
  /-- No module is entered as loaded a second time: no job has broken a rule of the host. -/
  unbroken : ∀ j ∈ w.jobs, ∀ message, j.focus ≠ .over (.broken message)

theorem mem_bodies {w : World E} {id : RuntimeId} {s : String} :
    s ∈ w.bodies id ↔ ∃ l ∈ w.loadings, l.key = (id, s) := by
  simp only [bodies, List.mem_map, List.mem_filter, decide_eq_true_eq, and_assoc, Loading.key,
    Prod.mk.injEq]

/-- No two bodies that are being evaluated belong to one module. -/
theorem ModulesAgree.nodup_bodies {w : World E} {done : List (Loading E.Value)}
    (H : w.ModulesAgree done) (id : RuntimeId) : (w.bodies id).Nodup := by
  have hkeys := H.nodup
  rw [List.map_append] at hkeys
  have hpairwise := (List.pairwise_map.1 (List.nodup_append.1 hkeys).1).filter
    fun l => decide (l.owner = id)
  refine List.pairwise_map.2 (hpairwise.imp_of_mem fun hl hl' hne hid => hne ?_)
  have ho := of_decide_eq_true (List.mem_filter.1 hl).2
  have ho' := of_decide_eq_true (List.mem_filter.1 hl').2
  exact Prod.ext (ho.trans ho'.symm) hid

/-- Whatever is loaded, and whichever bodies load, fail, catch and try again, in whichever order
jobs take their steps: at every moment the tables and the stacks are in step. -/
theorem run_loadsInStep (engines : E.State) (platform : Platform) (profiles : Seat → Profile)
    (ms : List (Move E)) : ((initial engines platform profiles).run ms).LoadsInStep := by
  have H := run_modulesAgree engines platform profiles ms
  revert H
  generalize record _ _ ms = done
  generalize (initial engines platform profiles).run ms = w
  intro H
  refine ⟨fun id r hr => ?_, H.nodup_bodies, fun id r hr s hs hcached => ?_, ?_, H.unbroken⟩
  · have hholds := H.holds id _ (Host.modules?_of_get? hr)
    refine (List.perm_ext_iff_of_nodup hholds.nodup (H.nodup_bodies id)).2 fun s => ?_
    rw [mem_bodies, ← Table.contains_iff_mem_keys, ← Table.isSome_get?, Option.isSome_iff_exists]
    constructor
    · rintro ⟨v, hv⟩
      obtain ⟨l, hl, hkey, -⟩ := (hholds.loading s v).1 hv
      exact ⟨l, hl, hkey⟩
    · rintro ⟨l, hl, hkey⟩
      exact ⟨l.object, (hholds.loading s _).2 ⟨l, hl, hkey, rfl⟩⟩
  · rw [← Table.contains_iff_mem_keys, ← Table.isSome_get?, Option.isSome_iff_exists] at hcached
    obtain ⟨c, hc⟩ := hcached
    obtain ⟨l, hl, hkey⟩ := mem_bodies.1 hs
    have hholds := H.holds id _ (Host.modules?_of_get? hr)
    obtain ⟨l', hl', hkey', -⟩ := (hholds.cached s c).1 hc
    exact H.key_ne hl hl' (hkey.trans hkey'.symm)
  · intro seat engines owner q l scope h' hrequire r hr
    have hreplies := Loading.require_replies owner q seat { w.host with engines }
    rw [hrequire] at hreplies
    generalize Loading.event? owner q seat _ = o at hreplies
    cases hreplies with
    | direct _ hp => exact absurd rfl (hp _ rfl l scope)
    | evaluate ht hcached hloading _ =>
      obtain rfl := Option.some.inj ((Host.modules?_of_get? hr).symm.trans ht)
      exact ⟨Table.get?_eq_none_iff.1 hloading, Table.get?_eq_none_iff.1 hcached⟩

/-- Along every run an evaluation of a module is completed once at most. From then on, as long as
the runtime is there, the module is entered with that object and file; and every question that leads
to it, from the top level or from a script, and from whichever directory, has what the object
exports at that moment as its result, and no body is evaluated. -/
theorem loaded_once (engines : E.State) (platform : Platform) (profiles : Seat → Profile)
    (ms : List (Move E)) :
    let w := (initial engines platform profiles).run ms
    let done := record (fun w m => (w.completion m).toList) (initial engines platform profiles) ms
    (done.map Loading.key).Nodup ∧
      ∀ l ∈ done, ∀ r, w.host.runtimes.get? l.owner = some r →
        r.modules.cached.get? l.id = some l.entry ∧
        ∀ q, r.Answers w.host.platform q l.id →
          (∀ seat main, (Job.require w.host seat l.owner q main).2 =
            (Job.start seat (.require main) .take).turnTo
              (.result (Job.exportsOf seat l.object w.host.engines))) ∧
          ∀ (j : Job E) engines this args, w.host.attached j.seat = some l.owner →
            ModuleFunction.question "require" args = .ok q →
            (j.native { w.host with engines } (.module .require) this args).2 =
              j.turnTo (.result (Job.exportsOf j.seat l.object engines)) := by
  intro w done
  have H : ModulesAgree done w := run_modulesAgree engines platform profiles ms
  refine ⟨?_, fun l hl r hr => ?_⟩
  · have hnodup := H.nodup
    rw [List.map_append] at hnodup
    exact (List.nodup_append.1 hnodup).2.1
  · have ht : w.host.modules? l.owner = some r.modules := Host.modules?_of_get? hr
    have hc : r.modules.cached.get? l.id = some l.entry :=
      ((H.holds _ _ ht).cached l.id l.entry).2 ⟨l, hl, rfl, rfl⟩
    refine ⟨hc, fun q hq => ⟨fun seat main => ?_, fun j engines this args hj hargs => ?_⟩⟩
    · exact Job.require_of_answers hr hc hq seat main
    · have hr' : (Host.runtimes { w.host with engines }).get? l.owner = some r := hr
      exact Job.native_of_answers hr' hc hq hj hargs this

/-- A module is loaded from the top level. -/
def loadRun : List (Move Script.engine) :=
  [.attach 0 {} (.ofAnswers ⟨[("./a", .ok ⟨"/a", "/a", "[]"⟩)]⟩),
    .start (.require 0 ⟨1⟩ ⟨"./a", none⟩ none)] ++
  List.replicate 6 (.step 0)

/-- After that run the module is loaded, and a question from another directory has its exports. -/
theorem loadRun_once :
    record (fun w m => (w.completion m).toList) (ofForms {}) loadRun =
        [(⟨⟨1⟩, "/a", "/a", .object 65⟩ : Loading Script.Value)] ∧
      (Job.require ((ofForms {}).run loadRun).host 0 ⟨1⟩ ⟨"./a", some "/b"⟩ none).2 =
        (Job.start 0 (.require none) .take).turnTo
          (.result (Job.exportsOf 0 (.object 65 : Script.Value)
            ((ofForms {}).run loadRun).host.engines)) := by
  have hdone : record (fun w m => (w.completion m).toList) (ofForms {}) loadRun =
      [(⟨⟨1⟩, "/a", "/a", .object 65⟩ : Loading Script.Value)] := by decide +kernel
  have hanswers : (((ofForms {}).run loadRun).host.runtimes.get? ⟨1⟩).any (fun r =>
      decide (r.Answers ((ofForms {}).run loadRun).host.platform ⟨"./a", some "/b"⟩ "/a")) := by
    decide +kernel
  rw [ofForms] at hdone hanswers ⊢
  obtain ⟨r, hr, hq⟩ := (Option.any_eq_true _ _).1 hanswers
  obtain ⟨-, hloaded⟩ :=
    loaded_once (Script.State.empty.seat [] [] []) {} (fun _ => ⟨⟨1⟩, 0⟩) loadRun
  rw [hdone] at hloaded
  obtain ⟨-, hlater⟩ := hloaded _ (List.mem_singleton_self _) r hr
  exact ⟨hdone, (hlater _ (of_decide_eq_true hq)).1 0 none⟩

end World

end ScriptHost
