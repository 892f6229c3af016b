import ScriptHost.Proofs.Module.Traversal
import ScriptHost.Proofs.Script.Bodies
import Mathlib.Data.List.Permutation

/-!
# Loading a library

Loading a module from the top level, on an engine without traps and out of a library, is a
depth-first visit of the modules that are reached from the first one.

## Main results

* `World.require_visits`: what loading a module comes to.
-/

namespace ScriptHost

variable {E : Engine} {seat : Seat}

namespace World

/-- Once a module is loaded from the top level the microtasks are run, and if they end at once, so
does the job. -/
theorem run_conclude {h : Host E} {js : List (Job E)} {v u : E.Value} {s : E.State}
    (hmicrotasks : E.step seat (E.microtasks seat h.engines).1 (E.microtasks seat h.engines).2 =
      (.returned u, s)) :
    run ⟨h, js ++ [.start seat (.require none) (.result (.ok v))]⟩
        (List.replicate 3 (.step js.length)) =
      ⟨{ h with engines := s }, js ++ [.start seat (.require none) (.over (.returned v))]⟩ := by
  let waiting (focus : Focus E) : Job E := ⟨seat, .require none, some (.ok v), [], focus⟩
  have hconclude : Job.step h (.start seat (.require none) (.result (.ok v))) =
      ({ h with engines := (E.microtasks seat h.engines).2 },
        waiting (.script (E.microtasks seat h.engines).1)) := rfl
  have hreturned : Job.step { h with engines := (E.microtasks seat h.engines).2 }
      (waiting (.script (E.microtasks seat h.engines).1)) =
        ({ h with engines := s }, waiting (.result (.ok u))) := by
    simp only [waiting, Job.step, hmicrotasks]
    rfl
  have hproceed : Job.step { h with engines := s } (waiting (.result (.ok u))) =
      ({ h with engines := s }, .start seat (.require none) (.over (.returned v))) := rfl
  simp only [List.replicate_succ, List.replicate_zero, run_cons, run_nil, perform_last, hconclude,
    hreturned, hproceed]

/-- Loading a module from the top level, out of a library and on an engine without traps. After some
steps the module is loaded and the job has its exports, without an exception; and once the
microtasks are over, if they end at once, so is the job. The modules whose bodies are evaluated are
those that are reached from the first one along ids that were neither loaded nor being evaluated;
each is evaluated once, they begin in preorder, and they are loaded in postorder. A script that asks
for a module on the stack of the job has the exports of the moment. In the end the table of
evaluations in progress is what it was. -/
theorem require_visits {w : World E} {owner : RuntimeId} {r : Runtime E} {T : E.Untrapped seat}
    (L : Library T r w.host.platform w.host.engines) (hr : w.host.runtimes.get? owner = some r)
    (ha : w.host.attached seat = some owner) (q : Question) (hq : L.Resolves q) :
    ∃ n v pre post r',
      let moves k := .start (.require seat owner q none) :: List.replicate k (.step w.jobs.length)
      ((w.run (moves n)).jobs = w.jobs ++ [.start seat (.require none) (.result (.ok v))] ∧
        ((∀ s, T.Since w.host.engines s → ∃ u s',
            E.step seat (E.microtasks seat s).1 (E.microtasks seat s).2 = (.returned u, s')) →
          (w.run (moves (n + 3))).jobs =
              w.jobs ++ [.start seat (.require none) (.over (.returned v))] ∧
            (w.run (moves (n + 3))).host.runtimes = (w.run (moves n)).host.runtimes)) ∧
      (Visit L.next r.modules.seen (L.target? q).toList pre post ∧ pre.Nodup ∧
        ∀ x, x ∈ pre ↔ Reaches L.next r.modules.seen (L.target? q).toList x) ∧
      ((begun (record moduleEvents w (moves n))).map Loading.key = pre.map (Prod.mk owner) ∧
        (completed (record moduleEvents w (moves n))).map Loading.key = post.map (Prod.mk owner)) ∧
      ((w.run (moves n)).host.runtimes.get? owner = some r' ∧
        r'.modules.cached.keys = r.modules.cached.keys ++ post ∧
        r'.modules.loading = r.modules.loading) ∧
      ∀ k < n, ∀ j, (w.run (moves k)).jobs[w.jobs.length]? = some j →
        L.AnswersFromStack (w.run (moves k)).host j := by
  have hstands : L.Stands owner w.host r.modules :=
    ⟨⟨r.questions, hr⟩, ha, rfl, T.refl _, .initial⟩
  obtain ⟨v, h', t', es, hruns, hvisits⟩ :=
    Library.require_runs (n := L.unseen r.modules) (fun k _ => L.evaluates owner k) (Nat.le_refl _)
      hstands hq (j := .start seat (.require none) .take) rfl nofun
  obtain ⟨n, hrun, hrecord, hmoments⟩ := hruns.world_run w.jobs
  obtain ⟨pre, post, hvisit, hcached, hbegun, hcompleted⟩ := hvisits.visit
  obtain ⟨questions, hr'⟩ := hvisits.stands.runtime
  let moves k : List (Move E) :=
    .start (.require seat owner q none) :: List.replicate k (.step w.jobs.length)
  have hend : w.run (moves n) =
      ⟨h', w.jobs ++ [.start seat (.require none) (.result (.ok v))]⟩ := hrun
  have hevents : record moduleEvents w (moves n) =
      (Loading.event? owner q seat w.host).toList ++ es := by
    rw [← hrecord]
    rfl
  refine ⟨n, v, pre, post, { r with modules := t', questions },
    ⟨congrArg World.jobs hend, fun hmicrotasks => ?_⟩,
    ⟨hvisit, hvisit.nodup, hvisit.mem_iff_reaches⟩, ⟨?_, ?_⟩, ⟨?_, hcached, hvisits.loading⟩,
    fun k hk j hj => ?_⟩
  · obtain ⟨u, s, hu⟩ := hmicrotasks h'.engines hvisits.since
    have hlast : w.run (moves (n + 3)) = ⟨{ h' with engines := s },
        w.jobs ++ [.start seat (.require none) (.over (.returned v))]⟩ := by
      have hsplit : moves (n + 3) = moves n ++ List.replicate 3 (.step w.jobs.length) := by
        simp only [moves, List.replicate_add, List.cons_append]
      rw [hsplit, run_append, hend]
      exact run_conclude hu
    exact ⟨congrArg World.jobs hlast, (congrArg (fun w => w.host.runtimes) hlast).trans
      (congrArg (fun w => w.host.runtimes) hend).symm⟩
  · exact hevents ▸ hbegun
  · exact hevents ▸ hcompleted
  · exact (congrArg (fun w => w.host.runtimes.get? owner) hend).trans hr'
  · obtain ⟨hₖ, jₖ, hmoment, hanswers⟩ := hmoments k hk
    have hmoment : w.run (moves k) = ⟨hₖ, w.jobs ++ [jₖ]⟩ := hmoment
    rw [hmoment] at hj ⊢
    obtain rfl := Option.some.inj (hj.symm.trans List.getElem?_concat_length)
    exact hanswers

end World

/-! ### A cycle -/

namespace Cycle

/-- The first module of a cycle loads the second, and itself for one of its exports. -/
def first : ResolvedModule := ⟨"/a", "/a",
  "[[\"require\",\"./b\"],[\"set\",[\"mod\",\"exports\"],\"x\",[\"require\",\"./a\"]]]"⟩

/-- The second one loads the first, a native module and the third. -/
def second : ResolvedModule :=
  ⟨"/b", "/b", "[[\"require\",\"./a\"],[\"require\",\"fs\"],[\"require\",\"/c\"]]"⟩

/-- The third one exports a text. -/
def third : ResolvedModule :=
  ⟨"/c", "/c", "[[\"set\",[\"mod\",\"module\"],\"exports\",\"done\"]]"⟩

/-- The modules. -/
def modules : List ResolvedModule := [first, second, third]

/-- The specifiers in their bodies. -/
def specifiers (m : ResolvedModule) : List String :=
  if m.id = "/a" then ["./b", "./a"] else if m.id = "/b" then ["./a", "fs", "/c"] else []

/-- They are found under their ids and under relative paths. -/
def answers : Table String (Except Fault ResolvedModule) :=
  ⟨modules.flatMap fun m => [("." ++ m.id, .ok m), (m.id, .ok m)]⟩

/-- The answer to a question. -/
def find (q : Question) : Except Fault ResolvedModule := (Resolver.ofAnswers answers).answer {} [] q

/-- A runtime that resolves them is attached. -/
def world : World Script.engine := (World.ofForms {}).run [.attach 0 {} (.ofAnswers answers)]

theorem mem_modules {q : Question} {m : ResolvedModule} (hm : find q = .ok m) : m ∈ modules := by
  have hget : answers.get? q.specifier = some (.ok m) := by
    change (answers.get? q.specifier).getD _ = _ at hm
    cases hrow : answers.get? q.specifier with
    | none =>
      rw [hrow] at hm
      cases hm
    | some a =>
      rw [hrow] at hm
      exact congrArg some hm
  obtain ⟨before, after, hrows, -⟩ := List.lookup_eq_some_iff.1 hget
  have hmem : (q.specifier, Except.ok m) ∈ answers.rows := by
    rw [hrows]
    exact List.mem_append_right _ (List.mem_cons_self ..)
  obtain ⟨m', hm', hrow⟩ := List.mem_flatMap.1 hmem
  rcases List.mem_cons.1 hrow with hrow | hrow
  · obtain rfl := Except.ok.inj (Prod.mk.inj hrow).2
    exact hm'
  · obtain rfl := Except.ok.inj (Prod.mk.inj (List.mem_singleton.1 hrow)).2
    exact hm'

theorem find_id : ∀ m ∈ modules, ∀ dir, find ⟨m.id, dir⟩ = .ok m := by
  intro m hm dir
  change (answers.get? m.id).getD _ = _
  simp only [modules, List.mem_cons, List.not_mem_nil, or_false] at hm
  rcases hm with rfl | rfl | rfl <;> rfl

/-- The body of each of them loads its modules. -/
theorem loaders : ∀ m ∈ modules, ∃ es, Script.bodyOf? m.source = some es ∧
    Script.Loaders (specifiers m) es := by
  intro m hm
  simp only [modules, List.mem_cons, List.not_mem_nil, or_false] at hm
  rcases hm with rfl | rfl | rfl
  · refine ⟨[.array [.string "require", .string "./b"], .array [.string "set",
      .array [.string "mod", .string "exports"], .string "x",
      .array [.string "require", .string "./a"]]], by cbv, ?_⟩
    exact .cons (.load "./b") (.cons (.write "x" (.load "./a")) .nil)
  · refine ⟨[.array [.string "require", .string "./a"], .array [.string "require", .string "fs"],
      .array [.string "require", .string "/c"]], by cbv, ?_⟩
    exact .cons (.load "./a") (.cons (.load "fs") (.cons (.load "/c") .nil))
  · refine ⟨[.array [.string "set", .array [.string "mod", .string "module"], .string "exports",
      .string "done"]], by cbv, ?_⟩
    exact .cons (.replace (.constant rfl)) .nil

/-- What is known of the runtime and of the engine at first. -/
structure Fresh (r : Runtime Script.engine) : Prop where
  runtime : world.host.runtimes.get? ⟨1⟩ = some r
  natives : r.modules.natives.keys = ["fs", "os", "path", "util"]
  cached : r.modules.cached.keys = []
  loading : r.modules.loading.keys = []
  require : ∃ o name arity, world.host.engines.object? r.requireFunction = some o ∧
    o.kind = .native (.module .require) name arity

theorem exists_fresh : ∃ r, Fresh r := by
  have hruntime : (world.host.runtimes.get? ⟨1⟩).any fun r =>
      r.modules.natives.keys = ["fs", "os", "path", "util"] && r.modules.cached.keys = [] &&
      r.modules.loading.keys = [] &&
      (world.host.engines.object? r.requireFunction).any fun o => match o.kind with
        | .native f _ _ => f = .module .require
        | _ => false := by decide +kernel
  obtain ⟨r, hr, hfacts⟩ := (Option.any_eq_true _ _).1 hruntime
  simp only [Bool.and_eq_true, decide_eq_true_eq] at hfacts
  obtain ⟨⟨⟨hnatives, hcached⟩, hloading⟩, hrequire⟩ := hfacts
  obtain ⟨o, ho, hkind⟩ := (Option.any_eq_true _ _).1 hrequire
  refine ⟨r, hr, hnatives, hcached, hloading, ?_⟩
  split at hkind
  · next f name arity hk => exact ⟨o, name, arity, ho, of_decide_eq_true hkind ▸ hk⟩
  · cases hkind

theorem free : Script.State.Free 0 world.host.engines := by
  have htraps : ∀ o ∈ world.host.engines.heap.toList, o.traps = [] := by decide +kernel
  refine ⟨fun i o ho => htraps o (Array.mem_toList_iff.2 (Array.mem_of_getElem? ho)), ?_, ?_⟩
  · decide +kernel
  · have hmicrotasks : (world.host.engines.local_ 0).microtasks.isEmpty := by decide +kernel
    exact List.isEmpty_iff.1 hmicrotasks

variable {r : Runtime Script.engine}

theorem Fresh.answer (H : Fresh r) (p : Platform) (questions : List Question) (q : Question) :
    r.resolver.answer p questions q = find q := by
  have hworld : world.host = ((World.ofForms {}).host.attach 0 {} (.ofAnswers answers)).2 := by
    simp only [world, World.run_cons, World.run_nil, World.perform]
  have hnext : (⟨1⟩ : RuntimeId) = ⟨(World.ofForms {}).host.nextRuntime⟩ := rfl
  have hruntime := H.runtime
  rw [hworld, hnext] at hruntime
  have hresolver : r.resolver = .ofAnswers answers := Host.attach_resolver rfl hruntime
  rw [hresolver]
  rfl

theorem Fresh.cached_eq (H : Fresh r) (id : String) : r.modules.cached.get? id = none := by
  rw [Table.get?_eq_none_iff, H.cached]
  exact List.not_mem_nil

theorem Fresh.loading_eq (H : Fresh r) (id : String) : r.modules.loading.get? id = none := by
  rw [Table.get?_eq_none_iff, H.loading]
  exact List.not_mem_nil

theorem Fresh.resolves (H : Fresh r) : ∀ m ∈ modules, ∀ specifier ∈ specifiers m, ∀ dir,
    r.Resolves find ⟨specifier, dir⟩ := by
  intro m hm specifier hspecifier dir
  have hmem : specifier ∈ ["./a", "./b", "/c", "fs"] :=
    (by decide : ∀ m ∈ modules, specifiers m ⊆ ["./a", "./b", "/c", "fs"]) m hm hspecifier
  simp only [List.mem_cons, List.not_mem_nil, or_false] at hmem
  rcases hmem with rfl | rfl | rfl | rfl
  · exact .inr (.inr ⟨_, rfl⟩)
  · exact .inr (.inr ⟨_, rfl⟩)
  · exact .inr (.inr ⟨_, rfl⟩)
  · refine .inl fun hnone => ?_
    rw [Table.get?_eq_none_iff, H.natives] at hnone
    exact hnone (List.mem_cons_self ..)

/-- The body of a module of the cycle loads its modules. -/
theorem Fresh.body (H : Fresh r) {m : ResolvedModule} (hm : m ∈ modules) {s : Script.State}
    {object exports : Script.Value} (hs : world.host.engines.Since 0 s)
    (hobject : s.IsObject object) (hexports : s.IsObject exports) :
    s.Since 0 (Script.engine.evaluate 0 (m.scope object exports r.requireFunction) s).2 ∧
      (Script.untrapped 0).Body m.dirname (specifiers m)
        (Script.engine.evaluate 0 (m.scope object exports r.requireFunction) s).1
        (Script.engine.evaluate 0 (m.scope object exports r.requireFunction) s).2 := by
  obtain ⟨es, hsource, hes⟩ := loaders m hm
  obtain ⟨o, name, arity, ho, hkind⟩ := H.require
  obtain ⟨o', ho', hkind'⟩ := Option.map_eq_some_iff.1 (hs.kind_eq ho)
  obtain ⟨hsame, hbody⟩ := Script.evaluation_body (m := m.scope object exports r.requireFunction)
    hsource hes (hs.free free) hobject hexports ho' (hkind'.trans hkind)
  rw [hsame]
  exact ⟨.refl s, hbody⟩

/-- The modules of the cycle as a library. -/
def library (H : Fresh r) :
    Library (Script.untrapped 0) r world.host.platform world.host.engines where
  find := find
  ids := modules.map ResolvedModule.id
  specifiers := specifiers
  answer := H.answer _
  mem_ids hm := List.mem_map_of_mem (mem_modules hm)
  find_id hm := find_id _ (mem_modules hm)
  resolves hm specifier hspecifier := H.resolves _ (mem_modules hm) specifier hspecifier _
  body hm := H.body (mem_modules hm)
  free := free
  cached_object id _ hc := nomatch (H.cached_eq id).symm.trans hc
  loading_object id _ ho := nomatch (H.loading_eq id).symm.trans ho

theorem Fresh.target?_eq (H : Fresh r) {q : Question} {m : ResolvedModule}
    (hnative : q.specifier ∉ ["fs", "os", "path", "util"]) (hm : find q = .ok m) :
    (library H).target? q = some m.id := by
  have hnatives : r.modules.natives.get? q.specifier = none := by
    rw [Table.get?_eq_none_iff, H.natives]
    exact hnative
  simp only [Library.target?, hnatives, H.cached_eq]
  rw [show (library H).find q = .ok m from hm]

theorem Fresh.next_eq (H : Fresh r) : (library H).next "/a" = ["/b", "/a"] ∧
    (library H).next "/b" = ["/a", "/c"] ∧ (library H).next "/c" = [] := by
  have hnative : (library H).target? ⟨"fs", some second.dirname⟩ = none := by
    have hmem : r.modules.natives.contains "fs" := by
      rw [Table.contains_iff_mem_keys, H.natives]
      exact List.mem_cons_self ..
    obtain ⟨exports, hexports⟩ := Option.isSome_iff_exists.1
      ((Table.isSome_get? r.modules.natives "fs").trans hmem)
    simp only [Library.target?, hexports]
  refine ⟨?_, ?_, ?_⟩
  · refine ((library H).next_eq (q := ⟨"/a", none⟩) (m := first) rfl).trans ?_
    change (library H).targets first.dirname ["./b", "./a"] = _
    rw [Library.targets_cons, Library.targets_cons, H.target?_eq (m := second) (by decide) rfl,
      H.target?_eq (m := first) (by decide) rfl]
    rfl
  · refine ((library H).next_eq (q := ⟨"/b", none⟩) (m := second) rfl).trans ?_
    change (library H).targets second.dirname ["./a", "fs", "/c"] = _
    rw [Library.targets_cons, Library.targets_cons, Library.targets_cons, hnative,
      H.target?_eq (m := first) (by decide) rfl, H.target?_eq (m := third) (by decide) rfl]
    rfl
  · exact ((library H).next_eq (q := ⟨"/c", none⟩) (m := third) rfl).trans rfl

/-- The visit of the cycle. -/
theorem Fresh.visit (H : Fresh r) : Visit (library H).next r.modules.seen ["/a"]
    ["/a", "/b", "/c"] ["/c", "/b", "/a"] := by
  obtain ⟨ha, hb, hc⟩ := H.next_eq
  have hseen : r.modules.seen = [] := by rw [ModuleTable.seen, H.cached, H.loading]; rfl
  rw [hseen]
  have hthird : Visit (library H).next ["/b", "/a"] ["/c"] ["/c"] ["/c"] :=
    Visit.single (by decide) (hc ▸ Visit.nil : Visit (library H).next _ _ [] [])
  have hsecond : Visit (library H).next ["/a"] ["/b"] ["/b", "/c"] ["/c", "/b"] :=
    Visit.single (by decide) (hb ▸ .skip (by decide) hthird : Visit (library H).next _ _ _ ["/c"])
  have hself : Visit (library H).next ["/b", "/c", "/a"] ["/a"] [] [] := .skip (by decide) .nil
  have hfirst : Visit (library H).next ["/a"] ["/b", "/a"] ["/b", "/c"] ["/c", "/b"] :=
    hsecond.append hself
  exact Visit.single (by decide) (ha ▸ hfirst)

end Cycle

/-- Loading the first module of the cycle evaluates all three, and then the job ends. -/
theorem World.cycleRun_visits : ∃ n v,
    let moves k := .start (.require 0 ⟨1⟩ ⟨"./a", none⟩ none) :: List.replicate k (.step 0)
    ((Cycle.world.run (moves n)).jobs = [.start 0 (.require none) (.result (.ok v))] ∧
      (Cycle.world.run (moves (n + 3))).jobs = [.start 0 (.require none) (.over (.returned v))]) ∧
      (begun (record moduleEvents Cycle.world (moves n))).map Loading.key =
        [(⟨1⟩, "/a"), (⟨1⟩, "/b"), (⟨1⟩, "/c")] ∧
      (completed (record moduleEvents Cycle.world (moves n))).map Loading.key =
        [(⟨1⟩, "/c"), (⟨1⟩, "/b"), (⟨1⟩, "/a")] := by
  obtain ⟨r, H⟩ := Cycle.exists_fresh
  have hattached : Cycle.world.host.attached 0 = some ⟨1⟩ := by decide +kernel
  obtain ⟨n, v, pre, post, r', ⟨hjobs, hends⟩, ⟨hvisit, -⟩, ⟨hbegun, hcompleted⟩, -⟩ :=
    World.require_visits (Cycle.library H) H.runtime hattached ⟨"./a", none⟩
      (.inr (.inr ⟨_, rfl⟩))
  rw [H.target?_eq (m := Cycle.first) (by decide) rfl] at hvisit
  obtain ⟨rfl, rfl⟩ := H.visit.unique hvisit
  have hmicrotasks (s : Script.State) (hs : Cycle.world.host.engines.Since 0 s) :=
    (hs.free Cycle.free).microtasks_returned
  exact ⟨n, v, ⟨hjobs, (hends hmicrotasks).1⟩, hbegun, hcompleted⟩

end ScriptHost
