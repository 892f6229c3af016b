import ScriptHost.Proofs.Module.History
import ScriptHost.Proofs.Module.Library
import ScriptHost.Proofs.Module.Visit
import Mathlib.Data.Finset.Card

/-!
# Depth-first evaluation

On an engine without traps the evaluation of a body out of a library comes to its end, and it is a
depth-first visit of the modules that the body leads to. A module is entered when its body begins to
be evaluated and left when it is loaded; what has been seen is what is loaded or being evaluated.
Every evaluation that begins leaves one id fewer that has not been seen, so that there is an end;
and a script that asks for a module whose own body is still being evaluated has what that exports so
far.

## Main definitions

* `Job.Runs`: steps of a job, with what becomes of modules.
* `Library.AnswersFromStack`: a question for a module on the stack is answered with its exports.
* `Library.Visits`: a host after a visit.
* `Library.Evaluates`: bodies are evaluated to their ends.

## Main results

* `Job.Runs.world_run`: steps of a job as moves of a world.
* `Library.require_runs`: loading a module is a visit if evaluating bodies is.
* `Library.evaluates`: every body is evaluated to its end.
-/

namespace ScriptHost

variable {E : Engine} {seat : Seat}

open Host

/-! ### Runs of a job -/

/-- The last job of a world takes a step. -/
theorem World.perform_last (h : Host E) (js : List (Job E)) (j : Job E) :
    World.perform ⟨h, js ++ [j]⟩ (.step js.length) = ⟨(j.step h).1, js ++ [(j.step h).2]⟩ := by
  have hlast : (js ++ [j])[js.length]? = some j := List.getElem?_concat_length ..
  simp only [World.perform, hlast, List.set_append_right _ _ (Nat.le_refl _), Nat.sub_self,
    List.set_cons_zero]

theorem World.moduleEvents_last (h : Host E) (js : List (Job E)) (j : Job E) :
    World.moduleEvents ⟨h, js ++ [j]⟩ (.step js.length) = (j.moduleEvent? h).toList := by
  have hlast : (js ++ [j])[js.length]? = some j := List.getElem?_concat_length ..
  simp only [World.moduleEvents, World.moduleEvent?, hlast, Option.bind_some]

namespace Job

/-- Steps of a job, with what becomes of modules in them; something holds before each of them. -/
inductive Runs (P : Host E → Job E → Prop) :
    Host E → Job E → List (ModuleEvent E.Value) → Host E → Job E → Prop
  /-- There is no step. -/
  | refl {h : Host E} {j : Job E} : Runs P h j [] h j
  /-- There is a step, and others follow. -/
  | step {h h' : Host E} {j j' : Job E} {es : List (ModuleEvent E.Value)} (hp : P h j)
      (H : Runs P (j.step h).1 (j.step h).2 es h' j') :
      Runs P h j ((j.moduleEvent? h).toList ++ es) h' j'

variable {P : Host E → Job E → Prop} {h h₁ h' : Host E} {j j₁ j' : Job E}
  {es es' : List (ModuleEvent E.Value)}

theorem Runs.single {o : Option (ModuleEvent E.Value)} (hp : P h j) (hs : j.step h = (h₁, j₁))
    (ho : j.moduleEvent? h = o) : Runs P h j o.toList h₁ j₁ := by
  have H : Runs P h j ((j.moduleEvent? h).toList ++ []) (j.step h).1 (j.step h).2 := .step hp .refl
  rwa [List.append_nil, hs, ho] at H

theorem Runs.trans (H : Runs P h j es h₁ j₁) (H' : Runs P h₁ j₁ es' h' j') :
    Runs P h j (es ++ es') h' j' := by
  induction H with
  | refl => exact H'
  | step hp _ ih =>
    rw [List.append_assoc]
    exact .step hp (ih H')

/-- The steps of the last job of a world are moves of the world. -/
theorem Runs.world_run (H : Runs P h j es h' j') (js : List (Job E)) :
    ∃ n, World.run ⟨h, js ++ [j]⟩ (List.replicate n (.step js.length)) = ⟨h', js ++ [j']⟩ ∧
      World.record World.moduleEvents ⟨h, js ++ [j]⟩ (List.replicate n (.step js.length)) = es ∧
      ∀ k < n, ∃ hₖ jₖ,
        World.run ⟨h, js ++ [j]⟩ (List.replicate k (.step js.length)) = ⟨hₖ, js ++ [jₖ]⟩ ∧
          P hₖ jₖ := by
  induction H with
  | refl => exact ⟨0, rfl, rfl, nofun⟩
  | @step h h' j j' es hp _ ih =>
    obtain ⟨n, hrun, hrecord, hmoments⟩ := ih
    refine ⟨n + 1, ?_, ?_, fun k hk => ?_⟩
    · rw [List.replicate_succ, World.run_cons, World.perform_last, hrun]
    · rw [List.replicate_succ, World.record, World.perform_last, World.moduleEvents_last, hrecord]
    · cases k with
      | zero => exact ⟨h, j, rfl, hp⟩
      | succ k =>
        rw [List.replicate_succ, World.run_cons, World.perform_last]
        exact hmoments k (Nat.lt_of_succ_lt_succ hk)

/-! ### Scripts -/

variable {script script' : E.Script} {s : E.State}

theorem moduleEvent?_of_script (hf : j.focus = .script script) : j.moduleEvent? h =
    (j.invocation? h).bind fun v => v.native.moduleEvent? v.args v.job.seat v.host :=
  moduleEvent?_of_goesOn fun _ _ _ hr => nomatch hf.symm.trans hr

/-- A script takes a step in which it calls no native function. -/
theorem Runs.of_script (hP : ∀ h j, j.invocation? h = none → P h j) (hf : j.focus = .script script)
    (hv : j.invocation? h = none) (hs : j.step h = (h₁, j₁)) : Runs P h j [] h₁ j₁ := by
  refine .single (o := none) (hP h j hv) hs ?_
  rw [moduleEvent?_of_script hf, hv]
  rfl

/-- A script runs on. -/
theorem Runs.of_running (hP : ∀ h j, j.invocation? h = none → P h j)
    (hs : E.step j.seat script h.engines = (.running script', s)) :
    Runs P h (j.turnTo (.script script)) [] { h with engines := s }
      (j.turnTo (.script script')) := by
  refine .of_script hP rfl ?_ ?_
  · simp only [invocation?, turnTo, hs]
  · simp only [Job.step, turnTo, hs]

/-- A script ends with a value. -/
theorem Runs.of_returned (hP : ∀ h j, j.invocation? h = none → P h j) {v : E.Value}
    (hs : E.step j.seat script h.engines = (.returned v, s)) :
    Runs P h (j.turnTo (.script script)) [] { h with engines := s }
      (j.turnTo (.result (.ok v))) := by
  refine .of_script hP rfl ?_ ?_
  · simp only [invocation?, turnTo, hs]
  · simp only [Job.step, turnTo, hs]

/-- A script is taken up with the result of a native function. -/
theorem Runs.of_resume (hP : ∀ h j, j.invocation? h = none → P h j) (v : E.Value) :
    Runs P h (j.push (.script script) (.result (.ok v))) [] h
      (j.turnTo (.script (E.resume script (.ok v)))) :=
  .single (o := none) (hP _ _ rfl) rfl rfl

@[simp]
theorem push_turnTo (j : Job E) (frame : Frame E) (focus focus' : Focus E) :
    (j.push frame focus).turnTo focus' = j.push frame focus' := rfl

theorem act_congr {α : Type} {x y : HostAction E α} (hxy : x j.seat h = y j.seat h)
    (next : Host E → α → Host E × Job E) : j.act h x next = j.act h y next := by
  rw [act, act, hxy]

/-- The arguments of the function that loads modules ask a question. -/
theorem invoke_require {q : Question} {owner : RuntimeId} {args : List E.Value}
    (hq : ModuleFunction.question "require" args = .ok q) (ha : h.attached seat = some owner)
    (this : E.Value) :
    (Native.module .require).invoke this args seat h = Loading.require owner q seat h := by
  change (Action.ofExcept (ModuleFunction.question "require" args) >>= fun q =>
    HostAction.attached >>= fun owner => Loading.require owner q) seat h = _
  rw [hq]
  change (HostAction.attached >>= fun owner => Loading.require owner q) seat h = _
  rw [Action.bind_def, HostAction.attached, ha]

/-- A script calls the function that loads modules. -/
theorem script_requires {q : Question} {owner : RuntimeId} {this : E.Value} {args : List E.Value}
    (hs : E.step j.seat script h.engines = (.native (.module .require) this args script', s))
    (hq : ModuleFunction.question "require" args = .ok q)
    (ha : h.attached j.seat = some owner) :
    let h₁ := { h with engines := s }
    let j₁ := j.push (.script script') (.script script)
    (j.turnTo (.script script)).invocation? h = some ⟨h₁, j₁, .module .require, this, args⟩ ∧
      (j.turnTo (.script script)).moduleEvent? h = Loading.event? owner q j.seat h₁ ∧
      (j.turnTo (.script script)).step h =
        j₁.act h₁ (Loading.require owner q) fun h reply => j₁.answer h reply := by
  intro h₁ j₁
  have hv : (j.turnTo (.script script)).invocation? h =
      some ⟨h₁, j₁, .module .require, this, args⟩ := by
    simp only [invocation?, turnTo, hs]
    rfl
  refine ⟨hv, ?_, ?_⟩
  · rw [moduleEvent?_of_script (by rfl), hv]
    change Native.moduleEvent? (.module .require) args j.seat h₁ = _
    have ha₁ : h₁.attached j.seat = some owner := ha
    simp only [Native.moduleEvent?, hq, ha₁]
  · have hstep : (j.turnTo (.script script)).step h =
        j₁.native h₁ (.module .require) this args := by
      simp only [step, turnTo, hs]
      rfl
    exact hstep.trans (act_congr (j := j₁) (invoke_require (h := h₁) hq ha this) _)

end Job

/-! ### Tables -/

/-- The modules that a job is evaluating are those of a runtime, are being evaluated according to
its tables, and are not loaded. -/
def ModuleTable.Waits (t : ModuleTable E.Value) (owner : RuntimeId) (j : Job E) : Prop :=
  ∀ l ∈ j.loadings, l.owner = owner ∧ l.id ∉ t.cached.keys ∧ t.loading.get? l.id = some l.object

namespace ModuleTable

variable {V : Type} {t : ModuleTable V}

theorem mem_seen_beginLoading {id : String} (o : V) {x : String} :
    x ∈ (t.beginLoading id o).seen ↔ x = id ∨ x ∈ t.seen := by
  have hkeys : x ∈ (t.loading.insert id o).keys ↔ x ∈ t.loading.keys ∨ x = id := by
    rw [Table.keys_insert]
    split
    · next hmem => exact ⟨.inl, fun h => h.elim (fun hx => hx) fun hx => hx ▸ hmem⟩
    · rw [List.mem_append, List.mem_singleton]
  rw [seen, seen, List.mem_append, List.mem_append, beginLoading, hkeys]
  tauto

/-- A module whose body has been evaluated is loaded, and it is no more being evaluated. -/
theorem complete_beginLoading {t' : ModuleTable V} {l : Loading V} (hnew : l.id ∉ t.loading.keys)
    (hcached : l.id ∉ t'.cached.keys)
    (hloading : t'.loading = (t.beginLoading l.id l.object).loading) :
    (t'.complete l).loading = t.loading ∧
      (t'.complete l).cached.keys = t'.cached.keys ++ [l.id] := by
  refine ⟨?_, (Table.keys_insert ..).trans (if_neg hcached)⟩
  change t'.loading.erase l.id = t.loading
  rw [hloading]
  exact Table.erase_insert_of_notMem hnew l.object

end ModuleTable

/-! ### Visits -/

namespace Library

variable {T : E.Untrapped seat} {r : Runtime E} {p : Platform} {s₀ : E.State}
  (L : Library T r p s₀)

/-- In its next step the job asks for a module, and if that is on its stack, then it is answered
with the value of the exports of the module object at that moment. -/
def AnswersFromStack (h : Host E) (j : Job E) : Prop :=
  ∀ v q l, j.invocation? h = some v → v.native = .module .require →
    ModuleFunction.question "require" v.args = .ok q → l ∈ j.loadings → L.target? q = some l.id →
      ∃ x s, E.getProperty seat l.object "exports" v.host.engines = (.ok x, s) ∧
        (j.step h).2.focus = .result (.ok x)

theorem answersFromStack_of_none (h : Host E) (j : Job E) (hv : j.invocation? h = none) :
    L.AnswersFromStack h j :=
  fun _ _ _ hv' => nomatch hv.symm.trans hv'

/-- The number of ids of the library that have not been seen. -/
def unseen (t : ModuleTable E.Value) : Nat := (L.ids.toFinset \ t.seen.toFinset).card

/-- A host after a visit of some targets, with what has become of modules: nothing is being
evaluated but what was before, and what has been left is loaded, in the order of leaving. -/
structure Visits (owner : RuntimeId) (h : Host E) (t : ModuleTable E.Value) (targets : List String)
    (es : List (ModuleEvent E.Value)) (h' : Host E) (t' : ModuleTable E.Value) : Prop where
  stands : L.Stands owner h' t'
  since : T.Since h.engines h'.engines
  loading : t'.loading = t.loading
  visit : ∃ pre post, Visit L.next t.seen targets pre post ∧
    t'.cached.keys = t.cached.keys ++ post ∧
    (begun es).map Loading.key = pre.map (Prod.mk owner) ∧
    (completed es).map Loading.key = post.map (Prod.mk owner)

variable {L}

theorem unseen_mono {t t' : ModuleTable E.Value} (h : ∀ x ∈ t.seen, x ∈ t'.seen) :
    L.unseen t' ≤ L.unseen t :=
  Finset.card_le_card (Finset.sdiff_subset_sdiff (Finset.Subset.refl _) fun x hx =>
    List.mem_toFinset.2 (h x (List.mem_toFinset.1 hx)))

theorem unseen_beginLoading {t : ModuleTable E.Value} {id : String} (hid : id ∈ L.ids)
    (hnew : id ∉ t.seen) (o : E.Value) : L.unseen (t.beginLoading id o) < L.unseen t := by
  refine Finset.card_lt_card (Finset.ssubset_iff_of_subset ?_ |>.2 ⟨id, ?_, ?_⟩)
  · refine Finset.sdiff_subset_sdiff (Finset.Subset.refl _) fun x hx => ?_
    exact List.mem_toFinset.2
      ((ModuleTable.mem_seen_beginLoading o).2 (.inr (List.mem_toFinset.1 hx)))
  · simp [hid, hnew]
  · simp [ModuleTable.mem_seen_beginLoading]

namespace Visits

variable {owner : RuntimeId} {h h₁ h₂ h' : Host E} {t t₁ t' : ModuleTable E.Value}
  {targets targets' : List String} {es es' : List (ModuleEvent E.Value)} {x : String}

/-- There is nothing to visit. -/
theorem nil (H : L.Stands owner h' t) (hs : T.Since h.engines h'.engines) :
    L.Visits owner h t [] [] h' t :=
  ⟨H, hs, rfl, [], [], .nil, (List.append_nil _).symm, rfl, rfl⟩

/-- What has been seen is passed over. -/
theorem skip (H : L.Stands owner h' t) (hs : T.Since h.engines h'.engines) (hx : x ∈ t.seen) :
    L.Visits owner h t [x] [] h' t :=
  ⟨H, hs, rfl, [], [], .skip hx .nil, (List.append_nil _).symm, rfl, rfl⟩

theorem of_since (H : L.Visits owner h₁ t targets es h' t') (hs : T.Since h.engines h₁.engines) :
    L.Visits owner h t targets es h' t' :=
  ⟨H.stands, T.trans hs H.since, H.loading, H.visit⟩

theorem seen_mono (H : L.Visits owner h t targets es h' t') : ∀ x ∈ t.seen, x ∈ t'.seen := by
  obtain ⟨pre, post, -, hcached, -⟩ := H.visit
  intro x hx
  rw [ModuleTable.seen, hcached, H.loading]
  rcases List.mem_append.1 hx with hx | hx
  · exact List.mem_append_left _ (List.mem_append_left _ hx)
  · exact List.mem_append_right _ hx

/-- What a job is evaluating is not loaded by a visit. -/
theorem waits (H : L.Visits owner h t targets es h' t') {j : Job E} (hj : t.Waits owner j) :
    t'.Waits owner j := by
  obtain ⟨pre, post, hvisit, hcached, -⟩ := H.visit
  intro l hl
  obtain ⟨howner, hnew, hloading⟩ := hj l hl
  refine ⟨howner, ?_, H.loading ▸ hloading⟩
  rw [hcached, List.mem_append]
  rintro (hmem | hmem)
  · exact hnew hmem
  · exact hvisit.not_mem_seen _ (hvisit.perm.mem_iff.1 hmem)
      (List.mem_append_right _ (Table.mem_keys_of_get? hloading))

/-- One visit after another. -/
theorem append (H : L.Visits owner h t targets es h₁ t₁)
    (H' : L.Visits owner h₁ t₁ targets' es' h' t') :
    L.Visits owner h t (targets ++ targets') (es ++ es') h' t' := by
  obtain ⟨pre, post, hvisit, hcached, hbegun, hcompleted⟩ := H.visit
  obtain ⟨pre', post', hvisit', hcached', hbegun', hcompleted'⟩ := H'.visit
  refine ⟨H'.stands, T.trans H.since H'.since, H'.loading.trans H.loading, pre ++ pre',
    post ++ post', hvisit.append (hvisit'.congr fun x => ?_), ?_, ?_, ?_⟩
  · rw [ModuleTable.seen, ModuleTable.seen, hcached, H.loading]
    simp only [List.mem_append, hvisit.perm.mem_iff]
    tauto
  · rw [hcached', hcached, List.append_assoc]
  · rw [begun_append, List.map_append, hbegun, hbegun', List.map_append]
  · rw [completed_append, List.map_append, hcompleted, hcompleted', List.map_append]

/-- A module that has not been seen is entered and left, with a visit of its targets in between. -/
theorem enter {l : Loading E.Value} (hnew : x ∉ t.seen) (hkey : l.key = (owner, x))
    (hs : T.Since h.engines h₁.engines)
    (H : L.Visits owner h₁ (t.beginLoading x l.object) (L.next x) es h₂ t₁)
    (H' : L.Stands owner h' (t₁.complete l)) (hs' : T.Since h₂.engines h'.engines) :
    L.Visits owner h t [x] (.began l :: es ++ [.completed l]) h' (t₁.complete l) := by
  obtain ⟨pre, post, hvisit, hcached, hbegun, hcompleted⟩ := H.visit
  have hid : l.id = x := congrArg Prod.snd hkey
  have hvisit : Visit L.next (x :: t.seen) (L.next x) pre post :=
    hvisit.congr fun y => List.mem_cons.trans (ModuleTable.mem_seen_beginLoading _).symm
  have hpost : x ∉ t₁.cached.keys := by
    rw [hcached, List.mem_append]
    rintro (hmem | hmem)
    · exact hnew (List.mem_append_left _ hmem)
    · exact hvisit.not_mem_seen x (hvisit.perm.mem_iff.1 hmem) (List.mem_cons_self ..)
  obtain ⟨hloading, hkeys⟩ := ModuleTable.complete_beginLoading (l := l)
    (hid ▸ fun hmem => hnew (List.mem_append_right _ hmem)) (hid ▸ hpost) (hid ▸ H.loading)
  have hcached₀ : (t.beginLoading x l.object).cached.keys = t.cached.keys := rfl
  refine ⟨H', T.trans hs (T.trans H.since hs'), hloading, x :: pre, post ++ [x],
    .single hnew hvisit, ?_, ?_, ?_⟩
  · rw [hkeys, hcached, hcached₀, hid, List.append_assoc]
  · have hlist : begun (.began l :: es ++ [.completed l]) = l :: begun es := by
      rw [begun_append]
      exact List.append_nil _
    rw [hlist, List.map_cons, hkey, hbegun, List.map_cons]
  · have hlist : completed (.began l :: es ++ [.completed l]) = completed es ++ [l] := by
      rw [completed_append]
      rfl
    rw [hlist, List.map_append, hcompleted, List.map_append, List.map_singleton, hkey,
      List.map_singleton]

end Visits

/-! ### Evaluations -/

variable (L)

/-- A body of a module is evaluated to its end, as long as no more than so many ids have not been
seen: its script ends with a value, and what its specifiers lead to is visited. -/
def Evaluates (owner : RuntimeId) (n : Nat) : Prop :=
  ∀ {dir specifiers script s}, T.Body dir specifiers script s →
    (∀ specifier ∈ specifiers, L.Resolves ⟨specifier, some dir⟩) →
    ∀ {h : Host E} {t : ModuleTable E.Value} {j : Job E}, L.unseen t ≤ n → L.Stands owner h t →
      T.Since s h.engines → j.seat = seat → t.Waits owner j →
      ∃ v h' t' es, Job.Runs L.AnswersFromStack h (j.turnTo (.script script)) es h'
          (j.turnTo (.result (.ok v))) ∧
        L.Visits owner h t (L.targets dir specifiers) es h' t'

variable {L}

/-- A module whose body has just begun to be evaluated is the innermost one of its job. -/
theorem waits_push {owner : RuntimeId} {t : ModuleTable E.Value} {j : Job E} {l : Loading E.Value}
    (hj : t.Waits owner j) (howner : l.owner = owner) (hnew : l.id ∉ t.seen) (focus : Focus E) :
    (t.beginLoading l.id l.object).Waits owner (j.push (.module l) focus) := by
  intro l' hl'
  rcases List.mem_cons.1 (show l' ∈ l :: j.loadings from hl') with rfl | hl'
  · exact ⟨howner, fun hmem => hnew (List.mem_append_left _ hmem), Table.get?_insert_self ..⟩
  · obtain ⟨howner', hcached, hloading⟩ := hj l' hl'
    refine ⟨howner', hcached, ?_⟩
    rw [ModuleTable.beginLoading, Table.get?_insert, if_neg]
    · exact hloading
    · intro hid
      exact hnew (List.mem_append_right _ (hid ▸ Table.mem_keys_of_get? hloading))

/-- A module that has not been seen is evaluated: its body is evaluated to its end, and then it is
loaded. -/
theorem evaluation_runs {owner : RuntimeId} {n : Nat} (ih : ∀ k < n, L.Evaluates owner k)
    {h h₁ : Host E} {t : ModuleTable E.Value} {j : Job E} {q : Question} {m : ResolvedModule}
    {l : Loading E.Value} {exports : E.Value} (hn : L.unseen t ≤ n) (hseat : j.seat = seat)
    (hj : t.Waits owner j) (hm : L.find q = .ok m) (hkey : l.key = (owner, m.id))
    (hnew : m.id ∉ t.seen) (hs : T.Since h.engines h₁.engines)
    (H : L.Stands owner h₁ (t.beginLoading m.id l.object)) (hobject : T.Object h₁.engines l.object)
    (hexports : T.Object h₁.engines exports) :
    let first := j.answer h₁ (.evaluate l (m.scope l.object exports r.requireFunction))
    ∃ v h' t' es, Job.Runs L.AnswersFromStack first.1 first.2 es h' (j.turnTo (.result (.ok v))) ∧
      L.Visits owner h t [m.id] (.began l :: es) h' t' := by
  intro first
  subst hseat
  obtain ⟨howner, hid⟩ := Prod.mk.inj hkey
  obtain ⟨hs₁, hbody⟩ := L.body hm H.since hobject hexports
  let scope := m.scope l.object exports r.requireFunction
  let body := E.evaluate j.seat scope h₁.engines
  -- The body is evaluated to its end.
  have hwaits : (t.beginLoading m.id l.object).Waits owner (j.push (.module l) j.focus) :=
    hid ▸ waits_push hj howner (hid ▸ hnew) j.focus
  have hlt : L.unseen (t.beginLoading m.id l.object) < n :=
    Nat.lt_of_lt_of_le (unseen_beginLoading (L.mem_ids hm) hnew l.object) hn
  obtain ⟨u, h₂, t₂, es, hruns, hvisits⟩ := ih _ hlt hbody (L.resolves hm) (Nat.le_refl _)
    (H.engines hs₁) (T.refl _) (j := j.push (.module l) j.focus) rfl hwaits
  simp only [Job.push_turnTo] at hruns
  rw [← L.next_eq hm] at hvisits
  -- Then the module is loaded.
  have hcached : m.id ∉ t₂.cached.keys :=
    hid ▸ ((hvisits.waits hwaits) l (List.mem_cons_self ..)).2.1
  obtain ⟨v, h₃, hresume, hevent, H₃, hs₃⟩ := hvisits.stands.resume_module hm hkey hcached
    (T.object (T.trans hs₁ hvisits.since) hobject) (j := j.turnTo (.result (.ok u))) rfl u
  have hlast : Job.Runs L.AnswersFromStack h₂ (j.push (.module l) (.result (.ok u)))
      [.completed l] h₃ (j.turnTo (.result (.ok v))) :=
    .single (o := some (.completed l)) (L.answersFromStack_of_none _ _ rfl) hresume hevent
  exact ⟨v, h₃, t₂.complete l, es ++ [ModuleEvent.completed l], hruns.trans hlast,
    .enter hnew hkey (T.trans hs hs₁) hvisits H₃ hs₃⟩

/-- Loading a module, as long as bodies are evaluated to their ends for which there are fewer ids
that have not been seen. -/
theorem require_runs {owner : RuntimeId} {n : Nat} (ih : ∀ k < n, L.Evaluates owner k) {h : Host E}
    {t : ModuleTable E.Value} {j : Job E} {q : Question} (hn : L.unseen t ≤ n)
    (H : L.Stands owner h t) (hq : L.Resolves q) (hseat : j.seat = seat) (hj : t.Waits owner j) :
    let first := j.act h (Loading.require owner q) fun h reply => j.answer h reply
    ∃ v h' t' es, Job.Runs L.AnswersFromStack first.1 first.2 es h' (j.turnTo (.result (.ok v))) ∧
      L.Visits owner h t (L.target? q).toList ((Loading.event? owner q seat h).toList ++ es)
        h' t' := by
  intro first
  subst hseat
  have hfirst {reply : Reply E} {h₁ : Host E}
      (hrequire : Loading.require owner q j.seat h = (.ok reply, h₁)) :
      first = j.answer h₁ reply := by
    simp only [first, Job.act, hrequire]
  cases htarget : L.target? q with
  | none =>
    obtain ⟨v, hrequire⟩ := H.require_of_native hq htarget
    rw [Loading.event?_of_value (congrArg Prod.fst hrequire), hfirst hrequire]
    exact ⟨v, h, t, [], .refl, .nil H (T.refl _)⟩
  | some id =>
    by_cases hseen : id ∈ t.seen
    · obtain ⟨v, h', hrequire, H', hs, -⟩ := H.require_of_seen hq htarget hseen
      rw [Loading.event?_of_value (congrArg Prod.fst hrequire), hfirst hrequire]
      exact ⟨v, h', t, [], .refl, .skip H' hs hseen⟩
    · obtain ⟨m, l, exports, h₁, hm, rfl, hkey, hrequire, hevent, H₁, hs₁, hobject, hexports⟩ :=
        H.require_of_new hq htarget hseen
      rw [hevent, hfirst hrequire]
      exact evaluation_runs ih hn rfl hj hm hkey hseen hs₁ H₁ hobject hexports

/-- A script that asks for a module on the stack has what that exports at the moment. -/
theorem answersFromStack_of_requires {owner : RuntimeId} {h h₁ : Host E} {j j₁ : Job E}
    {t : ModuleTable E.Value} {this : E.Value} {args : List E.Value} {q : Question}
    (hseat : j₁.seat = seat)
    (hv : j.invocation? h = some ⟨h₁, j₁, .module .require, this, args⟩)
    (hargs : ModuleFunction.question "require" args = .ok q)
    (hstep : j.step h = j₁.act h₁ (Loading.require owner q) fun h reply => j₁.answer h reply)
    (H : L.Stands owner h₁ t) (hq : L.Resolves q) (hj : t.Waits owner j) :
    L.AnswersFromStack h j := by
  intro v q' l hv' _ hargs' hl htarget
  obtain rfl := Option.some.inj (hv.symm.trans hv')
  obtain rfl := Except.ok.inj (hargs.symm.trans hargs')
  subst hseat
  obtain ⟨-, hnew, hloading⟩ := hj l hl
  obtain ⟨x, h', hrequire, -, -, hexports⟩ := H.require_of_seen hq htarget
    (List.mem_append_right _ (Table.mem_keys_of_get? hloading))
  obtain ⟨o, s, ho, hx⟩ := hexports hnew
  obtain rfl := Option.some.inj (hloading.symm.trans ho)
  refine ⟨x, s, hx, ?_⟩
  simp only [hstep, Job.act, hrequire, Job.answer]
  rfl

/-- A script that asks for a module goes on once that is loaded. -/
theorem script_runs {owner : RuntimeId} {n : Nat} (ih : ∀ k < n, L.Evaluates owner k) {h : Host E}
    {t : ModuleTable E.Value} {j : Job E} {q : Question} {script script' : E.Script} {s : E.State}
    {this : E.Value} {args : List E.Value} (hn : L.unseen t ≤ n) (H : L.Stands owner h t)
    (hs : T.Since h.engines s) (hseat : j.seat = seat) (hj : t.Waits owner j)
    (hnative : E.step seat script h.engines = (.native (.module .require) this args script', s))
    (hargs : ModuleFunction.question "require" args = .ok q) (hq : L.Resolves q) :
    ∃ v h' t' es, Job.Runs L.AnswersFromStack h (j.turnTo (.script script)) es h'
        (j.turnTo (.script (E.resume script' (.ok v)))) ∧
      L.Visits owner h t (L.target? q).toList es h' t' ∧ T.Since s h'.engines := by
  subst hseat
  have H₁ := H.engines hs
  obtain ⟨hv, hevent, hstep⟩ := Job.script_requires hnative hargs H.attached
  obtain ⟨v, h', t', es, hruns, hvisits⟩ :=
    require_runs ih hn H₁ hq (j := j.push (.script script') (.script script)) rfl hj
  have hanswers : L.AnswersFromStack h (j.turnTo (.script script)) :=
    answersFromStack_of_requires (by rfl) hv hargs hstep H₁ hq hj
  have hcall := Job.Runs.step hanswers (hstep ▸ hruns)
  rw [hevent, Job.push_turnTo] at hcall
  refine ⟨v, h', t', _, ?_, hvisits.of_since hs, hvisits.since⟩
  have hruns := hcall.trans (.of_resume L.answersFromStack_of_none v)
  rwa [List.append_nil] at hruns

theorem targets_cons (dir specifier : String) (specifiers : List String) :
    L.targets dir (specifier :: specifiers) =
      (L.target? ⟨specifier, some dir⟩).toList ++ L.targets dir specifiers := by
  rw [targets, List.filterMap_cons]
  cases L.target? ⟨specifier, some dir⟩ <;> rfl

variable (L)

/-- Every body is evaluated to its end. -/
theorem evaluates (owner : RuntimeId) (n : Nat) : L.Evaluates owner n := by
  induction n using Nat.strong_induction_on with
  | h n ih =>
    intro dir specifiers script s H hresolves
    induction H with
    | returns hstep =>
      intro h t j _ hstands hs hseat _
      subst hseat
      obtain ⟨v, s', hreturned, hs'⟩ := hstep h.engines hs
      exact ⟨v, _, t, [], .of_returned L.answersFromStack_of_none hreturned,
        .nil (hstands.engines hs') hs'⟩
    | runs next hstep _ ihnext =>
      intro h t j hn hstands hs hseat hj
      obtain ⟨hrunning, hs'⟩ := hstep h.engines hs
      obtain ⟨v, h', t', es, hruns, hvisits⟩ :=
        ihnext h.engines hs hresolves hn (hstands.engines hs') (T.refl _) hseat hj
      subst hseat
      exact ⟨v, h', t', es, (Job.Runs.of_running L.answersFromStack_of_none hrunning).trans hruns,
        hvisits.of_since hs'⟩
    | @loads specifier specifiers script s₀ this args rest hstep _ ihrest =>
      intro h t j hn hstands hs hseat hj
      obtain ⟨hnative, hargs, hs'⟩ := hstep h.engines hs
      obtain ⟨v, h₁, t₁, es₁, hruns₁, hvisits₁, hs₁⟩ := script_runs ih hn hstands hs' hseat hj
        hnative hargs (hresolves specifier (List.mem_cons_self ..))
      obtain ⟨u, h₂, t₂, es₂, hruns₂, hvisits₂⟩ := ihrest h.engines v h₁.engines hs hs₁
        (fun x hx => hresolves x (List.mem_cons_of_mem _ hx))
        (Nat.le_trans (unseen_mono hvisits₁.seen_mono) hn) hvisits₁.stands (T.refl _) hseat
        (hvisits₁.waits hj)
      rw [targets_cons]
      exact ⟨u, h₂, t₂, es₁ ++ es₂, hruns₁.trans hruns₂, hvisits₁.append hvisits₂⟩

end Library

end ScriptHost
