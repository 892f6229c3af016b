import ScriptHost.Proofs.Host.WorldDesks
import ScriptHost.Proofs.Module.Evaluations
import Mathlib.Data.List.Nodup

/-!
# The history of modules

The modules of a world are those whose bodies are being evaluated, by whichever job, and those whose
evaluation has been completed. Each belongs to a runtime and has an id, and no two of them have both
in common. The tables of a runtime that is there say the same: its table of evaluations in progress
holds its modules of the first kind, its table of loaded modules those of the second.

## Main definitions

* `World.loadings`, `World.completion`: the modules being evaluated, and the one that a move
  completes.
* `World.moduleEvent?`, `World.moduleEvents`: what becomes of a module by a move.
* `World.Evaluates`: a job does something with evaluations, and the others do not.
* `ModuleTable.Holds`: what the tables of a runtime say.
* `World.ModulesAgree`: what holds of a world and of the evaluations completed so far.

## Main results

* `World.ModulesAgree.perform`: every move keeps agreement.
-/

namespace ScriptHost

variable {E : Engine} {V : Type}

/-- A module as it is entered when its evaluation is complete. -/
def Loading.entry (l : Loading V) : CachedModule V := ⟨l.object, l.filename⟩

/-! ### Tables -/

namespace Table

variable {α : Type}

/-- The entries of a table are those of the modules of a runtime in a list. -/
def Lists (t : Table String α) (id : RuntimeId) (f : Loading V → α) (ls : List (Loading V)) :
    Prop :=
  ∀ s a, t.get? s = some a ↔ ∃ l ∈ ls, l.key = (id, s) ∧ f l = a

variable {t : Table String α} {id : RuntimeId} {f : Loading V → α} {ls ls' : List (Loading V)}
  {l : Loading V}

theorem lists_empty (h : ∀ l ∈ ls, l.owner ≠ id) : (empty : Table String α).Lists id f ls := by
  refine fun s a => ⟨nofun, fun ⟨l, hl, hkey, _⟩ => ?_⟩
  exact absurd (congrArg Prod.fst hkey) (h l hl)

/-- Lists with the same modules of the runtime. -/
theorem Lists.congr (H : t.Lists id f ls) (h : ∀ l, l.owner = id → (l ∈ ls' ↔ l ∈ ls)) :
    t.Lists id f ls' := by
  intro s a
  rw [H s a]
  exact exists_congr fun l => and_congr_left fun hl => (h l (congrArg Prod.fst hl.1)).symm

theorem Lists.key_ne (H : t.Lists l.owner f ls) (hl : t.get? l.id = none) :
    ∀ l' ∈ ls, l'.key ≠ l.key := by
  intro l' hl' hkey
  have hget := (H l.id (f l')).2 ⟨l', hl', hkey, rfl⟩
  rw [hl] at hget
  cases hget

/-- One more module. -/
theorem Lists.insert (H : t.Lists l.owner f ls) (hmem : ∀ l', l' ∈ ls' ↔ l' = l ∨ l' ∈ ls)
    (hne : ∀ l' ∈ ls, l'.key ≠ l.key) : (t.insert l.id (f l)).Lists l.owner f ls' := by
  intro s a
  rw [get?_insert]
  by_cases hs : s = l.id
  · subst hs
    rw [if_pos rfl]
    constructor
    · intro ha
      exact ⟨l, (hmem l).2 (.inl rfl), rfl, Option.some.inj ha⟩
    · rintro ⟨l', hl', hkey, rfl⟩
      rcases (hmem l').1 hl' with rfl | hl'
      · rfl
      · exact absurd hkey (hne l' hl')
  · rw [if_neg hs, H s a]
    refine exists_congr fun l' => and_congr_left fun hl' => ?_
    rw [hmem, or_iff_right]
    rintro rfl
    exact hs (congrArg Prod.snd hl'.1).symm

/-- One module less. -/
theorem Lists.erase (H : t.Lists l.owner f ls) (hmem : ∀ l', l' ∈ ls ↔ l' = l ∨ l' ∈ ls')
    (hne : ∀ l' ∈ ls', l'.key ≠ l.key) : (t.erase l.id).Lists l.owner f ls' := by
  intro s a
  rw [get?_erase]
  by_cases hs : s = l.id
  · subst hs
    rw [if_pos rfl]
    exact ⟨nofun, fun ⟨l', hl', hkey, _⟩ => absurd hkey (hne l' hl')⟩
  · rw [if_neg hs, H s a]
    refine exists_congr fun l' => and_congr_left fun hl' => ?_
    rw [hmem, or_iff_right]
    rintro rfl
    exact hs (congrArg Prod.snd hl'.1).symm

end Table

namespace ModuleTable

/-- The tables of a runtime hold its modules that are being evaluated and those that are done. -/
structure Holds (t : ModuleTable V) (id : RuntimeId) (ls done : List (Loading V)) : Prop where
  nodup : t.loading.keys.Nodup
  loading : t.loading.Lists id Loading.object ls
  cached : t.cached.Lists id Loading.entry done

variable {t : ModuleTable V} {id : RuntimeId} {ls ls' done done' : List (Loading V)} {l : Loading V}

theorem holds_of_empty (hl : t.loading = .empty) (hc : t.cached = .empty)
    (h : ∀ l ∈ ls ++ done, l.owner ≠ id) : t.Holds id ls done where
  nodup := by rw [hl]; exact .nil
  loading := by rw [hl]; exact Table.lists_empty fun l hl => h l (List.mem_append_left _ hl)
  cached := by rw [hc]; exact Table.lists_empty fun l hl => h l (List.mem_append_right _ hl)

theorem Holds.congr (H : t.Holds id ls done) (hl : ∀ l, l.owner = id → (l ∈ ls' ↔ l ∈ ls))
    (hd : ∀ l, l.owner = id → (l ∈ done' ↔ l ∈ done)) : t.Holds id ls' done' :=
  ⟨H.nodup, H.loading.congr hl, H.cached.congr hd⟩

/-- The evaluation of a body begins. -/
theorem Holds.begin (H : t.Holds l.owner ls done) (hls : ls'.Perm (l :: ls))
    (hnew : t.loading.get? l.id = none) :
    (t.beginLoading l.id l.object).Holds l.owner ls' done where
  nodup := Table.nodup_keys_insert H.nodup ..
  loading := H.loading.insert (fun _ => hls.mem_iff.trans List.mem_cons) (H.loading.key_ne hnew)
  cached := H.cached

/-- The evaluation of a body ends. -/
theorem Holds.finish (H : t.Holds l.owner ls done) (hls : ls.Perm (l :: ls'))
    (hne : ∀ l' ∈ ls', l'.key ≠ l.key) : (t.finishLoading l.id).Holds l.owner ls' done where
  nodup := Table.nodup_keys_erase H.nodup _
  loading := H.loading.erase (fun _ => hls.mem_iff.trans List.mem_cons) hne
  cached := H.cached

/-- An evaluation is complete. -/
theorem Holds.complete (H : t.Holds l.owner ls done) (hls : ls.Perm (l :: ls'))
    (hne : ∀ l' ∈ ls', l'.key ≠ l.key) (hnew : t.cached.get? l.id = none) :
    (t.complete l).Holds l.owner ls' (done ++ [l]) where
  nodup := (H.finish hls hne).nodup
  loading := (H.finish hls hne).loading
  cached := H.cached.insert (fun l' => by simp [or_comm]) (H.cached.key_ne hnew)

end ModuleTable

/-! ### Worlds -/

namespace World

/-- The modules whose bodies are being evaluated. -/
def loadings (w : World E) : List (Loading E.Value) := w.jobs.flatMap Job.loadings

/-- The evaluation that a move completes. -/
def completion (w : World E) : Move E → Option (Loading E.Value)
  | .step i => w.jobs[i]?.bind (Job.completes? w.host)
  | _ => none

/-- What becomes of a module by a move. -/
def moduleEvent? (w : World E) : Move E → Option (ModuleEvent E.Value)
  | .start errand => errand.moduleEvent? w.host
  | .step i => w.jobs[i]?.bind (Job.moduleEvent? w.host)
  | _ => none

/-- What becomes of modules by a move. -/
def moduleEvents (w : World E) (m : Move E) : List (ModuleEvent E.Value) :=
  (w.moduleEvent? m).toList

/-- The evaluation that a move completes is that of the event. -/
theorem completion_eq (w : World E) (m : Move E) :
    w.completion m = (w.moduleEvent? m).bind ModuleEvent.completed? := by
  cases m with
  | step i =>
    rw [completion, moduleEvent?]
    cases w.jobs[i]? with
    | none => rfl
    | some j => exact j.completes?_eq w.host
  | start errand => exact (errand.moduleEvent?_completed w.host).symm
  | _ => rfl

/-- A job has done something with evaluations, and the modules of the others have stayed. -/
inductive Evaluates (w w' : World E) (o : Option (ModuleEvent E.Value)) : Prop
  | job {j : Job E} {p : Host E × Job E} (rest : List (Loading E.Value))
      (he : Job.Evaluates w.host j p o) (hhost : w'.host = p.1)
      (hnext : w'.host.nextRuntime = w.host.nextRuntime)
      (hjobs : ∀ j' ∈ w'.jobs, j' ∈ w.jobs ∨ j' = p.2)
      (hls : w.loadings.Perm (j.loadings ++ rest))
      (hls' : w'.loadings.Perm (p.2.loadings ++ rest)) : Evaluates w w' o

theorem start_evaluates (w : World E) (errand : Errand E) :
    w.Evaluates (w.perform (.start errand)) (w.moduleEvent? (.start errand)) := by
  obtain ⟨j, hj, he⟩ := errand.begin_evaluates w.host
  refine .job w.loadings he rfl (errand.begin_does w.host).nextRuntime_eq ?_ ?_ ?_
  · intro j' hj'
    rcases List.mem_append.1 hj' with hj' | hj'
    · exact .inl hj'
    · exact .inr (List.mem_singleton.1 hj')
  · rw [hj]
    exact .refl _
  · change (List.flatMap Job.loadings (w.jobs ++ [_])).Perm _
    rw [List.flatMap_append, List.flatMap_singleton]
    exact List.perm_append_comm

theorem step_evaluates {w : World E} {i : Nat} {j : Job E} (hj : w.jobs[i]? = some j)
    (hu : j.Unbroken) : w.Evaluates (w.perform (.step i)) (w.moduleEvent? (.step i)) := by
  have hw : w.perform (.step i) = ⟨(j.step w.host).1, w.jobs.set i (j.step w.host).2⟩ := by
    simp only [perform, hj]
  have he : w.moduleEvent? (.step i) = j.moduleEvent? w.host := by
    simp only [moduleEvent?, hj, Option.bind_some]
  obtain ⟨hlt, rfl⟩ := List.getElem?_eq_some_iff.1 hj
  have hjobs : w.jobs = w.jobs.take i ++ w.jobs[i] :: w.jobs.drop (i + 1) := by
    rw [List.getElem_cons_drop, List.take_append_drop]
  have hset : w.jobs.set i (w.jobs[i].step w.host).2 =
      w.jobs.take i ++ (w.jobs[i].step w.host).2 :: w.jobs.drop (i + 1) := by
    rw [List.set_eq_take_append_cons_drop, if_pos hlt]
  rw [hw, he]
  refine .job ((w.jobs.take i ++ w.jobs.drop (i + 1)).flatMap Job.loadings)
    (w.jobs[i].step_evaluates w.host hu) rfl (w.jobs[i].step_does w.host).nextRuntime_eq
    (fun j' hj' => List.mem_or_eq_of_mem_set hj') ?_ ?_
  · exact (List.Perm.of_eq (congrArg (List.flatMap Job.loadings) hjobs)).trans
      (List.perm_middle.flatMap_right _)
  · rw [loadings, hset]
    exact List.perm_middle.flatMap_right _

/-- What holds of a world and of the evaluations completed so far. -/
structure ModulesAgree (done : List (Loading E.Value)) (w : World E) : Prop where
  unbroken : ∀ j ∈ w.jobs, j.Unbroken
  nodup : ((w.loadings ++ done).map Loading.key).Nodup
  owner_lt : ∀ l ∈ w.loadings ++ done, l.owner.val < w.host.nextRuntime
  lives : ∀ id t, w.host.modules? id = some t → id.val < w.host.nextRuntime
  holds : ∀ id t, w.host.modules? id = some t → t.Holds id w.loadings done

namespace ModulesAgree

variable {done : List (Loading E.Value)} {w w' : World E}

/-- The host has changed, and no job has. -/
theorem of_host (H : w.ModulesAgree done) (hjobs : w'.jobs = w.jobs)
    (hnext : w.host.nextRuntime ≤ w'.host.nextRuntime)
    (hmodules : ∀ id t, w'.host.modules? id = some t →
      (∃ t₀, w.host.modules? id = some t₀ ∧ t.loading = t₀.loading ∧ t.cached = t₀.cached) ∨
        id = ⟨w.host.nextRuntime⟩ ∧ w.host.nextRuntime < w'.host.nextRuntime ∧
          t.loading = .empty ∧ t.cached = .empty) :
    w'.ModulesAgree done := by
  have hls : w'.loadings = w.loadings := congrArg (List.flatMap Job.loadings) hjobs
  refine ⟨hjobs ▸ H.unbroken, hls ▸ H.nodup,
    fun l hl => Nat.lt_of_lt_of_le (H.owner_lt l (hls ▸ hl)) hnext, fun id t ht => ?_,
    fun id t ht => ?_⟩
  · rcases hmodules id t ht with ⟨t₀, ht₀, -⟩ | ⟨rfl, hlt, -⟩
    · exact Nat.lt_of_lt_of_le (H.lives id t₀ ht₀) hnext
    · exact hlt
  · rw [hls]
    rcases hmodules id t ht with ⟨t₀, ht₀, hl, hc⟩ | ⟨rfl, -, hl, hc⟩
    · have h₀ := H.holds id t₀ ht₀
      exact ⟨hl ▸ h₀.nodup, hl ▸ h₀.loading, hc ▸ h₀.cached⟩
    · refine ModuleTable.holds_of_empty hl hc fun l hmem ho => ?_
      have hlt := H.owner_lt l hmem
      rw [ho] at hlt
      exact Nat.lt_irrefl _ hlt

/-- Neither the tables have changed nor the modules that are being evaluated. -/
theorem of_perm (H : w.ModulesAgree done) (hm : w.host.SameModules w'.host)
    (hnext : w'.host.nextRuntime = w.host.nextRuntime) (hu : ∀ j ∈ w'.jobs, j.Unbroken)
    (hls : w'.loadings.Perm w.loadings) : w'.ModulesAgree done := by
  have hperm := hls.append_right done
  refine ⟨hu, (hperm.map _).nodup_iff.2 H.nodup, fun l hl => ?_, fun id t ht => ?_,
    fun id t ht => ?_⟩
  · rw [hnext]
    exact H.owner_lt l (hperm.mem_iff.1 hl)
  · rw [hnext]
    exact H.lives id t (hm id ▸ ht)
  · exact (H.holds id t (hm id ▸ ht)).congr (fun _ _ => hls.mem_iff) fun _ _ => Iff.rfl

/-- The tables of one runtime have changed, and with them the modules of that runtime. -/
theorem of_changes (H : w.ModulesAgree done) {owner : RuntimeId}
    {f : ModuleTable E.Value → ModuleTable E.Value} {done' : List (Loading E.Value)}
    (hm : w.host.ChangesModules owner f w'.host)
    (hnext : w'.host.nextRuntime = w.host.nextRuntime) (hu : ∀ j ∈ w'.jobs, j.Unbroken)
    (hnodup : ((w'.loadings ++ done').map Loading.key).Nodup)
    (howner : ∀ l ∈ w'.loadings ++ done', l ∈ w.loadings ++ done ∨
      l.owner.val < w.host.nextRuntime)
    (hother : ∀ l, l.owner ≠ owner →
      (l ∈ w'.loadings ↔ l ∈ w.loadings) ∧ (l ∈ done' ↔ l ∈ done))
    (hholds : ∀ t, w.host.modules? owner = some t → (f t).Holds owner w'.loadings done') :
    w'.ModulesAgree done' := by
  refine ⟨hu, hnodup, fun l hl => ?_, fun id t ht => ?_, fun id t ht => ?_⟩
  · rw [hnext]
    exact (howner l hl).elim (H.owner_lt l) fun hlt => hlt
  · rw [hnext]
    rw [hm id] at ht
    split at ht
    · obtain ⟨t₀, ht₀, -⟩ := Option.map_eq_some_iff.1 ht
      exact H.lives id t₀ ht₀
    · exact H.lives id t ht
  · rw [hm id] at ht
    split at ht
    · next hid =>
      subst hid
      obtain ⟨t₀, ht₀, rfl⟩ := Option.map_eq_some_iff.1 ht
      exact hholds t₀ ht₀
    · next hid =>
      refine (H.holds id t ht).congr (fun l hl => ?_) fun l hl => ?_
      · exact (hother l (hl ▸ hid)).1
      · exact (hother l (hl ▸ hid)).2

theorem key_ne (H : w.ModulesAgree done) {l l' : Loading E.Value} (hl : l ∈ w.loadings)
    (hl' : l' ∈ done) : l.key ≠ l'.key := by
  have hnodup := H.nodup
  rw [List.map_append] at hnodup
  exact (List.nodup_append.1 hnodup).2.2 _ (List.mem_map_of_mem hl) _ (List.mem_map_of_mem hl')

theorem begin (H : w.ModulesAgree done) {l : Loading E.Value} {t : ModuleTable E.Value}
    (hm : w.host.ChangesModules l.owner (fun t => t.beginLoading l.id l.object) w'.host)
    (hnext : w'.host.nextRuntime = w.host.nextRuntime) (hu : ∀ j ∈ w'.jobs, j.Unbroken)
    (ht : w.host.modules? l.owner = some t) (hcached : t.cached.get? l.id = none)
    (hloading : t.loading.get? l.id = none) (hls : w'.loadings.Perm (l :: w.loadings)) :
    w'.ModulesAgree done := by
  have hholds := H.holds _ t ht
  have hnew : l.key ∉ (w.loadings ++ done).map Loading.key := by
    intro hmem
    obtain ⟨l', hl', hkey⟩ := List.mem_map.1 hmem
    rcases List.mem_append.1 hl' with hl' | hl'
    · exact hholds.loading.key_ne hloading l' hl' hkey
    · exact hholds.cached.key_ne hcached l' hl' hkey
  have hperm : (w'.loadings ++ done).Perm (l :: (w.loadings ++ done)) := hls.append_right done
  refine H.of_changes hm hnext hu ?_ (fun l' hl' => ?_) (fun l' hl' => ⟨?_, Iff.rfl⟩)
    fun t' ht' => ?_
  · exact (hperm.map _).nodup_iff.2 (List.nodup_cons.2 ⟨hnew, H.nodup⟩)
  · rcases List.mem_cons.1 (hperm.mem_iff.1 hl') with rfl | hl'
    · exact .inr (H.lives _ t ht)
    · exact .inl hl'
  · rw [hls.mem_iff, List.mem_cons, or_iff_right]
    rintro rfl
    exact hl' rfl
  · obtain rfl := Option.some.inj (ht.symm.trans ht')
    exact hholds.begin hls hloading

/-- The modules that remain when one is not evaluated any more have other keys. -/
theorem nodup_of_ended (H : w.ModulesAgree done) {l : Loading E.Value}
    (hls : w.loadings.Perm (l :: w'.loadings)) :
    ((l :: (w'.loadings ++ done)).map Loading.key).Nodup :=
  ((hls.append_right done).map _).nodup_iff.1 H.nodup

theorem fail (H : w.ModulesAgree done) {l : Loading E.Value}
    (hm : w.host.ChangesModules l.owner (fun t => t.finishLoading l.id) w'.host)
    (hnext : w'.host.nextRuntime = w.host.nextRuntime) (hu : ∀ j ∈ w'.jobs, j.Unbroken)
    (hls : w.loadings.Perm (l :: w'.loadings)) : w'.ModulesAgree done := by
  obtain ⟨hnew, hnodup⟩ := List.nodup_cons.1 (H.nodup_of_ended hls)
  refine H.of_changes hm hnext hu hnodup (fun l' hl' => .inl ?_) (fun l' hl' => ⟨?_, Iff.rfl⟩)
    fun t ht => (H.holds _ t ht).finish hls fun l' hl' hkey => ?_
  · exact (hls.append_right done).mem_iff.2 (List.mem_cons_of_mem l hl')
  · rw [hls.mem_iff, List.mem_cons, or_iff_right]
    rintro rfl
    exact hl' rfl
  · exact hnew (hkey ▸ List.mem_map_of_mem (List.mem_append_left _ hl'))

/-- Whether it is being evaluated or is loaded, a module is there. -/
theorem perm_of_completed {l : Loading E.Value} (hls : w.loadings.Perm (l :: w'.loadings)) :
    (w'.loadings ++ (done ++ [l])).Perm (w.loadings ++ done) := by
  rw [← List.append_assoc]
  exact (List.perm_append_singleton l _).trans (hls.append_right done).symm

theorem complete (H : w.ModulesAgree done) {l : Loading E.Value}
    (hm : w.host.ChangesModules l.owner (fun t => t.complete l) w'.host)
    (hnext : w'.host.nextRuntime = w.host.nextRuntime) (hu : ∀ j ∈ w'.jobs, j.Unbroken)
    (hnew : ∀ t, w.host.modules? l.owner = some t → t.cached.get? l.id = none)
    (hls : w.loadings.Perm (l :: w'.loadings)) : w'.ModulesAgree (done ++ [l]) := by
  have hperm : (w'.loadings ++ (done ++ [l])).Perm (w.loadings ++ done) := perm_of_completed hls
  obtain ⟨hne, -⟩ := List.nodup_cons.1 (H.nodup_of_ended hls)
  refine H.of_changes hm hnext hu ((hperm.map _).nodup_iff.2 H.nodup)
    (fun l' hl' => .inl (hperm.mem_iff.1 hl')) (fun l' hl' => ⟨?_, ?_⟩)
    fun t ht => (H.holds _ t ht).complete hls (fun l' hl' hkey => ?_) (hnew t ht)
  · rw [hls.mem_iff, List.mem_cons, or_iff_right]
    rintro rfl
    exact hl' rfl
  · rw [List.mem_append, List.mem_singleton, or_iff_left]
    rintro rfl
    exact hl' rfl
  · exact hne (hkey ▸ List.mem_map_of_mem (List.mem_append_left _ hl'))

/-- What a job does with evaluations keeps agreement. -/
theorem of_evaluates (H : w.ModulesAgree done) {o : Option (ModuleEvent E.Value)}
    (he : w.Evaluates w' o) :
    w'.ModulesAgree (done ++ (o.bind ModuleEvent.completed?).toList) := by
  obtain @⟨j, p, rest, he, hhost, hnext, hjobs, hls, hls'⟩ := he
  have hu (hp : p.2.Unbroken) : ∀ j' ∈ w'.jobs, j'.Unbroken := by
    intro j' hj'
    rcases hjobs j' hj' with hj' | rfl
    · exact H.unbroken j' hj'
    · exact hp
  cases he with
  | idle hm hl hp ho =>
    rw [hl] at hls'
    rw [ho.completed?, Option.toList_none, List.append_nil]
    exact H.of_perm (hhost ▸ hm) hnext (hu hp) (hls'.trans hls.symm)
  | @begins l t ht hcached hloading hm hl hp =>
    rw [hl] at hls'
    have H' := H.begin (hhost ▸ hm) hnext (hu hp) ht hcached hloading (hls'.trans (hls.symm.cons l))
    exact (List.append_nil done).symm ▸ H'
  | @fails l hm hl hp =>
    rw [hl] at hls
    have H' := H.fail (hhost ▸ hm) hnext (hu hp) (hls.trans (hls'.symm.cons l))
    exact (List.append_nil done).symm ▸ H'
  | @completes l hnew hm hl hp =>
    rw [hl] at hls
    exact H.complete (hhost ▸ hm) hnext (hu hp) hnew (hls.trans (hls'.symm.cons l))
  | @breaks l t ht hcached hl =>
    -- The module would be among those that are complete, and among those being evaluated.
    rw [hl] at hls
    obtain ⟨c, hc⟩ := Option.ne_none_iff_exists'.1 hcached
    obtain ⟨l', hl', hkey, -⟩ := ((H.holds _ t ht).cached l.id c).1 hc
    exact absurd hkey.symm (H.key_ne (hls.mem_iff.2 (List.mem_cons_self ..)) hl')

/-! ### Moves -/

theorem initial (engines : E.State) (platform : Platform) (profiles : Seat → Profile) :
    ModulesAgree [] (World.initial engines platform profiles) where
  unbroken := by rintro _ ⟨⟩
  nodup := .nil
  owner_lt := by rintro _ ⟨⟩
  lives := by rintro _ _ ⟨⟩
  holds := by rintro _ _ ⟨⟩

/-- A host whose runtimes have the same modules, apart from the native ones. -/
theorem of_sameLoads (H : w.ModulesAgree done) (hjobs : w'.jobs = w.jobs)
    (hnext : w.host.nextRuntime ≤ w'.host.nextRuntime) (hm : w.host.SameLoads w'.host) :
    w'.ModulesAgree done :=
  H.of_host hjobs hnext fun _ _ ht => .inl (hm.of_some ht)

/-- A runtime is taken away. -/
theorem of_erase (H : w.ModulesAgree done) (hjobs : w'.jobs = w.jobs)
    (hnext : w.host.nextRuntime ≤ w'.host.nextRuntime) {id : RuntimeId}
    (hruntimes : w'.host.runtimes = w.host.runtimes.erase id) : w'.ModulesAgree done := by
  refine H.of_host hjobs hnext fun id' t ht => .inl ⟨t, ?_, rfl, rfl⟩
  simp only [Host.modules?, hruntimes, Table.get?_erase] at ht
  split at ht
  · cases ht
  · exact ht

theorem attach (H : w.ModulesAgree done) (seat : Seat) (config : Config) (resolver : Resolver) :
    ModulesAgree done { w with host := (w.host.attach seat config resolver).2 } := by
  have hnext := (w.host.attach_evolves seat config resolver).nextRuntime_le
  rcases w.host.attach_cases seat config resolver with
    ⟨engines, he⟩ | ⟨require, h₁, h₂, hruntimes, -, -, hnext₁, hinstall, hend⟩
  · refine H.of_sameLoads rfl hnext fun id => ?_
    simp only [he]
    rfl
  · have hloads : h₁.SameLoads h₂ := hinstall ▸ Install.runtime_sameLoads _ config require seat h₁
    have hnext₂ : h₂.nextRuntime = w.host.nextRuntime + 1 := by
      rw [hinstall]
      exact (Install.runtime_sameDesks ⟨_⟩ config require seat h₁).nextRuntime_eq.trans hnext₁
    -- Whether the new runtime is held or taken away again, what is there has been there before.
    have hafter : (w.host.attach seat config resolver).2.nextRuntime = h₂.nextRuntime ∧
        ∀ id t, (w.host.attach seat config resolver).2.modules? id = some t →
          h₂.modules? id = some t := by
      rcases hend with ⟨held, he⟩ | he <;> rw [he]
      · exact ⟨rfl, fun _ _ ht => ht⟩
      · refine ⟨rfl, fun id t ht => ?_⟩
        simp only [Host.modules?, Host.detach, Host.withRegistry, Table.get?_erase] at ht
        split at ht
        · cases ht
        · exact ht
    refine H.of_host rfl hnext fun id t ht => ?_
    obtain ⟨t₁, ht₁, hl, hc⟩ := hloads.of_some (hafter.2 id t ht)
    simp only [Host.modules?, hruntimes, Table.get?_insert] at ht₁
    split at ht₁
    · next hid =>
      obtain rfl := Option.some.inj ht₁
      refine .inr ⟨hid, ?_, hl, hc⟩
      change _ < (w.host.attach seat config resolver).2.nextRuntime
      omega
    · exact .inl ⟨t₁, ht₁, hl, hc⟩

theorem attachFiles (H : w.ModulesAgree done) (seat : Seat) (config : Config) :
    ModulesAgree done { w with host := (w.host.attachFiles seat config).2 } := by
  rw [Host.attachFiles]
  split
  · exact H.attach ..
  · split
    · exact H.attach ..
    · exact H

theorem drop (H : w.ModulesAgree done) (seat : Seat) :
    ModulesAgree done { w with host := w.host.drop seat } := by
  rw [Host.drop]
  split
  · exact H.of_erase rfl (Nat.le_refl _) rfl
  · exact H

/-- A job is begun. -/
theorem start (H : w.ModulesAgree done) (errand : Errand E) :
    (w.perform (.start errand)).ModulesAgree
      (done ++ (w.completion (.start errand)).toList) := by
  rw [completion_eq]
  exact H.of_evaluates (w.start_evaluates errand)

/-- A job takes a step. -/
theorem step (H : w.ModulesAgree done) (i : Nat) :
    (w.perform (.step i)).ModulesAgree (done ++ (w.completion (.step i)).toList) := by
  rcases hj : w.jobs[i]? with _ | j
  · simp only [World.perform, completion, hj, Option.bind_none, Option.toList_none, List.append_nil]
    exact H
  · rw [completion_eq]
    exact H.of_evaluates (step_evaluates hj (H.unbroken j (List.mem_of_getElem? hj)))

/-- Every move keeps agreement. -/
theorem perform (H : w.ModulesAgree done) (m : Move E) :
    (w.perform m).ModulesAgree (done ++ (w.completion m).toList) := by
  have hother (H' : (w.perform m).ModulesAgree done) (hm : ∀ i, m ≠ .step i) :
      (w.perform m).ModulesAgree (done ++ (w.completion m).toList) := by
    cases m with
    | step i => exact absurd rfl (hm i)
    | _ => exact (List.append_nil done).symm ▸ H'
  cases m with
  | step i => exact H.step i
  | start errand => exact H.start errand
  | outside engines platform =>
    exact hother (H.of_sameLoads rfl (Nat.le_refl _) fun _ => rfl) nofun
  | attach seat config resolver => exact hother (H.attach ..) nofun
  | attachFiles seat config => exact hother (H.attachFiles ..) nofun
  | drop seat => exact hother (H.drop seat) nofun
  | setTimer id kind callback delay =>
    have hnext := (w.host.setTimer_does id kind callback delay).nextRuntime_eq
    exact hother (H.of_sameLoads rfl (Nat.le_of_eq hnext.symm)
      (w.host.sameModules_scheduled id _).sameLoads) nofun
  | clearTimer id kind timer =>
    have hnext := (w.host.clearTimer_does id kind timer).nextRuntime_eq
    exact hother (H.of_sameLoads rfl (Nat.le_of_eq hnext.symm)
      (w.host.sameModules_scheduled id _).sameLoads) nofun
  | nextTick id callback =>
    have hnext := (w.host.nextTick_does id callback).nextRuntime_eq
    exact hother (H.of_sameLoads rfl (Nat.le_of_eq hnext.symm)
      (w.host.sameModules_scheduled id _).sameLoads) nofun
  | stop id =>
    have hnext := (w.host.stopLoop_does id).nextRuntime_eq
    exact hother (H.of_sameLoads rfl (Nat.le_of_eq hnext.symm)
      (Host.SameModules.sameLoads (Host.sameModules_update fun _ => rfl))) nofun

end ModulesAgree

/-- What has been completed along a run agrees with the world after it. -/
theorem run_modulesAgree (engines : E.State) (platform : Platform) (profiles : Seat → Profile)
    (ms : List (Move E)) :
    ModulesAgree
      (record (fun w m => (w.completion m).toList) (initial engines platform profiles) ms)
      ((initial engines platform profiles).run ms) :=
  record_invariant (Q := fun _ _ => True) (P := ModulesAgree) (fun _ _ m H _ => H.perform m)
    (ModulesAgree.initial engines platform profiles) ms (along_true _ ms)

end World

end ScriptHost
