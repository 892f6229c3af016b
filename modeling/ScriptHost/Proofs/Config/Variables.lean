import ScriptHost.Config
import Mathlib.Data.List.Nodup
import Mathlib.Data.List.Perm.Basic

/-!
# The order of environment variables

An environment is given in no particular order. What a variable asks for depends on its name and its
value alone, not on the configuration that it is applied to, so whether all variables are accepted
does not depend on their order. Neither does the configuration as long as the variables agree: two
settings of different names do not interfere. But variables that differ in name may still make one
setting, since neither case nor the kind of dash counts. If two variables give such a setting
different values, the last one wins, and the order decides.

## Main definitions

* `Config.Setting`, `Config.write`: a setting with its value, and what it writes.
* `Config.Variable.setting?`: the setting that a variable makes.
* `Config.Unanimous`: variables of which no two give one setting different values.

## Main results

* `Config.set_eq`: making a setting is writing what its name and value ask for.
* `Config.applyVariables_eq`: accepted variables are written one after the other.
* `Config.write_right_comm`: settings that agree may be written in either order.
* `Config.applyVariables_perm`: what the order decides and what not.
-/

namespace ScriptHost.Config

/-! ### Settings with their values -/

/-- A setting with the value that it is given. -/
inductive Setting where
  /-- Whether the event loop is left once nothing is pending. -/
  | exitWhenIdle (b : Bool)
  /-- The most timers that may be live at once. -/
  | maxTimers (n : Nat)
  /-- Where specifiers of the top level start from. -/
  | baseDir (dir : String)

/-- The dashed name of a setting. -/
def Setting.name : Setting → String
  | exitWhenIdle _ => "exit-when-idle"
  | maxTimers _ => "max-timers"
  | baseDir _ => "base-dir"

/-- The configuration with a setting made. -/
def write (c : Config) : Setting → Config
  | .exitWhenIdle b => { c with exitWhenIdle := b }
  | .maxTimers n => { c with maxTimers := n }
  | .baseDir dir => { c with baseDir := some dir }

/-- The setting that a name and a value ask for, if the name is known and the value can be used. -/
def setting? (key value : String) : Except Fault (Option Setting) :=
  if key = "exit-when-idle" then
    match truth? value with
    | some b => .ok (some (.exitWhenIdle b))
    | none => rejected key "boolean" value
  else if key = "max-timers" then
    match naturalOf? value (Nat.pow 2 64) with
    | some n => .ok (some (.maxTimers n))
    | none => rejected key "number" value
  else if key = "base-dir" then .ok (some (.baseDir value))
  else .ok none

/-- Making a setting is writing what its name and value ask for. -/
theorem set_eq (c : Config) (key value : String) :
    c.set key value = (setting? key value).map fun s? => s?.elim c c.write := by
  rw [set, setting?]
  split
  · cases truth? value <;> rfl
  · split
    · cases naturalOf? value (Nat.pow 2 64) <;> rfl
    · split <;> rfl

theorem name_of_setting? {key value : String} {s : Setting}
    (h : setting? key value = .ok (some s)) : s.name = key := by
  unfold setting? at h
  split at h
  · next hkey =>
    split at h
    · cases h
      exact hkey.symm
    · cases h
  · split at h
    · next hkey =>
      split at h
      · cases h
        exact hkey.symm
      · cases h
    · split at h
      · next hkey =>
        cases h
        exact hkey.symm
      · cases h

/-- What has been written last is read off the configuration. -/
theorem eq_of_write_eq {c c' : Config} {s t : Setting} (hname : s.name = t.name)
    (h : c.write s = c'.write t) : s = t := by
  cases s <;> cases t <;> simp_all [write, Setting.name]

/-- Settings that agree may be written in either order. -/
theorem write_right_comm (c : Config) {s t : Setting} (h : s.name = t.name → s = t) :
    (c.write s).write t = (c.write t).write s := by
  by_cases hname : s.name = t.name
  · rw [h hname]
  · cases s <;> cases t <;> first | rfl | exact absurd rfl hname

/-! ### Variables -/

/-- The setting that a variable makes, if its name is that of a known setting. -/
def Variable.setting? (v : String × String) : Except Fault (Option Setting) :=
  match settingOf? v.1 with
  | none => .ok none
  | some key => Config.setting? key v.2

/-- A variable whose value can be used, if it makes a setting at all. -/
def Variable.Accepted (v : String × String) : Prop := ∃ s?, setting? v = .ok s?

/-- The settings that variables make, in their order. -/
def settings (vs : List (String × String)) : List Setting :=
  vs.filterMap fun v => (Variable.setting? v).toOption.join

/-- No two variables give one setting different values. -/
def Unanimous (vs : List (String × String)) : Prop :=
  ∀ s ∈ settings vs, ∀ t ∈ settings vs, s.name = t.name → s = t

variable {c : Config} {v : String × String} {vs vs' : List (String × String)}

theorem mem_settings {s : Setting} :
    s ∈ settings vs ↔ ∃ v ∈ vs, Variable.setting? v = .ok (some s) := by
  rw [settings, List.mem_filterMap]
  refine exists_congr fun v => and_congr_right fun _ => ?_
  rcases Variable.setting? v with f | _ | s' <;> simp [Except.toOption]

/-- The first variable is written before the others, unless it is rejected. -/
theorem applyVariables_cons (c : Config) (v : String × String) (vs : List (String × String)) :
    c.applyVariables (v :: vs) =
      match Variable.setting? v with
      | .ok s? => (s?.elim c c.write).applyVariables vs
      | .error f => (.error f, c) := by
  obtain ⟨name, value⟩ := v
  rw [applyVariables, Variable.setting?]
  cases settingOf? name with
  | none => rfl
  | some key =>
    simp only [set_eq]
    cases setting? key value <;> rfl

/-- Variables that are accepted are written one after the other. -/
theorem applyVariables_eq (c : Config) (h : ∀ v ∈ vs, Variable.Accepted v) :
    c.applyVariables vs = (.ok (), (settings vs).foldl write c) := by
  induction vs generalizing c with
  | nil => rfl
  | cons v vs ih =>
    obtain ⟨s?, hs⟩ := h v (List.mem_cons_self ..)
    have hrest := fun c => ih c fun v hv => h v (List.mem_cons_of_mem _ hv)
    rw [applyVariables_cons, hs, settings, List.filterMap_cons, hs]
    cases s? with
    | none => exact hrest c
    | some s => exact hrest (c.write s)

/-- All variables are accepted if and only if each of them is. -/
theorem applyVariables_ok_iff :
    (c.applyVariables vs).1 = .ok () ↔ ∀ v ∈ vs, Variable.Accepted v := by
  refine ⟨fun h => ?_, fun h => congrArg Prod.fst (applyVariables_eq c h)⟩
  induction vs generalizing c with
  | nil => exact fun _ hv => absurd hv List.not_mem_nil
  | cons v vs ih =>
    rw [applyVariables_cons] at h
    cases hs : Variable.setting? v with
    | error f =>
      rw [hs] at h
      cases h
    | ok s? =>
      rw [hs] at h
      exact List.forall_mem_cons.2 ⟨⟨s?, hs⟩, ih h⟩

/-- The last setting wins. -/
theorem foldl_write_settings_concat {s : Setting} (hs : Variable.setting? v = .ok (some s))
    (c : Config) (vs : List (String × String)) :
    (settings (vs ++ [v])).foldl write c = ((settings vs).foldl write c).write s := by
  have hlast : settings (vs ++ [v]) = settings vs ++ [s] := by
    simp [settings, hs, Except.toOption]
  rw [hlast, List.foldl_append]
  rfl

/-- Variables that agree may be written in any order. -/
theorem Unanimous.foldl_write (h : Unanimous vs) (hperm : vs'.Perm vs) (c : Config) :
    (settings vs').foldl write c = (settings vs).foldl write c := by
  have hsettings : (settings vs).Perm (settings vs') := (hperm.filterMap _).symm
  refine (hsettings.foldl_eq' (fun s hs t ht c => ?_) c).symm
  exact write_right_comm c (h s hs t ht)

/-- Variables that may be written in any order agree. -/
theorem unanimous_of_forall_perm
    (h : ∀ vs', vs'.Perm vs → (settings vs').foldl write c = (settings vs).foldl write c) :
    Unanimous vs := by
  -- Each of the two variables is put last, where it wins.
  have hlast {v : String × String} {s : Setting} (hv : v ∈ vs)
      (hs : Variable.setting? v = .ok (some s)) :
      ∃ c', (settings vs).foldl write c = write c' s := by
    have hperm : (vs.erase v ++ [v]).Perm vs :=
      (List.perm_append_singleton ..).trans (List.perm_cons_erase hv).symm
    exact ⟨_, (h _ hperm).symm.trans (foldl_write_settings_concat hs c _)⟩
  intro s hs t ht hname
  obtain ⟨v, hv, hs⟩ := mem_settings.1 hs
  obtain ⟨v', hv', ht⟩ := mem_settings.1 ht
  obtain ⟨c₁, hc₁⟩ := hlast hv hs
  obtain ⟨c₂, hc₂⟩ := hlast hv' ht
  exact eq_of_write_eq hname (hc₁.symm.trans hc₂)

/-- A setting that is made has the name that the name of its variable stands for. -/
theorem settingOf?_eq_some_name {s : Setting} (h : Variable.setting? v = .ok (some s)) :
    settingOf? v.1 = some s.name := by
  rw [Variable.setting?] at h
  split at h
  · cases h
  · next key hkey => rw [hkey, name_of_setting? h]

theorem map_name_settings_sublist (vs : List (String × String)) :
    ((settings vs).map Setting.name).Sublist (vs.filterMap fun v => settingOf? v.1) := by
  induction vs with
  | nil => exact List.Sublist.refl _
  | cons v vs ih =>
    rw [settings, List.filterMap_cons, List.filterMap_cons]
    -- A rejected variable and an unknown name make no setting.
    rcases hs : Variable.setting? v with f | _ | s
    · cases settingOf? v.1 with
      | none => exact ih
      | some key => exact ih.cons key
    · cases settingOf? v.1 with
      | none => exact ih
      | some key => exact ih.cons key
    · rw [settingOf?_eq_some_name hs]
      exact ih.cons_cons s.name

/-- Variables of which no two make one setting agree. -/
theorem unanimous_of_nodup (h : (vs.filterMap fun v => settingOf? v.1).Nodup) : Unanimous vs :=
  fun _ hs _ ht => List.inj_on_of_nodup_map (h.sublist (map_name_settings_sublist vs)) hs ht

/-- Whether variables are accepted does not depend on their order. The configuration that they lead
to does not depend on it either if and only if no two of them give one setting different values. So
it does not if no two of them make one setting. -/
theorem applyVariables_perm (hok : (c.applyVariables vs).1 = .ok ()) :
    (∀ vs', vs'.Perm vs → (c.applyVariables vs').1 = .ok ()) ∧
      ((∀ vs', vs'.Perm vs → c.applyVariables vs' = c.applyVariables vs) ↔ Unanimous vs) ∧
      ((vs.filterMap fun v => settingOf? v.1).Nodup →
        ∀ vs', vs'.Perm vs → c.applyVariables vs' = c.applyVariables vs) := by
  rw [applyVariables_ok_iff] at hok
  have hall (vs' : List (String × String)) (hperm : vs'.Perm vs) :
      ∀ v ∈ vs', Variable.Accepted v := fun v hv => hok v (hperm.mem_iff.1 hv)
  have heq (vs' : List (String × String)) (hperm : vs'.Perm vs) :
      c.applyVariables vs' = c.applyVariables vs ↔
        (settings vs').foldl write c = (settings vs).foldl write c := by
    rw [applyVariables_eq c (hall vs' hperm), applyVariables_eq c hok]
    simp
  have hsame (h : Unanimous vs) (vs' : List (String × String)) (hperm : vs'.Perm vs) :
      c.applyVariables vs' = c.applyVariables vs := (heq vs' hperm).2 (h.foldl_write hperm c)
  refine ⟨fun vs' hperm => applyVariables_ok_iff.2 (hall vs' hperm), ⟨fun h => ?_, hsame⟩,
    fun hnodup => hsame (unanimous_of_nodup hnodup)⟩
  exact unanimous_of_forall_perm fun vs' hperm => (heq vs' hperm).1 (h vs' hperm)

/-- Two settings and a variable that makes none lead to the same configuration in reverse order. -/
theorem applyVariables_perm_overrides :
    ({} : Config).applyVariables [("PATH", "/usr/bin"), ("EMBERNODE_MAX_TIMERS", "8"),
      ("EMBERNODE_EXIT_WHEN_IDLE", "1")] = (.ok (), { exitWhenIdle := true, maxTimers := 8 }) := by
  have hok : (({} : Config).applyVariables [("EMBERNODE_EXIT_WHEN_IDLE", "1"),
      ("EMBERNODE_MAX_TIMERS", "8"), ("PATH", "/usr/bin")]).1 = .ok () := by
    decide +kernel
  obtain ⟨-, -, hdistinct⟩ := applyVariables_perm hok
  refine (hdistinct ?_ _ (List.reverse_perm _)).trans ?_ <;> decide +kernel

/-- Variables of different names may give one setting different values: then the last one wins. -/
theorem applyVariables_casing_order :
    ([("EMBERNODE_MAX_TIMERS", "1"), ("EMBERNODE_max_timers", "2")].map Prod.fst).Nodup ∧
      [("EMBERNODE_max_timers", "2"), ("EMBERNODE_MAX_TIMERS", "1")].Perm
        [("EMBERNODE_MAX_TIMERS", "1"), ("EMBERNODE_max_timers", "2")] ∧
      ({} : Config).applyVariables
        [("EMBERNODE_MAX_TIMERS", "1"), ("EMBERNODE_max_timers", "2")] =
          (.ok (), { maxTimers := 2 }) ∧
      ({} : Config).applyVariables
        [("EMBERNODE_max_timers", "2"), ("EMBERNODE_MAX_TIMERS", "1")] =
          (.ok (), { maxTimers := 1 }) := by
  refine ⟨by decide +kernel, List.Perm.swap .., ?_, ?_⟩ <;> decide +kernel

end ScriptHost.Config
