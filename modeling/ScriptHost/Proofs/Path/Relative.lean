import ScriptHost.Proofs.Path.Resolving

/-!
# The way from one directory to another

The path from one directory to another goes up to the directory that both lie in and down again,
one component for each name that only one of them has. So it leads where it should, and it is empty
only between a directory and itself. Each component of a path changes the distance to the target by
one at most, so no other relative path with fewer components leads there.

## Main definitions

* `Path.Chars.distance`: how many names of two directories are not shared.
* `Path.Chars.way`: the components that lead from one directory to another.

## Main results

* `Path.Chars.walk_way`: the way leads where it should.
* `Path.Chars.distance_le_of_walk_eq`: no way is shorter than the distance.
* `Path.relativeFrom_shortest`: the relative path leads to the target, and no shorter one does.
-/

namespace ScriptHost.Path

namespace Chars

variable {source target cs : List (List Char)}

/-! ### Ways and distances -/

/-- How many names of two directories are not shared. -/
def distance (source target : List (List Char)) : Nat :=
  (dropShared source target).1.length + (dropShared source target).2.length

/-- The components that lead from one directory to another: up to the one in which both lie, and
down again. -/
def way (source target : List (List Char)) : List (List Char) :=
  (dropShared source target).1.map (fun _ => ['.', '.']) ++ (dropShared source target).2

theorem length_way (source target : List (List Char)) :
    (way source target).length = distance source target := by
  rw [way, List.length_append, List.length_map, distance]

@[simp]
theorem dropShared_nil_left (target : List (List Char)) : dropShared [] target = ([], target) := by
  cases target <;> rfl

@[simp]
theorem dropShared_nil_right (source : List (List Char)) : dropShared source [] = (source, []) := by
  cases source <;> rfl

theorem dropShared_cons (a b : List Char) (source target : List (List Char)) :
    dropShared (a :: source) (b :: target) =
      if a = b then dropShared source target else (a :: source, b :: target) := rfl

/-- What two directories share stands before what they do not share. -/
theorem exists_shared (source target : List (List Char)) :
    ∃ shared, source = shared ++ (dropShared source target).1 ∧
      target = shared ++ (dropShared source target).2 := by
  induction source generalizing target with
  | nil => exact ⟨[], by simp⟩
  | cons a source ih =>
    cases target with
    | nil => exact ⟨[], by simp⟩
    | cons b target =>
      rw [dropShared_cons]
      split
      · next he =>
        obtain ⟨shared, hsource, htarget⟩ := ih target
        refine ⟨a :: shared, ?_, ?_⟩
        · rw [List.cons_append, ← hsource]
        · rw [List.cons_append, ← htarget, he]
      · exact ⟨[], rfl, rfl⟩

/-- The way leads where it should. -/
theorem walk_way (htarget : ∀ c ∈ target, IsName c) (source : List (List Char)) :
    walk source (way source target) = target := by
  obtain ⟨shared, hs, ht⟩ := exists_shared source target
  have hdown : ∀ c ∈ (dropShared source target).2, IsName c := fun c hc =>
    htarget c (ht ▸ List.mem_append_right shared hc)
  have hup : source.take (source.length - (dropShared source target).1.length) = shared := by
    generalize (dropShared source target).1 = up at hs
    subst hs
    simp
  rw [way, List.map_const', walk_append, walk_replicate_above, hup, walk_names hdown, ← ht]

/-- Without a way there is no difference. -/
theorem eq_of_way_eq_nil (h : way source target = []) : source = target := by
  obtain ⟨shared, hs, ht⟩ := exists_shared source target
  obtain ⟨hup, hdown⟩ := List.append_eq_nil_iff.1 h
  rw [List.map_eq_nil_iff.1 hup] at hs
  rw [hdown] at ht
  exact hs.trans ht.symm

theorem of_mem_way (htarget : ∀ c ∈ target, c ≠ [] ∧ '/' ∉ c) :
    ∀ c ∈ way source target, c ≠ [] ∧ '/' ∉ c := by
  obtain ⟨shared, -, ht⟩ := exists_shared source target
  intro c hc
  rcases List.mem_append.1 hc with hc | hc
  · obtain ⟨-, -, rfl⟩ := List.mem_map.1 hc
    exact ⟨by decide, by decide⟩
  · exact htarget c (ht ▸ List.mem_append_right shared hc)

/-! ### No way is shorter -/

@[simp]
theorem distance_self (names : List (List Char)) : distance names names = 0 := by
  induction names with
  | nil => rfl
  | cons a names ih => rwa [distance, dropShared_cons, if_pos rfl]

/-- One name more changes the distance by one. -/
theorem distance_concat (source target : List (List Char)) (c : List Char) :
    distance source target ≤ distance (source ++ [c]) target + 1 ∧
      distance (source ++ [c]) target ≤ distance source target + 1 := by
  induction source generalizing target with
  | nil =>
    cases target with
    | nil => simp [distance]
    | cons b target =>
      by_cases he : c = b
      · simp [distance, dropShared_cons, he]
        omega
      · simp [distance, dropShared_cons, he]
        omega
  | cons a source ih =>
    cases target with
    | nil => simp [distance]
    | cons b target =>
      by_cases he : a = b
      · simpa [distance, dropShared_cons, he] using ih target
      · simp [distance, dropShared_cons, he]
        omega

/-- One component changes the distance by one at most. -/
theorem distance_step_le (source target : List (List Char)) (c : List Char) :
    distance source target ≤ distance (step source c) target + 1 := by
  rw [step]
  split
  · omega
  · split
    · by_cases hroot : source = []
      · simp [hroot]
      · have hlast := (distance_concat source.dropLast target (source.getLast hroot)).2
        rwa [List.dropLast_concat_getLast] at hlast
    · exact (distance_concat source target c).1

/-- No way is shorter than the distance. -/
theorem distance_le_of_walk_eq (h : walk source cs = target) :
    distance source target ≤ cs.length := by
  induction cs generalizing source with
  | nil =>
    subst h
    simp
  | cons c cs ih =>
    have hstep := distance_step_le source target c
    have hrest := ih h
    rw [List.length_cons]
    omega

/-- Without a way there is no distance, and no path. -/
theorem glue_way_eq_nil_iff (htarget : ∀ c ∈ target, c ≠ [] ∧ '/' ∉ c) :
    glue (way source target) = [] ↔ source = target := by
  constructor
  · intro hglue
    by_contra hne
    exact glue_ne_nil (fun c hc => (of_mem_way htarget c hc).1) (fun h => hne (eq_of_way_eq_nil h))
      hglue
  · rintro rfl
    have hnil := List.eq_nil_of_length_eq_zero ((length_way source source).trans (distance_self _))
    rw [hnil]
    rfl

end Chars

open Chars

/-! ### Relative paths -/

namespace Directory

/-- The relative path from one directory to another. -/
def wayTo (d e : Directory) : List Char := glue (way d.names e.names)

theorem isAbsolute_wayTo (d e : Directory) : Chars.isAbsolute (d.wayTo e) = false :=
  isAbsolute_glue (of_mem_way e.of_mem_names)

theorem named_wayTo (d e : Directory) : named (d.wayTo e) = way d.names e.names :=
  named_glue_of_forall (of_mem_way e.of_mem_names)

/-- The relative path leads from the one directory to the other. -/
theorem follow_wayTo (d e : Directory) : d.follow (d.wayTo e) = e := by
  apply Directory.ext
  rw [d.names_follow_of_not_isAbsolute (d.isAbsolute_wayTo e), named_wayTo, walk_way e.isName]

theorem wayTo_eq_nil_iff (d e : Directory) : d.wayTo e = [] ↔ d = e := by
  rw [wayTo, glue_way_eq_nil_iff e.of_mem_names, Directory.ext_iff]

/-- No relative path that leads from the one directory to the other has fewer components. -/
theorem length_wayTo_le {d e : Directory} {x : List Char} (hx : Chars.isAbsolute x = false)
    (h : d.follow x = e) : (named (d.wayTo e)).length ≤ (named x).length := by
  rw [named_wayTo, length_way]
  apply distance_le_of_walk_eq
  rw [← d.names_follow_of_not_isAbsolute hx, h]

end Directory

/-- The relative path between two paths is that between the directories they lead to. -/
theorem Chars.relativeFrom_eq_wayTo {cwd : List Char} (hcwd : Chars.isAbsolute cwd = true)
    (p q : List Char) :
    relativeFrom cwd p q =
      ((Directory.root.follow cwd).follow p).wayTo ((Directory.root.follow cwd).follow q) := by
  have hpath (p : List Char) :
      resolveFrom cwd [p] = ((Directory.root.follow cwd).follow p).path :=
    resolveFrom_eq_path hcwd [p]
  rw [relativeFrom, hpath, hpath]
  dsimp only
  split
  · next he => exact ((Directory.wayTo_eq_nil_iff _ _).2 (Directory.path_injective he)).symm
  · rw [Directory.named_path, Directory.named_path]
    rfl

/-- The relative path undoes resolving and is shortest. Resolved from where `source` leads, it leads
where `target` does; it is empty exactly if `source` and `target` lead to the same place; and no
other path that is not absolute and leads from there to the same place has fewer components that are
not empty. -/
theorem relativeFrom_shortest {cwd : String} (hcwd : isAbsolute cwd = true)
    (source target : String) :
    resolveFrom cwd [source, relativeFrom cwd source target] = resolveFrom cwd [target] ∧
      (relativeFrom cwd source target = "" ↔
        resolveFrom cwd [source] = resolveFrom cwd [target]) ∧
      ∀ x : String, isAbsolute x = false →
        resolveFrom cwd [source, x] = resolveFrom cwd [target] →
        (named (relativeFrom cwd source target).toList).length ≤ (named x.toList).length := by
  have hrelative : (relativeFrom cwd source target).toList = _ :=
    String.toList_ofList.trans (Chars.relativeFrom_eq_wayTo hcwd source.toList target.toList)
  -- Everything is about the two directories.
  have hresolve (p : String) : resolveFrom cwd [p] =
      String.ofList ((Directory.root.follow cwd.toList).follow p.toList).path :=
    resolveFrom_eq_ofList_path hcwd [p]
  have hresolve' (p : String) : resolveFrom cwd [source, p] =
      String.ofList (((Directory.root.follow cwd.toList).follow source.toList).follow
        p.toList).path :=
    resolveFrom_eq_ofList_path hcwd [source, p]
  rw [hresolve', hresolve, hresolve, hrelative]
  generalize (Directory.root.follow cwd.toList).follow source.toList = d at hrelative hresolve' ⊢
  generalize (Directory.root.follow cwd.toList).follow target.toList = e at hrelative ⊢
  have hpaths (d e : Directory) : String.ofList d.path = String.ofList e.path ↔ d = e := by
    rw [String.ofList_inj]
    exact ⟨Directory.path_injective, fun h => congrArg Directory.path h⟩
  refine ⟨by rw [Directory.follow_wayTo], ?_, fun x hx hlead => ?_⟩
  · rw [hpaths, ← Directory.wayTo_eq_nil_iff, ← hrelative, ← String.toList_inj]
    rfl
  · rw [hresolve', hpaths] at hlead
    exact Directory.length_wayTo_le hx hlead

/-- From `/data/test/aaa` to `/data/impl`, by paths with detours. -/
theorem relativeFrom_shortest_data :
    isAbsolute "/data/x" = true ∧
      relativeFrom "/data/x" "../test//./aaa/" "/../data/impl/bbb/.." = "../../impl" ∧
      resolveFrom "/data/x" ["../test//./aaa/", "../../impl"] =
        resolveFrom "/data/x" ["/../data/impl/bbb/.."] ∧
      resolveFrom "/data/x" ["../test//./aaa/", "../../../data/impl"] =
        resolveFrom "/data/x" ["/../data/impl/bbb/.."] ∧
      (named "../../impl".toList).length ≤ (named "../../../data/impl".toList).length := by
  have habsolute : isAbsolute "/data/x" = true := by decide +kernel
  have hway : relativeFrom "/data/x" "../test//./aaa/" "/../data/impl/bbb/.." = "../../impl" := by
    decide +kernel
  obtain ⟨hlead, -, hshortest⟩ :=
    relativeFrom_shortest habsolute "../test//./aaa/" "/../data/impl/bbb/.."
  rw [hway] at hlead hshortest
  have hother : resolveFrom "/data/x" ["../test//./aaa/", "../../../data/impl"] =
      resolveFrom "/data/x" ["/../data/impl/bbb/.."] := by decide +kernel
  exact ⟨habsolute, hway, hlead, hother, hshortest _ (by decide +kernel) hother⟩

end ScriptHost.Path
