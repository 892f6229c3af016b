import ScriptHost.Proofs.Path.Directory

/-!
# Resolving is changing the directory

Paths that are resolved one after the other are followed one after the other, each from the
directory to which the one before it led. Only the paths from the last absolute one on are put
together, and they are reduced once; since an absolute path is followed from the root and reducing
keeps what a path leads to, this is the same. The result is the canonical path of a directory.

## Main definitions

* `Path.Directory.followAll`: where paths lead that are followed one after the other.

## Main results

* `Path.Chars.resolveFrom_eq_path`: paths are resolved to the path of the directory they lead to.
* `Path.resolveFrom_append`: resolving in stages, and the form of the result.
-/

namespace ScriptHost.Path

/-- Where paths lead from a directory, each followed from where the one before it led. -/
def Directory.followAll (d : Directory) (ps : List (List Char)) : Directory := ps.foldl follow d

theorem Directory.followAll_append (d : Directory) (ps qs : List (List Char)) :
    d.followAll (ps ++ qs) = (d.followAll ps).followAll qs :=
  List.foldl_append

/-- Empty paths lead nowhere. -/
theorem Directory.followAll_filter (d : Directory) (ps : List (List Char)) :
    d.followAll (ps.filter (· ≠ [])) = d.followAll ps := by
  rw [followAll, List.foldl_filter, followAll]
  congr 1
  funext d p
  by_cases hp : p = [] <;> simp [hp]

namespace Chars

variable {cwd : List Char}

/-- The first of the paths from the last absolute one on is absolute. -/
theorem exists_fromLastAbsolute (hcwd : isAbsolute cwd = true) (ps : List (List Char)) :
    ∃ q qs, fromLastAbsolute cwd ps = q :: qs ∧ isAbsolute q = true := by
  induction ps with
  | nil => exact ⟨cwd, [], rfl, hcwd⟩
  | cons p ps ih =>
    rw [fromLastAbsolute]
    split
    · next hp => exact ⟨p, [], rfl, hp⟩
    · obtain ⟨q, qs, hqs, hq⟩ := ih
      exact ⟨q, qs ++ [p], by rw [hqs, List.cons_append], hq⟩

theorem isAbsolute_spelledOut (hcwd : isAbsolute cwd = true) (ps : List (List Char)) :
    isAbsolute (spelledOut cwd ps) = true := by
  obtain ⟨q, qs, hqs, hq⟩ := exists_fromLastAbsolute hcwd (ps.filter (· ≠ [])).reverse
  have hne : q ≠ [] := by
    rintro rfl
    cases hq
  rw [spelledOut, hqs]
  by_cases hnil : qs = []
  · simpa [hnil, glue] using hq
  · rw [glue_cons_of_ne_nil q hnil, isAbsolute_append hne, hq]

/-- The components from the last absolute path on, followed from the root, lead where all the paths
lead; they are given in reverse order. -/
theorem walk_fromLastAbsolute (hcwd : isAbsolute cwd = true) (ps : List (List Char)) :
    walk [] ((fromLastAbsolute cwd ps).flatMap named) =
      ((Directory.root.follow cwd).followAll ps.reverse).names := by
  induction ps with
  | nil =>
    rw [fromLastAbsolute, List.flatMap_singleton]
    exact (Directory.names_follow_of_isAbsolute _ hcwd).symm
  | cons p ps ih =>
    rw [List.reverse_cons, Directory.followAll_append, fromLastAbsolute]
    generalize hd : (Directory.root.follow cwd).followAll ps.reverse = d at ih ⊢
    change _ = (d.follow p).names
    cases hp : isAbsolute p with
    | true => rw [if_pos rfl, List.flatMap_singleton, d.names_follow_of_isAbsolute hp]
    | false =>
      rw [if_neg Bool.false_ne_true, List.flatMap_append, List.flatMap_singleton, walk_append, ih,
        d.names_follow_of_not_isAbsolute hp]

/-- The components that remain of the paths put together lead down to where all of them lead. -/
theorem reduced_spelledOut (hcwd : isAbsolute cwd = true) (ps : List (List Char)) :
    reduced (spelledOut cwd ps) = ((Directory.root.follow cwd).followAll ps).names := by
  rw [reduced_of_isAbsolute (isAbsolute_spelledOut hcwd ps), spelledOut, named_glue,
    walk_fromLastAbsolute hcwd, List.reverse_reverse, Directory.followAll_filter]

/-- Paths are resolved to the path of the directory that they lead to. -/
theorem resolveFrom_eq_path (hcwd : isAbsolute cwd = true) (ps : List (List Char)) :
    resolveFrom cwd ps = ((Directory.root.follow cwd).followAll ps).path := by
  rw [resolveFrom_of_isAbsolute (isAbsolute_spelledOut hcwd ps), reduced_spelledOut hcwd,
    ← Directory.path]

end Chars

variable {cwd : String}

/-- Paths are resolved to the path of the directory that they lead to. -/
theorem resolveFrom_eq_ofList_path (hcwd : isAbsolute cwd = true) (ps : List String) :
    resolveFrom cwd ps =
      String.ofList ((Directory.root.follow cwd.toList).followAll (ps.map String.toList)).path := by
  rw [resolveFrom, Chars.resolveFrom_eq_path hcwd]

/-- The path of a directory is `/`, or `/` and its names with single slashes between them. -/
theorem Directory.ofList_path (d : Directory) :
    String.ofList d.path = "/" ∨
      ∃ names : List String, names ≠ [] ∧
        (∀ s ∈ names, s ≠ "" ∧ s ≠ "." ∧ s ≠ ".." ∧ '/' ∉ s.toList) ∧
        String.ofList d.path = "/" ++ String.intercalate "/" names := by
  by_cases hroot : d.names = []
  · left
    rw [path, hroot]
    rfl
  · right
    have hnames : (d.names.map String.ofList).map String.toList = d.names := by
      rw [List.map_map]
      exact List.map_id'' (fun _ => String.toList_ofList) d.names
    refine ⟨d.names.map String.ofList, by simpa using hroot, fun s hs => ?_, ?_⟩
    · obtain ⟨c, hc, rfl⟩ := List.mem_map.1 hs
      obtain ⟨hnil, hself, habove, hslash⟩ := d.isName c hc
      simp only [ne_eq, ← String.toList_inj, String.toList_ofList]
      exact ⟨hnil, hself, habove, hslash⟩
    · rw [← String.toList_inj, toList_slash_append_intercalate, String.toList_ofList, hnames, path]

/-- Resolving paths is changing the directory step by step: to resolve some paths and then others is
to resolve the others from where the first ones have led. What paths are resolved to is `/`, or `/`
and one or more names with single slashes between them, none of which is empty, `.` or `..`. -/
theorem resolveFrom_append (hcwd : isAbsolute cwd = true) (ps qs : List String) :
    resolveFrom cwd (ps ++ qs) = resolveFrom (resolveFrom cwd ps) qs ∧
      (resolveFrom cwd ps = "/" ∨
        ∃ names : List String, names ≠ [] ∧
          (∀ s ∈ names, s ≠ "" ∧ s ≠ "." ∧ s ≠ ".." ∧ '/' ∉ s.toList) ∧
          resolveFrom cwd ps = "/" ++ String.intercalate "/" names) := by
  have hps := resolveFrom_eq_ofList_path hcwd ps
  constructor
  · have habsolute : isAbsolute (resolveFrom cwd ps) = true := by
      rw [hps, isAbsolute, String.toList_ofList, Directory.isAbsolute_path]
    rw [resolveFrom_eq_ofList_path habsolute, hps, String.toList_ofList, Directory.follow_path,
      resolveFrom_eq_ofList_path hcwd, List.map_append, Directory.followAll_append]
  · rw [hps]
    exact Directory.ofList_path _

/-- From `/home/user`, by an empty path, one beyond the root and an absolute one. -/
theorem resolveFrom_append_home :
    isAbsolute "/home/user" = true ∧
      resolveFrom "/home/user" ["", "../../..", "/srv//www/./", "a"] = "/srv/www/a" ∧
      resolveFrom "/home/user" (["", "../../..", "/srv//www/./", "a"] ++ ["..", "b/"]) =
        resolveFrom "/srv/www/a" ["..", "b/"] := by
  have habsolute : isAbsolute "/home/user" = true := by decide +kernel
  have hresolved : resolveFrom "/home/user" ["", "../../..", "/srv//www/./", "a"] =
      "/srv/www/a" := by decide +kernel
  have happend := (resolveFrom_append habsolute
    ["", "../../..", "/srv//www/./", "a"] ["..", "b/"]).1
  exact ⟨habsolute, hresolved, by rw [happend, hresolved]⟩

end ScriptHost.Path
