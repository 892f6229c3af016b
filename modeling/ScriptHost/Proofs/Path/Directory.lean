import ScriptHost.Proofs.Path.Canonical
import Mathlib.Data.List.Induction

/-!
# Directories and where paths lead

A directory is known by the names that lead to it from the root. A path is followed from a directory
component by component: an empty component and `.` stay there, `..` goes up, but stays at the root,
and every other component leads down; a path with a slash in front is followed from the root. What a
path leads to depends on its components that are not empty only, and these are put together when
paths are glued. Reducing a path keeps what it leads to, from wherever it is followed.

## Main definitions

* `Path.Chars.step`, `Path.Chars.walk`: where components lead.
* `Path.Directory`, `Path.Directory.root`: directories.
* `Path.Directory.path`: the canonical path of a directory.
* `Path.Directory.follow`: where a path leads.

## Main results

* `Path.Chars.named_glue`: the components of paths that are glued.
* `Path.Chars.walk_reduced`: a reduced path leads where the path does.
* `Path.Directory.follow_path`: the path of a directory leads there.
-/

namespace ScriptHost.Path

namespace Chars

variable {names cs : List (List Char)} {c : List Char}

/-! ### The named components of a path -/

theorem named_append_slash (p q : List Char) : named (p ++ '/' :: q) = named p ++ named q := by
  rw [named, List.splitOn_append_cons_self, List.filter_append, ← named, ← named]

@[simp]
theorem named_nil : named [] = [] := by
  simp [named]

@[simp]
theorem named_slash_cons (p : List Char) : named ('/' :: p) = named p := by
  simpa using named_append_slash [] p

@[simp]
theorem named_concat_slash (p : List Char) : named (p ++ ['/']) = named p := by
  simpa using named_append_slash p []

/-- A component has itself as its only component. -/
theorem named_of_slash_notMem (hc : c ≠ []) (hslash : '/' ∉ c) : named c = [c] := by
  rw [named, List.splitOn_eq_singleton hslash]
  simp [hc]

/-- Paths that are glued have their components one after the other. -/
theorem named_glue (ps : List (List Char)) : named (glue ps) = ps.flatMap named := by
  induction ps with
  | nil => simp [glue]
  | cons p ps ih =>
    by_cases hps : ps = []
    · simp [hps, glue]
    · rw [glue_cons_of_ne_nil p hps, rooted, named_append_slash, ih, List.flatMap_cons]

/-- A path that is made of components has these as its components. -/
theorem named_glue_of_forall (h : ∀ c ∈ cs, c ≠ [] ∧ '/' ∉ c) : named (glue cs) = cs := by
  rw [named_glue]
  induction cs with
  | nil => rfl
  | cons c cs ih =>
    obtain ⟨hc, hslash⟩ := h c (List.mem_cons_self ..)
    rw [List.flatMap_cons, named_of_slash_notMem hc hslash,
      ih fun d hd => h d (List.mem_cons_of_mem c hd), List.singleton_append]

/-! ### Where components lead -/

/-- Where a component leads from below `names`. An empty component and `.` stay there, `..` goes up,
but stays at the root, and every other component leads down. -/
def step (names : List (List Char)) (c : List Char) : List (List Char) :=
  if c = [] ∨ c = ['.'] then names
  else if c = ['.', '.'] then names.dropLast
  else names ++ [c]

/-- Where components lead, one after the other. -/
def walk (names cs : List (List Char)) : List (List Char) := cs.foldl step names

@[simp]
theorem step_nil (names : List (List Char)) : step names [] = names := if_pos (.inl rfl)

@[simp]
theorem step_self (names : List (List Char)) : step names ['.'] = names := if_pos (.inr rfl)

@[simp]
theorem step_above (names : List (List Char)) : step names ['.', '.'] = names.dropLast := by
  simp [step]

theorem step_of_ne (hnil : c ≠ []) (hself : c ≠ ['.']) (habove : c ≠ ['.', '.']) :
    step names c = names ++ [c] := by
  simp [step, hnil, hself, habove]

theorem IsName.step (h : IsName c) (names : List (List Char)) : step names c = names ++ [c] :=
  step_of_ne h.ne_nil h.ne_self h.ne_above

@[simp]
theorem walk_nil (names : List (List Char)) : walk names [] = names := rfl

@[simp]
theorem walk_cons (names : List (List Char)) (c : List Char) (cs : List (List Char)) :
    walk names (c :: cs) = walk (step names c) cs := rfl

theorem walk_append (names cs ds : List (List Char)) :
    walk names (cs ++ ds) = walk (walk names cs) ds :=
  List.foldl_append

/-- Names lead down. -/
theorem walk_names (h : ∀ c ∈ cs, IsName c) (names : List (List Char)) :
    walk names cs = names ++ cs := by
  induction cs generalizing names with
  | nil => simp
  | cons c cs ih =>
    have hc := h c (List.mem_cons_self ..)
    rw [walk_cons, hc.step, ih fun d hd => h d (List.mem_cons_of_mem c hd)]
    simp

/-- Going up some levels. -/
theorem walk_replicate_above (names : List (List Char)) (n : Nat) :
    walk names (List.replicate n ['.', '.']) = names.take (names.length - n) := by
  induction n generalizing names with
  | zero => simp
  | succ n ih =>
    rw [List.replicate_succ, walk_cons, step_above, ih, List.length_dropLast, List.dropLast_eq_take,
      List.take_take]
    congr 1
    omega

/-- Components that are empty lead nowhere. -/
theorem walk_named (names : List (List Char)) (p : List Char) :
    walk names (named p) = walk names (p.splitOn '/') := by
  rw [walk, named, List.foldl_filter, walk]
  congr 1
  funext names c
  by_cases hc : c = [] <;> simp [hc]

theorem isName_of_mem_step (h : ∀ d ∈ names, IsName d) (hslash : '/' ∉ c) :
    ∀ d ∈ step names c, IsName d := by
  rw [step]
  split
  · exact h
  · next hidle =>
    split
    · exact fun d hd => h d (List.dropLast_subset _ hd)
    · next habove =>
      intro d hd
      rcases List.mem_append.1 hd with hd | hd
      · exact h d hd
      · obtain rfl := List.mem_singleton.1 hd
        exact ⟨fun hc => hidle (.inl hc), fun hc => hidle (.inr hc), habove, hslash⟩

theorem isName_of_mem_walk (h : ∀ d ∈ names, IsName d) (hslash : ∀ c ∈ cs, '/' ∉ c) :
    ∀ d ∈ walk names cs, IsName d := by
  induction cs generalizing names with
  | nil => exact h
  | cons c cs ih =>
    exact ih (isName_of_mem_step h (hslash c (List.mem_cons_self ..)))
      fun d hd => hslash d (List.mem_cons_of_mem c hd)

/-! ### Reducing keeps what a path leads to -/

/-- What has been entered leads where all the components lead that have been read. A component is
taken back by `..` only if it has led down before. -/
theorem walk_enter {absolute : Bool} {stack : List (List Char)}
    (hidle : ∀ d ∈ stack, d ≠ [] ∧ d ≠ ['.'])
    (hroot : absolute = true → names = [] ∧ ∀ d ∈ stack, d ≠ ['.', '.']) :
    walk names (enter absolute stack c).reverse = step (walk names stack.reverse) c := by
  unfold enter
  split
  · next hc => rcases hc with rfl | rfl <;> simp
  · next hc =>
    split
    · next habove =>
      subst habove
      rw [step_above]
      cases stack with
      | nil =>
        cases absolute with
        | true => simp [(hroot rfl).1]
        | false => simp
      | cons top below =>
        obtain ⟨hnil, hself⟩ := hidle top (List.mem_cons_self ..)
        by_cases htop : top = ['.', '.']
        · cases absolute with
          | true => exact absurd htop ((hroot rfl).2 top (List.mem_cons_self ..))
          | false => simp [htop, walk_append]
        · simp [htop, walk_append, step_of_ne hnil hself htop]
    · simp [walk_append]

/-- Components lead where what is entered of them does. -/
theorem walk_foldl_enter {absolute : Bool} (hroot : absolute = true → names = [])
    (cs : List (List Char)) :
    walk names (cs.foldl (enter absolute) []).reverse = walk names cs := by
  induction cs using List.reverseRecOn with
  | nil => rfl
  | append_singleton cs c ih =>
    have hstack {d : List Char} (hd : d ∈ cs.foldl (enter absolute) []) :=
      (mem_foldl_enter hd).resolve_left List.not_mem_nil
    rw [List.foldl_append, List.foldl_cons, List.foldl_nil, walk_enter, ih, walk_append, walk_cons,
      walk_nil]
    · exact fun d hd => ⟨(hstack hd).2.1, (hstack hd).2.2.1⟩
    · exact fun ha => ⟨hroot ha, fun d hd => (hstack hd).2.2.2 ha⟩

/-- A reduced path leads where the path does; an absolute one is followed from the root. -/
theorem walk_reduced {p : List Char} (hroot : isAbsolute p = true → names = []) :
    walk names (reduced p) = walk names (named p) := by
  rw [reduced, walk_foldl_enter hroot, walk_named]

/-- The components that remain of an absolute path lead down to where it leads. -/
theorem reduced_of_isAbsolute {p : List Char} (hp : isAbsolute p = true) :
    reduced p = walk [] (named p) := by
  have hnames : ∀ c ∈ reduced p, IsName c := fun c hc => isName_of_mem_reduced hp hc
  rw [← walk_reduced fun _ => rfl, walk_names hnames, List.nil_append]

end Chars

/-! ### Directories -/

open Chars

/-- A directory, known by the names that lead to it from the root, outermost first. -/
@[ext]
structure Directory where
  names : List (List Char)
  isName : ∀ c ∈ names, IsName c

namespace Directory

/-- The directory above all others. -/
def root : Directory := ⟨[], by simp⟩

/-- The canonical path of a directory. -/
def path (d : Directory) : List Char := rooted d.names

/-- Where a path leads from a directory. -/
def follow (d : Directory) (p : List Char) : Directory where
  names := walk (if Chars.isAbsolute p then [] else d.names) (p.splitOn '/')
  isName := by
    refine isName_of_mem_walk ?_ fun c hc => slash_notMem_of_mem_splitOn hc
    split
    · simp
    · exact d.isName

theorem names_follow (d : Directory) (p : List Char) :
    (d.follow p).names = walk (if Chars.isAbsolute p then [] else d.names) (named p) :=
  (walk_named ..).symm

theorem names_follow_of_isAbsolute (d : Directory) {p : List Char}
    (hp : Chars.isAbsolute p = true) : (d.follow p).names = walk [] (named p) := by
  rw [names_follow, if_pos hp]

theorem names_follow_of_not_isAbsolute (d : Directory) {p : List Char}
    (hp : Chars.isAbsolute p = false) : (d.follow p).names = walk d.names (named p) := by
  rw [names_follow, hp, if_neg Bool.false_ne_true]

@[simp]
theorem follow_nil (d : Directory) : d.follow [] = d :=
  Directory.ext (by rw [d.names_follow_of_not_isAbsolute rfl, named_nil, walk_nil])

theorem of_mem_names (d : Directory) : ∀ c ∈ d.names, c ≠ [] ∧ '/' ∉ c :=
  fun c hc => ⟨(d.isName c hc).ne_nil, (d.isName c hc).slash_notMem⟩

@[simp]
theorem named_path (d : Directory) : named d.path = d.names := by
  rw [path, rooted, named_slash_cons, named_glue_of_forall d.of_mem_names]

@[simp]
theorem isAbsolute_path (d : Directory) : Chars.isAbsolute d.path = true := rfl

/-- The path of a directory leads there from everywhere. -/
@[simp]
theorem follow_path (d e : Directory) : d.follow e.path = e := by
  apply Directory.ext
  rw [d.names_follow_of_isAbsolute e.isAbsolute_path, named_path, walk_names e.isName,
    List.nil_append]

theorem path_injective {d e : Directory} (h : d.path = e.path) : d = e :=
  Directory.ext (rooted_injective d.isName e.isName h)

end Directory

end ScriptHost.Path
