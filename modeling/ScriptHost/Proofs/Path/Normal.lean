import ScriptHost.Proofs.Path.Directory
import Mathlib.Data.List.Count

/-!
# The canonical form of a path

The canonical form of a path is made of three things: whether the path is absolute, the components
that remain of it, and whether there is a slash at its end. So it is absolute if the path is, ends
in a slash if the path does, unless it is the root, and leads where the path leads from everywhere.

The components that remain of a relative path go up first and then down through names; those of an
absolute path only go down. What they lead to from a directory that is deep enough, by names that
are none of theirs, tells how far they go up and through which names they go down. So the paths that
lead to the same place from everywhere have the same components, and one canonical form for each way
of ending.

## Main results

* `Path.Chars.follow_normalize`, `Path.Chars.endsInSlash_normalize`: what the canonical form keeps.
* `Path.Chars.exists_reduced_eq`: what remains of a relative path goes up first and then down.
* `Path.Chars.eq_of_walk_eq`: where such components lead tells them.
* `Path.Chars.normalize_eq_iff`: when two paths have the same canonical form.
* `Path.normalize_canonical`: the same on strings, with what the canonical form keeps.
-/

namespace ScriptHost.Path

namespace Chars

variable {p q : List Char} {cs : List (List Char)} {absolute : Bool}

/-! ### What the canonical form keeps -/

/-- The path with some components leads where they lead. -/
theorem walk_named_stem (h : ∀ c ∈ cs, c ≠ [] ∧ '/' ∉ c) (names : List (List Char)) :
    walk names (named (stem absolute cs)) = walk names cs := by
  rw [stem]
  split
  · rw [rooted, named_slash_cons, named_glue_of_forall h]
  · split
    · next hnil =>
      rw [hnil, named_of_slash_notMem (by decide) (by decide), walk_cons, step_self]
    · rw [named_glue_of_forall h]

theorem named_withSlash (p : List Char) (slash : Bool) : named (withSlash p slash) = named p := by
  rw [withSlash]
  split
  · exact named_concat_slash p
  · rfl

/-- Unless it is the root, the canonical form ends as the path does. -/
theorem endsInSlash_normalize (p : List Char) :
    normalize p = ['/'] ∨ endsInSlash (normalize p) = endsInSlash p := by
  rw [normalize_eq_withSlash]
  by_cases hroot : stem (isAbsolute p) (reduced p) = ['/']
  · rw [hroot]
    left
    cases endsInSlash p <;> rfl
  · right
    rw [← endsInSlash_stem fun _ hc => of_mem_reduced hc, Bool.not_eq_true] at hroot
    rw [endsInSlash_withSlash, hroot, Bool.or_false]

/-- The canonical form leads where the path does. -/
theorem follow_normalize (d : Directory) (p : List Char) : d.follow (normalize p) = d.follow p := by
  apply Directory.ext
  rw [d.names_follow, d.names_follow, isAbsolute_normalize, normalize_eq_withSlash, named_withSlash,
    walk_named_stem fun _ hc => of_mem_reduced hc]
  exact walk_reduced fun hp => if_pos hp

/-! ### What remains of a relative path -/

/-- A component entered behind components that go up first and then down. -/
theorem exists_enter_eq {names : List (List Char)} (hnames : ∀ c ∈ names, IsName c) (n : Nat)
    {c : List Char} (hslash : '/' ∉ c) :
    ∃ names' n', enter false (names ++ List.replicate n ['.', '.']) c =
      names' ++ List.replicate n' ['.', '.'] ∧ ∀ c ∈ names', IsName c := by
  by_cases hidle : c = [] ∨ c = ['.']
  · exact ⟨names, n, by simp [enter, hidle], hnames⟩
  by_cases habove : c = ['.', '.']
  · subst habove
    cases names with
    | nil =>
      refine ⟨[], n + 1, ?_, hnames⟩
      cases n <;> simp [enter, List.replicate_succ]
    | cons top names =>
      have htop := (hnames top (List.mem_cons_self ..)).ne_above
      exact ⟨names, n, by simp [enter, htop], fun d hd => hnames d (List.mem_cons_of_mem top hd)⟩
  · refine ⟨c :: names, n, by simp [enter, hidle, habove], fun d hd => ?_⟩
    rcases List.mem_cons.1 hd with rfl | hd
    · exact ⟨fun h => hidle (.inl h), fun h => hidle (.inr h), habove, hslash⟩
    · exact hnames d hd

theorem exists_foldl_enter_eq (h : ∀ c ∈ cs, '/' ∉ c) :
    ∃ names n, cs.foldl (enter false) [] = names ++ List.replicate n ['.', '.'] ∧
      ∀ c ∈ names, IsName c := by
  induction cs using List.reverseRecOn with
  | nil => exact ⟨[], 0, rfl, by simp⟩
  | append_singleton cs c ih =>
    obtain ⟨names, n, hstack, hnames⟩ := ih fun d hd => h d (List.mem_append_left _ hd)
    rw [List.foldl_append, List.foldl_cons, List.foldl_nil, hstack]
    exact exists_enter_eq hnames n (h c (by simp))

/-- What remains of a relative path goes up first and then down. -/
theorem exists_reduced_eq (hp : isAbsolute p = false) :
    ∃ n names, reduced p = List.replicate n ['.', '.'] ++ names ∧ ∀ c ∈ names, IsName c := by
  obtain ⟨names, n, hstack, hnames⟩ :=
    exists_foldl_enter_eq fun _ hc => slash_notMem_of_mem_splitOn (p := p) hc
  refine ⟨n, names.reverse, ?_, fun c hc => hnames c (List.mem_reverse.1 hc)⟩
  rw [reduced, hp, hstack, List.reverse_append, List.reverse_replicate]

/-! ### Where components lead tells them -/

/-- There is always another name. -/
theorem exists_isName_notMem (cs : List (List Char)) : ∃ c, IsName c ∧ c ∉ cs := by
  refine ⟨List.replicate (cs.flatten.length + 1) 'a', ⟨by simp, ?_, ?_, ?_⟩, fun hc => ?_⟩
  · simp [List.replicate_succ]
  · simp [List.replicate_succ]
  · simp [List.mem_replicate]
  · have hle := (List.sublist_flatten_of_mem hc).length_le
    rw [List.length_replicate] at hle
    omega

theorem walk_above_names {names : List (List Char)} (hnames : ∀ c ∈ names, IsName c)
    (start : List (List Char)) (n : Nat) :
    walk start (List.replicate n ['.', '.'] ++ names) = start.take (start.length - n) ++ names := by
  rw [walk_append, walk_replicate_above, walk_names hnames]

/-- Going up and then down through names leads to different places, if not from every directory,
when it is done in different ways. -/
theorem eq_of_walk_eq {n m : Nat} {names names' : List (List Char)} (hnames : ∀ c ∈ names, IsName c)
    (hnames' : ∀ c ∈ names', IsName c)
    (h : ∀ d : Directory, walk d.names (List.replicate n ['.', '.'] ++ names) =
      walk d.names (List.replicate m ['.', '.'] ++ names')) : n = m ∧ names = names' := by
  obtain ⟨other, hother, hnew⟩ := exists_isName_notMem (names ++ names')
  -- A directory as deep as both go up together, below names that are none of theirs.
  let deep : Directory := ⟨List.replicate (n + m) other, by simp [hother]⟩
  have hdeep := h deep
  rw [walk_above_names hnames, walk_above_names hnames'] at hdeep
  simp only [deep, List.length_replicate, List.take_replicate] at hdeep
  have hcount := congrArg (List.count other) hdeep
  rw [List.mem_append, not_or] at hnew
  rw [List.count_append, List.count_append, List.count_replicate_self, List.count_replicate_self,
    List.count_eq_zero_of_not_mem hnew.1, List.count_eq_zero_of_not_mem hnew.2] at hcount
  have hnm : n = m := by omega
  subst hnm
  exact ⟨rfl, List.append_cancel_left hdeep⟩

/-- Paths that lead to the same place from everywhere have the same components. -/
theorem reduced_congr (habsolute : isAbsolute p = isAbsolute q)
    (h : ∀ d : Directory, d.follow p = d.follow q) : reduced p = reduced q := by
  cases hp : isAbsolute p with
  | true =>
    have hq := habsolute.symm.trans hp
    have hnames := congrArg Directory.names (h .root)
    rwa [Directory.names_follow_of_isAbsolute _ hp, Directory.names_follow_of_isAbsolute _ hq,
      ← reduced_of_isAbsolute hp, ← reduced_of_isAbsolute hq] at hnames
  | false =>
    have hq := habsolute.symm.trans hp
    obtain ⟨n, names, hreduced, hnames⟩ := exists_reduced_eq hp
    obtain ⟨m, names', hreduced', hnames'⟩ := exists_reduced_eq hq
    have hwalk (d : Directory) : walk d.names (reduced p) = walk d.names (reduced q) := by
      have hd := congrArg Directory.names (h d)
      rwa [d.names_follow_of_not_isAbsolute hp, d.names_follow_of_not_isAbsolute hq,
        ← walk_reduced (by simp [hp]), ← walk_reduced (by simp [hq])] at hd
    rw [hreduced, hreduced'] at hwalk
    obtain ⟨rfl, rfl⟩ := eq_of_walk_eq hnames hnames' hwalk
    rw [hreduced, hreduced']

/-- The canonical form of an absolute path that leads to the root. -/
theorem normalize_of_follow_eq_root (hp : isAbsolute p = true)
    (hroot : Directory.root.follow p = .root) : normalize p = ['/'] := by
  have hnil := congrArg Directory.names hroot
  rw [Directory.names_follow_of_isAbsolute _ hp, ← reduced_of_isAbsolute hp] at hnil
  rw [normalize_eq_withSlash, hp, hnil]
  cases endsInSlash p <;> rfl

theorem follow_of_normalize_eq_root (hp : normalize p = ['/']) (d : Directory) :
    isAbsolute p = true ∧ d.follow p = .root := by
  rw [← follow_normalize, ← isAbsolute_normalize, hp]
  exact ⟨rfl, d.follow_path .root⟩

/-- Two paths have the same canonical form if both are absolute or both are relative, they lead to
the same place from everywhere, and they end alike or are paths of the root. -/
theorem normalize_eq_iff :
    normalize p = normalize q ↔
      isAbsolute p = isAbsolute q ∧ (∀ d : Directory, d.follow p = d.follow q) ∧
        (endsInSlash p = endsInSlash q ∨ isAbsolute p = true ∧ isAbsolute q = true ∧
          ∀ d : Directory, d.follow p = .root ∧ d.follow q = .root) := by
  constructor
  · intro h
    refine ⟨?_, fun d => ?_, ?_⟩
    · rw [← isAbsolute_normalize p, h, isAbsolute_normalize]
    · rw [← follow_normalize d p, h, follow_normalize]
    · rcases endsInSlash_normalize p with hroot | hp
      · have hp := follow_of_normalize_eq_root hroot
        have hq := follow_of_normalize_eq_root (h ▸ hroot)
        exact .inr ⟨(hp .root).1, (hq .root).1, fun d => ⟨(hp d).2, (hq d).2⟩⟩
      · rcases endsInSlash_normalize q with hroot | hq
        · have hp := follow_of_normalize_eq_root (h.symm ▸ hroot)
          have hq := follow_of_normalize_eq_root hroot
          exact .inr ⟨(hp .root).1, (hq .root).1, fun d => ⟨(hp d).2, (hq d).2⟩⟩
        · exact .inl (by rw [← hp, h, hq])
  · rintro ⟨habsolute, hfollow, hend | ⟨hp, hq, hroot⟩⟩
    · rw [normalize_eq_withSlash, normalize_eq_withSlash, habsolute, hend,
        reduced_congr habsolute hfollow]
    · rw [normalize_of_follow_eq_root hp (hroot .root).1,
        normalize_of_follow_eq_root hq (hroot .root).2]

/-- The canonical form is its own. -/
theorem normalize_normalize (p : List Char) : normalize (normalize p) = normalize p := by
  refine normalize_eq_iff.2 ⟨isAbsolute_normalize p, fun d => follow_normalize d p, ?_⟩
  rcases endsInSlash_normalize p with hroot | hend
  · have hp := follow_of_normalize_eq_root hroot
    exact .inr ⟨(isAbsolute_normalize p).trans (hp .root).1, (hp .root).1,
      fun d => ⟨(follow_normalize d p).trans (hp d).2, (hp d).2⟩⟩
  · exact .inl hend

end Chars

open Chars (endsInSlash)

/-- The canonical form of a path leads where the path leads from every directory, is absolute if the
path is, ends in a slash if the path does, unless it is the root, and is its own canonical form. Two
paths have the same canonical form exactly if both are absolute or both are relative, they lead to
the same place from every directory, and they end alike or both are absolute and lead to the
root. -/
theorem normalize_canonical (p q : String) :
    (∀ d : Directory, d.follow (normalize p).toList = d.follow p.toList) ∧
      isAbsolute (normalize p) = isAbsolute p ∧
      (normalize p = "/" ∨ endsInSlash (normalize p).toList = endsInSlash p.toList) ∧
      normalize (normalize p) = normalize p ∧
      (normalize p = normalize q ↔
        isAbsolute p = isAbsolute q ∧
          (∀ d : Directory, d.follow p.toList = d.follow q.toList) ∧
          (endsInSlash p.toList = endsInSlash q.toList ∨
            isAbsolute p = true ∧ isAbsolute q = true ∧
              ∀ d : Directory, d.follow p.toList = .root ∧ d.follow q.toList = .root)) := by
  have htoList (p : String) : (normalize p).toList = Chars.normalize p.toList :=
    String.toList_ofList
  have heq (p q : String) :
      normalize p = normalize q ↔ Chars.normalize p.toList = Chars.normalize q.toList := by
    rw [← String.toList_inj, htoList, htoList]
  refine ⟨fun d => ?_, ?_, ?_, ?_, ?_⟩
  · rw [htoList, Chars.follow_normalize]
  · rw [isAbsolute, htoList, Chars.isAbsolute_normalize, ← isAbsolute]
  · rw [← String.toList_inj, htoList]
    exact Chars.endsInSlash_normalize p.toList
  · rw [heq, htoList, Chars.normalize_normalize]
  · rw [heq]
    exact Chars.normalize_eq_iff

example :
    normalize "a//../.././b/" = "../b/" ∧ normalize "a/.." = "." ∧ normalize "/../." = "/" := by
  decide +kernel

end ScriptHost.Path
