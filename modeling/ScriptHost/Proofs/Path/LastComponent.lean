import ScriptHost.Proofs.Path.Joining
import Mathlib.Data.List.DropRight

/-!
# Taking a path apart

The last component of a path is what stands behind the last slash once the slashes at the end are
gone; the directory of the path is what stands before it, again without the slashes at its end. The
root and `.` stand in for a directory that is not written out, which makes it as absolute as the
path is. Slashes at the end and between the two parts lead nowhere, so the two parts one after the
other lead where the path leads. Joined again they therefore make up the canonical form of the path,
but for a slash at its end.

## Main definitions

* `Path.Chars.beforeBasename`: what stands before the last component.
* `Path.withoutSlash`: a path without the slash at its end.

## Main results

* `Path.Chars.withoutSlash_normalize`: the canonical form without a slash at its end.
* `Path.Chars.isAbsolute_dirname`, `Path.Chars.walk_dirname_basename`: what the two parts keep.
* `Path.join_dirname_basename`: taking a path apart loses nothing else.
-/

namespace ScriptHost.Path

namespace Chars

variable {p q : List Char} {cs : List (List Char)} {absolute : Bool}

/-! ### The slash at the end -/

/-- A path without the slash at its end, which stays if there is nothing else. -/
def withoutSlash (p : List Char) : List Char :=
  if endsInSlash p && p.length ≠ 1 then p.dropLast else p

theorem withoutSlash_concat_slash (hp : p ≠ []) : withoutSlash (p ++ ['/']) = p := by
  simp [withoutSlash, hp]

/-- A slash at the end of what the canonical form is made of does not count. -/
theorem withoutSlash_withSlash_stem (h : ∀ c ∈ cs, c ≠ [] ∧ '/' ∉ c) (slash : Bool) :
    withoutSlash (withSlash (stem absolute cs) slash) = stem absolute cs := by
  by_cases hroot : stem absolute cs = ['/']
  · rw [hroot]
    cases slash <;> rfl
  · rw [← endsInSlash_stem h, Bool.not_eq_true] at hroot
    cases slash with
    | false => simp [withSlash, withoutSlash, hroot]
    | true =>
      have hne : stem absolute cs ≠ [] := stem_ne_nil fun c hc => (h c hc).1
      simp [withSlash, hroot, withoutSlash_concat_slash hne]

theorem withoutSlash_normalize (p : List Char) :
    withoutSlash (normalize p) = stem (isAbsolute p) (reduced p) := by
  rw [normalize_eq_withSlash, withoutSlash_withSlash_stem fun _ hc => of_mem_reduced hc]

theorem normalize_of_not_endsInSlash (hp : endsInSlash p = false) :
    normalize p = stem (isAbsolute p) (reduced p) := by
  simp [normalize_eq_withSlash, hp, withSlash]

theorem isAbsolute_of_isPrefix (h : q <+: p) (hq : q ≠ []) : isAbsolute q = isAbsolute p := by
  obtain ⟨r, rfl⟩ := h
  rw [isAbsolute_append hq]

theorem isAbsolute_of_slash_notMem (hp : '/' ∉ p) : isAbsolute p = false := by
  cases p with
  | nil => rfl
  | cons x p =>
    rw [isAbsolute_cons, beq_eq_false_iff_ne]
    exact fun hx => hp (hx ▸ List.mem_cons_self ..)

/-! ### Without the slashes at the end -/

theorem trimEnd_eq_rdropWhile (p : List Char) : trimEnd p = p.rdropWhile (· == '/') := rfl

theorem isPrefix_trimEnd (p : List Char) : trimEnd p <+: p := List.rdropWhile_prefix _ _

theorem trimEnd_concat_slash (p : List Char) : trimEnd (p ++ ['/']) = trimEnd p :=
  List.rdropWhile_concat_pos _ _ _ rfl

theorem trimEnd_eq_nil_iff : trimEnd p = [] ↔ ∀ x ∈ p, x = '/' := by
  simp [trimEnd_eq_rdropWhile]

theorem getLast_trimEnd_ne_slash (hp : trimEnd p ≠ []) : (trimEnd p).getLast hp ≠ '/' := by
  have hlast := List.rdropWhile_last_not (· == '/') p hp
  rwa [beq_iff_eq] at hlast

/-- Slashes at the end lead nowhere. -/
theorem named_trimEnd (p : List Char) : named (trimEnd p) = named p := by
  induction p using List.reverseRecOn with
  | nil => rfl
  | append_singleton p x ih =>
    by_cases hx : x = '/'
    · rw [hx, trimEnd_concat_slash, ih, named_concat_slash]
    · rw [trimEnd_eq_rdropWhile, List.rdropWhile_concat_neg]
      simpa using hx

theorem named_of_trimEnd_eq_nil (hp : trimEnd p = []) : named p = [] := by
  rw [← named_trimEnd, hp, named_nil]

/-- A path of nothing but slashes is absolute. -/
theorem isAbsolute_of_trimEnd_eq_nil (hp : p ≠ []) (htrim : trimEnd p = []) :
    isAbsolute p = true := by
  cases p with
  | nil => exact absurd rfl hp
  | cons x p =>
    rw [isAbsolute_cons, trimEnd_eq_nil_iff.1 htrim x (List.mem_cons_self ..), beq_self_eq_true]

/-! ### The last component -/

theorem afterLastSlash_eq_rtakeWhile (p : List Char) :
    afterLastSlash p = p.rtakeWhile (· ≠ '/') := rfl

theorem slash_notMem_afterLastSlash (p : List Char) : '/' ∉ afterLastSlash p := fun h =>
  of_decide_eq_true (List.mem_rtakeWhile_imp (p := (· ≠ '/')) h) rfl

theorem slash_notMem_basename (p : List Char) : '/' ∉ basename p :=
  slash_notMem_afterLastSlash _

theorem basename_eq_nil_iff : basename p = [] ↔ trimEnd p = [] := by
  rw [basename, afterLastSlash_eq_rtakeWhile, List.rtakeWhile_eq_nil_iff]
  constructor
  · intro h
    by_contra hp
    exact h hp (by simpa using getLast_trimEnd_ne_slash hp)
  · exact fun hp hne => absurd hp hne

theorem basename_of_slash_notMem (h : '/' ∉ trimEnd p) : basename p = trimEnd p := by
  rw [basename, afterLastSlash_eq_rtakeWhile, List.rtakeWhile_eq_self_iff]
  intro x hx
  simpa using fun he : x = '/' => h (he ▸ hx)

/-! ### The directory -/

/-- What stands before the last component, with the slashes in between. -/
def beforeBasename (p : List Char) : List Char :=
  (trimEnd p).take ((trimEnd p).length - (basename p).length)

theorem beforeBasename_eq_rdropWhile (p : List Char) :
    beforeBasename p = (trimEnd p).rdropWhile (· ≠ '/') := by
  have happend := List.rdropWhile_append_rtakeWhile (p := (· ≠ '/')) (l := trimEnd p)
  calc beforeBasename p = (trimEnd p).rdrop (basename p).length := rfl
    _ = ((trimEnd p).rdropWhile (· ≠ '/') ++ basename p).rdrop (basename p).length := by
      rw [basename, afterLastSlash_eq_rtakeWhile, happend]
    _ = (trimEnd p).rdropWhile (· ≠ '/') := List.rdrop_append_length

theorem beforeBasename_append_basename (p : List Char) :
    beforeBasename p ++ basename p = trimEnd p := by
  rw [beforeBasename_eq_rdropWhile]
  exact List.rdropWhile_append_rtakeWhile

theorem isPrefix_beforeBasename (p : List Char) : beforeBasename p <+: p :=
  (List.take_prefix _ _).trans (isPrefix_trimEnd p)

/-- There is a slash in front of the last component if there is any. -/
theorem exists_beforeBasename_eq (h : '/' ∈ trimEnd p) : ∃ q, beforeBasename p = q ++ ['/'] := by
  have hne : beforeBasename p ≠ [] := by
    rw [beforeBasename_eq_rdropWhile]
    exact fun hnil => of_decide_eq_true (List.rdropWhile_eq_nil_iff.1 hnil '/' h) rfl
  have hlast : (beforeBasename p).getLast hne = '/' := by
    simpa [beforeBasename_eq_rdropWhile] using
      List.rdropWhile_last_not (· ≠ '/') (trimEnd p) (beforeBasename_eq_rdropWhile p ▸ hne)
  refine ⟨(beforeBasename p).dropLast, ?_⟩
  rw [← hlast, List.dropLast_concat_getLast]

theorem dirname_of_trimEnd_eq_nil (hp : p ≠ []) (htrim : trimEnd p = []) : dirname p = ['/'] := by
  simp [dirname, hp, htrim]

theorem dirname_of_slash_notMem (hp : trimEnd p ≠ []) (h : '/' ∉ trimEnd p) :
    dirname p = ['.'] := by
  have hne : p ≠ [] := by
    rintro rfl
    exact hp rfl
  simp [dirname, hne, hp, h]

/-- The directory is what stands before the last component, or the root. -/
theorem dirname_of_slash_mem (h : '/' ∈ trimEnd p) :
    trimEnd (beforeBasename p) = [] ∧ dirname p = ['/'] ∨
      trimEnd (beforeBasename p) ≠ [] ∧ dirname p = trimEnd (beforeBasename p) := by
  have hp : trimEnd p ≠ [] := List.ne_nil_of_mem h
  have hne : p ≠ [] := by
    rintro rfl
    exact hp rfl
  by_cases hdir : trimEnd (beforeBasename p) = []
  · left
    refine ⟨hdir, ?_⟩
    rw [beforeBasename, basename] at hdir
    simp [dirname, hne, hp, h, hdir]
  · right
    refine ⟨hdir, ?_⟩
    rw [beforeBasename, basename] at hdir ⊢
    simp [dirname, hne, hp, h, hdir]

theorem dirname_ne_nil (p : List Char) : dirname p ≠ [] := by
  by_cases hp : p = []
  · subst hp
    exact List.cons_ne_nil _ _
  by_cases htrim : trimEnd p = []
  · rw [dirname_of_trimEnd_eq_nil hp htrim]
    exact List.cons_ne_nil _ _
  by_cases h : '/' ∈ trimEnd p
  · obtain ⟨-, hroot⟩ | ⟨hdir, heq⟩ := dirname_of_slash_mem h
    · exact hroot ▸ List.cons_ne_nil _ _
    · exact heq ▸ hdir
  · rw [dirname_of_slash_notMem htrim h]
    exact List.cons_ne_nil _ _

/-- The directory is absolute if the path is. -/
theorem isAbsolute_dirname (p : List Char) : isAbsolute (dirname p) = isAbsolute p := by
  by_cases hp : p = []
  · subst hp
    rfl
  by_cases htrim : trimEnd p = []
  · rw [isAbsolute_of_trimEnd_eq_nil hp htrim, dirname_of_trimEnd_eq_nil hp htrim]
    rfl
  by_cases h : '/' ∈ trimEnd p
  · obtain ⟨q, hq⟩ := exists_beforeBasename_eq h
    have hbefore : beforeBasename p ≠ [] := by simp [hq]
    rw [← isAbsolute_of_isPrefix (isPrefix_beforeBasename p) hbefore]
    obtain ⟨hdir, hroot⟩ | ⟨hdir, heq⟩ := dirname_of_slash_mem h
    · rw [hroot, isAbsolute_of_trimEnd_eq_nil hbefore hdir]
      rfl
    · rw [heq, isAbsolute_of_isPrefix (isPrefix_trimEnd _) hdir]
  · rw [dirname_of_slash_notMem htrim h, ← isAbsolute_of_isPrefix (isPrefix_trimEnd p) htrim,
      isAbsolute_of_slash_notMem h]
    rfl

/-- The directory and the last component, one after the other, lead where the path leads. -/
theorem walk_dirname_basename (hp : trimEnd p ≠ []) (names : List (List Char)) :
    walk names (named (dirname p) ++ named (basename p)) = walk names (named p) := by
  by_cases h : '/' ∈ trimEnd p
  · obtain ⟨q, hq⟩ := exists_beforeBasename_eq h
    have hdir : named (dirname p) = named (beforeBasename p) := by
      obtain ⟨hnil, hroot⟩ | ⟨-, heq⟩ := dirname_of_slash_mem h
      · rw [hroot, named_slash_cons, named_nil, named_of_trimEnd_eq_nil hnil]
      · rw [heq, named_trimEnd]
    have hparts : named p = named (beforeBasename p) ++ named (basename p) := by
      rw [← named_trimEnd, ← beforeBasename_append_basename, hq, List.append_assoc,
        List.singleton_append, named_append_slash, named_concat_slash]
    rw [hdir, hparts]
  · have hdot : named ['.'] = [['.']] := named_of_slash_notMem (by decide) (by decide)
    rw [dirname_of_slash_notMem hp h, basename_of_slash_notMem h, named_trimEnd, hdot,
      List.singleton_append, walk_cons, step_self]

/-! ### Joining the two parts -/

/-- The directory joined with the last component is the canonical form of the path without a slash
at its end. -/
theorem join_dirname_basename_eq (p : List Char) :
    join [dirname p, basename p] = withoutSlash (normalize p) := by
  rw [withoutSlash_normalize]
  by_cases hp : p = []
  · subst hp
    rfl
  by_cases htrim : trimEnd p = []
  · have habsolute := isAbsolute_of_trimEnd_eq_nil hp htrim
    have hreduced : reduced p = [] := by
      rw [reduced_of_isAbsolute habsolute, named_of_trimEnd_eq_nil htrim, walk_nil]
    rw [dirname_of_trimEnd_eq_nil hp htrim, basename_eq_nil_iff.2 htrim, habsolute, hreduced]
    rfl
  · have hbase : basename p ≠ [] := fun h => htrim (basename_eq_nil_iff.1 h)
    have hglue : join [dirname p, basename p] = normalize (glue [dirname p, basename p]) := by
      simp [join, dirname_ne_nil, hbase]
    have habsolute : isAbsolute (glue [dirname p, basename p]) = isAbsolute p := by
      rw [isAbsolute_glue_cons (dirname_ne_nil p), isAbsolute_dirname]
    have hfollow (d : Directory) : d.follow (glue [dirname p, basename p]) = d.follow p := by
      apply Directory.ext
      rw [d.names_follow, d.names_follow, habsolute, named_glue, List.flatMap_cons,
        List.flatMap_singleton, walk_dirname_basename htrim]
    have hend : endsInSlash (glue [dirname p, basename p]) = false := by
      rw [glue_cons_cons, glue_singleton, endsInSlash_append _ (List.cons_ne_nil _ _),
        ← List.singleton_append, endsInSlash_append _ hbase, endsInSlash, beq_eq_false_iff_ne]
      exact fun hlast => slash_notMem_basename p (List.mem_of_getLast? hlast)
    rw [hglue, normalize_of_not_endsInSlash hend, habsolute, reduced_congr habsolute hfollow]

end Chars

/-- A path without the slash at its end, which stays if there is nothing else. -/
def withoutSlash (p : String) : String := String.ofList (Chars.withoutSlash p.toList)

/-- Taking a path apart loses nothing but a slash at the end. The last component has no slash in it,
the directory is not empty, and the two joined are the canonical form of the path without the slash
at its end, which stays only if the path is the root. -/
theorem join_dirname_basename (p : String) :
    '/' ∉ (basename p none).toList ∧ dirname p ≠ "" ∧
      join [dirname p, basename p none] = withoutSlash (normalize p) := by
  refine ⟨?_, ?_, ?_⟩
  · rw [basename, String.toList_ofList]
    exact Chars.slash_notMem_basename p.toList
  · rw [dirname, ne_eq, ← String.toList_inj, String.toList_ofList]
    exact Chars.dirname_ne_nil p.toList
  · rw [withoutSlash, normalize, String.toList_ofList, ← Chars.join_dirname_basename_eq, join]
    simp only [dirname, basename, List.map_cons, List.map_nil, String.toList_ofList]

example :
    dirname "a/..//b/./" = "a/..//b" ∧ basename "a/..//b/./" none = "." ∧
      join [dirname "a/..//b/./", basename "a/..//b/./" none] = "b" := by
  decide +kernel

end ScriptHost.Path
