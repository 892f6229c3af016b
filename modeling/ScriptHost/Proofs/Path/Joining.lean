import ScriptHost.Proofs.Path.Normal

/-!
# Joining in stages

Paths that are glued lead where the first of them leads, and then on through the components of the
others, whether these have a slash in front or not. So the first one may be replaced by its
canonical form, which leads to the same place, is absolute if the path is, and tells how the glued
path ends only where nothing stands behind it. What is joined can therefore be joined in stages: the
first parts, unless they are all empty, count as one part, their joined path.

## Main results

* `Path.Chars.glue_append`: gluing in stages.
* `Path.Chars.normalize_glue_cons`: the first of the parts may be replaced by its canonical form.
* `Path.join_join`: joining in stages.
-/

namespace ScriptHost.Path

namespace Chars

variable {p q : List Char} {ps qs : List (List Char)}

/-! ### Gluing paths -/

@[simp]
theorem glue_singleton (p : List Char) : glue [p] = p := by
  simp [glue]

theorem glue_cons_cons (p q : List Char) (qs : List (List Char)) :
    glue (p :: q :: qs) = p ++ '/' :: glue (q :: qs) :=
  glue_cons_of_ne_nil p (List.cons_ne_nil q qs)

/-- Paths can be glued in stages. -/
theorem glue_append (hps : ps ≠ []) (qs : List (List Char)) :
    glue (ps ++ qs) = glue (glue ps :: qs) := by
  cases qs with
  | nil => simp
  | cons q qs =>
    induction ps with
    | nil => exact absurd rfl hps
    | cons p ps ih =>
      cases ps with
      | nil => simp
      | cons p' ps =>
        rw [List.cons_append, List.cons_append, glue_cons_cons, ← List.cons_append,
          ih (List.cons_ne_nil _ _), glue_cons_cons, glue_cons_cons, glue_cons_cons,
          List.append_assoc, List.cons_append]

theorem isAbsolute_glue_cons (hp : p ≠ []) (qs : List (List Char)) :
    isAbsolute (glue (p :: qs)) = isAbsolute p := by
  cases qs with
  | nil => rw [glue_singleton]
  | cons q qs => rw [glue_cons_cons, isAbsolute_append hp]

/-- Glued paths lead where the first one leads, and then on through the components of the others. -/
theorem names_follow_glue_cons (d : Directory) (hp : p ≠ []) (qs : List (List Char)) :
    (d.follow (glue (p :: qs))).names = walk (d.follow p).names (qs.flatMap named) := by
  rw [d.names_follow, d.names_follow, isAbsolute_glue_cons hp, named_glue, List.flatMap_cons,
    walk_append]

theorem endsInSlash_append (p : List Char) (hq : q ≠ []) :
    endsInSlash (p ++ q) = endsInSlash q := by
  rw [endsInSlash, endsInSlash, List.getLast?_append, List.getLast?_eq_some_getLast hq,
    Option.some_or]

/-! ### Joining paths -/

theorem normalize_ne_nil (p : List Char) : normalize p ≠ [] := by
  rw [normalize_eq_withSlash, withSlash]
  have hstem : stem (isAbsolute p) (reduced p) ≠ [] := stem_ne_nil fun c hc => (of_mem_reduced hc).1
  split
  · exact List.append_ne_nil_of_left_ne_nil hstem _
  · exact hstem

/-- The first of the paths that are glued may be replaced by its canonical form. -/
theorem normalize_glue_cons (hp : p ≠ []) (qs : List (List Char)) :
    normalize (glue (normalize p :: qs)) = normalize (glue (p :: qs)) := by
  cases qs with
  | nil => rw [glue_singleton, glue_singleton, normalize_normalize]
  | cons q qs =>
    refine normalize_eq_iff.2 ⟨?_, fun d => Directory.ext ?_, .inl ?_⟩
    · rw [isAbsolute_glue_cons (normalize_ne_nil p), isAbsolute_glue_cons hp, isAbsolute_normalize]
    · rw [names_follow_glue_cons d (normalize_ne_nil p), names_follow_glue_cons d hp,
        follow_normalize]
    · have hslash : '/' :: glue (q :: qs) ≠ [] := List.cons_ne_nil _ _
      rw [glue_cons_cons, glue_cons_cons, endsInSlash_append _ hslash, endsInSlash_append _ hslash]

/-- The first paths that are joined count as one, unless they are all empty. -/
theorem join_append (hps : ∃ p ∈ ps, p ≠ []) (qs : List (List Char)) :
    join (join ps :: qs) = join (ps ++ qs) := by
  have hparts : ps.filter (· ≠ []) ≠ [] := by
    obtain ⟨p, hmem, hp⟩ := hps
    exact List.ne_nil_of_mem (List.mem_filter.2 ⟨hmem, decide_eq_true hp⟩)
  have hglue : glue (ps.filter (· ≠ [])) ≠ [] :=
    glue_ne_nil (fun p hp => of_decide_eq_true (List.mem_filter.1 hp).2) hparts
  have hcons : (join ps :: qs).filter (· ≠ []) = join ps :: qs.filter (· ≠ []) :=
    List.filter_cons_of_pos (decide_eq_true (normalize_ne_nil _))
  calc join (join ps :: qs)
      = normalize (glue (normalize (glue (ps.filter (· ≠ []))) :: qs.filter (· ≠ []))) := by
        rw [join, hcons, ← join]
    _ = normalize (glue (glue (ps.filter (· ≠ [])) :: qs.filter (· ≠ []))) :=
        normalize_glue_cons hglue _
    _ = join (ps ++ qs) := by rw [← glue_append hparts, ← List.filter_append, ← join]

end Chars

/-- What is joined can be joined in stages: the joined path of some parts, unless they are all
empty, stands for these parts in front of any others. -/
theorem join_join {xs : List String} (hxs : ∃ x ∈ xs, x ≠ "") (ys : List String) :
    join (join xs :: ys) = join (xs ++ ys) := by
  have hparts : ∃ p ∈ xs.map String.toList, p ≠ [] := by
    obtain ⟨x, hx, hne⟩ := hxs
    exact ⟨x.toList, List.mem_map_of_mem hx, fun h => hne (String.toList_inj.1 h)⟩
  rw [join, List.map_cons, join, String.toList_ofList, Chars.join_append hparts, join,
    List.map_append]

/-- The first parts lead nowhere, and the others above where they start. -/
theorem join_join_above :
    (∃ x ∈ ["", "a//b", ".././..", "./"], x ≠ "") ∧
      join ["", "a//b", ".././..", "./"] = "./" ∧
      join ("./" :: ["../c", "", "/d/"]) =
        join (["", "a//b", ".././..", "./"] ++ ["../c", "", "/d/"]) ∧
      join ("./" :: ["../c", "", "/d/"]) = "../c/d/" := by
  have hparts : ∃ x ∈ ["", "a//b", ".././..", "./"], x ≠ "" := ⟨"./", by decide, by decide⟩
  have hjoin : join ["", "a//b", ".././..", "./"] = "./" := by decide +kernel
  have hstages := join_join hparts ["../c", "", "/d/"]
  rw [hjoin] at hstages
  exact ⟨hparts, hjoin, hstages, by decide +kernel⟩

end ScriptHost.Path
