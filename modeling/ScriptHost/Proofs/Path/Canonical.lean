import ScriptHost.Path

/-!
# Canonical paths

A path is canonical if it is absolute and names its components one by one: none of them is empty,
`.` or `..`, and there is no slash at the end. Taking such a path apart gives its components back.
Where a sequence of paths leads is canonical if it is absolute, and a canonical path leads to itself
from everywhere.

## Main definitions

* `Path.Chars.IsName`: a component that leads down.
* `Path.Chars.rooted`: the absolute path with some components.
* `Path.Chars.stem`, `Path.Chars.withSlash`: what the canonical form of a path is made of.
* `Path.Chars.spelledOut`: what is reduced when paths are resolved.

## Main results

* `Path.Chars.splitOn_rooted`: the components of a canonical path.
* `Path.Chars.normalize_eq_withSlash`: the canonical form of a path is made of the components that
  remain of it.
* `Path.Chars.resolveFrom_of_isAbsolute`: where absolute paths lead.
* `Path.Chars.resolveFrom_rooted`: a canonical path leads to itself.
* `Path.Chars.exists_rooted_of_resolveFrom`: an absolute path that others lead to is canonical.
* `Path.resolveFrom_idem`: it leads to itself.
-/

namespace ScriptHost.Path

namespace Chars

/-- A component that leads down: neither empty nor `.` nor `..`. -/
structure IsName (c : List Char) : Prop where
  ne_nil : c ≠ []
  ne_self : c ≠ ['.']
  ne_above : c ≠ ['.', '.']
  slash_notMem : '/' ∉ c

/-- The absolute path with some components. -/
def rooted (cs : List (List Char)) : List Char := '/' :: glue cs

variable {p : List Char} {cs : List (List Char)} {absolute : Bool}

/-! ### Taking paths apart -/

/-- There is no slash in a component. -/
theorem slash_notMem_of_mem_splitOn {p c : List Char} (hc : c ∈ p.splitOn '/') : '/' ∉ c := by
  induction p generalizing c with
  | nil =>
    rw [List.splitOn_nil, List.mem_singleton] at hc
    exact hc ▸ List.not_mem_nil
  | cons x p ih =>
    rw [List.splitOn_cons_eq_if_modifyHead] at hc
    split at hc
    · rcases List.mem_cons.1 hc with rfl | hc
      · exact List.not_mem_nil
      · exact ih hc
    · next hx =>
      obtain ⟨d, ds, hds⟩ := List.exists_cons_of_ne_nil (List.splitOn_ne_nil '/' p)
      rw [hds] at hc ih
      rcases List.mem_cons.1 hc with rfl | hc
      · rw [List.mem_cons, not_or]
        exact ⟨fun he => hx (beq_iff_eq.2 he.symm), ih (List.mem_cons_self ..)⟩
      · exact ih (List.mem_cons_of_mem _ hc)

theorem glue_cons_of_ne_nil (c : List Char) (hcs : cs ≠ []) : glue (c :: cs) = c ++ rooted cs :=
  (List.intercalate_cons_of_ne_nil hcs).trans (List.append_assoc ..)

theorem splitOn_rooted (hcs : cs ≠ []) (h : ∀ c ∈ cs, '/' ∉ c) :
    (rooted cs).splitOn '/' = [] :: cs := by
  have hglue : rooted cs = glue ([] :: cs) := (glue_cons_of_ne_nil [] hcs).symm
  rw [hglue]
  refine List.splitOn_intercalate '/' (fun c hc => ?_) (List.cons_ne_nil _ _)
  rcases List.mem_cons.1 hc with rfl | hc
  · exact List.not_mem_nil
  · exact h c hc

theorem glue_ne_nil (h : ∀ c ∈ cs, c ≠ []) (hcs : cs ≠ []) : glue cs ≠ [] := by
  cases cs with
  | nil => exact absurd rfl hcs
  | cons c cs =>
    have hc := h c (List.mem_cons_self ..)
    cases cs with
    | nil => simpa [glue] using hc
    | cons d ds =>
      rw [glue_cons_of_ne_nil c (List.cons_ne_nil d ds)]
      exact List.append_ne_nil_of_left_ne_nil hc _

/-- A path consists of slashes and of its components. -/
theorem mem_rooted {x : Char} (hx : x ∈ rooted cs) : x = '/' ∨ ∃ c ∈ cs, x ∈ c := by
  rcases List.mem_cons.1 hx with hx | hx
  · exact .inl hx
  induction cs with
  | nil => cases hx
  | cons c cs ih =>
    by_cases hcs : cs = []
    · subst hcs
      have hglue : glue [c] = c := by simp [glue]
      exact .inr ⟨c, List.mem_cons_self .., hglue ▸ hx⟩
    · rw [glue_cons_of_ne_nil c hcs, List.mem_append, rooted, List.mem_cons] at hx
      rcases hx with hx | hx | hx
      · exact .inr ⟨c, List.mem_cons_self .., hx⟩
      · exact .inl hx
      · refine (ih (List.mem_cons_of_mem _ hx) hx).imp_right ?_
        rintro ⟨d, hd, hx⟩
        exact ⟨d, List.mem_cons_of_mem c hd, hx⟩

/-- Different components make different paths. -/
theorem rooted_injective {ds : List (List Char)} (hcs : ∀ c ∈ cs, IsName c)
    (hds : ∀ d ∈ ds, IsName d) (he : rooted cs = rooted ds) : cs = ds := by
  have hglue : glue cs = glue ds := (List.cons.inj he).2
  by_cases hc : cs = []
  · by_cases hd : ds = []
    · rw [hc, hd]
    · rw [hc] at hglue
      exact absurd hglue.symm (glue_ne_nil (fun d hd => (hds d hd).ne_nil) hd)
  · by_cases hd : ds = []
    · rw [hd] at hglue
      exact absurd hglue (glue_ne_nil (fun c hc => (hcs c hc).ne_nil) hc)
    · have hsplit := congrArg (List.splitOn '/') he
      rw [splitOn_rooted hc fun c hc => (hcs c hc).slash_notMem,
        splitOn_rooted hd fun d hd => (hds d hd).slash_notMem] at hsplit
      exact (List.cons.inj hsplit).2

/-- What is made of components does not end in a slash. -/
theorem getLast?_glue_ne_slash (h : ∀ c ∈ cs, c ≠ [] ∧ '/' ∉ c) :
    (glue cs).getLast? ≠ some '/' := by
  induction cs with
  | nil => exact nofun
  | cons c cs ih =>
    obtain ⟨-, hslash⟩ := h c (List.mem_cons_self ..)
    have htail : ∀ d ∈ cs, d ≠ [] ∧ '/' ∉ d := fun d hd => h d (List.mem_cons_of_mem c hd)
    by_cases hcs : cs = []
    · subst hcs
      intro hlast
      have hglue : glue [c] = c := by simp [glue]
      rw [hglue] at hlast
      exact hslash (List.mem_of_getLast? hlast)
    · have hne := glue_ne_nil (fun d hd => (htail d hd).1) hcs
      rw [glue_cons_of_ne_nil c hcs, rooted, List.getLast?_append, List.getLast?_cons,
        Option.some_or, List.getLast?_eq_some_getLast hne, Option.getD_some,
        ← List.getLast?_eq_some_getLast hne]
      exact ih htail

/-- A canonical path has no slash at its end unless it is the root. -/
theorem endsInSlash_rooted (h : ∀ c ∈ cs, IsName c) (hcs : cs ≠ []) :
    endsInSlash (rooted cs) = false := by
  have hne := glue_ne_nil (fun c hc => (h c hc).ne_nil) hcs
  rw [endsInSlash, rooted, List.getLast?_cons, List.getLast?_eq_some_getLast hne, Option.getD_some,
    ← List.getLast?_eq_some_getLast hne]
  exact beq_eq_false_iff_ne.2
    (getLast?_glue_ne_slash fun c hc => ⟨(h c hc).ne_nil, (h c hc).slash_notMem⟩)

/-! ### Canonical forms -/

/-- Components that lead down stay. -/
theorem foldl_enter_names (h : ∀ c ∈ cs, IsName c) (stack : List (List Char)) :
    cs.foldl (enter absolute) stack = cs.reverse ++ stack := by
  induction cs generalizing stack with
  | nil => rfl
  | cons c cs ih =>
    have hc := h c (List.mem_cons_self ..)
    have henter : enter absolute stack c = c :: stack := by
      unfold enter
      rw [if_neg (not_or.2 ⟨hc.ne_nil, hc.ne_self⟩), if_neg hc.ne_above]
    rw [List.foldl_cons, henter, ih fun d hd => h d (List.mem_cons_of_mem c hd), List.reverse_cons,
      List.append_assoc, List.singleton_append]

theorem reduced_rooted (h : ∀ c ∈ cs, IsName c) : reduced (rooted cs) = cs := by
  by_cases hcs : cs = []
  · subst hcs
    rfl
  · have hfirst (absolute : Bool) : enter absolute [] [] = [] := rfl
    rw [reduced, splitOn_rooted hcs fun c hc => (h c hc).slash_notMem, List.foldl_cons, hfirst,
      foldl_enter_names h, List.append_nil, List.reverse_reverse]

theorem normalize_rooted (h : ∀ c ∈ cs, IsName c) : normalize (rooted cs) = rooted cs := by
  have hne : rooted cs ≠ [] := List.cons_ne_nil _ _
  have habsolute : isAbsolute (rooted cs) = true := rfl
  rw [normalize, if_neg hne, habsolute, if_pos rfl, reduced_rooted h, ← rooted]
  dsimp only
  rw [if_neg hne, if_neg]
  cases endsInSlash (rooted cs) <;> exact Bool.false_ne_true

/-- What a component leaves behind: components that were there before, or itself, if it is neither
empty nor `.`, nor `..` in an absolute path. -/
theorem mem_enter {stack : List (List Char)} {c d : List Char} (hd : d ∈ enter absolute stack c) :
    d ∈ stack ∨
      d = c ∧ c ≠ [] ∧ c ≠ ['.'] ∧ (absolute = true → c ≠ ['.', '.']) := by
  unfold enter at hd
  split at hd
  · exact .inl hd
  · next hidle =>
    obtain ⟨hnil, hself⟩ := not_or.1 hidle
    split at hd
    · next habove =>
      split at hd
      · split at hd
        · exact .inl (List.mem_cons_of_mem _ hd)
        · split at hd
          · exact .inl hd
          · next hrelative =>
            rcases List.mem_cons.1 hd with rfl | hd
            · exact .inr ⟨rfl, hnil, hself, fun h => absurd h hrelative⟩
            · exact .inl hd
      · split at hd
        · cases hd
        · next hrelative =>
          exact .inr ⟨List.mem_singleton.1 hd, hnil, hself, fun h => absurd h hrelative⟩
    · next habove =>
      rcases List.mem_cons.1 hd with rfl | hd
      · exact .inr ⟨rfl, hnil, hself, fun _ => habove⟩
      · exact .inl hd

theorem mem_foldl_enter {stack : List (List Char)} {d : List Char}
    (hd : d ∈ cs.foldl (enter absolute) stack) : d ∈ stack ∨
      d ∈ cs ∧ d ≠ [] ∧ d ≠ ['.'] ∧ (absolute = true → d ≠ ['.', '.']) := by
  induction cs generalizing stack with
  | nil => exact .inl hd
  | cons c cs ih =>
    rcases ih hd with hd | ⟨hmem, hrest⟩
    · rcases mem_enter hd with hd | ⟨rfl, hrest⟩
      · exact .inl hd
      · exact .inr ⟨List.mem_cons_self .., hrest⟩
    · exact .inr ⟨List.mem_cons_of_mem c hmem, hrest⟩

theorem mem_reduced {p c : List Char} (hc : c ∈ reduced p) :
    c ≠ [] ∧ c ≠ ['.'] ∧ (isAbsolute p = true → c ≠ ['.', '.']) ∧ '/' ∉ c := by
  rcases mem_foldl_enter (List.mem_reverse.1 hc) with hnil | ⟨hmem, hempty, hself, habove⟩
  · cases hnil
  · exact ⟨hempty, hself, habove, slash_notMem_of_mem_splitOn hmem⟩

/-- The components that remain of an absolute path lead down. -/
theorem isName_of_mem_reduced {p c : List Char} (hp : isAbsolute p = true) (hc : c ∈ reduced p) :
    IsName c := by
  obtain ⟨hempty, hself, habove, hslash⟩ := mem_reduced hc
  exact ⟨hempty, hself, habove hp, hslash⟩

theorem isAbsolute_cons (x : Char) (p : List Char) : isAbsolute (x :: p) = (x == '/') := by
  unfold isAbsolute
  split
  · next he => exact (beq_iff_eq.2 (List.cons.inj he).1).symm
  · next hne => exact (beq_eq_false_iff_ne.2 fun he => hne p (by rw [he])).symm

theorem isAbsolute_append {p : List Char} (hp : p ≠ []) (q : List Char) :
    isAbsolute (p ++ q) = isAbsolute p := by
  cases p with
  | nil => exact absurd rfl hp
  | cons x p => rw [List.cons_append, isAbsolute_cons, isAbsolute_cons]

theorem isAbsolute_of_dropLast {p : List Char} (h : isAbsolute p.dropLast = true) :
    isAbsolute p = true := by
  have hinit : p.dropLast ≠ [] := by
    intro he
    rw [he] at h
    cases h
  have hp : p ≠ [] := fun he => hinit (by rw [he]; rfl)
  rw [← List.dropLast_concat_getLast hp, isAbsolute_append hinit, h]

/-- Components without slashes make a relative path. -/
theorem isAbsolute_glue (h : ∀ c ∈ cs, c ≠ [] ∧ '/' ∉ c) : isAbsolute (glue cs) = false := by
  cases cs with
  | nil => rfl
  | cons c cs =>
    obtain ⟨hempty, hslash⟩ := h c (List.mem_cons_self ..)
    have hc : isAbsolute c = false := by
      cases c with
      | nil => exact absurd rfl hempty
      | cons x c =>
        rw [isAbsolute_cons]
        exact beq_eq_false_iff_ne.2 fun he => hslash (he ▸ List.mem_cons_self ..)
    by_cases hcs : cs = []
    · subst hcs
      simpa [glue] using hc
    · rw [glue_cons_of_ne_nil c hcs, isAbsolute_append hempty, hc]

/-! ### What the canonical form is made of -/

/-- The path with some components, absolute or not: without components it is the root or `.`. -/
def stem (absolute : Bool) (cs : List (List Char)) : List Char :=
  if absolute then rooted cs else if cs = [] then ['.'] else glue cs

/-- A path with a slash at its end if one is asked for. -/
def withSlash (p : List Char) (slash : Bool) : List Char :=
  if slash && !endsInSlash p then p ++ ['/'] else p

theorem of_mem_reduced {c : List Char} (hc : c ∈ reduced p) : c ≠ [] ∧ '/' ∉ c :=
  ⟨(mem_reduced hc).1, (mem_reduced hc).2.2.2⟩

theorem glue_reduced_ne_nil (hp : reduced p ≠ []) : glue (reduced p) ≠ [] :=
  glue_ne_nil (fun _ hc => (of_mem_reduced hc).1) hp

theorem normalize_eq_withSlash (p : List Char) :
    normalize p = withSlash (stem (isAbsolute p) (reduced p)) (endsInSlash p) := by
  by_cases hp : p = []
  · subst hp
    rfl
  · rw [normalize, if_neg hp]
    cases habsolute : isAbsolute p with
    | true => rfl
    | false =>
      by_cases hnil : reduced p = []
      · simp [withSlash, stem, hnil, glue]
      · simp [withSlash, stem, hnil, glue_reduced_ne_nil hnil]

theorem stem_ne_nil (h : ∀ c ∈ cs, c ≠ []) : stem absolute cs ≠ [] := by
  rw [stem]
  split
  · exact List.cons_ne_nil _ _
  · split
    · exact List.cons_ne_nil _ _
    · next hnil => exact glue_ne_nil h hnil

theorem isAbsolute_stem (h : ∀ c ∈ cs, c ≠ [] ∧ '/' ∉ c) :
    isAbsolute (stem absolute cs) = absolute := by
  rw [stem]
  cases absolute with
  | true => rfl
  | false =>
    by_cases hnil : cs = []
    · rw [if_neg Bool.false_ne_true, if_pos hnil]
      rfl
    · rw [if_neg Bool.false_ne_true, if_neg hnil, isAbsolute_glue h]

/-- Without a slash put at its end, only the root ends in a slash. -/
theorem endsInSlash_stem (h : ∀ c ∈ cs, c ≠ [] ∧ '/' ∉ c) :
    endsInSlash (stem absolute cs) = true ↔ stem absolute cs = ['/'] := by
  refine ⟨fun hend => ?_, fun hroot => by rw [hroot]; rfl⟩
  have hlast := getLast?_glue_ne_slash h
  rw [endsInSlash, beq_iff_eq] at hend
  rw [stem] at hend ⊢
  split at hend
  · by_cases hnil : cs = []
    · simp [*, rooted, glue]
    · have hne := glue_ne_nil (fun c hc => (h c hc).1) hnil
      rw [rooted, List.getLast?_cons, List.getLast?_eq_some_getLast hne, Option.getD_some,
        ← List.getLast?_eq_some_getLast hne] at hend
      exact absurd hend hlast
  · split at hend
    · cases hend
    · exact absurd hend hlast

theorem isAbsolute_withSlash (hp : p ≠ []) (slash : Bool) :
    isAbsolute (withSlash p slash) = isAbsolute p := by
  rw [withSlash]
  split
  · exact isAbsolute_append hp _
  · rfl

@[simp]
theorem endsInSlash_concat_slash (p : List Char) : endsInSlash (p ++ ['/']) = true := by
  simp [endsInSlash]

/-- A path ends in the slash that is asked for, and in one that it ends in anyhow. -/
theorem endsInSlash_withSlash (p : List Char) (slash : Bool) :
    endsInSlash (withSlash p slash) = (slash || endsInSlash p) := by
  rw [withSlash]
  cases slash with
  | false => rfl
  | true =>
    cases hend : endsInSlash p with
    | true => exact hend
    | false => simp

theorem isAbsolute_normalize (p : List Char) : isAbsolute (normalize p) = isAbsolute p := by
  rw [normalize_eq_withSlash, isAbsolute_withSlash (stem_ne_nil fun _ hc => (of_mem_reduced hc).1),
    isAbsolute_stem fun _ hc => of_mem_reduced hc]

/-! ### Where paths lead -/

/-- The paths from the last absolute one on, or from `cwd` on, put together. -/
def spelledOut (cwd : List Char) (ps : List (List Char)) : List Char :=
  glue (fromLastAbsolute cwd (ps.filter (· ≠ [])).reverse)

/-- Where paths lead is their canonical form without a slash at its end, if that is absolute. -/
theorem resolveFrom_of_isAbsolute {cwd : List Char} {ps : List (List Char)}
    (h : isAbsolute (spelledOut cwd ps) = true) :
    resolveFrom cwd ps = rooted (reduced (spelledOut cwd ps)) := by
  rw [resolveFrom, ← spelledOut, normalize_eq_withSlash, h, stem, if_pos rfl]
  generalize endsInSlash (spelledOut cwd ps) = slash
  have hnames : ∀ c ∈ reduced (spelledOut cwd ps), IsName c :=
    fun _ hc => isName_of_mem_reduced h hc
  by_cases hroot : reduced (spelledOut cwd ps) = []
  · rw [hroot]
    cases slash <;> rfl
  · have hend := endsInSlash_rooted hnames hroot
    cases slash with
    | false => simp [withSlash, hend]
    | true =>
      have hslash : withSlash (rooted (reduced (spelledOut cwd ps))) true =
          rooted (reduced (spelledOut cwd ps)) ++ ['/'] := by simp [withSlash, hend]
      have hne : rooted (reduced (spelledOut cwd ps)) ≠ [] := List.cons_ne_nil _ _
      simp [hslash, hne]

/-- An absolute path that others lead to is canonical. -/
theorem exists_rooted_of_resolveFrom {cwd : List Char} {ps : List (List Char)}
    (h : isAbsolute (resolveFrom cwd ps) = true) :
    ∃ cs, (∀ c ∈ cs, IsName c) ∧ resolveFrom cwd ps = rooted cs := by
  have hspelled : isAbsolute (spelledOut cwd ps) = true := by
    rw [resolveFrom, ← spelledOut] at h
    rw [← isAbsolute_normalize]
    split at h
    · exact isAbsolute_of_dropLast h
    · exact h
  exact ⟨_, fun _ hc => isName_of_mem_reduced hspelled hc, resolveFrom_of_isAbsolute hspelled⟩

/-- A canonical path leads to itself. -/
theorem resolveFrom_rooted (h : ∀ c ∈ cs, IsName c) (cwd : List Char) :
    resolveFrom cwd [rooted cs] = rooted cs := by
  have hfilter : [rooted cs].filter (· ≠ []) = [rooted cs] := rfl
  have hfrom : fromLastAbsolute cwd [rooted cs] = [rooted cs] := rfl
  have hglue : glue [rooted cs] = rooted cs := by simp [glue]
  rw [resolveFrom, hfilter, List.reverse_singleton, hfrom, hglue, normalize_rooted h, if_neg]
  by_cases hcs : cs = []
  · rw [hcs]
    exact Bool.false_ne_true
  · rw [endsInSlash_rooted h hcs]
    exact Bool.false_ne_true

end Chars

/-- The absolute path with some names, on strings. -/
theorem toList_slash_append_intercalate (names : List String) :
    ("/" ++ String.intercalate "/" names).toList = Chars.rooted (names.map String.toList) := by
  rw [String.toList_append, String.toList_intercalate]
  rfl

/-- Where paths lead, if that is absolute, leads to itself from everywhere. -/
theorem resolveFrom_idem {cwd : String} {ps : List String}
    (h : isAbsolute (resolveFrom cwd ps) = true) (cwd' : String) :
    resolveFrom cwd' [resolveFrom cwd ps] = resolveFrom cwd ps := by
  rw [isAbsolute, resolveFrom, String.toList_ofList] at h
  obtain ⟨cs, hcs, hrooted⟩ := Chars.exists_rooted_of_resolveFrom h
  have hpath : resolveFrom cwd ps = String.ofList (Chars.rooted cs) :=
    congrArg String.ofList hrooted
  rw [hpath, resolveFrom, List.map_singleton, String.toList_ofList, Chars.resolveFrom_rooted hcs]

end ScriptHost.Path
