import ScriptHost.Proofs.Path.Directory
import Mathlib.Data.List.TakeWhile

/-!
# Paths without their last component

The path above another one has no characters of its own. There is none only if the path is empty or
leads to the root by nothing but its slashes and components `.`.

## Main results

* `Path.Chars.named_of_dropIdle`: a path that is dropped as a whole has no component but `.`.
* `Path.Chars.mem_of_mem_parent?`: the characters of the path above.
* `Path.Chars.parent?_eq_none`: when there is none.
-/

namespace ScriptHost.Path.Chars

variable {p above : List Char} {c : Char}

theorem dropIdle_suffix (r : List Char) : dropIdle r <:+ r := by
  fun_induction dropIdle r with
  | case1 => exact List.suffix_rfl
  | case2 c cs _ _ ih =>
    exact ih.trans ((List.drop_suffix ..).trans (List.dropWhile_suffix _))
  | case3 c cs => exact List.suffix_rfl

/-- A path is a component, or one with a slash and a path behind it. -/
theorem eq_component_or (p : List Char) : '/' ∉ p.takeWhile (· ≠ '/') ∧
    (p = p.takeWhile (· ≠ '/') ∧ p.dropWhile (· ≠ '/') = [] ∨
      ∃ rest, p = p.takeWhile (· ≠ '/') ++ '/' :: rest ∧ p.dropWhile (· ≠ '/') = '/' :: rest) := by
  refine ⟨fun hmem => by simpa using List.mem_takeWhile_imp hmem, ?_⟩
  have hsplit := List.takeWhile_append_dropWhile (p := (· ≠ '/')) (l := p)
  rcases hdrop : p.dropWhile (· ≠ '/') with _ | ⟨c, rest⟩
  · rw [hdrop, List.append_nil] at hsplit
    exact .inl ⟨hsplit.symm, rfl⟩
  · have hslash := List.head?_dropWhile_not (· ≠ '/') p
    rw [hdrop] at hsplit hslash
    obtain rfl : c = '/' := by simpa using hslash
    exact .inr ⟨rest, hsplit.symm, rfl⟩

/-- A path that is dropped as a whole has no component but `.`. -/
theorem named_of_dropIdle {r : List Char} (h : dropIdle r = []) :
    ∀ c ∈ named r.reverse, c = ['.'] := by
  fun_induction dropIdle r with
  | case1 => simp
  | case3 => cases h
  | case2 c cs last hidle ih =>
    have hlast : ∀ d ∈ named last.reverse, d = ['.'] := by
      rcases hidle with hnil | hdot
      · simp [hnil]
      · rw [hdot]
        decide
    obtain ⟨-, ⟨heq, -⟩ | ⟨rest, heq, hdrop⟩⟩ := eq_component_or (c :: cs)
    · rwa [heq]
    · rw [hdrop] at ih h
      rw [heq, List.reverse_append, List.reverse_cons, List.append_assoc, List.singleton_append,
        named_append_slash]
      intro d hd
      rcases List.mem_append.1 hd with hd | hd
      · exact ih h d hd
      · exact hlast d hd

/-- The path above has no characters of its own. -/
theorem mem_of_mem_parent? (h : parent? p = some above) (hc : c ∈ above) : c ∈ p := by
  have hdrop : ∀ {r : List Char}, c ∈ dropIdle r → c ∈ r := fun hc => (dropIdle_suffix _).subset hc
  simp only [parent?] at h
  generalize hlead : (if isAbsolute p = true ∨ p = ['.'] ∨ ['.', '/'].isPrefixOf p = true then 1
    else 0) = lead at h
  by_cases hbody : dropIdle (p.drop lead).reverse = []
  · rw [if_pos hbody] at h
    split at h <;> cases h
    cases hc
  · rw [if_neg hbody] at h
    cases h
    rcases List.mem_append.1 hc with hc | hc
    · exact List.mem_of_mem_take hc
    · have hmem := hdrop ((List.dropWhile_sublist _).subset
        (List.mem_of_mem_drop (hdrop (List.mem_reverse.1 hc))))
      exact List.mem_of_mem_drop (List.mem_reverse.1 hmem)

/-- A path whose only components are `.` starts with a slash or with a component `.`. -/
theorem leads_of_named (hp : p ≠ []) (h : ∀ c ∈ named p, c = ['.']) :
    isAbsolute p = true ∨ p = ['.'] ∨ ['.', '/'].isPrefixOf p = true := by
  obtain ⟨hslash, ⟨heq, -⟩ | ⟨rest, heq, -⟩⟩ := eq_component_or p
  · rw [← heq] at hslash
    exact .inr (.inl (h p (by simp [named_of_slash_notMem hp hslash])))
  · by_cases hfirst : p.takeWhile (· ≠ '/') = []
    · rw [heq, hfirst]
      exact .inl rfl
    · have hmem : p.takeWhile (· ≠ '/') ∈ named p := by
        rw [heq, named_append_slash, ← heq, named_of_slash_notMem hfirst hslash]
        exact List.mem_append_left _ (List.mem_singleton_self _)
      rw [heq, h _ hmem]
      exact .inr (.inr rfl)

/-- There is always a path above one that does not lead to the root by its slashes and its
components `.`. -/
theorem parent?_eq_none (h : parent? p = none) (hp : p ≠ []) :
    isAbsolute p = true ∧ ∀ c ∈ named p, c = ['.'] := by
  simp only [parent?] at h
  generalize hlead : (if isAbsolute p = true ∨ p = ['.'] ∨ ['.', '/'].isPrefixOf p = true then 1
    else 0) = lead at h
  by_cases hbody : dropIdle (p.drop lead).reverse = []
  · have hnamed := named_of_dropIdle hbody
    rw [List.reverse_reverse] at hnamed
    rw [if_pos hbody] at h
    split at h
    · cases h
    · next hdot =>
      cases habsolute : isAbsolute p with
      | true =>
        refine ⟨rfl, ?_⟩
        rw [if_pos (.inl habsolute)] at hlead
        subst hlead
        cases p with
        | nil => cases habsolute
        | cons x q =>
          obtain rfl : x = '/' := by rwa [isAbsolute_cons, beq_iff_eq] at habsolute
          rwa [named_slash_cons]
      | false =>
        have hleads : ¬(isAbsolute p = true ∨ p = ['.'] ∨ ['.', '/'].isPrefixOf p = true) := by
          rw [habsolute]
          exact not_or.2 ⟨Bool.false_ne_true, hdot⟩
        rw [if_neg hleads] at hlead
        subst hlead
        exact absurd (leads_of_named hp hnamed) hleads
  · rw [if_neg hbody] at h
    cases h

end ScriptHost.Path.Chars
