import ScriptHost.Proofs.Path.LastComponent

/-!
# The ending of a name

The ending of a path is that of its last component: from its last dot on, if there is a character
in front of this dot. A dot in front of all others therefore starts no ending, and neither does the
single dot; the component `..` is not exempt, its second dot is its ending. Taking the ending off
the last component leaves what stands in front of it, since the component is never the ending alone.

## Main definitions

* `Path.Chars.HasEnding`: how a name divides into what stands in front and its ending.

## Main results

* `Path.Chars.hasEnding_extname`: the last component divides so.
* `Path.Chars.basenameWithout_append_of_hasEnding`: an ending that is taken off can be put back.
* `Path.basename_extname`: the above in one.
-/

namespace ScriptHost.Path

namespace Chars

variable {p name ending : List Char}

/-- How a name ends: without an ending if no dot has a character in front of it, and otherwise with
what follows the last of these dots, the dot included. -/
inductive HasEnding : List Char → List Char → Prop
  | without {name : List Char} (h : '.' ∉ name.drop 1) : HasEnding name []
  | dotted {c : Char} (stem : List Char) {rest : List Char} (h : '.' ∉ rest) :
    HasEnding (c :: stem ++ '.' :: rest) ('.' :: rest)

theorem HasEnding.eq_nil_iff (h : HasEnding name ending) : ending = [] ↔ '.' ∉ name.drop 1 := by
  cases h with
  | without h => exact iff_of_true rfl h
  | dotted stem h => simp

theorem HasEnding.of_twoDots (h : HasEnding ['.', '.'] ending) : ending = ['.'] := by
  generalize hname : ['.', '.'] = name at h
  cases h with
  | without h => exact absurd (by simp [← hname]) h
  | @dotted c stem rest h =>
    obtain ⟨-, rfl, rfl⟩ : c = '.' ∧ stem = [] ∧ rest = [] := by
      simpa [List.append_eq_singleton_iff, eq_comm] using hname
    rfl

/-- A dot that has none behind it is the last one. -/
theorem fromLastDot_append {rest : List Char} (stem : List Char) (h : '.' ∉ rest) :
    fromLastDot (stem ++ '.' :: rest) = '.' :: rest := by
  have hdot : '.' ∈ stem ++ '.' :: rest := List.mem_append_right _ (List.mem_cons_self ..)
  have hreverse : (stem ++ '.' :: rest).reverse = rest.reverse ++ '.' :: stem.reverse := by simp
  have hbehind : ∀ c ∈ rest.reverse, decide (c ≠ '.') = true := by
    intro c hc
    rw [decide_eq_true_iff]
    rintro rfl
    exact h (List.mem_reverse.1 hc)
  rw [fromLastDot, if_pos (List.contains_iff_mem.2 hdot), hreverse,
    List.takeWhile_append_of_pos hbehind, List.takeWhile_cons_of_neg (by simp), List.append_nil,
    List.reverse_reverse]

/-- The last component divides into what stands in front and its ending. -/
theorem hasEnding_extname (p : List Char) : HasEnding (basename p) (extname p) := by
  rw [extname]
  generalize basename p = name
  by_cases hdot : '.' ∈ name
  · obtain ⟨rest, stem, hreverse, hrest⟩ := List.eq_append_cons_of_mem (List.mem_reverse.2 hdot)
    obtain rfl : name = stem.reverse ++ '.' :: rest.reverse := by
      rw [← List.reverse_reverse name, hreverse]
      simp
    have hbehind : '.' ∉ rest.reverse := fun h => hrest (List.mem_reverse.1 h)
    rw [fromLastDot_append _ hbehind]
    rcases stem.reverse with _ | ⟨c, front⟩
    · rw [List.nil_append, if_pos rfl]
      exact .without hbehind
    · have hshorter :
          ('.' :: rest.reverse).length ≠ (c :: front ++ '.' :: rest.reverse).length := by
        simp only [List.length_append, List.length_cons]
        omega
      rw [if_neg hshorter]
      exact .dotted front hbehind
  · have hnone : fromLastDot name = [] := by simp [fromLastDot, hdot]
    rw [hnone, ite_self]
    exact .without fun h => hdot (List.mem_of_mem_drop h)

/-- An ending that is taken off can be put back. -/
theorem basenameWithout_append_of_hasEnding (h : HasEnding (basename p) ending) :
    basenameWithout p ending ++ ending = basename p := by
  rw [basenameWithout]
  generalize basename p = name at h
  cases h with
  | without h => simp
  | @dotted c stem rest h =>
    have hsuffix : ('.' :: rest).isSuffixOf (c :: stem ++ '.' :: rest) = true :=
      List.isSuffixOf_iff_suffix.2 (List.suffix_append ..)
    have hne : c :: stem ++ '.' :: rest ≠ '.' :: rest :=
      fun he => List.cons_ne_nil c stem (List.self_eq_append_left.1 he.symm)
    rw [if_pos ⟨List.cons_ne_nil _ _, hne, hsuffix⟩, List.length_append, Nat.add_sub_cancel,
      List.take_left]

end Chars

/-- The last component of a path without its ending, followed by the ending, is the last component.
The ending is empty exactly if no dot of the component has a character in front of it, and otherwise
it goes from the last dot to the end of the component, with no slash in it. So the component `..`
has an ending, which is a dot; this apart, the ending is empty exactly for `.`, `..` and components
that have no dot behind their first character. -/
theorem basename_extname (p : String) :
    let name := basename p none
    let ending := extname p
    basename p (some ending) ++ ending = name ∧
      (ending = "" ↔ '.' ∉ name.toList.drop 1) ∧
      (ending = "" ∨ ∃ stem rest, stem ≠ [] ∧ name.toList = stem ++ '.' :: rest ∧
        ending.toList = '.' :: rest ∧ '.' ∉ rest ∧ '/' ∉ rest) ∧
      (name = ".." ∧ ending = "." ∨
        name ≠ ".." ∧ (ending = "" ↔ name = "." ∨ name = ".." ∨ '.' ∉ name.toList.drop 1)) := by
  intro name ending
  have hname : name.toList = Chars.basename p.toList := String.toList_ofList
  have hending : ending.toList = Chars.extname p.toList := String.toList_ofList
  have hends : Chars.HasEnding name.toList ending.toList := by
    rw [hname, hending]
    exact Chars.hasEnding_extname p.toList
  have hempty : ending = "" ↔ '.' ∉ name.toList.drop 1 := by
    rw [← hends.eq_nil_iff, String.toList_eq_nil_iff]
  refine ⟨?_, hempty, ?_, ?_⟩
  · rw [← String.toList_inj, String.toList_append, basename, String.toList_ofList, hname]
    rw [hname] at hends
    exact Chars.basenameWithout_append_of_hasEnding hends
  · have hslash : '/' ∉ name.toList := hname ▸ Chars.slash_notMem_basename p.toList
    generalize name.toList = cs at hends hslash
    generalize hcs' : ending.toList = cs' at hends
    cases hends with
    | without h => exact .inl (String.toList_eq_nil_iff.1 hcs')
    | @dotted c stem rest h =>
      refine .inr ⟨c :: stem, rest, List.cons_ne_nil _ _, rfl, rfl, h, fun hrest => hslash ?_⟩
      exact List.mem_append_right _ (List.mem_cons_of_mem _ hrest)
  · by_cases htwo : name = ".."
    · have hlist : name.toList = ['.', '.'] := congrArg String.toList htwo
      rw [hlist] at hends
      exact .inl ⟨htwo, String.toList_inj.1 hends.of_twoDots⟩
    · refine .inr ⟨htwo, hempty.trans ⟨fun h => .inr (.inr h), ?_⟩⟩
      rintro (hone | htwo' | h)
      · rw [hone]
        decide
      · exact absurd htwo' htwo
      · exact h

/-- The component `..` has an ending. -/
theorem extname_twoDots : basename ".." none = ".." ∧ extname ".." ≠ "" := by
  decide +kernel

end ScriptHost.Path
