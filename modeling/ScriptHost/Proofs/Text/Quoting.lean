import ScriptHost.Host.Job
import ScriptHost.Script.Engine
import Mathlib.Algebra.Ring.Parity
import Mathlib.Data.List.DropRight

/-!
# Quoted texts are read back

The inside of a quoted text is made of pairs, a backslash with a backslash or a quote behind it, and
of other characters. So a run of backslashes at the end of an escaped text has an even length,
whatever the text: it consists of pairs. In front of a quote that belongs to the text stands such a
run with one backslash more, and in front of the quote that closes the text stands the run itself.
This tells the two apart. Reading each pair as its second character gives the text back.

## Main definitions

* `Text.unescape`: the text whose escaped form is given.
* `Text.backslashes`: how many backslashes a text ends in.

## Main results

* `Text.even_backslashes_escape`, `Text.odd_backslashes_of_escape`: the quotes are told apart.
* `Text.unescape_escape`, `Text.quote_injective`: nothing is lost.
* `Text.inspected_reads_back`: the above of the inspected form of a value that is a text.
-/

namespace ScriptHost.Text

variable {before after : List Char}

/-- Reads a backslash together with the character behind it as that character. -/
def unescape : List Char → List Char
  | '\\' :: c :: cs => c :: unescape cs
  | c :: cs => c :: unescape cs
  | [] => []

/-- How many backslashes there are at the end. -/
def backslashes (cs : List Char) : Nat := (cs.rtakeWhile (· = '\\')).length

/-! ### Escaped texts -/

/-- The characters that are written with a backslash before them. -/
def IsEscaped (c : Char) : Prop := c = '\\' ∨ c = '\''

theorem escape_cons_of_isEscaped {c : Char} (hc : IsEscaped c) (cs : List Char) :
    escape (c :: cs) = '\\' :: c :: escape cs := if_pos hc

theorem escape_cons_of_not_isEscaped {c : Char} (hc : ¬IsEscaped c) (cs : List Char) :
    escape (c :: cs) = c :: escape cs := if_neg hc

theorem escape_append (cs cs' : List Char) : escape (cs ++ cs') = escape cs ++ escape cs' := by
  induction cs with
  | nil => rfl
  | cons c cs ih =>
    by_cases hc : IsEscaped c
    · rw [List.cons_append, escape_cons_of_isEscaped hc, escape_cons_of_isEscaped hc, ih]
      rfl
    · rw [List.cons_append, escape_cons_of_not_isEscaped hc, escape_cons_of_not_isEscaped hc, ih]
      rfl

/-- An escaped text is read back. -/
theorem unescape_escape (cs : List Char) : unescape (escape cs) = cs := by
  induction cs with
  | nil => rfl
  | cons c cs ih =>
    by_cases hc : IsEscaped c
    · rw [escape_cons_of_isEscaped hc, unescape, ih]
    · rw [escape_cons_of_not_isEscaped hc, unescape, ih]
      rintro _ _ rfl -
      exact hc (.inl rfl)

/-- A quote in an escaped text is one of the text, with its backslash in front of it. -/
theorem exists_of_escape_eq {cs : List Char} (h : escape cs = before ++ '\'' :: after) :
    ∃ cs₁ cs₂, cs = cs₁ ++ '\'' :: cs₂ ∧ before = escape cs₁ ++ ['\\'] ∧ after = escape cs₂ := by
  induction cs generalizing before with
  | nil => simp [escape] at h
  | cons c cs ih =>
    by_cases hc : IsEscaped c
    · rw [escape_cons_of_isEscaped hc] at h
      -- The pair lies behind the quote, ends in it, or stands before it as a whole.
      rcases before with _ | ⟨b, _ | ⟨b', before⟩⟩
      · simp at h
      · obtain ⟨rfl, rfl, rfl⟩ : '\\' = b ∧ c = '\'' ∧ escape cs = after := by simpa using h
        exact ⟨[], cs, rfl, rfl, rfl⟩
      · obtain ⟨rfl, rfl, hrest⟩ : '\\' = b ∧ c = b' ∧ escape cs = before ++ '\'' :: after := by
          simpa using h
        obtain ⟨cs₁, cs₂, rfl, rfl, rfl⟩ := ih hrest
        exact ⟨c :: cs₁, cs₂, rfl, by rw [escape_cons_of_isEscaped hc]; rfl, rfl⟩
    · rw [escape_cons_of_not_isEscaped hc] at h
      rcases before with _ | ⟨b, before⟩
      · exact absurd (.inr (List.cons.inj h).1) hc
      · obtain ⟨rfl, hrest⟩ := List.cons.inj h
        obtain ⟨cs₁, cs₂, rfl, rfl, rfl⟩ := ih hrest
        exact ⟨c :: cs₁, cs₂, rfl, by rw [escape_cons_of_not_isEscaped hc]; rfl, rfl⟩

/-! ### Runs of backslashes -/

theorem backslashes_concat_backslash (cs : List Char) :
    backslashes (cs ++ ['\\']) = backslashes cs + 1 := by
  rw [backslashes, List.rtakeWhile_concat_pos _ _ _ (by decide), List.length_append]
  rfl

theorem backslashes_concat_of_ne {c : Char} (hc : c ≠ '\\') (cs : List Char) :
    backslashes (cs ++ [c]) = 0 := by
  rw [backslashes, List.rtakeWhile_concat_neg _ _ _ (by simpa using hc), List.length_nil]

/-- The backslashes at the end of an escaped text come in pairs. -/
theorem even_backslashes_escape (cs : List Char) : Even (backslashes (escape cs)) := by
  -- The end of the escaped text is what counts, so the text is taken apart from there.
  induction cs using List.reverseRecOn with
  | nil => exact Even.zero
  | append_singleton cs c ih =>
    rw [escape_append]
    by_cases hbackslash : c = '\\'
    · have hpair : escape cs ++ escape [c] = (escape cs ++ ['\\']) ++ ['\\'] := by
        rw [hbackslash, List.append_assoc]
        rfl
      rw [hpair, backslashes_concat_backslash, backslashes_concat_backslash]
      exact ih.add_one.add_one
    · have hlast : ∃ cs', escape cs ++ escape [c] = cs' ++ [c] := by
        by_cases hc : IsEscaped c
        · refine ⟨escape cs ++ ['\\'], ?_⟩
          rw [escape_cons_of_isEscaped hc, List.append_assoc]
          rfl
        · exact ⟨escape cs, by rw [escape_cons_of_not_isEscaped hc]; rfl⟩
      obtain ⟨cs', hcs'⟩ := hlast
      rw [hcs', backslashes_concat_of_ne hbackslash]
      exact Even.zero

/-- A quote of the text has an odd number of backslashes in front of it. -/
theorem odd_backslashes_of_escape {cs : List Char} (h : escape cs = before ++ '\'' :: after) :
    Odd (backslashes before) := by
  obtain ⟨cs₁, cs₂, -, rfl, -⟩ := exists_of_escape_eq h
  rw [backslashes_concat_backslash]
  exact (even_backslashes_escape cs₁).add_one

/-! ### Quoted texts -/

theorem toList_quote (s : String) : (quote s).toList = '\'' :: (escape s.toList ++ ['\'']) := by
  rw [quote, String.toList_ofList]
  rfl

/-- No two texts have one quoted form. -/
theorem quote_injective : Function.Injective quote := by
  intro s s' h
  have htoList := congrArg String.toList h
  rw [toList_quote, toList_quote] at htoList
  have hinside := List.append_cancel_right (List.cons.inj htoList).2
  rw [← String.toList_inj, ← unescape_escape s.toList, hinside, unescape_escape]

/-- A quoted text: quotes around an inside that is read back as the text, in which each quote has an
odd number of backslashes in front of it, while the closing one has an even number. -/
structure IsQuoted (s q : String) (inside : List Char) : Prop where
  toList : q.toList = '\'' :: (inside ++ ['\''])
  odd : ∀ before after, inside = before ++ '\'' :: after → Odd (backslashes before)
  even : Even (backslashes inside)
  unescape : unescape inside = s.toList

theorem isQuoted_quote (s : String) : IsQuoted s (quote s) (escape s.toList) where
  toList := toList_quote s
  odd _ _ h := odd_backslashes_of_escape h
  even := even_backslashes_escape s.toList
  unescape := unescape_escape s.toList

variable {E : Engine}

theorem inspected_of_asString {v : E.Value} {s : String} (hv : E.asString v = some s)
    (state : E.State) : Rendering.inspected E state v = .text (quote s) := by
  rw [Rendering.inspected, hv]

/-- The function that inspects a text has its quoted form as the result, after two steps. -/
theorem native_inspect {v : E.Value} {s : String} (hv : E.asString v = some s) (h : Host E)
    (j : Job E) (this : E.Value) (args : List E.Value) :
    (fun p => p.2.step p.1)^[2] (j.native h (.util .inspect) this (v :: args)) =
      (h, j.turnTo (.result (.ok (E.string (quote s))))) := by
  have hform : Rendering.form E h.engines v .object = .text (quote s) :=
    inspected_of_asString hv h.engines
  have hcall : j.native h (.util .inspect) this (v :: args) =
      (h, j.turnTo (.rendering ⟨[.argument .object v], "", .result⟩)) := rfl
  have hrender : (j.turnTo (.rendering ⟨[.argument .object v], "", .result⟩)).step h =
      (h, j.turnTo (.rendering ⟨[], quote s, .result⟩)) := by
    simp only [Job.step, Job.turnTo, Job.render, hform, Rendering.write, String.empty_append]
  rw [hcall, Function.iterate_succ_apply, Function.iterate_one]
  simp only [hrender]
  rfl

/-- The inspected form of a text is read back: it is the text in quotes, those inside of it can be
told from the closing one by the backslashes in front of them, and reading each backslash together
with the character behind it as that character gives the text. So no two texts have one inspected
form. A script that calls the function for inspecting gets this form. -/
theorem inspected_reads_back {v : E.Value} {s : String} (hv : E.asString v = some s) :
    (∃ q inside, IsQuoted s q inside ∧ (∀ state, Rendering.inspected E state v = .text q) ∧
      ∀ (h : Host E) (j : Job E) (this : E.Value) (args : List E.Value),
        (fun p => p.2.step p.1)^[2] (j.native h (.util .inspect) this (v :: args)) =
          (h, j.turnTo (.result (.ok (E.string q))))) ∧
    ∀ v' s' state state', E.asString v' = some s' →
      Rendering.inspected E state v = Rendering.inspected E state' v' → s = s' := by
  refine ⟨⟨quote s, _, isQuoted_quote s, inspected_of_asString hv, native_inspect hv⟩, ?_⟩
  intro v' s' state state' hv' h
  rw [inspected_of_asString hv, inspected_of_asString hv'] at h
  exact quote_injective (Rendering.Form.text.inj h)

/-- A quote behind a backslash in the middle of a text, and a backslash at its end. -/
theorem inspected_reads_back_form :
    ∃ inside, IsQuoted "\\'\\" "'\\\\\\'\\\\'" inside ∧
      Rendering.inspected Script.engine Script.State.empty (.string "\\'\\") =
        .text "'\\\\\\'\\\\'" := by
  obtain ⟨⟨q, inside, hquoted, hform, -⟩, -⟩ :=
    inspected_reads_back (E := Script.engine) (v := .string "\\'\\") (s := "\\'\\") rfl
  have hq : Rendering.inspected Script.engine Script.State.empty (.string "\\'\\") =
      .text "'\\\\\\'\\\\'" := by
    decide +kernel
  obtain rfl := Rendering.Form.text.inj ((hform _).symm.trans hq)
  exact ⟨inside, hquoted, hq⟩

end ScriptHost.Text
