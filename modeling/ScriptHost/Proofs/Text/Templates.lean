import ScriptHost.Native.Rendering
import Mathlib.Data.List.Basic

/-!
# Templates with their arguments

A template is read from left to right. Two percent signs are one, a percent sign with the letter of
a directive behind it is that directive, and any other percent sign stands for itself, at the end as
well. A template reads in one way alone.

The arguments are rendered first to last, each once: under the directive that stands at its place
among the directives, or as an extra one if there is no such directive. Nothing else is done; how
the texts that come back stand in the result is settled by the template. A directive without an
argument stands there as it was written, and an extra argument comes behind a space at the end.

## Main definitions

* `Text.Directive.letters`: the letters that a directive is written with.
* `Text.Reads`: what a template says.
* `Text.calls`: what is rendered, and how.
* `Text.output`: the result with the rendered arguments.

## Main results

* `Text.reads_iff`: a template reads in one way.
* `Text.format_eq`: formatting is rendering, and then putting the result together.
* `Text.format_doubled`: percent signs that are doubled are put out as they were.
* `Text.format_rendersOnce`: the above in one.
-/

namespace ScriptHost.Text

/-! ### Reading a template -/

/-- The letters that a directive is written with. -/
def Directive.letters : Directive → List Char
  | string => ['s']
  | number => ['d']
  | integer => ['i']
  | float => ['f']
  | json => ['j']
  | object => ['o', 'O']
  | extra => []

theorem Directive.ofLetter?_eq_some_iff {c : Char} {d : Directive} :
    ofLetter? c = some d ↔ c ∈ d.letters := by
  constructor
  · intro h
    unfold ofLetter? at h
    split at h <;> cases h <;> decide
  · intro h
    cases d with
    | object =>
      rcases List.mem_pair.1 h with rfl | rfl <;> rfl
    | extra => cases h
    | _ =>
      obtain rfl := List.mem_singleton.1 h
      rfl

theorem Directive.ofLetter?_eq_none_iff {c : Char} :
    ofLetter? c = none ↔ ∀ d : Directive, c ∉ d.letters := by
  simp only [← ofLetter?_eq_some_iff, Option.eq_none_iff_forall_ne_some, ne_eq]

/-- What a template says, read from left to right. -/
inductive Reads : List Char → List Token → Prop
  | nil : Reads [] []
  | char {c : Char} {cs : List Char} {ts : List Token} (hc : c ≠ '%') (rest : Reads cs ts) :
    Reads (c :: cs) (.char c :: ts)
  | percent {cs : List Char} {ts : List Token} (rest : Reads cs ts) :
    Reads ('%' :: '%' :: cs) (.char '%' :: ts)
  | directive {c : Char} {cs : List Char} {ts : List Token} {d : Directive} (hc : c ∈ d.letters)
    (rest : Reads cs ts) : Reads ('%' :: c :: cs) (.directive d c :: ts)
  | lone {cs : List Char} {ts : List Token}
    (hcs : ∀ c, cs.head? = some c → c ≠ '%' ∧ ∀ d : Directive, c ∉ d.letters)
    (rest : Reads cs ts) : Reads ('%' :: cs) (.char '%' :: ts)

theorem reads_tokens (cs : List Char) : Reads cs (tokens cs) := by
  induction cs using tokens.induct with
  | case1 =>
    rw [tokens]
    exact .nil
  | case2 =>
    rw [tokens]
    exact .lone (by simp) .nil
  | case3 cs ih =>
    rw [tokens]
    exact .percent ih
  | case4 c cs hc d hd ih =>
    rw [tokens, hd]
    · exact .directive (Directive.ofLetter?_eq_some_iff.1 hd) ih
    · exact hc
  | case5 c cs hc hd ih =>
    rw [tokens, hd]
    · refine .lone ?_ ih
      rintro _ ⟨⟩
      exact ⟨hc, Directive.ofLetter?_eq_none_iff.1 hd⟩
    · exact hc
  | case6 c cs hlast hpercent hnext ih =>
    rw [tokens]
    · refine .char ?_ ih
      rintro rfl
      cases cs with
      | nil => exact hlast rfl rfl
      | cons c' cs' => exact hnext c' cs' rfl rfl
    · exact hlast
    · exact hpercent
    · exact hnext

theorem Reads.eq_tokens {cs : List Char} {ts : List Token} (h : Reads cs ts) : ts = tokens cs := by
  induction h with
  | nil => rw [tokens]
  | @char c cs ts hc _ ih =>
    rw [tokens, ih] <;> intros <;> contradiction
  | percent _ ih => rw [tokens, ih]
  | @directive c cs ts d hc _ ih =>
    have hne : c = '%' → False := by
      rintro rfl
      cases d <;> revert hc <;> decide
    rw [tokens, Directive.ofLetter?_eq_some_iff.2 hc, ih]
    exact hne
  | @lone cs ts hcs _ ih =>
    cases cs with
    | nil => rw [ih, tokens, tokens]
    | cons c cs =>
      obtain ⟨hc, hletters⟩ := hcs c rfl
      rw [tokens, Directive.ofLetter?_eq_none_iff.2 hletters, ih]
      exact hc

/-- A template reads in one way. -/
theorem reads_iff {cs : List Char} {ts : List Token} : Reads cs ts ↔ ts = tokens cs :=
  ⟨Reads.eq_tokens, fun h => h ▸ reads_tokens cs⟩

/-! ### Directives and their arguments -/

/-- The directives of a template with their letters, in order. -/
def directives (ts : List Token) : List (Directive × Char) :=
  ts.filterMap fun
    | .char _ => none
    | .directive d letter => some (d, letter)

@[simp]
theorem directives_char (c : Char) (ts : List Token) :
    directives (.char c :: ts) = directives ts := rfl

@[simp]
theorem directives_directive (d : Directive) (letter : Char) (ts : List Token) :
    directives (.directive d letter :: ts) = (d, letter) :: directives ts := rfl

/-- How the argument at an index is rendered: by the directive at that index, or as an extra one. -/
def kindAt (ts : List Token) (i : Nat) : Directive := ((directives ts)[i]?).elim .extra Prod.fst

variable {α : Type}

/-- What is rendered, and how: every argument once, in order. -/
def calls (ts : List Token) (args : List α) : List (Directive × α) :=
  args.mapIdx fun i a => (kindAt ts i, a)

/-- What stands for the token at a position: a character for itself, and a directive for the text at
its index among the directives, or for itself if there are not so many texts. -/
def textAt (ts : List Token) (texts : List String) (k : Nat) : String :=
  match ts[k]? with
  | none => ""
  | some (.char c) => String.singleton c
  | some (.directive _ letter) =>
    (texts[(directives (ts.take k)).length]?).getD (String.ofList ['%', letter])

/-- The result with the rendered arguments: each token's text, and then the texts for which there is
no directive, each behind a space. -/
def output (ts : List Token) (texts : List String) : String :=
  String.join ((List.range ts.length).map (textAt ts texts)) ++
    String.join ((texts.drop (directives ts).length).map (" " ++ ·))

@[simp]
theorem calls_nil (ts : List Token) : calls ts ([] : List α) = [] := rfl

@[simp]
theorem calls_char (c : Char) (ts : List Token) (args : List α) :
    calls (.char c :: ts) args = calls ts args := rfl

theorem calls_of_nil (a : α) (args : List α) :
    calls [] (a :: args) = (.extra, a) :: calls [] args := by
  rw [calls, List.mapIdx_cons]
  rfl

theorem calls_directive (d : Directive) (letter : Char) (ts : List Token) (a : α) (args : List α) :
    calls (.directive d letter :: ts) (a :: args) = (d, a) :: calls ts args := by
  rw [calls, List.mapIdx_cons]
  rfl

/-- A token is passed over together with the text that it takes. -/
theorem textAt_cons_succ (t : Token) (ts : List Token) (texts : List String) (k : Nat) :
    textAt (t :: ts) texts (k + 1) = textAt ts (texts.drop (directives [t]).length) k := by
  cases t with
  | char c => rfl
  | directive d letter =>
    simp only [textAt, List.getElem?_cons_succ, List.take_succ_cons, directives_directive,
      List.length_cons, List.getElem?_drop]
    rw [Nat.add_comm]
    rfl

theorem output_cons (t : Token) (ts : List Token) (texts : List String) :
    output (t :: ts) texts =
      textAt (t :: ts) texts 0 ++ output ts (texts.drop (directives [t]).length) := by
  have hlength : (directives (t :: ts)).length =
      (directives [t]).length + (directives ts).length := by
    cases t <;> simp [directives, Nat.add_comm]
  rw [output, output, List.length_cons, List.range_succ_eq_map, List.map_cons, List.map_map,
    String.join_cons, hlength, ← List.drop_drop, String.append_assoc]
  congr 4
  funext k
  exact textAt_cons_succ t ts texts k

@[simp]
theorem output_char (c : Char) (ts : List Token) (texts : List String) :
    output (.char c :: ts) texts = String.singleton c ++ output ts texts := output_cons ..

theorem output_directive_cons (d : Directive) (letter : Char) (ts : List Token) (text : String)
    (texts : List String) : output (.directive d letter :: ts) (text :: texts) =
      text ++ output ts texts := output_cons ..

theorem output_directive_nil (d : Directive) (letter : Char) (ts : List Token) :
    output (.directive d letter :: ts) [] = String.ofList ['%', letter] ++ output ts [] :=
  output_cons ..

@[simp]
theorem output_nil_nil : output [] [] = "" := rfl

theorem output_nil_cons (text : String) (texts : List String) :
    output [] (text :: texts) = " " ++ (text ++ output [] texts) := by
  simp [output, directives, String.append_assoc]

/-! ### Formatting -/

section Formatting

variable {m : Type → Type} [Monad m]

/-- The text of a piece. -/
def Piece.text (render : Directive → α → m String) : Piece α → m String
  | .literal s => pure s
  | .argument d a => render d a

variable [LawfulMonad m] (render : Directive → α → m String)

theorem join_literal (s : String) (ps : List (Piece α)) :
    String.join <$> (.literal s :: ps).mapM (Piece.text render) =
      (s ++ ·) <$> String.join <$> ps.mapM (Piece.text render) := by
  simp [Piece.text]

theorem join_argument (d : Directive) (a : α) (ps : List (Piece α)) :
    String.join <$> (.argument d a :: ps).mapM (Piece.text render) =
      render d a >>= fun s => (s ++ ·) <$> String.join <$> ps.mapM (Piece.text render) := by
  simp [Piece.text]

/-- The pieces of a template put together are the result with the rendered arguments. -/
theorem join_fill (ts : List Token) (args : List α) :
    String.join <$> (fill ts args).mapM (Piece.text render) =
      output ts <$> (calls ts args).mapM fun call => render call.1 call.2 := by
  induction ts generalizing args with
  | nil =>
    induction args with
    | nil => simp [fill]
    | cons a args ih =>
      have hfill : fill [] (a :: args) = .literal " " :: .argument .extra a :: fill [] args := rfl
      rw [hfill, join_literal, join_argument, ih, calls_of_nil]
      simp [output_nil_cons]
  | cons t ts ih =>
    cases t with
    | char c =>
      rw [fill, join_literal, ih, calls_char, funext (output_char c ts)]
      exact (comp_map (output ts) (String.singleton c ++ ·) _).symm
    | directive d letter =>
      cases args with
      | nil =>
        rw [fill, join_literal, ih]
        simp [output_directive_nil]
      | cons a args =>
        rw [fill, join_argument, ih, calls_directive]
        simp [output_directive_cons]

/-- Formatting renders the arguments in order, and then puts the result together. -/
theorem format_eq (template : String) (args : List α) :
    format render template args =
      output (tokens template.toList) <$>
        (calls (tokens template.toList) args).mapM fun call => render call.1 call.2 := by
  rw [← join_fill, ← bind_pure_comp]
  rfl

/-- A text with each percent sign doubled. -/
def doubled (s : String) : String :=
  String.ofList (s.toList.flatMap fun c => if c = '%' then ['%', '%'] else [c])

theorem tokens_doubled (cs : List Char) :
    tokens (cs.flatMap fun c => if c = '%' then ['%', '%'] else [c]) = cs.map .char := by
  symm
  refine Reads.eq_tokens ?_
  induction cs with
  | nil => exact .nil
  | cons c cs ih =>
    by_cases hc : c = '%'
    · subst hc
      exact .percent ih
    · rw [List.flatMap_cons, if_neg hc]
      exact .char hc ih

theorem output_chars (cs : List Char) : output (cs.map .char) [] = String.ofList cs := by
  induction cs with
  | nil => rfl
  | cons c cs ih =>
    rw [List.map_cons, output_char, ih, String.ofList_cons]

/-- Percent signs that are doubled are put out as they were. -/
theorem format_doubled (s : String) : format render (doubled s) [] = pure s := by
  rw [format_eq, doubled, String.toList_ofList, tokens_doubled, calls_nil]
  simp [output_chars]

/-! ### Lines -/

/-- A line whose first argument is a text is that template with the other arguments. -/
theorem join_lineOf {E : Engine} {first : E.Value} {template : String}
    (hfirst : E.asString first = some template) (rest : List E.Value)
    (render : Directive → E.Value → m String) :
    String.join <$> (Rendering.lineOf E (first :: rest)).mapM (Piece.text render) =
      format render template rest := by
  rw [Rendering.lineOf, hfirst, format_eq]
  exact join_fill render _ rest

/-- A template reads in one way. Formatting renders every argument once, in order, under the
directive at its index or as an extra one, and does nothing else; the result is the template with
the rendered arguments, directives without one as they were and extra arguments behind it. So it is
too for a line whose first argument is a text. Percent signs that are doubled are put out as they
were. -/
theorem format_rendersOnce (render : Directive → α → m String) (template : String)
    (args : List α) :
    ∃ ts, (∀ ts', Reads template.toList ts' ↔ ts' = ts) ∧
      (format render template args =
        output ts <$> (calls ts args).mapM fun call => render call.1 call.2) ∧
      (∀ (E : Engine) (first : E.Value) (rest : List E.Value)
        (renderValue : Directive → E.Value → m String), E.asString first = some template →
        String.join <$> (Rendering.lineOf E (first :: rest)).mapM (Piece.text renderValue) =
          output ts <$> (calls ts rest).mapM fun call => renderValue call.1 call.2) ∧
      ∀ text, format render (doubled text) [] = pure text := by
  refine ⟨tokens template.toList, fun _ => reads_iff, format_eq render template args, ?_,
    format_doubled render⟩
  intro E first rest renderValue hfirst
  rw [join_lineOf hfirst, format_eq]

/-- Two directives, a lone percent sign at the end and three arguments, with a renderer that keeps
account of its calls. -/
theorem format_rendersOnce_account :
    let render : Directive → Nat → StateM (List (Directive × Nat)) String :=
      fun d n => do
        modify (· ++ [(d, n)])
        return n.repr
    (format render "%s%%s %d%" [1, 2, 3]).run [] =
      ("1%s 2% 3", [(.string, 1), (.number, 2), (.extra, 3)]) := by
  intro render
  obtain ⟨ts, hts, hformat, -⟩ := format_rendersOnce render "%s%%s %d%" [1, 2, 3]
  obtain rfl : [.directive .string 's', .char '%', .char 's', .char ' ', .directive .number 'd',
      .char '%'] = ts := by
    refine (hts _).1 (.directive (by decide) (.percent (.char (by decide) (.char (by decide)
      (.directive (by decide) (.lone (by simp) .nil))))))
  rw [hformat]
  rfl

end Formatting

end ScriptHost.Text
