/-!
# Format templates

A template is text with directives, each a percent sign and a letter. Arguments are laid out into
it from left to right: the first directive takes the first argument, and so on. `%%` is one percent
sign, and any other percent sign stands for itself.

## Main definitions

* `Directive`: how an argument is to be rendered.
* `Piece`: literal text, or an argument with its directive.
* `layout`: the pieces of a template with its arguments.
* `format`: the pieces rendered and put together.
-/

namespace ScriptHost.Text

/-- How an argument of a template is rendered. -/
inductive Directive where
  /-- `%s`: as a text. -/
  | string
  /-- `%d`: as a number. -/
  | number
  /-- `%i`: as the integer part of a number. -/
  | integer
  /-- `%f`: as a number. -/
  | float
  /-- `%j`: as JSON. -/
  | json
  /-- `%o` and `%O`: as its inspected form. -/
  | object
  /-- An argument that the template has no directive for. -/
  | extra
deriving DecidableEq

/-- The directive of a letter after a percent sign. -/
def Directive.ofLetter? : Char → Option Directive
  | 's' => some .string
  | 'd' => some .number
  | 'i' => some .integer
  | 'f' => some .float
  | 'j' => some .json
  | 'o' | 'O' => some .object
  | _ => none

/-- A part of a laid out template. -/
inductive Piece (α : Type) where
  /-- Text that stands as it is. -/
  | literal (s : String)
  /-- An argument to be rendered. -/
  | argument (d : Directive) (a : α)

/-- A template read from left to right. -/
inductive Token where
  /-- A character that stands for itself. -/
  | char (c : Char)
  /-- A directive with the letter that it was written with. -/
  | directive (d : Directive) (letter : Char)
deriving DecidableEq

/-- Splits a template into characters and directives. -/
def tokens : List Char → List Token
  | [] => []
  | ['%'] => [.char '%']
  | '%' :: '%' :: cs => .char '%' :: tokens cs
  | '%' :: c :: cs =>
    match Directive.ofLetter? c with
    | some d => .directive d c :: tokens cs
    | none => .char '%' :: tokens (c :: cs)
  | c :: cs => .char c :: tokens cs
termination_by cs => cs.length

variable {α : Type}

/-- Gives the directives their arguments. A directive without one is written out as it was, and
arguments without a directive follow, each behind a space. -/
def fill : List Token → List α → List (Piece α)
  | [], as => as.flatMap fun a => [.literal " ", .argument .extra a]
  | .char c :: ts, as => .literal (String.singleton c) :: fill ts as
  | .directive d _ :: ts, a :: as => .argument d a :: fill ts as
  | .directive _ c :: ts, [] => .literal (String.ofList ['%', c]) :: fill ts []

/-- The pieces of a template with its arguments. -/
def layout (template : String) (args : List α) : List (Piece α) :=
  fill (tokens template.toList) args

/-- The text of a template whose arguments are rendered by `render`, first to last. -/
def format {m : Type → Type} [Monad m] (render : Directive → α → m String) (template : String)
    (args : List α) : m String := do
  let texts ← (layout template args).mapM fun
    | .literal s => pure s
    | .argument d a => render d a
  return String.join texts

end ScriptHost.Text
