/-!
# Quoted texts

A text between single quotes. A backslash and a quote inside are written with a backslash before
them.

## Main definitions

* `Text.escape`: the inside of the quoted form.
* `Text.quote`: the quoted form.
-/

namespace ScriptHost.Text

/-- Writes a backslash before each backslash and each single quote. -/
def escape : List Char → List Char
  | [] => []
  | c :: cs => if c = '\\' ∨ c = '\'' then '\\' :: c :: escape cs else c :: escape cs

/-- The text between single quotes. -/
def quote (s : String) : String := String.ofList ('\'' :: escape s.toList ++ ['\''])

end ScriptHost.Text
