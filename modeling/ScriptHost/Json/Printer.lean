import ScriptHost.Json.Value
import ScriptHost.Number.Shortest

/-!
# JSON text

Compact JSON text: no spaces, and of the characters only quotes, backslashes and control characters
escaped.

## Main definitions

* `Json.quote`: a text as a JSON string.
* `Json.print`: a value as JSON text.
-/

namespace ScriptHost.Json

/-- A character inside a JSON string. -/
def escapeChar (c : Char) : List Char :=
  if c = '"' then ['\\', '"']
  else if c = '\\' then ['\\', '\\']
  else if c = '\n' then ['\\', 'n']
  else if c = '\r' then ['\\', 'r']
  else if c = '\t' then ['\\', 't']
  else if c = '\x08' then ['\\', 'b']
  else if c = '\x0c' then ['\\', 'f']
  else if c.toNat < 0x20 then
    ['\\', 'u', '0', '0', Nat.digitChar (c.toNat / 16), Nat.digitChar (c.toNat % 16)]
  else [c]

/-- A text as a JSON string. -/
def quote (s : String) : String := "\"" ++ String.ofList (s.toList.flatMap escapeChar) ++ "\""

/-- A number with point or exponent. -/
def floatText (x : Double) : String :=
  if !x.isFinite then "null"
  else (if x.negative then "-" else "") ++
    (if x.isZero then "0.0" else x.shortest.scientific)

mutual

/-- A value as JSON text. -/
def print : Json → String
  | null => "null"
  | bool b => if b then "true" else "false"
  | int n => toString n
  | float x => floatText x
  | string s => quote s
  | array items => "[" ++ printItems items ++ "]"
  | object members => "\x7b" ++ printMembers members ++ "\x7d"

/-- The items of an array with commas between them. -/
def printItems : List Json → String
  | [] => ""
  | [v] => print v
  | v :: vs => print v ++ "," ++ printItems vs

/-- The members of an object with commas between them. -/
def printMembers : List (String × Json) → String
  | [] => ""
  | [(k, v)] => quote k ++ ":" ++ print v
  | (k, v) :: ms => quote k ++ ":" ++ print v ++ "," ++ printMembers ms

end

end ScriptHost.Json
