/-!
# Lexical paths

Paths as text: components between slashes, read without looking at any file. The operations of
`Path.Chars` work on the characters; those of `Path` are the same on strings.

## Main definitions

* `Path.Chars.normalize`: the canonical form of a path.
* `Path.join`, `Path.resolveFrom`, `Path.relativeFrom`: building paths from paths.
* `Path.basename`, `Path.dirname`, `Path.extname`: taking a path apart.
* `Path.parent?`: the text of a path without its last component.
* `Path.beneath`: a path as seen from a directory.
* `Path.isSpecifier`: whether a module specifier is a path.
-/

namespace ScriptHost.Path

namespace Chars

/-- Whether a path starts at the root. -/
def isAbsolute : List Char → Bool
  | '/' :: _ => true
  | _ => false

/-- Whether a path ends in a slash. -/
def endsInSlash (p : List Char) : Bool := p.getLast? == some '/'

/-- The path without its trailing slashes. -/
def trimEnd (p : List Char) : List Char := (p.reverse.dropWhile (· == '/')).reverse

/-- Components put together with single slashes. -/
def glue (cs : List (List Char)) : List Char := List.intercalate ['/'] cs

/-- One component applied to the components so far, innermost first. An empty component and `.`
stay, and `..` goes up; above the root it stays too, and above a relative start it is kept. -/
def enter (absolute : Bool) (stack : List (List Char)) (c : List Char) : List (List Char) :=
  if c = [] ∨ c = ['.'] then stack
  else if c = ['.', '.'] then
    match stack with
    | top :: below =>
      if top ≠ ['.', '.'] then below else if absolute then stack else c :: stack
    | [] => if absolute then [] else [c]
  else c :: stack

/-- The components that remain of a path when each `.` and `..` has been applied. -/
def reduced (p : List Char) : List (List Char) :=
  ((p.splitOn '/').foldl (enter (isAbsolute p)) []).reverse

/-- The canonical form of a path. An empty result is `.`, and a trailing slash is kept. -/
def normalize (p : List Char) : List Char :=
  if p = [] then ['.']
  else
    let r := if isAbsolute p then '/' :: glue (reduced p) else glue (reduced p)
    let r := if r = [] then ['.'] else r
    if endsInSlash p && !endsInSlash r then r ++ ['/'] else r

/-- The canonical form of the non-empty parts put together. -/
def join (ps : List (List Char)) : List Char := normalize (glue (ps.filter (· ≠ [])))

/-- The parts from the last absolute one on, given in reverse order; `cwd` stands before them if
none is absolute. -/
def fromLastAbsolute (cwd : List Char) : List (List Char) → List (List Char)
  | [] => [cwd]
  | p :: ps => if isAbsolute p then [p] else fromLastAbsolute cwd ps ++ [p]

/-- Where a sequence of paths leads from `cwd`, each taken from where the one before it led. -/
def resolveFrom (cwd : List Char) (ps : List (List Char)) : List Char :=
  let r := normalize (glue (fromLastAbsolute cwd (ps.filter (· ≠ [])).reverse))
  if endsInSlash r && r.length ≠ 1 then r.dropLast else r

/-- The components of a path that are not empty. -/
def named (p : List Char) : List (List Char) := (p.splitOn '/').filter (· ≠ [])

/-- The two lists without the start that they share. -/
def dropShared : List (List Char) → List (List Char) → List (List Char) × List (List Char)
  | a :: as, b :: bs => if a = b then dropShared as bs else (a :: as, b :: bs)
  | as, bs => (as, bs)

/-- The path that leads from where `source` leads to where `target` leads, both from `cwd`: up to
the directory that they share and down again. -/
def relativeFrom (cwd source target : List Char) : List Char :=
  let s := resolveFrom cwd [source]
  let t := resolveFrom cwd [target]
  if s = t then []
  else
    let (up, down) := dropShared (named s) (named t)
    glue (up.map (fun _ => ['.', '.']) ++ down)

/-- The characters after the last slash. -/
def afterLastSlash (p : List Char) : List Char := (p.reverse.takeWhile (· ≠ '/')).reverse

/-- The last component of a path. -/
def basename (p : List Char) : List Char := afterLastSlash (trimEnd p)

/-- The last component without the ending `ext`, unless it is nothing but the ending. -/
def basenameWithout (p ext : List Char) : List Char :=
  let name := basename p
  if ext ≠ [] ∧ name ≠ ext ∧ ext.isSuffixOf name then name.take (name.length - ext.length) else name

/-- The path without its last component: `.` if that leaves nothing, `/` at the root. -/
def dirname (p : List Char) : List Char :=
  if p = [] then ['.']
  else
    let trimmed := trimEnd p
    if trimmed = [] then ['/']
    else if !trimmed.contains '/' then ['.']
    else
      let dir := trimEnd (trimmed.take (trimmed.length - (afterLastSlash trimmed).length))
      if dir = [] then ['/'] else dir

/-- The characters from the last dot on, nothing if there is none. -/
def fromLastDot (name : List Char) : List Char :=
  if name.contains '.' then '.' :: (name.reverse.takeWhile (· ≠ '.')).reverse else []

/-- The ending of the last component, from its last dot on; a dot in front starts no ending. -/
def extname (p : List Char) : List Char :=
  let name := basename p
  let ext := fromLastDot name
  if ext.length = name.length then [] else ext

/-- A reversed path without the empty and the `.` components at its end. -/
def dropIdle : List Char → List Char
  | [] => []
  | c :: cs =>
    let last := (c :: cs).takeWhile (· ≠ '/')
    if last = [] ∨ last = ['.'] then dropIdle (((c :: cs).dropWhile (· ≠ '/')).drop 1) else c :: cs
termination_by r => r.length
decreasing_by
  have h : ((c :: cs).dropWhile (· ≠ '/')).length ≤ (c :: cs).length :=
    (List.dropWhile_sublist _).length_le
  simp only [List.length_drop, List.length_cons] at h ⊢
  omega

/-- The text of a path without its last component that is neither empty nor `.`; `none` if no
component can be taken off. A leading `.` counts as a component. -/
def parent? (p : List Char) : Option (List Char) :=
  let leadsWithDot := p = ['.'] ∨ ['.', '/'].isPrefixOf p
  let lead := if isAbsolute p ∨ leadsWithDot then 1 else 0
  let body := dropIdle (p.drop lead).reverse
  if body = [] then (if leadsWithDot then some [] else none)
  else some (p.take lead ++ (dropIdle ((body.dropWhile (· ≠ '/')).drop 1)).reverse)

/-- The path `p` as seen from the directory `dir`. -/
def beneath (dir p : List Char) : List Char :=
  if isAbsolute p ∨ dir = [] then p
  else if endsInSlash dir then dir ++ p
  else dir ++ '/' :: p

/-- Whether a specifier is a path: absolute, or starting with a `.` or `..` component. -/
def isSpecifier (s : List Char) : Bool :=
  isAbsolute s || s == ['.'] || s == ['.', '.'] || ['.', '/'].isPrefixOf s ||
    ['.', '.', '/'].isPrefixOf s

end Chars

/-- The separator of components. -/
def separator : String := "/"

/-- The delimiter of a list of paths. -/
def delimiter : String := ":"

/-- Whether a path starts at the root. -/
def isAbsolute (p : String) : Bool := Chars.isAbsolute p.toList

/-- The canonical form of a path. -/
def normalize (p : String) : String := String.ofList (Chars.normalize p.toList)

/-- The canonical form of the non-empty parts put together. -/
def join (ps : List String) : String := String.ofList (Chars.join (ps.map String.toList))

/-- Where a sequence of paths leads from `cwd`. -/
def resolveFrom (cwd : String) (ps : List String) : String :=
  String.ofList (Chars.resolveFrom cwd.toList (ps.map String.toList))

/-- The path from where `source` leads to where `target` leads, both from `cwd`. -/
def relativeFrom (cwd source target : String) : String :=
  String.ofList (Chars.relativeFrom cwd.toList source.toList target.toList)

/-- The last component of a path, without the ending `ext` if one is given. -/
def basename (p : String) (ext : Option String) : String :=
  String.ofList (match ext with
    | none => Chars.basename p.toList
    | some e => Chars.basenameWithout p.toList e.toList)

/-- The path without its last component. -/
def dirname (p : String) : String := String.ofList (Chars.dirname p.toList)

/-- The ending of the last component. -/
def extname (p : String) : String := String.ofList (Chars.extname p.toList)

/-- The text of a path without its last component. -/
def parent? (p : String) : Option String := (Chars.parent? p.toList).map String.ofList

/-- The path `p` as seen from the directory `dir`. -/
def beneath (dir p : String) : String := String.ofList (Chars.beneath dir.toList p.toList)

/-- Whether a module specifier is a path. -/
def isSpecifier (s : String) : Bool := Chars.isSpecifier s.toList

end ScriptHost.Path
