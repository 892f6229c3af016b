/-!
# UTF-8

Characters to bytes and back. A byte string is read character by character; where no character
can be read, the longest start of one that is there, or else a single byte, is passed over.

## Main definitions

* `Text.encodeUtf8`: the bytes of a text.
* `Text.scalars`: the characters of a byte string, `none` for each ill-formed part.
* `Text.decodeUtf8`: the text of a byte string, ill-formed parts replaced by U+FFFD.
* `Text.decodeUtf8?`: the text of a well-formed byte string.
-/

namespace ScriptHost.Text

/-- The UTF-8 bytes of a text. -/
def encodeUtf8 (s : String) : List UInt8 := s.toList.flatMap String.utf8EncodeChar

/-- How many bytes follow a first byte; `none` if no character starts with it. -/
def tailLength (b : UInt8) : Option Nat :=
  if b < 0x80 then some 0
  else if 0xc2 ≤ b && b ≤ 0xdf then some 1
  else if 0xe0 ≤ b && b ≤ 0xef then some 2
  else if 0xf0 ≤ b && b ≤ 0xf4 then some 3
  else none

/-- Whether `b` may be the second byte of a character that starts with `a`: overlong forms,
surrogates and values beyond U+10FFFF are excluded here. -/
def isSecond (a b : UInt8) : Bool :=
  if a == 0xe0 then 0xa0 ≤ b && b ≤ 0xbf
  else if a == 0xed then 0x80 ≤ b && b ≤ 0x9f
  else if a == 0xf0 then 0x90 ≤ b && b ≤ 0xbf
  else if a == 0xf4 then 0x80 ≤ b && b ≤ 0x8f
  else 0x80 ≤ b && b ≤ 0xbf

/-- Whether a byte may be the third or fourth of a character. -/
def isTail (b : UInt8) : Bool := 0x80 ≤ b && b ≤ 0xbf

/-- The longest start of `bs` that may follow the first byte `a` of a character of `n` further
bytes. -/
def tailOf (a : UInt8) (n : Nat) (bs : List UInt8) : List UInt8 :=
  match n, bs with
  | n + 1, b :: bs => if isSecond a b then b :: (bs.take n).takeWhile isTail else []
  | _, _ => []

/-- The bits of a first byte that belong to the character. -/
def leadBits (a : UInt8) (n : Nat) : Nat :=
  match n with
  | 0 => a.toNat
  | 1 => a.toNat % 0x20
  | 2 => a.toNat % 0x10
  | _ => a.toNat % 0x08

/-- The character at the front of `a :: bs`, and how many bytes of `bs` are passed over with `a`. -/
def firstScalar (a : UInt8) (bs : List UInt8) : Option Char × Nat :=
  match tailLength a with
  | none => (none, 0)
  | some n =>
    let tail := tailOf a n bs
    if tail.length = n then
      (some (Char.ofNat (tail.foldl (fun v b => v * 0x40 + b.toNat % 0x40) (leadBits a n))), n)
    else (none, tail.length)

/-- The characters of a byte string, `none` for each ill-formed part. -/
def scalars : List UInt8 → List (Option Char)
  | [] => []
  | a :: bs => (firstScalar a bs).1 :: scalars (bs.drop (firstScalar a bs).2)
termination_by bs => bs.length
decreasing_by simp only [List.length_drop, List.length_cons]; omega

/-- The text of a byte string, each ill-formed part replaced by U+FFFD. -/
def decodeUtf8 (bs : List UInt8) : String :=
  String.ofList ((scalars bs).map fun c => c.getD '\ufffd')

/-- The text of a well-formed byte string. -/
def decodeUtf8? (bs : List UInt8) : Option String :=
  ((scalars bs).mapM id).map String.ofList

end ScriptHost.Text
