import ScriptHost.Text.Utf8

/-!
# Text encodings of byte strings

The three encodings that scripts name, and byte strings in hexadecimal.

## Main definitions

* `Encoding`: `utf8`, `ascii` and `latin1`; `Encoding.ofName?` knows their names.
* `Encoding.encode`, `Encoding.decode`: text to bytes and back.
* `slice`: the bytes between two indices.
* `toHex`, `ofHex?`: bytes as pairs of lower-case hexadecimal digits.
-/

namespace ScriptHost

/-- A byte string. -/
abbrev Bytes := List UInt8

/-- A text encoding. -/
inductive Encoding where
  /-- UTF-8. -/
  | utf8
  /-- One byte a character; reading clears the high bit. -/
  | ascii
  /-- One byte a character, the first 256 characters as they are numbered. -/
  | latin1
deriving DecidableEq

namespace Bytes

/-- An upper-case ASCII letter as its lower-case one, any other character as it is. -/
def lowerAscii (s : String) : String := String.ofList (s.toList.map Char.toLower)

/-- The bytes from index `start` up to index `stop`, both cut down to the length. -/
def slice (bs : Bytes) (start stop : Nat) : Bytes := (bs.take stop).drop start

/-- A hexadecimal digit. -/
def hexDigit (n : Nat) : Char := ("0123456789abcdef".toList[n]?).getD '0'

/-- The bytes as pairs of lower-case hexadecimal digits. -/
def toHex (bs : Bytes) : String :=
  String.ofList (bs.flatMap fun b => [hexDigit (b.toNat / 16), hexDigit (b.toNat % 16)])

/-- The value of a hexadecimal digit of either case. -/
def hexValue? (c : Char) : Option Nat :=
  if c.isDigit then some (c.toNat - '0'.toNat)
  else if 'a' ≤ c ∧ c ≤ 'f' then some (c.toNat - 'a'.toNat + 10)
  else if 'A' ≤ c ∧ c ≤ 'F' then some (c.toNat - 'A'.toNat + 10)
  else none

/-- Reads pairs of hexadecimal digits. -/
def ofHex? : List Char → Option Bytes
  | [] => some []
  | a :: b :: cs => do
    let a ← hexValue? a
    let b ← hexValue? b
    let bs ← ofHex? cs
    return UInt8.ofNat (16 * a + b) :: bs
  | _ => none

end Bytes

namespace Encoding

/-- The encoding of a name; ASCII case does not matter. -/
def ofName? (name : String) : Option Encoding :=
  match Bytes.lowerAscii name with
  | "utf8" | "utf-8" => some utf8
  | "ascii" => some ascii
  | "latin1" | "binary" => some latin1
  | _ => none

/-- The bytes of a text. The one-byte encodings keep the low eight bits of each character. -/
def encode (e : Encoding) (s : String) : Bytes :=
  match e with
  | utf8 => Text.encodeUtf8 s
  | ascii | latin1 => s.toList.map fun c => UInt8.ofNat c.toNat

/-- The text of a byte string. -/
def decode (e : Encoding) (bs : Bytes) : String :=
  match e with
  | utf8 => Text.decodeUtf8 bs
  | ascii => String.ofList (bs.map fun b => Char.ofNat (b.toNat % 128))
  | latin1 => String.ofList (bs.map fun b => Char.ofNat b.toNat)

end Encoding

end ScriptHost
