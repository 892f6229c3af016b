import ScriptHost.Text.Utf8
import Mathlib.Data.List.TakeWhile

/-!
# Well-formed byte strings

A byte string is well-formed if it is put together from sequences of one to four bytes, as the
Unicode standard lists them. The list leaves out overlong forms, surrogates and values beyond
U+10FFFF. These sequences are just the ones that characters are encoded as, and they are read again
as the characters that they encode, whatever bytes stand behind them. So well-formed byte strings
and texts correspond to each other.

## Main definitions

* `Text.IsSequence`: the sequences of bytes that encode one character.
* `Text.WellFormed`: well-formed byte strings.

## Main results

* `Text.decodeUtf8_encodeUtf8`: a text is read again from its bytes.
* `Text.wellFormed_iff`: the bytes of texts are the well-formed byte strings.
* `Text.encodeUtf8_decodeUtf8_iff`: just these are got back from the text that is read from them.
-/

namespace ScriptHost.Text

/-! ### Well-formed byte strings -/

/-- The sequences of bytes that encode one character, by their first byte and the ones behind it. -/
inductive IsSequence : UInt8 → List UInt8 → Prop
  /-- Up to U+007F. -/
  | one {a : UInt8} (ha : a ≤ 0x7f) : IsSequence a []
  /-- Up to U+07FF. -/
  | two {a b : UInt8} (ha : 0xc2 ≤ a ∧ a ≤ 0xdf) (hb : 0x80 ≤ b ∧ b ≤ 0xbf) : IsSequence a [b]
  /-- Up to U+FFFF. -/
  | three {a b c : UInt8} (ha : 0xe0 ≤ a ∧ a ≤ 0xef) (hb : 0x80 ≤ b ∧ b ≤ 0xbf)
      (hc : 0x80 ≤ c ∧ c ≤ 0xbf) (notOverlong : a = 0xe0 → 0xa0 ≤ b)
      (notSurrogate : a = 0xed → b ≤ 0x9f) : IsSequence a [b, c]
  /-- Up to U+10FFFF. -/
  | four {a b c d : UInt8} (ha : 0xf0 ≤ a ∧ a ≤ 0xf4) (hb : 0x80 ≤ b ∧ b ≤ 0xbf)
      (hc : 0x80 ≤ c ∧ c ≤ 0xbf) (hd : 0x80 ≤ d ∧ d ≤ 0xbf) (notOverlong : a = 0xf0 → 0x90 ≤ b)
      (notBeyond : a = 0xf4 → b ≤ 0x8f) : IsSequence a [b, c, d]

/-- Byte strings that are put together from sequences for one character each. -/
inductive WellFormed : List UInt8 → Prop
  | nil : WellFormed []
  | append {a : UInt8} {tail bs : List UInt8} (head : IsSequence a tail) (rest : WellFormed bs) :
      WellFormed (a :: tail ++ bs)

/-! ### Sequences and characters -/

/-- The number that the bits of a sequence are. -/
def codePoint (a : UInt8) (tail : List UInt8) : Nat :=
  tail.foldl (fun v b => v * 0x40 + b.toNat % 0x40) (leadBits a tail.length)

theorem val_ofNat {n : Nat} (h : n.isValidChar) : (Char.ofNat n).val.toNat = n := by
  rw [Char.ofNat, dif_pos h]
  rfl

variable {a : UInt8} {tail bs : List UInt8}

/-- A sequence is what the character is encoded as whose number its bits are. -/
theorem IsSequence.utf8EncodeChar_codePoint (h : IsSequence a tail) :
    String.utf8EncodeChar (Char.ofNat (codePoint a tail)) = a :: tail := by
  cases h <;> simp only [UInt8.le_iff_toNat_le, ← UInt8.toNat_inj, UInt8.reduceToNat] at *
  case one ha =>
    have hbits : codePoint a [] = a.toNat := rfl
    rw [String.utf8EncodeChar, val_ofNat (.inl (by omega)), if_pos (by omega), hbits,
      UInt8.ofNat_toNat]
  case two b ha hb =>
    have hbits : codePoint a [b] = a.toNat % 0x20 * 0x40 + b.toNat % 0x40 := rfl
    rw [String.utf8EncodeChar, val_ofNat (.inl (by omega)), if_neg (by omega), if_pos (by omega)]
    simp only [List.cons.injEq, ← UInt8.toNat_inj, UInt8.toNat_ofNat', and_true]
    omega
  case three b c ha hb hc notOverlong notSurrogate =>
    have hbits : codePoint a [b, c] =
        (a.toNat % 0x10 * 0x40 + b.toNat % 0x40) * 0x40 + c.toNat % 0x40 := rfl
    have hvalid : (codePoint a [b, c]).isValidChar := by
      rw [Nat.isValidChar]
      omega
    rw [String.utf8EncodeChar, val_ofNat hvalid, if_neg (by omega), if_neg (by omega),
      if_pos (by omega)]
    simp only [List.cons.injEq, ← UInt8.toNat_inj, UInt8.toNat_ofNat', and_true]
    omega
  case four b c d ha hb hc hd notOverlong notBeyond =>
    have hbits : codePoint a [b, c, d] =
        ((a.toNat % 0x08 * 0x40 + b.toNat % 0x40) * 0x40 + c.toNat % 0x40) * 0x40 +
          d.toNat % 0x40 := rfl
    have hvalid : (codePoint a [b, c, d]).isValidChar := by
      rw [Nat.isValidChar]
      omega
    rw [String.utf8EncodeChar, val_ofNat hvalid, if_neg (by omega), if_neg (by omega),
      if_neg (by omega)]
    simp only [List.cons.injEq, ← UInt8.toNat_inj, UInt8.toNat_ofNat', and_true]
    omega

/-- Every character is encoded as a sequence, whose bits are its number. -/
theorem exists_isSequence (c : Char) : ∃ a tail,
    String.utf8EncodeChar c = a :: tail ∧ IsSequence a tail ∧ codePoint a tail = c.toNat := by
  have hvalid : c.toNat < 0xd800 ∨ 0xdfff < c.toNat ∧ c.toNat < 0x110000 := c.valid
  rw [String.utf8EncodeChar, Char.toNat_val]
  split
  case isTrue =>
    refine ⟨_, _, rfl, .one ?_, ?_⟩
    all_goals simp [UInt8.le_iff_toNat_le, codePoint, leadBits]; omega
  split
  case isTrue =>
    refine ⟨_, _, rfl, .two ?_ ?_, ?_⟩
    all_goals simp [UInt8.le_iff_toNat_le, codePoint, leadBits]; omega
  split
  case isTrue =>
    refine ⟨_, _, rfl, .three ?_ ?_ ?_ ?_ ?_, ?_⟩
    all_goals simp [UInt8.le_iff_toNat_le, ← UInt8.toNat_inj, codePoint, leadBits]; omega
  case isFalse =>
    refine ⟨_, _, rfl, .four ?_ ?_ ?_ ?_ ?_ ?_, ?_⟩
    all_goals simp [UInt8.le_iff_toNat_le, ← UInt8.toNat_inj, codePoint, leadBits]; omega

/-! ### Reading a sequence -/

theorem IsSequence.tailLength_eq (h : IsSequence a tail) : tailLength a = some tail.length := by
  cases h <;> simp only [tailLength, UInt8.le_iff_toNat_le, UInt8.lt_iff_toNat_lt,
    UInt8.reduceToNat, Bool.and_eq_true, decide_eq_true_iff, List.length_cons, List.length_nil] at *
  case one => rw [if_pos (by omega)]
  case two => rw [if_neg (by omega), if_pos (by omega)]
  case three => rw [if_neg (by omega), if_neg (by omega), if_pos (by omega)]
  case four =>
    rw [if_neg (by omega), if_neg (by omega), if_neg (by omega), if_pos (by omega)]

theorem isSecond_iff {b : UInt8} : isSecond a b = true ↔ (0x80 ≤ b ∧ b ≤ 0xbf) ∧
    (a = 0xe0 → 0xa0 ≤ b) ∧ (a = 0xed → b ≤ 0x9f) ∧ (a = 0xf0 → 0x90 ≤ b) ∧
      (a = 0xf4 → b ≤ 0x8f) := by
  simp only [isSecond, beq_iff_eq, ← UInt8.toNat_inj, UInt8.le_iff_toNat_le, UInt8.reduceToNat]
  split_ifs <;> simp only [Bool.and_eq_true, decide_eq_true_iff] <;> omega

theorem isTail_iff {b : UInt8} : isTail b = true ↔ 0x80 ≤ b ∧ b ≤ 0xbf := by
  rw [isTail, Bool.and_eq_true, decide_eq_true_iff, decide_eq_true_iff]

theorem IsSequence.isSecond {b : UInt8} (h : IsSequence a (b :: tail)) : isSecond a b = true := by
  rw [isSecond_iff]
  cases h <;> simp only [← UInt8.toNat_inj, UInt8.le_iff_toNat_le, UInt8.reduceToNat] at * <;> omega

theorem IsSequence.isTail {b : UInt8} (h : IsSequence a (b :: tail)) : ∀ c ∈ tail, isTail c := by
  cases h with
  | two => simp
  | three ha hb hc => simpa [isTail_iff] using hc
  | four ha hb hc hd => simpa [isTail_iff] using ⟨hc, hd⟩

theorem IsSequence.tailOf_append (h : IsSequence a tail) (bs : List UInt8) :
    tailOf a tail.length (tail ++ bs) = tail := by
  cases tail with
  | nil => rfl
  | cons b tail =>
    rw [List.length_cons, List.cons_append, tailOf, if_pos h.isSecond, List.take_left,
      List.takeWhile_eq_self_iff.2 h.isTail]

/-- A sequence is read as the character that it encodes, whatever comes behind it. -/
theorem IsSequence.firstScalar_append (h : IsSequence a tail) (bs : List UInt8) :
    firstScalar a (tail ++ bs) = (some (Char.ofNat (codePoint a tail)), tail.length) := by
  simp only [firstScalar, h.tailLength_eq, h.tailOf_append, if_pos, codePoint]

theorem scalars_utf8EncodeChar_append (c : Char) (bs : List UInt8) :
    scalars (String.utf8EncodeChar c ++ bs) = some c :: scalars bs := by
  obtain ⟨a, tail, hencode, h, hbits⟩ := exists_isSequence c
  rw [hencode, List.cons_append, scalars, h.firstScalar_append, hbits, Char.ofNat_toNat,
    List.drop_left]

/-! ### Texts and well-formed byte strings -/

theorem scalars_flatMap (cs : List Char) :
    scalars (cs.flatMap String.utf8EncodeChar) = cs.map some := by
  induction cs with
  | nil => rw [List.flatMap_nil, scalars, List.map_nil]
  | cons c cs ih => rw [List.flatMap_cons, scalars_utf8EncodeChar_append, ih, List.map_cons]

/-- A text is read again from its bytes. -/
theorem decodeUtf8_encodeUtf8 (t : String) : decodeUtf8 (encodeUtf8 t) = t := by
  rw [decodeUtf8, encodeUtf8, scalars_flatMap, List.map_map]
  exact (congrArg String.ofList (List.map_id _)).trans String.ofList_toList

theorem wellFormed_flatMap (cs : List Char) : WellFormed (cs.flatMap String.utf8EncodeChar) := by
  induction cs with
  | nil => exact .nil
  | cons c cs ih =>
    obtain ⟨a, tail, hencode, h, -⟩ := exists_isSequence c
    rw [List.flatMap_cons, hencode]
    exact .append h ih

theorem WellFormed.exists_flatMap (h : WellFormed bs) :
    ∃ cs : List Char, bs = cs.flatMap String.utf8EncodeChar := by
  induction h with
  | nil => exact ⟨[], rfl⟩
  | append head _ ih =>
    obtain ⟨cs, rfl⟩ := ih
    exact ⟨Char.ofNat _ :: cs, by rw [List.flatMap_cons, head.utf8EncodeChar_codePoint]⟩

/-- The bytes of texts are the well-formed byte strings. -/
theorem wellFormed_iff : WellFormed bs ↔ ∃ t, bs = encodeUtf8 t := by
  constructor
  · intro h
    obtain ⟨cs, rfl⟩ := h.exists_flatMap
    exact ⟨String.ofList cs, by rw [encodeUtf8, String.toList_ofList]⟩
  · rintro ⟨t, rfl⟩
    exact wellFormed_flatMap t.toList

/-- Bytes are got back from the text that is read from them just if they are well-formed. -/
theorem encodeUtf8_decodeUtf8_iff : encodeUtf8 (decodeUtf8 bs) = bs ↔ WellFormed bs := by
  rw [wellFormed_iff]
  constructor
  · intro h
    exact ⟨_, h.symm⟩
  · rintro ⟨t, rfl⟩
    rw [decodeUtf8_encodeUtf8]

end ScriptHost.Text
