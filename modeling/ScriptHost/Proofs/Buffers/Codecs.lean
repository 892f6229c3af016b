import ScriptHost.Proofs.Buffers.Objects
import ScriptHost.Proofs.Text.Utf8

/-!
# Text codecs

A text is got back from its bytes in UTF-8, and so are bytes from their text if they are
well-formed. The encodings of one byte a character get every byte string back in the case of
Latin-1, and texts up to U+00FF; ASCII differs from it in that reading clears the high bit of each
byte. Scripts have the same by way of buffers.

## Main definitions

* `Encoding.named?`: the encoding of a name that may be left out.
* `Buffers.reread`, `Buffers.rewrite`: a text through a buffer, and a buffer through a text.

## Main results

* `Encoding.encode_decode_latin1`, `Encoding.decode_encode_latin1`, `Encoding.decode_ascii`: the
  encodings of one byte a character.
* `Buffers.codecs_roundTrip`: texts and byte strings, and the same for scripts.
-/

namespace ScriptHost

/-! ### Encodings of one byte a character -/

namespace Encoding

theorem toNat_ofNat_of_lt {n : Nat} (h : n < 256) : (Char.ofNat n).toNat = n :=
  Text.val_ofNat (.inl (by omega))

theorem encode_decode_latin1 (bs : Bytes) : latin1.encode (latin1.decode bs) = bs := by
  have hbyte : ∀ b : UInt8, UInt8.ofNat (Char.ofNat b.toNat).toNat = b := fun b => by
    rw [toNat_ofNat_of_lt b.toNat_lt, UInt8.ofNat_toNat]
  rw [encode, decode, String.toList_ofList, List.map_map]
  exact List.map_id'' hbyte bs

theorem decode_encode_latin1 {t : String} (h : ∀ c ∈ t.toList, c.toNat ≤ 0xff) :
    latin1.decode (latin1.encode t) = t := by
  have hchar : t.toList.map (fun c => Char.ofNat (UInt8.ofNat c.toNat).toNat) = t.toList := by
    refine (List.map_congr_left fun c hc => ?_).trans (List.map_id _)
    rw [UInt8.toNat_ofNat', Nat.mod_eq_of_lt (Nat.lt_succ_of_le (h c hc)), Char.ofNat_toNat, id]
  rw [encode, decode, List.map_map]
  exact (congrArg String.ofList hchar).trans String.ofList_toList

theorem decode_ascii (bs : Bytes) : ascii.decode bs = latin1.decode (bs.map (· &&& 0x7f)) := by
  rw [decode, decode, List.map_map]
  congr 1
  refine List.map_congr_left fun b _ => ?_
  rw [Function.comp_apply, UInt8.toNat_and]
  exact congrArg Char.ofNat (Nat.and_two_pow_sub_one_eq_mod b.toNat 7).symm

/-- The encoding of a name; UTF-8 if it is left out. -/
def named? (name? : Option String) : Option Encoding := name?.elim (some utf8) ofName?

end Encoding

namespace Buffers

variable {E : Engine} {seat : Seat} {M : E.Objects seat} {s : E.State} {v : E.Value} {bs : Bytes}
  {name? : Option String} {e : Encoding}

/-! ### The functions of scripts -/

/-- The argument that names an encoding, unless it is left out. -/
def encodingArguments (name? : Option String) : List E.Value := name?.toList.map E.string

theorem encodingArgument_eq (V : E.Primitives) (h : Encoding.named? name? = some e)
    (before : List E.Value) (function : String) :
    encodingArgument (before ++ encodingArguments name?) before.length function seat s =
      (.ok e, s) := by
  cases name? with
  | none =>
    obtain rfl : Encoding.utf8 = e := Option.some.inj h
    simp [encodingArgument, encodingArguments, Arguments.optionalString, Action.bind_def,
      Action.ofExcept, pure, Action.pure]
  | some name =>
    rw [Encoding.named?, Option.elim_some] at h
    simp [encodingArgument, encodingArguments, Arguments.optionalString, Arguments.string,
      V.isUndefined_string, V.asString_string, Except.map, Action.bind_def, Action.ofExcept, pure,
      Action.pure, h]

/-- The bytes of a text in an encoding. -/
theorem bytesArgument_string (V : E.Primitives) (h : Encoding.named? name? = some e) (t : String)
    (function missing : String) :
    bytesArgument (E.string t :: encodingArguments name?) function missing seat s =
      (.ok (e.encode t), s) := by
  have hencoding : encodingArgument (E.string t :: encodingArguments name?) 1 function seat s =
      (.ok e, s) :=
    encodingArgument_eq V h [E.string t] function
  simp only [bytesArgument, List.getElem?_cons_zero, V.asString_string, Action.bind_def, hencoding]
  rfl

/-- A buffer is read as a text. -/
theorem IsBuffer.text (V : E.Primitives) (henc : Encoding.named? name? = some e)
    (h : IsBuffer M.view s v bs) (hlength : bs.length ≤ maxLength) :
    M.Yields seat (invoke .text v (encodingArguments name?)) s (E.string (e.decode bs)) := by
  refine (h.readBytes V hlength _).bind fun s' _ => ⟨s', ?_, .refl ..⟩
  have hencoding : encodingArgument (encodingArguments name?) 0 "buffer.toString" seat s' =
      (.ok e, s') :=
    encodingArgument_eq V henc [] "buffer.toString"
  have hwhole : ∀ i default length, indexArgument (E := E) (encodingArguments name?) (i + 1) default
      length = default := by
    cases name? <;> simp [indexArgument, encodingArguments, relativeIndex]
  have hslice : bs.slice 0 bs.length = bs := by rw [Bytes.slice, List.take_length, List.drop_zero]
  simp only [Action.bind_def, hencoding, hwhole, hslice]
  rfl

/-- A buffer is made of a text, and read again. -/
def reread (t : String) (name? : Option String) : EngineAction E E.Value := do
  let v ← invoke .ofValue E.undefined (E.string t :: encodingArguments name?)
  invoke .text v (encodingArguments name?)

/-- A buffer is read as a text, and a buffer is made of that. -/
def rewrite (v : E.Value) (name? : Option String) : EngineAction E E.Value := do
  let t ← invoke .text v (encodingArguments name?)
  invoke .ofValue E.undefined (t :: encodingArguments name?)

theorem makesBuffer_ofValue (V : E.Primitives) (H : M.MakesObjects) (hfree : M.Free s)
    (henc : Encoding.named? name? = some e) (t : String) (this : E.Value) :
    MakesBuffer M.view seat (invoke .ofValue this (E.string t :: encodingArguments name?)) s
      (e.encode t) :=
  .of_yields ⟨s, bytesArgument_string V henc t .., .refl ..⟩ fun _ hs =>
    makesBuffer_toValue H (hs.free hfree) _

theorem byteLength_string (V : E.Primitives) (henc : Encoding.named? name? = some e) (t : String)
    (this : E.Value) :
    invoke .byteLength this (E.string t :: encodingArguments name?) seat s =
      (.ok (E.number (.ofNat (e.encode t).length)), s) := by
  simp only [invoke, Action.bind_def, bytesArgument_string V henc]
  rfl

/-- A text is got back from its bytes in UTF-8. Byte strings are got back from their text in
Latin-1, and texts up to U+00FF from their bytes in it; ASCII reads every byte without its high bit.
Byte strings are got back from their text in UTF-8 just if they are well-formed, and what is got
back always is. Scripts have the same by way of buffers, which have no more than `maxLength`
bytes. -/
theorem codecs_roundTrip (V : E.Primitives) (H : M.MakesObjects) (hfree : M.Free s) :
    (∀ t, Encoding.utf8.decode (Encoding.utf8.encode t) = t) ∧
    (∀ bs, Encoding.latin1.encode (Encoding.latin1.decode bs) = bs) ∧
    (∀ bs, Encoding.ascii.decode bs = Encoding.latin1.decode (bs.map (· &&& 0x7f))) ∧
    (∀ t, (∀ c ∈ t.toList, c.toNat ≤ 0xff) →
      Encoding.latin1.decode (Encoding.latin1.encode t) = t) ∧
    (∀ bs, Encoding.utf8.encode (Encoding.utf8.decode bs) = bs ↔ Text.WellFormed bs) ∧
    (∀ bs, Text.WellFormed (Encoding.utf8.encode (Encoding.utf8.decode bs))) ∧
    ∀ name? e, Encoding.named? name? = some e →
      (∀ t this,
        MakesBuffer M.view seat (invoke .ofValue this (E.string t :: encodingArguments name?)) s
          (e.encode t) ∧
        M.Yields seat (invoke .byteLength this (E.string t :: encodingArguments name?)) s
          (E.number (.ofNat (e.encode t).length)) ∧
        ((e.encode t).length ≤ maxLength →
          M.Yields seat (reread t name?) s (E.string (e.decode (e.encode t))))) ∧
      ∀ v bs, IsBuffer M.view s v bs → bs.length ≤ maxLength →
        M.Yields seat (invoke .text v (encodingArguments name?)) s (E.string (e.decode bs)) ∧
          MakesBuffer M.view seat (rewrite v name?) s (e.encode (e.decode bs)) := by
  refine ⟨Text.decodeUtf8_encodeUtf8, Encoding.encode_decode_latin1, Encoding.decode_ascii,
    fun _ => Encoding.decode_encode_latin1, fun _ => Text.encodeUtf8_decodeUtf8_iff,
    fun _ => Text.wellFormed_iff.2 ⟨_, rfl⟩, fun name? e henc => ⟨fun t this => ?ofText, ?ofBytes⟩⟩
  case ofText =>
    refine ⟨makesBuffer_ofValue V H hfree henc t this,
      ⟨s, byteLength_string V henc t this, .refl ..⟩, fun hlength => ?_⟩
    refine (makesBuffer_ofValue V H hfree henc t _).bind fun v s' hbuffer _ => ?_
    exact hbuffer.text V henc hlength
  case ofBytes =>
    intro v bs h hlength
    refine ⟨h.text V henc hlength, .of_yields (h.text V henc hlength) fun s' hs => ?_⟩
    exact makesBuffer_ofValue V H (hs.free hfree) henc _ _

/-- A letter of two bytes in UTF-8 and of one byte in Latin-1, through buffers of the form
engine. -/
theorem codecs_roundTrip_form :
    let M := Script.objects 0 Script.Local.objectTraps
    let state : Script.State := ⟨#[], [{}]⟩
    M.Yields 0 (reread "ä" none) state (.string "ä") ∧
      M.Yields 0 (reread "ä" (some "latin1")) state (.string "ä") ∧
        M.Yields 0 (reread "ä" (some "ascii")) state (.string "d") := by
  intro M state
  obtain ⟨-, -, -, -, -, -, hscripts⟩ := codecs_roundTrip (M := M) (s := state) Script.primitives
    (Script.makesObjects 0) rfl
  have htexts : Encoding.utf8.decode (Encoding.utf8.encode "ä") = "ä" ∧
      Encoding.latin1.decode (Encoding.latin1.encode "ä") = "ä" ∧
      Encoding.ascii.decode (Encoding.ascii.encode "ä") = "d" := by
    decide +kernel
  have hutf8 := ((hscripts none .utf8 rfl).1 "ä" .undefined).2.2 (by decide +kernel)
  have hlatin1 := ((hscripts (some "latin1") .latin1 (by decide +kernel)).1 "ä" .undefined).2.2
    (by decide +kernel)
  have hascii := ((hscripts (some "ascii") .ascii (by decide +kernel)).1 "ä" .undefined).2.2
    (by decide +kernel)
  rw [htexts.1] at hutf8
  rw [htexts.2.1] at hlatin1
  rw [htexts.2.2] at hascii
  exact ⟨hutf8, hlatin1, hascii⟩

end Buffers

end ScriptHost
