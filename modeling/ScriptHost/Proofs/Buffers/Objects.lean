import ScriptHost.Proofs.Buffers.Ranges
import ScriptHost.Proofs.Script.Objects
import Mathlib.Data.List.Nodup

/-!
# Byte strings as objects

The object of a byte string keeps each byte under its index in decimal digits, beside the length,
the mark and the functions of a buffer. No two of these names agree, so that the bytes are read
again, however many there are. What the functions on buffers do can then be said of byte strings.

## Main definitions

* `Buffers.Shows`, `Buffers.IsBuffer`: the properties of the object of a byte string.
* `Buffers.MakesBuffer`: an action that makes a new object of a byte string.
* `Buffers.MakesArrays`: an engine whose arrays have their items.

## Main results

* `Buffers.makesBuffer_toValue`, `Buffers.IsBuffer.readBytes`: a byte string as an object, and back.
* `Buffers.objects_faithful`: the functions on buffers are those on byte strings.
-/

namespace ScriptHost

variable {E : Engine} {σ α β : Type} {seat : Seat}

/-- Steps that can be taken one after another since each leads to where the next one can be. -/
theorem Action.InTurn.exists_of_invariant {step : α → β → σ → σ → Prop} {I : σ → Prop} {g : α → β}
    {as : List α} {s : σ} (hstep : ∀ a ∈ as, ∀ s, I s → ∃ t, step a (g a) s t ∧ I t) (hs : I s) :
    ∃ u, InTurn step as (as.map g) s u ∧ I u := by
  induction as generalizing s with
  | nil => exact ⟨s, .nil s, hs⟩
  | cons a as ih =>
    obtain ⟨t, head, ht⟩ := hstep a List.mem_cons_self s hs
    obtain ⟨u, tail, hu⟩ := ih (fun a ha => hstep a (List.mem_cons_of_mem _ ha)) ht
    exact ⟨u, .cons head tail, hu⟩

namespace Buffers

/-! ### Properties -/

theorem toString_injective : Function.Injective (toString : Nat → String) := by
  intro i j h
  have hdigits : Nat.toDigits 10 i = Nat.toDigits 10 j := by
    rw [← Nat.toList_repr, ← Nat.toList_repr]
    exact congrArg String.toList h
  calc i = Nat.ofDigitChars 10 (Nat.toDigits 10 i) 0 := Nat.ofDigitChars_ten_toDigits.symm
    _ = j := by rw [hdigits, Nat.ofDigitChars_ten_toDigits]

theorem toString_ne {name : String} (h : name.toList.all Char.isDigit = false) (i : Nat) :
    toString i ≠ name := by
  rintro rfl
  have hdigits : (toString i).toList.all Char.isDigit = true := by
    rw [List.all_eq_true]
    intro c hc
    have htext : (toString i).toList = Nat.toDigits 10 i := Nat.toList_repr
    exact Nat.isDigit_of_mem_toDigits (by omega) (by omega) (htext ▸ hc)
  rw [hdigits] at h
  cases h

/-- The properties that hold a byte string. -/
structure Shows (p : Properties E.Value) (bs : Bytes) : Prop where
  length : p "length" = some (E.number (.ofNat bs.length))
  marker : p marker = some (E.boolean true)
  byte : ∀ (i : Nat) (h : i < bs.length), p (toString i) = some (E.number (.ofNat bs[i].toNat))

/-- The values under the indices. -/
def numbers (bs : Bytes) : List E.Value := bs.map fun b => E.number (.ofNat b.toNat)

/-- The properties of a buffer beside its functions, in the order in which they are written. -/
def rows (bs : Bytes) : List (String × E.Value) :=
  (bs.mapIdx fun i b => (toString i, E.number (.ofNat b.toNat))) ++
    [("length", E.number (.ofNat bs.length)), (Buffers.marker, E.boolean true)]

theorem names_mapIdx (bs : Bytes) :
    (bs.mapIdx fun i b => (toString i, E.number (.ofNat b.toNat))).map Prod.fst =
      (List.range bs.length).map toString := by
  apply List.ext_getElem <;> simp

/-- No property of a buffer is written twice. -/
theorem nodup_names (bs : Bytes) {functions : List (String × E.Value)}
    (hfunctions : functions.map Prod.fst = Export.buffer.map Export.name) :
    ((rows bs ++ functions).map Prod.fst).Nodup := by
  have hfixed : ["length", marker, "toString", "slice", "equals"].Nodup := by decide
  have hindices : ((List.range bs.length).map (toString : Nat → String)).Nodup :=
    List.nodup_range.map toString_injective
  rw [rows, List.append_assoc, List.map_append, names_mapIdx, List.map_append, hfunctions]
  refine hindices.append hfixed ?_
  intro name hindex hname
  obtain ⟨i, -, rfl⟩ := List.mem_map.1 hindex
  have hletter : ∀ name ∈ ["length", marker, "toString", "slice", "equals"],
      name.toList.all Char.isDigit = false := by decide
  exact toString_ne (hletter _ hname) i rfl

theorem shows_writeAll (bs : Bytes) {functions : List (String × E.Value)}
    (hfunctions : functions.map Prod.fst = Export.buffer.map Export.name)
    (p : Properties E.Value) : Shows (p.writeAll (rows bs ++ functions)) bs where
  length := Properties.writeAll_of_mem (nodup_names bs hfunctions) (by simp [rows])
  marker := Properties.writeAll_of_mem (nodup_names bs hfunctions) (by simp [rows])
  byte i h := by
    refine Properties.writeAll_of_mem (nodup_names bs hfunctions) ?_
    refine List.mem_append_left _ (List.mem_append_left _ (List.mem_mapIdx.2 ⟨i, h, rfl⟩))

/-! ### Buffers -/

/-- A value is the object of a byte string. -/
def IsBuffer (M : E.View) (s : E.State) (v : E.Value) (bs : Bytes) : Prop :=
  ∃ p, M.Holds s v p ∧ Shows p bs

/-- An action makes a new object of a byte string, and every other object has the properties that it
had. -/
def MakesBuffer (M : E.View) (seat : Seat) (x : EngineAction E E.Value) (s : E.State) (bs : Bytes) :
    Prop :=
  ∃ v s', x seat s = (.ok v, s') ∧ IsBuffer M s' v bs ∧ M.IsNew s v ∧ M.Keeps s s'

/-- Arrays that have just been made have their items. -/
def MakesArrays (M : E.Objects seat) : Prop :=
  ∀ s (items : List E.Value), M.Free s → items.length ≤ maxLength →
    M.Keeps s (E.newArray seat items s).2 ∧ ∃ u,
      ArrayLike seat (E.newArray seat items s).1 items (E.newArray seat items s).2 u ∧
        M.Keeps (E.newArray seat items s).2 u

section

variable {M : E.Objects seat} {s t : E.State} {v : E.Value} {bs : Bytes}

theorem IsBuffer.of_keeps (h : IsBuffer M.view s v bs) (hkeeps : M.Keeps s t) :
    IsBuffer M.view t v bs := by
  obtain ⟨p, hholds, hp⟩ := h
  exact ⟨p, hkeeps.holds hholds, hp⟩

/-- A byte string is made into an object of it. -/
theorem makesBuffer_toValue (H : M.MakesObjects) (hfree : M.Free s) (bs : Bytes) :
    MakesBuffer M.view seat (toValue bs) s bs := by
  obtain ⟨hnone, hnew, hkeeps⟩ := H.newObject hfree
  obtain ⟨s₁, hbytes, h₁, hkeeps₁⟩ := M.defineValues
    (bs.mapIdx fun i b => (toString i, E.number (.ofNat b.toNat))) hnone
  obtain ⟨s₂, hlength, h₂, hkeeps₂⟩ := M.defineValue "length" (E.number (.ofNat bs.length)) h₁
  obtain ⟨s₃, hmarker, h₃, hkeeps₃⟩ := M.defineValue marker (E.boolean true) h₂
  have hbut := (hkeeps₁.trans hkeeps₂).trans hkeeps₃
  obtain ⟨functions, s₄, hnames, hfunctions, h₄, hkeeps₄⟩ := M.defineFunctions H Export.buffer
    (hbut.free (hkeeps.free hfree)) h₃
  have hshows := shows_writeAll bs hnames (fun _ => none)
  rw [Properties.writeAll_append, rows, Properties.writeAll_append] at hshows
  refine ⟨_, s₄, ?_, ⟨_, h₄, hshows⟩, hnew, .of_isNew hkeeps hnew (hbut.trans hkeeps₄)⟩
  simp only [toValue, Action.bind_def, EngineAction.newObject, Action.ofState, hbytes, hlength,
    hmarker, hfunctions]
  rfl

/-! ### Reading buffers -/

theorem storedByte_ofNat {n : Nat} (hn : n < 256) : storedByte (.ofNat n) = n := by
  have hexact : n < 2 ^ 53 := by omega
  have hpart := Double.integerPart_ofNat hexact
  have hbeyond : isBeyond (.ofNat n) = false := by
    rw [← Bool.not_eq_true, isBeyond_iff, hpart]
    omega
  rw [(storedByte_eq_wrappedByte_iff _).2 hbeyond, wrappedByte,
    if_pos (Double.holds_ofNat hexact).isFinite, hpart]
  omega

theorem byteOf_ofNat (b : UInt8) : byteOf (.ofNat b.toNat) = b := by
  rw [← UInt8.toNat_inj, toNat_byteOf, storedByte_ofNat b.toNat_lt]

theorem bytesOf_numbers (V : E.Primitives) (bs : Bytes) : bytesOf (numbers (E := E) bs) = bs := by
  induction bs with
  | nil => rfl
  | cons b bs ih =>
    rw [bytesOf, numbers] at ih
    rw [bytesOf, numbers, List.map_cons, List.map_cons, V.asNumber_number, Option.getD_some,
      byteOf_ofNat, ih]

theorem numbers_flatten (bss : List Bytes) :
    numbers (E := E) bss.flatten = (bss.map numbers).flatten :=
  List.map_flatten

/-- The elements of a buffer are its bytes. -/
theorem IsBuffer.arrayLike (V : E.Primitives) (h : IsBuffer M.view s v bs)
    (hlength : bs.length ≤ maxLength) :
    ∃ u, ArrayLike seat v (numbers bs) s u ∧ M.Keeps s u := by
  obtain ⟨p, hholds, hp⟩ := h
  obtain ⟨t, hget, hkeeps⟩ := M.getProperty "length" hholds
  rw [hp.length, Option.getD_some] at hget
  let element (i : Nat) : E.Value := (numbers bs)[i]?.getD E.undefined
  have helement : ∀ i ∈ List.range bs.length, ∀ s', M.Keeps s s' → ∃ t',
      E.getProperty seat v (toString i) s' = (.ok (element i), t') ∧ M.Keeps s t' := by
    intro i hi s' hs'
    have hi := List.mem_range.1 hi
    obtain ⟨t', hget', hkeeps'⟩ := M.getProperty (toString i) (hs'.holds hholds)
    refine ⟨t', ?_, hs'.trans hkeeps'⟩
    rw [hget', hp.byte i hi]
    simp [element, numbers, hi]
  obtain ⟨u, hin, hu⟩ : ∃ u, Action.InTurn
      (fun (i : Nat) a s t => E.getProperty seat v (toString i) s = (.ok a, t))
      (List.range bs.length) ((List.range bs.length).map element) t u ∧ M.Keeps s u :=
    Action.InTurn.exists_of_invariant helement hkeeps
  have hnumbers : (List.range bs.length).map element = numbers bs := by
    apply List.ext_getElem <;> simp +contextual [element, numbers]
  have hcount : (numbers (E := E) bs).length = bs.length := List.length_map ..
  refine ⟨u, ⟨_, _, t, hget, V.asNumber_number _, ?_, ?_⟩, hu⟩
  · rw [hcount, lengthOf?_ofNat hlength]
  · rwa [hcount, ← hnumbers]

/-- A buffer is read as its bytes. -/
theorem IsBuffer.readBytes (V : E.Primitives) (h : IsBuffer M.view s v bs)
    (hlength : bs.length ≤ maxLength) (function : String) :
    M.Yields seat (readBytes v function) s bs := by
  obtain ⟨u, harray, hkeeps⟩ := h.arrayLike V hlength
  refine ⟨u, ?_, hkeeps⟩
  rw [harray.readBytes_eq, bytesOf_numbers V]

theorem IsBuffer.isBuffer (V : E.Primitives) (h : IsBuffer M.view s v bs) :
    M.Yields seat (isBuffer v) s true := by
  obtain ⟨p, hholds, hp⟩ := h
  obtain ⟨t, hget, hkeeps⟩ := M.getProperty marker hholds
  refine ⟨t, ?_, hkeeps⟩
  simp only [Buffers.isBuffer, hget, hp.marker, Option.getD_some, V.truthy_boolean]

/-! ### Functions on buffers -/

/-- What is new after reading has been new before. -/
theorem MakesBuffer.of_yields {x : EngineAction E α} {f : α → EngineAction E E.Value} {a : α}
    (h : M.Yields seat x s a)
    (hf : ∀ s', M.Keeps s s' → MakesBuffer M.view seat (f a) s' bs) :
    MakesBuffer M.view seat (x >>= f) s bs := by
  obtain ⟨s', hx, hkeeps⟩ := h
  obtain ⟨v, s'', hfa, hbuffer, hnew, hkeeps'⟩ := hf s' hkeeps
  exact ⟨v, s'', by rw [Action.bind_def, hx, ← hfa], hbuffer,
    fun p hp => hnew p (hkeeps.holds hp), hkeeps.trans hkeeps'⟩

theorem MakesBuffer.bind {x : EngineAction E E.Value} {f : E.Value → EngineAction E α} {a : α}
    (h : MakesBuffer M.view seat x s bs)
    (hf : ∀ v s', IsBuffer M.view s' v bs → M.Keeps s s' → M.Yields seat (f v) s' a) :
    M.Yields seat (x >>= f) s a := by
  obtain ⟨v, s', hx, hbuffer, -, hkeeps⟩ := h
  exact .of_step hx hkeeps (hf v s' hbuffer hkeeps)

theorem IsBuffer.equals {w : E.Value} {bs' : Bytes} (V : E.Primitives)
    (h : IsBuffer M.view s v bs) (h' : IsBuffer M.view s w bs') (hlength : bs.length ≤ maxLength)
    (hlength' : bs'.length ≤ maxLength) (rest : List E.Value) :
    M.Yields seat (invoke .equals v (w :: rest)) s (E.boolean (decide (bs = bs'))) := by
  refine (h'.isBuffer V).bind fun s₁ hs₁ => ?_
  refine ((h.of_keeps hs₁).readBytes V hlength _).bind fun s₂ hs₂ => ?_
  refine ((h'.of_keeps (hs₁.trans hs₂)).readBytes V hlength' _).bind fun s₃ hs₃ => ?_
  rw [← beq_eq_decide]
  exact ⟨s₃, rfl, .refl ..⟩

theorem IsBuffer.slice (V : E.Primitives) (H : M.MakesObjects) (hfree : M.Free s)
    (h : IsBuffer M.view s v bs) (hlength : bs.length ≤ maxLength) (args : List E.Value) :
    MakesBuffer M.view seat (invoke .slice v args) s
      (bs.slice (indexArgument args 0 0 bs.length) (indexArgument args 1 bs.length bs.length)) :=
  .of_yields (h.readBytes V hlength _) fun _ hs => makesBuffer_toValue H (hs.free hfree) _

/-- The elements of several buffers, read one after another. -/
theorem arrayLike_parts (V : E.Primitives) {parts : List E.Value} {bss : List Bytes}
    (h : List.Forall₂ (fun v bs => IsBuffer M.view s v bs ∧ bs.length ≤ maxLength) parts bss)
    (hkeeps : M.Keeps s t) :
    ∃ u, Action.InTurn (ArrayLike seat) parts (bss.map numbers) t u ∧ M.Keeps s u := by
  induction h generalizing t with
  | nil => exact ⟨t, .nil t, hkeeps⟩
  | cons head _ ih =>
    obtain ⟨t', harray, hkeeps'⟩ := (head.1.of_keeps hkeeps).arrayLike V head.2
    obtain ⟨u, hin, hu⟩ := ih (hkeeps.trans hkeeps')
    exact ⟨u, .cons harray hin, hu⟩

theorem makesBuffer_concat (V : E.Primitives) (H : M.MakesObjects) (hfree : M.Free s)
    {list : E.Value} {parts : List E.Value} {bss : List Bytes}
    (hlist : ArrayLike seat list parts s t) (hkeeps : M.Keeps s t)
    (hparts : List.Forall₂ (fun v bs => IsBuffer M.view s v bs ∧ bs.length ≤ maxLength) parts bss)
    (this : E.Value) (rest : List E.Value) :
    MakesBuffer M.view seat (invoke .concat this (list :: rest)) s bss.flatten := by
  obtain ⟨u, hin, hu⟩ := arrayLike_parts V hparts hkeeps
  have hbytes : bytesOf (bss.map (numbers (E := E))).flatten = bss.flatten := by
    rw [← numbers_flatten, bytesOf_numbers V]
  obtain ⟨v, s', hmake, hbuffer, hnew, hkeeps'⟩ := makesBuffer_toValue H (hu.free hfree) bss.flatten
  refine ⟨v, s', ?_, hbuffer, fun p hp => hnew p (hu.holds hp), hu.trans hkeeps'⟩
  rw [hlist.concat_eq hin, hbytes, hmake]

/-! ### Two parts of a buffer -/

theorem relativeIndex_zero (default length : Nat) :
    relativeIndex (some .zero) default length = 0 := by
  have hclass : Double.zero.isNaN = false ∧ Double.zero.isInfinite = false := by decide
  have hlt : Double.zero.lt .zero = false := by decide
  have hpart : Double.zero.integerPart = 0 := by decide +kernel
  simp [relativeIndex, hclass, hlt, hpart]

theorem length_slice_le (bs : Bytes) (start stop : Nat) :
    (bs.slice start stop).length ≤ bs.length := by
  rw [Bytes.slice, List.length_drop, List.length_take]
  omega

/-- What stands before an index and what stands from it on make up the whole. -/
theorem slice_append_slice (bs : Bytes) (i : Nat) : bs.slice 0 i ++ bs.slice i bs.length = bs := by
  rw [Bytes.slice, Bytes.slice, List.drop_zero, List.take_length, List.take_append_drop]

/-- A buffer is sliced in two at a number, the parts are put together, and the outcome is compared
with the buffer. -/
def rejoin (v : E.Value) (k : Double) : EngineAction E E.Value := do
  let before ← invoke .slice v [E.number .zero, E.number k]
  let after ← invoke .slice v [E.number k]
  let parts ← EngineAction.newArray [before, after]
  let whole ← invoke .concat E.undefined [parts]
  invoke .equals whole [v]

theorem IsBuffer.slice_before (V : E.Primitives) (H : M.MakesObjects) (hfree : M.Free s)
    (h : IsBuffer M.view s v bs) (hlength : bs.length ≤ maxLength) (k : Double) :
    MakesBuffer M.view seat (invoke .slice v [E.number .zero, E.number k]) s
      (bs.slice 0 (relativeIndex (some k) 0 bs.length)) := by
  have hslice := h.slice V H hfree hlength [E.number .zero, E.number k]
  simp only [indexArgument, List.getElem?_cons_zero, List.getElem?_cons_succ, Option.bind_some,
    V.asNumber_number, relativeIndex_zero] at hslice
  exact hslice

theorem IsBuffer.slice_after (V : E.Primitives) (H : M.MakesObjects) (hfree : M.Free s)
    (h : IsBuffer M.view s v bs) (hlength : bs.length ≤ maxLength) (k : Double) :
    MakesBuffer M.view seat (invoke .slice v [E.number k]) s
      (bs.slice (relativeIndex (some k) 0 bs.length) bs.length) := by
  have hslice := h.slice V H hfree hlength [E.number k]
  simp only [indexArgument, List.getElem?_cons_zero, Option.bind_some, V.asNumber_number] at hslice
  exact hslice

/-- Wherever a number cuts a buffer, its two parts put together are equal to it. -/
theorem IsBuffer.rejoin (V : E.Primitives) (H : M.MakesObjects) (A : MakesArrays M)
    (hfree : M.Free s) (h : IsBuffer M.view s v bs) (hlength : bs.length ≤ maxLength) (k : Double) :
    M.Yields seat (rejoin v k) s (E.boolean true) := by
  have hpart : ∀ start stop, (bs.slice start stop).length ≤ maxLength := fun start stop =>
    Nat.le_trans (length_slice_le ..) hlength
  refine (h.slice_before V H hfree hlength k).bind fun before s₁ hbefore hs₁ => ?_
  have h₁ := h.of_keeps hs₁
  refine (h₁.slice_after V H (hs₁.free hfree) hlength k).bind fun after s₂ hafter hs₂ => ?_
  have h₂ := h₁.of_keeps hs₂
  have hfree₂ := hs₂.free (hs₁.free hfree)
  have hcount : [before, after].length ≤ maxLength := by
    have hmax : maxLength = 2147483647 := rfl
    simp [hmax]
  obtain ⟨hs₃, u, harray, hu⟩ := A s₂ [before, after] hfree₂ hcount
  refine .of_step rfl hs₃ ?_
  have hconcat := makesBuffer_concat V H (hs₃.free hfree₂) harray hu
    (.cons ⟨(hbefore.of_keeps hs₂).of_keeps hs₃, hpart ..⟩
      (.cons ⟨hafter.of_keeps hs₃, hpart ..⟩ .nil)) E.undefined []
  rw [List.flatten_cons, List.flatten_cons, List.flatten_nil, List.append_nil,
    slice_append_slice] at hconcat
  refine hconcat.bind fun whole s₄ hwhole hs₄ => ?_
  have hequals := hwhole.equals V ((h₂.of_keeps hs₃).of_keeps hs₄) hlength hlength []
  rwa [decide_eq_true rfl] at hequals

/-! ### Buffers stand for byte strings -/

/-- On an engine whose objects have no traps, a byte string can be made into an object, which is
known as a buffer and read as the same bytes. Putting buffers together, comparing them and slicing
them gives what the same gives for their bytes. What is written into a slice changes no object that
has been there before, and slicing a buffer in two at any number loses nothing. -/
theorem objects_faithful (V : E.Primitives) (H : M.MakesObjects) (A : MakesArrays M)
    (hfree : M.Free s) :
    (∀ bs, bs.length ≤ maxLength → ∃ v s', toValue bs seat s = (.ok v, s') ∧
      IsBuffer M.view s' v bs ∧ M.IsNew s v ∧ M.Keeps s s' ∧
        (∀ function, M.Yields seat (readBytes v function) s' bs) ∧
          ∀ this rest, M.Yields seat (invoke .isBuffer this (v :: rest)) s' (E.boolean true)) ∧
    (∀ list parts bss t, ArrayLike seat list parts s t → M.Keeps s t →
      List.Forall₂ (fun v bs => IsBuffer M.view s v bs ∧ bs.length ≤ maxLength) parts bss →
        ∀ this rest, MakesBuffer M.view seat (invoke .concat this (list :: rest)) s bss.flatten) ∧
    (∀ v w bs bs', IsBuffer M.view s v bs → IsBuffer M.view s w bs' → bs.length ≤ maxLength →
      bs'.length ≤ maxLength → ∀ rest,
        M.Yields seat (invoke .equals v (w :: rest)) s (E.boolean (decide (bs = bs')))) ∧
    ∀ v bs, IsBuffer M.view s v bs → bs.length ≤ maxLength →
      (∀ args, ∃ part s', invoke .slice v args seat s = (.ok part, s') ∧
        IsBuffer M.view s' part (bs.slice (indexArgument args 0 0 bs.length)
          (indexArgument args 1 bs.length bs.length)) ∧
        ∀ rows, ∃ s'', EngineAction.defineValues part rows seat s' = (.ok (), s'') ∧
          M.Keeps s s'') ∧
      ∀ k, M.Yields seat (rejoin v k) s (E.boolean true) := by
  refine ⟨?made, ?concat, ?equals, ?sliced⟩
  case made =>
    intro bs hlength
    obtain ⟨v, s', hmake, hbuffer, hnew, hkeeps⟩ := makesBuffer_toValue H hfree bs
    refine ⟨v, s', hmake, hbuffer, hnew, hkeeps, hbuffer.readBytes V hlength, fun _ _ => ?_⟩
    exact (hbuffer.isBuffer V).bind fun s'' _ => ⟨s'', rfl, .refl ..⟩
  case concat =>
    intro list parts bss t hlist hkeeps hparts
    exact makesBuffer_concat V H hfree hlist hkeeps hparts
  case equals =>
    intro v w bs bs' h h' hlength hlength'
    exact h.equals V h' hlength hlength'
  case sliced =>
    intro v bs h hlength
    refine ⟨fun args => ?_, h.rejoin V H A hfree hlength⟩
    obtain ⟨part, s', hslice, hpart, hnew, hkeeps⟩ := h.slice V H hfree hlength args
    refine ⟨part, s', hslice, hpart, fun rows => ?_⟩
    obtain ⟨p, hholds, -⟩ := hpart
    obtain ⟨s'', hwrite, -, hbut⟩ := M.defineValues rows hholds
    exact ⟨s'', hwrite, .of_isNew hkeeps hnew hbut⟩

end

theorem makesArrays_form (seat : Seat) (traps : Script.Local → List String) :
    MakesArrays (Script.objects seat traps) := by
  intro s items _ hlength
  refine ⟨Script.State.keeps_new .., _, ?_, .refl ..⟩
  exact arrayLike_array (by simp [Script.State.newOf, Script.State.new]; rfl) rfl rfl hlength

/-- Three bytes as an object of the form engine, sliced in two at minus one half. -/
theorem objects_faithful_form :
    let M := Script.objects 0 Script.Local.objectTraps
    let state : Script.State := ⟨#[], [{}]⟩
    ∃ v s, toValue (E := Script.engine) [97, 98, 99] 0 state = (.ok v, s) ∧
      M.Yields 0 (readBytes v "") s [97, 98, 99] ∧
        M.Yields 0 (rejoin v ⟨true, 1022, 0⟩) s (.bool true) := by
  intro M state
  have hlength : [97, 98, 99].length ≤ maxLength := by decide
  obtain ⟨hmade, -⟩ := objects_faithful (M := M) (s := state) Script.primitives
    (Script.makesObjects 0) (makesArrays_form 0 _) rfl
  obtain ⟨v, s, hmake, hbuffer, -, hkeeps, hread, -⟩ := hmade [97, 98, 99] hlength
  obtain ⟨-, -, -, hsliced⟩ := objects_faithful (M := M) (s := s) Script.primitives
    (Script.makesObjects 0) (makesArrays_form 0 _) (hkeeps.free rfl)
  exact ⟨v, s, hmake, hread "", (hsliced v _ hbuffer hlength).2 _⟩

end Buffers

end ScriptHost
