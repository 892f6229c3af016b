import ScriptHost.Native.Buffers
import ScriptHost.Script.Engine
import ScriptHost.Proofs.Host.Within
import ScriptHost.Proofs.Number.Truncation

/-!
# The bytes of numbers

A number is stored as a byte by its integer part modulo 256. The integer part is cut down to 64 bits
first. Below the range of 64 bits this does no harm: the low bits of so large an integer part are
all zero, as those of the smallest integer of 64 bits are. Above the range they are zero too, but
those of the largest integer of 64 bits are not. So a number beyond that is stored as the byte 255,
and not as zero. All others are stored as their integer part has it.

Buffers are made from a value that has a length and elements under the indices below it. An engine
may run code to read them, which may change its state; the elements are read one after another, each
from the state that the one before has left.

## Main definitions

* `Action.InTurn`: steps that are taken one after another.
* `Buffers.wrappedByte`, `Buffers.storedByte`: the integer part modulo 256, and what is stored.
* `Buffers.ArrayLike`: the elements that are read from a value.

## Main results

* `Buffers.toNat_byteOf`, `Buffers.storedByte_eq_wrappedByte_iff`: the byte that a number is stored
  as, and when that is its integer part modulo 256.
* `Buffers.readBytes_eq_ok_iff`: what is read as bytes.
* `Buffers.arrayLike_array`: what is read from an array of the form engine.
* `Buffers.bytes_stored`: the bytes of a buffer that is made from numbers.
-/

namespace ScriptHost

variable {E : Engine} {σ α β γ : Type} {seat : Seat}

namespace Action

/-! ### One step after another -/

/-- Steps that are taken one after another, each with a result and from the state that the one
before has left. -/
inductive InTurn (step : α → β → σ → σ → Prop) : List α → List β → σ → σ → Prop
  | nil (s : σ) : InTurn step [] [] s s
  | cons {a : α} {b : β} {as : List α} {bs : List β} {s t u : σ} (head : step a b s t)
      (tail : InTurn step as bs t u) : InTurn step (a :: as) (b :: bs) s u

namespace InTurn

variable {step : α → β → σ → σ → Prop} {as : List α} {bs : List β} {s u : σ}

theorem length_eq (h : InTurn step as bs s u) : as.length = bs.length := by
  induction h with
  | nil => rfl
  | cons _ _ ih => rw [List.length_cons, List.length_cons, ih]

/-- Steps of another kind, whose results are made out of the ones at hand. -/
theorem map {step' : α → γ → σ → σ → Prop} (h : InTurn step as bs s u) (g : β → γ)
    (himp : ∀ a b s t, step a b s t → step' a (g b) s t) : InTurn step' as (bs.map g) s u := by
  induction h with
  | nil s => exact .nil s
  | cons head _ ih => exact .cons (himp _ _ _ _ head) ih

/-- Steps that leave the state alone. -/
theorem of_unchanged {g : α → β} (h : ∀ a ∈ as, step a (g a) s s) :
    InTurn step as (as.map g) s s := by
  induction as with
  | nil => exact .nil s
  | cons a as ih =>
    exact .cons (h a List.mem_cons_self) (ih fun a ha => h a (List.mem_cons_of_mem _ ha))

end InTurn

theorem bind_eq_ok_iff {x : Action E σ α} {f : α → Action E σ β} {b : β} {s u : σ} :
    (x >>= f) seat s = (.ok b, u) ↔ ∃ a t, x seat s = (.ok a, t) ∧ f a seat t = (.ok b, u) := by
  rw [bind_def]
  rcases x seat s with ⟨_ | a, t⟩
  · simp
  · constructor
    · intro h
      exact ⟨a, t, rfl, h⟩
    · rintro ⟨a', t', ⟨⟩, h⟩
      exact h

theorem mapM_eq_ok_iff {f : α → Action E σ β} {as : List α} {bs : List β} {s u : σ} :
    as.mapM f seat s = (.ok bs, u) ↔
      InTurn (fun a b s t => f a seat s = (.ok b, t)) as bs s u := by
  induction as generalizing bs s with
  | nil =>
    constructor
    · rintro ⟨⟩
      exact .nil _
    · rintro ⟨⟩
      rfl
  | cons a as ih =>
    simp only [List.mapM_cons, bind_eq_ok_iff]
    constructor
    · rintro ⟨b, t, head, bs, u, tail, ⟨⟩⟩
      exact .cons head (ih.1 tail)
    · rintro (_ | ⟨head, tail⟩)
      exact ⟨_, _, head, _, _, ih.2 tail, rfl⟩

end Action

namespace Buffers

/-! ### The byte that a number is stored as -/

/-- The integer part of a number modulo 256; zero for what is not finite. -/
def wrappedByte (x : Double) : Nat := if x.isFinite then (x.integerPart % 256).toNat else 0

/-- Whether a finite number is beyond the largest integer of 64 bits. -/
def isBeyond (x : Double) : Bool := x.isFinite && decide (Int.pow 2 63 ≤ x.integerPart)

/-- What a number is stored as: its integer part modulo 256 up to the largest integer of 64 bits,
and 255 beyond that. -/
def storedByte (x : Double) : Nat := if isBeyond x then 255 else wrappedByte x

/-- The last byte of a large integer part is zero. -/
theorem integerPart_emod_of_large {x : Double} (h : 2 ^ 60 ≤ x.integerPart.natAbs) :
    x.integerPart % 256 = 0 := by
  rw [Double.natAbs_integerPart] at h
  have hdvd : 2 ^ 8 ∣ x.whole := Double.pow_dvd_whole h
  rw [Double.integerPart_eq]
  split <;> omega

theorem isBeyond_iff {x : Double} :
    isBeyond x = true ↔ x.isFinite = true ∧ 9223372036854775808 ≤ x.integerPart := by
  have hpow : Int.pow 2 63 = 9223372036854775808 := rfl
  rw [isBeyond, hpow, Bool.and_eq_true, decide_eq_true_iff]

theorem toNat_byteOf (x : Double) : (byteOf x).toNat = storedByte x := by
  have hpow : Int.pow 2 63 = 9223372036854775808 := rfl
  simp only [byteOf, storedByte, isBeyond_iff, wrappedByte, hpow]
  cases x.isFinite with
  | false => rfl
  | true =>
    have hlarge : x.integerPart < -9223372036854775808 → x.integerPart % 256 = 0 := fun h =>
      integerPart_emod_of_large (by omega)
    simp only [if_true, true_and, UInt8.toNat_ofNat']
    split <;> omega

/-- What is stored is the integer part modulo 256 just up to the largest integer of 64 bits. -/
theorem storedByte_eq_wrappedByte_iff (x : Double) :
    storedByte x = wrappedByte x ↔ isBeyond x = false := by
  rw [storedByte]
  cases hbeyond : isBeyond x with
  | false => simp
  | true =>
    obtain ⟨hfinite, hle⟩ := isBeyond_iff.1 hbeyond
    have hzero : x.integerPart % 256 = 0 := integerPart_emod_of_large (by omega)
    simp [wrappedByte, hfinite, hzero]

/-- What a value is stored as: what is not a number counts as zero. -/
def storedElement (v : E.Value) : Nat := (E.asNumber v).elim 0 storedByte

theorem toNat_byteOf_getD (v : E.Value) :
    (byteOf ((E.asNumber v).getD .zero)).toNat = storedElement v := by
  have hzero : byteOf .zero = 0 := by decide +kernel
  rw [storedElement]
  cases E.asNumber v with
  | none => simp [hzero]
  | some x => exact toNat_byteOf x

/-- The bytes of elements. -/
def bytesOf (vs : List E.Value) : Bytes := vs.map fun v => byteOf ((E.asNumber v).getD .zero)

theorem map_toNat_eq_iff {bs : Bytes} {vs : List E.Value} :
    bs.map UInt8.toNat = vs.map storedElement ↔ bs = bytesOf vs := by
  have hstored : (bytesOf vs).map UInt8.toNat = vs.map storedElement := by
    simp [bytesOf, toNat_byteOf_getD]
  rw [← hstored, List.map_inj_right fun _ _ => UInt8.toNat_inj.1]

/-! ### Reading bytes -/

/-- The elements that are read from a value: its length is a number that buffers can have as their
length, and the elements stand under the indices below that. -/
def ArrayLike (seat : Seat) (v : E.Value) (elements : List E.Value) (s u : E.State) : Prop :=
  ∃ length x t, E.getProperty seat v "length" s = (.ok length, t) ∧ E.asNumber length = some x ∧
    lengthOf? x = some elements.length ∧
    Action.InTurn (fun (i : Nat) a s t => E.getProperty seat v (toString i) s = (.ok a, t))
      (List.range elements.length) elements t u

variable {v : E.Value} {elements : List E.Value} {s u : E.State} {function refusal : String}

theorem getProperty_eq_ok_iff {name : String} {a : E.Value} :
    EngineAction.getProperty v name seat s = (.ok a, u) ↔
      E.getProperty seat v name s = (.ok a, u) := by
  rw [EngineAction.getProperty, Action.ofEngine]
  rcases E.getProperty seat v name s with ⟨_ | a, t⟩ <;> simp [Except.mapError]

theorem checkedLength_eq_ok_iff {x : Double} {n : Nat} :
    checkedLength x function seat s = (.ok n, u) ↔ lengthOf? x = some n ∧ s = u := by
  rw [checkedLength]
  cases lengthOf? x with
  | none => simp [Action.bind_eq_ok_iff, Action.throw]
  | some m => simp [pure, Action.pure]

theorem lengthProperty_eq_ok_iff {n : Nat} :
    lengthProperty v function refusal seat s = (.ok n, u) ↔
      ∃ length x, E.getProperty seat v "length" s = (.ok length, u) ∧ E.asNumber length = some x ∧
        lengthOf? x = some n := by
  rw [lengthProperty, Action.bind_eq_ok_iff]
  constructor
  · rintro ⟨length, t, hlength, h⟩
    rw [getProperty_eq_ok_iff] at hlength
    cases hx : E.asNumber length with
    | none =>
      rw [hx] at h
      cases h
    | some x =>
      rw [hx] at h
      obtain ⟨hn, rfl⟩ := checkedLength_eq_ok_iff.1 h
      exact ⟨length, x, hlength, hx, hn⟩
  · rintro ⟨length, x, hlength, hx, hn⟩
    refine ⟨length, u, getProperty_eq_ok_iff.2 hlength, ?_⟩
    simp only [hx]
    exact checkedLength_eq_ok_iff.2 ⟨hn, rfl⟩

theorem items_eq_ok_iff {n : Nat} :
    items v n seat s = (.ok elements, u) ↔
      Action.InTurn (fun (i : Nat) a s t => E.getProperty seat v (toString i) s = (.ok a, t))
        (List.range n) elements s u := by
  rw [items, Action.collect, Action.mapM_eq_ok_iff]
  simp only [getProperty_eq_ok_iff]

/-- The elements of a value are read if its length can be, and after that. -/
theorem elements_eq_ok_iff (function refusal : String) :
    (lengthProperty v function refusal >>= items v) seat s = (.ok elements, u) ↔
      ArrayLike seat v elements s u := by
  rw [Action.bind_eq_ok_iff]
  constructor
  · rintro ⟨n, t, hlength, hitems⟩
    obtain ⟨length, x, hget, hx, hn⟩ := lengthProperty_eq_ok_iff.1 hlength
    have hin := items_eq_ok_iff.1 hitems
    obtain rfl : n = elements.length := by simpa using hin.length_eq
    exact ⟨length, x, t, hget, hx, hn, hin⟩
  · rintro ⟨length, x, t, hget, hx, hn, hin⟩
    exact ⟨_, t, lengthProperty_eq_ok_iff.2 ⟨length, x, hget, hx, hn⟩, items_eq_ok_iff.2 hin⟩

theorem readBytes_eq (v : E.Value) (function : String) : readBytes v function =
    (lengthProperty v function "argument must be a Buffer or an array of bytes" >>= items v) >>=
      fun vs => pure (bytesOf vs) := by
  rw [bind_assoc]
  rfl

/-- What is read as bytes are the elements, each as it is stored. -/
theorem readBytes_eq_ok_iff {bs : Bytes} :
    readBytes v function seat s = (.ok bs, u) ↔ ∃ elements,
      ArrayLike seat v elements s u ∧ bs.map UInt8.toNat = elements.map storedElement := by
  rw [readBytes_eq, Action.bind_eq_ok_iff]
  simp only [elements_eq_ok_iff, map_toNat_eq_iff]
  constructor
  · rintro ⟨elements, t, h, ⟨⟩⟩
    exact ⟨elements, h, rfl⟩
  · rintro ⟨elements, h, rfl⟩
    exact ⟨elements, u, h, rfl⟩

/-! ### Arrays of the form engine -/

/-- A length that buffers can have is what its number asks for. -/
theorem lengthOf?_ofNat {n : Nat} (h : n ≤ maxLength) : lengthOf? (.ofNat n) = some n := by
  have hmax : maxLength = 2147483647 := rfl
  have hholds : (Double.ofNat n).Holds false (n * Double.unitsPerOne) :=
    Double.holds_ofNat (by omega)
  have hpart : (Double.ofNat n).integerPart = n := Double.integerPart_ofNat (by omega)
  have hintegral : (Double.ofNat n).isIntegral = true := by
    rw [Double.isIntegral, hholds.magnitude, Nat.mul_mod_left, beq_self_eq_true]
  have hrank : (Double.ofNat n).rank = n * Double.unitsPerOne := by
    rw [Double.rank, if_pos hholds.isFinite, Double.units, hholds.negative, hholds.magnitude,
      if_neg Bool.false_ne_true, Int.natCast_mul]
  have hnan := Double.isNaN_of_isFinite hholds.isFinite
  have hatLeast : (Double.ofNat n).atLeast 0 = true := by
    rw [Double.atLeast, hnan, Bool.not_false, Bool.true_and, decide_eq_true_iff, hrank,
      Int.zero_mul]
    exact Int.mul_nonneg (Int.natCast_nonneg n) (Int.natCast_nonneg _)
  have hexceeds : (Double.ofNat n).exceeds maxLength = false := by
    rw [Double.exceeds, hnan, Bool.not_false, Bool.true_and, decide_eq_false_iff_not, Int.not_lt,
      hrank]
    exact Int.mul_le_mul_of_nonneg_right (Int.ofNat_le.2 h) (Int.natCast_nonneg _)
  rw [lengthOf?, hholds.isFinite, hatLeast, hintegral, hexceeds, hpart]
  rfl

theorem index?_toString {i : Nat} (h : i < 2 ^ 64) : Script.State.index? (toString i) = some i := by
  have hvalue : Double.digitsValue (Nat.toDigits 10 i) = i :=
    Nat.ofDigitChars_toDigits (by omega) (by omega)
  have hdigit : ∀ c ∈ Nat.toDigits 10 i, c.isDigit = true := fun c hc =>
    Nat.isDigit_of_mem_toDigits (by omega) (by omega) hc
  have hne : Nat.toDigits 10 i ≠ [] := Nat.toDigits_ne_nil
  have htext : (toString i).toList = Nat.toDigits 10 i := Nat.toList_repr
  rw [Script.State.index?, naturalOf?, htext]
  split
  · next cs heq =>
    have hplus := hdigit '+' (by rw [heq]; exact List.mem_cons_self)
    simp at hplus
  · simpa [hvalue, hne, Nat.pow_eq] using ⟨hdigit, h⟩

/-- The items of an array are read from it, unless that is trapped or there are too many. -/
theorem arrayLike_array {state : Script.State} {place : Nat} {o : Script.Object}
    {items : List Script.Value} (ho : state.heap[place]? = some o) (htraps : o.traps = [])
    (hkind : o.kind = .array items) (hlength : items.length ≤ maxLength) :
    ArrayLike (E := Script.engine) seat (.object place) items state state := by
  have hget : ∀ name, state.getProperty seat (.object place) name =
      (.ok (Script.State.lookup o name), state) := by
    intro name
    simp [Script.State.getProperty, Script.State.object?, ho, htraps]
  refine ⟨.number (.ofNat items.length), .ofNat items.length, state, ?_, rfl,
    lengthOf?_ofNat hlength, ?_⟩
  · simp [hget, Script.State.lookup, hkind]
  · have hitems : (List.range items.length).map (fun i => items[i]?.getD .undefined) = items := by
      apply List.ext_getElem <;> simp +contextual
    rw [← hitems, List.length_map, List.length_range]
    refine .of_unchanged fun i hi => ?_
    have hi : i < items.length := List.mem_range.1 hi
    have hindex : Script.State.index? (toString i) = some i := by
      have hmax : maxLength = 2147483647 := rfl
      exact index?_toString (by omega)
    have hname : toString i ≠ "length" := by
      have hnone : Script.State.index? "length" = none := by decide
      intro h
      simp [h, hnone] at hindex
    have hlookup : Script.State.lookup o (toString i) = items[i]?.getD .undefined := by
      simp only [Script.State.lookup, hkind, if_neg hname, hindex]
    exact (hget (toString i)).trans (by rw [hlookup])

/-! ### The functions that make buffers -/

theorem ArrayLike.readBytes_eq (h : ArrayLike seat v elements s u) (function : String) :
    readBytes v function seat s = (.ok (bytesOf elements), u) :=
  readBytes_eq_ok_iff.2 ⟨elements, h, map_toNat_eq_iff.2 rfl⟩

theorem ArrayLike.ofValue_eq (h : ArrayLike seat v elements s u) (hv : E.asString v = none)
    (this : E.Value) (rest : List E.Value) :
    invoke .ofValue this (v :: rest) seat s = toValue (bytesOf elements) seat u := by
  simp [invoke, bytesArgument, hv, Action.bind_def, h.readBytes_eq]

theorem ArrayLike.byteLength_eq (h : ArrayLike seat v elements s u) (hv : E.asString v = none)
    (this : E.Value) (rest : List E.Value) :
    invoke .byteLength this (v :: rest) seat s =
      (.ok (E.number (.ofNat (bytesOf elements).length)), u) := by
  simp [invoke, bytesArgument, hv, Action.bind_def, h.readBytes_eq, pure, Action.pure]

theorem ArrayLike.concat_eq {parts : List E.Value} {rows : List (List E.Value)} {t : E.State}
    (h : ArrayLike seat v parts s t) (hparts : Action.InTurn (ArrayLike seat) parts rows t u)
    (this : E.Value) (rest : List E.Value) :
    invoke .concat this (v :: rest) seat s = toValue (bytesOf rows.flatten) seat u := by
  have hread : parts.mapM (fun v => readBytes v "Buffer.concat") seat t =
      (.ok (rows.map bytesOf), u) :=
    Action.mapM_eq_ok_iff.2 (hparts.map bytesOf fun _ _ _ _ h => h.readBytes_eq _)
  have hflatten : (rows.map bytesOf).flatten = bytesOf rows.flatten := by
    rw [bytesOf, List.map_flatten]
    rfl
  obtain ⟨n, t', hlength, hitems⟩ := Action.bind_eq_ok_iff.1
    ((elements_eq_ok_iff "Buffer.concat" "list must be an array").2 h)
  simp only [invoke, concat, List.getElem?_cons_zero, Action.bind_def, hlength, hitems, hread,
    hflatten]

theorem repeated_singleton (b : UInt8) (n : Nat) : repeated [b] n = List.replicate n b := by
  simp [repeated, Nat.mod_one, List.map_const']

theorem alloc_eq {size fill : E.Value} {x y : Double} {n : Nat} (hsize : E.asNumber size = some x)
    (hn : lengthOf? x = some n) (hfill : E.asNumber fill = some y) (rest : List E.Value) :
    alloc (size :: fill :: rest) seat s = toValue (List.replicate n (byteOf y)) seat s := by
  have hlength : checkedLength x "Buffer.alloc" seat s = (.ok n, s) :=
    checkedLength_eq_ok_iff.2 ⟨hn, rfl⟩
  simp [alloc, Arguments.number, hsize, Action.ofExcept, Action.bind_def, Action.pure, hlength,
    hfill, repeated_singleton]

/-- A buffer that is made from elements, be it out of one value or out of several put together, has
the elements as its bytes, each as it is stored, and a buffer that is filled with a number has that
under each index. What is stored of a finite number is its integer part modulo 256 just up to the
largest integer of 64 bits; beyond that it is 255. -/
theorem bytes_stored (seat : Seat) (this : E.Value) (rest : List E.Value) :
    (∀ x, storedByte x = wrappedByte x ↔ isBeyond x = false) ∧
      (∀ v elements s u, E.asString v = none → ArrayLike seat v elements s u →
        ∃ bs : Bytes, bs.map UInt8.toNat = elements.map storedElement ∧
          invoke .ofValue this (v :: rest) seat s = toValue bs seat u ∧
          invoke .byteLength this (v :: rest) seat s = (.ok (E.number (.ofNat bs.length)), u)) ∧
      (∀ list parts (rows : List (List E.Value)) s t u, ArrayLike seat list parts s t →
        Action.InTurn (ArrayLike seat) parts rows t u →
        ∃ bs : Bytes, bs.map UInt8.toNat = rows.flatten.map storedElement ∧
          invoke .concat this (list :: rest) seat s = toValue bs seat u) ∧
      (∀ size fill x y n s, E.asNumber size = some x → lengthOf? x = some n →
        E.asNumber fill = some y →
        ∃ bs : Bytes, bs.map UInt8.toNat = List.replicate n (storedByte y) ∧
          invoke .alloc this (size :: fill :: rest) seat s = toValue bs seat s) := by
  refine ⟨storedByte_eq_wrappedByte_iff, ?_, ?_, ?_⟩
  · intro v elements s u hv h
    exact ⟨bytesOf elements, map_toNat_eq_iff.2 rfl, h.ofValue_eq hv this rest,
      h.byteLength_eq hv this rest⟩
  · intro list parts rows s t u h hparts
    exact ⟨bytesOf rows.flatten, map_toNat_eq_iff.2 rfl, h.concat_eq hparts this rest⟩
  · intro size fill x y n s hsize hn hfill
    exact ⟨List.replicate n (byteOf y), by simp [toNat_byteOf], alloc_eq hsize hn hfill rest⟩

/-- Two arrays of a number, a negative number and a text, put together, and a filled buffer. -/
theorem bytes_stored_arrays :
    let items : List Script.Value := [.number (.ofNat 300), .number (.ofInt (-1)), .string "1"]
    let state : Script.State :=
      ⟨#[⟨.empty, [], .array items⟩, ⟨.empty, [], .array [.object 0, .object 0]⟩], [{}]⟩
    let made (f : BufferFunction) (args : List Script.Value) (bytes : List Nat) : Prop :=
      ∃ bs : Bytes, bs.map UInt8.toNat = bytes ∧
        invoke (E := Script.engine) f .undefined args 0 state = toValue bs 0 state
    made .ofValue [.object 0] [44, 255, 0] ∧
      made .concat [.object 1] [44, 255, 0, 44, 255, 0] ∧
      made .alloc [.number (.ofNat 2), .number (.ofNat 300)] [44, 44] := by
  intro items state made
  obtain ⟨-, hvalue, hconcat, halloc⟩ := bytes_stored (E := Script.engine) 0 .undefined []
  have hitems : ArrayLike (E := Script.engine) 0 (.object 0) items state state :=
    arrayLike_array rfl rfl rfl (by decide)
  have hparts : ArrayLike (E := Script.engine) 0 (.object 1) [.object 0, .object 0] state state :=
    arrayLike_array rfl rfl rfl (by decide)
  refine ⟨?_, ?_, ?_⟩
  · obtain ⟨bs, hbs, hmade, -⟩ := hvalue _ items state state rfl hitems
    exact ⟨bs, hbs.trans (by decide +kernel), hmade⟩
  · obtain ⟨bs, hbs, hmade⟩ := hconcat _ _ [items, items] state state state hparts
      (.cons hitems (.cons hitems (.nil state)))
    exact ⟨bs, hbs.trans (by decide +kernel), hmade⟩
  · obtain ⟨bs, hbs, hmade⟩ := halloc (.number (.ofNat 2)) (.number (.ofNat 300)) _ _ 2 state rfl
      (lengthOf?_ofNat (by decide)) rfl
    exact ⟨bs, hbs.trans (by decide +kernel), hmade⟩

/-- The number just beyond the largest integer of 64 bits is stored as 255, although its integer
part is zero modulo 256. -/
theorem beyond_storedAsLargest :
    let x : Double := ⟨false, 1086, 0⟩
    let state : Script.State := ⟨#[⟨.empty, [], .array [.number x]⟩], [{}]⟩
    x.integerPart = 9223372036854775808 ∧ wrappedByte x = 0 ∧
      ((do readBytes (← invoke .ofValue .undefined [.object 0]) "" :
        EngineAction Script.engine Bytes) 0 state).1.toOption = some [255] := by
  decide +kernel

end Buffers

end ScriptHost
