import ScriptHost.Proofs.Buffers.ByteValues

/-!
# Ranges of bytes

Scripts ask for a range of bytes by two numbers. The rule for such a number looks at its integer
part: below zero it counts from the end, and not below the first byte; otherwise it counts from the
start, and not beyond the last byte. Whether a number counts from the end is however decided before
the number is truncated. So a number between minus one and zero counts from the end, although its
integer part is zero, and asks for the index behind the last byte. For all other numbers the index
is the one that the rule gives, and a number asks for the same index as its integer part.

## Main definitions

* `Double.isNegativeFraction`: the numbers between minus one and zero.
* `Buffers.ruledIndex`: the index of the rule.
* `Buffers.askedIndex`: the index that a number asks for.
* `Buffers.IsRange`: the bytes from one index up to another.

## Main results

* `Buffers.relativeIndex_eq`, `Buffers.askedIndex_truncate`: the index that a number asks for, and
  the one that its integer part asks for.
* `Buffers.ranges_ruled`: the bytes that are selected by slicing and by reading as a text.
-/

namespace ScriptHost

/-- Whether a number lies between minus one and zero, both left out. -/
def Double.isNegativeFraction (x : Double) : Bool :=
  x.isFinite && x.lt .zero && x.integerPart == 0

/-- What is truncated does not lie between minus one and zero. -/
theorem Double.isNegativeFraction_truncate (x : Double) :
    x.truncate.isNegativeFraction = false := by
  cases hfinite : x.isFinite with
  | false => simp [truncate_of_not_isFinite hfinite, isNegativeFraction, hfinite]
  | true =>
    have hholds := truncate_holds hfinite
    rw [isNegativeFraction, hholds.isFinite, Bool.true_and, Bool.and_eq_false_iff,
      or_iff_not_imp_left, Bool.not_eq_false, lt_zero_iff hholds.isFinite, hholds.magnitude]
    rintro ⟨-, hne⟩
    rw [beq_eq_false_iff_ne, hholds.integerPart_eq]
    have hwhole : x.whole ≠ 0 := fun h => hne (by rw [h, Nat.zero_mul])
    split <;> omega

namespace Buffers

variable {E : Engine}

/-! ### The index that a number asks for -/

/-- The index into `length` bytes that a number asks for by the rule. An infinity lies beyond all
bytes; without a value the index is zero. -/
def ruledIndex (x : Double) (length : Nat) : Int :=
  if x.isNaN then 0
  else if x.isInfinite then if x.negative then 0 else length
  else if x.integerPart < 0 then max (length + x.integerPart) 0
  else min x.integerPart length

/-- The index into `length` bytes that is asked for: the one of the rule, except between minus one
and zero, where it is the index behind the last byte. Without a number it is `default`. -/
def askedIndex (x? : Option Double) (default length : Nat) : Int :=
  x?.elim default fun x => if x.isNegativeFraction then length else ruledIndex x length

theorem relativeIndex_eq (x? : Option Double) (default length : Nat) :
    (relativeIndex x? default length : Int) = askedIndex x? default length := by
  cases x? with
  | none => rfl
  | some x =>
    rw [relativeIndex, askedIndex, Option.elim_some, ruledIndex]
    cases hnan : x.isNaN with
    | true => simp [Double.isNegativeFraction, Double.isFinite_eq, hnan]
    | false =>
      cases hinf : x.isInfinite with
      | true => cases x.negative <;> simp [Double.isNegativeFraction, Double.isFinite_eq, hinf]
      | false =>
        have hfinite : x.isFinite = true := by simp [Double.isFinite_eq, hnan, hinf]
        rw [Double.isNegativeFraction, hfinite]
        -- The sign is that of the number here, but that of its integer part in the rule.
        cases hlt : x.lt .zero with
        | true =>
          have hle := Double.integerPart_nonpos hfinite hlt
          by_cases hzero : x.integerPart = 0
          · simp [hzero]
          · simp [hzero]
            omega
        | false =>
          have hle := Double.integerPart_nonneg hfinite hlt
          simp
          omega

theorem ruledIndex_truncate (x : Double) (length : Nat) :
    ruledIndex x.truncate length = ruledIndex x length := by
  cases hfinite : x.isFinite with
  | false => rw [Double.truncate_of_not_isFinite hfinite]
  | true =>
    have hholds := Double.truncate_holds hfinite
    simp [ruledIndex, Double.isNaN_of_isFinite hfinite, Double.isInfinite_of_isFinite hfinite,
      Double.isNaN_of_isFinite hholds.isFinite, Double.isInfinite_of_isFinite hholds.isFinite,
      Double.integerPart_truncate hfinite]

/-- The integer part of a number always asks for the index that the rule gives for the number. -/
theorem askedIndex_truncate (x : Double) (default length : Nat) :
    askedIndex (some x.truncate) default length = ruledIndex x length := by
  rw [askedIndex, Option.elim_some, x.isNegativeFraction_truncate, ruledIndex_truncate]
  rfl

/-! ### The bytes that are selected -/

/-- The bytes from one index up to another. -/
def IsRange (part bs : Bytes) (start stop : Int) : Prop :=
  ∀ k : Nat, part[k]? = if start + k < stop then bs[(start + k).toNat]? else none

theorem isRange_slice (bs : Bytes) (start stop : Nat) :
    IsRange (bs.slice start stop) bs start stop := by
  intro k
  rw [Bytes.slice, List.getElem?_drop, List.getElem?_take]
  simp only [← Int.natCast_add, Int.ofNat_lt, Int.toNat_natCast]

theorem isRange_relativeIndex (bs : Bytes) (x? y? : Option Double) :
    IsRange (bs.slice (relativeIndex x? 0 bs.length) (relativeIndex y? bs.length bs.length)) bs
      (askedIndex x? 0 bs.length) (askedIndex y? bs.length bs.length) := by
  rw [← relativeIndex_eq, ← relativeIndex_eq]
  exact isRange_slice bs _ _

/-- Slicing a buffer and reading it as a text select its bytes from one index up to another, each as
a number asks for it. That is the index of the rule, but for the numbers between minus one and zero;
the integer part of a number asks for the index of the rule, whatever the number. -/
theorem ranges_ruled {seat : Seat} {this : E.Value} {elements : List E.Value} {s t : E.State}
    (h : ArrayLike seat this elements s t) (args : List E.Value) :
    let bs := bytesOf elements
    let asked := fun i default => askedIndex (args[i]?.bind E.asNumber) default bs.length
    (∀ x default length, askedIndex (some x.truncate) default length = ruledIndex x length) ∧
      (∃ part, IsRange part bs (asked 0 0) (asked 1 bs.length) ∧
        invoke .slice this args seat s = toValue part seat t) ∧
      ∀ encoding u, encodingArgument args 0 "buffer.toString" seat t = (.ok encoding, u) →
        ∃ part, IsRange part bs (asked 1 0) (asked 2 bs.length) ∧
          invoke .text this args seat s = (.ok (E.string (encoding.decode part)), u) := by
  intro bs asked
  refine ⟨askedIndex_truncate, ?_, ?_⟩
  · refine ⟨_, isRange_relativeIndex bs _ _, ?_⟩
    simp only [invoke, Action.bind_def, h.readBytes_eq, indexArgument]
    rfl
  · intro encoding u hencoding
    refine ⟨_, isRange_relativeIndex bs _ _, ?_⟩
    simp only [invoke, Action.bind_def, h.readBytes_eq, hencoding, indexArgument]
    rfl

/-- From the second byte up to the last one. -/
theorem ranges_ruled_array :
    let bytes : List Script.Value := [.number (.ofNat 97), .number (.ofNat 98), .number (.ofNat 99)]
    let state : Script.State := ⟨#[⟨.empty, [], .array bytes⟩], [{}]⟩
    let one : Script.Value := .number (.ofNat 1)
    let last : Script.Value := .number (.ofInt (-1))
    (∃ part, IsRange part [97, 98, 99] 1 2 ∧
        invoke (E := Script.engine) .slice (.object 0) [one, last] 0 state = toValue part 0 state) ∧
      ∃ part, IsRange part [97, 98, 99] 1 2 ∧
        invoke (E := Script.engine) .text (.object 0) [.undefined, one, last] 0 state =
          (.ok (.string (Encoding.utf8.decode part)), state) := by
  intro bytes state one last
  have hbytes : ArrayLike (E := Script.engine) 0 (.object 0) bytes state state :=
    arrayLike_array rfl rfl rfl (by decide)
  have hasked : bytesOf (E := Script.engine) bytes = [97, 98, 99] ∧
      askedIndex (some (.ofNat 1)) 0 3 = 1 ∧ askedIndex (some (.ofInt (-1))) 3 3 = 2 := by
    decide +kernel
  have hrange : ∀ part, IsRange part (bytesOf (E := Script.engine) bytes)
      (askedIndex (some (.ofNat 1)) 0 3) (askedIndex (some (.ofInt (-1))) 3 3) →
      IsRange part [97, 98, 99] 1 2 := by
    intro part h
    rwa [hasked.1, hasked.2.1, hasked.2.2] at h
  constructor
  · obtain ⟨-, ⟨part, hpart, hmade⟩, -⟩ := ranges_ruled hbytes [one, last]
    exact ⟨part, hrange part hpart, hmade⟩
  · obtain ⟨-, -, htext⟩ := ranges_ruled hbytes [.undefined, one, last]
    obtain ⟨part, hpart, hmade⟩ := htext .utf8 state rfl
    exact ⟨part, hrange part hpart, hmade⟩

/-- Sliced from minus one half on, three bytes leave none; from the integer part of that on, which
is zero, they are all there, as the rule has it. -/
theorem negativeHalf_selectsNothing :
    let half : Double := ⟨true, 1022, 0⟩
    let bytes : List Script.Value := [.number (.ofNat 97), .number (.ofNat 98), .number (.ofNat 99)]
    let state : Script.State := ⟨#[⟨.empty, [], .array bytes⟩], [{}]⟩
    let slicedFrom (x : Double) : Option Bytes :=
      ((do readBytes (← invoke .slice (.object 0) [.number x]) "" :
        EngineAction Script.engine Bytes) 0 state).1.toOption
    ruledIndex half 3 = 0 ∧ slicedFrom half = some [] ∧
      slicedFrom half.truncate = some [97, 98, 99] := by
  decide +kernel

end Buffers

end ScriptHost
