import ScriptHost.Number.Rounding
import Mathlib.Algebra.Group.Nat.Even

/-!
# Whole numbers and truncation

A finite double is a significand below `2 ^ 53` times a power of two. So if its integer part is
large, the low bits of that are all zero; and if it is not a whole number, its integer part is below
`2 ^ 53`. A magnitude that has no more than 53 bits from its first to its last one is held without
rounding, hence so is the integer part of every double: truncating a number gives a number with the
same sign and the same integer part, and no fraction.

## Main definitions

* `Double.whole`: the absolute value of the integer part.
* `Double.Holds`: a double with a sign and a magnitude.

## Main results

* `Double.pow_dvd_whole`: the low bits of a large integer part are zero.
* `Double.ofUnits_exact`, `Double.ofUnits_whole`: what is held without rounding.
* `Double.truncate_holds`, `Double.integerPart_truncate`: what truncation keeps.
-/

namespace ScriptHost.Double

variable {x : Double}

/-! ### Classes -/

theorem isFinite_eq (x : Double) : x.isFinite = (!x.isNaN && !x.isInfinite) := by
  have hlt := x.exponent.isLt
  rw [Bool.eq_iff_iff]
  simp only [isNaN, isInfinite, isFinite, decide_eq_true_iff, Bool.and_eq_true, Bool.not_eq_true',
    Bool.and_eq_false_iff, beq_eq_false_iff_ne, bne_eq_false_iff_eq]
  omega

theorem isNaN_of_isFinite (h : x.isFinite = true) : x.isNaN = false := by
  rw [isFinite_eq, Bool.and_eq_true, Bool.not_eq_true'] at h
  exact h.1

theorem isInfinite_of_isFinite (h : x.isFinite = true) : x.isInfinite = false := by
  rw [isFinite_eq, Bool.and_eq_true, Bool.not_eq_true', Bool.not_eq_true'] at h
  exact h.2

/-! ### Significand and magnitude -/

/-- One is a power of two in units. The exponent has a name of its own because nothing here should
compute the power. -/
theorem exists_unitsPerOne_eq : ∃ n, n = 1074 ∧ unitsPerOne = 2 ^ n := by
  have heq : ∀ n, n = 1074 → unitsPerOne = Nat.pow 2 n := by
    intro n hn
    subst hn
    delta unitsPerOne
    with_reducible rfl
  obtain ⟨n, hn⟩ : ∃ n, n = 1074 := ⟨_, rfl⟩
  exact ⟨n, hn, (heq n hn).trans Nat.pow_eq⟩

theorem unitsPerOne_pos : 0 < unitsPerOne := by
  obtain ⟨n, -, hn⟩ := exists_unitsPerOne_eq
  exact hn ▸ Nat.two_pow_pos n

theorem significand_lt (x : Double) : x.significand < 2 ^ 53 := by
  have hlt : x.fraction.val < 2 ^ 52 := x.fraction.isLt
  rw [significand]
  split
  · omega
  · simp only [Nat.pow_eq]
    omega

theorem magnitude_eq (x : Double) : x.magnitude = x.significand * 2 ^ x.scale := by
  rw [magnitude, Nat.pow_eq]

theorem magnitude_lt (x : Double) : x.magnitude < 2 ^ (53 + x.scale) := by
  rw [magnitude_eq, Nat.pow_add]
  exact Nat.mul_lt_mul_of_pos_right x.significand_lt (Nat.two_pow_pos _)

/-! ### The integer part -/

/-- The absolute value of the integer part. -/
def whole (x : Double) : Nat := x.magnitude / unitsPerOne

theorem integerPart_eq (x : Double) :
    x.integerPart = if x.negative then -(x.whole : Int) else (x.whole : Int) := by
  rw [integerPart, units, whole]
  split
  · rw [Int.neg_tdiv, Int.ofNat_tdiv]
  · rw [Int.ofNat_tdiv]

theorem natAbs_integerPart (x : Double) : x.integerPart.natAbs = x.whole := by
  rw [integerPart_eq]
  split
  · rw [Int.natAbs_neg, Int.natAbs_natCast]
  · rw [Int.natAbs_natCast]

/-- The low bits of a large integer part are zero. -/
theorem pow_dvd_whole {e : Nat} (h : 2 ^ (52 + e) ≤ x.whole) : 2 ^ e ∣ x.whole := by
  obtain ⟨n, -, hn⟩ := exists_unitsPerOne_eq
  rw [whole, hn] at h ⊢
  have hle : 2 ^ (52 + e + n) < 2 ^ (53 + x.scale) :=
    calc 2 ^ (52 + e + n) = 2 ^ (52 + e) * 2 ^ n := Nat.pow_add ..
      _ ≤ x.magnitude := (Nat.le_div_iff_mul_le (Nat.two_pow_pos n)).1 h
      _ < 2 ^ (53 + x.scale) := x.magnitude_lt
  have hscale : n + e ≤ x.scale := by
    have hlt := (Nat.pow_lt_pow_iff_right Nat.one_lt_two).1 hle
    omega
  apply Nat.dvd_div_of_mul_dvd
  rw [← Nat.pow_add, magnitude_eq]
  exact Nat.dvd_mul_left_of_dvd (Nat.pow_dvd_pow 2 hscale) _

theorem dvd_magnitude_of_isIntegral (h : x.isIntegral = true) : unitsPerOne ∣ x.magnitude := by
  rw [isIntegral, beq_iff_eq] at h
  exact Nat.dvd_of_mod_eq_zero h

/-- What is not a whole number is not large. -/
theorem whole_lt_of_not_isIntegral (h : x.isIntegral = false) : x.whole < 2 ^ 53 := by
  obtain ⟨n, -, hn⟩ := exists_unitsPerOne_eq
  have hscale : x.scale < n := by
    by_contra hge
    rw [isIntegral, beq_eq_false_iff_ne] at h
    apply h
    rw [hn, magnitude_eq]
    exact Nat.mod_eq_zero_of_dvd
      (Nat.dvd_mul_left_of_dvd (Nat.pow_dvd_pow 2 (Nat.le_of_not_lt hge)) _)
  rw [whole, hn, Nat.div_lt_iff_lt_mul (Nat.two_pow_pos n), ← Nat.pow_add]
  exact Nat.lt_of_lt_of_le x.magnitude_lt (Nat.pow_le_pow_right Nat.two_pos (by omega))

/-! ### What is held without rounding -/

/-- A double with the sign and the magnitude asked for. -/
structure Holds (x : Double) (negative : Bool) (magnitude : Nat) : Prop where
  isFinite : x.isFinite = true
  negative : x.negative = negative
  magnitude : x.magnitude = magnitude

theorem nearestQuotient_of_dvd {a d : Nat} (hd : 0 < d) (h : d ∣ a) :
    nearestQuotient a d = a / d := by
  simp [nearestQuotient, Nat.mod_eq_zero_of_dvd h, hd]

/-- A significand that is normalized is held with its power. -/
theorem ofSignificand_holds {m p : Nat} (negative : Bool) (hm : m < 2 ^ 53)
    (hnormal : 2 ^ 52 ≤ m ∨ p = 0) (hp : p ≤ 2045) :
    (ofSignificand negative m p).Holds negative (m * 2 ^ p) := by
  rw [ofSignificand, Nat.pow_eq, Nat.pow_eq]
  split
  · next hsmall =>
    have hp : p = 0 := hnormal.resolve_left (Nat.not_le_of_lt hsmall)
    have hfraction : m % Nat.pow 2 52 = m := by
      rw [Nat.pow_eq]
      exact Nat.mod_eq_of_lt hsmall
    exact ⟨rfl, rfl, by simp [hp, magnitude_eq, significand, scale, ofFields, hfraction]⟩
  · next hlarge =>
    have hexponent : (p + 1) % 2048 = p + 1 := Nat.mod_eq_of_lt (by omega)
    have hsignificand : (ofFields negative (p + 1) m).significand = m := by
      have hfraction : m % Nat.pow 2 52 = m - 2 ^ 52 := by
        rw [Nat.pow_eq]
        omega
      simp [significand, ofFields, hexponent, hfraction]
      omega
    have hscale : (ofFields negative (p + 1) m).scale = p := by
      simp [scale, ofFields, hexponent]
    dsimp only
    rw [if_pos (by omega)]
    refine ⟨?_, rfl, by rw [magnitude_eq, hsignificand, hscale]⟩
    simp [isFinite, ofFields, hexponent]
    omega

/-- A magnitude is held without rounding if it has no more than 53 bits from its first to its last
one and is not too large. -/
theorem ofUnits_exact {a : Nat} (negative : Bool) (hbits : 2 ^ (a.log2 - 52) ∣ a)
    (hlarge : a.log2 ≤ 2097) : (ofUnits negative a 1).Holds negative a := by
  rw [ofUnits, Nat.div_one]
  generalize hp : a.log2 - 52 = p at hbits ⊢
  have hpos := Nat.two_pow_pos p
  rw [Nat.one_mul, Nat.pow_eq, nearestQuotient_of_dvd hpos hbits]
  have hlt : a / 2 ^ p < 2 ^ 53 := by
    rw [Nat.div_lt_iff_lt_mul hpos, ← Nat.pow_add]
    exact Nat.lt_of_lt_of_le Nat.lt_log2_self (Nat.pow_le_pow_right Nat.two_pos (by omega))
  have hnormal : 2 ^ 52 ≤ a / 2 ^ p ∨ p = 0 := by
    by_cases hzero : p = 0
    · exact .inr hzero
    · left
      have ha : a ≠ 0 := by
        rintro rfl
        simp at hp
        omega
      rw [Nat.le_div_iff_mul_le hpos, ← Nat.pow_add]
      exact Nat.le_trans (Nat.pow_le_pow_right Nat.two_pos (by omega)) (Nat.log2_self_le ha)
  have hholds := ofSignificand_holds negative hlt hnormal (by omega)
  rwa [Nat.div_mul_cancel hbits] at hholds

/-- A whole number below `2 ^ 53` is held without rounding. -/
theorem ofUnits_whole {k : Nat} (negative : Bool) (hk : k < 2 ^ 53) :
    (ofUnits negative (k * unitsPerOne) 1).Holds negative (k * unitsPerOne) := by
  obtain ⟨n, hn, hunits⟩ := exists_unitsPerOne_eq
  rw [hunits]
  have hlog : (k * 2 ^ n).log2 ≤ 52 + n := by
    by_cases hzero : k * 2 ^ n = 0
    · rw [hzero, Nat.log2_zero]
      omega
    · rw [← Nat.lt_succ_iff, Nat.log2_lt hzero]
      calc k * 2 ^ n < 2 ^ 53 * 2 ^ n := Nat.mul_lt_mul_of_pos_right hk (Nat.two_pow_pos n)
        _ = 2 ^ (53 + n) := (Nat.pow_add ..).symm
        _ = 2 ^ (52 + n + 1) := by rw [Nat.add_right_comm]
  refine ofUnits_exact negative ?_ (by omega)
  exact Nat.dvd_mul_left_of_dvd (Nat.pow_dvd_pow 2 (by omega)) k

/-! ### Truncation -/

/-- Truncation of a finite number keeps the sign and leaves no fraction. -/
theorem truncate_holds (hfinite : x.isFinite = true) :
    x.truncate.Holds x.negative (x.whole * unitsPerOne) := by
  rw [truncate, hfinite, Bool.not_true, Bool.false_or]
  split
  · next h =>
    exact ⟨hfinite, rfl, (Nat.div_mul_cancel (dvd_magnitude_of_isIntegral h)).symm⟩
  · next h =>
    rw [Bool.not_eq_true] at h
    rw [natAbs_integerPart]
    exact ofUnits_whole x.negative (whole_lt_of_not_isIntegral h)

theorem truncate_of_not_isFinite (h : x.isFinite = false) : x.truncate = x := by
  simp [truncate, h]

theorem Holds.integerPart_eq {negative : Bool} {k : Nat} (h : x.Holds negative (k * unitsPerOne)) :
    x.integerPart = if negative then -(k : Int) else (k : Int) := by
  rw [Double.integerPart_eq, h.negative, whole, h.magnitude,
    Nat.mul_div_cancel _ unitsPerOne_pos]

theorem holds_ofNat {n : Nat} (hn : n < 2 ^ 53) : (ofNat n).Holds false (n * unitsPerOne) :=
  ofUnits_whole false hn

theorem integerPart_ofNat {n : Nat} (hn : n < 2 ^ 53) : (ofNat n).integerPart = n := by
  rw [(holds_ofNat hn).integerPart_eq, if_neg Bool.false_ne_true]

/-- Truncation keeps the integer part. -/
theorem integerPart_truncate (h : x.isFinite = true) : x.truncate.integerPart = x.integerPart := by
  rw [(truncate_holds h).integerPart_eq, integerPart_eq]

/-! ### Numbers below zero -/

/-- A finite number is below zero if it is negative and not zero. -/
theorem lt_zero_iff (h : x.isFinite = true) :
    x.lt .zero = true ↔ x.negative = true ∧ x.magnitude ≠ 0 := by
  have hzero : Double.zero.isNaN = false ∧ Double.zero.rank = 0 := by decide
  rw [lt, isNaN_of_isFinite h, hzero.1, hzero.2, rank, if_pos h, units]
  cases x.negative <;> simp [Nat.pos_iff_ne_zero]

theorem integerPart_nonpos (h : x.isFinite = true) (hlt : x.lt .zero = true) :
    x.integerPart ≤ 0 := by
  rw [integerPart_eq, if_pos ((lt_zero_iff h).1 hlt).1]
  omega

theorem integerPart_nonneg (h : x.isFinite = true) (hlt : x.lt .zero = false) :
    0 ≤ x.integerPart := by
  rw [← Bool.not_eq_true, lt_zero_iff h, not_and, not_not] at hlt
  rw [integerPart_eq]
  split
  · next hnegative => simp [whole, hlt hnegative]
  · omega

end ScriptHost.Double
