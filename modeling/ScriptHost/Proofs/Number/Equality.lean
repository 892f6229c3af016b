import ScriptHost.Proofs.Number.Truncation

/-!
# Equality of numbers

A finite number lies below both infinities in magnitude, so what equals it is finite and has the
same value. Natural numbers up to `2 ^ 53` are held without rounding, `2 ^ 53` itself included: no
two of them have equal doubles.

## Main results

* `Double.equal_iff`: equality with a finite number is equality of values.
* `Double.units_eq_of_isIntegral`, `Double.integerPart_of_units`: whole numbers.
* `Double.holds_ofNat_of_le`: natural numbers up to `2 ^ 53` are held without rounding.
* `Double.equal_ofNat_iff`, `Double.equal_ofNat_ofNat`: what equals such a number.
-/

namespace ScriptHost.Double

variable {x y : Double} {n m : Nat}

theorem natAbs_units (x : Double) : x.units.natAbs = x.magnitude := by
  rw [units]
  split
  · rw [Int.natAbs_neg, Int.natAbs_natCast]
  · rw [Int.natAbs_natCast]

/-- A finite magnitude lies below the rank of the infinities. The exponent has a name of its own
because nothing here should compute the power. -/
theorem natAbs_units_lt (h : x.isFinite = true) {e : Nat} (he : e = 2200) :
    x.units.natAbs < 2 ^ e := by
  have hexponent : x.exponent.val < 2047 := of_decide_eq_true h
  rw [natAbs_units]
  refine Nat.lt_of_lt_of_le x.magnitude_lt (Nat.pow_le_pow_right Nat.two_pos ?_)
  rw [scale]
  omega

theorem rank_of_isFinite (h : x.isFinite = true) : x.rank = x.units := if_pos h

/-- The rank of an infinity is that of no finite number. -/
theorem rank_ne_units (hx : x.isFinite = false) (hy : y.isFinite = true) : x.rank ≠ y.units := by
  obtain ⟨e, he⟩ : ∃ e, e = 2200 := ⟨_, rfl⟩
  have hlt := natAbs_units_lt hy he
  have hrank : x.rank.natAbs = 2 ^ e := by
    rw [rank, if_neg (Bool.eq_false_iff.1 hx), ← he]
    split
    · rw [Int.natAbs_neg, Int.pow_eq, Int.natAbs_pow]
      rfl
    · rw [Int.pow_eq, Int.natAbs_pow]
      rfl
  exact fun heq => Nat.ne_of_gt hlt (heq ▸ hrank.symm)

/-- What equals a finite number is finite and has the same value. -/
theorem equal_iff (hx : x.isFinite = true) :
    x.equal y = true ↔ y.isFinite = true ∧ y.units = x.units := by
  rw [equal, isNaN_of_isFinite hx, rank_of_isFinite hx]
  cases hy : y.isFinite with
  | true => simp [isNaN_of_isFinite hy, rank_of_isFinite hy, eq_comm]
  | false => simp [(rank_ne_units hy hx).symm]

/-! ### Whole numbers -/

theorem cast_unitsPerOne_pos : (0 : Int) < unitsPerOne := Int.natCast_pos.2 unitsPerOne_pos

theorem units_eq_of_isIntegral (h : x.isIntegral = true) :
    x.units = x.integerPart * unitsPerOne := by
  have hdvd : (unitsPerOne : Int) ∣ x.units := by
    rw [Int.ofNat_dvd_left, natAbs_units]
    exact dvd_magnitude_of_isIntegral h
  exact (Int.tdiv_mul_cancel hdvd).symm

section Units

variable {k : Int} (hk : x.units = k * unitsPerOne)

include hk

theorem integerPart_of_units : x.integerPart = k := by
  rw [integerPart, hk]
  exact Int.mul_tdiv_cancel k (Int.ne_of_gt cast_unitsPerOne_pos)

theorem isIntegral_of_units : x.isIntegral = true := by
  rw [isIntegral, beq_iff_eq, ← natAbs_units, hk, Int.natAbs_mul, Int.natAbs_natCast]
  exact Nat.mul_mod_left ..

theorem atLeast_iff_of_units (h : x.isFinite = true) (n : Int) : x.atLeast n = true ↔ n ≤ k := by
  rw [atLeast, isNaN_of_isFinite h, rank_of_isFinite h, hk, Bool.not_false, Bool.true_and,
    decide_eq_true_iff, Int.mul_le_mul_right cast_unitsPerOne_pos]

theorem exceeds_iff_of_units (h : x.isFinite = true) (n : Int) : x.exceeds n = true ↔ n < k := by
  rw [exceeds, isNaN_of_isFinite h, rank_of_isFinite h, hk, Bool.not_false, Bool.true_and,
    decide_eq_true_iff, Int.mul_lt_mul_right cast_unitsPerOne_pos]

end Units

/-! ### Natural numbers -/

theorem Holds.units_eq {k : Nat} (h : x.Holds false k) : x.units = k := by
  rw [units, h.negative, h.magnitude]
  rfl

/-- A natural number up to `2 ^ 53` is held without rounding. -/
theorem holds_ofNat_of_le (hn : n ≤ 2 ^ 53) : (ofNat n).Holds false (n * unitsPerOne) := by
  rcases Nat.lt_or_eq_of_le hn with hlt | rfl
  · exact holds_ofNat hlt
  · obtain ⟨k, hk, hunits⟩ := exists_unitsPerOne_eq
    have hlog : (2 ^ (53 + k)).log2 = 53 + k := Nat.log2_two_pow
    rw [ofNat, hunits, ← Nat.pow_add]
    refine ofUnits_exact false ?_ (by omega)
    exact Nat.pow_dvd_pow 2 (by omega)

theorem units_ofNat (hn : n ≤ 2 ^ 53) : (ofNat n).units = n * unitsPerOne := by
  rw [(holds_ofNat_of_le hn).units_eq, Int.natCast_mul]

/-- What equals a natural number up to `2 ^ 53` has exactly its value. -/
theorem equal_ofNat_iff (hn : n ≤ 2 ^ 53) :
    (ofNat n).equal x = true ↔ x.isFinite = true ∧ x.units = n * unitsPerOne := by
  rw [equal_iff (holds_ofNat_of_le hn).isFinite, units_ofNat hn]

/-- Natural numbers up to `2 ^ 53` have equal doubles only if they are equal. -/
theorem equal_ofNat_ofNat (hn : n ≤ 2 ^ 53) (hm : m ≤ 2 ^ 53) :
    (ofNat n).equal (ofNat m) = true ↔ n = m := by
  have hne : (unitsPerOne : Int) ≠ 0 := Int.ne_of_gt cast_unitsPerOne_pos
  rw [equal_ofNat_iff hn, units_ofNat hm, Int.mul_eq_mul_right_iff hne, Int.natCast_inj]
  exact ⟨fun h => h.2.symm, fun h => ⟨(holds_ofNat_of_le hm).isFinite, h.symm⟩⟩

end ScriptHost.Double
