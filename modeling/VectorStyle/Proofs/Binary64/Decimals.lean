import VectorStyle.Proofs.Binary64.Nearest

/-!
# Decimal numerals in the format

A decimal numeral is the quotient of two whole numbers, its digits and a power of ten, rounded once.
Where the exponent is far out of range the answer is known without the power: what is not zero is
out of range if it has more than `decimalRange` zeros, and less than half the smallest number if it
comes that far behind the point.

Main statements: `ofDecimal_eq`, the quotient that is rounded; and `ofDecimal_isNearestTo`.
-/

set_option autoImplicit false

namespace VectorStyle.Binary64

theorem pow_two_le_pow_ten {s k : Nat} (h : s ≤ 3 * k) : Nat.pow 2 s ≤ Nat.pow 10 k := by
  have height : 2 ^ (3 * k) ≤ 10 ^ k := by
    rw [Nat.pow_mul]
    exact Nat.pow_le_pow_left (by decide) k
  exact Nat.le_trans (pow_le_pow h) height

theorem wholeOverflow_le_pow_ten {k : Nat} (h : decimalRange < k) :
    wholeOverflow ≤ Nat.pow 10 k := by
  have hlimit : wholeLimit ≤ Nat.pow 10 k := by
    unfold wholeLimit
    apply pow_two_le_pow_ten
    unfold decimalRange at h
    omega
  exact Nat.le_trans (Nat.sub_le _ _) hlimit

/-- Less than half the smallest magnitude is rounded to zero. -/
theorem roundUnits_eq_zero {num den : Nat} (h : 2 * num < den) : roundUnits num den = 0 := by
  have hdiv : num / den = 0 := Nat.div_eq_of_lt (by omega)
  have hmod : num % den = num := Nat.mod_eq_of_lt (by omega)
  have hstep : Nat.pow 2 (step 0) = 1 := rfl
  have hnear : nearest num den = 0 := by
    rw [nearest, hmod, hdiv, if_pos h]
  rw [roundUnits, hdiv, hstep, Nat.mul_one, Nat.mul_one, hnear]

theorem two_mul_mul_one_lt_pow_ten {digits k : Nat} (h : decimalRange + digits.log2 < k) :
    2 * (digits * one) < Nat.pow 10 k := by
  have hdigits : digits < Nat.pow 2 (digits.log2 + 1) := Nat.lt_log2_self
  obtain ⟨s, hs, hone⟩ : ∃ s, s = 1074 ∧ one = Nat.pow 2 s := ⟨1074, rfl, by unfold one; rfl⟩
  have hpow :
      2 * (Nat.pow 2 (digits.log2 + 1) * Nat.pow 2 s) = Nat.pow 2 (1 + (digits.log2 + 1 + s)) := by
    rw [pow_add 1, pow_add (digits.log2 + 1)]
  calc 2 * (digits * one) < 2 * (Nat.pow 2 (digits.log2 + 1) * one) :=
        Nat.mul_lt_mul_of_pos_left (Nat.mul_lt_mul_of_pos_right hdigits one_pos) (by decide)
    _ = Nat.pow 2 (1 + (digits.log2 + 1 + s)) := by rw [hone, hpow]
    _ ≤ Nat.pow 10 k := by
        apply pow_two_le_pow_ten
        unfold decimalRange at h
        omega

/-- The answers that are given without computing the power are those that the power would give. -/
theorem ofDecimal_eq (negative : Bool) (digits : Nat) (exponent : Int) :
    ofDecimal negative digits exponent =
      ofUnits negative (digits * Nat.pow 10 exponent.toNat * one)
        (Nat.pow 10 (-exponent).toNat) := by
  have hpow : Nat.pow 10 0 = 1 := rfl
  unfold ofDecimal
  split
  case isTrue hzero =>
    rw [hzero, Nat.zero_mul, Nat.zero_mul]
    exact ofUnits_congr (by rw [roundUnits_zero, roundUnits_zero]) negative
  case isFalse hne =>
    split
    case isTrue hlarge =>
      have hexponent : (-exponent).toNat = 0 := by omega
      rw [hexponent, hpow, ofUnits_eq_infinity negative Nat.one_pos]
      rw [Nat.one_mul, ← wholeOverflow_mul_one]
      apply Nat.mul_le_mul_right
      refine Nat.le_trans (wholeOverflow_le_pow_ten ?_)
        (Nat.le_mul_of_pos_left _ (Nat.pos_of_ne_zero hne))
      omega
    case isFalse =>
      split
      case isTrue hsmall =>
        have hexponent : exponent.toNat = 0 := by omega
        rw [hexponent, hpow, Nat.mul_one]
        apply ofUnits_congr
        rw [roundUnits_zero, roundUnits_eq_zero]
        apply two_mul_mul_one_lt_pow_ten
        omega
      case isFalse =>
        split
        case isTrue hwhole =>
          have hexponent : (-exponent).toNat = 0 := by omega
          rw [hexponent, hpow, ofRatio]
        case isFalse hfraction =>
          have hexponent : exponent.toNat = 0 := by omega
          rw [hexponent, hpow, Nat.mul_one, ofRatio]

/-- Digits with a point among them denote a quotient by a power of ten, rounded once. -/
theorem ofDecimal_eq_ofUnits (negative : Bool) (digits places : Nat) :
    ofDecimal negative digits (0 - (places : Int)) =
      ofUnits negative (digits * one) (Nat.pow 10 places) := by
  have hpow : Nat.pow 10 0 = 1 := rfl
  have hwhole : (0 - (places : Int)).toNat = 0 := by omega
  have hplaces : (-(0 - (places : Int))).toNat = places := by omega
  rw [ofDecimal_eq, hwhole, hplaces, hpow, Nat.mul_one]

/-- A decimal numeral is rounded to the nearest number of the format. -/
theorem ofDecimal_isNearestTo (negative : Bool) (digits : Nat) (exponent : Int) :
    (ofDecimal negative digits exponent).IsNearestTo
      (signedRat negative (digits * (10 : Rat) ^ exponent)) := by
  have hvalue : ((digits * Nat.pow 10 exponent.toNat * one : Nat) : Rat) /
      (Nat.pow 10 (-exponent).toNat : Nat) / (one : Nat) = digits * (10 : Rat) ^ exponent := by
    have hone : (one : Rat) ≠ 0 := Nat.cast_ne_zero.2 one_pos.ne'
    generalize one = u at hone
    have hcast (k : Nat) : ((Nat.pow 10 k : Nat) : Rat) = (10 : Rat) ^ k := Nat.cast_pow 10 k
    rw [Nat.cast_mul, Nat.cast_mul, hcast, hcast, div_right_comm, mul_div_cancel_right₀ _ hone]
    obtain ⟨k, rfl | rfl⟩ := exponent.eq_nat_or_neg
    · have hnonpos : (-(k : Int)).toNat = 0 := by omega
      rw [Int.toNat_natCast, hnonpos, pow_zero, div_one, zpow_natCast]
    · have hnonpos : (-(k : Int)).toNat = 0 := by omega
      rw [neg_neg, Int.toNat_natCast, hnonpos, pow_zero, mul_one, zpow_neg, zpow_natCast,
        div_eq_mul_inv]
  rw [ofDecimal_eq, ← hvalue]
  exact ofUnits_isNearestTo negative _ (Nat.pow_pos (by decide))

theorem ofDecimal_isNegative (negative : Bool) (digits : Nat) (exponent : Int) :
    (ofDecimal negative digits exponent).isNegative = negative := by
  rw [ofDecimal_eq, ofUnits_isNegative]

end VectorStyle.Binary64
