import Mathlib.Algebra.Order.Field.Basic
import VectorStyle.Proofs.Binary64.Range
import VectorStyle.Proofs.Decimal.Rounded

/-!
# Rounding to the nearest number of the format

A rational number lies in one binade, where the magnitudes of the format are the multiples of one
step. The nearest of these is nearest among all magnitudes: those of higher binades are multiples of
the step too, and those of lower ones are farther away than the lower end of the binade is. A tie is
between two multiples of the step, and the even one has an even significand, also where it is the
end of the binade.

Main statements: `isNearestMagnitude_roundUnits`, for the magnitudes; and `ofUnits_isNearestTo`, for
the numbers with their signs and the range of the format.
-/

set_option autoImplicit false

namespace VectorStyle.Binary64

/-! ## Magnitudes -/

/-- The significand of a magnitude: how many times its step it is. -/
def ulps (n : Nat) : Nat := n / Nat.pow 2 (step n)

/-- The magnitude nearest to a number of units, a tie going to the one with the even significand.
There is no greatest magnitude here. -/
structure IsNearestMagnitude (q : Rat) (n : Nat) : Prop where
  close : ∀ m, Nat.pow 2 (step m) ∣ m → |q - n| ≤ |q - m|
  even_of_tie : ∀ m, Nat.pow 2 (step m) ∣ m → n ≠ m → |q - n| = |q - m| → Even (ulps n)

/-- Where the step is more than the smallest one, a quotient lies above the beginning of its
binade. -/
theorem mul_pow_step_le {num den : Nat} (h : 0 < den) (hstep : 0 < step (num / den)) :
    Nat.pow 2 52 * (den * Nat.pow 2 (step (num / den))) ≤ num := by
  have hle := pow_step_le hstep
  rwa [Nat.le_div_iff_mul_le h, pow_add, Nat.mul_comm (Nat.pow 2 _), Nat.mul_assoc,
    Nat.mul_comm _ den] at hle

/-- Every magnitude is a multiple of a step, or it lies below the binades with this step. -/
theorem dvd_or_lt {m : Nat} (hm : Nat.pow 2 (step m) ∣ m) (s : Nat) :
    Nat.pow 2 s ∣ m ∨ 0 < s ∧ m < Nat.pow 2 (s + 52) := by
  rcases Nat.lt_or_ge (step m) s with hlt | hge
  · right
    refine ⟨Nat.lt_of_le_of_lt (Nat.zero_le _) hlt, ?_⟩
    by_contra hle
    have hstep := step_mono (Nat.not_lt.1 hle)
    rw [step_eq (Nat.le_refl _) (pow_lt_pow (by omega))] at hstep
    omega
  · left
    exact Nat.dvd_trans (Nat.pow_dvd_pow 2 hge) hm

/-- The significand of an even multiple of the step is even. The end of a binade is counted in the
steps of the next one. -/
theorem even_ulps {k s : Nat} (heven : Even k) (hk : k ≤ Nat.pow 2 53)
    (hlow : 0 < s → Nat.pow 2 52 ≤ k) : Even (ulps (k * Nat.pow 2 s)) := by
  rcases Nat.lt_or_eq_of_le hk with hlt | rfl
  · have hstep : step (k * Nat.pow 2 s) = s := by
      rcases Nat.eq_zero_or_pos s with rfl | hs
      · have hpow : Nat.pow 2 0 = 1 := rfl
        rw [hpow, Nat.mul_one]
        exact Nat.le_zero.1 (step_le hlt)
      · apply step_eq
        · rw [Nat.add_comm, pow_add]
          exact Nat.mul_le_mul_right _ (hlow hs)
        · rw [Nat.add_comm, pow_add]
          exact Nat.mul_lt_mul_of_pos_right hlt (pow_pos s)
    rw [ulps, hstep, Nat.mul_div_cancel _ (pow_pos s)]
    exact heven
  · have hsplit : Nat.pow 2 53 * Nat.pow 2 s = Nat.pow 2 52 * Nat.pow 2 (s + 1) := by
      rw [← pow_add, ← pow_add]
      congr 1
      omega
    have hstep : step (Nat.pow 2 52 * Nat.pow 2 (s + 1)) = s + 1 := by
      rw [← pow_add, Nat.add_comm 52]
      exact step_eq (Nat.le_refl _) (pow_lt_pow (by omega))
    rw [hsplit, ulps, hstep, Nat.mul_div_cancel _ (pow_pos _)]
    decide

section Rounding

variable (num : Nat) {den : Nat} (h : 0 < den)

include h

/-- The multiple of the step that a quotient is rounded to, seen from a whole number of steps. -/
theorem abs_sub_mul_pow (k : Nat) :
    |(num : Rat) / den - (k * Nat.pow 2 (step (num / den)) : Nat)| =
      (Nat.pow 2 (step (num / den)) : Nat) *
        |(num : Rat) / (den * Nat.pow 2 (step (num / den)) : Nat) - (k : Int)| := by
  have hden : (0 : Rat) < den := Nat.cast_pos.2 h
  have hgrid : (0 : Rat) < (Nat.pow 2 (step (num / den)) : Nat) := Nat.cast_pos.2 (pow_pos _)
  generalize Nat.pow 2 (step (num / den)) = g at hgrid
  have hscale : (num : Rat) / den - (k * g : Nat) =
      g * ((num : Rat) / (den * g : Nat) - (k : Int)) := by
    rw [mul_sub, Nat.cast_mul, Nat.cast_mul, Int.cast_natCast, mul_comm (k : Rat), mul_div_assoc',
      mul_comm (g : Rat) num, mul_div_mul_right _ _ hgrid.ne']
  rw [hscale, abs_mul, abs_of_pos hgrid]

/-- No multiple of the step is closer. -/
theorem abs_sub_roundUnits_le (k : Nat) :
    |(num : Rat) / den - roundUnits num den| ≤
      |(num : Rat) / den - (k * Nat.pow 2 (step (num / den)) : Nat)| := by
  have hgrid : 0 < den * Nat.pow 2 (step (num / den)) := Nat.mul_pos h (pow_pos _)
  rw [roundUnits, abs_sub_mul_pow num h, abs_sub_mul_pow num h]
  exact mul_le_mul_of_nonneg_left ((isNearest_nearest num hgrid).abs_sub_le k) (Nat.cast_nonneg _)

/-- The magnitudes below the binade of a quotient are farther away from it than what it is rounded
to. -/
theorem abs_sub_roundUnits_lt {m : Nat} (hstep : 0 < step (num / den))
    (hm : m < Nat.pow 2 (step (num / den) + 52)) :
    |(num : Rat) / den - roundUnits num den| < |(num : Rat) / den - m| := by
  have hden : (0 : Rat) < den := Nat.cast_pos.2 h
  have hbegin :
      ((Nat.pow 2 52 * Nat.pow 2 (step (num / den)) : Nat) : Rat) ≤ (num : Rat) / den := by
    rw [le_div_iff₀ hden, ← Nat.cast_mul, Nat.mul_assoc, Nat.mul_comm _ den]
    exact Nat.cast_le.2 (mul_pow_step_le h hstep)
  have hbelow : (m : Rat) < (Nat.pow 2 52 * Nat.pow 2 (step (num / den)) : Nat) := by
    rw [Nat.add_comm, pow_add] at hm
    exact Nat.cast_lt.2 hm
  -- the beginning of the binade lies between the magnitude and the quotient
  refine lt_of_le_of_lt (abs_sub_roundUnits_le num h (Nat.pow 2 52)) ?_
  rw [abs_of_nonneg (sub_nonneg.2 hbegin), abs_of_nonneg (sub_nonneg.2 (hbelow.le.trans hbegin))]
  exact sub_lt_sub_left hbelow _

theorem even_ulps_roundUnits {k : Nat} (hne : roundUnits num den ≠ k * Nat.pow 2 (step (num / den)))
    (htie : |(num : Rat) / den - roundUnits num den| =
      |(num : Rat) / den - (k * Nat.pow 2 (step (num / den)) : Nat)|) :
    Even (ulps (roundUnits num den)) := by
  have hgrid : 0 < den * Nat.pow 2 (step (num / den)) := Nat.mul_pos h (pow_pos _)
  have hstep : (0 : Rat) < (Nat.pow 2 (step (num / den)) : Nat) := Nat.cast_pos.2 (pow_pos _)
  rw [roundUnits, abs_sub_mul_pow num h, abs_sub_mul_pow num h, mul_right_inj' hstep.ne'] at htie
  have hkne : ((nearest num (den * Nat.pow 2 (step (num / den))) : Nat) : Int) ≠ k := by
    intro heq
    rw [Nat.cast_inj] at heq
    rw [roundUnits, heq] at hne
    exact hne rfl
  have heven := (isNearest_nearest num hgrid).even_of_abs_sub_eq hkne htie
  rw [roundUnits]
  refine even_ulps ((Int.even_coe_nat _).1 heven) (nearest_le_pow num den) ?_
  intro hpos
  refine Nat.le_trans ?_ (div_le_nearest _ _)
  rw [Nat.le_div_iff_mul_le hgrid]
  exact mul_pow_step_le h hpos

/-- A quotient is rounded to the nearest magnitude. -/
theorem isNearestMagnitude_roundUnits :
    IsNearestMagnitude ((num : Rat) / den) (roundUnits num den) where
  close m hm := by
    rcases dvd_or_lt hm (step (num / den)) with ⟨k, rfl⟩ | ⟨hpos, hlt⟩
    · rw [Nat.mul_comm]
      exact abs_sub_roundUnits_le num h k
    · exact (abs_sub_roundUnits_lt num h hpos hlt).le
  even_of_tie m hm hne htie := by
    rcases dvd_or_lt hm (step (num / den)) with ⟨k, rfl⟩ | ⟨hpos, hlt⟩
    · rw [Nat.mul_comm] at hne htie
      exact even_ulps_roundUnits num h hne htie
    · exact absurd htie (abs_sub_roundUnits_lt num h hpos hlt).ne

end Rounding

/-! ## Numbers -/

/-- Whether a number has a minus sign. -/
def isNegative : Binary64 → Bool
  | nan => false
  | infinity s => s
  | finite s _ _ => s

/-- The significand of a finite number. -/
def mantissa : Binary64 → Nat
  | finite _ n _ => ulps n
  | _ => 0

/-- A rational number with a sign in front. -/
def signedRat (negative : Bool) (q : Rat) : Rat := if negative then -q else q

/-- The number of the format nearest to a rational one. Out of range it is infinite, which starts
half a step below `2¹⁰²⁴`; in range no finite number is closer, and it has an even significand if
another is as close. -/
structure IsNearestTo (x : Binary64) (r : Rat) : Prop where
  infinite : (wholeOverflow : Rat) ≤ |r| → x = .infinity (decide (r < 0))
  finite : |r| < wholeOverflow → x.isFinite = true
  close : |r| < wholeOverflow → ∀ y : Binary64, y.isFinite = true → |r - x.toRat| ≤ |r - y.toRat|
  even_of_tie : |r| < wholeOverflow → ∀ y : Binary64, y.isFinite = true → x.toRat ≠ y.toRat →
    |r - x.toRat| = |r - y.toRat| → Even x.mantissa

namespace IsNearestMagnitude

variable {q : Rat} {n : Nat} (h : IsNearestMagnitude q n) (hq : 0 ≤ q)

include h hq

/-- No magnitude is closer with the other sign either, and only that of zero is as close. -/
theorem abs_sub_le_add (m : Nat) : |q - n| ≤ q + m ∧ (|q - n| = q + m → m = 0) := by
  have hzero := h.close 0 (Nat.dvd_zero _)
  rw [Nat.cast_zero, sub_zero, abs_of_nonneg hq] at hzero
  have hm : (0 : Rat) ≤ m := Nat.cast_nonneg m
  constructor
  · linarith
  · intro heq
    have hle : (m : Rat) ≤ 0 := by linarith
    exact_mod_cast hle.antisymm hm

theorem abs_sub_signedUnits (s : Bool) {m : Nat} (hm : Nat.pow 2 (step m) ∣ m) :
    |q - n| ≤ |q - signedUnits s m| ∧
      ((n : Int) ≠ signedUnits s m → |q - n| = |q - signedUnits s m| → Even (ulps n)) := by
  cases s with
  | false =>
    rw [signedUnits_false, Int.cast_natCast]
    exact ⟨h.close m hm, fun hne => h.even_of_tie m hm (by exact_mod_cast hne)⟩
  | true =>
    obtain ⟨hle, hzero⟩ := h.abs_sub_le_add hq m
    have habs : |q - ((-(m : Int) : Int) : Rat)| = q + m := by
      rw [Int.cast_neg, Int.cast_natCast, sub_neg_eq_add]
      exact abs_of_nonneg (add_nonneg hq (Nat.cast_nonneg m))
    rw [signedUnits_true, habs]
    refine ⟨hle, fun hne htie => ?_⟩
    -- as close is only zero, which has the sign of the quotient as well
    obtain rfl := hzero htie
    refine h.even_of_tie 0 hm (by simpa using hne) ?_
    rw [htie, Nat.cast_zero, add_zero, sub_zero, abs_of_nonneg hq]

end IsNearestMagnitude

theorem abs_signedRat (negative : Bool) {q : Rat} (hq : 0 ≤ q) : |signedRat negative q| = q := by
  cases negative with
  | false => exact abs_of_nonneg hq
  | true => exact (abs_neg q).trans (abs_of_nonneg hq)

theorem decide_signedRat_lt (negative : Bool) {q : Rat} (hq : 0 < q) :
    decide (signedRat negative q < 0) = negative := by
  cases negative with
  | false => exact decide_eq_false (not_lt.2 hq.le)
  | true => exact decide_eq_true (neg_lt_zero.2 hq)

/-- How far a number is away, in units and seen from the side of the sign. -/
theorem abs_signedRat_sub_toRat (s t : Bool) (q : Rat) {m : Nat} (hm : IsMagnitude m) :
    |signedRat s (q / (one : Nat)) - (finite t m hm).toRat| =
      |q - signedUnits (s != t) m| / (one : Nat) := by
  have hone : (0 : Rat) < (one : Nat) := Nat.cast_pos.2 one_pos
  have habs (a : Rat) : |a / (one : Nat)| = |a| / (one : Nat) := by
    rw [abs_div, abs_of_pos hone]
  rw [toRat]
  generalize (one : Nat) = u at habs
  cases s with
  | false => rw [signedRat, if_neg Bool.false_ne_true, ← sub_div, habs, Bool.false_bne]
  | true =>
    have hsign : ((signedUnits (true != t) m : Int) : Rat) = -((signedUnits t m : Int) : Rat) := by
      cases t <;> simp [signedUnits]
    rw [signedRat, if_pos rfl, ← neg_div, ← sub_div, habs, hsign, sub_neg_eq_add, ← abs_neg,
      neg_sub, sub_neg_eq_add, add_comm]

/-- Seen from the side of the sign a value is the same if it is the same at all. -/
theorem signedUnits_eq_of_eq {s t : Bool} {m n : Nat} (h : (n : Int) = signedUnits (s != t) m) :
    signedUnits s n = signedUnits t m := by
  cases s <;> cases t <;> simp [signedUnits] at h ⊢ <;> omega

/-- A finite number with the nearest magnitude is nearest, with either sign. -/
theorem IsNearestMagnitude.finite_isNearestTo {q : Rat} {n : Nat} (h : IsNearestMagnitude q n)
    (hq : 0 ≤ q) (s : Bool) (hn : IsMagnitude n)
    (hrange : |signedRat s (q / (one : Nat))| < wholeOverflow) :
    (Binary64.finite s n hn).IsNearestTo (signedRat s (q / (one : Nat))) := by
  have hone : (0 : Rat) < (one : Nat) := Nat.cast_pos.2 one_pos
  have hself : |signedRat s (q / (one : Nat)) - (Binary64.finite s n hn).toRat| =
      |q - n| / (one : Nat) := by
    rw [abs_signedRat_sub_toRat, bne_self_eq_false, signedUnits_false, Int.cast_natCast]
  refine ⟨fun hge => absurd hrange (not_lt.2 hge), fun _ => rfl, fun _ y hy => ?_,
    fun _ y hy hne htie => ?_⟩
  · cases y with
    | finite t m hm =>
      rw [hself, abs_signedRat_sub_toRat, div_le_div_iff_of_pos_right hone]
      exact (h.abs_sub_signedUnits hq _ hm.2).1
    | _ => cases hy
  · cases y with
    | finite t m hm =>
      rw [hself, abs_signedRat_sub_toRat, div_left_inj' hone.ne'] at htie
      refine (h.abs_sub_signedUnits hq _ hm.2).2 ?_ htie
      intro heq
      rw [toRat, toRat, signedUnits_eq_of_eq heq] at hne
      exact hne rfl
    | _ => cases hy

theorem wholeOverflow_pos : 0 < wholeOverflow := by
  have hlt : wholeHalf < wholeLimit := by
    unfold wholeHalf wholeLimit
    apply pow_lt_pow
    decide
  exact Nat.sub_pos_of_lt hlt

/-- Out of range infinity is nearest, with the sign. -/
theorem infinity_isNearestTo (s : Bool) {q : Rat} (h : (wholeOverflow : Rat) ≤ q) :
    (infinity s).IsNearestTo (signedRat s q) := by
  have hpos : 0 < q := lt_of_lt_of_le (Nat.cast_pos.2 wholeOverflow_pos) h
  have hrange : ¬ |signedRat s q| < wholeOverflow := by
    rw [abs_signedRat s hpos.le]
    exact not_lt.2 h
  refine ⟨fun _ => ?_, fun hlt => absurd hlt hrange, fun hlt => absurd hlt hrange,
    fun hlt => absurd hlt hrange⟩
  rw [decide_signedRat_lt s hpos]

theorem ofUnits_isNegative (negative : Bool) (num den : Nat) :
    (ofUnits negative num den).isNegative = negative := by
  unfold ofUnits
  split <;> rfl

/-- What is rounded out of range is infinite, with its sign. -/
theorem ofUnits_eq_infinity (negative : Bool) {num den : Nat} (h : 0 < den)
    (hout : den * overflow ≤ num) :
    ofUnits negative num den = .infinity negative := by
  rw [ofUnits, dif_neg]
  exact fun hlt => Nat.not_lt.2 hout ((roundUnits_lt_limit_iff num h).1 hlt)

/-- The threshold in units and as a whole number. -/
theorem div_div_one_lt_iff (num : Nat) {den : Nat} (h : 0 < den) :
    (num : Rat) / den / (one : Nat) < wholeOverflow ↔ num < den * overflow := by
  have hden : (0 : Rat) < den := Nat.cast_pos.2 h
  have hone : (0 : Rat) < (one : Nat) := Nat.cast_pos.2 one_pos
  rw [div_lt_iff₀ hone, div_lt_iff₀ hden, ← Nat.cast_mul, ← Nat.cast_mul, Nat.cast_lt,
    wholeOverflow_mul_one, Nat.mul_comm]

/-- A quotient of units is rounded to the nearest number of the format. -/
theorem ofUnits_isNearestTo (negative : Bool) (num : Nat) {den : Nat} (h : 0 < den) :
    (ofUnits negative num den).IsNearestTo
      (signedRat negative ((num : Rat) / den / (one : Nat))) := by
  have hq : (0 : Rat) ≤ (num : Rat) / den := div_nonneg (Nat.cast_nonneg _) (Nat.cast_nonneg _)
  have hrange := div_div_one_lt_iff num h
  rcases Nat.lt_or_ge num (den * overflow) with hin | hout
  · have hlimit := (roundUnits_lt_limit_iff num h).2 hin
    have hmagnitude : IsMagnitude (roundUnits num den) := ⟨hlimit, pow_step_dvd_roundUnits num den⟩
    rw [ofUnits_eq_finite hmagnitude rfl]
    apply (isNearestMagnitude_roundUnits num h).finite_isNearestTo hq
    rw [abs_signedRat negative (div_nonneg hq (Nat.cast_nonneg _))]
    exact hrange.2 hin
  · rw [ofUnits_eq_infinity negative h hout]
    apply infinity_isNearestTo
    rw [← not_lt, hrange]
    exact Nat.not_lt.2 hout

end VectorStyle.Binary64
