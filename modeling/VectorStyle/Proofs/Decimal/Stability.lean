import VectorStyle.Proofs.Binary64.Rounding
import VectorStyle.Decimal.Places

/-!
# Four places survive the way through the binary format

A magnitude is rounded to four places, and the decimal number so found is rounded to the nearest
number of the format. Rounded to four places again, that gives the same decimal number.

Two things can make it so. Below `2³⁹` the numbers of the format lie closer together than the
places, so the number of the format nearest to a decimal number is less than half a place away from
it, and is rounded back. Further up they lie further apart than the places, and then the magnitude
that has been written is itself the one nearest to the decimal number.

Main statements: `scaled_roundUnits_of_step_le`, for the fine part; `roundUnits_scaled_of_lt_step`,
for the coarse part; and `scaled_roundUnits_scaled`.
-/

set_option autoImplicit false

namespace VectorStyle.Decimal

open Binary64 (one step roundUnits IsMagnitude)

/-- The coarsest step that is finer than a place: `2⁻¹⁴` is less than one in ten thousand. -/
def fineStep : Nat := 1060

theorem one_eq : one = 16384 * Nat.pow 2 fineStep := by
  have hexponent : 1074 = 14 + fineStep := rfl
  have hpow : Nat.pow 2 14 = 16384 := rfl
  unfold one
  rw [hexponent, Binary64.pow_add, hpow]

/-- Where the step is fine, every decimal number of four places is found again. -/
theorem scaled_roundUnits_of_step_le {k : Nat}
    (h : step (k * one / Nat.pow 10 places) ≤ fineStep) :
    scaled (roundUnits (k * one) (Nat.pow 10 places)) = k := by
  have hden : 0 < Nat.pow 10 places := Nat.pow_pos (by omega)
  have hup := Binary64.two_mul_roundUnits_le (k * one) hden
  have hdown := Binary64.le_two_mul_roundUnits (k * one) hden
  have hpow : Nat.pow 2 (step (k * one / Nat.pow 10 places)) ≤ Nat.pow 2 fineStep :=
    Binary64.pow_le_pow h
  have hpos := Binary64.pow_pos fineStep
  have hone := one_eq
  -- half a step is less than half a place
  have hplaces : Nat.pow 10 places = 10000 := rfl
  rw [hplaces] at hup hdown hpow ⊢
  rw [scaled, hplaces]
  apply nearest_eq_of_close
  · omega
  · omega

/-- A magnitude close to a number of units at which the step is coarse is a multiple of the step. -/
theorem pow_step_dvd_of_close {n q t : Nat} (hn : IsMagnitude n) (hq : step q = t + 1)
    (hclose : q < n + Nat.pow 2 t) : Nat.pow 2 (step q) ∣ n := by
  have hlow : Nat.pow 2 (t + 1 + 52) ≤ q := by
    rw [← hq]
    apply Binary64.pow_step_le
    omega
  have hdouble : Nat.pow 2 (t + 1 + 52) = 9007199254740992 * Nat.pow 2 t := by
    rw [Nat.add_assoc, Nat.add_comm t, Binary64.pow_add]
  have hhalf : Nat.pow 2 (t + 52) = 4503599627370496 * Nat.pow 2 t := by
    rw [Nat.add_comm t, Binary64.pow_add]
  have hpos := Binary64.pow_pos t
  -- `n` is a multiple of half of the step, since it is more than half as large
  have hstep : t ≤ step n := by
    have hsame : step (Nat.pow 2 (t + 52)) = t :=
      Binary64.step_eq (Nat.le_refl _) (Binary64.pow_lt_pow (by omega))
    rw [← hsame]
    apply Binary64.step_mono
    omega
  obtain ⟨m, rfl⟩ : Nat.pow 2 t ∣ n := Nat.dvd_trans (Nat.pow_dvd_pow 2 hstep) hn.2
  -- and as such it cannot stay below the power of two that `q` is above
  have hm : 9007199254740992 ≤ m := by
    have hsucc : Nat.pow 2 t * (m + 1) = Nat.pow 2 t * m + Nat.pow 2 t := Nat.mul_succ _ m
    apply Nat.le_of_lt_add_one
    apply Nat.lt_of_mul_lt_mul_left (a := Nat.pow 2 t)
    omega
  have hlarge : t + 1 ≤ step (Nat.pow 2 t * m) := by
    have hsame : step (Nat.pow 2 (t + 1 + 52)) = t + 1 :=
      Binary64.step_eq (Nat.le_refl _) (Binary64.pow_lt_pow (by omega))
    rw [← hsame]
    apply Binary64.step_mono
    rw [hdouble, Nat.mul_comm]
    exact Nat.mul_le_mul_left _ hm
  rw [hq]
  exact Nat.dvd_trans (Nat.pow_dvd_pow 2 hlarge) hn.2

/-- Where the step is coarse, the magnitude that was rounded to four places is found again. -/
theorem roundUnits_scaled_of_lt_step {n : Nat} (hn : IsMagnitude n)
    (h : fineStep < step (scaled n * one / Nat.pow 10 places)) :
    roundUnits (scaled n * one) (Nat.pow 10 places) = n := by
  have hup : 2 * (scaled n * one) ≤ 2 * (n * Nat.pow 10 places) + one :=
    two_mul_nearest_le _ one Binary64.one_pos
  have hdown : 2 * (n * Nat.pow 10 places) ≤ 2 * (scaled n * one) + one :=
    le_two_mul_nearest _ one Binary64.one_pos
  have hone := one_eq
  have hplaces : Nat.pow 10 places = 10000 := rfl
  rw [hplaces] at hup hdown h ⊢
  generalize scaled n * one = num at *
  obtain ⟨t, ht⟩ : ∃ t, step (num / 10000) = t + 1 := ⟨step (num / 10000) - 1, by omega⟩
  have hfine : Nat.pow 2 fineStep ≤ Nat.pow 2 t := Binary64.pow_le_pow (by omega)
  have hpos := Binary64.pow_pos fineStep
  have hpow : Nat.pow 2 (t + 1) = Nat.pow 2 t * 2 := Nat.pow_succ 2 t
  apply Binary64.roundUnits_eq_of_close
  · apply pow_step_dvd_of_close hn ht
    omega
  · rw [ht, hpow]
    omega
  · rw [ht, hpow]
    omega

/-- Four places of a magnitude, taken to the nearest number of the format, are its four places. -/
theorem scaled_roundUnits_scaled {n : Nat} (hn : IsMagnitude n) :
    IsMagnitude (roundUnits (scaled n * one) (Nat.pow 10 places)) ∧
      scaled (roundUnits (scaled n * one) (Nat.pow 10 places)) = scaled n := by
  rcases Nat.lt_or_ge fineStep (step (scaled n * one / Nat.pow 10 places)) with hcoarse | hfine
  · rw [roundUnits_scaled_of_lt_step hn hcoarse]
    exact ⟨hn, rfl⟩
  · have hsmall : fineStep + 53 < 2098 := by decide
    exact ⟨Binary64.isMagnitude_roundUnits (by omega), scaled_roundUnits_of_step_le hfine⟩

end VectorStyle.Decimal
