import VectorStyle.Length.Printer
import VectorStyle.Proofs.Decimal.Stability
import VectorStyle.Proofs.Length.Reading

/-!
# Written lengths are read back

The text of a length shows four places of its number. Reading it gives another number, the one
nearest to what is shown, but a length with the same unit and the same text: once written, a length
does not change any more by being read and written again.

Percentages are rounded down to whole ones and go another way.

Main statements: `ofDecimal_number_text`, the number that is read from four places; and
`read_text_stable`.
-/

set_option autoImplicit false

namespace VectorStyle.Length

open Binary64 (one ofUnits IsMagnitude)
open Decimal (places scaled signed pointed trimZeros fraction)
open Text.Digit (number)

/-- The digits that show `k / 10 ^ places` are read as the number nearest to it. -/
theorem ofDecimal_number_text (negative : Bool) (k : Nat) :
    Binary64.ofDecimal negative
        (number (Nat.toDigits 10 (k / Nat.pow 10 places) ++
          trimZeros (fraction places (k % Nat.pow 10 places))))
        (0 - ((trimZeros (fraction places (k % Nat.pow 10 places))).length : Int)) =
      ofUnits negative (k * one) (Nat.pow 10 places) := by
  obtain ⟨zeros, hlength, hnumber⟩ := Decimal.number_text places k
  rw [Binary64.ofDecimal_eq_ofUnits]
  apply Binary64.ofUnits_congr
  generalize number _ = digits at hnumber ⊢
  generalize List.length _ = shown at hlength ⊢
  -- the zeros that are not shown scale both sides of the quotient
  have hnum : k * one = digits * one * Nat.pow 10 zeros := by
    rw [← hnumber, Nat.mul_right_comm]
  have hden : Nat.pow 10 places = Nat.pow 10 shown * Nat.pow 10 zeros := by
    rw [← hlength]
    exact Nat.pow_add 10 shown zeros
  rw [hnum, hden, Binary64.roundUnits_mul_mul]
  exact Nat.pow_pos (by omega)

/-- The text of a finite number with a unit. -/
theorem text_finite (s : Bool) {n : Nat} (hn : IsMagnitude n) {u : LengthUnit} (hu : u ≠ .percent) :
    text ⟨.finite s n hn, u⟩ = String.ofList (signed (s && scaled n != 0)
      (pointed (Nat.toDigits 10 (scaled n / Nat.pow 10 places))
        (trimZeros (fraction places (scaled n % Nat.pow 10 places))))) ++ u.suffix := by
  rw [text, if_neg hu]
  rfl

/-- The text of a length with a finite number, percentages apart, is read as a length with the same
unit and the same text. -/
theorem read_text_stable (l : Length) (hfinite : l.value.isFinite = true)
    (hunit : l.unit ≠ .percent) :
    ∃ m, read l.text = .ok m ∧ m.unit = l.unit ∧ m.text = l.text := by
  obtain ⟨value, u⟩ := l
  cases value with
  | nan => cases hfinite
  | infinity s => cases hfinite
  | finite s n hn =>
    obtain ⟨hread, hscaled⟩ := Decimal.scaled_roundUnits_scaled hn
    refine ⟨⟨.finite (s && scaled n != 0) _ hread, u⟩, ?_, rfl, ?_⟩
    · rw [text_finite s hn hunit, read_pointed _ Nat.toDigits_ne_nil
        (Text.Digit.isDigit_of_mem_toDigits _)
        (Decimal.isDigit_of_mem_trimZeros (Decimal.isDigit_of_mem_fraction _ _))]
      rw [ofRead, if_neg hunit, Numeral.value, ofDecimal_number_text,
        Binary64.ofUnits_eq_finite hread rfl]
    · -- the places are the same, and the sign has been left out already where they are zero
      rw [text_finite s hn hunit, text_finite _ hread hunit, hscaled, Bool.and_assoc, Bool.and_self]

/-- One third below zero. -/
def negativeThird : Binary64 :=
  .finite true _ (Binary64.isMagnitude_mul_pow (m := 6004799503160661) (s := 1020)
    (Nat.le_of_ble_eq_true rfl) (Nat.le_of_ble_eq_true rfl))

/-- A third of an `em` below zero is read from its text, `-0.3333em`, and written in the same
way. -/
theorem read_text_stable_third :
    negativeThird.isFinite = true ∧ LengthUnit.em ≠ .percent ∧
      ∃ m, read (text ⟨negativeThird, .em⟩) = .ok m ∧ m.unit = .em ∧
        m.text = text ⟨negativeThird, .em⟩ := by
  have hunit : LengthUnit.em ≠ .percent := by decide
  exact ⟨rfl, hunit, read_text_stable ⟨negativeThird, .em⟩ rfl hunit⟩

end VectorStyle.Length
