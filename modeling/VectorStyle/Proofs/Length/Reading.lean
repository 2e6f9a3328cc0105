import VectorStyle.Decimal.Places
import VectorStyle.Proofs.Length.Grammar

/-!
# Reading what is written

A length is written as a sign, digits with a point among them, and the suffix of a unit. This is a
length text without blanks, and its suffix is in lower case already.

Main statements: `read_pointed`, the length that a text of this form denotes; and `read_whole`,
where there is no point.
-/

set_option autoImplicit false

namespace VectorStyle

namespace Length

open Decimal (signed pointed)
open Text.Digit (isDigit isDigit_of_ascii)

/-- Signed digits are a numeral without an exponent. -/
theorem isNumeral_pointed (negative : Bool) {whole fraction : List Char} (hne : whole ≠ [])
    (hwhole : ∀ c ∈ whole, c.isDigit = true) (hfraction : ∀ c ∈ fraction, c.isDigit = true) :
    IsNumeral (signed negative (pointed whole fraction)) ⟨negative, whole, fraction, 0⟩ := by
  have hdigits : IsRow whole := ⟨hne, fun c hc => isDigit_of_ascii (hwhole c hc)⟩
  have hmantissa : IsMantissa (pointed whole fraction) whole fraction := by
    cases fraction with
    | nil => exact .whole hdigits
    | cons c cs => exact .pointed hdigits fun d hd => isDigit_of_ascii (hfraction d hd)
  have hsigned : IsNumeral (signed negative (pointed whole fraction ++ []))
      ⟨negative, whole, fraction, 0⟩ := by
    cases negative with
    | true => exact .mk .minus hmantissa .absent
    | false => exact .mk .absent hmantissa .absent
  rwa [List.append_nil] at hsigned

/-- A numeral and a suffix are a length text without blanks. -/
theorem hasParts_suffix {value : List Char} {n : Numeral} (hn : IsNumeral value n)
    (u : LengthUnit) :
    HasParts (value ++ u.suffix.toList) value u.suffix.toList := by
  have hunit : u.suffix.toList.all isUnitChar = true := by
    cases u <;> decide
  have hparts : HasParts ([] ++ (value ++ ([] ++ (u.suffix.toList ++ [])))) value u.suffix.toList :=
    .mk (List.forall_mem_nil _) ⟨n, hn⟩ (List.forall_mem_nil _) (List.all_eq_true.1 hunit)
      (List.forall_mem_nil _)
  rwa [List.append_nil] at hparts

theorem map_toLower_suffix (u : LengthUnit) :
    u.suffix.toList.map Char.toLower = u.suffix.toList := by
  cases u <;> decide

/-- A text of sign, digits and suffix denotes the number of its digits with the unit of its
suffix. -/
theorem read_pointed (negative : Bool) {whole fraction : List Char} (hne : whole ≠ [])
    (hwhole : ∀ c ∈ whole, c.isDigit = true) (hfraction : ∀ c ∈ fraction, c.isDigit = true)
    (u : LengthUnit) :
    read (String.ofList (signed negative (pointed whole fraction)) ++ u.suffix) =
      .ok (ofRead (Numeral.value ⟨negative, whole, fraction, 0⟩) u) := by
  have hn := isNumeral_pointed negative hne hwhole hfraction
  have htext : (String.ofList (signed negative (pointed whole fraction)) ++ u.suffix).toList =
      signed negative (pointed whole fraction) ++ u.suffix.toList := by
    rw [String.toList_append, String.toList_ofList]
  have hparts := hasParts_suffix hn u
  rw [← htext] at hparts
  exact read_of_suffix hparts hn (map_toLower_suffix u).symm

/-! ## Whole numbers -/

/-- A whole number in decimal digits denotes its number of the format. -/
theorem numeral_value_toDigits {p : Nat} (hp : p ≤ Nat.pow 2 53) :
    Numeral.value ⟨false, Nat.toDigits 10 p, [], 0⟩ = Binary64.ofInt p := by
  have hround := Binary64.roundUnits_of_isMagnitude (Binary64.isMagnitude_mul_one hp) Nat.one_pos
  have hdecimal := Binary64.ofDecimal_eq_ofUnits false p 0
  have hpow : Nat.pow 10 0 = 1 := rfl
  rw [Nat.mul_one] at hround
  rw [hpow, Binary64.ofUnits_eq_finite _ hround] at hdecimal
  rw [Numeral.value, List.append_nil, Text.Digit.number_toDigits, List.length_nil, hdecimal,
    Binary64.ofInt_natCast hp]

/-- A whole number in decimal digits, and the suffix of a unit. -/
theorem read_whole {p : Nat} (hp : p ≤ Nat.pow 2 53) (u : LengthUnit) :
    read (toString p ++ u.suffix) = .ok (ofRead (Binary64.ofInt p) u) := by
  have hread := read_pointed false Nat.toDigits_ne_nil (Text.Digit.isDigit_of_mem_toDigits p)
    (List.forall_mem_nil _) u
  rw [numeral_value_toDigits hp] at hread
  rw [Nat.toString_eq_ofList_toDigits, ← hread]
  rfl

end Length

end VectorStyle
