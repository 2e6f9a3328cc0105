import VectorStyle.Binary64.Basic

/-!
# Decimal text with a fixed number of places

`Decimal.text places k` writes `k / 10 ^ places` without superfluous zeros: no zeros at the end of
the fraction, and no point without a digit after it. `Decimal.format` rounds a number of the 64-bit
format to four places, exactly and with ties to the even neighbour, and writes the result. A number
that rounds to zero is written `0` whatever its sign.

Main statement: `length_fraction`, the fraction is padded to exactly the given number of places
before its final zeros are dropped.
-/

set_option autoImplicit false

namespace VectorStyle.Decimal

/-- The characters without the zeros at their end. -/
def trimZeros (cs : List Char) : List Char := (cs.reverse.dropWhile (· == '0')).reverse

/-- The digits of `part / 10 ^ places` after the point, for a `part` below `10 ^ places`: the digits
of `10 ^ places + part` without the leading one. -/
def fraction (places part : Nat) : List Char := (Nat.toDigits 10 (Nat.pow 10 places + part)).drop 1

/-- A whole part and a fraction with a point between them, if there is a fraction. -/
def pointed (whole fraction : List Char) : List Char :=
  if fraction.isEmpty then whole else whole ++ '.' :: fraction

/-- The text of `k / 10 ^ places`. -/
def text (places k : Nat) : List Char :=
  pointed (Nat.toDigits 10 (k / Nat.pow 10 places))
    (trimZeros (fraction places (k % Nat.pow 10 places)))

/-- A leading minus sign, if asked for. -/
def signed (negative : Bool) (cs : List Char) : List Char := if negative then '-' :: cs else cs

theorem length_fraction (places part : Nat) (h : part < Nat.pow 10 places) :
    (fraction places part).length = places := by
  change part < 10 ^ places at h
  have hpow : 0 < 10 ^ places := Nat.pow_pos (by omega)
  have hhi : (Nat.toDigits 10 (10 ^ places + part)).length ≤ places + 1 := by
    rw [Nat.length_toDigits_le_iff (by omega) (by omega), Nat.pow_succ]
    omega
  have hlo : ¬ (Nat.toDigits 10 (10 ^ places + part)).length ≤ places := by
    intro hle
    rcases Nat.eq_zero_or_pos places with rfl | hp
    · exact Nat.toDigits_ne_nil (List.eq_nil_of_length_eq_zero (Nat.le_zero.1 hle))
    · rw [Nat.length_toDigits_le_iff (by omega) hp] at hle
      omega
  show (List.drop 1 (Nat.toDigits 10 (10 ^ places + part))).length = places
  rw [List.length_drop]
  omega

/-! ## Numbers in texts -/

/-- Lengths are written with at most four places. -/
def places : Nat := 4

/-- The magnitude of a finite number, in multiples of `1 / 10 ^ places`, rounded to nearest. -/
def scaled (units : Nat) : Nat := nearest (units * Nat.pow 10 places) Binary64.one

/-- A number rounded to four places. -/
def format : Binary64 → String
  | .nan => "nan"
  | .infinity s => String.ofList (signed s ['i', 'n', 'f'])
  | .finite s n _ => String.ofList (signed (s && scaled n != 0) (text places (scaled n)))

end VectorStyle.Decimal
