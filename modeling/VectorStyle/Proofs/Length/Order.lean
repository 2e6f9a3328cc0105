import VectorStyle.Proofs.Binary64.Scaling
import VectorStyle.Proofs.Length.UserUnits

/-!
# Conversion keeps the order

A length is converted by a row of factors, from the unit to inches and from inches to dots. Each of
them is positive, and each result is rounded, so the greater of two lengths in one unit is never
converted to the smaller value. Results may be rounded to zero or to infinity on the way, but never
to NaN: the rounded resolution is neither zero nor infinite.

Main statements: `exists_scaledBy`, what a length is scaled by; and `toUserUnits_mono`.
-/

set_option autoImplicit false

namespace VectorStyle

open Binary64 (IsScaled ScaledBy ofRatio smallest)

/-! ## Factors of the units -/

/-- What a length in a unit is scaled by, where the resolution is a given number of dots per
inch. -/
def LengthUnit.factors (dots : Rat) : LengthUnit → List Rat
  | pica => [12, 1 / 72, dots]
  | millimeter => [1 / (ofRatio false 254 10).toRat, dots]
  | centimeter => [1 / (ofRatio false 254 100).toRat, dots]
  | point => [1 / 72, dots]
  | inch => [dots]
  | _ => []

namespace LengthUnit

theorem toRat_millimeters_pos : 0 < (ofRatio false 254 10).toRat :=
  Binary64.toRat_ofRatio_pos (by decide) (by decide) (by decide +kernel)

theorem toRat_centimeters_pos : 0 < (ofRatio false 254 100).toRat :=
  Binary64.toRat_ofRatio_pos (by decide) (by decide) (by decide +kernel)

theorem factors_pos {dots : Rat} (hdots : 0 < dots) (u : LengthUnit) :
    ∀ c ∈ u.factors dots, 0 < c := by
  have hpoint : (0 : Rat) < 1 / 72 := by norm_num
  have hinch : ∀ c ∈ [dots], 0 < c := List.forall_mem_singleton.2 hdots
  cases u with
  | pica => exact List.forall_mem_cons.2 ⟨by norm_num, List.forall_mem_cons.2 ⟨hpoint, hinch⟩⟩
  | millimeter => exact List.forall_mem_cons.2 ⟨one_div_pos.2 toRat_millimeters_pos, hinch⟩
  | centimeter => exact List.forall_mem_cons.2 ⟨one_div_pos.2 toRat_centimeters_pos, hinch⟩
  | point => exact List.forall_mem_cons.2 ⟨hpoint, hinch⟩
  | inch => exact hinch
  | _ => exact List.forall_mem_nil _

end LengthUnit

namespace Length

variable {dpi : Int} {unit : LengthUnit} {dots : Binary64}

theorem isScaled_picas (x : Binary64) : IsScaled 12 x (Binary64.ofInt 12 * x) := by
  have hscaled := Binary64.isScaled_ofInt_mul (k := 12) (by decide) (by decide) x
  exact_mod_cast hscaled

theorem isScaled_points (x : Binary64) : IsScaled (1 / 72) x (x / Binary64.ofInt 72) := by
  have hscaled := Binary64.isScaled_div_ofInt (k := 72) (by decide) (by decide) x
  exact_mod_cast hscaled

/-- A length that is not relative is scaled by the factors of its unit. -/
theorem exists_scaledBy (hunit : unit.isRelative = false) (hdpi : Binary64.ofInt? dpi = some dots)
    (hdots : 0 < dots.toRat) (v : Binary64) :
    ∃ x, toUserUnits dpi ⟨v, unit⟩ = .ok ⟨x, .user⟩ ∧ ScaledBy (unit.factors dots.toRat) v x := by
  have hinch (inches : Binary64) : ScaledBy [dots.toRat] inches (inches * dots) :=
    .cons (Binary64.isScaled_mul hdots inches) (.nil _)
  cases unit with
  | em => cases hunit
  | percent => cases hunit
  | user => exact ⟨v, toUserUnits_of_not_isPhysical rfl, .nil v⟩
  | pixel => exact ⟨v, toUserUnits_of_not_isPhysical rfl, .nil v⟩
  | inch => exact ⟨_, toUserUnits_of_inches rfl hdpi, hinch v⟩
  | point => exact ⟨_, toUserUnits_of_inches rfl hdpi, .cons (isScaled_points v) (hinch _)⟩
  | pica =>
    exact ⟨_, toUserUnits_of_inches rfl hdpi, .cons (isScaled_picas v)
      (.cons (isScaled_points _) (hinch _))⟩
  | millimeter =>
    have hdivisor := LengthUnit.toRat_millimeters_pos
    exact ⟨_, toUserUnits_of_inches rfl hdpi, .cons (Binary64.isScaled_div hdivisor v) (hinch _)⟩
  | centimeter =>
    have hdivisor := LengthUnit.toRat_centimeters_pos
    exact ⟨_, toUserUnits_of_inches rfl hdpi, .cons (Binary64.isScaled_div hdivisor v) (hinch _)⟩

/-- Of two lengths in one unit, the greater one is not converted to the smaller value, nor to NaN.
The results are those of exact products and quotients, each rounded once. -/
theorem toUserUnits_mono {v w : Binary64} (hunit : unit ∉ [LengthUnit.em, .percent])
    (hpos : 1 ≤ dpi) (hdpi : dpi < Binary64.wholeOverflow) (h : v ≤ w) :
    ∃ dots x y : Binary64,
      dots.IsNearestTo dpi ∧
        toUserUnits dpi ⟨v, unit⟩ = .ok ⟨x, .user⟩ ∧ toUserUnits dpi ⟨w, unit⟩ = .ok ⟨y, .user⟩ ∧
        ScaledBy (unit.factors dots.toRat) v x ∧ ScaledBy (unit.factors dots.toRat) w y ∧
        x ≠ .nan ∧ y ≠ .nan ∧ x ≤ y := by
  have hrelative : unit.isRelative = false := by
    rw [← Bool.not_eq_true, LengthUnit.isRelative_iff]
    exact hunit
  have hrounded : Binary64.ofInt? dpi = some (Binary64.ofInt dpi) := by
    apply Binary64.ofInt?_eq_some
    omega
  have hdots := Binary64.toRat_ofInt_pos hpos hdpi
  obtain ⟨x, hx, hxscaled⟩ := exists_scaledBy hrelative hrounded hdots v
  obtain ⟨y, hy, hyscaled⟩ := exists_scaledBy hrelative hrounded hdots w
  have hle := hxscaled.mono (unit.factors_pos hdots) hyscaled h
  obtain ⟨hxnan, hynan⟩ := Binary64.ne_nan_of_le hle
  exact ⟨Binary64.ofInt dpi, x, y, Binary64.ofInt_isNearestTo dpi, hx, hy, hxscaled, hyscaled,
    hxnan, hynan, hle⟩

/-- The smallest positive number of picas, which is rounded to no points at all, and an infinite
one. -/
theorem toUserUnits_mono_smallest :
    LengthUnit.pica ∉ [LengthUnit.em, .percent] ∧ (1 : Int) ≤ 96 ∧
      (96 : Int) < Binary64.wholeOverflow ∧ smallest ≤ .infinity false ∧
      ∃ dots x y : Binary64,
        dots.IsNearestTo (96 : Int) ∧
          toUserUnits 96 ⟨smallest, .pica⟩ = .ok ⟨x, .user⟩ ∧
          toUserUnits 96 ⟨.infinity false, .pica⟩ = .ok ⟨y, .user⟩ ∧
          ScaledBy (LengthUnit.pica.factors dots.toRat) smallest x ∧
          ScaledBy (LengthUnit.pica.factors dots.toRat) (.infinity false) y ∧
          x ≠ .nan ∧ y ≠ .nan ∧ x ≤ y := by
  have hunit : LengthUnit.pica ∉ [LengthUnit.em, .percent] := by decide
  have hdpi : (96 : Int) < Binary64.wholeOverflow := by decide +kernel
  have hle : smallest ≤ .infinity false := rfl
  exact ⟨hunit, by decide, hdpi, hle, toUserUnits_mono hunit (by decide) hdpi hle⟩

end Length

end VectorStyle
