import VectorStyle.Length.Conversion
import VectorStyle.Proofs.Binary64.Range

/-!
# Which lengths have a value in user units

A physical length is scaled by the resolution, and the resolution is rounded to the format first.
Resolutions of either sign are rounded alike: the last ones that stay in range lie just below the
middle between the greatest number of the format and the limit, and the middle itself goes to the
even neighbour, which is the limit. Whether the length is finite does not matter, and no other unit
looks at the resolution.

Main statements: `toUserUnits_of_inches` and `toUserUnits_of_not_isPhysical`, what a length is
converted to; and `toUserUnits_boundary`.
-/

set_option autoImplicit false

namespace VectorStyle

namespace LengthUnit

theorem isPhysical_iff (u : LengthUnit) :
    u.isPhysical = true ↔ u ∈ [pica, millimeter, centimeter, point, inch] := by
  cases u <;> decide

theorem isRelative_iff (u : LengthUnit) : u.isRelative = true ↔ u ∈ [em, percent] := by
  cases u <;> decide

end LengthUnit

namespace Length

variable {dpi : Int} {l : Length}

/-- A length in inches is scaled by the resolution. -/
theorem toUserUnits_of_inches {inches dots : Binary64} (hl : l.inches? = some inches)
    (hdpi : Binary64.ofInt? dpi = some dots) : toUserUnits dpi l = .ok ⟨inches * dots, .user⟩ := by
  unfold toUserUnits
  generalize Binary64.ofInt? dpi = rounded at hdpi
  subst hdpi
  rw [hl]

/-- Without inches, nothing but the unit of a pixel changes. -/
theorem toUserUnits_of_not_isPhysical (hl : l.isPhysical = false) :
    toUserUnits dpi l = .ok (if l.unit = .pixel then ⟨l.value, .user⟩ else l) := by
  have hinches : l.inches? = none := by
    rw [← Option.not_isSome_iff_eq_none, isSome_inches?, hl]
    exact Bool.false_ne_true
  simp only [toUserUnits, hinches]

theorem exists_toUserUnits_of_isPhysical (hl : l.isPhysical = true)
    (hdpi : dpi.natAbs < Binary64.wholeOverflow) :
    ∃ value, toUserUnits dpi l = .ok ⟨value, .user⟩ := by
  obtain ⟨inches, hinches⟩ : ∃ inches, l.inches? = some inches := by
    rw [← Option.isSome_iff_exists, isSome_inches?, hl]
  exact ⟨_, toUserUnits_of_inches hinches (Binary64.ofInt?_eq_some hdpi)⟩

/-- A length that is neither physical nor relative is in user units or in pixels. -/
theorem exists_toUserUnits_of_absolute (hl : l.isPhysical = false)
    (hrelative : l.isRelative = false) :
    ∃ value, toUserUnits dpi l = .ok ⟨value, .user⟩ := by
  refine ⟨l.value, ?_⟩
  rw [toUserUnits_of_not_isPhysical hl]
  obtain ⟨value, unit⟩ := l
  cases unit with
  | user => rfl
  | pixel => rfl
  | em => cases hrelative
  | percent => cases hrelative
  | _ => cases hl

/-- A length is converted unless it is physical and the resolution is rounded out of range, which
starts half a step below `2¹⁰²⁴`. A relative length is converted to itself and any other one to user
units. -/
theorem toUserUnits_boundary (dpi : Int) (l : Length) :
    (∀ x, toUserUnits dpi l = .error x ↔
      l.unit ∈ [LengthUnit.pica, .millimeter, .centimeter, .point, .inch] ∧
        Binary64.wholeOverflow ≤ dpi.natAbs ∧ x = .resolutionTooLarge) ∧
    (¬ (l.unit ∈ [LengthUnit.pica, .millimeter, .centimeter, .point, .inch] ∧
        Binary64.wholeOverflow ≤ dpi.natAbs) →
      ∃ m, toUserUnits dpi l = .ok m ∧
        (l.unit ∈ [LengthUnit.em, .percent] → m = l) ∧
        (l.unit ∉ [LengthUnit.em, .percent] → m.unit = .user)) := by
  rw [← LengthUnit.isPhysical_iff, ← LengthUnit.isRelative_iff]
  constructor
  · intro x
    rw [toUserUnits_eq_error_iff, Binary64.ofInt?_eq_none_iff, isPhysical]
    cases x
    rw [eq_self, and_true]
  · intro hfits
    cases hrelative : l.isRelative with
    | true => exact ⟨l, toUserUnits_of_isRelative hrelative dpi, fun _ => rfl, absurd hrelative⟩
    | false =>
      obtain ⟨value, hvalue⟩ : ∃ value, toUserUnits dpi l = .ok ⟨value, .user⟩ := by
        cases hphysical : l.isPhysical with
        | false => exact exists_toUserUnits_of_absolute hphysical hrelative
        | true =>
          apply exists_toUserUnits_of_isPhysical hphysical
          rw [← Nat.not_le]
          exact fun hlarge => hfits ⟨hphysical, hlarge⟩
      refine ⟨_, hvalue, fun h => ?_, fun _ => rfl⟩
      exact absurd (hrelative.symm.trans h) Bool.false_ne_true

theorem toUserUnits_boundary_inch :
    ¬ (LengthUnit.inch ∈ [LengthUnit.pica, .millimeter, .centimeter, .point, .inch] ∧
        Binary64.wholeOverflow ≤ (96 : Int).natAbs) ∧
      ∃ m, toUserUnits 96 ⟨Binary64.ofInt 1, .inch⟩ = .ok m ∧ m.unit = .user := by
  have hfits : ¬ (LengthUnit.inch ∈ [LengthUnit.pica, .millimeter, .centimeter, .point, .inch] ∧
      Binary64.wholeOverflow ≤ (96 : Int).natAbs) := by
    rintro ⟨-, hlarge⟩
    exact absurd hlarge (by decide +kernel)
  obtain ⟨m, hm, -, huser⟩ := (toUserUnits_boundary 96 ⟨Binary64.ofInt 1, .inch⟩).2 hfits
  exact ⟨hfits, m, hm, huser (by decide)⟩

end Length

end VectorStyle
