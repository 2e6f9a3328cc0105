import VectorStyle.Length.Basic

/-!
# Conversion to user units

Pixels are user units. Physical lengths go through inches and are scaled by the resolution, the
number of dots per inch. Relative lengths and user units are left as they are.

The resolution is a whole number of any size. Scaling by it needs the number of the 64-bit format
nearest to it, and fails if there is no finite one; nothing else can fail.

Main statements: `toUserUnits_of_isRelative` and `toUserUnits_eq_error_iff`.
-/

set_option autoImplicit false

namespace VectorStyle.Length

/-- Why a length has no value in user units. -/
inductive ConversionError where
  | resolutionTooLarge
deriving DecidableEq, Repr

/-- The text of the error. -/
def ConversionError.message : ConversionError → String
  | resolutionTooLarge => "int too large to convert to float"

/-- A physical length in inches. -/
def inches? (l : Length) : Option Binary64 :=
  match l.unit with
  | .pica => some (Binary64.ofInt 12 * l.value / Binary64.ofInt 72)
  | .millimeter => some (l.value / Binary64.ofRatio false 254 10)
  | .centimeter => some (l.value / Binary64.ofRatio false 254 100)
  | .point => some (l.value / Binary64.ofInt 72)
  | .inch => some l.value
  | _ => none

/-- The length in user units at a resolution of `dpi` dots per inch. -/
def toUserUnits (dpi : Int) (l : Length) : Except ConversionError Length :=
  match l.inches? with
  | some inches =>
    match Binary64.ofInt? dpi with
    | some dots => .ok ⟨inches * dots, .user⟩
    | none => .error .resolutionTooLarge
  | none => .ok (if l.unit = .pixel then ⟨l.value, .user⟩ else l)

theorem isSome_inches? (l : Length) : l.inches?.isSome = l.isPhysical := by
  cases l with
  | mk value unit => cases unit <;> rfl

/-- A relative length is left as it is. -/
theorem toUserUnits_of_isRelative {l : Length} (h : l.isRelative = true) (dpi : Int) :
    toUserUnits dpi l = .ok l := by
  obtain ⟨value, unit⟩ := l
  cases unit with
  | em => rfl
  | percent => rfl
  | _ => cases h

theorem toUserUnits_eq_error_iff (dpi : Int) (l : Length) (e : ConversionError) :
    toUserUnits dpi l = .error e ↔ l.isPhysical = true ∧ Binary64.ofInt? dpi = none := by
  rw [← isSome_inches?]
  unfold toUserUnits
  cases e
  cases l.inches? with
  | none => simp
  | some inches => cases Binary64.ofInt? dpi <;> simp

end VectorStyle.Length
