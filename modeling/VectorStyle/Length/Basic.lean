import VectorStyle.Binary64.Arithmetic
import VectorStyle.Text.Quoted

/-!
# Lengths

A length is a number with one of nine units. Two units are relative: `em` to the font size and `%`
to the viewport. Five are physical and depend on the resolution. A percentage is stored as a
fraction, so one half stands for 50%.

Main statement: `ofSuffix?_eq_some_iff`, a suffix names exactly the unit that is written with it.
-/

set_option autoImplicit false

namespace VectorStyle

/-- The unit of a length. -/
inductive LengthUnit where
  | user
  | pixel
  | em
  | percent
  | pica
  | millimeter
  | centimeter
  | point
  | inch
deriving DecidableEq, Repr

namespace LengthUnit

/-- All units, in the order in which they are listed. -/
def all : List LengthUnit :=
  [user, pixel, em, percent, pica, millimeter, centimeter, point, inch]

/-- What is written after the number. -/
def suffix : LengthUnit → String
  | user => ""
  | pixel => "px"
  | em => "em"
  | percent => "%"
  | pica => "pc"
  | millimeter => "mm"
  | centimeter => "cm"
  | point => "pt"
  | inch => "in"

/-- The unit with a given suffix. -/
def ofSuffix? (s : String) : Option LengthUnit := all.find? (·.suffix == s)

/-- A suffix that no unit has. -/
structure SuffixError where
  suffix : String
deriving DecidableEq, Repr

/-- The text of the error. -/
def SuffixError.message (e : SuffixError) : String := Text.quoted e.suffix ++ " is not a valid Unit"

/-- The unit with a given suffix, or the error that there is none. -/
def ofSuffix (s : String) : Except SuffixError LengthUnit :=
  match ofSuffix? s with
  | some u => .ok u
  | none => .error ⟨s⟩

/-- Whether the unit depends on the font size or the viewport. -/
def isRelative : LengthUnit → Bool
  | em | percent => true
  | _ => false

/-- Whether the unit depends on the resolution. -/
def isPhysical : LengthUnit → Bool
  | pica | millimeter | centimeter | point | inch => true
  | _ => false

theorem ofSuffix?_eq_some_iff (s : String) (u : LengthUnit) :
    ofSuffix? s = some u ↔ u.suffix = s := by
  constructor
  · intro h
    simpa using List.find?_some h
  · rintro rfl
    cases u <;> decide

end LengthUnit

/-- A number with a unit. -/
structure Length where
  value : Binary64
  unit : LengthUnit
deriving DecidableEq

namespace Length

/-- The length with its number replaced. -/
def map (f : Binary64 → Binary64) (l : Length) : Length := { l with value := f l.value }

/-- Whether the length depends on the font size or the viewport. -/
def isRelative (l : Length) : Bool := l.unit.isRelative

/-- Whether the length depends on the resolution. -/
def isPhysical (l : Length) : Bool := l.unit.isPhysical

/-- Equality of lengths: one unit, and numbers that are equal as numbers. -/
def same (l m : Length) : Bool := l.value.same m.value && l.unit == m.unit

end Length

end VectorStyle
