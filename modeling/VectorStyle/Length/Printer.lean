import VectorStyle.Length.Basic
import VectorStyle.Decimal.Places

/-!
# The text of a length

A length is written as its number, rounded to four places, and the suffix of its unit. A percentage
is written as the whole percentage below it.
-/

set_option autoImplicit false

namespace VectorStyle.Length

/-- The hundredfold of a fraction, rounded once. -/
def percentage (value : Binary64) : Binary64 := Binary64.ofInt 100 * value

/-- A percentage without decimals, rounded down. -/
def percentText (value : Binary64) : String :=
  match (percentage value).floor? with
  | some whole => toString whole
  | none => Decimal.format (percentage value)

/-- The text of a length. -/
def text (l : Length) : String :=
  (if l.unit = .percent then percentText l.value else Decimal.format l.value) ++ l.unit.suffix

end VectorStyle.Length
