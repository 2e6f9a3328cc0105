/-!
# Colors

A color has four channels of eight bits: red, green, blue and opacity. Its text has two upper-case
hexadecimal digits for each of the first three; the opacity is not written.
-/

set_option autoImplicit false

namespace VectorStyle

/-- A color of eight bits per channel. -/
structure Color where
  red : Fin 256
  green : Fin 256
  blue : Fin 256
  alpha : Fin 256
deriving DecidableEq, Repr

namespace Color

/-- A channel value that does not fit into eight bits. -/
structure RangeError where
  channel : Int
deriving DecidableEq, Repr

/-- The text of the error. -/
def RangeError.message (e : RangeError) : String :=
  "Color channel out of range: " ++ toString e.channel

/-- A whole number as a channel. -/
def channel (i : Int) : Except RangeError (Fin 256) :=
  if h : 0 ≤ i ∧ i < 256 then .ok ⟨i.toNat, by omega⟩ else .error ⟨i⟩

/-- The color with the given channels; the first one out of range is the error. -/
def ofChannels (r g b a : Int) : Except RangeError Color := do
  let red ← channel r
  let green ← channel g
  let blue ← channel b
  let alpha ← channel a
  return ⟨red, green, blue, alpha⟩

/-- Two upper-case hexadecimal digits. -/
def hexPair (n : Fin 256) : List Char :=
  [n.val / 16, n.val % 16].map fun d => (Nat.digitChar d).toUpper

/-- The text of a color. -/
def text (c : Color) : String :=
  String.ofList ('#' :: hexPair c.red ++ hexPair c.green ++ hexPair c.blue)

end Color

end VectorStyle
