import VectorStyle.Decimal.Places

/-!
# The shortest decimal that reads back

Of all decimals that round to a given finite number of the 64-bit format, `Decimal.shortest` is one
with the fewest digits, and of those the one nearest to the number (the even one of two). Its text
is positional for decimal exponents from −4 to 15, with `.0` after a whole number, and otherwise has
an exponent of at least two digits.

The reals that round to a number form an interval around it. Its ends lie half way to the two
neighbours and belong to it exactly if the number's last significant bit is zero. A decimal grid
meets the interval if and only if one of the number's two neighbours on the grid lies in it, so the
search looks at two candidates for each count of digits, from one to seventeen.
-/

set_option autoImplicit false

namespace VectorStyle.Decimal

/-- The quotient `num / den` of two positive whole numbers that stands for a power of ten. -/
structure Power where
  num : Nat
  den : Nat

/-- The power `10 ^ e`. -/
def Power.ofExponent (e : Int) : Power := ⟨Nat.pow 10 e.toNat, Nat.pow 10 (-e).toNat⟩

/-- The reals that round to one magnitude, in quarters of a unit. -/
structure Interval where
  low : Nat
  high : Nat
  closed : Bool

/-- The interval of a positive magnitude. Below a power of two the gap is half as wide. -/
def Interval.ofUnits (units : Nat) : Interval :=
  let gap := Nat.pow 2 (Binary64.step units)
  let atPower := units == Nat.pow 2 52 * gap && gap != 1
  { low := 4 * units - (if atPower then gap else 2 * gap)
    high := 4 * units + 2 * gap
    closed := units / gap % 2 == 0 }

/-- Whether `c · 10 ^ e` lies in an interval. -/
def Interval.contains (i : Interval) (c : Nat) (p : Power) : Bool :=
  let value := 4 * c * p.num * Binary64.one
  let low := i.low * p.den
  let high := i.high * p.den
  if i.closed then decide (low ≤ value ∧ value ≤ high) else decide (low < value ∧ value < high)

/-- The exponent of a positive magnitude's first decimal digit. -/
def leadingExponent (units : Nat) : Int :=
  ((Nat.toDigits 10 (units * Nat.pow 10 400 / Binary64.one)).length : Int) - 401

/-- The neighbours of a magnitude on the grid of multiples of `10 ^ e`, as multiples; the first of
them that lies in the interval, the nearer one if both do. -/
def onGrid (units : Nat) (e : Int) : Option Nat :=
  let p := Power.ofExponent e
  let i := Interval.ofUnits units
  let below := units * p.den / (p.num * Binary64.one)
  let nearer := nearest (units * p.den) (p.num * Binary64.one)
  if i.contains nearer p then some nearer
  else if i.contains below p then some below
  else if i.contains (below + 1) p then some (below + 1)
  else none

/-- Digits and exponent of the shortest decimal that rounds to a positive magnitude. -/
def shortest (units : Nat) : List Char × Int :=
  let e := leadingExponent units
  let hit := (List.range 17).findSome? fun (d : Nat) =>
    (onGrid units (e - (d : Int))).map fun c => (c, e - (d : Int))
  let (c, grid) := hit.getD (0, 0)
  let digits := Nat.toDigits 10 c
  let kept := trimZeros digits
  (kept, grid + ((digits.length - kept.length : Nat) : Int))

/-- Decimal exponents that are written with the point in its place. -/
def isPositional (exponent : Int) : Bool := decide (-4 ≤ exponent ∧ exponent < 16)

/-- The digits `ds`, the last of them at `10 ^ e`, with the point in its place. -/
def positional (ds : List Char) (e : Int) : List Char :=
  if 0 ≤ e then ds ++ List.replicate e.toNat '0' ++ ['.', '0']
  else
    let behind := (-e).toNat
    if behind < ds.length then ds.take (ds.length - behind) ++ '.' :: ds.drop (ds.length - behind)
    else ['0', '.'] ++ List.replicate (behind - ds.length) '0' ++ ds

/-- An exponent with its sign and at least two digits. -/
def exponentText (e : Int) : List Char :=
  let ds := Nat.toDigits 10 e.natAbs
  'e' :: (if e < 0 then '-' else '+') :: (if ds.length < 2 then '0' :: ds else ds)

/-- The digits `ds`, the last of them at `10 ^ e`, with one digit before the point and an
exponent. -/
def scientific (ds : List Char) (e : Int) : List Char :=
  pointed (ds.take 1) (ds.drop 1) ++ exponentText (e + (ds.length : Int) - 1)

/-- The shortest text of a number that reads back as the same number. -/
def shortestText : Binary64 → String
  | .nan => "nan"
  | .infinity s => String.ofList (signed s ['i', 'n', 'f'])
  | .finite s n _ =>
    if n = 0 then String.ofList (signed s ['0', '.', '0'])
    else
      let (ds, e) := shortest n
      let leading := e + (ds.length : Int) - 1
      String.ofList (signed s (if isPositional leading then positional ds e else scientific ds e))

end VectorStyle.Decimal
