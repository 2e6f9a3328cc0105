import VectorStyle.Length.Basic
import VectorStyle.Text.Integer
import VectorStyle.Text.Quoted

/-!
# Reading a length

A length text is a decimal numeral and a unit, with blanks allowed before, between and after them:

    blank* numeral blank* unit blank*
    numeral = sign? (digit+ ("." digit*)? | "." digit+) (("e" | "E") sign? digit+)?
    unit    = (ASCII letter | "%")*

Digits are those of every script. The letters of the unit may be of either case. No part can be
shortened in favour of the next one, since no part begins with a character that the one before it
could hold, so each part is read as far as it goes.
-/

set_option autoImplicit false

namespace VectorStyle.Length

open Text (isBlank)
open Text.Digit (isDigit number)
open Text.Integer (sign)

/-- Why a text is no length. -/
inductive ReadError where
  | notALength (text : String)
  | unknownUnit (unit text : String)
deriving DecidableEq, Repr

/-- The text of the error. -/
def ReadError.message : ReadError → String
  | notALength text => Text.quoted text ++ " is not a length"
  | unknownUnit unit text => "unknown unit " ++ Text.quoted unit ++ " in " ++ Text.quoted text

/-- The parts of a decimal numeral: its sign, its digits before and after the point, and the power
of ten it is scaled by. -/
structure Numeral where
  negative : Bool
  whole : List Char
  fraction : List Char
  exponent : Int

namespace Numeral

/-- The number nearest to the one that the numeral denotes. -/
def value (n : Numeral) : Binary64 :=
  Binary64.ofDecimal n.negative (number (n.whole ++ n.fraction))
    (n.exponent - (n.fraction.length : Int))

/-- The digits after a point, and what follows; without a point there are none. -/
def readFraction : List Char → List Char × List Char
  | '.' :: rest => (rest.takeWhile isDigit, rest.dropWhile isDigit)
  | rest => ([], rest)

/-- The exponent after the mark, and what follows. Without a mark, or without a digit after it,
there is no exponent and nothing is consumed. -/
def readExponent (cs : List Char) : Int × List Char :=
  match cs with
  | [] => (0, cs)
  | mark :: rest =>
    let (negative, body) := sign rest
    let ds := body.takeWhile isDigit
    if (mark == 'e' || mark == 'E') && !ds.isEmpty then
      (if negative then -(number ds : Int) else number ds, body.dropWhile isDigit)
    else (0, cs)

/-- The numeral at the beginning of a text, and what follows it. -/
def read? (cs : List Char) : Option (Numeral × List Char) :=
  let (negative, body) := sign cs
  let whole := body.takeWhile isDigit
  let (fraction, afterFraction) := readFraction (body.dropWhile isDigit)
  if whole.isEmpty && fraction.isEmpty then none
  else
    let (exponent, rest) := readExponent afterFraction
    some (⟨negative, whole, fraction, exponent⟩, rest)

end Numeral

/-- Whether a character may stand in a unit. -/
def isUnitChar (c : Char) : Bool := c.isAlpha || c == '%'

/-- The numeral and the unit of a length text, the unit as it is written. -/
def readParts? (cs : List Char) : Option (Numeral × List Char) :=
  (Numeral.read? (cs.dropWhile isBlank)).bind fun (numeral, rest) =>
    let tail := rest.dropWhile isBlank
    if (tail.dropWhile isUnitChar).all isBlank then some (numeral, tail.takeWhile isUnitChar)
    else none

/-- The length of a number read with a unit: percentages are written as the hundredfold. -/
def ofRead (value : Binary64) (unit : LengthUnit) : Length :=
  ⟨if unit = .percent then value / Binary64.ofInt 100 else value, unit⟩

/-- The length that a text denotes. -/
def read (s : String) : Except ReadError Length :=
  match readParts? s.toList with
  | none => .error (.notALength s)
  | some (numeral, unit) =>
    match LengthUnit.ofSuffix? (String.ofList (unit.map Char.toLower)) with
    | none => .error (.unknownUnit (String.ofList unit) s)
    | some u => .ok (ofRead numeral.value u)

end VectorStyle.Length
