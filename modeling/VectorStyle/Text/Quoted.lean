import VectorStyle.Text.Printable

/-!
# Quoted text

Messages show a text between quotes: single ones, or double ones if the text holds a single quote
and no double one. The backslash, the quote in use and the characters that are not printable are
escaped, the latter by their code point in two, four or eight lower-case hexadecimal digits.
-/

set_option autoImplicit false

namespace VectorStyle.Text

/-- The last `width` hexadecimal digits of a number, padded with zeros. -/
def hex (width n : Nat) : List Char := (Nat.toDigits 16 (Nat.pow 16 width + n)).drop 1

/-- The quote that goes around a text. -/
def quoteFor (cs : List Char) : Char := if cs.contains '\'' && !cs.contains '"' then '"' else '\''

/-- A character inside a quoted text. -/
def escapeChar (quote c : Char) : List Char :=
  if c == quote || c == '\\' then ['\\', c]
  else if c == '\n' then ['\\', 'n']
  else if c == '\r' then ['\\', 'r']
  else if c == '\t' then ['\\', 't']
  else if isPrintable c then [c]
  else if c.toNat < 0x100 then '\\' :: 'x' :: hex 2 c.toNat
  else if c.toNat < 0x10000 then '\\' :: 'u' :: hex 4 c.toNat
  else '\\' :: 'U' :: hex 8 c.toNat

/-- The characters of a text between quotes. -/
def quotedChars (cs : List Char) : List Char :=
  quoteFor cs :: cs.flatMap (escapeChar (quoteFor cs)) ++ [quoteFor cs]

/-- A text as messages show it. -/
def quoted (s : String) : String := String.ofList (quotedChars s.toList)

end VectorStyle.Text
