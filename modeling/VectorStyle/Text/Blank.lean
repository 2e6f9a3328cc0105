/-!
# Blanks and words

A blank is a character that separates words: the ASCII spaces and separators, the next-line and
no-break characters and the spaces and line ends of the general punctuation. Zero-width characters
are no blanks.

Main statements: what `strip` leaves neither begins nor ends with a blank (`head?_strip`,
`getLast?_strip`).
-/

set_option autoImplicit false

namespace VectorStyle.Text

/-- Whether a character separates words. -/
def isBlank (c : Char) : Bool :=
  let n := c.toNat
  (0x9 ≤ n && n ≤ 0xd) || (0x1c ≤ n && n ≤ 0x20) || n == 0x85 || n == 0xa0 || n == 0x1680 ||
    (0x2000 ≤ n && n ≤ 0x200a) || n == 0x2028 || n == 0x2029 || n == 0x202f || n == 0x205f ||
    n == 0x3000

namespace Chars

/-- The characters without those at either end that satisfy `p`. -/
def stripBy (p : Char → Bool) (cs : List Char) : List Char :=
  ((cs.dropWhile p).reverse.dropWhile p).reverse

/-- The characters without the blanks at either end. -/
def strip (cs : List Char) : List Char := stripBy isBlank cs

/-- The words of a text: the longest runs without a blank. -/
def words (cs : List Char) : List (List Char) := (cs.splitOnP isBlank).filter fun w => !w.isEmpty

theorem head?_dropWhile (p : Char → Bool) (cs : List Char) (c : Char)
    (h : (cs.dropWhile p).head? = some c) : p c = false := by
  have hdrop := List.head?_dropWhile_not p cs
  rw [h] at hdrop
  simpa using hdrop

/-- What is left begins with no blank: dropping from the end keeps the beginning. -/
theorem head?_strip (cs : List Char) (c : Char) (h : (strip cs).head? = some c) :
    isBlank c = false := by
  apply head?_dropWhile isBlank cs c
  unfold strip stripBy at h
  have hsuffix := List.dropWhile_suffix (l := (cs.dropWhile isBlank).reverse) isBlank
  obtain ⟨dropped, hdropped⟩ := hsuffix
  rw [← List.reverse_reverse (cs.dropWhile isBlank), ← hdropped, List.reverse_append,
    List.head?_append, h, Option.some_or]

theorem getLast?_strip (cs : List Char) (c : Char) (h : (strip cs).getLast? = some c) :
    isBlank c = false := by
  unfold strip stripBy at h
  rw [List.getLast?_reverse] at h
  exact head?_dropWhile isBlank _ c h

end Chars

/-- A text without the blanks at either end. -/
def strip (s : String) : String := String.ofList (Chars.strip s.toList)

/-- The words of a text, in order. -/
def words (s : String) : List String := (Chars.words s.toList).map String.ofList

end VectorStyle.Text
