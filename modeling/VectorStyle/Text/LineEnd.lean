/-!
# Line ends

A line ends with a line feed. `withLineFeeds` writes each pair of a carriage return and a line feed
as the line feed alone; other carriage returns stay.
-/

set_option autoImplicit false

namespace VectorStyle.Text

namespace Chars

/-- The characters of a text, each line of which ends with a line feed alone. -/
def lineFeeds : List Char → List Char
  | '\r' :: '\n' :: cs => '\n' :: lineFeeds cs
  | c :: cs => c :: lineFeeds cs
  | [] => []

end Chars

/-- A text with line feeds for line ends. -/
def withLineFeeds (s : String) : String := String.ofList (Chars.lineFeeds s.toList)

end VectorStyle.Text
