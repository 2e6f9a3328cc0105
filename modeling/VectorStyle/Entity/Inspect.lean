import VectorStyle.Entity.Basic
import VectorStyle.Text.Quoted
import VectorStyle.Decimal.Shortest

/-!
# Entities in messages

A message that refuses an entity shows it in constructor notation: the name of its kind and its
parts by name, down to the leaves. Groups of fixed length are shown in parentheses, with a comma
after a single member, and sequences in brackets.
-/

set_option autoImplicit false

namespace VectorStyle

/-- Members in parentheses, with a comma after a single one. -/
def parenthesized : List String → String
  | [member] => "(" ++ member ++ ",)"
  | members => "(" ++ ", ".intercalate members ++ ")"

/-- Members in brackets. -/
def bracketed (members : List String) : String := "[" ++ ", ".intercalate members ++ "]"

/-- A kind with its named parts. -/
def constructed (kind : String) (parts : List (String × String)) : String :=
  kind ++ "(" ++ ", ".intercalate (parts.map fun p => p.1 ++ "=" ++ p.2) ++ ")"

open Text (quoted)

/-! ## Leaves -/

/-- A descriptor in constructor notation. -/
def Descriptor.shown : Descriptor → String
  | ofClass n => constructed "OfClass" [("name", quoted n)]
  | ofName n => constructed "OfName" [("name", quoted n)]
  | ofId n => constructed "OfId" [("name", quoted n)]
  | ofPseudoClass n => constructed "OfPseudoClass" [("name", quoted n)]
  | anyElement => constructed "AnyElem" []
  | withAttribute n v => constructed "WithAttrib" [("name", quoted n), ("value", quoted v)]

/-- A combinator in constructor notation. -/
def Combinator.shown : Combinator → String
  | nearby => constructed "Nearby" []
  | child => constructed "DirectChildren" []

/-- The name under which messages show a unit. -/
def LengthUnit.label : LengthUnit → String
  | user => "NUM"
  | pixel => "PX"
  | em => "EM"
  | percent => "PERCENT"
  | pica => "PC"
  | millimeter => "MM"
  | centimeter => "CM"
  | point => "POINT"
  | inch => "INCHES"

/-- A unit in messages: its label and its suffix. -/
def LengthUnit.shown (u : LengthUnit) : String :=
  "<Unit." ++ u.label ++ ": " ++ quoted u.suffix ++ ">"

/-- A length in constructor notation. -/
def Length.shown (l : Length) : String :=
  constructed "Number" [("value", Decimal.shortestText l.value), ("unit", l.unit.shown)]

/-- A color in constructor notation. -/
def Color.shown (c : Color) : String :=
  constructed "Rgba"
    [("r", toString c.red.val), ("g", toString c.green.val), ("b", toString c.blue.val),
      ("a", toString c.alpha.val)]

/-- A plain value in messages. A whole number is written with all its digits, also where these are
more than `Text.Integer.maxDigits`: that limit is one of reading. -/
def Literal.shown : Literal → String
  | none => "None"
  | bool b => if b then "True" else "False"
  | int i => toString i
  | float x => Decimal.shortestText x
  | text s => quoted s

/-- The name of a plain value's type. -/
def Literal.typeName : Literal → String
  | none => "NoneType"
  | bool _ => "bool"
  | int _ => "int"
  | float _ => "float"
  | text _ => "str"

/-- What is no part of a stylesheet, in messages. -/
def Foreign.shown : Foreign → String
  | literal l => l.shown
  | unit u => u.shown
  | color c => c.shown
  | element e => e.shown

/-- The name of the type of what is no part of a stylesheet. -/
def Foreign.typeName : Foreign → String
  | literal l => l.typeName
  | unit _ => "Unit"
  | color _ => "Rgba"
  | element _ => "StyleElement"

/-! ## Entities -/

mutual

/-- An entity in constructor notation. -/
def Entity.shown : Entity → String
  | .descriptor d => d.shown
  | .combinator c => c.shown
  | .compound parts => constructed "AllOf" [("descriptors", parenthesized (shownAll parts))]
  | .sequence items => bracketed (shownAll items)
  | .block alternatives parts =>
    constructed "CssRule"
      [("selectors", parenthesized (shownGroups alternatives)),
        ("declarations", parenthesized (shownAll parts))]
  | .declaration d => d.shown
  | .ident n => constructed "CssIdent" [("name", quoted n)]
  | .reference n => constructed "CssReference" [("name", quoted n)]
  | .string t => constructed "CssString" [("text", quoted t)]
  | .number l => constructed "CssNumber" [("number", l.shown)]
  | .color c => constructed "CssColor" [("color", c.shown)]
  | .function n args =>
    constructed "CssFunction" [("name", quoted n), ("args", parenthesized (shownAll args))]
  | .comma => constructed "CssOpComma" []
  | .slash => constructed "CssOpSlash" []
  | .length l => l.shown
  | .foreign f => f.shown

/-- The members of a list, each in constructor notation. -/
def shownAll : List Entity → List String
  | [] => []
  | e :: es => e.shown :: shownAll es

/-- The groups of a list of lists, each in parentheses. -/
def shownGroups : List (List Entity) → List String
  | [] => []
  | g :: gs => parenthesized (shownAll g) :: shownGroups gs

/-- A declaration in constructor notation. -/
def Declaration.shown : Declaration → String
  | ⟨property, groups⟩ =>
    constructed "CssDeclaration"
      [("property", quoted property), ("values", parenthesized (shownGroups groups))]

end

end VectorStyle
