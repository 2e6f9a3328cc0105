import VectorStyle.Entity.Inspect
import VectorStyle.Length.Printer

/-!
# The text of a stylesheet

Every part of a stylesheet has a text. Lists are joined part by part: the descriptors of a compound
selector without anything between them, the members of a sequence and the terms of a declaration
with spaces, the alternatives of a rule with a comma and a line end, the arguments of a function
with a comma and a space. What is no part of a stylesheet has no text, and the first such thing in
reading order is the error.

Main statements: `texts_eq_mapM`, the text of a part does not depend on what stands around it, and
`Declaration.text_eq`, a declaration is written as its flattened terms.
-/

set_option autoImplicit false

namespace VectorStyle

/-- The text of a descriptor. -/
def Descriptor.text : Descriptor → String
  | ofClass n => "." ++ n
  | ofName n => n
  | ofId n => "#" ++ n
  | ofPseudoClass n => ":" ++ n
  | anyElement => "*"
  | withAttribute n v => "[" ++ n ++ "=" ++ v ++ "]"

/-- The text of a combinator. -/
def Combinator.text : Combinator → String
  | nearby => "+"
  | child => ">"

/-- The message that refuses what is no part of a stylesheet. -/
def Foreign.message (f : Foreign) : String := "Cannot serialize " ++ f.typeName ++ ": " ++ f.shown

/-- One line inside a rule's block. -/
def declarationLine (text : String) : String := "  " ++ text ++ ";\n"

/-- The text of a rule from the texts of its alternatives and its declarations. -/
def ruleBlock (alternatives declarations : List String) : String :=
  ",\n".intercalate alternatives ++ " \x7b\n" ++ String.join (declarations.map declarationLine) ++
    "\x7d\n"

/-- The text of a declaration from the texts of its terms. -/
def declarationText (property : String) (terms : List String) : String :=
  property ++ ": " ++ " ".intercalate terms

mutual

/-- The text of an entity. -/
def Entity.text : Entity → Except Foreign String
  | .descriptor d => .ok d.text
  | .combinator c => .ok c.text
  | .compound parts => return String.join (← texts parts)
  | .sequence items => return " ".intercalate (← texts items)
  | .block alternatives parts => do
    let selectors ← groupTexts alternatives
    return ruleBlock (selectors.map (" ".intercalate ·)) (← texts parts)
  | .declaration d => d.text
  | .ident n => .ok n
  | .reference n => .ok ("#" ++ n)
  | .string t => .ok ("\"" ++ t ++ "\"")
  | .number l => .ok l.text
  | .color c => .ok c.text
  | .function n args => return n ++ "(" ++ ", ".intercalate (← texts args) ++ ")"
  | .comma => .ok ","
  | .slash => .ok "/"
  | .length l => .ok l.text
  | .foreign f => .error f

/-- The texts of the members of a list. -/
def texts : List Entity → Except Foreign (List String)
  | [] => .ok []
  | e :: es => return (← e.text) :: (← texts es)

/-- The texts of the members of each list. -/
def groupTexts : List (List Entity) → Except Foreign (List (List String))
  | [] => .ok []
  | g :: gs => return (← texts g) :: (← groupTexts gs)

/-- The text of a declaration. -/
def Declaration.text : Declaration → Except Foreign String
  | ⟨property, groups⟩ => return declarationText property (← groupTexts groups).flatten

end

/-- The text of a stylesheet: the texts of its parts one after the other. -/
def stylesheetText (es : List Entity) : Except Foreign String := return String.join (← texts es)

theorem texts_eq_mapM (es : List Entity) : texts es = es.mapM Entity.text := by
  induction es with
  | nil => rfl
  | cons e es ih =>
    rw [texts, List.mapM_cons, ih]

theorem texts_append (es fs : List Entity) :
    texts (es ++ fs) = (do return (← texts es) ++ (← texts fs)) := by
  rw [texts_eq_mapM, texts_eq_mapM, texts_eq_mapM, List.mapM_append]

/-- Writing group by group and flattening is writing the flattened terms. -/
theorem groupTexts_flatten (gs : List (List Entity)) :
    (groupTexts gs).map List.flatten = texts gs.flatten := by
  induction gs with
  | nil => rfl
  | cons g gs ih =>
    rw [List.flatten_cons, texts_append, ← ih, groupTexts]
    cases texts g with
    | error f => rfl
    | ok ts => cases groupTexts gs <;> rfl

theorem Declaration.text_eq (d : Declaration) :
    d.text = (texts d.terms).map (declarationText d.property) := by
  rw [Declaration.terms, ← groupTexts_flatten]
  cases d with
  | mk property groups =>
    rw [Declaration.text]
    cases groupTexts groups <;> rfl

end VectorStyle
