import VectorStyle.Text.Blank

/-!
# Elements and what selectors see of them

A selector asks four questions of an element: its name, its id, its classes and the value of an
attribute. `Profile` is the record of the answers. `Element` is an element of a document, which
keeps its id and classes apart from its other attributes and answers for them under the attribute
names `id` and `class`.

Main statements: `attributeValue_id` and `attributeValue_class` give these answers.
-/

set_option autoImplicit false

namespace VectorStyle

/-- What a selector can see of an element. -/
structure Profile where
  name : String
  id : Option String
  classes : List String
  attributeValue : String → Option String

/-- An element of a document, apart from its place in it. -/
structure Element where
  name : String
  id : Option String := none
  classes : List String := []
  attributes : List (String × String) := []
  name_ne : name ≠ ""

namespace Element

/-- An element was given an empty name. -/
inductive NameError where
  | empty
deriving DecidableEq, Repr

/-- The text of the error. -/
def NameError.message : NameError → String
  | empty => "Element name must be a non-empty string"

/-- The element with the given parts, if its name is not empty. -/
def make (name : String) (id : Option String) (classes : List String)
    (attributes : List (String × String)) : Except NameError Element :=
  if h : name ≠ "" then .ok ⟨name, id, classes, attributes, h⟩ else .error .empty

/-- The element whose classes are the words of a text. -/
def ofClassText (name : String) (id : Option String) (classes : String)
    (attributes : List (String × String)) : Except NameError Element :=
  make name id (Text.words classes) attributes

/-- The value of an attribute. The id and the classes, if there are any, hide attributes of their
names; the classes are written with spaces between them. -/
def attributeValue (e : Element) (name : String) : Option String :=
  if name = "id" then e.id
  else if name = "class" ∧ e.classes ≠ [] then some (" ".intercalate e.classes)
  else e.attributes.lookup name

/-- What a selector sees of an element. -/
def profile (e : Element) : Profile := ⟨e.name, e.id, e.classes, e.attributeValue⟩

/-- An element as messages show it: name, id and classes. -/
def shown (e : Element) : String :=
  let id := match e.id with
    | some i => if i = "" then "" else "#" ++ i
    | none => ""
  "StyleElement(" ++ e.name ++ id ++ String.join (e.classes.map ("." ++ ·)) ++ ")"

theorem attributeValue_id (e : Element) : e.attributeValue "id" = e.id := rfl

theorem attributeValue_class (e : Element) (h : e.classes ≠ []) :
    e.attributeValue "class" = some (" ".intercalate e.classes) := by
  simp [attributeValue, h]

end Element

end VectorStyle
