import VectorStyle.Length.Conversion
import VectorStyle.Style.Hits
import VectorStyle.Tree.Walk

/-!
# The styles of a document

Resolving a document gives every element, in document order, the declarations that its context gets
from the rules. The last declaration of a property decides; selectors are not weighed against each
other. A length is looked up as the first number of the deciding declaration, in user units.
-/

set_option autoImplicit false

namespace VectorStyle

/-- An element with its declarations and the resolution for its lengths, in dots per inch. -/
structure ResolvedStyle where
  element : Element
  declarations : List Declaration
  dpi : Int

/-- The number that an entity is, if it is a number term. -/
def Entity.asNumber? : Entity → Option Length
  | .number l => some l
  | _ => none

/-- The first number among the terms of a declaration. Numbers inside functions are not terms. -/
def Declaration.firstNumber? (d : Declaration) : Option Length := d.terms.findSome? Entity.asNumber?

namespace ResolvedStyle

/-- The last declaration of a property. -/
def lookup (s : ResolvedStyle) (property : String) : Option Declaration :=
  s.declarations.reverse.find? (·.property == property)

/-- The first number of the last declaration of a property in user units, if there is one. -/
def length (s : ResolvedStyle) (property : String) :
    Except Length.ConversionError (Option Length) :=
  match (s.lookup property).bind Declaration.firstNumber? with
  | none => .ok none
  | some l => (l.toUserUnits s.dpi).map some

/-- The log line for an element whose style has been resolved from a number of rules. -/
def logLine (rules : Nat) (s : ResolvedStyle) : String :=
  s.element.shown ++ ": " ++ toString s.declarations.length ++ " declaration(s) from " ++
    toString rules ++ " rule(s)"

end ResolvedStyle

namespace Style

/-- What selectors see of a context of elements. -/
def profiles (context : Context Element) : Context Profile :=
  context.map fun level => level.map Element.profile

/-- The declarations that a context of elements gets from rules. -/
def declarationsFor (rules : List Rule) (context : Context Element) :
    Except MatchError (List Declaration) :=
  (hits (profiles context) rules).map declarations

/-- The style of a visited element. -/
def ofVisit (rules : List Rule) (dpi : Int) (v : Visit Element) : Except MatchError ResolvedStyle :=
  (declarationsFor rules v.context).map fun ds => ⟨v.value, ds, dpi⟩

/-- The styles of all elements of a document, in document order. -/
def resolve (rules : List Rule) (dpi : Int) (t : Tree Element) :
    Except MatchError (List ResolvedStyle) :=
  t.walk.mapM (ofVisit rules dpi)

end Style

end VectorStyle
