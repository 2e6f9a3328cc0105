import VectorStyle.Color
import VectorStyle.Element
import VectorStyle.Length.Basic

/-!
# Selectors, values, declarations and rules

The parts of a stylesheet are one type, `Entity`, because they are composed freely: a compound
selector holds a list of entities, most of which are descriptors, and a function holds a list of
arguments of any kind. What an entity may stand for is decided where it is used: in the block of a
rule as well any part may stand in place of a declaration, although a `Rule` has declarations only.
Entities that are no part of a stylesheet, `Foreign`, can be nested too, and are refused when they
are met.

`Entity.isDescriptor` and `Entity.isSelector` name the kinds that the rest of the library
distinguishes.
-/

set_option autoImplicit false

namespace VectorStyle

/-! ## The leaves -/

/-- A condition on one element. -/
inductive Descriptor where
  | ofClass (name : String)
  | ofName (name : String)
  | ofId (name : String)
  | ofPseudoClass (name : String)
  | anyElement
  | withAttribute (name value : String)
deriving DecidableEq, Repr

/-- A relation between the elements on its two sides: `+` and `>`. -/
inductive Combinator where
  | nearby
  | child
deriving DecidableEq, Repr

/-- A plain value. -/
inductive Literal where
  | none
  | bool (b : Bool)
  | int (i : Int)
  | float (x : Binary64)
  | text (s : String)
deriving DecidableEq

/-- What is no part of a stylesheet. -/
inductive Foreign where
  | literal (l : Literal)
  | unit (u : LengthUnit)
  | color (c : Color)
  | element (e : Element)

/-! ## Entities -/

mutual

/-- A part of a stylesheet, or something that stands where one is expected. -/
inductive Entity where
  | descriptor (d : Descriptor)
  | combinator (c : Combinator)
  | compound (parts : List Entity)
  | sequence (items : List Entity)
  | block (alternatives : List (List Entity)) (parts : List Entity)
  | declaration (d : Declaration)
  | ident (name : String)
  | reference (name : String)
  | string (text : String)
  | number (l : Length)
  | color (c : Color)
  | function (name : String) (args : List Entity)
  | comma
  | slash
  | length (l : Length)
  | foreign (f : Foreign)

/-- A property and its value: groups of terms. -/
structure Declaration where
  property : String
  groups : List (List Entity)

end

/-- Alternative selector lists, written ancestor first, that share declarations. -/
structure Rule where
  alternatives : List (List Entity)
  declarations : List Declaration

namespace Declaration

/-- The terms of the value, the groups flattened. -/
def terms (d : Declaration) : List Entity := d.groups.flatten

/-- The declaration whose terms are one group. -/
def single (property : String) (terms : List Entity) : Declaration := ⟨property, [terms]⟩

theorem terms_single (property : String) (ts : List Entity) : (single property ts).terms = ts := by
  simp [single, terms]

end Declaration

namespace Entity

/-- A rule as an entity: a block whose parts are the declarations. -/
def rule (r : Rule) : Entity := block r.alternatives (r.declarations.map declaration)

/-- Whether an entity is a condition on one element. -/
def isDescriptor : Entity → Bool
  | descriptor _ => true
  | _ => false

/-- Whether an entity is a combinator or a compound selector. -/
def isSelector : Entity → Bool
  | combinator _ | compound _ => true
  | _ => false

end Entity

end VectorStyle
