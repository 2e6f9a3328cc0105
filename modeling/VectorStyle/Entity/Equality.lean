import VectorStyle.Entity.Basic

/-!
# Equality of entities

Two entities are the same if they are of one kind and their parts are the same. Numbers are compared
as numbers: the two zeros are the same, NaN is the same as nothing, and truth values count as the
whole numbers zero and one. A unit is the same as the text of its suffix. An element is the same
only as itself, so two elements that stand in different places are never the same.
-/

set_option autoImplicit false

namespace VectorStyle

/-- Whether a number of the 64-bit format is a given whole number. -/
def Binary64.isInt (x : Binary64) (i : Int) : Bool :=
  match x with
  | .finite s n _ => signedUnits s n == i * (one : Int)
  | _ => false

/-- The whole number that a plain value counts as. -/
def Literal.int? : Literal → Option Int
  | bool b => some (if b then 1 else 0)
  | int i => some i
  | _ => Option.none

/-- Whether two plain values are the same. -/
def Literal.same : Literal → Literal → Bool
  | none, none => true
  | text s, text t => s == t
  | float x, float y => x.same y
  | float x, l => l.int?.any x.isInt
  | l, float x => l.int?.any x.isInt
  | l, m => l.int?.isSome && l.int? == m.int?

/-- Whether two things that are no part of a stylesheet are the same. -/
def Foreign.same : Foreign → Foreign → Bool
  | literal l, literal m => l.same m
  | unit u, unit v => u == v
  | unit u, literal (.text s) => u.suffix == s
  | literal (.text s), unit u => u.suffix == s
  | color c, color d => c == d
  | _, _ => false

mutual

/-- Whether two entities are the same. -/
def Entity.same : Entity → Entity → Bool
  | .descriptor d, .descriptor e => d == e
  | .combinator c, .combinator d => c == d
  | .compound ps, .compound qs => sameAll ps qs
  | .sequence is, .sequence js => sameAll is js
  | .block as ps, .block bs qs => sameGroups as bs && sameAll ps qs
  | .declaration d, .declaration e => d.same e
  | .ident n, .ident m => n == m
  | .reference n, .reference m => n == m
  | .string s, .string t => s == t
  | .number l, .number m => l.same m
  | .color c, .color d => c == d
  | .function n as, .function m bs => n == m && sameAll as bs
  | .comma, .comma => true
  | .slash, .slash => true
  | .length l, .length m => l.same m
  | .foreign f, .foreign g => f.same g
  | _, _ => false

/-- Whether two lists have the same members in the same order. -/
def sameAll : List Entity → List Entity → Bool
  | [], [] => true
  | e :: es, f :: fs => e.same f && sameAll es fs
  | _, _ => false

/-- Whether two lists of lists have the same members in the same order. -/
def sameGroups : List (List Entity) → List (List Entity) → Bool
  | [], [] => true
  | g :: gs, h :: hs => sameAll g h && sameGroups gs hs
  | _, _ => false

/-- Whether two declarations are the same. -/
def Declaration.same : Declaration → Declaration → Bool
  | ⟨p, gs⟩, ⟨q, hs⟩ => p == q && sameGroups gs hs

end

end VectorStyle
