/-!
# Contexts

The context of an element is a list of levels, innermost first. A level lists an element and then
its preceding siblings, nearest first: the first level belongs to the element itself, the second to
its parent, and so on.

A context can be given by the path that leads from the root of a document to the element.

Main statements: `length_ofPath`, a path of `n` elements gives a context of `n` levels, none empty;
and `element?_ofPath`, the levels start with the elements of the path.
-/

set_option autoImplicit false

namespace VectorStyle

/-- Levels, innermost first; a level starts with its element and goes on with the siblings before
it, nearest first. -/
abbrev Context (α : Type) : Type := List (List α)

/-- A step of a path: an element and its preceding siblings in document order. -/
structure PathStep (α : Type) where
  element : α
  preceding : List α

/-- The level of a step. -/
def PathStep.level {α : Type} (s : PathStep α) : List α := s.element :: s.preceding.reverse

namespace Context

/-- The context at the end of a path, which is given from the root on. -/
def ofPath {α : Type} (path : List (PathStep α)) : Context α := (path.map PathStep.level).reverse

/-- The element of a level, if the level is there and is not empty. -/
def element? {α : Type} (context : Context α) (j : Nat) : Option α := context[j]?.bind List.head?

/-- The levels of a way's end stand in front of those of its beginning. -/
theorem ofPath_append {α : Type} (path path' : List (PathStep α)) :
    ofPath (path ++ path') = ofPath path' ++ ofPath path := by
  simp [ofPath]

theorem length_ofPath {α : Type} (path : List (PathStep α)) :
    (ofPath path).length = path.length ∧ ∀ level ∈ ofPath path, level ≠ [] := by
  constructor
  · simp [ofPath]
  · intro level h
    obtain ⟨s, -, rfl⟩ := List.mem_map.1 (List.mem_reverse.1 h)
    exact List.cons_ne_nil _ _

theorem element?_zero_eq_some_iff {α : Type} {context : Context α} {e : α} :
    context.element? 0 = some e ↔ ∃ near up, context = (e :: near) :: up := by
  constructor
  · intro h
    match context, h with
    | (_ :: near) :: up, rfl => exact ⟨near, up, rfl⟩
  · rintro ⟨near, up, rfl⟩
    rfl

theorem element?_drop {α : Type} (context : Context α) (n j : Nat) :
    element? (context.drop n) j = context.element? (j + n) := by
  rw [element?, List.getElem?_drop, Nat.add_comm, element?]

/-- The elements of a path's context are those of the path, counted from its end. -/
theorem element?_ofPath {α : Type} (path : List (PathStep α)) (j : Nat) :
    (ofPath path).element? j = path.reverse[j]?.map PathStep.element := by
  rw [element?, ofPath, ← List.map_reverse, List.getElem?_map]
  cases path.reverse[j]? <;> rfl

end Context

end VectorStyle
