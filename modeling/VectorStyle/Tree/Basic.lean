import VectorStyle.Context

/-!
# Trees in document order

A document is a tree of values. `Tree.visits` is document order by recursion: each node with its
context, then the visits of its children from left to right, each child with the values of its
preceding siblings.

Main statement: `length_visits`, there is one visit for each node.
-/

set_option autoImplicit false

namespace VectorStyle

/-- A tree: a value and the trees below it, in order. -/
inductive Tree (α : Type) where
  | node (value : α) (children : List (Tree α))

/-- A node's value and its context. -/
structure Visit (α : Type) where
  value : α
  context : Context α

namespace Tree

variable {α β : Type}

/-- The value at the root. -/
def value : Tree α → α
  | node v _ => v

/-- The trees below the root. -/
def children : Tree α → List (Tree α)
  | node _ ts => ts

mutual

/-- The number of nodes. -/
def size : Tree α → Nat
  | node _ ts => sizes ts + 1

/-- The number of nodes of several trees. -/
def sizes : List (Tree α) → Nat
  | [] => 0
  | t :: ts => t.size + sizes ts

end

mutual

/-- The tree with its values replaced. -/
def map (f : α → β) : Tree α → Tree β
  | node v ts => node (f v) (mapAll f ts)

/-- The trees with their values replaced. -/
def mapAll (f : α → β) : List (Tree α) → List (Tree β)
  | [] => []
  | t :: ts => t.map f :: mapAll f ts

end

mutual

/-- The visits of a tree whose root has the given preceding siblings and outer levels. -/
def visits (preceding : List α) (outer : Context α) : Tree α → List (Visit α)
  | node v ts =>
    let context := PathStep.level ⟨v, preceding⟩ :: outer
    ⟨v, context⟩ :: visitsAll [] context ts

/-- The visits of siblings, of which the given ones have been visited. -/
def visitsAll (preceding : List α) (outer : Context α) : List (Tree α) → List (Visit α)
  | [] => []
  | t :: ts => t.visits preceding outer ++ visitsAll (preceding ++ [t.value]) outer ts

end

theorem sizes_append (ts us : List (Tree α)) : sizes (ts ++ us) = sizes ts + sizes us := by
  induction ts with
  | nil => exact (Nat.zero_add _).symm
  | cons t ts ih => rw [List.cons_append, sizes, sizes, ih, Nat.add_assoc]

mutual

theorem length_visits (preceding : List α) (outer : Context α) :
    ∀ t : Tree α, (t.visits preceding outer).length = t.size
  | node v ts => by
    rw [visits, List.length_cons, length_visitsAll, size]

theorem length_visitsAll (preceding : List α) (outer : Context α) :
    ∀ ts : List (Tree α), (visitsAll preceding outer ts).length = sizes ts
  | [] => rfl
  | t :: ts => by
    rw [visitsAll, List.length_append, length_visits, length_visitsAll, sizes]

end

end Tree

end VectorStyle
