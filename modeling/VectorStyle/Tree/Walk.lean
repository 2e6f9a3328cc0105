import VectorStyle.Tree.Basic

/-!
# Walking a tree with a stack

`Tree.walk` visits a tree with a stack of what is still to be visited. The top of the stack is
visited first; its children are then put on the stack, the last child first, so that they come off
it from left to right and before anything that was on the stack already.

Main statements: `walkFrom_eq`, the stack is worked off entry by entry, and `walk_eq_visits`, the
walk is document order.
-/

set_option autoImplicit false

namespace VectorStyle

/-- What is still to be visited: a tree, the siblings before it in document order, and the levels of
its parent. -/
structure Pending (α : Type) where
  tree : Tree α
  preceding : List α
  outer : Context α

namespace Pending

variable {α : Type}

/-- The context of the tree's root. -/
def context (p : Pending α) : Context α := PathStep.level ⟨p.tree.value, p.preceding⟩ :: p.outer

/-- The visit of the tree's root. -/
def visit (p : Pending α) : Visit α := ⟨p.tree.value, p.context⟩

/-- The child at a position. -/
def child (p : Pending α) (i : Nat) (h : i < p.tree.children.length) : Pending α :=
  ⟨p.tree.children[i], (p.tree.children.take i).map Tree.value, p.context⟩

/-- The children from left to right. -/
def inner (p : Pending α) : List (Pending α) :=
  p.tree.children.mapFinIdx fun i _ h => p.child i h

/-- The stack after the children have been put on it, the last one first. -/
def pushInner (p : Pending α) (stack : List (Pending α)) : List (Pending α) :=
  p.inner.reverse.foldl (fun stack child => child :: stack) stack

/-- The first child ends up on top. -/
theorem pushInner_eq (p : Pending α) (stack : List (Pending α)) :
    p.pushInner stack = p.inner ++ stack := by
  have push (l stack : List (Pending α)) :
      l.foldl (fun stack child => child :: stack) stack = l.reverse ++ stack := by
    induction l generalizing stack with
    | nil => rfl
    | cons q l ih => simp [ih]
  rw [pushInner, push, List.reverse_reverse]

/-- The number of nodes still to be visited. -/
def weight (stack : List (Pending α)) : Nat := Tree.sizes (stack.map tree)

theorem map_tree_inner (p : Pending α) : p.inner.map tree = p.tree.children := by
  apply List.ext_getElem <;> simp [inner, child]

theorem weight_inner (p : Pending α) : weight p.inner + 1 = p.tree.size := by
  obtain ⟨⟨v, ts⟩, preceding, outer⟩ := p
  rw [weight, map_tree_inner]
  rfl

theorem weight_pushInner (p : Pending α) (stack : List (Pending α)) :
    weight (p.pushInner stack) + 1 = weight (p :: stack) := by
  have h := weight_inner p
  simp only [pushInner_eq, weight, List.map_append, Tree.sizes_append, List.map_cons,
    Tree.sizes] at h ⊢
  omega

end Pending

namespace Tree

variable {α : Type}

/-- The visits of what is on the stack, the top first. -/
def walkFrom : List (Pending α) → List (Visit α)
  | [] => []
  | p :: stack => p.visit :: walkFrom (p.pushInner stack)
termination_by stack => Pending.weight stack
decreasing_by
  have h := Pending.weight_pushInner p stack
  omega

/-- Every node of a tree with its context, in document order. -/
def walk (t : Tree α) : List (Visit α) := walkFrom [⟨t, [], []⟩]

/-! ## Agreement with the recursive visits -/

/-- The visits of siblings are the visits of each with the values before it. -/
theorem visitsAll_eq_flatten (preceding : List α) (outer : Context α) (ts : List (Tree α)) :
    visitsAll preceding outer ts =
      (ts.mapFinIdx fun i t _ =>
        t.visits (preceding ++ (ts.take i).map value) outer).flatten := by
  induction ts generalizing preceding with
  | nil => rfl
  | cons t ts ih => simp [visitsAll, ih]

/-- The visits of a pending tree. -/
def visitsOf (p : Pending α) : List (Visit α) := p.tree.visits p.preceding p.outer

theorem visitsOf_eq (p : Pending α) : visitsOf p = p.visit :: p.inner.flatMap visitsOf := by
  obtain ⟨⟨v, ts⟩, preceding, outer⟩ := p
  -- both sides list the visits of the children by their positions
  rw [visitsOf, visits, visitsAll_eq_flatten, List.flatMap_def]
  congr 2
  apply List.ext_getElem <;>
    simp [Pending.inner, Pending.child, visitsOf, children, Pending.context, value]

/-- The stack is worked off entry by entry. -/
theorem walkFrom_eq (stack : List (Pending α)) : walkFrom stack = stack.flatMap visitsOf := by
  fun_induction walkFrom stack with
  | case1 => rfl
  | case2 p stack ih =>
    rw [ih, Pending.pushInner_eq, List.flatMap_append, List.flatMap_cons, visitsOf_eq p,
      List.cons_append]

theorem walk_eq_visits (t : Tree α) : t.walk = t.visits [] [] := by
  rw [walk, walkFrom_eq, List.flatMap_singleton, visitsOf]

end Tree

end VectorStyle
