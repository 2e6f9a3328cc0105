import Mathlib.Data.List.Forall2
import VectorStyle.Proofs.Tree.Positions

/-!
# Document order

The walk with a stack meets every node of a tree once. A node comes before the nodes below it, and
the nodes below one child before those below the children to the right of it; on positions this is
the lexicographic order of lists.

The context of a visit can be built without the walk: the steps at the initial parts of a position
are the way to it, and the context of that way is the one of the visit (`Tree.IsVisitOf`).

Main statements: `positions_pairwise_lex`, the positions are listed in document order; and
`walk_in_document_order`, the walk visits each position once, in document order, with the context
of the way to it.
-/

set_option autoImplicit false

namespace VectorStyle.Tree

variable {α : Type}

/-! ## The order of the positions -/

/-- Positions that begin with different indices are in the order of the indices. -/
theorem lex_of_mem_positionsAll {i : Nat} {ts : List (Tree α)} {p q : List Nat}
    (hq : q ∈ positionsAll (i + 1) ts) : List.Lex (· < ·) (i :: p) q := by
  rw [mem_positionsAll_iff] at hq
  obtain ⟨k, q, rfl, -⟩ := hq
  apply List.Lex.rel
  omega

mutual

/-- The positions are listed in document order. -/
theorem positions_pairwise_lex : ∀ t : Tree α, t.positions.Pairwise (List.Lex (· < ·))
  | node v ts => by
    rw [positions, List.pairwise_cons]
    refine ⟨?_, positionsAll_pairwise_lex 0 ts⟩
    intro p hp
    rw [mem_positionsAll_iff] at hp
    obtain ⟨k, q, rfl, -⟩ := hp
    exact .nil

theorem positionsAll_pairwise_lex : ∀ (i : Nat) (ts : List (Tree α)),
    (positionsAll i ts).Pairwise (List.Lex (· < ·))
  | i, [] => .nil
  | i, t :: ts => by
    rw [positionsAll, List.pairwise_append, List.pairwise_map]
    refine ⟨(positions_pairwise_lex t).imp .cons, positionsAll_pairwise_lex (i + 1) ts, ?_⟩
    -- the positions below the first child come before those below the others
    intro p hp q hq
    obtain ⟨p, -, rfl⟩ := List.mem_map.1 hp
    exact lex_of_mem_positionsAll hq

end

/-- No position is listed twice. -/
theorem nodup_positions (t : Tree α) : t.positions.Nodup := by
  refine (positions_pairwise_lex t).imp ?_
  rintro p _ hlex rfl
  exact List.lex_irrefl Nat.lt_irrefl p hlex

/-! ## The visits -/

/-- A visit of the node at a position. The context is built from the way to the position; counted
from the position, its levels are the ancestors, each with its preceding siblings nearest first. -/
structure IsVisitOf (t : Tree α) (p : List Nat) (v : Visit α) : Prop where
  value : t.value? p = some v.value
  context : ∃ path, path.map some = p.inits.map t.step? ∧ v.context = Context.ofPath path
  length : v.context.length = p.length + 1
  level : ∀ j ≤ p.length, ∃ a, t.ancestor? p j = some a ∧
    v.context[j]? = some (a :: (t.siblingsBefore (p.take (p.length - j))).reverse)
  ne_nil : ∀ level ∈ v.context, level ≠ []
  getLast? : v.context.getLast? = some [t.value]

/-- Every initial part of a position is a position. -/
theorem isSome_subtree?_take {t : Tree α} {p : List Nat} (h : (t.subtree? p).isSome = true)
    (k : Nat) : (t.subtree? (p.take k)).isSome = true := by
  rw [← List.take_append_drop k p, subtree?_append] at h
  exact Option.isSome_of_isSome_bind h

/-- The value at a position and the context of the way to it make a visit. -/
theorem isVisitOf_ofPath_pathTo {t : Tree α} {p : List Nat} {x : α} (hx : t.value? p = some x) :
    t.IsVisitOf p ⟨x, Context.ofPath (t.pathTo [] p)⟩ := by
  have hsome : (t.subtree? p).isSome = true := by
    rw [← isSome_value?, hx]
    rfl
  obtain ⟨hlength, hne⟩ := Context.length_ofPath (t.pathTo [] p)
  rw [length_pathTo [] hsome] at hlength
  refine ⟨hx, ⟨_, map_some_pathTo hsome, rfl⟩, hlength, ?_, hne, ?_⟩
  · intro j hj
    have hancestor : (t.ancestor? p j).isSome = true := by
      rw [ancestor?, if_pos hj, isSome_value?]
      exact isSome_subtree?_take hsome _
    obtain ⟨a, ha⟩ := Option.isSome_iff_exists.1 hancestor
    refine ⟨a, ha, ?_⟩
    rw [ancestor?, if_pos hj] at ha
    rw [getElem?_ofPath_pathTo hsome hj, step?, ha]
    rfl
  · -- the outermost level is that of the first step
    rw [Context.ofPath, List.getLast?_reverse]
    cases p <;> rfl

theorem forall₂_of_map_some {β γ : Type} {R : β → γ → Prop} {f : β → Option γ} {bs : List β}
    {cs : List γ} (h : cs.map some = bs.map f) (hR : ∀ b ∈ bs, ∀ c, f b = some c → R b c) :
    List.Forall₂ R bs cs := by
  induction bs generalizing cs with
  | nil =>
    rw [List.map_nil, List.map_eq_nil_iff] at h
    subst h
    exact .nil
  | cons b bs ih =>
    cases cs with
    | nil => simp at h
    | cons c cs =>
      rw [List.map_cons, List.map_cons, List.cons.injEq] at h
      rw [List.forall_mem_cons] at hR
      exact .cons (hR.1 c h.1.symm) (ih h.2 hR.2)

/-- The walk visits every node once, in document order, and each with the context of the way to
it. -/
theorem walk_in_document_order (t : Tree α) :
    (∀ p, p ∈ t.positions ↔ (t.subtree? p).isSome = true) ∧
      t.positions.Nodup ∧
      t.positions.Pairwise (List.Lex (· < ·)) ∧
      List.Forall₂ t.IsVisitOf t.positions t.walk := by
  refine ⟨mem_positions_iff t, nodup_positions t, positions_pairwise_lex t, ?_⟩
  apply forall₂_of_map_some (map_some_walk t)
  intro p _ v hv
  rw [visitAt?, Option.map_eq_some_iff] at hv
  obtain ⟨x, hx, rfl⟩ := hv
  rw [List.append_nil]
  exact isVisitOf_ofPath_pathTo hx

end VectorStyle.Tree
