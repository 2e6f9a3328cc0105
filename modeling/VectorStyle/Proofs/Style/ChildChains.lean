import VectorStyle.Proofs.Selector.Descendants
import VectorStyle.Proofs.Tree.Positions
import VectorStyle.Style.Resolution

/-!
# Child chains in a document

An alternative such as `b a2 > a1 > a0` names a target, then its parents one level at a time, and
then ancestors anywhere further out. It is written ancestor first and matched target first, against
the context that the walk gives the target.

The run takes the target at the first level and a parent at each level after it, and never looks
further out for one of them; what is left is a list of compounds for the ancestors beyond.

Main statements: `outcome_children_append_eq_ok_true_iff`, a chain of `>` asks for one element on
each level; and `isHit_childChain`, an alternative of this form applies to an element exactly if its
ancestors are as the alternative says.
-/

set_option autoImplicit false

namespace VectorStyle

namespace Context

/-- Compounds for successive levels, each after a `>`, target first. -/
def children (compounds : List (List Descriptor)) : List Entity :=
  compounds.flatMap fun ds => [.combinator .child, .compoundOf ds]

theorem children_cons (ds : List Descriptor) (compounds : List (List Descriptor)) :
    children (ds :: compounds) = .combinator .child :: .compoundOf ds :: children compounds := rfl

theorem forall_getElem?_cons_iff {α : Type} {P : Nat → α → Prop} {a : α} {l : List α} :
    (∀ i b, (a :: l)[i]? = some b → P i b) ↔ P 0 a ∧ ∀ i b, l[i]? = some b → P (i + 1) b := by
  constructor
  · intro h
    exact ⟨h 0 a rfl, fun i b hb => h (i + 1) b hb⟩
  · rintro ⟨hzero, hsucc⟩ i b hb
    cases i with
    | zero =>
      obtain rfl := Option.some.inj hb
      exact hzero
    | succ i => exact hsucc i b hb

/-- Without an element at hand, `>` fails. -/
theorem outcome_child_of_element?_eq_none {context : Context Profile} {rest : List Entity}
    (h : context.element? 0 = none) : outcome context (.combinator .child :: rest) = .ok false := by
  cases context with
  | nil => rw [outcome]
  | cons level up =>
    cases level with
    | nil => simp [outcome]
    | cons e near => cases h

/-- A chain of `>` asks for an element on each level, and leaves the levels beyond to what
follows. -/
theorem outcome_children_append_eq_ok_true_iff (context : Context Profile)
    (compounds : List (List Descriptor)) (rest : List Entity) :
    outcome context (children compounds ++ rest) = .ok true ↔
      (∀ i ds, compounds[i]? = some ds → ∃ e, context.element? i = some e ∧ e.Satisfies ds) ∧
        outcome (context.drop compounds.length) rest = .ok true := by
  induction compounds generalizing context with
  | nil => simp [children]
  | cons ds compounds ih =>
    rw [children_cons, List.cons_append, List.cons_append, forall_getElem?_cons_iff]
    cases he : context.element? 0 with
    | none => simp [outcome_child_of_element?_eq_none he]
    | some e =>
      obtain ⟨near, up, rfl⟩ := element?_zero_eq_some_iff.1 he
      -- the chain goes on from the next level, whatever stands beside the element
      have hd := e.describedBy_map_descriptor ds
      rw [Entity.compoundOf, outcome_child_of_describedBy hd]
      by_cases hsat : e.Satisfies ds
      · rw [if_pos (decide_eq_true hsat), ih]
        simp only [Option.some.injEq, exists_eq_left', hsat, true_and]
        rfl
      · simp [hsat]

end Context

namespace Style

/-- An alternative that asks for a target, for its parents one level at a time, and for ancestors
anywhere further out, written ancestor first. -/
def childChain (target : List Descriptor) (parents ancestors : List (List Descriptor)) :
    List Entity :=
  ancestors.reverse.map .compoundOf ++
    (parents.reverse.flatMap fun ds => [.compoundOf ds, .combinator .child]) ++
      [.compoundOf target]

theorem reverse_childChain (target : List Descriptor) (parents ancestors : List (List Descriptor)) :
    (childChain target parents ancestors).reverse =
      .compoundOf target :: (Context.children parents ++ ancestors.map .compoundOf) := by
  rw [childChain, List.reverse_append, List.reverse_append, List.reverse_flatMap,
    List.reverse_reverse, ← List.map_reverse, List.reverse_reverse]
  rfl

/-- Alternatives of this form always have an answer. -/
theorem exists_isHit_childChain_eq_ok (context : Context Profile) (target : List Descriptor)
    (parents ancestors : List (List Descriptor)) :
    ∃ b, isHit context (childChain target parents ancestors) = .ok b := by
  rw [isHit, Context.isMatch_eq_outcome]
  apply Context.exists_outcome_eq_ok_of_compoundOf
  intro parts hmem
  rw [List.mem_reverse, childChain, List.mem_append, List.mem_append, List.mem_flatMap] at hmem
  rcases hmem with (hmem | ⟨ds, -, hmem⟩) | hmem
  · obtain ⟨ds, -, hds⟩ := List.mem_map.1 hmem
    exact ⟨ds, hds.symm⟩
  · exact ⟨ds, by simpa using hmem⟩
  · exact ⟨target, List.mem_singleton.1 hmem⟩

/-- Where the element at hand is as the target, the parents are the elements of the next levels and
the ancestors are met beyond them. -/
theorem isHit_childChain_iff {context : Context Profile} {e : Profile}
    (he : context.element? 0 = some e) {target : List Descriptor} (htarget : e.Satisfies target)
    (parents ancestors : List (List Descriptor)) :
    isHit context (childChain target parents ancestors) = .ok true ↔
      (∀ i ds, parents[i]? = some ds →
        ∃ a, context.element? (i + 1) = some a ∧ a.Satisfies ds) ∧
        MetFrom context.element? (parents.length + 1) ancestors := by
  obtain ⟨near, up, rfl⟩ := Context.element?_zero_eq_some_iff.1 he
  have hd := e.describedBy_map_descriptor target
  -- what the chain leaves of the context are the levels beyond the last parent
  have hbeyond : MetFrom (Context.element? ((e :: near) :: up)) (parents.length + 1) ancestors ↔
      MetFrom (Context.element? (up.drop parents.length)) 0 ancestors := by
    have hdrop : Context.element? (up.drop parents.length) =
        fun j => Context.element? ((e :: near) :: up) (j + (parents.length + 1)) := by
      funext j
      exact Context.element?_drop up parents.length j
    rw [hdrop, ← metFrom_add_iff, Nat.zero_add]
  rw [isHit, Context.isMatch_eq_outcome, reverse_childChain, Entity.compoundOf,
    Context.outcome_compound_of_describedBy hd, if_pos (decide_eq_true htarget),
    Context.outcome_children_append_eq_ok_true_iff,
    Context.outcome_map_compoundOf_eq_ok_true_iff, hbeyond]
  rfl

/-! ## In a document -/

theorem element?_profiles (context : Context Element) (j : Nat) :
    (profiles context).element? j = (context.element? j).map Element.profile := by
  rw [profiles, Context.element?, Context.element?, List.getElem?_map]
  cases context[j]? with
  | none => rfl
  | some level => exact List.head?_map

/-- The levels of the context at a position start with what selectors see of the ancestors. -/
theorem element?_profiles_pathTo {t : Tree Element} {p : List Nat}
    (h : (t.subtree? p).isSome = true) (j : Nat) :
    (profiles (Context.ofPath (t.pathTo [] p))).element? j =
      (t.ancestor? p j).map Element.profile := by
  rw [element?_profiles, Tree.element?_ofPath_pathTo h]

/-- The walk visits the element at a position with one context, and an alternative for a target that
the element satisfies applies there exactly if each parent of the alternative is satisfied by the
ancestor that many levels up, and the ancestors of the alternative are met in their order among the
ancestors beyond. -/
theorem isHit_childChain (t : Tree Element) {p : List Nat} {e : Element} (hp : t.value? p = some e)
    {target : List Descriptor} (htarget : e.profile.Satisfies target)
    (parents ancestors : List (List Descriptor)) :
    ∃ context, (∀ v, t.VisitedAt p v ↔ v = ⟨e, context⟩) ∧
      ∃ b, isHit (profiles context) (childChain target parents ancestors) = .ok b ∧
        (b = true ↔
          (∀ i ds, parents[i]? = some ds →
            ∃ a, t.ancestor? p (i + 1) = some a ∧ a.profile.Satisfies ds) ∧
          MetFrom (fun j => (t.ancestor? p j).map Element.profile) (parents.length + 1)
            ancestors) := by
  let context := Context.ofPath (t.pathTo [] p)
  have helement := element?_profiles_pathTo (Tree.isSome_subtree?_of_value? hp)
  have hzero : (profiles context).element? 0 = some e.profile := by
    rw [helement, Tree.ancestor?_zero, hp]
    rfl
  have hiff := isHit_childChain_iff hzero htarget parents ancestors
  obtain ⟨b, hb⟩ := exists_isHit_childChain_eq_ok (profiles context) target parents ancestors
  refine ⟨context, Tree.visitedAt_iff_eq hp, b, hb, ?_⟩
  rw [hb, Except.ok.injEq] at hiff
  rw [hiff, funext helement]
  simp only [Option.map_eq_some_iff, exists_exists_and_eq_and]

/-- An element with a name and nothing else. -/
def named (name : String) (h : name ≠ "") : Element := { name, name_ne := h }

/-- A group with a circle in it. -/
def groupTree : Tree Element :=
  .node (named "g" (by decide)) [.node (named "circle" (by decide)) []]

/-- A drawing with a rectangle and, beside it, the group. -/
def drawingTree : Tree Element :=
  .node (named "svg" (by decide)) [.node (named "rect" (by decide)) [], groupTree]

/-- `svg g > circle` applies to the circle, and `svg > circle` does not: the drawing is not the
circle's parent. -/
theorem isHit_childChain_circle :
    drawingTree.value? [1, 0] = some (named "circle" (by decide)) ∧
      (named "circle" (by decide)).profile.Satisfies [.ofName "circle"] ∧
      ∃ context, (∀ v, drawingTree.VisitedAt [1, 0] v ↔
          v = ⟨named "circle" (by decide), context⟩) ∧
        isHit (profiles context)
          (childChain [.ofName "circle"] [[.ofName "g"]] [[.ofName "svg"]]) = .ok true ∧
        isHit (profiles context) (childChain [.ofName "circle"] [[.ofName "svg"]] []) =
          .ok false := by
  have hp : drawingTree.value? [1, 0] = some (named "circle" (by decide)) := rfl
  have htarget : (named "circle" (by decide)).profile.Satisfies [.ofName "circle"] := by decide
  obtain ⟨context, hvisit, b, hb, hiff⟩ :=
    isHit_childChain drawingTree hp htarget [[.ofName "g"]] [[.ofName "svg"]]
  have hgroup : ∀ i ds, [[Descriptor.ofName "g"]][i]? = some ds →
      ∃ a, drawingTree.ancestor? [1, 0] (i + 1) = some a ∧ a.profile.Satisfies ds := by
    rw [Context.forall_getElem?_cons_iff]
    exact ⟨⟨named "g" (by decide), rfl, by decide⟩, by simp⟩
  have hdrawing : MetFrom (fun j => (drawingTree.ancestor? [1, 0] j).map Element.profile) 2
      [[.ofName "svg"]] :=
    ⟨[2], by simp, by simp, .cons ⟨(named "svg" (by decide)).profile, rfl, by decide⟩ .nil⟩
  rw [hiff.2 ⟨hgroup, hdrawing⟩] at hb
  obtain ⟨context', hvisit', b', hb', hiff'⟩ :=
    isHit_childChain drawingTree hp htarget [[.ofName "svg"]] []
  -- both alternatives are tested in one context
  obtain rfl := Tree.context_eq_of_visitedAt_iff hvisit hvisit'
  have hrefused : b' = false := by
    rw [Bool.eq_false_iff, ne_eq, hiff']
    rintro ⟨hparents, -⟩
    obtain ⟨a, ha, hsat⟩ := hparents 0 _ rfl
    obtain rfl : named "g" (by decide) = a := Option.some.inj ha
    exact absurd hsat (by decide)
  rw [hrefused] at hb'
  exact ⟨hp, htarget, context', hvisit, hb, hb'⟩

end Style

end VectorStyle
